import CpuControlPlane.Daemon.Requests

/-! # The changes `UpdatePod` makes

`UpdatePod` compares the containers stored for the pod with those of the request by nested loops
(`getDeletedContainers`, `getChangedContainers`, `getNotModifiedContainers`,
`getAddedContainers`).  Here the same update is described id by id, as a list of
`ContainerChange`s:

- a stored container whose id the request does not list is dropped: `DeleteContainer`;
- a listed id whose new record differs from the stored one is replaced: `DeleteContainer` on the
  stored record and, only when that succeeds, `AssignContainer` on the new one;
- a listed id that is not stored is added: `AssignContainer`.

`ContainerChange.applyAll` makes the policy calls of the changes in order and records whether
each change succeeded.  `updatePod_changes` shows that, when the stored ids are distinct and every
stored container carries the pod's id, `UpdatePod` makes exactly these calls, whatever each of
them returns.  It keeps the unchanged records and the new records whose calls succeeded, and it
reports a `RuntimeError` exactly when some call failed. -/

namespace CpuControlPlane

/-- A change `UpdatePod` makes to one container of the pod. -/
inductive ContainerChange where
  | drop (c : Container)
  | replace (old new : Container)
  | add (c : Container)
  deriving DecidableEq, Repr

namespace ContainerChange

/-- The id of the container a change is about. -/
def cid : ContainerChange → String
  | drop c => c.cid
  | replace old _ => old.cid
  | add c => c.cid

/-- The record a change leaves in the pod: the new record of a replacement or an addition whose
calls all succeeded. -/
def kept : ContainerChange × Bool → Option Container
  | (replace _ new, true) => some new
  | (add c, true) => some c
  | _ => none

section Apply

variable (al : Allocator) (env : Env)

/-- The policy calls of one change, and whether they all succeeded. -/
def apply : ContainerChange → Daemon → Bool × Daemon
  | drop c, d =>
    match al.freeCpus env c d with
    | (err, d) => (err.isNone, d)
  | replace old new, d =>
    match al.freeCpus env old d with
    | (some _, d) => (false, d)
    | (none, d) =>
      match al.takeCpus env new d with
      | (err, d) => (err.isNone, d)
  | add c, d =>
    match al.takeCpus env c d with
    | (err, d) => (err.isNone, d)

/-- The changes applied one after the other: each with whether it succeeded, and the daemon after
them all. -/
def applyAll : List ContainerChange → Daemon → List (ContainerChange × Bool) × Daemon
  | [], d => ([], d)
  | ch :: rest, d =>
    ((ch, (apply al env ch d).1) :: (applyAll rest (apply al env ch d).2).1, (applyAll rest (apply al env ch d).2).2)

theorem applyAll_append : ∀ (l₁ l₂ : List ContainerChange) (d : Daemon),
    applyAll al env (l₁ ++ l₂) d = ((applyAll al env l₁ d).1 ++ (applyAll al env l₂ (applyAll al env l₁ d).2).1,
      (applyAll al env l₂ (applyAll al env l₁ d).2).2)
  | [], _, _ => rfl
  | ch :: l₁, l₂, d => by rw [List.cons_append, applyAll, applyAll_append l₁ l₂, applyAll]; rfl

/-- A drop never leaves a record in the pod. -/
theorem filterMap_kept_drops : ∀ (cs : List Container) (d : Daemon),
    (applyAll al env (cs.map drop) d).1.filterMap kept = []
  | [], _ => rfl
  | _ :: cs, _ => by simp only [List.map_cons, applyAll, List.filterMap_cons, kept, filterMap_kept_drops cs]

/-! The three loops of `UpdatePod` apply their changes. -/

theorem deleteContainers_eq : ∀ (cs : List Container) (failed : List (String × Error)) (d : Daemon),
    (Daemon.deleteContainers al env cs failed d).2 = (applyAll al env (cs.map drop) d).2 ∧
      ((Daemon.deleteContainers al env cs failed d).1 = none ↔
        failed = [] ∧ ∀ r ∈ (applyAll al env (cs.map drop) d).1, r.2 = true)
  | [], failed, d => by simp [Daemon.deleteContainers, errorOrNil, applyAll]
  | c :: cs, failed, d => by
    simp only [Daemon.deleteContainers, List.map_cons, applyAll, apply]
    rcases h : al.freeCpus env c d with ⟨_ | err, d'⟩
    · simpa using deleteContainers_eq cs failed d'
    · simpa using deleteContainers_eq cs (failed ++ [(c.cid, err)]) d'

theorem updateContainers_eq : ∀ (qs : List (Container × Container)) (cpus : List AllocatedContainerResource)
    (updated : List Container) (failed : List (String × Error)) (d : Daemon),
    (Daemon.updateContainers al env qs cpus updated failed d).2.1 =
        updated ++ (applyAll al env (qs.map fun q => replace q.1 q.2) d).1.filterMap kept ∧
      (Daemon.updateContainers al env qs cpus updated failed d).2.2.2 =
        (applyAll al env (qs.map fun q => replace q.1 q.2) d).2 ∧
      ((Daemon.updateContainers al env qs cpus updated failed d).2.2.1 = none ↔
        failed = [] ∧ ∀ r ∈ (applyAll al env (qs.map fun q => replace q.1 q.2) d).1, r.2 = true)
  | [], _, updated, failed, d => by simp [Daemon.updateContainers, errorOrNil, applyAll]
  | (old, new) :: qs, cpus, updated, failed, d => by
    simp only [Daemon.updateContainers, List.map_cons, applyAll, apply]
    rcases h : al.freeCpus env old d with ⟨_ | err, d'⟩
    · rcases h' : al.takeCpus env new d' with ⟨_ | err', d''⟩
      · simpa [h', kept] using updateContainers_eq qs _ (updated ++ [new]) failed d''
      · simpa [h', kept] using updateContainers_eq qs cpus updated (failed ++ [(old.cid, err')]) d''
    · simpa [kept] using updateContainers_eq qs cpus updated (failed ++ [(old.cid, err)]) d'

theorem addContainers_eq : ∀ (cs : List Container) (cpus : List AllocatedContainerResource)
    (added : List Container) (failed : List (String × Error)) (d : Daemon),
    (Daemon.addContainers al env cs cpus added failed d).2.1 = added ++ (applyAll al env (cs.map add) d).1.filterMap kept ∧
      (Daemon.addContainers al env cs cpus added failed d).2.2.2 = (applyAll al env (cs.map add) d).2 ∧
      ((Daemon.addContainers al env cs cpus added failed d).2.2.1 = none ↔
        failed = [] ∧ ∀ r ∈ (applyAll al env (cs.map add) d).1, r.2 = true)
  | [], _, added, failed, d => by simp [Daemon.addContainers, errorOrNil, applyAll]
  | c :: cs, cpus, added, failed, d => by
    simp only [Daemon.addContainers, List.map_cons, applyAll, apply]
    rcases h : al.takeCpus env c d with ⟨_ | err, d'⟩
    · simpa [kept] using addContainers_eq cs _ (added ++ [c]) failed d'
    · simpa [kept] using addContainers_eq cs cpus added (failed ++ [(c.cid, err)]) d'

/-- `UpdatePod` under the lock applies the changes its nested loops compute, stores the records
they keep after the unchanged ones, and reports an error when some call failed. -/
theorem updatePodLocked_apply (req : UpdatePodRequest) (d : Daemon) {pod : PodMetadata}
    (hpod : lookupD d.state.pods req.podId .zero = pod) {L : List ContainerChange} {U : List Container}
    (hL : (getDeletedContainers pod.containers req.containers).map drop ++
      (getChangedContainers pod.containers req.containers).map (fun q => replace q.1 q.2) ++
      (getAddedContainers pod.containers req.containers req.podId).map add = L)
    (hU : getNotModifiedContainers pod.containers req.containers = U) :
    (d.updatePodLocked al env req).2 = (((applyAll al env L d).2.setState { (applyAll al env L d).2.state with
      pods := (applyAll al env L d).2.state.pods.insert req.podId
        { pod with containers := U ++ (applyAll al env L d).1.filterMap kept } }).saveState env).2 ∧
    (env.saveState (applyAll al env L d).2.writes = none →
      ((d.updatePodLocked al env req).1.2 = none ↔ ∀ r ∈ (applyAll al env L d).1, r.2 = true) ∧
      ∀ e, (d.updatePodLocked al env req).1.2 = some e → ∃ msg, e = .daemon ⟨.runtimeError, msg⟩) := by
  subst hL hU
  rcases h1 : Daemon.deleteContainers al env (getDeletedContainers pod.containers req.containers) [] d with ⟨e1, d1⟩
  rcases h2 : Daemon.updateContainers al env (getChangedContainers pod.containers req.containers) [] [] [] d1 with
    ⟨cpus, upd, e2, d2⟩
  rcases h3 : Daemon.addContainers al env (getAddedContainers pod.containers req.containers req.podId) cpus [] [] d2 with
    ⟨cpus', addd, e3, d3⟩
  obtain ⟨g1, f1⟩ := deleteContainers_eq al env (getDeletedContainers pod.containers req.containers) [] d
  obtain ⟨u1, u2, f2⟩ := updateContainers_eq al env (getChangedContainers pod.containers req.containers) [] [] [] d1
  obtain ⟨a1, a2, f3⟩ := addContainers_eq al env (getAddedContainers pod.containers req.containers req.podId) cpus [] [] d2
  rw [h1] at g1 f1
  rw [h2] at u1 u2 f2
  rw [h3] at a1 a2 f3
  simp only [List.nil_append, true_and] at g1 f1 u1 u2 f2 a1 a2 f3
  rw [applyAll_append, applyAll_append, ← g1, ← u2, ← a2]
  simp only [List.filterMap_append, filterMap_kept_drops, List.nil_append, ← u1, ← a1, List.mem_append]
  simp only [Daemon.updatePodLocked, hpod, h1, h2, h3, List.append_assoc]
  refine ⟨?_, fun hs => ?_⟩
  · split
    next _ _ heq => rw [heq]
    next _ heq => split_ifs <;> rw [heq]
  · split
    next _ _ heq =>
      have := congrArg Prod.fst heq
      simp [Daemon.saveState, Daemon.setState, hs] at this
    next _ heq =>
      split_ifs with h
      · refine ⟨iff_of_false (by simp) fun hall => ?_, fun e he => ⟨_, (Option.some.inj he).symm⟩⟩
        rcases h with h | h | h
        · exact absurd (f1.2 fun r hr => hall r (.inl (.inl hr))) (Option.isSome_iff_ne_none.1 h)
        · exact absurd (f3.2 fun r hr => hall r (.inr hr)) (Option.isSome_iff_ne_none.1 h)
        · exact absurd (f2.2 fun r hr => hall r (.inl (.inr hr))) (Option.isSome_iff_ne_none.1 h)
      · simp only [not_or, Option.not_isSome_iff_eq_none] at h
        refine ⟨iff_of_true rfl fun r hr => ?_, fun e he => absurd he (by simp)⟩
        rcases hr with (hr | hr) | hr
        exacts [f1.1 h.1 r hr, f2.1 h.2.2 r hr, f3.1 h.2.1 r hr]

end Apply

/-! ### The changes of an update, id by id -/

/-- The stored containers whose id the request does not list. -/
def dropped (pC : List Container) (wanted : List ContainerInfo) : List Container :=
  pC.filter fun c => c.cid ∉ wanted.map (·.containerId)

/-- For each listed id that is stored with another record than the request's, in the request's
order: the stored record and the new one. -/
def changed (podID : String) (pC : List Container) (wanted : List ContainerInfo) : List (Container × Container) :=
  wanted.filterMap fun cc => (pC.find? (·.cid = cc.containerId)).bind fun oc =>
    if containerFromRequest cc podID = oc then none else some (oc, containerFromRequest cc podID)

/-- The stored records the request lists unchanged, in the request's order. -/
def unchanged (podID : String) (pC : List Container) (wanted : List ContainerInfo) : List Container :=
  wanted.filterMap fun cc => (pC.find? (·.cid = cc.containerId)).filter fun oc => containerFromRequest cc podID = oc

/-- The new records of the listed ids that are not stored, in the request's order. -/
def added (podID : String) (pC : List Container) (wanted : List ContainerInfo) : List Container :=
  (wanted.filter fun cc => cc.containerId ∉ pC.map (·.cid)).map fun cc => containerFromRequest cc podID

/-- The changes of an update of pod `podID`, stored with the containers `pC`, to the containers
`wanted`: the drops, then the replacements, then the additions. -/
def plan (podID : String) (pC : List Container) (wanted : List ContainerInfo) : List ContainerChange :=
  (dropped pC wanted).map drop ++ (changed podID pC wanted).map (fun q => replace q.1 q.2) ++
    (added podID pC wanted).map add

/-- The calls of an update of `pod` by `req` from the daemon `d`: each change with whether it
succeeded, and the daemon after them all. -/
def runPlan (al : Allocator) (env : Env) (req : UpdatePodRequest) (pod : PodMetadata) (d : Daemon) :
    List (ContainerChange × Bool) × Daemon :=
  applyAll al env (plan req.podId pod.containers req.containers) d

/-! ### The nested loops compute the changes -/

/-- In a list with distinct ids, the containers with the id `k` that satisfy `P` are the one
`find?` gives, when it satisfies `P`. -/
theorem filter_cid_eq {pC : List Container} (h : (pC.map (·.cid)).Nodup) (k : String) (P : Container → Prop)
    [DecidablePred P] :
    pC.filter (fun oc => decide (oc.cid = k ∧ P oc)) = ((pC.find? (·.cid = k)).filter fun oc => decide (P oc)).toList := by
  induction pC with
  | nil => rfl
  | cons oc pC ih =>
    rw [List.map_cons, List.nodup_cons] at h
    rw [List.filter_cons, List.find?_cons]
    by_cases hk : oc.cid = k
    · have hnone : pC.filter (fun oc => decide (oc.cid = k ∧ P oc)) = [] :=
        List.filter_eq_nil_iff.2 fun c hc hck => h.1 (hk ▸ (of_decide_eq_true hck).1 ▸ List.mem_map_of_mem _ hc)
      by_cases hp : P oc
      · rw [if_pos (decide_eq_true ⟨hk, hp⟩), hnone]
        simp [hk, hp, Option.filter]
      · rw [if_neg fun h => hp (of_decide_eq_true h).2, hnone]
        simp [hk, hp, Option.filter]
    · rw [if_neg fun h => hk (of_decide_eq_true h).1, ih h.2]
      simp [hk]

theorem getDeletedContainers_eq (pC : List Container) (wanted : List ContainerInfo) :
    getDeletedContainers pC wanted = dropped pC wanted :=
  List.filter_congr fun c _ => by rw [Bool.eq_iff_iff]; simp

theorem getAddedContainers_eq (podID : String) (pC : List Container) (wanted : List ContainerInfo) :
    getAddedContainers pC wanted podID = added podID pC wanted :=
  congrArg _ (List.filter_congr fun cc _ => by rw [Bool.eq_iff_iff]; simp)

section Distinct

variable {podID : String} {pC : List Container} (hids : (pC.map (·.cid)).Nodup) (hpid : ∀ c ∈ pC, c.pid = podID)
include hids hpid

theorem getChangedContainers_eq (wanted : List ContainerInfo) :
    getChangedContainers pC wanted = changed podID pC wanted := by
  induction wanted with
  | nil => rfl
  | cons cc wanted ih =>
    have hfil : pC.filter (fun oc => decide (oc.cid = cc.containerId ∧ containerFromRequest cc oc.pid ≠ oc)) =
        pC.filter (fun oc => decide (oc.cid = cc.containerId ∧ containerFromRequest cc podID ≠ oc)) :=
      List.filter_congr fun oc hoc => by rw [hpid oc hoc]
    have hmap : (pC.filter (fun oc => decide (oc.cid = cc.containerId ∧ containerFromRequest cc podID ≠ oc))).map
        (fun oc => (oc, containerFromRequest cc oc.pid)) =
        (pC.filter (fun oc => decide (oc.cid = cc.containerId ∧ containerFromRequest cc podID ≠ oc))).map
          (fun oc => (oc, containerFromRequest cc podID)) :=
      List.map_congr_left fun oc hoc => by rw [hpid oc (List.mem_of_mem_filter hoc)]
    have hcc : (pC.filter fun oc => decide (oc.cid = cc.containerId ∧ containerFromRequest cc oc.pid ≠ oc)).map
        (fun oc => (oc, containerFromRequest cc oc.pid)) = ((pC.find? (·.cid = cc.containerId)).bind fun oc =>
          if containerFromRequest cc podID = oc then none else some (oc, containerFromRequest cc podID)).toList := by
      rw [hfil, hmap, filter_cid_eq hids]
      cases pC.find? (·.cid = cc.containerId) with
      | none => rfl
      | some oc => by_cases h : containerFromRequest cc podID = oc <;> simp [Option.filter, h]
    simp only [getChangedContainers, changed, List.flatMap_cons, List.filterMap_cons] at ih ⊢
    rw [hcc, ih]
    split
    next h => rw [h]; rfl
    next h => rw [h]; rfl

theorem getNotModifiedContainers_eq (wanted : List ContainerInfo) :
    getNotModifiedContainers pC wanted = unchanged podID pC wanted := by
  induction wanted with
  | nil => rfl
  | cons cc wanted ih =>
    have hfil : pC.filter (fun oc => decide (oc.cid = cc.containerId ∧ containerFromRequest cc oc.pid = oc)) =
        pC.filter (fun oc => decide (oc.cid = cc.containerId ∧ containerFromRequest cc podID = oc)) :=
      List.filter_congr fun oc hoc => by rw [hpid oc hoc]
    simp only [getNotModifiedContainers, unchanged, List.flatMap_cons, List.filterMap_cons] at ih ⊢
    rw [hfil, filter_cid_eq hids, ih]
    split
    next h => rw [h]; rfl
    next h => rw [h]; rfl

end Distinct

/-- The ids of the replacements are listed in the request, in its order, and their stored records
are stored. -/
theorem changed_sublist (podID : String) (pC : List Container) : ∀ wanted : List ContainerInfo,
    List.Sublist ((changed podID pC wanted).map fun q => q.1.cid) (wanted.map (·.containerId)) ∧
      ∀ q ∈ changed podID pC wanted, q.1 ∈ pC
  | [] => ⟨List.Sublist.slnil, fun _ h => absurd h (List.not_mem_nil _)⟩
  | cc :: wanted => by
    obtain ⟨ih1, ih2⟩ := changed_sublist podID pC wanted
    simp only [changed, List.filterMap_cons, List.map_cons] at ih1 ih2 ⊢
    split
    · exact ⟨ih1.cons _, ih2⟩
    next q h =>
      obtain ⟨oc, hoc, hq⟩ := Option.bind_eq_some.1 h
      split_ifs at hq
      cases hq
      refine ⟨?_, fun q' hq' => ?_⟩
      · have hcid : oc.cid = cc.containerId := by simpa using List.find?_some hoc
        rw [List.map_cons, ← hcid]
        exact ih1.cons₂ _
      · rcases List.mem_cons.1 hq' with rfl | hq'
        exacts [List.mem_of_find?_eq_some hoc, ih2 q' hq']

/-- When the stored ids are distinct and so are the listed ones, the changes are about distinct
containers: each is deleted, replaced or added once. -/
theorem nodup_cid_plan {podID : String} {pC : List Container} {wanted : List ContainerInfo}
    (hids : (pC.map (·.cid)).Nodup) (hreq : (wanted.map (·.containerId)).Nodup) :
    ((plan podID pC wanted).map cid).Nodup := by
  obtain ⟨hsub, hmem⟩ := changed_sublist podID pC wanted
  have hadd : List.Sublist ((added podID pC wanted).map (·.cid)) (wanted.map (·.containerId)) := by
    simpa [added, containerFromRequest, Function.comp_def] using (List.filter_sublist wanted).map (·.containerId)
  have hD : ∀ c ∈ dropped pC wanted, c.cid ∉ wanted.map (·.containerId) := fun c hc =>
    of_decide_eq_true (List.mem_filter.1 hc).2
  have hR : ∀ q ∈ changed podID pC wanted, q.1.cid ∈ pC.map (·.cid) ∧ q.1.cid ∈ wanted.map (·.containerId) :=
    fun q hq => ⟨List.mem_map_of_mem _ (hmem q hq), hsub.subset (List.mem_map_of_mem (fun q => q.1.cid) hq)⟩
  have hA : ∀ c ∈ added podID pC wanted, c.cid ∉ pC.map (·.cid) ∧ c.cid ∈ wanted.map (·.containerId) := by
    intro c hc
    obtain ⟨cc, hcc, rfl⟩ := List.mem_map.1 hc
    obtain ⟨hw, hn⟩ := List.mem_filter.1 hcc
    exact ⟨of_decide_eq_true hn, List.mem_map_of_mem _ hw⟩
  simp only [plan, List.map_append, List.map_map, Function.comp_def, cid]
  refine List.nodup_append.2 ⟨List.nodup_append.2 ⟨((List.filter_sublist pC).map _).nodup hids, hsub.nodup hreq, ?_⟩,
    hadd.nodup hreq, ?_⟩
  · rintro x hx hx'
    obtain ⟨c, hc, rfl⟩ := List.mem_map.1 hx
    obtain ⟨q, hq, e⟩ := List.mem_map.1 hx'
    exact hD c hc (e ▸ (hR q hq).2)
  · rintro x hx hx'
    obtain ⟨c, hc, rfl⟩ := List.mem_map.1 hx'
    rcases List.mem_append.1 hx with hx | hx
    · obtain ⟨c', hc', e⟩ := List.mem_map.1 hx
      exact hD c' hc' (e ▸ (hA c hc).2)
    · obtain ⟨q, hq, e⟩ := List.mem_map.1 hx
      exact (hA c hc).1 (e ▸ (hR q hq).1)

end ContainerChange

open ContainerChange in
/-- **What `UpdatePod` does.**  Take a stored pod whose containers have distinct ids and carry the
pod's id, and a valid request for it whose containers have distinct ids.  Whatever each policy call
returns, `UpdatePod` makes exactly the calls of the planned changes, in order and each about
another container: it deletes the stored containers the request drops, deletes each changed one
and assigns its new record only when the delete succeeded, and assigns the added ones.  It stores
the unchanged records followed by the new records whose calls all succeeded.  When the state file
is written, it reports an error exactly when some call failed, and that error is a
`RuntimeError`. -/
theorem updatePod_changes (al : Allocator) (env : Env) (req : UpdatePodRequest) (d : Daemon) (pod : PodMetadata)
    (hpod : d.state.pods.lookup req.podId = some pod) (hids : (pod.containers.map (·.cid)).Nodup)
    (hpid : ∀ c ∈ pod.containers, c.pid = req.podId) (hvalid : validateUpdatePodRequest req = none)
    (hreq : (req.containers.map (·.containerId)).Nodup) :
    ((plan req.podId pod.containers req.containers).map cid).Nodup ∧
    (d.updatePod al env req).2 = (((runPlan al env req pod d).2.setState { (runPlan al env req pod d).2.state with
      pods := (runPlan al env req pod d).2.state.pods.insert req.podId
        { pod with containers := unchanged req.podId pod.containers req.containers ++
          (runPlan al env req pod d).1.filterMap kept } }).saveState env).2 ∧
    (env.saveState (runPlan al env req pod d).2.writes = none →
      ((d.updatePod al env req).1.2 = none ↔ ∀ r ∈ (runPlan al env req pod d).1, r.2 = true) ∧
      ∀ e, (d.updatePod al env req).1.2 = some e → ∃ msg, e = .daemon ⟨.runtimeError, msg⟩) := by
  have hcheck : Daemon.updatePodCheck req d.state = none := by
    rw [Daemon.updatePodCheck, hvalid]
    exact if_pos (AList.lookup_isSome.1 (by rw [hpod]; rfl))
  have hlk : lookupD d.state.pods req.podId .zero = pod := by rw [lookupD, hpod]; rfl
  have hL : (getDeletedContainers pod.containers req.containers).map drop ++
      (getChangedContainers pod.containers req.containers).map (fun q => replace q.1 q.2) ++
      (getAddedContainers pod.containers req.containers req.podId).map add = plan req.podId pod.containers req.containers := by
    rw [getDeletedContainers_eq, getChangedContainers_eq hids hpid, getAddedContainers_eq]
    rfl
  rw [Daemon.updatePod, hcheck]
  exact ⟨nodup_cid_plan hids hreq, updatePodLocked_apply al env req d hlk hL (getNotModifiedContainers_eq hids hpid _)⟩

/-- Pod `"p"`, storing container `"c"` with one cpu. -/
def onePod : PodMetadata := ⟨"p", "p", "default", [containerFromRequest ⟨"c", "c", ⟨1, 1, 0, 0⟩⟩ "p"]⟩

/-- The request that gives `"c"` two cpus and adds container `"e"` with one. -/
def growRequest : UpdatePodRequest := ⟨"p", ⟨3, 3, 0, 0⟩, [⟨"c", "c", ⟨2, 2, 0, 0⟩⟩, ⟨"e", "e", ⟨1, 1, 0, 0⟩⟩]⟩

/-- A daemon that stores `onePod` and nothing else. -/
def onePodDaemon : Daemon :=
  ⟨⟨[], ∅, (∅ : AList fun _ : String => PodMetadata).insert "p" onePod, NumaTopology.loadFromCpuInfo []⟩,
    NamespaceBuckets.empty, 0⟩

open ContainerChange in
theorem updatePod_changes_growRequest :
    onePodDaemon.state.pods.lookup growRequest.podId = some onePod ∧ (onePod.containers.map (·.cid)).Nodup ∧
    (∀ c ∈ onePod.containers, c.pid = growRequest.podId) ∧ validateUpdatePodRequest growRequest = none ∧
    (growRequest.containers.map (·.containerId)).Nodup ∧
    ((plan growRequest.podId onePod.containers growRequest.containers).map cid).Nodup ∧
    (onePodDaemon.updatePod .default Env.ok growRequest).2 =
      (((runPlan .default Env.ok growRequest onePod onePodDaemon).2.setState
        { (runPlan .default Env.ok growRequest onePod onePodDaemon).2.state with
          pods := (runPlan .default Env.ok growRequest onePod onePodDaemon).2.state.pods.insert growRequest.podId
            { onePod with containers := unchanged growRequest.podId onePod.containers growRequest.containers ++
              (runPlan .default Env.ok growRequest onePod onePodDaemon).1.filterMap kept } }).saveState Env.ok).2 ∧
    (Env.ok.saveState (runPlan .default Env.ok growRequest onePod onePodDaemon).2.writes = none →
      ((onePodDaemon.updatePod .default Env.ok growRequest).1.2 = none ↔
        ∀ r ∈ (runPlan .default Env.ok growRequest onePod onePodDaemon).1, r.2 = true) ∧
      ∀ e, (onePodDaemon.updatePod .default Env.ok growRequest).1.2 = some e →
        ∃ msg, e = .daemon ⟨.runtimeError, msg⟩) :=
  have hpod : onePodDaemon.state.pods.lookup growRequest.podId = some onePod := rfl
  have hids : (onePod.containers.map (·.cid)).Nodup := by decide
  have hpid : ∀ c ∈ onePod.containers, c.pid = growRequest.podId := by decide
  have hvalid : validateUpdatePodRequest growRequest = none := rfl
  have hreq : (growRequest.containers.map (·.containerId)).Nodup := by decide
  ⟨hpod, hids, hpid, hvalid, hreq, updatePod_changes .default Env.ok growRequest onePodDaemon onePod hpod hids hpid hvalid hreq⟩

end CpuControlPlane
