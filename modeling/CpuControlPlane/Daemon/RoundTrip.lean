import CpuControlPlane.Daemon.DefaultInvariant
import CpuControlPlane.Daemon.NumaInvariant

/-! # Deleting a pod just created

`CreatePod` assigns the containers of a new pod in order, and `DeletePod` frees them in the same
order.  Whether the deletion gives back the state the creation started from depends on the
allocator:

- the NUMA-aware allocator puts an entry for each Guaranteed container in front of `Allocated`
  (`Extends`) and drops them one by one; under its invariant the tree is determined by the cpus
  `Allocated` lists (`NumaInv.tree_eq`), so the tree comes back too;
- the default allocator cuts a Guaranteed container's bucket from the front of a range, and a free
  extends only a range that starts right after the bucket.  The bucket of a pod's only Guaranteed
  container goes back where it was cut (`returnToRanges_takeFromRanges`); of two buckets cut from
  one range, the first is freed while the second still separates it from the range, and its cpus
  are lost (`createDelete_loses_cpu`).

The generic part follows a creation and a deletion through a relation between the containers
handled so far and the state (`createPod_ok`, `deletePod_ok`).

- `createPod_deletePod_restores`: from every reachable state, a `DeletePod` of a new pod that
  `CreatePod` created succeeds and gives back the pods, `Allocated`, the available ranges and the
  tree, with the NUMA-aware allocator, and with the default one when the pod has at most one
  Guaranteed container. -/

namespace CpuControlPlane

open List

/-! ### Maps that grow by new keys -/

theorem kerase_append_of_not_mem {β : Type} {k : String} {l₁ l₂ : List (Σ _ : String, β)} (h : k ∉ l₂.keys) :
    l₁.kerase k ++ l₂ = (l₁ ++ l₂).kerase k := by
  by_cases h₁ : k ∈ l₁.keys
  · rw [kerase_append_left h₁]
  · rw [kerase_append_right h₁, kerase_of_not_mem_keys h₁, kerase_of_not_mem_keys h]

/-- `m` is `l` with the entries of the keys `ks`, none of them `l`'s, put in front. -/
def Extends {β : Type} (m l : AList fun _ : String => β) (ks : List String) : Prop :=
  ∃ new : List (Σ _ : String, β), m.entries = new ++ l.entries ∧ ∀ k, k ∈ new.keys ↔ k ∈ ks

namespace Extends

variable {β : Type} {m l : AList fun _ : String => β} {ks : List String} {k : String}

theorem refl (l : AList fun _ : String => β) : Extends l l [] := ⟨[], rfl, by simp [List.keys]⟩

theorem eq (h : Extends m l []) : m = l := by
  obtain ⟨new, he, hk⟩ := h
  have : new = [] := by
    cases new with
    | nil => rfl
    | cons e _ => simpa [List.keys] using hk e.1
  exact AList.ext (by rw [he, this, nil_append])

theorem insert (h : Extends m l ks) (hk : k ∉ l) (v : β) : Extends (m.insert k v) l (ks ++ [k]) := by
  obtain ⟨new, he, hks⟩ := h
  refine ⟨⟨k, v⟩ :: new.kerase k, ?_, fun k' => ?_⟩
  · rw [AList.insert_entries, he, cons_append, kerase_append_of_not_mem (AList.mem_keys.not.1 hk)]
  · by_cases hk' : k' = k
    · subst hk'; simp [List.keys]
    · rw [mem_append, mem_singleton, or_iff_left hk', ← hks, List.keys, map_cons, mem_cons, or_iff_right hk']
      exact mem_keys_kerase_of_ne hk'

theorem lookup_isSome (h : Extends m l (k :: ks)) : ∃ v, m.lookup k = some v := by
  obtain ⟨new, he, hks⟩ := h
  have : k ∈ m := by
    rw [AList.mem_keys, AList.keys, he, List.keys, map_append, mem_append]
    exact .inl ((hks k).2 (mem_cons_self _ _))
  exact Option.isSome_iff_exists.1 (AList.lookup_isSome.2 this)

theorem erase (h : Extends m l (k :: ks)) (hk : k ∉ l) (hks : k ∉ ks) : Extends (m.erase k) l ks := by
  obtain ⟨new, he, hkeys⟩ := h
  have hnd : new.NodupKeys := NodupKeys.sublist (sublist_append_left new l.entries) (he ▸ m.nodupKeys)
  refine ⟨new.kerase k, ?_, fun k' => ?_⟩
  · show m.entries.kerase k = _
    rw [he, kerase_append_of_not_mem (AList.mem_keys.not.1 hk)]
  · by_cases hk' : k' = k
    · subst hk'; exact iff_of_false (not_mem_keys_kerase k' hnd) hks
    · rw [mem_keys_kerase_of_ne hk', hkeys, mem_cons, or_iff_right hk']

end Extends

/-- Erasing a key that was just put into a map without it gives the map back. -/
theorem erase_insert_new {β : Type} {l : AList fun _ : String => β} {k : String} (hk : k ∉ l) (v : β) :
    (l.insert k v).erase k = l :=
  Extends.eq (((Extends.refl l).insert hk v).erase hk (not_mem_nil k))

/-! ### A creation and a deletion, step by step -/

/-- The containers `CreatePod` builds from a request, in its order. -/
def podContainers (req : CreatePodRequest) : List Container :=
  req.containers.map fun it => containerFromRequest it req.podId

/-- The Guaranteed containers of a list. -/
def guaranteedOf (cs : List Container) : List Container := cs.filter fun c => c.qs = .guaranteed

@[simp] theorem guaranteedOf_nil : guaranteedOf [] = [] := rfl

theorem guaranteedOf_append (cs cs' : List Container) :
    guaranteedOf (cs ++ cs') = guaranteedOf cs ++ guaranteedOf cs' := filter_append _ _

theorem guaranteedOf_cons_of_guaranteed {c : Container} (hc : c.qs = .guaranteed) (cs : List Container) :
    guaranteedOf (c :: cs) = c :: guaranteedOf cs := filter_cons_of_pos (by simpa using hc)

theorem guaranteedOf_cons_of_not {c : Container} (hc : c.qs ≠ .guaranteed) (cs : List Container) :
    guaranteedOf (c :: cs) = guaranteedOf cs := filter_cons_of_neg (by simpa using hc)

section Steps

variable (al : Allocator) (env : Env)

/-- The loop of `CreatePod` run to its end without a failure: `R` relates the containers assigned
so far to the state, and each take of the next container keeps it. -/
theorem createPodLoop_ok (req : CreatePodRequest) (P : AList fun _ : String => PodMetadata)
    (R : List Container → DaemonState → Prop)
    (hR : ∀ pre c post d, pre ++ c :: post = podContainers req → R pre d.state →
      (al.takeCpus env c d).1 = none → R (pre ++ [c]) (al.takeCpus env c d).2.state)
    (hpods : ∀ pre s ps, R pre s → R pre { s with pods := ps })
    (hp : ∀ c d, (al.takeCpus env c d).2.state.pods = d.state.pods) :
    ∀ (done its : List ContainerInfo) (podMeta : PodMetadata) (cpus : List AllocatedContainerResource)
      (d d' : Daemon) (res : List AllocatedContainerResource),
      Daemon.createPodLoop al env req done its podMeta cpus d = (.ok res, d') →
      podMeta.containers ++ its.map (fun it => containerFromRequest it req.podId) = podContainers req →
      R podMeta.containers d.state → d.state.pods = P.insert req.podId podMeta →
      R (podContainers req) d'.state ∧ d'.state.pods = P.insert req.podId { podMeta with containers := podContainers req }
  | _, [], podMeta, _, d, d', _, hrun, hc, hr, hpd => by
    simp only [Daemon.createPodLoop, Prod.mk.injEq] at hrun
    obtain ⟨-, rfl⟩ := hrun
    simp only [map_nil, append_nil] at hc
    rw [← hc]
    exact ⟨hr, hpd⟩
  | done, it :: rest, podMeta, cpus, d, d', res, hrun, hc, hr, hpd => by
    simp only [Daemon.createPodLoop] at hrun
    split at hrun
    · simp at hrun
    next d1 ht =>
      have h1 := hR podMeta.containers _ _ d (by rw [← hc, map_cons]) hr (by rw [ht])
      have hp1 := hp (containerFromRequest it req.podId) d
      rw [ht] at h1 hp1
      dsimp only at h1 hp1
      have := createPodLoop_ok req P R hR hpods hp _ rest _ _ _ d' res hrun (by rw [← hc]; simp)
        (hpods _ d1.state _ h1) (by simp only [Daemon.setState_state, hp1, hpd, AList.insert_insert])
      simpa using this

/-- A successful `CreatePod`: it validated the request, and its loop took every container. -/
theorem createPod_ok {req : CreatePodRequest} {d : Daemon} {res : AllocatedPodResources}
    (R : List Container → DaemonState → Prop)
    (hR : ∀ pre c post d, pre ++ c :: post = podContainers req → R pre d.state →
      (al.takeCpus env c d).1 = none → R (pre ++ [c]) (al.takeCpus env c d).2.state)
    (hpods : ∀ pre s ps, R pre s → R pre { s with pods := ps })
    (hp : ∀ c d, (al.takeCpus env c d).2.state.pods = d.state.pods)
    (h0 : R [] d.state) (h : (d.createPod al env req).1 = .ok res) :
    validateCreatePodRequest req = none ∧ R (podContainers req) (d.createPod al env req).2.state ∧
      (d.createPod al env req).2.state.pods =
        d.state.pods.insert req.podId ⟨req.podId, req.podName, req.podNamespace, podContainers req⟩ := by
  simp only [Daemon.createPod] at h ⊢
  split at h
  · cases h
  next hv =>
    refine ⟨hv, ?_⟩
    split at h
    · cases h
    next cpus d1 hl =>
      split at h
      · cases h
      next d2 hs =>
        dsimp only
        rw [Daemon.state_of_saveState_eq hs]
        exact createPodLoop_ok al env req d.state.pods R hR hpods hp [] _ _ [] _ d1 cpus hl (by simp [podContainers])
          (hpods _ _ _ h0) rfl

/-- The loop of `DeletePod` over containers whose frees all succeed, `R` relating the containers
still to free to the state. -/
theorem deleteContainers_ok (Cs : List Container) (R : List Container → DaemonState → Prop)
    (hR : ∀ pre c post d, pre ++ c :: post = Cs → R (c :: post) d.state →
      (al.freeCpus env c d).1 = none ∧ R post (al.freeCpus env c d).2.state) :
    ∀ (pre cs : List Container) (d : Daemon), pre ++ cs = Cs → R cs d.state →
      (Daemon.deleteContainers al env cs [] d).1 = none ∧ R [] (Daemon.deleteContainers al env cs [] d).2.state
  | _, [], _, _, hr => ⟨rfl, hr⟩
  | pre, c :: cs, d, hc, hr => by
    obtain ⟨h1, h2⟩ := hR pre c cs d hc hr
    simp only [Daemon.deleteContainers]
    rw [show al.freeCpus env c d = (none, (al.freeCpus env c d).2) from Prod.ext h1 rfl]
    exact deleteContainers_ok Cs R hR (pre ++ [c]) cs _ (by simpa using hc) h2

/-- `DeletePod` of a stored pod whose containers' frees all succeed. -/
theorem deletePod_ok {pid : String} {d : Daemon} {pm : PodMetadata} (hpid : pid ≠ "")
    (hlook : d.state.pods.lookup pid = some pm) (R : List Container → DaemonState → Prop)
    (hR : ∀ pre c post d, pre ++ c :: post = pm.containers → R (c :: post) d.state →
      (al.freeCpus env c d).1 = none ∧ R post (al.freeCpus env c d).2.state)
    (h0 : R pm.containers d.state) :
    (d.deletePod al env ⟨pid⟩).1 = none ∧ ∃ s, R [] s ∧ (d.deletePod al env ⟨pid⟩).2.state = { s with pods := s.pods.erase pid } := by
  obtain ⟨h1, h2⟩ := deleteContainers_ok al env pm.containers R hR [] pm.containers d rfl h0
  simp only [Daemon.deletePod, validateDeletePodRequest, hpid, if_false, hlook, Daemon.saveState_state,
    Daemon.setState_state]
  exact ⟨h1, _, h2, rfl⟩

end Steps

/-! ### What a round trip must give back -/

/-- A request for a pod new to the state: its id is not a stored pod's, and its containers have
distinct ids, none of which has an entry in `Allocated`. -/
def NewPod (req : CreatePodRequest) (s : DaemonState) : Prop :=
  req.podId ∉ s.pods ∧ (req.containers.map (·.containerId)).Nodup ∧ ∀ it ∈ req.containers, it.containerId ∉ s.allocated

/-- A `DeletePod` undoes a successful `CreatePod` of `req` from `d`: it succeeds, and gives back the
pods, `Allocated`, the available ranges and the tree. -/
def Restores (al : Allocator) (env : Env) (req : CreatePodRequest) (d : Daemon) : Prop :=
  ∀ res, (d.createPod al env req).1 = .ok res →
    ((d.createPod al env req).2.deletePod al env ⟨req.podId⟩).1 = none ∧
    ((d.createPod al env req).2.deletePod al env ⟨req.podId⟩).2.state.pods = d.state.pods ∧
    ((d.createPod al env req).2.deletePod al env ⟨req.podId⟩).2.state.allocated = d.state.allocated ∧
    ((d.createPod al env req).2.deletePod al env ⟨req.podId⟩).2.state.availableCPUs = d.state.availableCPUs ∧
    ((d.createPod al env req).2.deletePod al env ⟨req.podId⟩).2.state.topology.topology = d.state.topology.topology

instance (req : CreatePodRequest) (s : DaemonState) : Decidable (NewPod req s) :=
  inferInstanceAs (Decidable (_ ∧ _ ∧ _))

section NewPod

variable {req : CreatePodRequest} {S : DaemonState}

theorem NewPod.cids (_ : NewPod req S) : (podContainers req).map (·.cid) = req.containers.map (·.containerId) := by
  simp [podContainers, containerFromRequest]

theorem NewPod.fresh (h : NewPod req S) {c : Container} (hc : c ∈ podContainers req) : c.cid ∉ S.allocated := by
  obtain ⟨it, hit, rfl⟩ := mem_map.1 hc
  exact h.2.2 it hit

/-- The container met at a point of the request is not met again later. -/
theorem NewPod.not_mem_after (h : NewPod req S) {pre post : List Container} {c : Container}
    (hc : pre ++ c :: post = podContainers req) : c.cid ∉ (guaranteedOf post).map (·.cid) := by
  have hnd := h.cids ▸ h.2.1
  rw [← hc, map_append, map_cons] at hnd
  exact fun hm => (nodup_cons.1 (nodup_append.1 hnd).2.1).1
    ((filter_sublist post).map _ |>.subset hm)

theorem mem_podContainers {pre post : List Container} {c : Container} (hc : pre ++ c :: post = podContainers req) :
    c ∈ podContainers req :=
  hc ▸ mem_append_right _ (mem_cons_self _ _)

end NewPod

/-! ### The NUMA-aware allocator -/

/-- The NUMA-aware allocator's state after the containers `cs` of a new pod were taken from `S`:
the invariant, `S`'s ranges, and `S`'s `Allocated` with an entry for each Guaranteed one in front. -/
def NumaAfter (sk : TopologyNode) (S : DaemonState) (cs : List Container) (s : DaemonState) : Prop :=
  NumaInv sk s ∧ s.availableCPUs = S.availableCPUs ∧ Extends s.allocated S.allocated ((guaranteedOf cs).map (·.cid))

section Numa

variable {sk : TopologyNode} {S : DaemonState} {req : CreatePodRequest} (m : Bool) (env : Env)

theorem numaAfter_take (hnew : NewPod req S) (pre : List Container) (c : Container) (post : List Container)
    (d : Daemon) (hc : pre ++ c :: post = podContainers req) (h : NumaAfter sk S pre d.state)
    (hok : ((Allocator.numaAware m).takeCpus env c d).1 = none) :
    NumaAfter sk S (pre ++ [c]) ((Allocator.numaAware m).takeCpus env c d).2.state := by
  simp only [Allocator.takeCpus] at hok ⊢
  have hval : c.Valid := by
    obtain ⟨it, -, rfl⟩ := mem_map.1 (mem_podContainers hc)
    exact containerFromRequest_valid _ _
  by_cases hg : c.qs = .guaranteed
  · obtain ⟨nt, v, he⟩ := NumaAwareAllocator.takeCpus_ok m hg hok
    refine ⟨h.1.takeCpus m env c hval, by rw [he]; exact h.2.1, ?_⟩
    rw [he, guaranteedOf_append, guaranteedOf_cons_of_guaranteed hg, guaranteedOf_nil, map_append]
    exact h.2.2.insert (hnew.fresh (mem_podContainers hc)) v
  · have hpre : guaranteedOf (pre ++ [c]) = guaranteedOf pre := by
      rw [guaranteedOf_append, guaranteedOf_cons_of_not hg, guaranteedOf_nil, append_nil]
    rw [NumaAwareAllocator.takeCpus_of_not_guaranteed m env hg, NumaAfter, hpre]
    exact h

theorem numaAfter_free (Q : AList fun _ : String => PodMetadata) (hnew : NewPod req S) (pre : List Container)
    (c : Container) (post : List Container) (d : Daemon) (hc : pre ++ c :: post = podContainers req)
    (h : NumaAfter sk S (c :: post) d.state ∧ d.state.pods = Q) :
    ((Allocator.numaAware m).freeCpus env c d).1 = none ∧
      (NumaAfter sk S post ((Allocator.numaAware m).freeCpus env c d).2.state ∧
        ((Allocator.numaAware m).freeCpus env c d).2.state.pods = Q) := by
  obtain ⟨⟨hinv, havail, hext⟩, hpods⟩ := h
  simp only [Allocator.freeCpus]
  by_cases hg : c.qs = .guaranteed
  · rw [guaranteedOf_cons_of_guaranteed hg, map_cons] at hext
    obtain ⟨v, hv⟩ := hext.lookup_isSome
    obtain ⟨nt, he⟩ := hinv.freeCpus_ok hg hv
    have hinv' := hinv.freeCpus c
    rw [he] at hinv' ⊢
    exact ⟨rfl, ⟨hinv', havail, hext.erase (hnew.fresh (mem_podContainers hc)) (hnew.not_mem_after hc)⟩, hpods⟩
  · rw [guaranteedOf_cons_of_not hg] at hext
    rw [NumaAwareAllocator.freeCpus_of_not_guaranteed hg]
    exact ⟨rfl, ⟨hinv, havail, hext⟩, hpods⟩

/-- With the NUMA-aware allocator, from a state with the invariant, a `DeletePod` undoes a successful
`CreatePod` of a new pod. -/
theorem numaAware_restores {d : Daemon} (hS : NumaInv sk d.state) (hnew : NewPod req d.state) :
    Restores (.numaAware m) env req d := by
  intro res hres
  obtain ⟨hv, hR, hpods⟩ := createPod_ok (.numaAware m) env (NumaAfter sk d.state) (numaAfter_take m env hnew)
    (fun _ _ ps h => ⟨h.1.setPods ps, h.2.1, h.2.2⟩) (NumaAwareAllocator.takeCpus_pods m env)
    ⟨hS, rfl, Extends.refl _⟩ hres
  obtain ⟨hdel, s, ⟨hA, hQ⟩, hfin⟩ := deletePod_ok (.numaAware m) env (validateCreatePodRequest_podId hv)
    (by rw [hpods]; exact AList.lookup_insert _)
    (fun cs s => NumaAfter sk d.state cs s ∧ s.pods = (d.createPod (.numaAware m) env req).2.state.pods)
    (numaAfter_free m env _ hnew) ⟨hR, rfl⟩
  have halloc := hA.2.2.eq
  refine ⟨hdel, ?_, ?_, ?_, ?_⟩ <;> rw [hfin] <;> dsimp only
  · rw [hQ, hpods, erase_insert_new hnew.1]
  · exact halloc
  · exact hA.2.1
  · exact hA.1.tree_eq hS (by rw [halloc]; exact fun _ => Iff.rfl)

end Numa

/-! ### The default allocator -/

namespace DefaultAllocator

/-- Right after a bucket `takeFromRanges` cuts, the range it was cut from goes on. -/
theorem takeFromRanges_next {n : Int} (hn : 0 < n) : ∀ {rs rs' : List CPUBucket} {bk : CPUBucket},
    takeFromRanges n rs = some (bk, rs') → ∃ r ∈ rs, bk.endCPU + 1 ∈ r.cpus
  | [], _, _, h => by simp [takeFromRanges] at h
  | b :: bs, rs', bk, h => by
    simp only [takeFromRanges] at h
    split_ifs at h with hb
    · simp only [Option.some.injEq, Prod.mk.injEq] at h
      obtain ⟨rfl, rfl⟩ := h
      exact ⟨b, mem_cons_self _ _, CPUBucket.mem_cpus.2 ⟨by simp only; omega, by simp only; omega⟩⟩
    · obtain ⟨⟨bk', rs''⟩, h', he⟩ := Option.map_eq_some'.1 h
      simp only [Prod.mk.injEq] at he
      obtain ⟨rfl, rfl⟩ := he
      obtain ⟨r, hr, hx⟩ := takeFromRanges_next hn h'
      exact ⟨r, mem_cons_of_mem _ hr, hx⟩

/-- On non-empty, pairwise disjoint ranges, freeing a bucket just cut gives the ranges back. -/
theorem returnToRanges_takeFromRanges {n : Int} (hn : 0 < n) : ∀ {rs rs' : List CPUBucket} {bk : CPUBucket},
    (∀ r ∈ rs, r.startCPU ≤ r.endCPU) → (rs.flatMap CPUBucket.cpus).Nodup →
    takeFromRanges n rs = some (bk, rs') → returnToRanges [bk] rs' = rs
  | [], _, _, _, _, h => by simp [takeFromRanges] at h
  | b :: bs, rs', bk, hne, hd, h => by
    have hb := hne b (mem_cons_self _ _)
    have hne' : ∀ r ∈ bs, r.startCPU ≤ r.endCPU := fun r hr => hne r (mem_cons_of_mem _ hr)
    rw [flatMap_cons, nodup_append] at hd
    simp only [takeFromRanges] at h
    split_ifs at h with hfit
    · simp only [Option.some.injEq, Prod.mk.injEq] at h
      obtain ⟨rfl, rfl⟩ := h
      rw [returnToRanges_cons, if_pos (by simp only; omega)]
      congr 1
      conv_rhs => rw [← map_id bs]
      refine map_congr_left fun r hr => if_neg fun h' => ?_
      exact hd.2.2 (CPUBucket.mem_cpus.2 ⟨by simp only at h'; omega, by simp only at h'; omega⟩)
        (mem_flatMap.2 ⟨r, hr, CPUBucket.mem_cpus.2 ⟨le_refl _, hne' r hr⟩⟩)
    · obtain ⟨⟨bk', rs''⟩, h', he⟩ := Option.map_eq_some'.1 h
      simp only [Prod.mk.injEq] at he
      obtain ⟨rfl, rfl⟩ := he
      rw [returnToRanges_cons, returnToRanges_takeFromRanges hn hne' hd.2.1 h', if_neg]
      intro habut
      obtain ⟨r, hr, hx⟩ := takeFromRanges_next hn h'
      exact hd.2.2 (CPUBucket.mem_cpus.2 ⟨le_refl _, hb⟩) (mem_flatMap.2 ⟨r, hr, by rwa [show b.startCPU = bk'.endCPU + 1 by omega]⟩)

end DefaultAllocator

/-- The default allocator's state after the containers `cs` of a new pod with at most one
Guaranteed container were taken from `S`: `S`'s tree, and `S`'s ranges and `Allocated` until the
Guaranteed container is taken, then the ranges its bucket was cut from and its entry. -/
def DefaultAfter (S : DaemonState) (cs : List Container) (s : DaemonState) : Prop :=
  s.topology = S.topology ∧
    match guaranteedOf cs with
    | [] => s.availableCPUs = S.availableCPUs ∧ s.allocated = S.allocated
    | [c] => ∃ bk rs, DefaultAllocator.takeFromRanges c.cpus S.availableCPUs = some (bk, rs) ∧
        s.availableCPUs = rs ∧ s.allocated = S.allocated.insert c.cid [bk]
    | _ :: _ :: _ => False

section Default

variable {S : DaemonState} {req : CreatePodRequest} (env : Env)

theorem defaultAfter_take (hone : (guaranteedOf (podContainers req)).length ≤ 1) (pre : List Container) (c : Container)
    (post : List Container) (d : Daemon) (hc : pre ++ c :: post = podContainers req) (h : DefaultAfter S pre d.state)
    (hok : (Allocator.default.takeCpus env c d).1 = none) :
    DefaultAfter S (pre ++ [c]) (Allocator.default.takeCpus env c d).2.state := by
  simp only [Allocator.takeCpus] at hok ⊢
  unfold DefaultAfter at h ⊢
  by_cases hg : c.qs = .guaranteed
  · have hpre : guaranteedOf pre = [] := by
      rw [← hc, guaranteedOf_append, guaranteedOf_cons_of_guaranteed hg, length_append, length_cons] at hone
      exact length_eq_zero.1 (by omega)
    rw [hpre] at h
    obtain ⟨htop, havail, halloc⟩ := h
    obtain ⟨bk, rs, ht, he⟩ := DefaultAllocator.takeCpus_ok hg hok
    rw [guaranteedOf_append, hpre, guaranteedOf_cons_of_guaranteed hg, guaranteedOf_nil, nil_append, he]
    exact ⟨htop, bk, rs, havail ▸ ht, rfl, by rw [halloc]⟩
  · rw [DefaultAllocator.takeCpus_of_not_guaranteed env hg, guaranteedOf_append, guaranteedOf_cons_of_not hg,
      guaranteedOf_nil, append_nil]
    exact h

theorem defaultAfter_free {U : List Int} (hS : DefaultInv U S) (Q : AList fun _ : String => PodMetadata)
    (hnew : NewPod req S) (pre : List Container) (c : Container) (post : List Container) (d : Daemon)
    (hc : pre ++ c :: post = podContainers req) (h : DefaultAfter S (c :: post) d.state ∧ d.state.pods = Q) :
    (Allocator.default.freeCpus env c d).1 = none ∧
      (DefaultAfter S post (Allocator.default.freeCpus env c d).2.state ∧
        (Allocator.default.freeCpus env c d).2.state.pods = Q) := by
  obtain ⟨h, hpods⟩ := h
  simp only [Allocator.freeCpus]
  unfold DefaultAfter at h ⊢
  by_cases hg : c.qs = .guaranteed
  · rw [guaranteedOf_cons_of_guaranteed hg] at h
    obtain ⟨htop, hrest⟩ := h
    cases hgp : guaranteedOf post with
    | cons _ _ => rw [hgp] at hrest; exact hrest.elim
    | nil =>
      rw [hgp] at hrest
      obtain ⟨bk, rs, ht, havail, halloc⟩ := hrest
      have hv : d.state.allocated.lookup c.cid = some [bk] := by rw [halloc, AList.lookup_insert]
      have hn : 0 < c.cpus := by
        obtain ⟨it, -, rfl⟩ := mem_map.1 (mem_podContainers hc)
        exact containerFromRequest_valid _ _ hg
      rw [DefaultAllocator.freeCpus_of_lookup hg hv]
      refine ⟨rfl, ⟨htop, ?_, ?_⟩, hpods⟩
      · rw [Daemon.setState_state, havail]
        exact DefaultAllocator.returnToRanges_takeFromRanges hn hS.nonempty
          (hS.nodup.sublist (sublist_append_left _ _)) ht
      · rw [Daemon.setState_state, halloc, erase_insert_new (hnew.fresh (mem_podContainers hc))]
  · rw [guaranteedOf_cons_of_not hg] at h
    rw [DefaultAllocator.freeCpus_of_not_guaranteed hg]
    exact ⟨rfl, h, hpods⟩

/-- With the default allocator, from a state with the invariant, a `DeletePod` undoes a successful
`CreatePod` of a new pod with at most one Guaranteed container. -/
theorem default_restores {U : List Int} {d : Daemon} (hS : DefaultInv U d.state) (hnew : NewPod req d.state)
    (hone : (guaranteedOf (podContainers req)).length ≤ 1) : Restores .default env req d := by
  intro res hres
  obtain ⟨hv, hR, hpods⟩ := createPod_ok .default env (DefaultAfter d.state) (defaultAfter_take env hone)
    (fun _ _ _ h => h) (DefaultAllocator.takeCpus_pods env) ⟨rfl, by simp⟩ hres
  obtain ⟨hdel, s, ⟨hA, hQ⟩, hfin⟩ := deletePod_ok .default env (validateCreatePodRequest_podId hv)
    (by rw [hpods]; exact AList.lookup_insert _)
    (fun cs s => DefaultAfter d.state cs s ∧ s.pods = (d.createPod .default env req).2.state.pods)
    (defaultAfter_free env hS _ hnew) ⟨hR, rfl⟩
  obtain ⟨htop, havail, halloc⟩ := hA
  refine ⟨hdel, ?_, ?_, ?_, ?_⟩ <;> rw [hfin] <;> dsimp only
  · rw [hQ, hpods, erase_insert_new hnew.1]
  · exact halloc
  · exact havail
  · rw [htop]

end Default

/-- A new pod with two Guaranteed containers of one cpu each. -/
def twoGuaranteedPod : CreatePodRequest := podRequest "p" [guaranteedInfo "g1", guaranteedInfo "g2"]

/-- With the default allocator on the range 0–7, creating `twoGuaranteedPod` succeeds, and so does
deleting it, but the range is 1–7 afterwards: the bucket 0–0 of `g1` was freed while the bucket 1–1
of `g2` still separated it from the range, and cpu 0 is lost. -/
theorem createDelete_loses_cpu :
    NewPod twoGuaranteedPod (Daemon.fresh [] [⟨0, 7⟩]).state ∧
      ((Daemon.fresh [] [⟨0, 7⟩]).createPod .default Env.ok twoGuaranteedPod).1 =
        .ok ⟨[⟨"g1", [⟨0, 0⟩]⟩, ⟨"g2", [⟨1, 1⟩]⟩]⟩ ∧
      (((Daemon.fresh [] [⟨0, 7⟩]).createPod .default Env.ok twoGuaranteedPod).2.deletePod .default Env.ok
        ⟨"p"⟩).2.state.availableCPUs = [⟨1, 7⟩] ∧
      ¬Restores .default Env.ok twoGuaranteedPod (Daemon.fresh [] [⟨0, 7⟩]) := by
  have hok : ((Daemon.fresh [] [⟨0, 7⟩]).createPod .default Env.ok twoGuaranteedPod).1 =
      .ok ⟨[⟨"g1", [⟨0, 0⟩]⟩, ⟨"g2", [⟨1, 1⟩]⟩]⟩ := rfl
  exact ⟨by decide, hok, by decide, fun h => absurd (h _ hok).2.2.2.1 (by decide)⟩

/-! ### Every reachable state -/

/-- From every state reached from a fresh daemon, a `DeletePod` of a new pod that `CreatePod` has
just created succeeds and gives back the pods, `Allocated`, the available ranges and the tree: with
the NUMA-aware allocator on a tree loaded from distinct cpus, and with the default allocator on
non-empty, pairwise disjoint ranges when the pod has at most one Guaranteed container.  The cpu ids
stay below `MaxInt`, where the loop of the NUMA-aware free over a bucket ends
(`bucketLoop_of_lt`); at `MaxInt` Go's `cpu++` wraps to `MinInt` and `Return(MinInt)` fails. -/
theorem createPod_deletePod_restores (env : Env) (rs : List Request) (req : CreatePodRequest)
    (cpus : List CpuInfo) (ranges : List CPUBucket) :
    (∀ m : Bool, cpus ≠ [] → (cpus.map CpuInfo.cpu).Nodup → (∀ c ∈ cpus, c.cpu < maxInt) →
      NewPod req (Daemon.run (.numaAware m) env rs (Daemon.fresh cpus ranges)).state →
      Restores (.numaAware m) env req (Daemon.run (.numaAware m) env rs (Daemon.fresh cpus ranges))) ∧
    ((∀ r ∈ ranges, r.startCPU ≤ r.endCPU) → ranges.Pairwise (fun r r' => r.cpus.Disjoint r'.cpus) →
      (guaranteedOf (podContainers req)).length ≤ 1 →
      NewPod req (Daemon.run .default env rs (Daemon.fresh cpus ranges)).state →
      Restores .default env req (Daemon.run .default env rs (Daemon.fresh cpus ranges))) :=
  ⟨fun m hne hd _ hnew =>
    numaAware_restores m env ((NumaInv.keeps m _).run_any env rs _ (NumaInv.fresh hne hd ranges)) hnew,
   fun hne hdis hone hnew =>
    default_restores env ((DefaultInv.keeps _).run_any env rs _ (DefaultInv.fresh hne hdis cpus)) hnew hone⟩

/-- A new pod with a Guaranteed and a best-effort container. -/
def mixedPod : CreatePodRequest := podRequest "p" [guaranteedInfo "g", bestEffortInfo "x"]

/-- A run that creates a pod `q` with one Guaranteed container. -/
def createQ : List Request := [.createPod (podRequest "q" [guaranteedInfo "h"])]

/-- Two cpus and the range 0–3, after `createQ`, for `mixedPod`. -/
theorem createPod_deletePod_restores_mixedPod :
    (twoCpuInfos ≠ [] ∧ (twoCpuInfos.map CpuInfo.cpu).Nodup ∧ (∀ c ∈ twoCpuInfos, c.cpu < maxInt) ∧
      NewPod mixedPod (Daemon.run (.numaAware false) Env.ok createQ (Daemon.fresh twoCpuInfos [⟨0, 3⟩])).state ∧
      Restores (.numaAware false) Env.ok mixedPod
        (Daemon.run (.numaAware false) Env.ok createQ (Daemon.fresh twoCpuInfos [⟨0, 3⟩]))) ∧
    ((∀ r ∈ [CPUBucket.mk 0 3], r.startCPU ≤ r.endCPU) ∧
      [CPUBucket.mk 0 3].Pairwise (fun r r' => r.cpus.Disjoint r'.cpus) ∧
      (guaranteedOf (podContainers mixedPod)).length ≤ 1 ∧
      NewPod mixedPod (Daemon.run .default Env.ok createQ (Daemon.fresh twoCpuInfos [⟨0, 3⟩])).state ∧
      Restores .default Env.ok mixedPod (Daemon.run .default Env.ok createQ (Daemon.fresh twoCpuInfos [⟨0, 3⟩]))) := by
  have h := createPod_deletePod_restores Env.ok createQ mixedPod twoCpuInfos [⟨0, 3⟩]
  have hn₁ : NewPod mixedPod (Daemon.run (.numaAware false) Env.ok createQ (Daemon.fresh twoCpuInfos [⟨0, 3⟩])).state := by
    decide
  have hn₂ : NewPod mixedPod (Daemon.run .default Env.ok createQ (Daemon.fresh twoCpuInfos [⟨0, 3⟩])).state := by
    decide
  have hlt : ∀ c ∈ twoCpuInfos, c.cpu < maxInt := by decide
  exact ⟨⟨by decide, by decide, hlt, hn₁, h.1 false (by decide) (by decide) hlt hn₁⟩,
    ⟨by decide, pairwise_singleton _ _, by decide, hn₂, h.2 (by decide) (pairwise_singleton _ _) (by decide) hn₂⟩⟩

end CpuControlPlane
