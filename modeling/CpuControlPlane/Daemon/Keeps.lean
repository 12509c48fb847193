import CpuControlPlane.Daemon.NamespaceRuns

/-! # What every request keeps

A request changes the allocator's part of the daemon (the state without its pods, and the
namespace maps) only through the allocator's `takeCpus`, `freeCpus` and `clearCpus`, and besides
it stores and forgets pods.  An invariant survives every run in three steps:

- a discipline on the stored pods (`Owners`) says which namespace a pod id may come with and
  which containers a pod may hold; the requests that keep to it (`Owners.Admits`) store only
  pods it allows (`Owners.Pods`);
- the allocator obligations (`Allocator.Keeps`): a take of a container a pod may hold and a free
  of one keep the invariant while the stored pods keep to the discipline, and the invariant
  does not look at the pods;
- then the invariant and the discipline hold after every admitted request, whatever each write
  to the cgroup files or to the state file returns, and after every run of admitted requests
  (`Keeps.run`).  Under no discipline (`Owners.any`) every request is admitted (`Keeps.run_any`).

`clearCpus` changes nothing (`clearCpus_state`), so the rollback of a failed `CreatePod` needs no
hypothesis.  The containers a request takes are built by `containerFromRequest`, which makes a
container Guaranteed only when it asks for a cpu (`containerFromRequest_valid`).

The last section holds what the invariants of the allocators share on the cpus listed in
`Allocated`: how `insert` and `erase` change them. -/

namespace CpuControlPlane

/-- A container that asks for at least one cpu when it is Guaranteed. -/
def Container.Valid (c : Container) : Prop := c.qs = .guaranteed → 0 < c.cpus

theorem containerFromRequest_valid (req : ContainerInfo) (podID : String) :
    (containerFromRequest req podID).Valid := by
  intro h
  simp only [containerFromRequest] at h ⊢
  split_ifs at h with h1
  exact h1.2.2

/-! ### A discipline on the pods -/

/-- A discipline on the pods a run stores: the namespace a pod id may come with (`nsOk`) and the
containers a pod may hold (`owns`); the record `UpdatePod` builds for a container the pod holds,
from a description with the same id, is held too. -/
structure Owners where
  nsOk : String → String → Prop
  owns : String → Container → Prop
  owns_update : ∀ p c it, owns p c → it.containerId = c.cid → owns p (containerFromRequest it c.pid)

namespace Owners

variable (o : Owners)

/-- No discipline at all. -/
def any : Owners := ⟨fun _ _ => True, fun _ _ => True, fun _ _ _ _ _ => trivial⟩

/-- A pod record the discipline allows under the id `p`. -/
def PodOk (p : String) (pm : PodMetadata) : Prop := o.nsOk p pm.podNamespace ∧ ∀ c ∈ pm.containers, o.owns p c

/-- Every stored pod is allowed. -/
def Pods (ps : AList fun _ : String => PodMetadata) : Prop := ∀ p pm, ps.lookup p = some pm → o.PodOk p pm

/-- The requests that keep to the discipline: a new pod comes with an allowed namespace, and the
pod holds every container a request describes. -/
def Admits : Request → Prop
  | .createPod req => o.nsOk req.podId req.podNamespace ∧
      ∀ it ∈ req.containers, o.owns req.podId (containerFromRequest it req.podId)
  | .updatePod req => ∀ it ∈ req.containers, o.owns req.podId (containerFromRequest it req.podId)
  | .deletePod _ => True

variable {o}

theorem pods_empty : o.Pods ∅ := fun _ _ h => by simp at h

theorem Pods.erase {ps : AList fun _ : String => PodMetadata} (h : o.Pods ps) (p : String) : o.Pods (ps.erase p) :=
  fun q pm hq => by
    by_cases hqp : q = p
    · subst hqp; simp at hq
    · exact h q pm (by rwa [AList.lookup_erase_ne hqp] at hq)

theorem Pods.insert {ps : AList fun _ : String => PodMetadata} (h : o.Pods ps) {p : String} {pm : PodMetadata}
    (hp : o.PodOk p pm) : o.Pods (ps.insert p pm) := fun q qm hq => by
  by_cases hqp : q = p
  · subst hqp; rw [AList.lookup_insert, Option.some.injEq] at hq; exact hq ▸ hp
  · exact h q qm (by rwa [AList.lookup_insert_ne hqp] at hq)

/-- A record whose containers the pod may all hold is allowed under the id of an allowed one. -/
theorem PodOk.update {p : String} {pod : PodMetadata} (h : o.PodOk p pod) {A B C : List Container}
    (hA : ∀ c ∈ A, o.owns p c) (hB : ∀ c ∈ B, o.owns p c) (hC : ∀ c ∈ C, o.owns p c) :
    o.PodOk p { pod with containers := A ++ B ++ C } :=
  ⟨h.1, List.forall_mem_append.2 ⟨List.forall_mem_append.2 ⟨hA, hB⟩, hC⟩⟩

theorem any_pods (ps : AList fun _ : String => PodMetadata) : Owners.any.Pods ps :=
  fun _ _ _ => ⟨trivial, fun _ _ => trivial⟩

theorem any_admits : ∀ r, Owners.any.Admits r
  | .createPod _ => ⟨trivial, fun _ _ => trivial⟩
  | .updatePod _ => fun _ _ => trivial
  | .deletePod _ => trivial

/-- The invariant `I` of the state and the namespace maps, with the discipline of the stored pods. -/
def Kept (o : Owners) (I : DaemonState → NamespaceBuckets → Prop) (d : Daemon) : Prop :=
  o.Pods d.state.pods ∧ I d.state d.buckets

theorem Kept.of_eq {I : DaemonState → NamespaceBuckets → Prop} {d d' : Daemon} (h : o.Kept I d)
    (hs : d'.state = d.state) (hb : d'.buckets = d.buckets) : o.Kept I d' := by
  rw [Kept, hs, hb]; exact h

end Owners

/-! ### The obligations of an allocator -/

/-- The allocator obligations of an invariant `I` of the state and the namespace maps under the
discipline `o`: a take of a container a pod may hold and a free of one keep `I` while the stored
pods keep to `o`, and `I` does not look at the pods. -/
structure Allocator.Keeps (al : Allocator) (o : Owners) (I : DaemonState → NamespaceBuckets → Prop) : Prop where
  take : ∀ env c d p, c.Valid → o.owns p c → o.Pods d.state.pods → I d.state d.buckets →
    I (al.takeCpus env c d).2.state (al.takeCpus env c d).2.buckets
  free : ∀ env c d p, o.owns p c → o.Pods d.state.pods → I d.state d.buckets →
    I (al.freeCpus env c d).2.state (al.freeCpus env c d).2.buckets
  pods : ∀ s b (ps : AList fun _ : String => PodMetadata), I s b → I { s with pods := ps } b

namespace Allocator

/-- No allocator touches the pods. -/
theorem takeCpus_pods (al : Allocator) (env : Env) (c : Container) (d : Daemon) :
    (al.takeCpus env c d).2.state.pods = d.state.pods := by
  cases al with
  | default => exact DefaultAllocator.takeCpus_pods env c d
  | numaAware m => exact NumaAwareAllocator.takeCpus_pods m env c d
  | numaPerNamespace a => exact a.takeCpus_pods env c d

theorem freeCpus_pods (al : Allocator) (env : Env) (c : Container) (d : Daemon) :
    (al.freeCpus env c d).2.state.pods = d.state.pods := by
  cases al with
  | default => exact DefaultAllocator.freeCpus_pods c d
  | numaAware _ => exact NumaAwareAllocator.freeCpus_pods c d
  | numaPerNamespace a => exact a.freeCpus_pods env c d

end Allocator

namespace Allocator.Keeps

variable {al : Allocator} {o : Owners} {I : DaemonState → NamespaceBuckets → Prop} (env : Env)

theorem kept_take (h : al.Keeps o I) {c : Container} {d : Daemon} {p : String} (hv : c.Valid) (hc : o.owns p c)
    (hd : o.Kept I d) : o.Kept I (al.takeCpus env c d).2 :=
  ⟨by rw [al.takeCpus_pods]; exact hd.1, h.take env c d p hv hc hd.1 hd.2⟩

theorem kept_free (h : al.Keeps o I) {c : Container} {d : Daemon} {p : String} (hc : o.owns p c)
    (hd : o.Kept I d) : o.Kept I (al.freeCpus env c d).2 :=
  ⟨by rw [al.freeCpus_pods]; exact hd.1, h.free env c d p hc hd.1 hd.2⟩

theorem kept_setPods (h : al.Keeps o I) {d : Daemon} {ps : AList fun _ : String => PodMetadata}
    (hd : o.Kept I d) (hps : o.Pods ps) : o.Kept I (d.setState { d.state with pods := ps }) :=
  ⟨hps, h.pods _ _ ps hd.2⟩

/-! ### `CreatePod` -/

theorem createPodLoop (h : al.Keeps o I) (req : CreatePodRequest) :
    ∀ (done its : List ContainerInfo) (podMeta : PodMetadata) (cpus : List AllocatedContainerResource)
      (d : Daemon), (∀ it ∈ its, o.owns req.podId (containerFromRequest it req.podId)) → o.PodOk req.podId podMeta →
      o.Kept I d → o.Kept I (Daemon.createPodLoop al env req done its podMeta cpus d).2
  | _, [], _, _, _, _, _, hd => hd
  | done, it :: rest, podMeta, cpus, d, hits, hpm, hd => by
    have hown := hits it (List.mem_cons_self _ _)
    have ht := h.kept_take env (containerFromRequest_valid _ _) hown hd
    simp only [Daemon.createPodLoop]
    split
    next err d' he =>
      rw [he] at ht
      obtain ⟨hs, hb⟩ := Daemon.rollbackContainers_state al env req.podId done d'
      exact h.kept_setPods (ht.of_eq hs hb) (hs ▸ ht.1.erase req.podId)
    next d' he =>
      rw [he] at ht
      have hpm' : o.PodOk req.podId { podMeta with containers := podMeta.containers ++ [containerFromRequest it req.podId] } :=
        ⟨hpm.1, List.forall_mem_append.2 ⟨hpm.2, List.forall_mem_singleton.2 hown⟩⟩
      exact createPodLoop h req _ rest _ _ _ (fun it' hi => hits it' (List.mem_cons_of_mem _ hi)) hpm'
        (h.kept_setPods ht (ht.1.insert hpm'))

theorem createPod (h : al.Keeps o I) (req : CreatePodRequest) (d : Daemon) (hr : o.Admits (.createPod req))
    (hd : o.Kept I d) : o.Kept I (d.createPod al env req).2 := by
  simp only [Daemon.createPod]
  split
  · exact hd
  · have hok : o.PodOk req.podId ⟨req.podId, req.podName, req.podNamespace, []⟩ := ⟨hr.1, by simp⟩
    have hl := h.createPodLoop env req [] req.containers _ [] _ hr.2 hok (h.kept_setPods hd (hd.1.insert hok))
    split
    next err d' he => rw [he] at hl; exact hl
    next cpus d' he =>
      rw [he] at hl
      split <;> exact hl.of_eq (Daemon.state_of_saveState_eq ‹_›) (Daemon.buckets_of_saveState_eq ‹_›)

/-! ### `DeletePod` -/

theorem deleteContainers (h : al.Keeps o I) (p : String) :
    ∀ (cs : List Container) (failed : List (String × Error)) (d : Daemon), (∀ c ∈ cs, o.owns p c) →
      o.Kept I d → o.Kept I (Daemon.deleteContainers al env cs failed d).2
  | [], _, _, _, hd => hd
  | it :: rest, failed, d, hcs, hd => by
    have hf := h.kept_free env (hcs it (List.mem_cons_self _ _)) hd
    have hrest : ∀ c ∈ rest, o.owns p c := fun c hc => hcs c (List.mem_cons_of_mem _ hc)
    simp only [Daemon.deleteContainers]
    split
    next err d' he => rw [he] at hf; exact deleteContainers h p rest _ _ hrest hf
    next d' he => rw [he] at hf; exact deleteContainers h p rest _ _ hrest hf

theorem deletePod (h : al.Keeps o I) (req : DeletePodRequest) (d : Daemon) (hd : o.Kept I d) :
    o.Kept I (d.deletePod al env req).2 := by
  simp only [Daemon.deletePod]
  split
  · exact hd
  · split
    · exact hd
    · next pod hpod =>
      have hdc := h.deleteContainers env req.podId pod.containers [] d (hd.1 _ _ hpod).2 hd
      exact h.kept_setPods hdc (hdc.1.erase req.podId)

/-! ### `UpdatePod` -/

theorem updateContainers (h : al.Keeps o I) (p : String) :
    ∀ (l : List (Container × Container)) (cpus : List AllocatedContainerResource) (updated : List Container)
      (failed : List (String × Error)) (d : Daemon), (∀ q ∈ l, o.owns p q.1 ∧ o.owns p q.2 ∧ q.2.Valid) →
      (∀ c ∈ updated, o.owns p c) → o.Kept I d →
      (∀ c ∈ (Daemon.updateContainers al env l cpus updated failed d).2.1, o.owns p c) ∧
        o.Kept I (Daemon.updateContainers al env l cpus updated failed d).2.2.2
  | [], _, _, _, _, _, hu, hd => ⟨hu, hd⟩
  | (current, wanted) :: rest, cpus, updated, failed, d, hl, hu, hd => by
    obtain ⟨h1, h2, h3⟩ := hl _ (List.mem_cons_self _ _)
    have hl' : ∀ q ∈ rest, o.owns p q.1 ∧ o.owns p q.2 ∧ q.2.Valid := fun q hq => hl q (List.mem_cons_of_mem _ hq)
    have hf := h.kept_free env h1 hd
    simp only [Daemon.updateContainers]
    split
    next err d' he => rw [he] at hf; exact updateContainers h p rest _ _ _ _ hl' hu hf
    next d' he =>
      rw [he] at hf
      have ht := h.kept_take env h3 h2 hf
      split
      next err d'' he' => rw [he'] at ht; exact updateContainers h p rest _ _ _ _ hl' hu ht
      next d'' he' =>
        rw [he'] at ht
        exact updateContainers h p rest _ _ _ _ hl' (List.forall_mem_append.2 ⟨hu, List.forall_mem_singleton.2 h2⟩) ht

theorem addContainers (h : al.Keeps o I) (p : String) :
    ∀ (cs : List Container) (cpus : List AllocatedContainerResource) (added : List Container)
      (failed : List (String × Error)) (d : Daemon), (∀ c ∈ cs, o.owns p c ∧ c.Valid) →
      (∀ c ∈ added, o.owns p c) → o.Kept I d →
      (∀ c ∈ (Daemon.addContainers al env cs cpus added failed d).2.1, o.owns p c) ∧
        o.Kept I (Daemon.addContainers al env cs cpus added failed d).2.2.2
  | [], _, _, _, _, _, ha, hd => ⟨ha, hd⟩
  | it :: rest, cpus, added, failed, d, hcs, ha, hd => by
    obtain ⟨h1, h2⟩ := hcs it (List.mem_cons_self _ _)
    have hcs' : ∀ c ∈ rest, o.owns p c ∧ c.Valid := fun c hc => hcs c (List.mem_cons_of_mem _ hc)
    have ht := h.kept_take env h2 h1 hd
    simp only [Daemon.addContainers]
    split
    next err d' he => rw [he] at ht; exact addContainers h p rest _ _ _ _ hcs' ha ht
    next d' he =>
      rw [he] at ht
      exact addContainers h p rest _ _ _ _ hcs' (List.forall_mem_append.2 ⟨ha, List.forall_mem_singleton.2 h1⟩) ht

/-- What the pod's own containers give the three phases of `UpdatePod`. -/
theorem owns_of_updatePod {pod : PodMetadata} {p : String} (hpod : o.PodOk p pod) (req : UpdatePodRequest)
    (hr : o.Admits (.updatePod req)) (hp : req.podId = p) :
    (∀ c ∈ getDeletedContainers pod.containers req.containers, o.owns p c) ∧
      (∀ q ∈ getChangedContainers pod.containers req.containers, o.owns p q.1 ∧ o.owns p q.2 ∧ q.2.Valid) ∧
      (∀ c ∈ getAddedContainers pod.containers req.containers req.podId, o.owns p c ∧ c.Valid) ∧
      (∀ c ∈ getNotModifiedContainers pod.containers req.containers, o.owns p c) := by
  refine ⟨fun c hc => hpod.2 c (List.mem_of_mem_filter hc), fun q hq => ?_, fun c hc => ?_, fun c hc => ?_⟩
  · simp only [getChangedContainers, List.mem_flatMap, List.mem_map, List.mem_filter, decide_eq_true_eq] at hq
    obtain ⟨it, -, oc, ⟨hoc, hid, -⟩, rfl⟩ := hq
    have := hpod.2 oc hoc
    exact ⟨this, o.owns_update p oc it this hid.symm, containerFromRequest_valid _ _⟩
  · simp only [getAddedContainers, List.mem_map, List.mem_filter] at hc
    obtain ⟨it, ⟨hit, -⟩, rfl⟩ := hc
    exact ⟨hp ▸ hr it hit, containerFromRequest_valid _ _⟩
  · simp only [getNotModifiedContainers, List.mem_flatMap, List.mem_filter] at hc
    obtain ⟨-, -, hc, -⟩ := hc
    exact hpod.2 c hc

theorem updatePodLocked (h : al.Keeps o I) (req : UpdatePodRequest) (d : Daemon) (hr : o.Admits (.updatePod req))
    {pod : PodMetadata} (hpod : d.state.pods.lookup req.podId = some pod) (hd : o.Kept I d) :
    o.Kept I (d.updatePodLocked al env req).2 := by
  have hok := hd.1 _ _ hpod
  obtain ⟨hdel, hch, hadd, hnm⟩ := owns_of_updatePod hok req hr rfl
  obtain ⟨hu, h2⟩ := h.updateContainers env req.podId _ [] [] [] _ hch (by simp)
    (h.deleteContainers env req.podId _ [] d hdel hd)
  have h3 := fun cpus => h.addContainers env req.podId _ cpus [] [] _ hadd (by simp) h2
  have hpod' : lookupD d.state.pods req.podId .zero = pod := by simp [lookupD, hpod]
  simp only [Daemon.updatePodLocked, hpod']
  split <;> try split
  all_goals
    exact (h.kept_setPods (h3 _).2 ((h3 _).2.1.insert (hok.update hnm hu (h3 _).1))).of_eq
      (Daemon.state_of_saveState_eq ‹_›) (Daemon.buckets_of_saveState_eq ‹_›)

theorem updatePod (h : al.Keeps o I) (req : UpdatePodRequest) (d : Daemon) (hr : o.Admits (.updatePod req))
    (hd : o.Kept I d) : o.Kept I (d.updatePod al env req).2 := by
  simp only [Daemon.updatePod]
  split
  · exact hd
  · next hc =>
    have hmem : req.podId ∈ d.state.pods := by
      simp only [Daemon.updatePodCheck] at hc
      split at hc
      · cases hc
      · split_ifs at hc with hm
        exact hm
    obtain ⟨pod, hpod⟩ := Option.isSome_iff_exists.1 (AList.lookup_isSome.2 hmem)
    exact h.updatePodLocked env req d hr hpod hd

/-! ### Runs -/

theorem handle (h : al.Keeps o I) : ∀ (r : Request) (d : Daemon), o.Admits r → o.Kept I d → o.Kept I (d.handle al env r)
  | .createPod r, d, hr, hd => h.createPod env r d hr hd
  | .updatePod r, d, hr, hd => h.updatePod env r d hr hd
  | .deletePod r, d, _, hd => h.deletePod env r d hd

/-- An invariant every allocator call keeps holds, with the discipline of the pods, after every
run of admitted requests. -/
theorem run (h : al.Keeps o I) : ∀ (rs : List Request) (d : Daemon), (∀ r ∈ rs, o.Admits r) → o.Kept I d →
    o.Kept I (Daemon.run al env rs d)
  | [], _, _, hd => hd
  | r :: rs, d, hrs, hd =>
    run h rs _ (fun r' hr' => hrs r' (List.mem_cons_of_mem _ hr')) (h.handle env r d (hrs r (List.mem_cons_self _ _)) hd)

/-- An invariant that needs no discipline holds after every run of requests. -/
theorem run_any {I : DaemonState → NamespaceBuckets → Prop} (h : al.Keeps Owners.any I) (rs : List Request)
    (d : Daemon) (hd : I d.state d.buckets) : I (Daemon.run al env rs d).state (Daemon.run al env rs d).buckets :=
  (h.run env rs d (fun r _ => Owners.any_admits r) ⟨Owners.any_pods _, hd⟩).2

end Allocator.Keeps

/-! ### The cpus listed in `Allocated` -/

section ListedCpus

open List

/-- The cpus an `Allocated` map lists, container after container. -/
def listedCpus (m : AList fun _ : String => List CPUBucket) : List Int :=
  m.entries.flatMap fun e => e.2.flatMap CPUBucket.cpus

@[simp] theorem listedCpus_empty : listedCpus ∅ = [] := rfl

theorem flatMap_sublist_flatMap {α γ : Type} (f : α → List γ) {l₁ l₂ : List α} (h : l₁ <+ l₂) :
    l₁.flatMap f <+ l₂.flatMap f := by
  induction h with
  | slnil => exact .slnil
  | cons a _ ih => simpa using ih.trans (List.sublist_append_right _ _)
  | cons₂ a _ ih => simpa using ih.append_left (f a)

theorem nodup_of_subperm {α : Type} {l₁ l₂ : List α} (h : l₁ <+~ l₂) (hd : l₂.Nodup) : l₁.Nodup := by
  obtain ⟨l, hp, hs⟩ := h
  exact hp.nodup_iff.1 (hd.sublist hs)

/-- The entry of a key that is present can be moved to the front. -/
theorem entries_perm_of_lookup {m : AList fun _ : String => List CPUBucket} {cid : String} {v : List CPUBucket}
    (h : m.lookup cid = some v) : m.entries ~ ⟨cid, v⟩ :: m.entries.kerase cid := by
  have hmem : (⟨cid, v⟩ : Σ _ : String, List CPUBucket) ∈ m.entries := AList.mem_lookup_iff.1 h
  obtain ⟨b, l₁, l₂, -, he, hker⟩ := List.exists_of_kerase (List.mem_keys_of_mem hmem)
  have hb : (⟨cid, b⟩ : Σ _ : String, List CPUBucket) = ⟨cid, v⟩ :=
    m.nodupKeys.eq_of_fst_eq (he ▸ List.mem_append_right _ (List.mem_cons_self _ _)) hmem rfl
  rw [hker, he, hb]
  exact List.perm_middle

/-- Erasing a container drops exactly its cpus. -/
theorem listedCpus_erase_perm {m : AList fun _ : String => List CPUBucket} {cid : String} {v : List CPUBucket}
    (h : m.lookup cid = some v) : listedCpus m ~ v.flatMap CPUBucket.cpus ++ listedCpus (m.erase cid) := by
  simpa [listedCpus] using (entries_perm_of_lookup h).flatMap_right fun e => e.2.flatMap CPUBucket.cpus

theorem listedCpus_kerase_sublist (m : AList fun _ : String => List CPUBucket) (cid : String) :
    (m.entries.kerase cid).flatMap (fun e => e.2.flatMap CPUBucket.cpus) <+ listedCpus m :=
  flatMap_sublist_flatMap _ (List.kerase_sublist cid m.entries)

/-- Storing a list under a container replaces its cpus by the list's. -/
theorem listedCpus_insert_subperm (m : AList fun _ : String => List CPUBucket) (cid : String) (v : List CPUBucket) :
    listedCpus (m.insert cid v) <+~ v.flatMap CPUBucket.cpus ++ listedCpus m := by
  simpa [listedCpus, AList.insert_entries] using
    ((listedCpus_kerase_sublist m cid).append_left (v.flatMap CPUBucket.cpus)).subperm

/-- Appending to a container's list adds exactly the new cpus. -/
theorem listedCpus_insert_append_perm (m : AList fun _ : String => List CPUBucket) (cid : String)
    (new : List CPUBucket) :
    listedCpus (m.insert cid (lookupD m cid [] ++ new)) ~ new.flatMap CPUBucket.cpus ++ listedCpus m := by
  cases h : m.lookup cid with
  | none =>
    have hk : m.entries.kerase cid = m.entries := List.kerase_of_not_mem_keys (AList.lookup_eq_none.1 h)
    simp [listedCpus, AList.insert_entries, lookupD, h, hk]
  | some v =>
    refine List.Perm.trans ?_ ((listedCpus_erase_perm h).append_left (new.flatMap CPUBucket.cpus)).symm
    simp only [listedCpus, AList.insert_entries, lookupD, h, Option.getD_some, List.flatMap_cons,
      List.flatMap_append, ← List.append_assoc]
    exact List.perm_append_comm.append_right _

theorem mem_listedCpus {m : AList fun _ : String => List CPUBucket} {x : Int} :
    x ∈ listedCpus m ↔ ∃ cid v, m.lookup cid = some v ∧ ∃ b ∈ v, x ∈ b.cpus := by
  simp [listedCpus, ← AList.mem_lookup_iff, Sigma.exists]

/-- When the listed cpus have no duplicate, two containers hold disjoint cpus. -/
theorem listedCpus_disjoint {m : AList fun _ : String => List CPUBucket} (hd : (listedCpus m).Nodup)
    {cid cid' : String} {v v' : List CPUBucket} (hne : cid ≠ cid') (h : m.lookup cid = some v)
    (h' : m.lookup cid' = some v') : (v.flatMap CPUBucket.cpus).Disjoint (v'.flatMap CPUBucket.cpus) := by
  have hv' : v'.flatMap CPUBucket.cpus ⊆ listedCpus (m.erase cid) := fun x hx =>
    mem_listedCpus.2 ⟨cid', v', by rw [AList.lookup_erase_ne hne.symm, h'], List.mem_flatMap.1 hx⟩
  exact fun x hx hx' => (nodup_append.1 ((listedCpus_erase_perm h).nodup_iff.1 hd)).2.2 hx (hv' hx')

end ListedCpus

end CpuControlPlane
