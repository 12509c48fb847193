import CpuControlPlane.Daemon.Keeps
import CpuControlPlane.Daemon.UpdateDiff

/-! # Which pod records a request writes

The daemon stores one record per pod id.  A request writes only the record of its own pod id:

- `lookup_handle_ne`: after any request, with any allocator and whatever each write returns, the
  record of every other pod id is what it was;
- `CreatePod` stores its pod when it succeeds (`mem_createPod_of_ok`) and stores nothing for the
  empty id, which validation rejects (`createPod_of_podId_empty`);
- `UpdatePod` stores a record only for a pod already stored (`mem_updatePod`);
- `DeletePod` of a non-empty id leaves no record for it (`not_mem_deletePod`), whether it was
  stored or not and whatever its frees return. -/

namespace CpuControlPlane

namespace Daemon

variable (al : Allocator) (env : Env)

/-! ### The container loops leave the pods alone -/

theorem deleteContainers_pods : ∀ (cs : List Container) (failed : List (String × Error)) (d : Daemon),
    (deleteContainers al env cs failed d).2.state.pods = d.state.pods
  | [], _, _ => rfl
  | c :: cs, failed, d => by
    have hp := al.freeCpus_pods env c d
    simp only [deleteContainers]
    split <;> rename_i he <;> rw [he] at hp <;> rw [deleteContainers_pods, hp]

theorem applyAll_pods : ∀ (L : List ContainerChange) (d : Daemon),
    (ContainerChange.applyAll al env L d).2.state.pods = d.state.pods
  | [], _ => rfl
  | ch :: L, d => by
    have hch : (ContainerChange.apply al env ch d).2.state.pods = d.state.pods := by
      cases ch with
      | drop c => exact al.freeCpus_pods env c d
      | add c => exact al.takeCpus_pods env c d
      | replace old new =>
        have hf := al.freeCpus_pods env old d
        simp only [ContainerChange.apply]
        split
        · rename_i he; rw [he] at hf; exact hf
        · rename_i he; rw [he] at hf; rw [al.takeCpus_pods, hf]
    rw [ContainerChange.applyAll, applyAll_pods, hch]

/-! ### `CreatePod` -/

theorem createPodLoop_lookup_ne (req : CreatePodRequest) {q : String} (hq : q ≠ req.podId) :
    ∀ (done its : List ContainerInfo) (podMeta : PodMetadata) (cpus : List AllocatedContainerResource) (d : Daemon),
      (createPodLoop al env req done its podMeta cpus d).2.state.pods.lookup q = d.state.pods.lookup q
  | _, [], _, _, _ => rfl
  | done, it :: rest, podMeta, cpus, d => by
    have hp := al.takeCpus_pods env (containerFromRequest it req.podId) d
    simp only [createPodLoop]
    split
    next d' he =>
      rw [he] at hp
      rw [setState_state, AList.lookup_erase_ne hq, (rollbackContainers_state al env req.podId done d').1, hp]
    next d' he =>
      rw [he] at hp
      rw [createPodLoop_lookup_ne req hq, setState_state, AList.lookup_insert_ne hq, hp]

/-- A loop that assigns every container keeps the pod stored. -/
theorem createPodLoop_mem (req : CreatePodRequest) :
    ∀ (done its : List ContainerInfo) (podMeta : PodMetadata) (cpus : List AllocatedContainerResource) (d : Daemon)
      (res : List AllocatedContainerResource), req.podId ∈ d.state.pods →
      (createPodLoop al env req done its podMeta cpus d).1 = .ok res →
      req.podId ∈ (createPodLoop al env req done its podMeta cpus d).2.state.pods
  | _, [], _, _, _, _, hd, _ => hd
  | done, it :: rest, podMeta, cpus, d, res, _, hok => by
    simp only [createPodLoop] at hok ⊢
    split at hok
    · cases hok
    · exact createPodLoop_mem req _ rest _ _ _ res ((AList.mem_insert _).2 (.inl rfl)) hok

/-- The state `CreatePod` leaves: the loop's when the request is valid, the old one otherwise. -/
theorem createPod_state (req : CreatePodRequest) (d : Daemon) :
    (d.createPod al env req).2.state = if validateCreatePodRequest req = none then
      (createPodLoop al env req [] req.containers ⟨req.podId, req.podName, req.podNamespace, []⟩ []
        (d.setState { d.state with pods := d.state.pods.insert req.podId ⟨req.podId, req.podName, req.podNamespace, []⟩ })).2.state
    else d.state := by
  simp only [createPod]
  split
  · next hv => rw [if_neg (by rw [hv]; exact Option.some_ne_none _)]
  · next hv =>
    rw [if_pos hv]
    split
    · next he => rw [he]
    · next he => split <;> rename_i hs <;> rw [state_of_saveState_eq hs, he]

theorem createPod_lookup_ne (req : CreatePodRequest) (d : Daemon) {q : String} (hq : q ≠ req.podId) :
    (d.createPod al env req).2.state.pods.lookup q = d.state.pods.lookup q := by
  rw [createPod_state]
  split_ifs
  · rw [createPodLoop_lookup_ne al env req hq, setState_state, AList.lookup_insert_ne hq]
  · rfl

/-- A successful `CreatePod` stores its pod. -/
theorem mem_createPod_of_ok {req : CreatePodRequest} {d : Daemon} {res : AllocatedPodResources}
    (h : (d.createPod al env req).1 = .ok res) : req.podId ∈ (d.createPod al env req).2.state.pods := by
  simp only [createPod] at h
  split at h
  · cases h
  · next hv =>
    rw [createPod_state, if_pos hv]
    split at h
    · cases h
    · next cpus d' he => exact createPodLoop_mem al env req _ _ _ _ _ cpus ((AList.mem_insert _).2 (.inl rfl)) (by rw [he])

/-- Validation rejects the empty pod id, and the state does not change. -/
theorem createPod_of_podId_empty {req : CreatePodRequest} (h : req.podId = "") (d : Daemon) :
    (d.createPod al env req).2.state = d.state := by
  rw [createPod_state, if_neg fun hv => validateCreatePodRequest_podId hv h]

/-! ### `DeletePod` -/

theorem deletePod_lookup_ne (req : DeletePodRequest) (d : Daemon) {q : String} (hq : q ≠ req.podId) :
    (d.deletePod al env req).2.state.pods.lookup q = d.state.pods.lookup q := by
  simp only [deletePod]
  split
  · rfl
  · split
    · rfl
    · rw [saveState_state, setState_state, AList.lookup_erase_ne hq, deleteContainers_pods]

/-- `DeletePod` of a non-empty id leaves no record for it. -/
theorem not_mem_deletePod {req : DeletePodRequest} (h : req.podId ≠ "") (d : Daemon) :
    req.podId ∉ (d.deletePod al env req).2.state.pods := by
  simp only [deletePod, validateDeletePodRequest, if_neg h]
  split
  · next hl => exact fun hm => by simp [← AList.lookup_isSome, hl] at hm
  · rw [saveState_state, setState_state]
    exact fun hm => (AList.mem_erase.1 hm).1 rfl

/-- Validation rejects the empty pod id, and nothing changes. -/
theorem deletePod_of_podId_empty {req : DeletePodRequest} (h : req.podId = "") (d : Daemon) :
    d.deletePod al env req = (some (.daemon ⟨.podSpecError, "pod id error: string is empty"⟩), d) := by
  simp only [deletePod, validateDeletePodRequest, if_pos h]

/-! ### `UpdatePod` -/

/-- `UpdatePod` stores a record only under the id of a stored pod. -/
theorem mem_updatePod (req : UpdatePodRequest) (d : Daemon) (q : String) :
    q ∈ (d.updatePod al env req).2.state.pods ↔ q ∈ d.state.pods := by
  simp only [updatePod]
  split
  · exact Iff.rfl
  · next hc =>
    have hmem : req.podId ∈ d.state.pods := by
      simp only [updatePodCheck] at hc
      split at hc
      · cases hc
      · split_ifs at hc with hm
        exact hm
    rw [(ContainerChange.updatePodLocked_apply al env req d rfl rfl rfl).1, saveState_state, setState_state,
      AList.mem_insert, applyAll_pods]
    exact ⟨fun h => h.elim (· ▸ hmem) id, .inr⟩

theorem updatePod_lookup_ne (req : UpdatePodRequest) (d : Daemon) {q : String} (hq : q ≠ req.podId) :
    (d.updatePod al env req).2.state.pods.lookup q = d.state.pods.lookup q := by
  simp only [updatePod]
  split
  · rfl
  · rw [(ContainerChange.updatePodLocked_apply al env req d rfl rfl rfl).1, saveState_state, setState_state,
      AList.lookup_insert_ne hq, applyAll_pods]

end Daemon

/-- The pod a request is about. -/
def Request.podId : Request → String
  | .createPod r => r.podId
  | .updatePod r => r.podId
  | .deletePod r => r.podId

namespace Daemon

variable (al : Allocator) (env : Env)

/-- **A request writes only its own pod's record.**  Whatever the allocator and whatever each
write returns, the record stored under every other pod id is unchanged. -/
theorem lookup_handle_ne (r : Request) (d : Daemon) {q : String} (hq : q ≠ r.podId) :
    (d.handle al env r).state.pods.lookup q = d.state.pods.lookup q := by
  cases r with
  | createPod r => exact createPod_lookup_ne al env r d hq
  | updatePod r => exact updatePod_lookup_ne al env r d hq
  | deletePod r => exact deletePod_lookup_ne al env r d hq

theorem mem_handle_ne (r : Request) (d : Daemon) {q : String} (hq : q ≠ r.podId) :
    q ∈ (d.handle al env r).state.pods ↔ q ∈ d.state.pods := by
  rw [← AList.lookup_isSome, lookup_handle_ne al env r d hq, AList.lookup_isSome]

/-- **Requests for other pods leave a pod's record alone.**  After any sequence of requests none
of which is about the pod id `q`, the record stored under `q` is what it was, whatever the
allocator and whatever each write returns. -/
theorem run_lookup_of_podId_ne {q : String} : ∀ (rs : List Request) (d : Daemon), (∀ r ∈ rs, r.podId ≠ q) →
    (run al env rs d).state.pods.lookup q = d.state.pods.lookup q
  | [], _, _ => rfl
  | r :: rs, d, h => by
    rw [run, run_lookup_of_podId_ne rs _ fun r' hr' => h r' (List.mem_cons_of_mem _ hr'),
      lookup_handle_ne al env r d (h r (List.mem_cons_self _ _)).symm]

/-- Creating and deleting the pod `"a"` on a fresh daemon leaves the record of `"b"` alone. -/
theorem run_lookup_of_podId_ne_createDelete :
    (∀ r ∈ [Request.createPod ⟨"a", "a", "ns", ⟨0, 0, 0, 0⟩, [⟨"c", "c", ⟨0, 0, 0, 0⟩⟩]⟩, .deletePod ⟨"a"⟩],
      r.podId ≠ "b") ∧
    (run .default Env.ok [.createPod ⟨"a", "a", "ns", ⟨0, 0, 0, 0⟩, [⟨"c", "c", ⟨0, 0, 0, 0⟩⟩]⟩, .deletePod ⟨"a"⟩]
      (fresh twoCpuInfos [⟨0, 1⟩])).state.pods.lookup "b" = (fresh twoCpuInfos [⟨0, 1⟩]).state.pods.lookup "b" :=
  ⟨by decide, run_lookup_of_podId_ne .default Env.ok _ _ (by decide)⟩

end Daemon

end CpuControlPlane
