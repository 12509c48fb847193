import CpuControlPlane.Daemon.Requests

/-! # Runs from a freshly started daemon that break documented properties

The properties the per-namespace allocator is documented to keep, and runs where it does not:

- a Guaranteed take marks its leaves with the leaf-level `TopologyNode.take`, which leaves every
  counter above them as it was, so the counter invariant breaks at the first take below the
  root (`take_below_root_not_wf`, and the run `guaranteedTake_breaks_counters`);
- a non-Guaranteed container is pinned to every leaf of its bucket, taken or not
  (`takeAllCpusFromBucket_shared`), and freeing it returns all of them, so a cpu still held by
  a Guaranteed container becomes free and is handed out again (`freedBurstable_regives_cpu`);
- in exclusive mode a Guaranteed take re-pins only the containers `findContainer` sees in the
  stored pods (`findContainer_eq_none`), and `UpdatePod` stores its new containers after
  assigning them all, so a burstable container added with a Guaranteed one keeps the Guaranteed
  one's cpu (`exclusiveUpdate_shares_cpu`);
- a Guaranteed take that finds too few cpus in the bucket fails with `CpusNotAvailable` only after
  counting the container in the bucket (`takeCpus_of_notEnough`), so the failed take leaves the
  bucket's count one higher (`failedTake_counts_container`).

Under every allocator, `CreatePod` is documented to leave no container of a failed pod assigned,
but its rollback only clears cgroups and changes no state (`Daemon.rollbackContainers_state`): the
cpus taken before the failure stay taken once the pod is forgotten
(`failedCreate_keeps_assignment`). -/

namespace CpuControlPlane

open TopologyNode

namespace TopologyNode

theorem numAvailable_modify_cons (t : TopologyNode) (j : Nat) (p : List Nat) (f : TopologyNode → TopologyNode) :
    (t.modify (j :: p) f).numAvailable = t.numAvailable := by
  cases t; rfl

/-- Marking a free leaf below the root taken, and nothing else, breaks the counter invariant: the
root still counts the leaf. -/
theorem take_below_root_not_wf {t l : TopologyNode} {p : List Nat} (ht : t.Wf) (hp : p ≠ [])
    (hl : t.get? p = some l) (hleaf : l.children = []) (hfree : l.numAvailable = 1) :
    ¬(t.modify p fun x => x.take.2).Wf := by
  intro h
  obtain ⟨pre, suf, h1, h2⟩ := leaves_addAbove_modify hl
  have hl1 : l.leaves = [l] := leaves_of_children_nil hleaf
  have htake : l.take.2 = l.setAvailable 0 := by simp [take, isLeaf, hleaf, hfree]
  have hl2 : (l.setAvailable 0).leaves = [l.setAvailable 0] := leaves_of_children_nil (by simpa)
  rw [modify_eq_const _ hl] at h
  have e1 := numAvailable_eq_leaves h
  have e2 := numAvailable_eq_leaves ht
  obtain ⟨j, p, rfl⟩ := List.exists_cons_of_ne_nil hp
  rw [numAvailable_modify_cons, ← addAbove_zero (t.modify _ _) (j :: p), h2, htake, hl2] at e1
  rw [h1, hl1] at e2
  simp only [sumAvailable_append, sumAvailable_cons, setAvailable_numAvailable, hfree] at e1 e2
  omega

end TopologyNode

/-! ### Runs from a fresh daemon -/

/-- A container asking for one cpu with request equal to limit: Guaranteed. -/
def guaranteedInfo (cid : String) : ContainerInfo := ⟨cid, cid, ⟨1, 1, 0, 0⟩⟩

/-- A container whose cpu limit exceeds its request: Burstable. -/
def burstableInfo (cid : String) : ContainerInfo := ⟨cid, cid, ⟨0, 1, 0, 0⟩⟩

/-- A container with no cpu or memory figures: BestEffort. -/
def bestEffortInfo (cid : String) : ContainerInfo := ⟨cid, cid, ⟨0, 0, 0, 0⟩⟩

/-- A pod of namespace `"ns"` named after its id. -/
def podRequest (pid : String) (cs : List ContainerInfo) : CreatePodRequest := ⟨pid, pid, "ns", ⟨0, 0, 0, 0⟩, cs⟩

/-- The per-namespace allocator with one bucket, in the given mode. -/
def oneBucket (exclusive : Bool) : NumaPerNamespaceAllocator := ⟨1, exclusive, false, by decide⟩

/-- Creating one pod with one Guaranteed container on a fresh two-cpu machine leaves the root
counting two free cpus while one of its leaves is taken. -/
theorem guaranteedTake_breaks_counters :
    (Daemon.fresh twoCpuInfos []).state.topology.topology.Wf ∧
      ¬(Daemon.run (.numaPerNamespace (oneBucket false)) Env.ok [.createPod (podRequest "p" [guaranteedInfo "g"])]
        (Daemon.fresh twoCpuInfos [])).state.topology.topology.Wf := by
  decide

/-! ### Shared cpus -/

namespace NumaPerNamespaceAllocator

/-- Outside exclusive mode a non-Guaranteed container gets every leaf of the bucket, taken or not. -/
theorem takeAllCpusFromBucket_shared (a : NumaPerNamespaceAllocator) (h : a.exclusive = false)
    (t : TopologyNode) (bucket : List (List Nat)) : a.takeAllCpusFromBucket t bucket = bucket.map t.valueAt := by
  simp [takeAllCpusFromBucket, h]

/-- Take a Guaranteed container, a burstable one in the same bucket, free the burstable one and
take another Guaranteed one. -/
def regiveRun : Daemon :=
  Daemon.run (.numaPerNamespace (oneBucket false)) Env.ok
    [.createPod (podRequest "p1" [guaranteedInfo "g1"]), .createPod (podRequest "p2" [burstableInfo "b"]),
      .deletePod ⟨"p2"⟩, .createPod (podRequest "p3" [guaranteedInfo "g2"])] (Daemon.fresh twoCpuInfos [])

/-- After `regiveRun` both Guaranteed containers are admitted and hold cpu 0. -/
theorem freedBurstable_regives_cpu :
    (lookupD regiveRun.state.pods "p1" .zero).containers.map (fun c => (c.cid, c.qs)) = [("g1", .guaranteed)] ∧
      (lookupD regiveRun.state.pods "p3" .zero).containers.map (fun c => (c.cid, c.qs)) = [("g2", .guaranteed)] ∧
      lookupD regiveRun.state.allocated "g1" [] = [⟨0, 0⟩] ∧ lookupD regiveRun.state.allocated "g2" [] = [⟨0, 0⟩] :=
  ⟨rfl, rfl, rfl, rfl⟩

/-- `findContainer` sees exactly the containers stored in the pods. -/
theorem findContainer_eq_none {s : DaemonState} {cid : String} :
    findContainer s cid = none ↔ ∀ e ∈ s.pods.entries, ∀ c ∈ e.2.containers, c.cid ≠ cid := by
  simp [findContainer, List.find?_eq_none]

/-- In exclusive mode, a pod with a best-effort container updated to add a burstable and a
Guaranteed container. -/
def exclusiveUpdateRun : Daemon :=
  Daemon.run (.numaPerNamespace (oneBucket true)) Env.ok
    [.createPod (podRequest "p" [bestEffortInfo "x"]),
      .updatePod ⟨"p", ⟨0, 0, 0, 0⟩, [bestEffortInfo "x", burstableInfo "b", guaranteedInfo "g"]⟩]
    (Daemon.fresh twoCpuInfos [])

/-- After `exclusiveUpdateRun` all three containers are admitted and cpu 0 is in the burstable and
in the Guaranteed list: the burstable one was not yet stored when the Guaranteed take re-pinned
the namespace. -/
theorem exclusiveUpdate_shares_cpu :
    (lookupD exclusiveUpdateRun.state.pods "p" .zero).containers.map (fun c => (c.cid, c.qs)) =
        [("x", .bestEffort), ("b", .burstable), ("g", .guaranteed)] ∧
      lookupD exclusiveUpdateRun.state.allocated "b" [] = [⟨0, 0⟩, ⟨1, 1⟩] ∧
      lookupD exclusiveUpdateRun.state.allocated "g" [] = [⟨0, 0⟩] :=
  ⟨rfl, rfl, rfl⟩

/-! ### A take that fails -/

/-- Pod `"p"` of namespace `"ns"` with a BestEffort container, created on a fresh two-cpu machine
with one bucket. -/
def oneBestEffortRun : Daemon :=
  Daemon.run (.numaPerNamespace (oneBucket false)) Env.ok [.createPod (podRequest "p" [bestEffortInfo "x"])]
    (Daemon.fresh twoCpuInfos [])

/-- A Guaranteed container of pod `"p"` asking for three cpus. -/
def threeCpuContainer : Container := containerFromRequest ⟨"g", "g", ⟨3, 3, 0, 0⟩⟩ "p"

/-- Asking the bucket of two cpus for three fails with `CpusNotAvailable`, and the bucket, which
counted the BestEffort container, now counts two containers. -/
theorem failedTake_counts_container :
    ((oneBucket false).takeCpus Env.ok threeCpuContainer oneBestEffortRun).1 =
        some (.daemon ⟨.cpusNotAvailable,
          "not enough free cpus in namespace bucket: cannot allocate 3 cpus, only 2 processors available in bucket"⟩) ∧
      lookupD oneBestEffortRun.buckets.bucketToNumContainers 0 0 = 1 ∧
      lookupD ((oneBucket false).takeCpus Env.ok threeCpuContainer oneBestEffortRun).2.buckets.bucketToNumContainers 0 0 = 2 :=
  ⟨rfl, rfl, rfl⟩

end NumaPerNamespaceAllocator

/-! ### The rollback of a failed `CreatePod` -/

/-- With the default allocator on the range 0–3, a pod asking for one cpu and then for ten. -/
def failedCreate : Except Error AllocatedPodResources × Daemon :=
  (Daemon.fresh [] [⟨0, 3⟩]).createPod .default Env.ok
    (podRequest "p" [guaranteedInfo "g1", ⟨"g2", "g2", ⟨10, 10, 0, 0⟩⟩])

/-- `failedCreate` fails on the second container, and the first keeps cpu 0, cut from the
available range. -/
theorem failedCreate_keeps_assignment :
    failedCreate.1 = .error (.daemon ⟨.cpusNotAvailable, "No available cpus for take request"⟩) ∧
      "p" ∉ failedCreate.2.state.pods ∧ failedCreate.2.state.availableCPUs = [⟨1, 3⟩] ∧
      failedCreate.2.state.allocated.lookup "g1" = some [⟨0, 0⟩] :=
  ⟨rfl, by decide⟩

end CpuControlPlane
