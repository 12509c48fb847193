import CpuControlPlane.Daemon.State
import CpuControlPlane.Topology.Leafs

/-! # The default and the NUMA-aware allocators

An allocator has three operations on a container: `takeCpus` pins it, `freeCpus` gives its cpus
back, `clearCpus` widens its cgroup to every cpu.  Each is a function of the environment, the
container and the `Daemon`, returning the error and the new `Daemon`; a Go method that writes
to the state before failing returns the written state with its error.

- `DefaultAllocator` cuts a Guaranteed container's cpus from the front of the first available
  range holding more than it asks for (`takeFromRanges`), and on free extends the ranges that
  start right after the freed bucket (`returnToRanges`);
- `NumaAwareAllocator` takes leaves with `NumaTopology.take`, stores them as one-cpu buckets
  appended to the container's list, and on free returns them one by one with
  `NumaTopology.returnCpu` (`returnCpus`). -/

namespace CpuControlPlane

/-- `getMemoryPinning`: the NUMA nodes of the cpus, separated by commas (Go lists them in map
order; any fixed order is one of its runs). -/
def getMemoryPinning (nt : NumaTopology) (cpuIds : List Int) : String :=
  let nodes := cpuIds.foldl (fun s cpu => s.insert (lookupD nt.cpuInformation cpu ⟨0, 0, 0, 0, 0⟩).node) []
  String.intercalate "," (nodes.map toString)

/-- `getMemoryPinningIfEnabled`. -/
def getMemoryPinningIfEnabled (memoryPinning : Bool) (nt : NumaTopology) (cpuIds : List Int) : String :=
  if memoryPinning then getMemoryPinning nt cpuIds else ""

/-- `getMemoryPinningIfEnabledFromCpuSet`. -/
def getMemoryPinningIfEnabledFromCpuSet (memoryPinning : Bool) (nt : NumaTopology) (cpus : CPUSet) : String :=
  getMemoryPinningIfEnabled memoryPinning nt cpus.sorted

/-- The set of all leaf ids, read through the pointers `GetLeafs` returns (`clearCpus` of the NUMA
allocators). -/
def allLeafCpus (t : TopologyNode) : CPUSet := (t.getLeafs.map t.valueAt).foldl CPUSet.add []

/-- The loop of `freeCpus` that returns each cpu in turn and stops at the first error. -/
def NumaTopology.returnCpus (nt : NumaTopology) : List Int → Option TopologyError × NumaTopology
  | [] => (none, nt)
  | cpu :: cpus =>
    match nt.returnCpu cpu with
    | (none, nt') => nt'.returnCpus cpus
    | (some err, nt') => (some err, nt')

/-- Returning cpus changes counters only, whatever the tree. -/
theorem NumaTopology.skeleton_returnCpus : ∀ (nt : NumaTopology) (w : List Int),
    (nt.returnCpus w).2.topology.skeleton = nt.topology.skeleton
  | _, [] => rfl
  | nt, x :: w => by
    have hx := skeleton_returnCpu nt x
    simp only [returnCpus]
    split
    next nt' he => rw [he] at hx; rw [skeleton_returnCpus nt' w, ← hx]
    next err nt' he => rw [he] at hx; exact hx

/-- Returning cpus that are all leaf ids frees exactly their leaves, without an error, and keeps
the shape and the counter invariant. -/
theorem NumaTopology.returnCpus_spec : ∀ {nt : NumaTopology} {w : List Int}, nt.topology.Wf →
    (nt.topology.leaves.map TopologyNode.value).Nodup → (∀ x ∈ w, x ∈ nt.topology.leaves.map TopologyNode.value) →
    ∃ nt', nt.returnCpus w = (none, nt') ∧ nt'.topology.leaves = TopologyNode.markLeaves nt.topology.leaves w 1 ∧
      nt'.topology.skeleton = nt.topology.skeleton ∧ nt'.topology.Wf
  | nt, [], hwf, _, _ => ⟨nt, rfl, (TopologyNode.markLeaves_of_disjoint 1 (by simp)).symm, rfl, hwf⟩
  | nt, x :: w, hwf, hd, hw => by
    obtain ⟨h1, -, h3, h4, h5⟩ := returnCpu_spec (v := x) hwf hd
    have hx : nt.returnCpu x = (none, (nt.returnCpu x).2) := Prod.ext (h1.2 (hw x (List.mem_cons_self _ _))) rfl
    obtain ⟨nt', e, hl, hs, hw'⟩ := @returnCpus_spec (nt.returnCpu x).2 w h5
      (by rw [h3, TopologyNode.map_value_markLeaves]; exact hd)
      (fun y hy => by rw [h3, TopologyNode.map_value_markLeaves]; exact hw y (List.mem_cons_of_mem _ hy))
    refine ⟨nt', by rw [returnCpus, hx]; exact e, ?_, hs.trans h4, hw'⟩
    rw [hl, h3, TopologyNode.markLeaves_markLeaves]
    rfl

/-- The error of a missing container in `freeCpus`. -/
def containerNotFound (cid : String) : Error :=
  .daemon ⟨.containerNotFound, "Container " ++ cid ++ " not available for deletion"⟩

namespace Daemon

/-- Replace the daemon state. -/
def setState (d : Daemon) (s : DaemonState) : Daemon := { d with state := s }

@[simp] theorem setState_state (d : Daemon) (s : DaemonState) : (d.setState s).state = s := rfl
@[simp] theorem setState_buckets (d : Daemon) (s : DaemonState) : (d.setState s).buckets = d.buckets := rfl

end Daemon

/-! ### The default allocator -/

namespace DefaultAllocator

/-- The loop of `takeCpus` over the ranges: the first range with more than `n` cpus gives its first
`n` as a bucket and keeps the rest. -/
def takeFromRanges (n : Int) : List CPUBucket → Option (CPUBucket × List CPUBucket)
  | [] => none
  | b :: bs =>
    if b.endCPU - b.startCPU + 1 - n > 0 then
      some (⟨b.startCPU, b.startCPU + n - 1⟩, { b with startCPU := b.startCPU + n - 1 + 1 } :: bs)
    else (takeFromRanges n bs).map fun r => (r.1, b :: r.2)

/-- The cgroup text of a bucket. -/
def bucketString (sCPU eCPU : Int) : String :=
  if sCPU = eCPU then toString sCPU else toString sCPU ++ "-" ++ toString eCPU

/-- The loop of `freeCpus`: every range starting right after the freed bucket `v[0]` is extended to
its start (Go indexes `v[0]`, which the lists this allocator stores always have). -/
def returnToRanges (v : List CPUBucket) (ranges : List CPUBucket) : List CPUBucket :=
  match v with
  | [] => ranges
  | b :: _ => ranges.map fun r => if b.endCPU = r.startCPU - 1 then { r with startCPU := b.startCPU } else r

/-- `takeCpus`. -/
def takeCpus (env : Env) (c : Container) (d : Daemon) : Option Error × Daemon :=
  if c.qs ≠ .guaranteed then (none, d) else
  match takeFromRanges c.cpus d.state.availableCPUs with
  | none => (some (.daemon ⟨.cpusNotAvailable, "No available cpus for take request"⟩), d)
  | some (⟨sCPU, eCPU⟩, ranges) =>
    (d.setState { d.state with
      availableCPUs := ranges
      allocated := d.state.allocated.insert c.cid [⟨sCPU, eCPU⟩] }).updateCPUSet env c (bucketString sCPU eCPU) ""

/-- `freeCpus`. -/
def freeCpus (c : Container) (d : Daemon) : Option Error × Daemon :=
  if c.qs ≠ .guaranteed then (none, d) else
  match d.state.allocated.lookup c.cid with
  | none => (some (containerNotFound c.cid), d)
  | some v =>
    (none, d.setState { d.state with
      allocated := d.state.allocated.erase c.cid
      availableCPUs := returnToRanges v d.state.availableCPUs })

theorem takeCpus_of_not_guaranteed (env : Env) {c : Container} (hc : c.qs ≠ .guaranteed) (d : Daemon) :
    takeCpus env c d = (none, d) := by
  simp [takeCpus, hc]

/-- A take that succeeds cut a bucket from the ranges and stored it under the container. -/
theorem takeCpus_ok {env : Env} {c : Container} {d : Daemon} (hc : c.qs = .guaranteed)
    (h : (takeCpus env c d).1 = none) : ∃ bk ranges, takeFromRanges c.cpus d.state.availableCPUs = some (bk, ranges) ∧
      (takeCpus env c d).2.state = { d.state with availableCPUs := ranges, allocated := d.state.allocated.insert c.cid [bk] } := by
  simp only [takeCpus, hc, ne_eq, not_true_eq_false, if_false] at h ⊢
  split at h
  · simp at h
  next sCPU eCPU ranges ht => exact ⟨_, _, ht, rfl⟩

theorem takeCpus_pods (env : Env) (c : Container) (d : Daemon) : (takeCpus env c d).2.state.pods = d.state.pods := by
  simp only [takeCpus]
  split_ifs
  · rfl
  · split <;> rfl

theorem freeCpus_of_not_guaranteed {c : Container} (hc : c.qs ≠ .guaranteed) (d : Daemon) : freeCpus c d = (none, d) := by
  simp [freeCpus, hc]

theorem freeCpus_pods (c : Container) (d : Daemon) : (freeCpus c d).2.state.pods = d.state.pods := by
  simp only [freeCpus]
  split_ifs
  · rfl
  · split <;> rfl

theorem freeCpus_of_lookup {c : Container} {d : Daemon} {v : List CPUBucket} (hc : c.qs = .guaranteed)
    (hv : d.state.allocated.lookup c.cid = some v) :
    freeCpus c d = (none, d.setState { d.state with
      allocated := d.state.allocated.erase c.cid
      availableCPUs := returnToRanges v d.state.availableCPUs }) := by
  simp [freeCpus, hc, hv]

/-- `clearCpus`: the cgroup widened to the available and the allocated cpus. -/
def clearCpus (env : Env) (c : Container) (d : Daemon) : Option Error × Daemon :=
  let allCpus := d.state.availableCPUs ++ d.state.allocated.entries.flatMap (·.2)
  d.updateCPUSet env c (cpuSetFromBucketList allCpus).toCpuString ""

end DefaultAllocator

/-! ### The NUMA-aware allocator -/

namespace NumaAwareAllocator

variable (memoryPinning : Bool)

/-- `takeCpus`. -/
def takeCpus (env : Env) (c : Container) (d : Daemon) : Option Error × Daemon :=
  if c.qs ≠ .guaranteed then (none, d) else
  match d.state.topology.take c.cpus with
  | (.error err, nt) =>
    (some (.daemon ⟨.cpusNotAvailable, err.message⟩), d.setState { d.state with topology := nt })
  | (.ok cpuIds, nt) =>
    let allocatedList := lookupD d.state.allocated c.cid [] ++ cpuIds.map fun cpu => ⟨cpu, cpu⟩
    (d.setState { d.state with
      topology := nt
      allocated := d.state.allocated.insert c.cid allocatedList }).updateCPUSet env c
      (String.intercalate "," (cpuIds.map toString)) (getMemoryPinningIfEnabled memoryPinning nt cpuIds)

/-- `freeCpus`. -/
def freeCpus (c : Container) (d : Daemon) : Option Error × Daemon :=
  if c.qs ≠ .guaranteed then (none, d) else
  match d.state.allocated.lookup c.cid with
  | none => (some (containerNotFound c.cid), d)
  | some v =>
    match d.state.topology.returnCpus (v.flatMap CPUBucket.cpus) with
    | (err, nt) =>
      (err.map fun e => .daemon ⟨.cpusNotAvailable, e.message⟩,
        d.setState { d.state with allocated := d.state.allocated.erase c.cid, topology := nt })

theorem takeCpus_of_not_guaranteed (env : Env) {c : Container} (hc : c.qs ≠ .guaranteed) (d : Daemon) :
    takeCpus memoryPinning env c d = (none, d) := by
  simp [takeCpus, hc]

/-- A take that succeeds stored a list under the container and changed besides only the tree. -/
theorem takeCpus_ok {env : Env} {c : Container} {d : Daemon} (hc : c.qs = .guaranteed)
    (h : (takeCpus memoryPinning env c d).1 = none) : ∃ nt v,
      (takeCpus memoryPinning env c d).2.state = { d.state with topology := nt, allocated := d.state.allocated.insert c.cid v } := by
  simp only [takeCpus, hc, ne_eq, not_true_eq_false, if_false] at h ⊢
  split at h
  · simp at h
  · exact ⟨_, _, rfl⟩

theorem takeCpus_pods (env : Env) (c : Container) (d : Daemon) :
    (takeCpus memoryPinning env c d).2.state.pods = d.state.pods := by
  simp only [takeCpus]
  split_ifs
  · rfl
  · split <;> rfl

theorem freeCpus_of_not_guaranteed {c : Container} (hc : c.qs ≠ .guaranteed) (d : Daemon) : freeCpus c d = (none, d) := by
  simp [freeCpus, hc]

theorem freeCpus_pods (c : Container) (d : Daemon) : (freeCpus c d).2.state.pods = d.state.pods := by
  simp only [freeCpus]
  split_ifs
  · rfl
  · split <;> rfl

/-- `clearCpus`: the cgroup widened to every leaf. -/
def clearCpus (env : Env) (c : Container) (d : Daemon) : Option Error × Daemon :=
  let cpuSet := allLeafCpus d.state.topology.topology
  d.updateCPUSet env c cpuSet.toCpuString
    (getMemoryPinningIfEnabledFromCpuSet memoryPinning d.state.topology cpuSet)

end NumaAwareAllocator

end CpuControlPlane
