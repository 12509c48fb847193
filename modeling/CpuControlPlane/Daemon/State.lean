import CpuControlPlane.Daemon.CpuSet
import CpuControlPlane.Topology.Load

/-! # The daemon's data

The records the daemon keeps and exchanges:

- `Container`, `PodMetadata` and `DaemonState`, whose Go maps are association lists (`AList`):
  a lookup of a missing key gives Go's zero value through `lookupD`;
- the requests `CreatePodRequest`, `UpdatePodRequest`, `DeletePodRequest` and the reply
  `AllocatedPodResources`;
- the errors, `DaemonError` with its `DError` kind, an error passed on from the environment, and
  the list of `failedContainers`;
- `NamespaceBuckets`, the maps of the per-namespace allocator, and `Daemon`, everything a request
  reads and writes;
- `Env`, the environment: the answer of the cgroup files and of the state file to the `n`-th
  write, so that a theorem over every `Env` holds whatever each write does. -/

namespace CpuControlPlane

/-- A Go map lookup: the zero value `d` when the key is missing. -/
def lookupD {α β : Type} [DecidableEq α] (m : AList (fun _ : α => β)) (k : α) (d : β) : β :=
  (m.lookup k).getD d

theorem lookupD_insert {α β : Type} [DecidableEq α] (m : AList (fun _ : α => β)) (k k' : α) (v d : β) :
    lookupD (m.insert k v) k' d = if k' = k then v else lookupD m k' d := by
  by_cases h : k' = k
  · subst h; simp [lookupD]
  · simp [lookupD, h, AList.lookup_insert_ne h]

theorem lookupD_erase {α β : Type} [DecidableEq α] (m : AList (fun _ : α => β)) (k k' : α) (d : β) :
    lookupD (m.erase k) k' d = if k' = k then d else lookupD m k' d := by
  by_cases h : k' = k
  · subst h; simp [lookupD]
  · simp [lookupD, h, AList.lookup_erase_ne h]

/-- `QoS`: the quality-of-service class of a container. -/
inductive QoS where
  | guaranteed
  | bestEffort
  | burstable
deriving DecidableEq, Repr

/-- `DError`: the kinds of daemon errors. -/
inductive DError where
  | cpusNotAvailable
  | podNotFound
  | podSpecError
  | containerNotFound
  | missingCgroup
  | unknownTopology
  | runtimeError
  | notImplemented
deriving DecidableEq, Repr

/-- `DaemonError`. -/
structure DaemonError where
  errorType : DError
  errorMessage : String
deriving DecidableEq, Repr

/-- An error as the daemon returns it: its own, one passed on from the cgroup files or the state
file, or the `failedContainersErrors` of a batch of containers. -/
inductive Error where
  | daemon (e : DaemonError)
  | external (message : String)
  | failedContainers (fails : List (String × Error))

mutual

/-- `Error()`. -/
def Error.message : Error → String
  | .daemon e => "Daemon Error: " ++ e.errorMessage
  | .external m => m
  | .failedContainers fails => "multiple errors: " ++ String.intercalate ";" (Error.failMessages fails)

/-- The parts of the text of `failedContainersErrors`. -/
def Error.failMessages : List (String × Error) → List String
  | [] => []
  | (cid, e) :: rest => ("cid: " ++ cid ++ ", err: " ++ e.message) :: Error.failMessages rest

end

/-- `ErrorOrNil` of `failedContainersErrors`. -/
def errorOrNil (fails : List (String × Error)) : Option Error :=
  if fails.isEmpty then none else some (.failedContainers fails)

/-- `Container`. -/
structure Container where
  cid : String
  pid : String
  name : String
  cpus : Int
  qs : QoS
deriving DecidableEq, Repr

/-- `PodMetadata` (Go's field `Namespace` is `podNamespace` here, `namespace` being a keyword). -/
structure PodMetadata where
  pid : String
  name : String
  podNamespace : String
  containers : List Container
deriving DecidableEq, Repr

/-- The zero `PodMetadata`, what a lookup of a missing pod gives. -/
def PodMetadata.zero : PodMetadata := ⟨"", "", "", []⟩

/-- `DaemonState`: the available ranges (default allocator), the cpus allocated to each container,
the pods, and the topology (NUMA allocators). -/
structure DaemonState where
  availableCPUs : List CPUBucket
  allocated : AList (fun _ : String => List CPUBucket)
  pods : AList (fun _ : String => PodMetadata)
  topology : NumaTopology

/-! ### Requests and replies -/

/-- `ResourceInfo`: requested and limit cpus and memory. -/
structure ResourceInfo where
  requestedCpus : Int
  limitCpus : Int
  requestedMemory : Int
  limitMemory : Int
deriving DecidableEq, Repr

/-- `ContainerInfo`. -/
structure ContainerInfo where
  containerId : String
  containerName : String
  resources : ResourceInfo
deriving DecidableEq, Repr

/-- `CreatePodRequest`. -/
structure CreatePodRequest where
  podId : String
  podName : String
  podNamespace : String
  resources : ResourceInfo
  containers : List ContainerInfo
deriving DecidableEq, Repr

/-- `UpdatePodRequest`. -/
structure UpdatePodRequest where
  podId : String
  resources : ResourceInfo
  containers : List ContainerInfo
deriving DecidableEq, Repr

/-- `DeletePodRequest`. -/
structure DeletePodRequest where
  podId : String
deriving DecidableEq, Repr

/-- `AllocatedContainerResource`. -/
structure AllocatedContainerResource where
  containerID : String
  cpuSet : List CPUBucket
deriving DecidableEq, Repr

/-- `AllocatedPodResources`. -/
structure AllocatedPodResources where
  containerResources : List AllocatedContainerResource
deriving DecidableEq, Repr

/-! ### Allocator maps, the daemon, the environment -/

/-- The fields of `NumaPerNamespaceAllocator` that change while it runs. -/
structure NamespaceBuckets where
  namespaceToBucket : AList (fun _ : String => Int)
  bucketToNumContainers : AList (fun _ : Int => Int)
  globalBucket : Int

/-- The maps of a new `NumaPerNamespaceAllocator`. -/
def NamespaceBuckets.empty : NamespaceBuckets := ⟨∅, ∅, 0⟩

/-- Everything a request reads and writes: the daemon state, the per-namespace allocator's maps,
and the number of writes made so far to the cgroup files and the state file. -/
structure Daemon where
  state : DaemonState
  buckets : NamespaceBuckets
  writes : Nat

/-- The environment: the error, if any, that the `n`-th write returns, to a container's cpuset
(with the cpu and memory texts) or to the state file. -/
structure Env where
  updateCPUSet : Nat → Container → String → String → Option Error
  saveState : Nat → Option Error

/-- The environment in which every write succeeds. -/
def Env.ok : Env := ⟨fun _ _ _ _ => none, fun _ => none⟩

namespace Daemon

/-- `UpdateCPUSet` of the cgroup controller. -/
def updateCPUSet (env : Env) (c : Container) (cpuSet memSet : String) (d : Daemon) : Option Error × Daemon :=
  (env.updateCPUSet d.writes c cpuSet memSet, { d with writes := d.writes + 1 })

/-- `saveState`: a failed write of the state file becomes a runtime error. -/
def saveState (env : Env) (d : Daemon) : Option Error × Daemon :=
  ((env.saveState d.writes).map fun err =>
      .daemon ⟨.runtimeError, "Cannot save daemon state: " ++ err.message⟩,
    { d with writes := d.writes + 1 })

@[simp] theorem updateCPUSet_state (env : Env) (c : Container) (cpuSet memSet : String) (d : Daemon) :
    (d.updateCPUSet env c cpuSet memSet).2.state = d.state := rfl
@[simp] theorem updateCPUSet_buckets (env : Env) (c : Container) (cpuSet memSet : String) (d : Daemon) :
    (d.updateCPUSet env c cpuSet memSet).2.buckets = d.buckets := rfl
@[simp] theorem saveState_state (env : Env) (d : Daemon) : (d.saveState env).2.state = d.state := rfl
@[simp] theorem saveState_buckets (env : Env) (d : Daemon) : (d.saveState env).2.buckets = d.buckets := rfl

theorem state_of_saveState_eq {env : Env} {d d' : Daemon} {e : Option Error} (h : d.saveState env = (e, d')) :
    d'.state = d.state := by
  rw [← saveState_state env d, h]

theorem buckets_of_saveState_eq {env : Env} {d d' : Daemon} {e : Option Error} (h : d.saveState env = (e, d')) :
    d'.buckets = d.buckets := by
  rw [← saveState_buckets env d, h]

/-- A write to a cgroup changes neither the daemon state nor the namespace maps. -/
theorem updateCPUSet_eq {env : Env} {c : Container} {cpuSet memSet : String} {d d' : Daemon} {e : Option Error}
    (h : d.updateCPUSet env c cpuSet memSet = (e, d')) : d'.state = d.state ∧ d'.buckets = d.buckets := by
  rw [← updateCPUSet_state env c cpuSet memSet d, ← updateCPUSet_buckets env c cpuSet memSet d, h]
  exact ⟨rfl, rfl⟩

end Daemon

end CpuControlPlane
