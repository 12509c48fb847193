import CpuControlPlane.Daemon.NamespaceAllocator
import CpuControlPlane.Daemon.Validation

/-! # The daemon's requests

`createPod`, `deletePod` and `updatePod` are the daemon's `CreatePod`, `DeletePod` and
`UpdatePod`, driving the static policy, whose `AssignContainer`, `DeleteContainer` and
`ClearContainer` call the allocator's `takeCpus`, `freeCpus` and `clearCpus`.

- `createPod` records the pod, assigns its containers in order and, at the first failure, clears
  the containers assigned so far (`rollbackContainers`) and forgets the pod;
- `deletePod` frees every container of the pod, collecting the failures, and forgets the pod;
- `updatePod` checks, before taking the lock, that the pod exists (`updatePodCheck`), then under
  the lock (`updatePodLocked`) frees the containers the request drops, re-assigns those it
  changes and assigns those it adds, and stores the containers that came through.

Each request returns its reply with the new `Daemon`; the lock only matters when requests
interleave, which `Concurrency` models with the two parts of `updatePod`.  The rollback of a failed
`CreatePod` changes no state (`rollbackContainers_state`). -/

namespace CpuControlPlane

/-- The allocator a `StaticPolicy` was built with. -/
inductive Allocator where
  | default
  | numaAware (memoryPinning : Bool)
  | numaPerNamespace (a : NumaPerNamespaceAllocator)

namespace Allocator

/-- `takeCpus`, called by `AssignContainer`. -/
def takeCpus : Allocator → Env → Container → Daemon → Option Error × Daemon
  | .default, env, c, d => DefaultAllocator.takeCpus env c d
  | .numaAware m, env, c, d => NumaAwareAllocator.takeCpus m env c d
  | .numaPerNamespace a, env, c, d => a.takeCpus env c d

/-- `freeCpus`, called by `DeleteContainer`. -/
def freeCpus : Allocator → Env → Container → Daemon → Option Error × Daemon
  | .default, _, c, d => DefaultAllocator.freeCpus c d
  | .numaAware _, _, c, d => NumaAwareAllocator.freeCpus c d
  | .numaPerNamespace a, env, c, d => a.freeCpus env c d

/-- `clearCpus`, called by `ClearContainer`. -/
def clearCpus : Allocator → Env → Container → Daemon → Option Error × Daemon
  | .default, env, c, d => DefaultAllocator.clearCpus env c d
  | .numaAware m, env, c, d => NumaAwareAllocator.clearCpus m env c d
  | .numaPerNamespace a, env, c, d => a.clearCpus env c d

end Allocator

/-- `containerFromRequest`: the container a request describes, with its QoS class. -/
def containerFromRequest (req : ContainerInfo) (podID : String) : Container :=
  let r := req.resources
  let qs : QoS :=
    if r.requestedCpus = r.limitCpus ∧ r.requestedMemory = r.limitMemory ∧ r.requestedCpus > 0 then .guaranteed
    else if r.requestedCpus < r.limitCpus ∨ r.requestedMemory < r.limitMemory then .burstable
    else .bestEffort
  ⟨req.containerId, podID, req.containerName, r.requestedCpus, qs⟩

/-- `errOrNil`: the text of an error, `"nil"` for none. -/
def errOrNil : Option Error → String
  | some err => err.message
  | none => "nil"

/-- `getDeletedContainers`: the stored containers the request no longer lists. -/
def getDeletedContainers (current : List Container) (wanted : List ContainerInfo) : List Container :=
  current.filter fun cc => !wanted.any fun oc => oc.containerId = cc.cid

/-- `getChangedContainers`: the stored containers the request lists with other settings, each with
its new record. -/
def getChangedContainers (current : List Container) (wanted : List ContainerInfo) : List (Container × Container) :=
  wanted.flatMap fun cc => (current.filter fun oc => oc.cid = cc.containerId ∧ containerFromRequest cc oc.pid ≠ oc).map
    fun oc => (oc, containerFromRequest cc oc.pid)

/-- `getNotModifiedContainers`: the stored containers the request lists unchanged. -/
def getNotModifiedContainers (current : List Container) (wanted : List ContainerInfo) : List Container :=
  wanted.flatMap fun cc => current.filter fun oc => oc.cid = cc.containerId ∧ containerFromRequest cc oc.pid = oc

/-- `getAddedContainers`: the request's containers that are not stored yet. -/
def getAddedContainers (current : List Container) (wanted : List ContainerInfo) (podID : String) : List Container :=
  (wanted.filter fun cc => !current.any fun oc => oc.cid = cc.containerId).map fun cc => containerFromRequest cc podID

namespace Daemon

variable (al : Allocator) (env : Env)

/-- The reply entry of an assigned container: its stored buckets. -/
def allocatedResource (d : Daemon) (cid : String) : AllocatedContainerResource :=
  ⟨cid, lookupD d.state.allocated cid []⟩

/-- `rollbackContainers`: clear each container; failures are only logged. -/
def rollbackContainers (podID : String) : List ContainerInfo → Daemon → Daemon
  | [], d => d
  | it :: rest, d => rollbackContainers podID rest (al.clearCpus env (containerFromRequest it podID) d).2

/-- The loop of `CreatePod` over the request's containers; `done` are those assigned so far. -/
def createPodLoop (req : CreatePodRequest) : List ContainerInfo → List ContainerInfo → PodMetadata →
    List AllocatedContainerResource → Daemon → Except Error (List AllocatedContainerResource) × Daemon
  | _, [], _, cpus, d => (.ok cpus, d)
  | done, it :: rest, podMeta, cpus, d =>
    let c := containerFromRequest it req.podId
    match al.takeCpus env c d with
    | (some err, d) =>
      let d := rollbackContainers al env req.podId done d
      (.error err, d.setState { d.state with pods := d.state.pods.erase req.podId })
    | (none, d) =>
      let podMeta := { podMeta with containers := podMeta.containers ++ [c] }
      createPodLoop req (done ++ [it]) rest podMeta (cpus ++ [d.allocatedResource it.containerId])
        (d.setState { d.state with pods := d.state.pods.insert req.podId podMeta })

/-- `CreatePod`. -/
def createPod (req : CreatePodRequest) (d : Daemon) : Except Error AllocatedPodResources × Daemon :=
  match validateCreatePodRequest req with
  | some err => (.error (.daemon ⟨.podSpecError, err⟩), d)
  | none =>
    let podMeta : PodMetadata := ⟨req.podId, req.podName, req.podNamespace, []⟩
    match createPodLoop al env req [] req.containers podMeta []
        (d.setState { d.state with pods := d.state.pods.insert req.podId podMeta }) with
    | (.error err, d) => (.error err, d)
    | (.ok cpus, d) =>
      match d.saveState env with
      | (some err, d) => (.error err, d)
      | (none, d) => (.ok ⟨cpus⟩, d)

/-- `deleteContainers`: free each container, collecting the failures. -/
def deleteContainers : List Container → List (String × Error) → Daemon → Option Error × Daemon
  | [], failed, d => (errorOrNil failed, d)
  | it :: rest, failed, d =>
    match al.freeCpus env it d with
    | (some err, d) => deleteContainers rest (failed ++ [(it.cid, err)]) d
    | (none, d) => deleteContainers rest failed d

/-- `DeletePod`: the pod is forgotten whatever its containers' frees do; a failed write of the
state file is only logged. -/
def deletePod (req : DeletePodRequest) (d : Daemon) : Option Error × Daemon :=
  match validateDeletePodRequest req with
  | some err => (some (.daemon ⟨.podSpecError, err⟩), d)
  | none =>
    match d.state.pods.lookup req.podId with
    | none => (some (.daemon ⟨.podNotFound, "Pod not found in CPU State"⟩), d)
    | some pod =>
      match deleteContainers al env pod.containers [] d with
      | (err, d) => (err, (d.setState { d.state with pods := d.state.pods.erase req.podId }).saveState env |>.2)

/-- `updateContainers`: free each changed container and, when that succeeds, assign its new record. -/
def updateContainers : List (Container × Container) → List AllocatedContainerResource → List Container →
    List (String × Error) → Daemon → List AllocatedContainerResource × List Container × Option Error × Daemon
  | [], cpus, updated, failed, d => (cpus, updated, errorOrNil failed, d)
  | (current, wanted) :: rest, cpus, updated, failed, d =>
    match al.freeCpus env current d with
    | (some err, d) => updateContainers rest cpus updated (failed ++ [(current.cid, err)]) d
    | (none, d) =>
      match al.takeCpus env wanted d with
      | (some err, d) => updateContainers rest cpus updated (failed ++ [(current.cid, err)]) d
      | (none, d) => updateContainers rest (cpus ++ [d.allocatedResource wanted.cid]) (updated ++ [wanted]) failed d

/-- `addContainers`: assign each new container. -/
def addContainers : List Container → List AllocatedContainerResource → List Container →
    List (String × Error) → Daemon → List AllocatedContainerResource × List Container × Option Error × Daemon
  | [], cpus, added, failed, d => (cpus, added, errorOrNil failed, d)
  | it :: rest, cpus, added, failed, d =>
    match al.takeCpus env it d with
    | (some err, d) => addContainers rest cpus added (failed ++ [(it.cid, err)]) d
    | (none, d) => addContainers rest (cpus ++ [d.allocatedResource it.cid]) (added ++ [it]) failed d

/-- The part of `UpdatePod` run before the lock: validation and the pod's existence. -/
def updatePodCheck (req : UpdatePodRequest) (s : DaemonState) : Option Error :=
  match validateUpdatePodRequest req with
  | some err => some (.daemon ⟨.podSpecError, err⟩)
  | none =>
    if req.podId ∈ s.pods then none
    else some (.daemon ⟨.podNotFound, "Pod " ++ req.podId ++ " does not exist, cannot update"⟩)

/-- The part of `UpdatePod` run under the lock. -/
def updatePodLocked (req : UpdatePodRequest) (d : Daemon) :
    (Option AllocatedPodResources × Option Error) × Daemon :=
  let pod := lookupD d.state.pods req.podId .zero
  let pC := pod.containers
  match deleteContainers al env (getDeletedContainers pC req.containers) [] d with
  | (deletedErr, d) =>
  match updateContainers al env (getChangedContainers pC req.containers) [] [] [] d with
  | (cpus, updatedContainers, updatedErr, d) =>
  match addContainers al env (getAddedContainers pC req.containers req.podId) cpus [] [] d with
  | (cpus, addedContainers, addedErr, d) =>
    let pod := { pod with
      containers := getNotModifiedContainers pC req.containers ++ updatedContainers ++ addedContainers }
    let d := d.setState { d.state with pods := d.state.pods.insert req.podId pod }
    match d.saveState env with
    | (some err, d) => ((none, some err), d)
    | (none, d) =>
      if deletedErr.isSome ∨ addedErr.isSome ∨ updatedErr.isSome then
        ((some ⟨cpus⟩, some (.daemon ⟨.runtimeError, "Delete errors: " ++ errOrNil deletedErr ++
          ", Add errors: " ++ errOrNil addedErr ++ ", Update errors: " ++ errOrNil updatedErr⟩)), d)
      else ((some ⟨cpus⟩, none), d)

/-- `UpdatePod`, run alone. -/
def updatePod (req : UpdatePodRequest) (d : Daemon) : (Option AllocatedPodResources × Option Error) × Daemon :=
  match updatePodCheck req d.state with
  | some err => ((none, some err), d)
  | none => updatePodLocked al env req d

end Daemon

/-- The requests the daemon serves. -/
inductive Request where
  | createPod (req : CreatePodRequest)
  | updatePod (req : UpdatePodRequest)
  | deletePod (req : DeletePodRequest)

namespace Daemon

variable (al : Allocator) (env : Env)

/-- Serve one request, dropping the reply. -/
def handle : Request → Daemon → Daemon
  | .createPod r, d => (d.createPod al env r).2
  | .updatePod r, d => (d.updatePod al env r).2
  | .deletePod r, d => (d.deletePod al env r).2

/-- Serve the requests one after the other. -/
def run : List Request → Daemon → Daemon
  | [], d => d
  | r :: rs, d => run rs (d.handle al env r)

/-- A daemon just started: the topology loaded from the cpus, the given available ranges, no pod
and nothing allocated. -/
def fresh (cpus : List CpuInfo) (ranges : List CPUBucket) : Daemon :=
  ⟨⟨ranges, ∅, ∅, NumaTopology.loadFromCpuInfo cpus⟩, NamespaceBuckets.empty, 0⟩

end Daemon

/-! ### The rollback of a failed `CreatePod`

`ClearContainer` only widens a cgroup: for every allocator it leaves the daemon state and the
namespace maps as they were (`clearCpus_state`), hence so does the whole rollback
(`rollbackContainers_state`). -/

namespace Allocator

/-- `ClearContainer` changes neither the daemon state nor the namespace maps. -/
theorem clearCpus_state (al : Allocator) (env : Env) (c : Container) (d : Daemon) :
    (al.clearCpus env c d).2.state = d.state ∧ (al.clearCpus env c d).2.buckets = d.buckets := by
  cases al <;>
    simp [clearCpus, DefaultAllocator.clearCpus, NumaAwareAllocator.clearCpus, NumaPerNamespaceAllocator.clearCpus]

end Allocator

namespace Daemon

/-- The rollback changes neither the daemon state nor the namespace maps. -/
theorem rollbackContainers_state (al : Allocator) (env : Env) (podID : String) :
    ∀ (cs : List ContainerInfo) (d : Daemon),
      (rollbackContainers al env podID cs d).state = d.state ∧
        (rollbackContainers al env podID cs d).buckets = d.buckets
  | [], _ => ⟨rfl, rfl⟩
  | it :: cs, d => by
    obtain ⟨h1, h2⟩ := Allocator.clearCpus_state al env (containerFromRequest it podID) d
    obtain ⟨h3, h4⟩ := rollbackContainers_state al env podID cs (al.clearCpus env (containerFromRequest it podID) d).2
    exact ⟨h3.trans h1, h4.trans h2⟩

end Daemon

end CpuControlPlane
