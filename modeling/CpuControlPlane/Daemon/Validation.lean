import CpuControlPlane.Daemon.State

/-! # Request validation

`ValidateCreatePodRequest`, `ValidateUpdatePodRequest` and `ValidateDeletePodRequest` with their
helpers.  A check returns the text of its error; the two entry-list helpers are the source's
`returnErrorIfEmptyString` and `returnErrorIfLessThanZero`, each entry naming its field.

- `validateResourceInfo_ok`: a resource record passes exactly when its four quantities are
  non-negative and each limit is at least its request;
- `validateContainers_ok`: a container list passes exactly when every container has an id and a
  name and passes the resource check. -/

namespace CpuControlPlane

/-- `returnErrorIfEmptyString`: the first empty string, named by its entry. -/
def returnErrorIfEmptyString : List (String × String) → Option String
  | [] => none
  | (s, err) :: entries => if s = "" then some ("string is empty: " ++ err) else returnErrorIfEmptyString entries

/-- `returnErrorIfLessThanZero`: the first negative value, named by its entry. -/
def returnErrorIfLessThanZero : List (Int × String) → Option String
  | [] => none
  | (i, err) :: entries => if i < 0 then some ("value cannot be less than 0: " ++ err) else returnErrorIfLessThanZero entries

/-- `ValidateResourceInfo`. -/
def validateResourceInfo (info : ResourceInfo) : Option String :=
  match returnErrorIfLessThanZero [(info.requestedCpus, "request CPU"), (info.limitCpus, "limit CPU"),
      (info.requestedMemory, "request memory"), (info.limitMemory, "limit memory")] with
  | some err => some err
  | none =>
    if info.limitCpus < info.requestedCpus then
      some ("CPU: limit cannot be smaller than request. " ++ toString info.limitCpus ++ " vs " ++
        toString info.requestedCpus)
    else if info.limitMemory < info.requestedMemory then some "memory: limit cannot be smaller than request"
    else none

/-- `ValidateContainers`. -/
def validateContainers : List ContainerInfo → Option String
  | [] => none
  | container :: containers =>
    match returnErrorIfEmptyString [(container.containerId, "container id cannot be nil"),
        (container.containerName, "container name cannot be nil")] with
    | some err => some err
    | none =>
      match validateResourceInfo container.resources with
      | some err => some err
      | none => validateContainers containers

/-- `ValidateCreatePodRequest`. -/
def validateCreatePodRequest (req : CreatePodRequest) : Option String :=
  if req.containers.length = 0 then some "pod spec does not include any containers" else
  match returnErrorIfEmptyString [(req.podId, "pod id cannot be nil"), (req.podName, "pod name cannot be nil"),
      (req.podNamespace, "pod namespace cannot be nil")] with
  | some err => some err
  | none =>
    match validateResourceInfo req.resources with
    | some err => some err
    | none => validateContainers req.containers

/-- `ValidateDeletePodRequest`. -/
def validateDeletePodRequest (req : DeletePodRequest) : Option String :=
  if req.podId = "" then some "pod id error: string is empty" else none

/-- `ValidateUpdatePodRequest`. -/
def validateUpdatePodRequest (req : UpdatePodRequest) : Option String :=
  if req.containers.length = 0 then some "pod spec does not include any containers" else
  if req.podId = "" then some "pod id error: string is empty" else
  match validateResourceInfo req.resources with
  | some err => some err
  | none => validateContainers req.containers

/-- A resource record passes exactly when its quantities are non-negative and each limit covers
its request. -/
theorem validateResourceInfo_ok {info : ResourceInfo} :
    validateResourceInfo info = none ↔ 0 ≤ info.requestedCpus ∧ 0 ≤ info.limitCpus ∧
      0 ≤ info.requestedMemory ∧ 0 ≤ info.limitMemory ∧ info.requestedCpus ≤ info.limitCpus ∧
      info.requestedMemory ≤ info.limitMemory := by
  simp only [validateResourceInfo, returnErrorIfLessThanZero]
  split_ifs <;> simp <;> omega

/-- A container list passes exactly when every container has an id, a name and valid resources. -/
theorem validateContainers_ok : ∀ {cs : List ContainerInfo}, validateContainers cs = none ↔
    ∀ c ∈ cs, c.containerId ≠ "" ∧ c.containerName ≠ "" ∧ validateResourceInfo c.resources = none
  | [] => by simp [validateContainers]
  | c :: cs => by
    simp only [validateContainers, returnErrorIfEmptyString, List.mem_cons, forall_eq_or_imp]
    split_ifs
    · simp_all
    · simp_all
    · cases validateResourceInfo c.resources <;> simp_all [validateContainers_ok]

/-- A valid creation request names its pod. -/
theorem validateCreatePodRequest_podId {req : CreatePodRequest} (h : validateCreatePodRequest req = none) :
    req.podId ≠ "" := by
  intro hp
  simp only [validateCreatePodRequest, returnErrorIfEmptyString, hp, if_true] at h
  split_ifs at h

end CpuControlPlane
