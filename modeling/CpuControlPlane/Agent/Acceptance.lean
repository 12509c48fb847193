import CpuControlPlane.Agent.AgentDaemon

/-! # What the daemon accepts of the agent's requests

The daemon validates each request before anything else (`ValidateCreatePodRequest`,
`ValidateUpdatePodRequest`), and the agent builds its requests from the pod (`GetCreatePodRequest`,
`GetUpdatePodRequest`) once every container status carries a runtime id and is ready.  Between the
two, the contract is a condition on the pod alone:

- `validate_agentRequests`: the agent's `CreatePod` request passes validation exactly when the pod
  has a uid, a name, a namespace and a container, and each container has a name, a status of that
  name, and limits covering its requests (`ContainerAccepted`); its `UpdatePod` request, under the
  same conditions but the name and namespace.  The agent checks none of the per-container
  conditions, so a pod with a container that asks for cpus without a limit covering them is sent
  and rejected. -/

namespace CpuControlPlane

/-! ### Validation as a whole -/

theorem validateCreatePodRequest_eq_none {req : CreatePodRequest} :
    validateCreatePodRequest req = none ↔ req.containers ≠ [] ∧ req.podId ≠ "" ∧ req.podName ≠ "" ∧
      req.podNamespace ≠ "" ∧ validateResourceInfo req.resources = none ∧ validateContainers req.containers = none := by
  simp only [validateCreatePodRequest, returnErrorIfEmptyString, List.length_eq_zero]
  split_ifs <;> cases validateResourceInfo req.resources <;> simp_all

theorem validateUpdatePodRequest_eq_none {req : UpdatePodRequest} :
    validateUpdatePodRequest req = none ↔ req.containers ≠ [] ∧ req.podId ≠ "" ∧
      validateResourceInfo req.resources = none ∧ validateContainers req.containers = none := by
  simp only [validateUpdatePodRequest, List.length_eq_zero]
  split_ifs <;> cases validateResourceInfo req.resources <;> simp_all

namespace Agent

/-! ### The requests the agent builds -/

theorem accepted_of_getContainerInfo {c : Container} {i : ContainerInfo} (h : getContainerInfo c = .ok i) :
    (∃ r, getContainerResources c.requests = .ok r) ∧ ∃ l, getContainerResources c.limits = .ok l := by
  unfold getContainerInfo at h
  split at h
  · cases h
  next r hr =>
    split at h
    · cases h
    next l hl => exact ⟨⟨_, hr⟩, _, hl⟩

theorem accepted_of_loop_none (pod : Pod) : ∀ (cs : List Container) (acc : List ContainerInfo) (sums : ResourceInfo),
    (createPodResourcesLoop pod cs acc sums).2.2 = none →
      ∀ c ∈ cs, (∃ r, getContainerResources c.requests = .ok r) ∧ ∃ l, getContainerResources c.limits = .ok l
  | [], _, _, _ => fun _ h => absurd h (List.not_mem_nil _)
  | c :: cs, acc, sums, h => by
    simp only [createPodResourcesLoop] at h
    split at h
    · cases h
    next i hi =>
      split at h
      · cases h
      next sums' _ =>
        intro c' hc'
        rcases List.mem_cons.1 hc' with rfl | hc'
        · exact accepted_of_getContainerInfo hi
        · exact accepted_of_loop_none pod cs _ _ h c' hc'

/-- A pod whose conversion returned no error: every quantity was accepted, the totals fit, and the
conversion reports the exact totals and every container's info. -/
theorem createPodResources_of_none {pod : Pod} (h : (createPodResources pod).2.2 = none) :
    createPodResources pod = (pod.containers.map (expectedContainerInfo pod), some (exactTotals pod), none) ∧
      InInt32 (exactTotals pod) ∧ ∀ c ∈ pod.containers, InInt32 (expectedResources c) := by
  have hacc := accepted_of_loop_none pod pod.containers [] _ h
  have hz : InInt32 ⟨0, 0, 0, 0⟩ := by simp [InInt32, maxInt32]
  obtain ⟨hok, herr⟩ := createPodResourcesLoop_spec pod pod.containers [] _ hacc hz
  have hin : InInt32 (exactTotals pod) := by
    by_contra hn
    obtain ⟨e, he, -⟩ := herr hn
    rw [createPodResources] at h
    rw [h] at he
    cases he
  refine ⟨by rw [createPodResources, hok hin, List.nil_append]; rfl, hin, fun c hc => ?_⟩
  exact (getContainerInfo_of_accepted (hacc c hc).1 (hacc c hc).2).2

theorem getCreatePodRequest_eq {pod : Pod} {req : CreatePodRequest} (h : getCreatePodRequest pod = .ok req) :
    req = ⟨pod.uid, pod.name, pod.podNamespace, exactTotals pod, pod.containers.map (expectedContainerInfo pod)⟩ ∧
      InInt32 (exactTotals pod) ∧ ∀ c ∈ pod.containers, InInt32 (expectedResources c) := by
  unfold getCreatePodRequest at h
  split at h
  · cases h
  next ci ri hc =>
    obtain ⟨he, hin⟩ := createPodResources_of_none (by rw [hc])
    rw [hc, Prod.mk.injEq, Prod.mk.injEq] at he
    obtain ⟨rfl, rfl, -⟩ := he
    cases h
    exact ⟨rfl, hin⟩

theorem getUpdatePodRequest_eq {pod : Pod} {req : UpdatePodRequest} (h : getUpdatePodRequest pod = .ok req) :
    req = ⟨pod.uid, exactTotals pod, pod.containers.map (expectedContainerInfo pod)⟩ ∧
      InInt32 (exactTotals pod) ∧ ∀ c ∈ pod.containers, InInt32 (expectedResources c) := by
  unfold getUpdatePodRequest at h
  split at h
  · cases h
  next ci ri hc =>
    obtain ⟨he, hin⟩ := createPodResources_of_none (by rw [hc])
    rw [hc, Prod.mk.injEq, Prod.mk.injEq] at he
    obtain ⟨rfl, rfl, -⟩ := he
    cases h
    exact ⟨rfl, hin⟩

/-- With every status carrying a runtime id, a container gets an id exactly when a status has its
name. -/
theorem getContainerID_ne_empty {pod : Pod} (hids : ∀ s ∈ pod.containerStatuses, s.containerID ≠ "") (name : String) :
    getContainerID name pod ≠ "" ↔ ∃ s ∈ pod.containerStatuses, s.name = name := by
  unfold getContainerID
  cases hf : pod.containerStatuses.find? fun s => s.name = name with
  | none =>
    simp only [Option.map_none', Option.getD_none, ne_eq, not_true_eq_false, false_iff, not_exists, not_and]
    exact fun s hs he => by simpa [he] using List.find?_eq_none.1 hf s hs
  | some s =>
    simp only [Option.map_some', Option.getD_some]
    exact iff_of_true (hids s (List.mem_of_find?_eq_some hf)) ⟨s, List.mem_of_find?_eq_some hf, by
      simpa using List.find?_some hf⟩

theorem exactTotal_le {f g : Container → Quantity} : ∀ {cs : List Container},
    (∀ c ∈ cs, (f c).asInt64.getD 0 ≤ (g c).asInt64.getD 0) → exactTotal f cs ≤ exactTotal g cs
  | [], _ => le_rfl
  | c :: _, h => by
    have := exactTotal_le fun c' hc' => h c' (List.mem_cons_of_mem _ hc')
    simp only [exactTotal]
    have := h c (List.mem_cons_self _ _)
    omega

/-! ### The contract -/

/-- What the daemon's validation asks of a container the agent reports: a name, a status of that
name (which gives its runtime id), and cpu and memory limits that cover the requests (a missing
quantity counting as `0`). -/
def ContainerAccepted (p : WatchedPod) (c : Container) : Prop :=
  c.name ≠ "" ∧ (∃ s ∈ p.statuses, s.status.name = c.name) ∧
    c.requests.cpu.asInt64.getD 0 ≤ c.limits.cpu.asInt64.getD 0 ∧
    c.requests.memory.asInt64.getD 0 ≤ c.limits.memory.asInt64.getD 0

theorem validateContainers_expected {p : WatchedPod} (hids : ∀ s ∈ p.pod.containerStatuses, s.containerID ≠ "")
    {cs : List Container} (hin : ∀ c ∈ cs, InInt32 (expectedResources c)) :
    validateContainers (cs.map (expectedContainerInfo p.pod)) = none ↔ ∀ c ∈ cs, ContainerAccepted p c := by
  rw [validateContainers_ok, List.forall_mem_map]
  refine forall₂_congr fun c hc => ?_
  obtain ⟨h1, -, h3, -, h5, -, h7, -⟩ := hin c hc
  simp only [expectedContainerInfo, expectedResources] at h1 h3 h5 h7 ⊢
  rw [getContainerID_ne_empty hids, validateResourceInfo_ok]
  simp only [WatchedPod.pod, List.mem_map, exists_exists_and_eq_and, ContainerAccepted]
  constructor
  · rintro ⟨hid, hn, -, -, -, -, hc1, hc2⟩
    exact ⟨hn, hid, hc1, hc2⟩
  · rintro ⟨hn, hid, hc1, hc2⟩
    exact ⟨hid, hn, h1, h3, h5, h7, hc1, hc2⟩

/-- The agent's readiness check gives every status a runtime id. -/
theorem containerID_of_ready {p : WatchedPod} (hready : allContainersReady p.statuses = true) :
    ∀ s ∈ p.pod.containerStatuses, s.containerID ≠ "" := by
  simp only [WatchedPod.pod, List.mem_map]
  rintro _ ⟨w, hw, rfl⟩
  have := List.all_eq_true.1 hready w hw
  simp only [Bool.and_eq_true, bne_iff_ne] at this
  exact this.1

/-- Containers whose limits cover their requests give pod totals whose limits cover their
requests. -/
theorem validateResourceInfo_exactTotals {pod : Pod} (hin : InInt32 (exactTotals pod))
    (h : ∀ c ∈ pod.containers, c.requests.cpu.asInt64.getD 0 ≤ c.limits.cpu.asInt64.getD 0 ∧
      c.requests.memory.asInt64.getD 0 ≤ c.limits.memory.asInt64.getD 0) :
    validateResourceInfo (exactTotals pod) = none := by
  obtain ⟨h1, -, h3, -, h5, -, h7, -⟩ := hin
  have hc := exactTotal_le fun c hc => (h c hc).1
  have hm := exactTotal_le fun c hc => (h c hc).2
  simp only [exactTotals, addTotals, Int.zero_add] at h1 h3 h5 h7 ⊢
  exact validateResourceInfo_ok.2 ⟨h1, h3, h5, h7, hc, hm⟩

/-- **What the daemon accepts of the agent's requests.**  For a pod whose container statuses all
carry a runtime id and are ready (when the agent sends a request for it), the `CreatePod` request
the agent builds passes the daemon's `ValidateCreatePodRequest` exactly when the pod has a uid, a
name, a namespace and a container, and each container has a name, a status of that name, and
cpu and memory limits covering its requests; its `UpdatePod` request passes
`ValidateUpdatePodRequest` under the same conditions but the name and namespace.  The agent checks
none of the per-container conditions: a container asking for cpus without a limit covering them
gets the pod rejected with a pod-spec error. -/
theorem validate_agentRequests {p : WatchedPod} (hready : allContainersReady p.statuses = true) :
    (∀ req, getCreatePodRequest p.pod = .ok req →
      (validateCreatePodRequest req = none ↔ p.containers ≠ [] ∧ p.uid ≠ "" ∧ p.name ≠ "" ∧ p.podNamespace ≠ "" ∧
        ∀ c ∈ p.containers, ContainerAccepted p c)) ∧
    (∀ req, getUpdatePodRequest p.pod = .ok req →
      (validateUpdatePodRequest req = none ↔ p.containers ≠ [] ∧ p.uid ≠ "" ∧ ∀ c ∈ p.containers, ContainerAccepted p c)) := by
  have hids := containerID_of_ready hready
  have totals : InInt32 (exactTotals p.pod) → (∀ c ∈ p.containers, ContainerAccepted p c) →
      validateResourceInfo (exactTotals p.pod) = none := fun hin h =>
    validateResourceInfo_exactTotals hin fun c hc => (h c hc).2.2
  refine ⟨fun req h => ?_, fun req h => ?_⟩
  · obtain ⟨rfl, hin, hcs⟩ := getCreatePodRequest_eq h
    rw [validateCreatePodRequest_eq_none, validateContainers_expected hids hcs]
    exact ⟨fun ⟨h1, h2, h3, h4, _, h6⟩ => ⟨by simpa using h1, h2, h3, h4, h6⟩,
      fun ⟨h1, h2, h3, h4, h6⟩ => ⟨by simpa using h1, h2, h3, h4, totals hin h6, h6⟩⟩
  · obtain ⟨rfl, hin, hcs⟩ := getUpdatePodRequest_eq h
    rw [validateUpdatePodRequest_eq_none, validateContainers_expected hids hcs]
    exact ⟨fun ⟨h1, h2, _, h4⟩ => ⟨by simpa using h1, h2, h4⟩,
      fun ⟨h1, h2, h4⟩ => ⟨by simpa using h1, h2, totals hin h4, h4⟩⟩

/-- A ready pod with one BestEffort container: both requests pass validation exactly when the
conditions hold. -/
theorem validate_agentRequests_readyPod :
    allContainersReady readyPod.statuses = true ∧
    (∀ req, getCreatePodRequest readyPod.pod = .ok req →
      (validateCreatePodRequest req = none ↔ readyPod.containers ≠ [] ∧ readyPod.uid ≠ "" ∧ readyPod.name ≠ "" ∧
        readyPod.podNamespace ≠ "" ∧ ∀ c ∈ readyPod.containers, ContainerAccepted readyPod c)) ∧
    (∀ req, getUpdatePodRequest readyPod.pod = .ok req →
      (validateUpdatePodRequest req = none ↔ readyPod.containers ≠ [] ∧ readyPod.uid ≠ "" ∧
        ∀ c ∈ readyPod.containers, ContainerAccepted readyPod c)) :=
  ⟨by decide, validate_agentRequests (p := readyPod) (by decide)⟩

/-- A ready pod whose one container asks for a cpu and sets no limit. -/
def noLimitPod : WatchedPod :=
  ⟨"q", "q", "ns", [⟨"c", ⟨⟨"1", some 1⟩, ⟨"0", some 0⟩⟩, ⟨⟨"0", some 0⟩, ⟨"0", some 0⟩⟩⟩], [⟨⟨"c", "cid"⟩, true⟩], false⟩

/-- The agent sends its `CreatePod`, and the daemon rejects it on the pod's totals. -/
example : (getCreatePodRequest noLimitPod.pod).toOption.map validateCreatePodRequest =
    some (some "CPU: limit cannot be smaller than request. 0 vs 1") := by
  decide

end Agent

end CpuControlPlane
