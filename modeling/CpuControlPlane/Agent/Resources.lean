import CpuControlPlane.Daemon.State

/-! # The pod resources the agent reports

The agent turns a Kubernetes pod into the daemon's requests (`getCreatePodRequest`,
`getUpdatePodRequest`).  Every cpu and memory quantity of a container must be an integer in
`[0, MaxInt32]` (`getContainerResources`); the pod's four totals are summed in `int32`, which
wraps around, and a sum that turns negative is reported as `ErrCountingOverflow`
(`createPodResources`).

Main result:

* `createPodResources_totals`: when every quantity is accepted, the conversion fails with
  `ErrCountingOverflow` exactly when one of the four exact totals exceeds `MaxInt32`, and
  otherwise it reports the four exact totals and one container info per container. -/

namespace CpuControlPlane

namespace Agent

/-! ### The Kubernetes side -/

/-- `resource.Quantity` as the agent reads it: its text, and its value when `AsInt64` can
represent it. -/
structure Quantity where
  text : String
  asInt64 : Option Int
  deriving DecidableEq, Repr

/-- `corev1.ResourceList` through `Cpu()` and `Memory()` (a missing entry reads as zero). -/
structure ResourceList where
  cpu : Quantity
  memory : Quantity
  deriving DecidableEq, Repr

/-- `corev1.Container`: its name and the requests and limits of its resources. -/
structure Container where
  name : String
  requests : ResourceList
  limits : ResourceList
  deriving DecidableEq, Repr

/-- `corev1.ContainerStatus`: a container's name and runtime id. -/
structure ContainerStatus where
  name : String
  containerID : String
  deriving DecidableEq, Repr

/-- `corev1.Pod`: its uid, name and namespace (`podNamespace`, `namespace` being a keyword), the
containers of its spec and the container statuses. -/
structure Pod where
  uid : String
  name : String
  podNamespace : String
  containers : List Container
  containerStatuses : List ContainerStatus
  deriving DecidableEq, Repr

/-! ### Errors -/

/-- The agent's sentinel errors. -/
inductive Sentinel where
  | notRepresentable
  | countingOverflow
  deriving DecidableEq, Repr

/-- `ErrNotRepresentable` and `ErrCountingOverflow`. -/
def Sentinel.message : Sentinel → String
  | .notRepresentable => "value not representable as int64"
  | .countingOverflow => "values sum is not representable as int32"

/-- An error of the agent: the sentinel it wraps, which `errors.Is` finds, and its text. -/
structure AgentError where
  sentinel : Sentinel
  message : String
  deriving DecidableEq, Repr

/-- The sentinel itself as an error. -/
def Sentinel.toError (s : Sentinel) : AgentError := ⟨s, s.message⟩

/-- `fmt.Errorf(context + ": %w", err)`. -/
def AgentError.wrap (context : String) (err : AgentError) : AgentError :=
  ⟨err.sentinel, context ++ ": " ++ err.message⟩

/-! ### The conversion -/

/-- `math.MaxInt32`. -/
def maxInt32 : Int := 2147483647

/-- Addition of `int32` values, wrapping around modulo `2 ^ 32`. -/
def addInt32 (a b : Int) : Int := Int.bmod (a + b) 4294967296

/-- The check `getContainerResources` makes of one quantity (`what` is `"cpu"` or `"mem"`):
representable as `int64` and within `[0, MaxInt32]`, so that `int32(v)` is `v`. -/
def quantityValue (what : String) (q : Quantity) : Except AgentError Int :=
  match q.asInt64 with
  | some v =>
    if v > maxInt32 ∨ v < 0 then .error (Sentinel.notRepresentable.toError.wrap (what ++ " quantity " ++ q.text))
    else .ok v
  | none => .error (Sentinel.notRepresentable.toError.wrap (what ++ " quantity " ++ q.text))

/-- `getContainerResources`: the cpus and the memory of a resource list. -/
def getContainerResources (resourceList : ResourceList) : Except AgentError (Int × Int) := do
  let cpus ← quantityValue "cpu" resourceList.cpu
  let memory ← quantityValue "mem" resourceList.memory
  pure (cpus, memory)

/-- `getContainerInfo`: the name and the four figures of a container; its id is set by the caller. -/
def getContainerInfo (container : Container) : Except AgentError ContainerInfo :=
  match getContainerResources container.requests with
  | .error err => .error (err.wrap "requested resources error")
  | .ok (requestedCpus, requestedMemory) =>
    match getContainerResources container.limits with
    | .error err => .error (err.wrap "limit resources error")
    | .ok (limitCpus, limitMemory) =>
      .ok ⟨"", container.name, ⟨requestedCpus, limitCpus, requestedMemory, limitMemory⟩⟩

/-- `getContainerID`: the runtime id in the first status of that name, `""` when there is none. -/
def getContainerID (name : String) (pod : Pod) : String :=
  ((pod.containerStatuses.find? fun s => s.name = name).map (·.containerID)).getD ""

/-- One of the four `+=` of `createPodResources`, with its check that the sum did not turn
negative (`context` names the sum in the error). -/
def addChecked (context : String) (sum x : Int) : Except AgentError Int :=
  if addInt32 sum x < 0 then .error (Sentinel.countingOverflow.toError.wrap context) else .ok (addInt32 sum x)

/-- A container's figures added to the pod's sums, in the order of the code. -/
def addResources (sums r : ResourceInfo) : Except AgentError ResourceInfo := do
  let requestedCpus ← addChecked "cpus request" sums.requestedCpus r.requestedCpus
  let limitCpus ← addChecked "cpus limit" sums.limitCpus r.limitCpus
  let requestedMemory ← addChecked "mem request" sums.requestedMemory r.requestedMemory
  let limitMemory ← addChecked "mem limit" sums.limitMemory r.limitMemory
  pure ⟨requestedCpus, limitCpus, requestedMemory, limitMemory⟩

/-- The loop of `createPodResources` over the containers, with the container infos so far and the
pod's sums.  A container that cannot be read empties the list; an overflow returns the list so
far. -/
def createPodResourcesLoop (pod : Pod) : List Container → List ContainerInfo → ResourceInfo →
    List ContainerInfo × Option ResourceInfo × Option AgentError
  | [], containerInfo, sums => (containerInfo, some sums, none)
  | container :: rest, containerInfo, sums =>
    match getContainerInfo container with
    | .error err => ([], none, some err)
    | .ok cInfo =>
      let cInfo := { cInfo with containerId := getContainerID container.name pod }
      match addResources sums cInfo.resources with
      | .error err => (containerInfo, none, some err)
      | .ok sums => createPodResourcesLoop pod rest (containerInfo ++ [cInfo]) sums

/-- `createPodResources`: the container infos, the pod's totals and the error. -/
def createPodResources (pod : Pod) : List ContainerInfo × Option ResourceInfo × Option AgentError :=
  createPodResourcesLoop pod pod.containers [] ⟨0, 0, 0, 0⟩

/-- `GetCreatePodRequest` (with no error the totals are always there). -/
def getCreatePodRequest (pod : Pod) : Except AgentError CreatePodRequest :=
  match createPodResources pod with
  | (_, _, some err) => .error err
  | (containerInfo, resourceInfo, none) =>
    .ok ⟨pod.uid, pod.name, pod.podNamespace, resourceInfo.getD ⟨0, 0, 0, 0⟩, containerInfo⟩

/-- `GetUpdatePodRequest`. -/
def getUpdatePodRequest (pod : Pod) : Except AgentError UpdatePodRequest :=
  match createPodResources pod with
  | (_, _, some err) => .error err
  | (containerInfo, resourceInfo, none) => .ok ⟨pod.uid, resourceInfo.getD ⟨0, 0, 0, 0⟩, containerInfo⟩

/-- `GetDeletePodRequest`. -/
def getDeletePodRequest (pod : Pod) : DeletePodRequest := ⟨pod.uid⟩

/-! ### What the conversion should report -/

/-- The exact total of one figure over the containers: no bound, no wrap. -/
def exactTotal (figure : Container → Quantity) : List Container → Int
  | [] => 0
  | c :: cs => (figure c).asInt64.getD 0 + exactTotal figure cs

/-- The sums `sums` with the exact totals of the containers added. -/
def addTotals (sums : ResourceInfo) (cs : List Container) : ResourceInfo :=
  ⟨sums.requestedCpus + exactTotal (·.requests.cpu) cs, sums.limitCpus + exactTotal (·.limits.cpu) cs,
    sums.requestedMemory + exactTotal (·.requests.memory) cs, sums.limitMemory + exactTotal (·.limits.memory) cs⟩

/-- The pod's four exact totals. -/
def exactTotals (pod : Pod) : ResourceInfo := addTotals ⟨0, 0, 0, 0⟩ pod.containers

/-- Every figure lies in `[0, MaxInt32]`. -/
def InInt32 (r : ResourceInfo) : Prop :=
  0 ≤ r.requestedCpus ∧ r.requestedCpus ≤ maxInt32 ∧ 0 ≤ r.limitCpus ∧ r.limitCpus ≤ maxInt32 ∧
    0 ≤ r.requestedMemory ∧ r.requestedMemory ≤ maxInt32 ∧ 0 ≤ r.limitMemory ∧ r.limitMemory ≤ maxInt32

/-- A container's four figures, as its quantities give them. -/
def expectedResources (c : Container) : ResourceInfo :=
  ⟨c.requests.cpu.asInt64.getD 0, c.limits.cpu.asInt64.getD 0, c.requests.memory.asInt64.getD 0,
    c.limits.memory.asInt64.getD 0⟩

/-- The container info a container should give: its runtime id, its name, its four figures. -/
def expectedContainerInfo (pod : Pod) (c : Container) : ContainerInfo :=
  ⟨getContainerID c.name pod, c.name, expectedResources c⟩

/-! ### Proofs -/

theorem addInt32_of_le {a b : Int} (h0 : 0 ≤ a + b) (h : a + b ≤ maxInt32) : addInt32 a b = a + b := by
  simp only [addInt32, maxInt32, Int.bmod, Int.Nat.cast_ofNat_Int] at h ⊢
  split_ifs <;> omega

theorem addInt32_neg {a b : Int} (h0 : maxInt32 < a + b) (h : a + b < 2 * maxInt32 + 2) : addInt32 a b < 0 := by
  simp only [addInt32, maxInt32, Int.bmod, Int.Nat.cast_ofNat_Int] at h0 h ⊢
  split_ifs <;> omega

theorem quantityValue_ok {what : String} {q : Quantity} {v : Int} :
    quantityValue what q = .ok v ↔ q.asInt64 = some v ∧ 0 ≤ v ∧ v ≤ maxInt32 := by
  unfold quantityValue
  split
  next v' hv =>
    split_ifs with h
    · simp [hv]; omega
    · simp only [Except.ok.injEq, hv, Option.some.injEq]
      constructor
      · rintro rfl; omega
      · rintro ⟨rfl, -⟩; rfl
  next hv => simp [hv]

/-- An accepted resource list gives its two quantities' values, each in `[0, MaxInt32]`. -/
theorem getContainerResources_ok {rl : ResourceList} {r : Int × Int} (h : getContainerResources rl = .ok r) :
    rl.cpu.asInt64 = some r.1 ∧ 0 ≤ r.1 ∧ r.1 ≤ maxInt32 ∧ rl.memory.asInt64 = some r.2 ∧ 0 ≤ r.2 ∧ r.2 ≤ maxInt32 := by
  simp only [getContainerResources, bind, Except.bind, pure, Except.pure] at h
  split at h
  · cases h
  next cpus hc =>
    split at h
    · cases h
    next memory hm =>
      cases h
      exact ⟨(quantityValue_ok.1 hc).1, (quantityValue_ok.1 hc).2.1, (quantityValue_ok.1 hc).2.2,
        quantityValue_ok.1 hm⟩

/-- A container whose quantities are all accepted. -/
theorem getContainerInfo_of_accepted {c : Container} (hr : ∃ r, getContainerResources c.requests = .ok r)
    (hl : ∃ l, getContainerResources c.limits = .ok l) :
    getContainerInfo c = .ok ⟨"", c.name, expectedResources c⟩ ∧ InInt32 (expectedResources c) := by
  obtain ⟨⟨rc, rm⟩, hr⟩ := hr
  obtain ⟨⟨lc, lm⟩, hl⟩ := hl
  obtain ⟨h1, h2, h3, h4, h5, h6⟩ := getContainerResources_ok hr
  obtain ⟨g1, g2, g3, g4, g5, g6⟩ := getContainerResources_ok hl
  simp only [getContainerInfo, hr, hl, expectedResources, InInt32, h1, h4, g1, g4, Option.getD_some]
  exact ⟨trivial, h2, h3, g2, g3, h5, h6, g5, g6⟩

theorem addChecked_of_le {context : String} {sum x : Int} (h0 : 0 ≤ sum + x) (h : sum + x ≤ maxInt32) :
    addChecked context sum x = .ok (sum + x) := by
  rw [addChecked, addInt32_of_le h0 h, if_neg (by omega)]

theorem addChecked_of_gt {context : String} {sum x : Int} (h0 : maxInt32 < sum + x) (h : sum + x < 2 * maxInt32 + 2) :
    addChecked context sum x = .error (Sentinel.countingOverflow.toError.wrap context) := by
  rw [addChecked, if_pos (addInt32_neg h0 h)]

theorem addChecked_eq {context : String} {sum x : Int} (h1 : 0 ≤ sum) (h2 : sum ≤ maxInt32) (h3 : 0 ≤ x)
    (h4 : x ≤ maxInt32) : addChecked context sum x =
      if sum + x ≤ maxInt32 then .ok (sum + x) else .error (Sentinel.countingOverflow.toError.wrap context) := by
  split_ifs with h
  · exact addChecked_of_le (by omega) h
  · exact addChecked_of_gt (by omega) (by omega)

/-- One step of the loop: in-range figures added to in-range sums give the exact sums when all
four fit, and an overflow error otherwise. -/
theorem addResources_spec {sums r : ResourceInfo} (hs : InInt32 sums) (hr : InInt32 r) :
    (sums.requestedCpus + r.requestedCpus ≤ maxInt32 ∧ sums.limitCpus + r.limitCpus ≤ maxInt32 ∧
        sums.requestedMemory + r.requestedMemory ≤ maxInt32 ∧ sums.limitMemory + r.limitMemory ≤ maxInt32 →
      addResources sums r = .ok ⟨sums.requestedCpus + r.requestedCpus, sums.limitCpus + r.limitCpus,
        sums.requestedMemory + r.requestedMemory, sums.limitMemory + r.limitMemory⟩) ∧
    (¬(sums.requestedCpus + r.requestedCpus ≤ maxInt32 ∧ sums.limitCpus + r.limitCpus ≤ maxInt32 ∧
        sums.requestedMemory + r.requestedMemory ≤ maxInt32 ∧ sums.limitMemory + r.limitMemory ≤ maxInt32) →
      ∃ e, addResources sums r = .error e ∧ e.sentinel = .countingOverflow) := by
  obtain ⟨a1, a2, a3, a4, a5, a6, a7, a8⟩ := hs
  obtain ⟨b1, b2, b3, b4, b5, b6, b7, b8⟩ := hr
  simp only [addResources, addChecked_eq a1 a2 b1 b2, addChecked_eq a3 a4 b3 b4, addChecked_eq a5 a6 b5 b6,
    addChecked_eq a7 a8 b7 b8, bind, Except.bind, pure, Except.pure]
  refine ⟨fun ⟨h1, h2, h3, h4⟩ => by rw [if_pos h1, if_pos h2, if_pos h3, if_pos h4], fun hn => ?_⟩
  -- the first sum that does not fit returns its error
  by_cases h1 : sums.requestedCpus + r.requestedCpus ≤ maxInt32
  · by_cases h2 : sums.limitCpus + r.limitCpus ≤ maxInt32
    · by_cases h3 : sums.requestedMemory + r.requestedMemory ≤ maxInt32
      · rw [if_pos h1, if_pos h2, if_pos h3, if_neg fun h4 => hn ⟨h1, h2, h3, h4⟩]
        exact ⟨_, rfl, rfl⟩
      · rw [if_pos h1, if_pos h2, if_neg h3]
        exact ⟨_, rfl, rfl⟩
    · rw [if_pos h1, if_neg h2]
      exact ⟨_, rfl, rfl⟩
  · rw [if_neg h1]
    exact ⟨_, rfl, rfl⟩

/-- The four totals of containers whose quantities are all accepted are non-negative. -/
theorem exactTotals_nonneg : ∀ {cs : List Container},
    (∀ c ∈ cs, (∃ r, getContainerResources c.requests = .ok r) ∧ ∃ l, getContainerResources c.limits = .ok l) →
    0 ≤ exactTotal (·.requests.cpu) cs ∧ 0 ≤ exactTotal (·.limits.cpu) cs ∧
      0 ≤ exactTotal (·.requests.memory) cs ∧ 0 ≤ exactTotal (·.limits.memory) cs
  | [], _ => ⟨le_rfl, le_rfl, le_rfl, le_rfl⟩
  | c :: _, h => by
    obtain ⟨-, a1, -, a3, -, a5, -, a7, -⟩ :=
      getContainerInfo_of_accepted (h c (List.mem_cons_self _ _)).1 (h c (List.mem_cons_self _ _)).2
    have := exactTotals_nonneg fun c' hc' => h c' (List.mem_cons_of_mem _ hc')
    simp only [exactTotal, expectedResources] at a1 a3 a5 a7 ⊢
    omega

/-- The loop over containers whose quantities are all accepted, from in-range sums: the exact
totals and every container's info when the totals fit, an overflow error otherwise. -/
theorem createPodResourcesLoop_spec (pod : Pod) : ∀ (cs : List Container) (acc : List ContainerInfo) (sums : ResourceInfo),
    (∀ c ∈ cs, (∃ r, getContainerResources c.requests = .ok r) ∧ ∃ l, getContainerResources c.limits = .ok l) →
    InInt32 sums →
    (InInt32 (addTotals sums cs) →
      createPodResourcesLoop pod cs acc sums = (acc ++ cs.map (expectedContainerInfo pod), some (addTotals sums cs), none)) ∧
    (¬InInt32 (addTotals sums cs) →
      ∃ e, (createPodResourcesLoop pod cs acc sums).2.2 = some e ∧ e.sentinel = .countingOverflow)
  | [], acc, sums, _, hs => by
    have e : addTotals sums [] = sums := by simp only [addTotals, exactTotal, Int.add_zero]
    rw [e]
    exact ⟨fun _ => by rw [createPodResourcesLoop, List.map_nil, List.append_nil], fun h => absurd hs h⟩
  | c :: cs, acc, sums, hacc, hs => by
    obtain ⟨hc, hr⟩ := getContainerInfo_of_accepted (hacc c (List.mem_cons_self _ _)).1 (hacc c (List.mem_cons_self _ _)).2
    have hrest : ∀ c' ∈ cs, _ := fun c' hc' => hacc c' (List.mem_cons_of_mem _ hc')
    obtain ⟨t1, t2, t3, t4⟩ := exactTotals_nonneg hrest
    obtain ⟨hok, herr⟩ := addResources_spec hs hr
    obtain ⟨a1, a2, a3, a4, a5, a6, a7, a8⟩ := hs
    obtain ⟨b1, b2, b3, b4, b5, b6, b7, b8⟩ := hr
    simp only [addTotals, InInt32, exactTotal, expectedResources] at hc hok herr b1 b2 b3 b4 b5 b6 b7 b8 ⊢
    simp only [createPodResourcesLoop, hc]
    by_cases hfit : sums.requestedCpus + c.requests.cpu.asInt64.getD 0 ≤ maxInt32 ∧
        sums.limitCpus + c.limits.cpu.asInt64.getD 0 ≤ maxInt32 ∧
        sums.requestedMemory + c.requests.memory.asInt64.getD 0 ≤ maxInt32 ∧
        sums.limitMemory + c.limits.memory.asInt64.getD 0 ≤ maxInt32
    · rw [hok hfit]
      obtain ⟨ih1, ih2⟩ := createPodResourcesLoop_spec pod cs (acc ++ [expectedContainerInfo pod c])
        ⟨sums.requestedCpus + c.requests.cpu.asInt64.getD 0, sums.limitCpus + c.limits.cpu.asInt64.getD 0,
          sums.requestedMemory + c.requests.memory.asInt64.getD 0, sums.limitMemory + c.limits.memory.asInt64.getD 0⟩
        hrest (by simp only [InInt32]; omega)
      simp only [addTotals, InInt32, Int.add_assoc] at ih1 ih2
      exact ⟨fun h => (ih1 h).trans (by simp), ih2⟩
    · obtain ⟨e, he, hek⟩ := herr hfit
      rw [he]
      exact ⟨fun h => absurd (by omega) hfit, fun _ => ⟨e, rfl, hek⟩⟩

/-- **The pod totals.**  When every cpu and memory quantity of the pod's containers is accepted
(an integer in `[0, MaxInt32]`), `createPodResources` reports `ErrCountingOverflow` exactly when
one of the four exact totals exceeds `MaxInt32`; otherwise it succeeds with the four exact totals
and the info of every container. -/
theorem createPodResources_totals (pod : Pod)
    (hacc : ∀ c ∈ pod.containers, (∃ r, getContainerResources c.requests = .ok r) ∧
      ∃ l, getContainerResources c.limits = .ok l) :
    ((∃ e, (createPodResources pod).2.2 = some e ∧ e.sentinel = .countingOverflow) ↔
      maxInt32 < (exactTotals pod).requestedCpus ∨ maxInt32 < (exactTotals pod).limitCpus ∨
        maxInt32 < (exactTotals pod).requestedMemory ∨ maxInt32 < (exactTotals pod).limitMemory) ∧
    ((exactTotals pod).requestedCpus ≤ maxInt32 → (exactTotals pod).limitCpus ≤ maxInt32 →
      (exactTotals pod).requestedMemory ≤ maxInt32 → (exactTotals pod).limitMemory ≤ maxInt32 →
      createPodResources pod = (pod.containers.map (expectedContainerInfo pod), some (exactTotals pod), none)) := by
  have hz : InInt32 ⟨0, 0, 0, 0⟩ := by simp [InInt32, maxInt32]
  obtain ⟨h1, h2⟩ := createPodResourcesLoop_spec pod pod.containers [] _ hacc hz
  obtain ⟨t1, t2, t3, t4⟩ := exactTotals_nonneg hacc
  simp only [createPodResources, exactTotals, addTotals, InInt32, Int.zero_add, List.nil_append] at h1 h2 ⊢
  refine ⟨⟨fun ⟨e, he, hek⟩ => ?_, fun h => h2 (by omega)⟩, fun g1 g2 g3 g4 => h1 ⟨t1, g1, t2, g2, t3, g3, t4, g4⟩⟩
  by_contra hno
  rw [h1 (by omega)] at he
  cases he

/-- A container asking for `MaxInt32` cpus and no memory. -/
def maxCpuContainer (name : String) : Container :=
  ⟨name, ⟨⟨"2147483647", some 2147483647⟩, ⟨"0", some 0⟩⟩, ⟨⟨"2147483647", some 2147483647⟩, ⟨"0", some 0⟩⟩⟩

/-- Two such containers: the pod's cpus overflow `int32`. -/
def overflowPod : Pod := ⟨"123", "mypod", "default", [maxCpuContainer "a", maxCpuContainer "b"], []⟩

theorem createPodResources_totals_overflowPod :
    (∀ c ∈ overflowPod.containers, (∃ r, getContainerResources c.requests = .ok r) ∧
      ∃ l, getContainerResources c.limits = .ok l) ∧
    ((∃ e, (createPodResources overflowPod).2.2 = some e ∧ e.sentinel = .countingOverflow) ↔
      maxInt32 < (exactTotals overflowPod).requestedCpus ∨ maxInt32 < (exactTotals overflowPod).limitCpus ∨
        maxInt32 < (exactTotals overflowPod).requestedMemory ∨ maxInt32 < (exactTotals overflowPod).limitMemory) ∧
    ((exactTotals overflowPod).requestedCpus ≤ maxInt32 → (exactTotals overflowPod).limitCpus ≤ maxInt32 →
      (exactTotals overflowPod).requestedMemory ≤ maxInt32 → (exactTotals overflowPod).limitMemory ≤ maxInt32 →
      createPodResources overflowPod =
        (overflowPod.containers.map (expectedContainerInfo overflowPod), some (exactTotals overflowPod), none)) :=
  have hacc : ∀ c ∈ overflowPod.containers, (∃ r, getContainerResources c.requests = .ok r) ∧
      ∃ l, getContainerResources c.limits = .ok l := by
    intro c hc
    simp only [overflowPod, List.mem_cons, List.mem_singleton, List.not_mem_nil, or_false] at hc
    rcases hc with rfl | rfl <;> exact ⟨⟨_, rfl⟩, _, rfl⟩
  ⟨hacc, createPodResources_totals overflowPod hacc⟩

end Agent

end CpuControlPlane
