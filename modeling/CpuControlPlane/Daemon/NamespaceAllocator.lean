import CpuControlPlane.Daemon.Allocators

/-! # The per-namespace allocator

`NumaPerNamespaceAllocator` splits the leaves, in `GetLeafs` order, into `numBuckets` buckets and
gives each namespace a bucket, round robin, when its first container arrives (`newNamespace`).
`bucketToNumContainers` counts the containers taken in a bucket; a free that brings the count to
zero forgets the namespace (`freeNamespace`).

- a Guaranteed container takes the first available leaves of its bucket, marking each leaf
  taken with the leaf-level `TopologyNode.take`; any other container is pinned to every leaf of
  the bucket (in exclusive mode only to the available ones);
- `freeCpus` returns every cpu of the container's list with `NumaTopology.returnCpu`;
- in exclusive mode a Guaranteed take removes its cpus from the other containers of the
  namespace (`removeCpusFromCommonPool`) and a Guaranteed free gives them back
  (`addCpusToCommonPool`); the containers are found among the pods by id (`findContainer`).

Go iterates over `Allocated` and over the pods in map order; the model visits the entries in
their list order, one of the orders a run can take. -/

namespace CpuControlPlane

open TopologyNode

/-- The settings of a `NumaPerNamespaceAllocator`; its maps live in `Daemon.buckets`.  A positive
bucket count is carried by the value: with none the Go code divides by zero. -/
structure NumaPerNamespaceAllocator where
  numBuckets : Int
  exclusive : Bool
  memoryPinning : Bool
  numBuckets_pos : 0 < numBuckets

namespace NumaPerNamespaceAllocator

variable (a : NumaPerNamespaceAllocator)

/-- `getBucket`: the leaf positions of the namespace's bucket; the last bucket takes the rest. -/
def getBucket (s : DaemonState) (b : NamespaceBuckets) (ns : String) : Except String (List (List Nat)) :=
  let leafs := s.topology.topology.getLeafs
  let bucketSize : Int := leafs.length / a.numBuckets
  match b.namespaceToBucket.lookup ns with
  | none => .error "namespace cpu bucket not found"
  | some namespaceBucket =>
    if namespaceBucket = a.numBuckets - 1 then .ok (leafs.drop (bucketSize * namespaceBucket).toNat)
    else .ok ((leafs.take (bucketSize * (namespaceBucket + 1)).toNat).drop (bucketSize * namespaceBucket).toNat)

/-- The first loop of `takeGuaranteedCpusFromBucket`: available leaves counted, stopping once
`cpus` are found. -/
def countAvailable (t : TopologyNode) (cpus : Int) : List (List Nat) → Int → Int
  | [], n => n
  | p :: bucket, n =>
    if t.availableAt p then (if n + 1 = cpus then n + 1 else countAvailable t cpus bucket (n + 1))
    else countAvailable t cpus bucket n

/-- The second loop of `takeGuaranteedCpusFromBucket`: each available leaf is taken in turn until
`cpus` were taken; a `Take` that fails stops the loop. -/
def takeAvailable (cpus : Int) : List (List Nat) → List Int → TopologyNode →
    List Int × Option TopologyError × TopologyNode
  | [], ids, t => (ids, none, t)
  | p :: bucket, ids, t =>
    if t.availableAt p then
      let ids := ids ++ [t.valueAt p]
      match (t.get? p).map TopologyNode.take with
      | some (some err, _) => (ids, some err, t)
      | _ =>
        let t := t.modify p fun l => l.take.2
        if (ids.length : Int) = cpus then (ids, none, t) else takeAvailable cpus bucket ids t
    else takeAvailable cpus bucket ids t

/-- `takeGuaranteedCpusFromBucket`: fail when fewer than `cpus` leaves are available, otherwise
take the first `cpus` available ones. -/
def takeGuaranteedCpusFromBucket (t : TopologyNode) (bucket : List (List Nat)) (c : Container) :
    Except String (List Int) × TopologyNode :=
  let numAvailable := countAvailable t c.cpus bucket 0
  if numAvailable < c.cpus then
    (.error ("not enough free cpus in namespace bucket: cannot allocate " ++ toString c.cpus ++
      " cpus, only " ++ toString numAvailable ++ " processors available in bucket"), t)
  else
    match takeAvailable c.cpus bucket [] t with
    | (_, some err, t') => (.error err.message, t')
    | (ids, none, t') => (.ok ids, t')

/-- `takeAllCpusFromBucket`: every leaf of the bucket, in exclusive mode only the available ones. -/
def takeAllCpusFromBucket (t : TopologyNode) (bucket : List (List Nat)) : List Int :=
  (bucket.filter fun p => !a.exclusive || t.availableAt p).map t.valueAt

/-- `newNamespace`: the next bucket, round robin. -/
def newNamespace (b : NamespaceBuckets) (ns : String) : NamespaceBuckets :=
  { b with
    namespaceToBucket := b.namespaceToBucket.insert ns (b.globalBucket % a.numBuckets)
    globalBucket := b.globalBucket + 1 }

/-- `freeNamespace`: forget the namespace and its bucket's count, unless the count is positive. -/
def freeNamespace (b : NamespaceBuckets) (ns : String) : Option String × NamespaceBuckets :=
  let namespaceBucket := lookupD b.namespaceToBucket ns 0
  if lookupD b.bucketToNumContainers namespaceBucket 0 > 0 then (some "namespace", b)
  else (none, { b with
    bucketToNumContainers := b.bucketToNumContainers.erase namespaceBucket
    namespaceToBucket := b.namespaceToBucket.erase ns })

/-- `findContainer`: the first container with this id, pod after pod. -/
def findContainer (s : DaemonState) (cid : String) : Option Container :=
  (s.pods.entries.flatMap fun e => e.2.containers).find? fun c => c.cid = cid

/-- The loop of `removeCpusFromCommonPool` and `addCpusToCommonPool` over the entries of
`Allocated`: each non-Guaranteed container of the namespace is re-pinned to `change` of its cpus,
stopping at the first failed write. -/
def repinLoop (change : CPUSet → CPUSet) (env : Env) (ns : String) :
    List (Sigma fun _ : String => List CPUBucket) → Daemon → Option Error × Daemon
  | [], d => (none, d)
  | ⟨cid, allocatedList⟩ :: rest, d =>
    match findContainer d.state cid with
    | none => repinLoop change env ns rest d
    | some c =>
      if (lookupD d.state.pods c.pid .zero).podNamespace ≠ ns ∨ c.qs = .guaranteed then
        repinLoop change env ns rest d
      else
        let newCPUs := change (cpuSetFromBucketList allocatedList)
        match d.updateCPUSet env c newCPUs.toCpuString
            (getMemoryPinningIfEnabledFromCpuSet a.memoryPinning d.state.topology newCPUs) with
        | (some err, d') => (some err, d')
        | (none, d') =>
          repinLoop change env ns rest
            (d'.setState { d'.state with allocated := d'.state.allocated.insert cid newCPUs.toBucketList })

/-- `removeCpusFromCommonPool`. -/
def removeCpusFromCommonPool (env : Env) (ns : String) (cpus : CPUSet) (d : Daemon) : Option Error × Daemon :=
  a.repinLoop (fun c => c.removeAll cpus) env ns d.state.allocated.entries d

/-- `addCpusToCommonPool`. -/
def addCpusToCommonPool (env : Env) (ns : String) (cpus : CPUSet) (d : Daemon) : Option Error × Daemon :=
  a.repinLoop (fun c => c.merge cpus) env ns d.state.allocated.entries d

/-- `takeCpus`. -/
def takeCpus (env : Env) (c : Container) (d : Daemon) : Option Error × Daemon :=
  if c.qs = .guaranteed ∧ c.cpus = 0 then
    (some (.daemon ⟨.notImplemented, "number of guaranteed container cpus shall be greater than 0"⟩), d) else
  match d.state.pods.lookup c.pid with
  | none => (some (.daemon ⟨.podNotFound, "cannot retrieve pod " ++ c.pid ++ " metadata"⟩), d)
  | some podMetadata =>
    let ns := podMetadata.podNamespace
    let d := if ns ∈ d.buckets.namespaceToBucket then d else { d with buckets := a.newNamespace d.buckets ns }
    match a.getBucket d.state d.buckets ns with
    | .error err => (some (.daemon ⟨.cpusNotAvailable, err⟩), d)
    | .ok bucket =>
      let namespaceBucket := lookupD d.buckets.namespaceToBucket ns 0
      let d := { d with buckets := { d.buckets with
        bucketToNumContainers := d.buckets.bucketToNumContainers.insert namespaceBucket
          (lookupD d.buckets.bucketToNumContainers namespaceBucket 0 + 1) } }
      let (r, t) := if c.qs = .guaranteed then takeGuaranteedCpusFromBucket d.state.topology.topology bucket c
        else (.ok (a.takeAllCpusFromBucket d.state.topology.topology bucket), d.state.topology.topology)
      let d := d.setState { d.state with topology := { d.state.topology with topology := t } }
      match r with
      | .error err => (some (.daemon ⟨.cpusNotAvailable, err⟩), d)
      | .ok cpuIds =>
        let allocatedList : List CPUBucket := cpuIds.map fun cpu => ⟨cpu, cpu⟩
        let d := d.setState { d.state with allocated := d.state.allocated.insert c.cid allocatedList }
        match d.updateCPUSet env c (String.intercalate "," (cpuIds.map toString))
            (getMemoryPinningIfEnabled a.memoryPinning d.state.topology cpuIds) with
        | (some err, d) => (some err, d)
        | (none, d) =>
          if a.exclusive ∧ c.qs = .guaranteed then
            a.removeCpusFromCommonPool env ns (cpuSetFromBucketList allocatedList) d
          else (none, d)

/-- `freeCpus`. -/
def freeCpus (env : Env) (c : Container) (d : Daemon) : Option Error × Daemon :=
  match d.state.allocated.lookup c.cid with
  | none => (some (containerNotFound c.cid), d)
  | some v =>
    let d := d.setState { d.state with allocated := d.state.allocated.erase c.cid }
    match d.state.pods.lookup c.pid with
    | none => (some (.daemon ⟨.podNotFound, "cannot retrieve pod " ++ c.pid ++ " metadata"⟩), d)
    | some podMetadata =>
      let ns := podMetadata.podNamespace
      let namespaceBucket := lookupD d.buckets.namespaceToBucket ns 0
      let count := lookupD d.buckets.bucketToNumContainers namespaceBucket 0 - 1
      let d := { d with buckets := { d.buckets with
        bucketToNumContainers := d.buckets.bucketToNumContainers.insert namespaceBucket count } }
      let (err, b) := if count = 0 then freeNamespace d.buckets ns else (none, d.buckets)
      let d := { d with buckets := b }
      match err with
      | some err => (some (.daemon ⟨.runtimeError, err⟩), d)
      | none =>
        match d.state.topology.returnCpus (v.flatMap CPUBucket.cpus) with
        | (some err, nt) => (some (.daemon ⟨.cpusNotAvailable, err.message⟩), d.setState { d.state with topology := nt })
        | (none, nt) =>
          let d := d.setState { d.state with topology := nt }
          if a.exclusive ∧ c.qs = .guaranteed then a.addCpusToCommonPool env ns (cpuSetFromBucketList v) d
          else (none, d)

/-- `clearCpus`: the cgroup widened to every leaf. -/
def clearCpus (env : Env) (c : Container) (d : Daemon) : Option Error × Daemon :=
  let cpuSet := allLeafCpus d.state.topology.topology
  d.updateCPUSet env c cpuSet.toCpuString
    (getMemoryPinningIfEnabledFromCpuSet a.memoryPinning d.state.topology cpuSet)

/-! ### What each step reads and changes -/

/-- `takeAvailable` changes counters only, and every id it collects is that of a position of the
bucket. -/
theorem takeAvailable_spec (cpus : Int) : ∀ (bucket : List (List Nat)) (ids : List Int) (t : TopologyNode),
    (takeAvailable cpus bucket ids t).2.2.skeleton = t.skeleton ∧
      ∀ x ∈ (takeAvailable cpus bucket ids t).1, x ∈ ids ∨ x ∈ bucket.map t.valueAt
  | [], ids, t => by simp [takeAvailable]
  | p :: bucket, ids, t => by
    have hs : (t.modify p fun l => l.take.2).skeleton = t.skeleton := skeleton_modify skeleton_take t p
    obtain ⟨ih1, ih2⟩ := takeAvailable_spec cpus bucket (ids ++ [t.valueAt p]) (t.modify p fun l => l.take.2)
    obtain ⟨jh1, jh2⟩ := takeAvailable_spec cpus bucket ids t
    rw [funext (valueAt_of_skeleton hs)] at ih2
    have hcur : ∀ x ∈ ids ++ [t.valueAt p], x ∈ ids ∨ x ∈ (p :: bucket).map t.valueAt := fun x hx => by
      rcases List.mem_append.1 hx with hx | hx
      · exact .inl hx
      · exact .inr (by simp [List.mem_singleton.1 hx])
    simp only [takeAvailable]
    split_ifs
    · split
      · exact ⟨rfl, hcur⟩
      · exact ⟨hs, hcur⟩
    · split
      · exact ⟨rfl, hcur⟩
      · exact ⟨ih1.trans hs, fun x hx => (ih2 x hx).elim (hcur x) fun h => .inr (List.mem_cons_of_mem _ h)⟩
    · exact ⟨jh1, fun x hx => (jh2 x hx).imp_right (List.mem_cons_of_mem _)⟩

/-- `takeGuaranteedCpusFromBucket` changes counters only and takes ids of the bucket. -/
theorem takeGuaranteedCpusFromBucket_spec (t : TopologyNode) (bucket : List (List Nat)) (c : Container) :
    (takeGuaranteedCpusFromBucket t bucket c).2.skeleton = t.skeleton ∧
      ∀ ids, (takeGuaranteedCpusFromBucket t bucket c).1 = .ok ids → ∀ x ∈ ids, x ∈ bucket.map t.valueAt := by
  obtain ⟨h1, h2⟩ := takeAvailable_spec c.cpus bucket [] t
  simp only [takeGuaranteedCpusFromBucket]
  split_ifs
  · simp
  · split
    next he => rw [he] at h1; exact ⟨h1, by simp⟩
    next ids t' he =>
      rw [he] at h1 h2
      exact ⟨h1, fun _ hids x hx => by cases hids; simpa using h2 x hx⟩

theorem takeAllCpusFromBucket_sub (t : TopologyNode) (bucket : List (List Nat)) :
    ∀ x ∈ a.takeAllCpusFromBucket t bucket, x ∈ bucket.map t.valueAt := by
  intro x hx
  simp only [takeAllCpusFromBucket, List.mem_map, List.mem_filter] at hx ⊢
  obtain ⟨p, ⟨hp, -⟩, rfl⟩ := hx
  exact ⟨p, hp, rfl⟩

/-- A Guaranteed take in a namespace that has its bucket, finding too few available cpus there,
fails with `CpusNotAvailable` and yet counts one more container in the bucket. -/
theorem takeCpus_of_notEnough (env : Env) {c : Container} {d : Daemon} {pm : PodMetadata}
    {bucket : List (List Nat)} (hq : c.qs = .guaranteed) (hc : c.cpus ≠ 0)
    (hpod : d.state.pods.lookup c.pid = some pm) (hns : pm.podNamespace ∈ d.buckets.namespaceToBucket)
    (hb : a.getBucket d.state d.buckets pm.podNamespace = .ok bucket)
    (hfew : countAvailable d.state.topology.topology c.cpus bucket 0 < c.cpus) :
    ∃ msg, a.takeCpus env c d = (some (.daemon ⟨.cpusNotAvailable, msg⟩),
      { d with buckets := { d.buckets with bucketToNumContainers := (d.buckets.bucketToNumContainers.insert
          (lookupD d.buckets.namespaceToBucket pm.podNamespace 0)
          (lookupD d.buckets.bucketToNumContainers (lookupD d.buckets.namespaceToBucket pm.podNamespace 0) 0 + 1)) } }) := by
  simp [takeCpus, hq, hc, hpod, hns, hb, takeGuaranteedCpusFromBucket, hfew, Daemon.setState]

theorem findContainer_some {s : DaemonState} {cid : String} {c : Container} (h : findContainer s cid = some c) :
    c.cid = cid ∧ ∃ e ∈ s.pods.entries, c ∈ e.2.containers := by
  have hmem := List.mem_of_find?_eq_some h
  simp only [List.mem_flatMap] at hmem
  exact ⟨by simpa using List.find?_some h, hmem⟩

/-- The re-pinning loop changes only `Allocated`. -/
theorem repinLoop_frame (change : CPUSet → CPUSet) (env : Env) (ns : String) :
    ∀ (l : List (Sigma fun _ : String => List CPUBucket)) (d : Daemon),
      ∃ m, (a.repinLoop change env ns l d).2.state = { d.state with allocated := m } ∧
        (a.repinLoop change env ns l d).2.buckets = d.buckets
  | [], d => ⟨d.state.allocated, rfl, rfl⟩
  | ⟨cid, v⟩ :: rest, d => by
    simp only [repinLoop]
    split
    · exact repinLoop_frame change env ns rest d
    · split_ifs
      · exact repinLoop_frame change env ns rest d
      · split
        next err d' he =>
          obtain ⟨h1, h2⟩ := Daemon.updateCPUSet_eq he
          exact ⟨d.state.allocated, by rw [h1], h2⟩
        next d' he =>
          obtain ⟨h1, h2⟩ := Daemon.updateCPUSet_eq he
          obtain ⟨m, hm1, hm2⟩ := repinLoop_frame change env ns rest
            (d'.setState { d'.state with allocated := d'.state.allocated.insert cid (change (cpuSetFromBucketList v)).toBucketList })
          exact ⟨m, by rw [hm1, Daemon.setState_state, h1], by rw [hm2, Daemon.setState_buckets, h2]⟩

theorem repinLoop_pods (change : CPUSet → CPUSet) (env : Env) (ns : String)
    (l : List (Sigma fun _ : String => List CPUBucket)) (d : Daemon) :
    (a.repinLoop change env ns l d).2.state.pods = d.state.pods := by
  obtain ⟨m, hm, -⟩ := a.repinLoop_frame change env ns l d
  rw [hm]

theorem removeCpusFromCommonPool_pods (env : Env) (ns : String) (cpus : CPUSet) (d : Daemon) :
    (a.removeCpusFromCommonPool env ns cpus d).2.state.pods = d.state.pods :=
  a.repinLoop_pods _ env ns _ d

theorem addCpusToCommonPool_pods (env : Env) (ns : String) (cpus : CPUSet) (d : Daemon) :
    (a.addCpusToCommonPool env ns cpus d).2.state.pods = d.state.pods :=
  a.repinLoop_pods _ env ns _ d

theorem takeCpus_pods (env : Env) (c : Container) (d : Daemon) : (a.takeCpus env c d).2.state.pods = d.state.pods := by
  simp only [takeCpus]
  split
  · rfl
  split
  · rfl
  next pm _ =>
  generalize hd1 : (if pm.podNamespace ∈ d.buckets.namespaceToBucket then d
    else { d with buckets := a.newNamespace d.buckets pm.podNamespace }) = d1
  have hs : d1.state = d.state := by rw [← hd1]; split_ifs <;> rfl
  rw [← hs]
  repeat' split
  all_goals first
    | rfl
    | obtain ⟨h1, -⟩ := Daemon.updateCPUSet_eq ‹_›
      first
        | exact (congrArg DaemonState.pods h1 :)
        | exact (a.removeCpusFromCommonPool_pods env _ _ _).trans (congrArg DaemonState.pods h1 :)

theorem freeCpus_pods (env : Env) (c : Container) (d : Daemon) : (a.freeCpus env c d).2.state.pods = d.state.pods := by
  simp only [freeCpus]
  repeat' split
  all_goals first
    | rfl
    | exact a.addCpusToCommonPool_pods env _ _ _

/-! ### Buckets in topology order -/

/-- A bucket is a run of consecutive positions of `GetLeafs`. -/
theorem getBucket_infix {s : DaemonState} {b : NamespaceBuckets} {ns : String} {bucket : List (List Nat)}
    (h : a.getBucket s b ns = .ok bucket) : bucket <:+: s.topology.topology.getLeafs := by
  simp only [getBucket] at h
  split at h
  · cases h
  · split_ifs at h <;> cases h
    · exact (List.drop_suffix _ _).isInfix
    · exact (List.drop_suffix _ _).isInfix.trans (List.take_prefix _ _).isInfix

/-- **Buckets are runs of the topology order.**  Every loaded tree has all its leaves at the depth
of the levels used.  On every tree whose leaves all lie at one depth, `GetLeafs` returns each leaf
exactly once, in depth-first child order; so every bucket is a run of consecutive leaves in that
order, and the cpu ids it reads are consecutive leaf ids in that order. -/
theorem getLeafs_topologyOrder (t : TopologyNode) (D : Nat)
    (hD : ∀ p u, t.get? p = some u → u.isLeaf → p.length = D) :
    (∀ (cpus : List CpuInfo) p u, (NumaTopology.loadFromCpuInfo cpus).topology.get? p = some u → u.isLeaf →
      p.length = (getUsedTopoTypes cpus).length) ∧
    t.getLeafs = t.leafPositions ∧ t.getLeafs.Nodup ∧ (∀ p, p ∈ t.getLeafs ↔ ∃ l, t.get? p = some l ∧ l.isLeaf) ∧
    t.getLeafs.map t.valueAt = t.leaves.map value ∧
    ∀ (al : NumaPerNamespaceAllocator) (s : DaemonState) (b : NamespaceBuckets) (ns : String) (bucket : List (List Nat)),
      s.topology.topology = t → al.getBucket s b ns = .ok bucket →
      bucket <:+: t.leafPositions ∧ bucket.map t.valueAt <:+: t.leaves.map value := by
  have hg := getLeafs_of_uniform (uniform_of_depth D hD)
  refine ⟨fun cpus p u hp hu => depth_of_uniform (loadFromCpuInfo_uniform cpus) hp hu, hg,
    hg ▸ nodup_leafPositionsWhere _ t, fun p => ?_, by rw [hg, map_valueAt_leafPositions],
    fun al s b ns bucket hs hb => ?_⟩
  · rw [hg, leafPositions, mem_leafPositionsWhere]
    simp [isLeaf]
  · have hin := al.getBucket_infix hb
    rw [hs, hg] at hin
    exact ⟨hin, map_valueAt_leafPositions t ▸ hin.map _⟩

/-- The tree loaded from two cpus of one core, one level deep. -/
theorem getLeafs_topologyOrder_twoCpus :
    (∀ p u, (NumaTopology.loadFromCpuInfo twoCpuInfos).topology.get? p = some u → u.isLeaf → p.length = 1) ∧
    (∀ (cpus : List CpuInfo) p u, (NumaTopology.loadFromCpuInfo cpus).topology.get? p = some u → u.isLeaf →
      p.length = (getUsedTopoTypes cpus).length) ∧
    (NumaTopology.loadFromCpuInfo twoCpuInfos).topology.getLeafs = (NumaTopology.loadFromCpuInfo twoCpuInfos).topology.leafPositions ∧
    (NumaTopology.loadFromCpuInfo twoCpuInfos).topology.getLeafs.Nodup ∧
    (∀ p, p ∈ (NumaTopology.loadFromCpuInfo twoCpuInfos).topology.getLeafs ↔
      ∃ l, (NumaTopology.loadFromCpuInfo twoCpuInfos).topology.get? p = some l ∧ l.isLeaf) ∧
    (NumaTopology.loadFromCpuInfo twoCpuInfos).topology.getLeafs.map (NumaTopology.loadFromCpuInfo twoCpuInfos).topology.valueAt =
      (NumaTopology.loadFromCpuInfo twoCpuInfos).topology.leaves.map value ∧
    ∀ (al : NumaPerNamespaceAllocator) (s : DaemonState) (b : NamespaceBuckets) (ns : String) (bucket : List (List Nat)),
      s.topology.topology = (NumaTopology.loadFromCpuInfo twoCpuInfos).topology → al.getBucket s b ns = .ok bucket →
      bucket <:+: (NumaTopology.loadFromCpuInfo twoCpuInfos).topology.leafPositions ∧
        bucket.map (NumaTopology.loadFromCpuInfo twoCpuInfos).topology.valueAt <:+:
          (NumaTopology.loadFromCpuInfo twoCpuInfos).topology.leaves.map value :=
  have hD : ∀ p u, (NumaTopology.loadFromCpuInfo twoCpuInfos).topology.get? p = some u → u.isLeaf → p.length = 1 :=
    fun _ _ hp hu => depth_of_uniform (loadFromCpuInfo_uniform twoCpuInfos) hp hu
  ⟨hD, getLeafs_topologyOrder _ 1 hD⟩

end NumaPerNamespaceAllocator

end CpuControlPlane
