import CpuControlPlane.Daemon.CpuSetText
import CpuControlPlane.Topology.Load

/-! # Reading the machine from sysfs

`NumaTopology.Load` (numa.go, discover.go, dirutils.go) reads the topology the kernel exposes
under `/sys/devices/system/node`: the entries `nodeN` of the topology directory, in each the
entries `cpuM`, and in each cpu's `topology` directory the files `package_id`, `die_id` and
`core_id`.  An entry counts when its name is the prefix followed by a number `strconv.Atoi` reads
(`getNameWithPrefixAndNumber`), so `possible`, `online`, `cpulist` and `cpumap` are skipped; a
file that cannot be read or parsed counts as `0`.  The cpus of the nodes, node after node, are
then loaded with `LoadFromCpuInfo`.

The file system is `SysFs`: the entry names of each directory and the text of each file, by the
list of names below the topology path, which is what `path.Join` builds from names without a
separator.  `SysFs.ofCpus` is the sysfs of a machine, each number written in decimal on a line.

- `load_ofCpus`: on the sysfs of a machine whose (node, cpu) pairs are distinct and whose ids lie
  in `[0, MaxInt]`, `Load` loads the topology of the machine's cpus, regrouped node by node. -/

namespace CpuControlPlane

/-! ### Executable definitions -/

/-- The part of sysfs the discovery reads, by path below the topology path: the entry names of a
directory (`os.Open` and `Readdirnames(0)`), and the text of a file (`ReadFileAt`, whose check
that the file lies inside its directory is part of the result), or the error text. -/
structure SysFs where
  readdirnames : List String → Except String (List String)
  readFile : List String → Except String String

/-- `nodePrefix`. -/
def nodePrefix : String := "node"

/-- `cpuPrefix`. -/
def cpuPrefix : String := "cpu"

/-- `topologyDir`. -/
def topologyDir : String := "topology"

/-- `packageFile`. -/
def packageFile : String := "package_id"

/-- `dieFile`. -/
def dieFile : String := "die_id"

/-- `coreFile`. -/
def coreFile : String := "core_id"

/-- `ErrLoadError`. -/
def errLoadError : String := "cannot read topology information"

/-- `getNameWithPrefixAndNumber`: `(true, X)` for a name `prefixX` whose `X` `Atoi` reads. -/
def getNameWithPrefixAndNumber (name pre : String) : Bool × Int :=
  if hasPrefix name pre then
    match atoi (name.toList.drop pre.length) with
    | .error _ => (false, 0)
    | .ok nodeID => (true, nodeID)
  else (false, 0)

/-- `getEntriesWithPrefixAndNumber`: the numbers of the entries named `prefix[number]`, in the
order the directory lists them. -/
def getEntriesWithPrefixAndNumber (fs : SysFs) (path : List String) (pre : String) : Except String (List Int) :=
  match fs.readdirnames path with
  | .error err => .error err
  | .ok dirContents => .ok (dirContents.filterMap fun directory =>
    match getNameWithPrefixAndNumber directory pre with
    | (true, nodeID) => some nodeID
    | (false, _) => none)

/-- `loadNodes`. -/
def loadNodes (fs : SysFs) : Except String (List Int) := getEntriesWithPrefixAndNumber fs [] nodePrefix

/-- `getNodeDirPath`. -/
def getNodeDirPath (node : Int) : List String := [nodePrefix ++ toString node]

/-- `getCPUDirPath`. -/
def getCPUDirPath (node cpu : Int) : List String := getNodeDirPath node ++ [cpuPrefix ++ toString cpu]

/-- Why `readIntFromFile` failed: the file could not be read, or `Atoi` rejected its text. -/
inductive ReadIntError where
  | read (err : String)
  | parse (err : NumError)

/-- `readIntFromFile`: the number a file holds, white space trimmed. -/
def readIntFromFile (fs : SysFs) (basePath : List String) (filename : String) : Except ReadIntError Int :=
  match fs.readFile (basePath ++ [filename]) with
  | .error err => .error (.read err)
  | .ok data =>
    match atoi (trim isSpace data.toList) with
    | .error err => .error (.parse err)
    | .ok n => .ok n

/-- `listCpusFromNode`: a cpu whose topology file cannot be read or parsed gets `0` there. -/
def listCpusFromNode (fs : SysFs) (node : Int) : Except String (List CpuInfo) :=
  match getEntriesWithPrefixAndNumber fs (getNodeDirPath node) cpuPrefix with
  | .error err => .error err
  | .ok cpuIDs => .ok (cpuIDs.map fun cpu =>
    let cpuTopologyBase := getCPUDirPath node cpu ++ [topologyDir]
    let readOrDefault := fun fileName =>
      match readIntFromFile fs cpuTopologyBase fileName with
      | .ok data => data
      | .error _ => 0
    ⟨cpu, node, readOrDefault packageFile, readOrDefault dieFile, readOrDefault coreFile⟩)

/-- The loop of `Load`: the cpus of each node in turn, up to the first node whose cpus cannot be
listed. -/
def loadCpuInfos (fs : SysFs) : List Int → Except String (List CpuInfo)
  | [] => .ok []
  | node :: nodes =>
    match listCpusFromNode fs node with
    | .error err => .error s!"{errLoadError}: cannot load cpus information for node {node}, {err}"
    | .ok nodeCpus => (loadCpuInfos fs nodes).map (nodeCpus ++ ·)

/-- `NumaTopology.Load`. -/
def NumaTopology.load (fs : SysFs) : Except String NumaTopology :=
  match loadNodes fs with
  | .error err => .error s!"{errLoadError}: {err}"
  | .ok nodes => (loadCpuInfos fs nodes).map NumaTopology.loadFromCpuInfo

/-! ### The sysfs of a machine -/

/-- The node ids of a machine, each once. -/
def nodeIds (cpus : List CpuInfo) : List Int := (cpus.map CpuInfo.node).dedup

/-- The cpus of a machine node after node, in the order `Load` reads them. -/
def byNode (cpus : List CpuInfo) : List CpuInfo := (nodeIds cpus).flatMap fun n => cpus.filter (·.node = n)

/-- The sysfs of a machine: the topology directory lists `possible`, `online` and `nodeN` for each
node; `nodeN` lists `cpulist`, `cpumap` and `cpuM` for each of its cpus; the `topology` directory
of a cpu holds its package, die and core ids, each in decimal on a line. -/
def SysFs.ofCpus (cpus : List CpuInfo) : SysFs where
  readdirnames path :=
    if path = [] then .ok ("possible" :: "online" :: (nodeIds cpus).map fun n => nodePrefix ++ toString n)
    else
      match (nodeIds cpus).find? fun n => path = getNodeDirPath n with
      | some n => .ok ("cpulist" :: "cpumap" :: (cpus.filter (·.node = n)).map fun c => cpuPrefix ++ toString c.cpu)
      | none => .error "no such file or directory"
  readFile path :=
    match cpus.find? fun c => path.dropLast = getCPUDirPath c.node c.cpu ++ [topologyDir] with
    | none => .error "no such file or directory"
    | some c =>
      if path.getLast? = some packageFile then .ok (toString c.package ++ "\n")
      else if path.getLast? = some dieFile then .ok (toString c.die ++ "\n")
      else if path.getLast? = some coreFile then .ok (toString c.core ++ "\n")
      else .error "no such file or directory"

/-! ### Names and numbers read back -/

section Names

variable {n m : Int}

/-- The name `prefixN` of a number in `[0, MaxInt]` reads back as `N`. -/
theorem getNameWithPrefixAndNumber_append (pre : String) (h0 : 0 ≤ n) (h : n ≤ maxInt) :
    getNameWithPrefixAndNumber (pre ++ toString n) pre = (true, n) := by
  have hdrop : (pre ++ toString n).toList.drop pre.length = (toString n).toList := by
    simp only [String.toList, String.data_append]
    exact List.drop_left' rfl
  rw [getNameWithPrefixAndNumber, if_pos (hasPrefix_append _ _), hdrop, (atoi_toString h0 h).2.2]

/-- Distinct numbers in `[0, MaxInt]` have distinct names. -/
theorem eq_of_append_toString (pre : String) (hn : 0 ≤ n ∧ n ≤ maxInt) (hm : 0 ≤ m ∧ m ≤ maxInt)
    (he : pre ++ toString n = pre ++ toString m) : n = m := by
  have := getNameWithPrefixAndNumber_append pre hn.1 hn.2
  rw [he, getNameWithPrefixAndNumber_append pre hm.1 hm.2] at this
  exact (Prod.mk.inj this).2.symm

/-- A number in `[0, MaxInt]`, written on a line, reads back. -/
theorem atoi_trim_line (h0 : 0 ≤ n) (h : n ≤ maxInt) : atoi (trim isSpace (toString n ++ "\n").toList) = .ok n := by
  obtain ⟨-, hd, hv⟩ := atoi_toString h0 h
  have htext : (toString n ++ "\n").toList = (toString n).toList ++ ['\n'] := String.data_append _ _
  rw [htext, trim_append (fun c hc => by simp [isSpace_of_textChar (.inr (.inr (hd c hc)))])
    (by simp [isSpace]), hv]

theorem getEntriesWithPrefixAndNumber_of_ok {fs : SysFs} {path : List String} {l : List String}
    (h : fs.readdirnames path = .ok l) (pre : String) :
    getEntriesWithPrefixAndNumber fs path pre = .ok (l.filterMap fun directory =>
      match getNameWithPrefixAndNumber directory pre with
      | (true, nodeID) => some nodeID
      | (false, _) => none) := by
  rw [getEntriesWithPrefixAndNumber, h]

end Names

/-! ### Lists -/

/-- `find?` returns the one member the predicate holds of. -/
theorem find?_of_unique {α : Type} {l : List α} {p : α → Bool} {x : α} (hx : x ∈ l) (hp : p x = true)
    (hu : ∀ y ∈ l, p y = true → y = x) : l.find? p = some x := by
  cases hf : l.find? p with
  | none => exact absurd hp (by simpa using List.find?_eq_none.1 hf x hx)
  | some y => rw [hu y (List.mem_of_find?_eq_some hf) (List.find?_some hf)]

/-- Listing the elements of a list key after key, over a list of distinct keys that holds every
element's key, reorders the list. -/
theorem flatMap_filter_perm {α : Type} (f : α → Int) :
    ∀ (keys : List Int) (l : List α), keys.Nodup → (∀ x ∈ l, f x ∈ keys) →
      (keys.flatMap fun k => l.filter (f · = k)).Perm l
  | [], l, _, hl => by
    cases l with
    | nil => exact List.Perm.refl _
    | cons x _ => exact absurd (hl x (List.mem_cons_self _ _)) (List.not_mem_nil _)
  | k :: keys, l, hn, hl => by
    have hk : k ∉ keys := (List.nodup_cons.1 hn).1
    have hrest : (keys.flatMap fun k' => l.filter (f · = k')) =
        keys.flatMap fun k' => (l.filter fun x => !decide (f x = k)).filter (f · = k') := by
      refine List.flatMap_congr fun k' hk' => ?_
      rw [List.filter_filter]
      refine List.filter_congr fun x _ => ?_
      by_cases hx : f x = k'
      · simp [hx, show k' ≠ k from fun e => hk (e ▸ hk')]
      · simp [hx]
    have ih := flatMap_filter_perm f keys (l.filter fun x => !decide (f x = k)) (List.nodup_cons.1 hn).2
      fun x hx => by
        obtain ⟨hxl, hxk⟩ := List.mem_filter.1 hx
        exact (List.mem_cons.1 (hl x hxl)).resolve_left (by simpa using hxk)
    rw [List.flatMap_cons, hrest]
    exact (ih.append_left _).trans (List.filter_append_perm _ l)

/-! ### Reading a machine back -/

section Machine

variable {cpus : List CpuInfo} (hd : (cpus.map fun c => (c.node, c.cpu)).Nodup)
  (hr : ∀ c ∈ cpus, ∀ v ∈ [c.cpu, c.node, c.package, c.die, c.core], 0 ≤ v ∧ v ≤ maxInt)
include hr

omit hr in
theorem readdirnames_ofCpus_nil :
    (SysFs.ofCpus cpus).readdirnames [] = .ok ("possible" :: "online" :: (nodeIds cpus).map fun n => nodePrefix ++ toString n) := by
  dsimp only [SysFs.ofCpus]
  exact if_pos rfl

theorem node_of_mem_nodeIds {n : Int} (hn : n ∈ nodeIds cpus) : 0 ≤ n ∧ n ≤ maxInt := by
  obtain ⟨c, hc, rfl⟩ := List.mem_map.1 (List.mem_dedup.1 hn)
  exact hr c hc _ (by simp)

theorem loadNodes_ofCpus : loadNodes (SysFs.ofCpus cpus) = .ok (nodeIds cpus) := by
  rw [loadNodes, getEntriesWithPrefixAndNumber_of_ok readdirnames_ofCpus_nil, List.filterMap_cons_none (by decide),
    List.filterMap_cons_none (by decide), List.filterMap_map]
  refine congrArg Except.ok ((List.filterMap_congr fun n hn => ?_).trans (List.filterMap_some _))
  obtain ⟨h0, h⟩ := node_of_mem_nodeIds hr hn
  simp only [Function.comp, getNameWithPrefixAndNumber_append _ h0 h]

theorem getEntries_ofCpus_node {n : Int} (hn : n ∈ nodeIds cpus) :
    getEntriesWithPrefixAndNumber (SysFs.ofCpus cpus) (getNodeDirPath n) cpuPrefix =
      .ok ((cpus.filter (·.node = n)).map CpuInfo.cpu) := by
  obtain ⟨h0, h⟩ := node_of_mem_nodeIds hr hn
  have hfind : (nodeIds cpus).find? (fun n' => getNodeDirPath n = getNodeDirPath n') = some n :=
    find?_of_unique hn (by simp) fun n' hn' he => by
      simp only [getNodeDirPath, List.cons.injEq, and_true, decide_eq_true_eq] at he
      exact (eq_of_append_toString _ ⟨h0, h⟩ (node_of_mem_nodeIds hr hn') he).symm
  have hdir : (SysFs.ofCpus cpus).readdirnames (getNodeDirPath n) =
      .ok ("cpulist" :: "cpumap" :: (cpus.filter (·.node = n)).map fun c => cpuPrefix ++ toString c.cpu) := by
    simp only [SysFs.ofCpus, getNodeDirPath, List.cons_ne_nil, if_false] at hfind ⊢
    rw [hfind]
  rw [getEntriesWithPrefixAndNumber_of_ok hdir, List.filterMap_cons_none (by decide),
    List.filterMap_cons_none (by decide), List.filterMap_map, ← List.filterMap_some (List.map _ _), List.filterMap_map]
  refine congrArg Except.ok (List.filterMap_congr fun c hc => ?_)
  obtain ⟨h0, h⟩ := hr c (List.mem_filter.1 hc).1 c.cpu (by simp)
  simp only [Function.comp, getNameWithPrefixAndNumber_append _ h0 h]

include hd

theorem readIntFromFile_ofCpus {c : CpuInfo} (hc : c ∈ cpus) {f : String} {v : Int}
    (hf : f = packageFile ∧ v = c.package ∨ f = dieFile ∧ v = c.die ∨ f = coreFile ∧ v = c.core) :
    readIntFromFile (SysFs.ofCpus cpus) (getCPUDirPath c.node c.cpu ++ [topologyDir]) f = .ok v := by
  have hfind : cpus.find? (fun c' => getCPUDirPath c.node c.cpu ++ [topologyDir] =
      getCPUDirPath c'.node c'.cpu ++ [topologyDir]) = some c :=
    find?_of_unique hc (by simp) fun c' hc' he => by
      simp only [getCPUDirPath, getNodeDirPath, List.cons_append, List.nil_append, List.cons.injEq, and_true,
        decide_eq_true_eq] at he
      have hnode := eq_of_append_toString _ (hr c' hc' c'.node (by simp)) (hr c hc c.node (by simp)) he.1.symm
      have hcpu := eq_of_append_toString _ (hr c' hc' c'.cpu (by simp)) (hr c hc c.cpu (by simp)) he.2.symm
      exact List.inj_on_of_nodup_map hd hc' hc (by rw [hnode, hcpu])
  have hv : 0 ≤ v ∧ v ≤ maxInt := by
    rcases hf with ⟨-, rfl⟩ | ⟨-, rfl⟩ | ⟨-, rfl⟩ <;> exact hr c hc _ (by simp)
  have htext : (SysFs.ofCpus cpus).readFile (getCPUDirPath c.node c.cpu ++ [topologyDir] ++ [f]) = .ok (toString v ++ "\n") := by
    simp only [SysFs.ofCpus, List.dropLast_concat, List.getLast?_concat, hfind, Option.some.injEq]
    rcases hf with ⟨rfl, rfl⟩ | ⟨rfl, rfl⟩ | ⟨rfl, rfl⟩ <;> simp [packageFile, dieFile, coreFile]
  rw [readIntFromFile, htext]
  dsimp only
  rw [atoi_trim_line hv.1 hv.2]

theorem listCpusFromNode_ofCpus {n : Int} (hn : n ∈ nodeIds cpus) :
    listCpusFromNode (SysFs.ofCpus cpus) n = .ok (cpus.filter (·.node = n)) := by
  rw [listCpusFromNode, getEntries_ofCpus_node hr hn]
  dsimp only
  rw [List.map_map]
  refine congrArg Except.ok ((List.map_congr_left fun c hc => ?_).trans (List.map_id _))
  obtain ⟨hmem, hcn⟩ := List.mem_filter.1 hc
  rw [decide_eq_true_eq] at hcn
  subst hcn
  simp only [Function.comp, readIntFromFile_ofCpus hd hr hmem (.inl ⟨rfl, rfl⟩),
    readIntFromFile_ofCpus hd hr hmem (.inr (.inl ⟨rfl, rfl⟩)), readIntFromFile_ofCpus hd hr hmem (.inr (.inr ⟨rfl, rfl⟩)),
    id]

theorem loadCpuInfos_ofCpus : ∀ ns : List Int, (∀ n ∈ ns, n ∈ nodeIds cpus) →
    loadCpuInfos (SysFs.ofCpus cpus) ns = .ok (ns.flatMap fun n => cpus.filter (·.node = n))
  | [], _ => rfl
  | n :: ns, h => by
    rw [loadCpuInfos, listCpusFromNode_ofCpus hd hr (h n (List.mem_cons_self _ _)),
      loadCpuInfos_ofCpus ns fun n' hn' => h n' (List.mem_cons_of_mem _ hn'), List.flatMap_cons]
    rfl

theorem load_ofCpus_eq : NumaTopology.load (SysFs.ofCpus cpus) = .ok (NumaTopology.loadFromCpuInfo (byNode cpus)) := by
  rw [NumaTopology.load, loadNodes_ofCpus hr]
  dsimp only
  rw [loadCpuInfos_ofCpus hd hr _ fun _ hn => hn]
  rfl

omit hd hr in
/-- The cpus regrouped node by node are the machine's cpus. -/
theorem perm_byNode : (byNode cpus).Perm cpus :=
  flatMap_filter_perm CpuInfo.node _ cpus (List.nodup_dedup _) fun _ hc => List.mem_dedup.2 (List.mem_map_of_mem _ hc)

/-- **Discovery reads the machine back.**  On the sysfs of a machine whose (node, cpu) pairs are
distinct and whose ids all lie in `[0, MaxInt]`, `Load` skips the entries that are not
`nodeN` or `cpuM`, reads every cpu's package, die and core ids, and loads the topology of the
machine's cpus, regrouped node by node. -/
theorem load_ofCpus :
    ∃ cs : List CpuInfo, cs.Perm cpus ∧ NumaTopology.load (SysFs.ofCpus cpus) = .ok (NumaTopology.loadFromCpuInfo cs) :=
  ⟨_, perm_byNode, load_ofCpus_eq hd hr⟩

end Machine

/-- Four cpus on two nodes, listed alternately. -/
def fourCpuInfos : List CpuInfo := [⟨0, 0, 0, 0, 0⟩, ⟨1, 1, 0, 0, 1⟩, ⟨2, 0, 0, 0, 2⟩, ⟨3, 1, 0, 0, 3⟩]

/-- The sysfs of four cpus on two nodes loads their topology. -/
theorem load_ofCpus_fourCpus :
    ((fourCpuInfos.map fun c => (c.node, c.cpu)).Nodup ∧
      ∀ c ∈ fourCpuInfos, ∀ v ∈ [c.cpu, c.node, c.package, c.die, c.core], 0 ≤ v ∧ v ≤ maxInt) ∧
    ∃ cs : List CpuInfo, cs.Perm fourCpuInfos ∧
      NumaTopology.load (SysFs.ofCpus fourCpuInfos) = .ok (NumaTopology.loadFromCpuInfo cs) :=
  ⟨⟨by decide, by decide⟩, load_ofCpus (by decide) (by decide)⟩

/-- The cpus are read node by node. -/
example : (loadCpuInfos (SysFs.ofCpus fourCpuInfos) [0, 1]).toOption.map (·.map CpuInfo.cpu) = some [0, 2, 1, 3] := by
  decide

end CpuControlPlane
