import CpuControlPlane.Daemon.CpuSetText
import CpuControlPlane.Daemon.Requests

/-! # Choosing the allocator at start-up

`getAllocator` (cmd/ctlplane.go) turns the `-allocator` and `-mem` flags into the daemon's
allocator: `default`, `numa`, `numa-namespace=N` or `numa-namespace-exclusive=N`, where
`readNumberFromCommandOrPanic` reads `N` with `strconv.Atoi` and requires it positive.  Anything
else ends the process (`klog.Fatal`), as does memory pinning with the default allocator; a fatal
exit is an error carrying the text logged.

- `getAllocator_flag`: every allocator the daemon can run, with a bucket count up to `MaxInt`, is
  what `getAllocator` makes of its flag text and its own memory pinning.  So the positive bucket
  count that a `NumaPerNamespaceAllocator` carries is what the check `numNamespaces <= 0`
  establishes, and every allocator of the model is reachable from the command line. -/

namespace CpuControlPlane

/-! ### Executable definitions -/

/-- `readNumberFromCommandOrPanic`: the number after `prefix=`, which must be positive. -/
def readNumberFromCommandOrPanic (cmd pre : String) : Except String {n : Int // 0 < n} :=
  match atoi (cmd.toList.drop (pre.length + 1)) with
  | .error _ => .error s!"cannot read number of namespaces {cmd}. format is {pre}=[0-9]+"
  | .ok n =>
    if h : n ≤ 0 then .error s!"number of namespaces must be greater than 0. it is {n}" else .ok ⟨n, by omega⟩

/-- `getAllocator`, on the `-allocator` and `-mem` flags (the cgroup controller it also builds is
the environment `Env` of the allocators' writes). -/
def getAllocator (allocator : String) (memoryPinning : Bool) : Except String Allocator :=
  if allocator = "default" then
    if memoryPinning then .error "option \x27use memory pinning\x27 is available only for numa-aware allocators"
    else .ok .default
  else if allocator = "numa" then .ok (.numaAware memoryPinning)
  else if hasPrefix allocator "numa-namespace=" then
    match readNumberFromCommandOrPanic allocator "numa-namespace" with
    | .error e => .error e
    | .ok n => .ok (.numaPerNamespace ⟨n.1, false, memoryPinning, n.2⟩)
  else if hasPrefix allocator "numa-namespace-exclusive=" then
    match readNumberFromCommandOrPanic allocator "numa-namespace-exclusive" with
    | .error e => .error e
    | .ok n => .ok (.numaPerNamespace ⟨n.1, true, memoryPinning, n.2⟩)
  else .error s!"unknown allocator {allocator}"

namespace Allocator

/-- The `-allocator` flag that selects an allocator. -/
def flag : Allocator → String
  | .default => "default"
  | .numaAware _ => "numa"
  | .numaPerNamespace a =>
    (if a.exclusive then "numa-namespace-exclusive" else "numa-namespace") ++ "=" ++ toString a.numBuckets

/-- The `-mem` flag an allocator runs with. -/
def memoryPinning : Allocator → Bool
  | .default => false
  | .numaAware m => m
  | .numaPerNamespace a => a.memoryPinning

end Allocator

/-! ### Reading the flags back -/

theorem readNumberFromCommandOrPanic_flag (pre : String) {n : Int} (h0 : 0 < n) (h : n ≤ maxInt) :
    readNumberFromCommandOrPanic (pre ++ "=" ++ toString n) pre = .ok ⟨n, h0⟩ := by
  have hdrop : (pre ++ "=" ++ toString n).toList.drop (pre.length + 1) = (toString n).toList := by
    simp only [String.toList, String.data_append]
    exact List.drop_left' (by rw [List.length_append]; rfl)
  rw [readNumberFromCommandOrPanic, hdrop, (atoi_toString h0.le h).2.2]
  exact dif_neg (not_le.2 h0)

/-- A flag that starts with a long prefix is neither `default` nor `numa`. -/
theorem ne_of_length_lt {s t : String} (h : s.length < t.length) : t ≠ s := fun e => by
  rw [e] at h; exact lt_irrefl _ h

/-- **The allocator flags read back.**  Every allocator whose bucket count, if it has one, is at
most `MaxInt` is what `getAllocator` makes of its flag and its memory pinning. -/
theorem getAllocator_flag (al : Allocator) (h : ∀ a, al = .numaPerNamespace a → a.numBuckets ≤ maxInt) :
    getAllocator al.flag al.memoryPinning = .ok al := by
  cases al with
  | default => rfl
  | numaAware m => rfl
  | numaPerNamespace a =>
    obtain ⟨n, exclusive, m, h0⟩ := a
    have hn : n ≤ maxInt := h _ rfl
    have hlong : ∀ pre : String, 7 ≤ pre.length → "default".length < (pre ++ "=" ++ toString n).length ∧
        "numa".length < (pre ++ "=" ++ toString n).length := fun pre hp => by
      simp only [String.length_append, show "default".length = 7 from rfl, show "numa".length = 4 from rfl,
        show "=".length = 1 from rfl]
      omega
    cases exclusive with
    | false =>
      obtain ⟨h1, h2⟩ := hlong "numa-namespace" (by decide)
      have hp : hasPrefix ("numa-namespace" ++ "=" ++ toString n) "numa-namespace=" = true := hasPrefix_append _ _
      show getAllocator ("numa-namespace" ++ "=" ++ toString n) m = _
      rw [getAllocator, if_neg (ne_of_length_lt h1), if_neg (ne_of_length_lt h2), if_pos hp,
        readNumberFromCommandOrPanic_flag _ h0 hn]
    | true =>
      obtain ⟨h1, h2⟩ := hlong "numa-namespace-exclusive" (by decide)
      have hno : hasPrefix ("numa-namespace-exclusive" ++ "=" ++ toString n) "numa-namespace=" = false :=
        hasPrefix_append_of_not (by decide) (by decide) _
      have hp : hasPrefix ("numa-namespace-exclusive" ++ "=" ++ toString n) "numa-namespace-exclusive=" = true :=
        hasPrefix_append _ _
      show getAllocator ("numa-namespace-exclusive" ++ "=" ++ toString n) m = _
      rw [getAllocator, if_neg (ne_of_length_lt h1), if_neg (ne_of_length_lt h2), hno, if_neg Bool.false_ne_true,
        if_pos hp, readNumberFromCommandOrPanic_flag _ h0 hn]

/-- `numa-namespace-exclusive=4` selects four exclusive buckets. -/
theorem getAllocator_flag_fourBuckets :
    (∀ a, Allocator.numaPerNamespace ⟨4, true, false, by decide⟩ = .numaPerNamespace a → a.numBuckets ≤ maxInt) ∧
      getAllocator (Allocator.numaPerNamespace ⟨4, true, false, by decide⟩).flag false =
        .ok (.numaPerNamespace ⟨4, true, false, by decide⟩) :=
  ⟨fun _ ha => by cases ha; decide, getAllocator_flag _ fun _ ha => by cases ha; decide⟩

end CpuControlPlane
