import Mathlib.Data.List.Sort

/-! # Cpu buckets and cpu sets

The API names cpus by buckets, ranges `startCPU`–`endCPU` with both ends included; the daemon's
`CPUSet` is a Go map used as a set of cpu ids.  A set is kept here as a list whose order carries no
meaning and which the operations never fill with a repeated id:

- `cpuSetFromBucketList` collects the cpus of a bucket list, `merge` and `removeAll` are union and
  difference, `sorted` lists the ids in increasing order;
- `toBucketList` and `toCpuString` render a set as one-cpu buckets or as the cgroup text
  `"0,3,4"`, both in increasing order.

Membership lemmas (`mem_cpuSetFromBucketList`, `mem_merge`, `mem_removeAll`, `mem_toBucketList`)
say what each operation does to the set; callers use them and never unfold the operations.

Go walks a bucket with a loop on a 64-bit `int` (`bucketLoop`), which visits `CPUBucket.cpus` on a
bucket ending below `MaxInt` and never ends on one ending at `MaxInt`. -/

namespace CpuControlPlane

/-- `ctlplaneapi.CPUBucket`: the cpus from `startCPU` to `endCPU`, both included. -/
structure CPUBucket where
  startCPU : Int
  endCPU : Int
deriving DecidableEq, Repr

/-- The cpus of a bucket in increasing order: what Go's loop `for cpu := StartCPU; cpu <= EndCPU;
cpu++` visits on a bucket ending below `MaxInt` (`bucketLoop_of_lt`). -/
def CPUBucket.cpus (b : CPUBucket) : List Int :=
  (List.range (b.endCPU - b.startCPU + 1).toNat).map fun k : Nat => b.startCPU + (k : Int)

theorem CPUBucket.mem_cpus {b : CPUBucket} {x : Int} : x ∈ b.cpus ↔ b.startCPU ≤ x ∧ x ≤ b.endCPU := by
  simp only [cpus, List.mem_map, List.mem_range]
  constructor
  · rintro ⟨k, hk, rfl⟩; omega
  · intro h; exact ⟨(x - b.startCPU).toNat, by omega, by omega⟩

/-- The cpus of a one-cpu bucket. -/
@[simp] theorem CPUBucket.cpus_single (x : Int) : (CPUBucket.mk x x).cpus = [x] := by
  simp [cpus, List.range_succ]

/-- The cpus of one-cpu buckets. -/
@[simp] theorem CPUBucket.flatMap_cpus_single (ids : List Int) :
    (ids.map fun cpu => CPUBucket.mk cpu cpu).flatMap CPUBucket.cpus = ids := by
  induction ids <;> simp [*]

theorem CPUBucket.nodup_cpus (b : CPUBucket) : b.cpus.Nodup :=
  (List.nodup_range _).map fun k k' h => by simp at h; omega

/-- A bucket is its part up to `m - 1` followed by its part from `m`, for any `m` in it or right
after it. -/
theorem CPUBucket.cpus_split {s e m : Int} (h1 : s ≤ m) (h2 : m ≤ e + 1) :
    (CPUBucket.mk s e).cpus.Perm ((CPUBucket.mk s (m - 1)).cpus ++ (CPUBucket.mk m e).cpus) := by
  refine (List.perm_ext_iff_of_nodup (nodup_cpus _) (List.nodup_append.2 ⟨nodup_cpus _, nodup_cpus _, ?_⟩)).2
    fun x => ?_
  · intro x hx hx'
    rw [mem_cpus] at hx hx'
    simp only at hx hx'
    omega
  · simp only [List.mem_append, mem_cpus]
    omega

theorem CPUBucket.cpus_of_lt {s e : Int} (h : e < s) : (CPUBucket.mk s e).cpus = [] := by
  simp only [cpus, List.map_eq_nil_iff, List.range_eq_nil]
  omega

theorem CPUBucket.cpus_of_le {s e : Int} (h : s ≤ e) :
    (CPUBucket.mk s e).cpus = s :: (CPUBucket.mk (s + 1) e).cpus := by
  have hlen : (e - s + 1).toNat = (e - (s + 1) + 1).toNat + 1 := by omega
  simp only [cpus, hlen, List.range_succ_eq_map, List.map_cons, List.map_map]
  exact congr (congrArg _ (by omega)) (List.map_congr_left fun k _ => by simp only [Function.comp_apply]; omega)

/-! ### Go's loop over a bucket

Go walks a bucket with `for cpu := StartCPU; cpu <= EndCPU; cpu++` on a 64-bit `int`
(`CPUSetFromBucketList`, and the frees of the NUMA-aware and per-namespace allocators).
`bucketLoop` is that loop with the wrap of `cpu++` written out, allowed a bounded number of tests
of its condition.  On a bucket ending below `MaxInt` it visits `CPUBucket.cpus`
(`bucketLoop_of_lt`), which the model uses in its place.  On a bucket ending at `MaxInt` the
condition never fails, `MaxInt + 1` being `MinInt`, and the loop never ends
(`bucketLoop_maxInt`). -/

/-- `math.MaxInt`: `int` is 64 bits wide on the platforms the daemon runs on. -/
def maxInt : Int := 9223372036854775807

/-- `math.MinInt`. -/
def minInt : Int := -9223372036854775808

/-- `cpu++` on a 64-bit `int`: `MaxInt + 1` wraps to `MinInt`. -/
def incInt (cpu : Int) : Int := if cpu = maxInt then minInt else cpu + 1

/-- The loop `for cpu := StartCPU; cpu <= EndCPU; cpu++` allowed `fuel` tests of its condition: the
cpus it visits, or `none` when the fuel runs out before the condition fails. -/
def bucketLoop : Nat → Int → Int → Option (List Int)
  | 0, _, _ => none
  | fuel + 1, cpu, e => if cpu ≤ e then (bucketLoop fuel (incInt cpu) e).map (cpu :: ·) else some []

/-- Below `MaxInt` the loop visits the cpus of the bucket and ends, given one test of its
condition more than the bucket has cpus. -/
theorem bucketLoop_of_lt {e : Int} (he : e < maxInt) :
    ∀ (fuel : Nat) (s : Int), (e - s + 1).toNat < fuel → bucketLoop fuel s e = some (CPUBucket.mk s e).cpus
  | 0, _, h => absurd h (Nat.not_lt_zero _)
  | fuel + 1, s, h => by
    rw [bucketLoop]
    by_cases hse : s ≤ e
    · rw [if_pos hse, incInt, if_neg (by omega), bucketLoop_of_lt he fuel (s + 1) (by omega),
        CPUBucket.cpus_of_le hse]
      rfl
    · rw [if_neg hse, CPUBucket.cpus_of_lt (by omega)]

/-- On a bucket ending at `MaxInt` the loop never ends: whatever the fuel, it runs out. -/
theorem bucketLoop_maxInt : ∀ (fuel : Nat) (s : Int), s ≤ maxInt → bucketLoop fuel s maxInt = none
  | 0, _, _ => rfl
  | fuel + 1, s, hs => by
    have hinc : incInt s ≤ maxInt := by
      unfold incInt
      split_ifs
      · decide
      · omega
    rw [bucketLoop, if_pos hs, bucketLoop_maxInt fuel _ hinc]
    rfl

/-- `CPUSet`: a set of cpu ids. -/
abbrev CPUSet := List Int

namespace CPUSet

/-- `Add`. -/
def add (c : CPUSet) (cpu : Int) : CPUSet := c.insert cpu

/-- `Merge`: every cpu of `other` added. -/
def merge (c other : CPUSet) : CPUSet := other.foldl add c

/-- `RemoveAll`: every cpu of `other` removed. -/
def removeAll (c other : CPUSet) : CPUSet := c.filter fun cpu => cpu ∉ other

/-- `Sorted`: the ids in increasing order. -/
def sorted (c : CPUSet) : List Int := c.insertionSort (· ≤ ·)

/-- `ToBucketList`: one bucket per cpu, in increasing order. -/
def toBucketList (c : CPUSet) : List CPUBucket := c.sorted.map fun cpu => ⟨cpu, cpu⟩

/-- `ToCpuString`: the ids in increasing order, separated by commas. -/
def toCpuString (c : CPUSet) : String :=
  if c.length = 0 then "" else String.intercalate "," (c.sorted.map toString)

@[simp] theorem mem_add {c : CPUSet} {cpu x : Int} : x ∈ c.add cpu ↔ x = cpu ∨ x ∈ c := List.mem_insert_iff

theorem mem_foldl_add {x : Int} : ∀ {c : CPUSet} {l : List Int}, x ∈ l.foldl add c ↔ x ∈ l ∨ x ∈ c
  | _, [] => by simp
  | _, _ :: _ => by rw [List.foldl_cons, mem_foldl_add]; simp; tauto

@[simp] theorem mem_merge {c other : CPUSet} {x : Int} : x ∈ c.merge other ↔ x ∈ c ∨ x ∈ other := by
  rw [merge, mem_foldl_add, or_comm]

@[simp] theorem mem_removeAll {c other : CPUSet} {x : Int} : x ∈ c.removeAll other ↔ x ∈ c ∧ x ∉ other := by
  simp [removeAll]

@[simp] theorem mem_sorted {c : CPUSet} {x : Int} : x ∈ c.sorted ↔ x ∈ c := (List.perm_insertionSort _ c).mem_iff

end CPUSet

/-- `CPUSetFromBucketList`: the cpus of all buckets. -/
def cpuSetFromBucketList (buckets : List CPUBucket) : CPUSet :=
  buckets.foldl (fun s b => b.cpus.foldl CPUSet.add s) []

theorem mem_cpuSetFromBucketList {x : Int} {buckets : List CPUBucket} :
    x ∈ cpuSetFromBucketList buckets ↔ ∃ b ∈ buckets, x ∈ b.cpus := by
  suffices ∀ s : CPUSet, x ∈ buckets.foldl (fun s b => b.cpus.foldl CPUSet.add s) s ↔
      (∃ b ∈ buckets, x ∈ b.cpus) ∨ x ∈ s by simpa using this []
  induction buckets with
  | nil => simp
  | cons b bs ih =>
    intro s
    rw [List.foldl_cons, ih, CPUSet.mem_foldl_add]
    simp only [List.mem_cons, exists_eq_or_imp]
    generalize (∃ b ∈ bs, x ∈ b.cpus) = P
    tauto

theorem CPUSet.nodup_foldl_add : ∀ {c : CPUSet} (l : List Int), c.Nodup → (l.foldl add c).Nodup
  | _, [], h => h
  | _, _ :: l, h => nodup_foldl_add l h.insert

/-- A set built from buckets never holds an id twice. -/
theorem nodup_cpuSetFromBucketList (buckets : List CPUBucket) : (cpuSetFromBucketList buckets).Nodup := by
  suffices ∀ s : CPUSet, s.Nodup → (buckets.foldl (fun s b => b.cpus.foldl CPUSet.add s) s).Nodup from
    this [] List.nodup_nil
  induction buckets with
  | nil => exact fun _ h => h
  | cons b bs ih => exact fun s h => ih _ (CPUSet.nodup_foldl_add _ h)

@[simp] theorem CPUSet.mem_toBucketList {c : CPUSet} {x : Int} :
    x ∈ cpuSetFromBucketList c.toBucketList ↔ x ∈ c := by
  simp [mem_cpuSetFromBucketList, toBucketList]

@[simp] theorem CPUSet.mem_flatMap_toBucketList {c : CPUSet} {x : Int} :
    x ∈ c.toBucketList.flatMap CPUBucket.cpus ↔ x ∈ c := by
  simp [toBucketList]

end CpuControlPlane
