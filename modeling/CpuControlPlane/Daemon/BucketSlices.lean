import CpuControlPlane.Daemon.NamespaceAllocator

/-! # The buckets of the per-namespace allocator partition the leaves

The spec's bucket: `⌊L/N⌋` consecutive leaves of the `L` leaves in `GetLeafs` order, starting
at index `k·⌊L/N⌋` for bucket `k` of `N`, except the last bucket, which takes the remainder
(`bucketSegment`).  `getBucket` cuts its bucket with Go's slice expressions `leafs[lo:hi]` and
`leafs[lo:]`, which panic out of `0 ≤ lo ≤ hi ≤ len(leafs)` (`sliceExpr`).

- `flatten_bucketSegments`: the `N` segments, in index order, concatenate to the leaves, so they
  are contiguous and cut the positions of the leaves into disjoint runs;
- `length_bucketSegment_of_lt`, `length_bucketSegment_last`: the first `N - 1` have length
  `⌊L/N⌋`, the last `L - (N-1)·⌊L/N⌋`, also when `L < N` and all but the last are empty;
- `sliceExpr_getBucket`, `getBucket_eq_bucketSegment`: for every bucket index in `[0, N)` the slice
  `getBucket` takes is in bounds and is the index's segment;
- `getBucket_partition`: every index `newNamespace` hands out lies in `[0, N)`, and the buckets
  `getBucket` returns for the indices `0 … N-1` partition the leaves as the spec says. -/

namespace CpuControlPlane

/-! ### Executable definitions -/

/-- The `k`-th of `n` buckets of a leaf list, in the spec's words: `⌊L/n⌋` leaves from index
`k·⌊L/n⌋`, the last bucket taking the remainder `L - (n-1)·⌊L/n⌋`. -/
def bucketSegment {α : Type} (leafs : List α) (n k : Nat) : List α :=
  (leafs.drop (k * (leafs.length / n))).take
    (if k + 1 = n then leafs.length - (n - 1) * (leafs.length / n) else leafs.length / n)

/-- Go's slice expression `xs[lo:hi]`: the elements at the indices `lo ≤ i < hi`, defined when
`0 ≤ lo ≤ hi ≤ len(xs)`; out of those bounds Go panics. -/
def sliceExpr {α : Type} (xs : List α) (lo hi : Int) : Option (List α) :=
  if 0 ≤ lo ∧ lo ≤ hi ∧ hi ≤ xs.length then some ((xs.take hi.toNat).drop lo.toNat) else none

/-! ### The segments of a list -/

section Segments

variable {α : Type} (leafs : List α) (n : Nat)

theorem bucketSegment_of_lt {k : Nat} (hk : k + 1 < n) :
    bucketSegment leafs n k = (leafs.drop (k * (leafs.length / n))).take (leafs.length / n) := by
  rw [bucketSegment, if_neg (Nat.ne_of_lt hk)]

/-- A bucket ends inside the list. -/
theorem bucketEnd_le {k : Nat} (hk : k < n) : leafs.length / n * (k + 1) ≤ leafs.length :=
  calc leafs.length / n * (k + 1)
    _ ≤ leafs.length / n * n := Nat.mul_le_mul_left _ hk
    _ ≤ leafs.length := Nat.div_mul_le_self _ _

theorem length_bucketSegment_of_lt {k : Nat} (hk : k + 1 < n) :
    (bucketSegment leafs n k).length = leafs.length / n := by
  have := bucketEnd_le leafs n (Nat.lt_of_succ_lt hk)
  rw [bucketSegment_of_lt leafs n hk, List.length_take, List.length_drop, Nat.mul_comm]
  generalize leafs.length / n = q at *
  rw [Nat.mul_succ] at this
  omega

theorem length_bucketSegment_last (hn : 0 < n) :
    (bucketSegment leafs n (n - 1)).length = leafs.length - (n - 1) * (leafs.length / n) := by
  rw [bucketSegment, if_pos (Nat.sub_add_cancel hn), List.length_take, List.length_drop]
  exact Nat.min_self _

/-- The first `j` segments are the first `j·⌊L/n⌋` leaves. -/
theorem flatten_bucketSegments_take :
    ∀ j, j < n → ((List.range j).map (bucketSegment leafs n)).flatten = leafs.take (j * (leafs.length / n))
  | 0, _ => by simp
  | j + 1, hj => by
    rw [List.range_succ, List.map_append, List.flatten_append, flatten_bucketSegments_take j (by omega),
      List.map_singleton, List.flatten_singleton, bucketSegment_of_lt leafs n hj, ← List.take_add, Nat.succ_mul]

/-- **The segments partition the leaves**, in index order. -/
theorem flatten_bucketSegments (hn : 0 < n) :
    ((List.range n).map (bucketSegment leafs n)).flatten = leafs := by
  obtain ⟨m, rfl⟩ := Nat.exists_eq_add_of_lt hn
  have hle : m * (leafs.length / (m + 1)) ≤ leafs.length := by
    have := bucketEnd_le leafs (m + 1) (Nat.lt_succ_self m)
    rw [Nat.mul_comm] at this
    exact le_trans (Nat.mul_le_mul_right _ (Nat.le_succ m)) this
  rw [Nat.zero_add, List.range_succ, List.map_append, List.flatten_append,
    flatten_bucketSegments_take leafs _ m (Nat.lt_succ_self m), List.map_singleton, List.flatten_singleton,
    bucketSegment, if_pos rfl, Nat.add_sub_cancel, ← List.take_add, Nat.add_sub_cancel' hle, List.take_length]

/-- Five leaves in three buckets: one, one, and the remaining three. -/
example : (List.range 3).map (bucketSegment [0, 1, 2, 3, 4] 3) = [[0], [1], [2, 3, 4]] := by decide

/-- Segments of a list without duplicates share no element. -/
theorem pairwise_disjoint_bucketSegments (hn : 0 < n) (hd : leafs.Nodup) :
    ((List.range n).map (bucketSegment leafs n)).Pairwise List.Disjoint :=
  (List.nodup_flatten.1 (by rwa [flatten_bucketSegments leafs n hn])).2

/-- The slice Go takes for a bucket other than the last. -/
theorem drop_take_eq_bucketSegment {k : Nat} (hk : k + 1 < n) :
    (leafs.take (leafs.length / n * (k + 1))).drop (leafs.length / n * k) = bucketSegment leafs n k := by
  rw [List.drop_take, bucketSegment_of_lt leafs n hk, Nat.mul_succ, Nat.add_sub_cancel_left, Nat.mul_comm]

/-- The slice Go takes for the last bucket. -/
theorem drop_eq_bucketSegment_last {k : Nat} (hk : k + 1 = n) :
    leafs.drop (leafs.length / n * k) = bucketSegment leafs n k := by
  rw [bucketSegment, if_pos hk, ← hk, Nat.add_sub_cancel, Nat.mul_comm, List.take_of_length_le (List.length_drop _ _).le]

/-- Go's slice of a bucket is in bounds and is the bucket's segment. -/
theorem sliceExpr_bucketSegment {k : Nat} (hk : k < n) :
    sliceExpr leafs ((leafs.length / n * k : Nat) : Int)
      (if k + 1 = n then (leafs.length : Int) else ((leafs.length / n * (k + 1) : Nat) : Int)) =
      some (bucketSegment leafs n k) := by
  have hend := bucketEnd_le leafs n hk
  have hlo : leafs.length / n * k ≤ leafs.length / n * (k + 1) := Nat.mul_le_mul_left _ (Nat.le_succ k)
  split_ifs with h <;> rw [sliceExpr, if_pos (by omega), Int.toNat_ofNat, Int.toNat_ofNat]
  · rw [List.take_length, drop_eq_bucketSegment_last leafs n h]
  · rw [drop_take_eq_bucketSegment leafs n (by omega)]

end Segments

/-! ### The buckets `getBucket` cuts -/

namespace NumaPerNamespaceAllocator

variable (a : NumaPerNamespaceAllocator)

/-- The bucket count as a natural number. -/
theorem numBuckets_toNat : (a.numBuckets.toNat : Int) = a.numBuckets :=
  Int.toNat_of_nonneg a.numBuckets_pos.le

/-- `newNamespace` maps the namespace to the next bucket, round robin. -/
theorem lookup_newNamespace (b : NamespaceBuckets) (ns : String) :
    (a.newNamespace b ns).namespaceToBucket.lookup ns = some (b.globalBucket % a.numBuckets) :=
  AList.lookup_insert _

/-- The bounds `getBucket` computes for the bucket `j` of `L` leaves, over natural numbers. -/
theorem bucketBounds_natCast (L j : Nat) :
    (L : Int) / a.numBuckets * j = ((L / a.numBuckets.toNat * j : Nat) : Int) ∧
      (L : Int) / a.numBuckets * (j + 1) = ((L / a.numBuckets.toNat * (j + 1) : Nat) : Int) ∧
      ((j : Int) = a.numBuckets - 1 ↔ j + 1 = a.numBuckets.toNat) := by
  have hN := a.numBuckets_toNat
  generalize a.numBuckets.toNat = N at hN ⊢
  rw [← hN]
  refine ⟨?_, ?_, by omega⟩ <;> simp only [Int.natCast_mul, Int.natCast_add, Int.natCast_one, Int.ofNat_ediv]

/-- For a bucket index in `[0, N)`, the bounds `getBucket` computes are in range and cut the
index's segment. -/
theorem sliceExpr_getBucket {α : Type} (leafs : List α) {k : Int} (h0 : 0 ≤ k) (hk : k < a.numBuckets) :
    sliceExpr leafs ((leafs.length : Int) / a.numBuckets * k)
        (if k = a.numBuckets - 1 then leafs.length else (leafs.length : Int) / a.numBuckets * (k + 1)) =
      some (bucketSegment leafs a.numBuckets.toNat k.toNat) := by
  obtain ⟨j, rfl⟩ := Int.eq_ofNat_of_zero_le h0
  obtain ⟨e1, e2, e3⟩ := a.bucketBounds_natCast leafs.length j
  have := a.numBuckets_toNat
  simp only [e1, e2, e3, Int.toNat_ofNat]
  exact sliceExpr_bucketSegment leafs _ (by omega)

/-- For a bucket index in `[0, N)`, `getBucket` returns the index's segment. -/
theorem getBucket_eq_bucketSegment {s : DaemonState} {b : NamespaceBuckets} {ns : String} {k : Int}
    (hb : b.namespaceToBucket.lookup ns = some k) (h0 : 0 ≤ k) (hk : k < a.numBuckets) :
    a.getBucket s b ns = .ok (bucketSegment s.topology.topology.getLeafs a.numBuckets.toNat k.toNat) := by
  obtain ⟨j, rfl⟩ := Int.eq_ofNat_of_zero_le h0
  obtain ⟨e1, e2, e3⟩ := a.bucketBounds_natCast s.topology.topology.getLeafs.length j
  have := a.numBuckets_toNat
  rw [getBucket, hb]
  simp only [e1, e2, e3, Int.toNat_ofNat]
  split_ifs with h
  · rw [drop_eq_bucketSegment_last _ _ h]
  · rw [drop_take_eq_bucketSegment _ _ (by omega)]

/-- **The buckets partition the leaves.**  Every bucket index `newNamespace` hands out from a
non-negative round-robin counter lies in `[0, N)`; the counter starts at `0` and only grows, and on
non-negative values Lean's `%` and Go's truncating `%` agree.  For every index `k` in `[0, N)` the bounds `getBucket` slices with are in range, and
`getBucket` returns the `k`-th segment.  The `N` segments, in index order, concatenate to the
leaves, and share no leaf when the leaves are distinct; the first `N - 1` have `⌊L/N⌋` leaves and
the last `L - (N-1)·⌊L/N⌋`. -/
theorem getBucket_partition (s : DaemonState) (leafs : List (List Nat)) (hl : s.topology.topology.getLeafs = leafs) :
    (∀ b ns, 0 ≤ b.globalBucket →
      (a.newNamespace b ns).namespaceToBucket.lookup ns = some (b.globalBucket % a.numBuckets) ∧
      0 ≤ b.globalBucket % a.numBuckets ∧ b.globalBucket % a.numBuckets < a.numBuckets) ∧
    (∀ k : Int, 0 ≤ k → k < a.numBuckets →
      sliceExpr leafs ((leafs.length : Int) / a.numBuckets * k)
          (if k = a.numBuckets - 1 then leafs.length else (leafs.length : Int) / a.numBuckets * (k + 1)) =
        some (bucketSegment leafs a.numBuckets.toNat k.toNat)) ∧
    (∀ b ns k, b.namespaceToBucket.lookup ns = some k → 0 ≤ k → k < a.numBuckets →
      a.getBucket s b ns = .ok (bucketSegment leafs a.numBuckets.toNat k.toNat)) ∧
    ((List.range a.numBuckets.toNat).map (bucketSegment leafs a.numBuckets.toNat)).flatten = leafs ∧
    (leafs.Nodup → ((List.range a.numBuckets.toNat).map (bucketSegment leafs a.numBuckets.toNat)).Pairwise List.Disjoint) ∧
    (∀ k, k + 1 < a.numBuckets.toNat → (bucketSegment leafs a.numBuckets.toNat k).length = leafs.length / a.numBuckets.toNat) ∧
    (bucketSegment leafs a.numBuckets.toNat (a.numBuckets.toNat - 1)).length =
      leafs.length - (a.numBuckets.toNat - 1) * (leafs.length / a.numBuckets.toNat) := by
  subst hl
  have hn : 0 < a.numBuckets.toNat := by have := a.numBuckets_toNat; have := a.numBuckets_pos; omega
  exact ⟨fun b ns _ => ⟨a.lookup_newNamespace b ns, Int.emod_nonneg _ a.numBuckets_pos.ne',
      Int.emod_lt_of_pos _ a.numBuckets_pos⟩,
    fun _ h0 hk => a.sliceExpr_getBucket _ h0 hk, fun _ _ _ hb h0 hk => a.getBucket_eq_bucketSegment hb h0 hk,
    flatten_bucketSegments _ _ hn, pairwise_disjoint_bucketSegments _ _ hn,
    fun _ hk => length_bucketSegment_of_lt _ _ hk, length_bucketSegment_last _ _ hn⟩

end NumaPerNamespaceAllocator

/-- Three buckets: over fewer than three leaves all but the last are empty. -/
def threeBuckets : NumaPerNamespaceAllocator := ⟨3, false, false, by decide⟩

/-- The state of a daemon on two cpus of one core that has taken nothing. -/
def twoCpuState : DaemonState := ⟨[], ∅, ∅, NumaTopology.loadFromCpuInfo twoCpuInfos⟩

/-- Three buckets over the two leaves of the two-cpu tree. -/
theorem getBucket_partition_threeBuckets :
    twoCpuState.topology.topology.getLeafs = [[0], [1]] ∧
    (∀ b ns, 0 ≤ b.globalBucket →
      (threeBuckets.newNamespace b ns).namespaceToBucket.lookup ns = some (b.globalBucket % threeBuckets.numBuckets) ∧
      0 ≤ b.globalBucket % threeBuckets.numBuckets ∧ b.globalBucket % threeBuckets.numBuckets < threeBuckets.numBuckets) ∧
    (∀ k : Int, 0 ≤ k → k < threeBuckets.numBuckets →
      sliceExpr [[0], [1]] (([[0], [1]] : List (List Nat)).length / threeBuckets.numBuckets * k)
          (if k = threeBuckets.numBuckets - 1 then ([[0], [1]] : List (List Nat)).length
            else (([[0], [1]] : List (List Nat)).length : Int) / threeBuckets.numBuckets * (k + 1)) =
        some (bucketSegment [[0], [1]] threeBuckets.numBuckets.toNat k.toNat)) ∧
    (∀ b ns k, b.namespaceToBucket.lookup ns = some k → 0 ≤ k → k < threeBuckets.numBuckets →
      threeBuckets.getBucket twoCpuState b ns = .ok (bucketSegment [[0], [1]] threeBuckets.numBuckets.toNat k.toNat)) ∧
    ((List.range threeBuckets.numBuckets.toNat).map (bucketSegment [[0], [1]] threeBuckets.numBuckets.toNat)).flatten =
      [[0], [1]] ∧
    (([[0], [1]] : List (List Nat)).Nodup →
      ((List.range threeBuckets.numBuckets.toNat).map (bucketSegment [[0], [1]] threeBuckets.numBuckets.toNat)).Pairwise
        List.Disjoint) ∧
    (∀ k, k + 1 < threeBuckets.numBuckets.toNat →
      (bucketSegment [[0], [1]] threeBuckets.numBuckets.toNat k).length =
        ([[0], [1]] : List (List Nat)).length / threeBuckets.numBuckets.toNat) ∧
    (bucketSegment [[0], [1]] threeBuckets.numBuckets.toNat (threeBuckets.numBuckets.toNat - 1)).length =
      ([[0], [1]] : List (List Nat)).length -
        (threeBuckets.numBuckets.toNat - 1) * (([[0], [1]] : List (List Nat)).length / threeBuckets.numBuckets.toNat) :=
  ⟨rfl, NumaPerNamespaceAllocator.getBucket_partition threeBuckets twoCpuState _ rfl⟩

end CpuControlPlane
