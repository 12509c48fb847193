import CpuControlPlane.Daemon.Keeps
import CpuControlPlane.Daemon.BucketSlices
import Mathlib

/-! # The per-namespace allocator keeps every container inside its namespace's bucket

`NumaPerNamespaceAllocator` gives a namespace a bucket of leaves when its first container arrives
and pins every container of the namespace to leaves of that bucket; `bucketToNumContainers`
counts the containers taken in a bucket, and a free that brings the count to zero forgets the
namespace, whose next container may get another bucket.  `Allocated` is keyed by container id
only, so two pods that list the same container id share one entry: pods of two namespaces that
both list a container `x` leave one of them outside its namespace's bucket, and the two share
its cpus (`sharedContainerId_leaves_bucket`).

When every container id belongs to one pod and every pod id to one namespace (`Owners.ofMaps`),
every run from a freshly started daemon keeps `BucketInv`:

- the tree keeps its shape, so `getBucket` cuts the same leaves for a bucket index all along,
  and every mapped index is one of the allocator's buckets;
- the namespace of every container listed in `Allocated` is mapped, and the container's cpus lie
  in the bucket `getBucket` returns for it (`bucketCpus`);
- the count of a bucket is at least the number of listed containers of the namespaces it holds,
  so a namespace is forgotten only when none of its containers is listed any more.

`GetLeafs` returns every leaf once (`getLeafs_perm`), so the buckets of two indices hold
different cpus (`bucketCpus_disjoint`).

- `numaPerNamespace_run_isolated`: after every such run, every cpu of an admitted container lies
  in the bucket `getBucket` returns for its pod's namespace, and admitted containers of
  namespaces mapped to different buckets hold disjoint cpus;
- `numaPerNamespace_run_buckets`: after every such run, every mapped namespace holds a bucket
  index in `[0, N)`, and its bucket is that index's segment (`bucketSegment`) of the leaves of the
  loaded tree. -/

namespace CpuControlPlane

open TopologyNode

/-- The discipline of a run in which every container id belongs to the pod `podOf` names and
every pod id comes with the namespace `nsOf` names. -/
def Owners.ofMaps (podOf nsOf : String → String) : Owners where
  nsOk p ns := ns = nsOf p
  owns p c := c.pid = p ∧ podOf c.cid = p
  owns_update _ _ _ h hid := ⟨h.1, (congrArg podOf hid).trans h.2⟩

/-- A container `findContainer` finds belongs, under the discipline, to the namespace of the pod
its record names. -/
theorem Owners.ofMaps_findContainer {podOf nsOf : String → String} {s : DaemonState}
    (hpods : (Owners.ofMaps podOf nsOf).Pods s.pods) {cid : String} {c : Container}
    (hf : NumaPerNamespaceAllocator.findContainer s cid = some c) :
    nsOf (podOf cid) = (lookupD s.pods c.pid .zero).podNamespace := by
  obtain ⟨rfl, e, he, hc⟩ := NumaPerNamespaceAllocator.findContainer_some hf
  have hl : s.pods.lookup e.1 = some e.2 := AList.mem_lookup_iff.2 he
  obtain ⟨hns, hown⟩ := hpods _ _ hl
  obtain ⟨hpid, hpod⟩ := hown c hc
  rw [hpod, hpid, lookupD, hl, Option.getD_some, hns]

/-! ### Counting listed containers -/

section Count

variable (P : String → Prop) [DecidablePred P] (m : AList fun _ : String => List CPUBucket) (cid : String)
  (v : List CPUBucket)

theorem countP_insert_le :
    (m.insert cid v).entries.countP (fun e => decide (P e.1)) ≤
      m.entries.countP (fun e => decide (P e.1)) + if P cid then 1 else 0 := by
  rw [AList.insert_entries, List.countP_cons]
  have := (List.kerase_sublist cid m.entries).countP_le (p := fun e => decide (P e.1))
  simp only [decide_eq_true_eq]
  omega

theorem countP_insert_of_mem (h : cid ∈ m) :
    (m.insert cid v).entries.countP (fun e => decide (P e.1)) = m.entries.countP (fun e => decide (P e.1)) := by
  obtain ⟨v₀, hv₀⟩ := Option.isSome_iff_exists.1 (AList.lookup_isSome.2 h)
  rw [(entries_perm_of_lookup hv₀).countP_eq, AList.insert_entries, List.countP_cons, List.countP_cons]

theorem countP_erase {v : List CPUBucket} (h : m.lookup cid = some v) :
    (m.erase cid).entries.countP (fun e => decide (P e.1)) + (if P cid then 1 else 0) =
      m.entries.countP (fun e => decide (P e.1)) := by
  rw [(entries_perm_of_lookup h).countP_eq, List.countP_cons]
  simp only [decide_eq_true_eq]
  rfl

end Count

/-- Counts that covered the listed containers still do after the count of bucket `k` moves to `n`,
when the containers counted in `k` grew by at most the move and no other bucket gained any. -/
theorem counted_insert {C C' : Int → Nat} {m : AList fun _ : Int => Int} {k n : Int}
    (h : ∀ k', (C k' : Int) ≤ lookupD m k' 0) (hk : (C' k : Int) - C k ≤ n - lookupD m k 0)
    (hne : ∀ k', k' ≠ k → C' k' ≤ C k') (k' : Int) : (C' k' : Int) ≤ lookupD (m.insert k n) k' 0 := by
  have := h k'
  rw [lookupD_insert]
  split_ifs with e
  · subst e; omega
  · have := hne k' e; omega

namespace NumaPerNamespaceAllocator

variable (a : NumaPerNamespaceAllocator)

/-! ### The cpus of a bucket -/

/-- The cpus of the bucket `getBucket` returns for a namespace; none when it fails. -/
def bucketCpus (s : DaemonState) (b : NamespaceBuckets) (ns : String) : List Int :=
  match a.getBucket s b ns with
  | .ok bucket => bucket.map s.topology.topology.valueAt
  | .error _ => []

theorem bucketCpus_of_ok {s : DaemonState} {b : NamespaceBuckets} {ns : String} {bucket : List (List Nat)}
    (h : a.getBucket s b ns = .ok bucket) : a.bucketCpus s b ns = bucket.map s.topology.topology.valueAt := by
  simp [bucketCpus, h]

/-- A tree of the same shape has the same buckets. -/
theorem bucketCpus_setTopology (s : DaemonState) (b : NamespaceBuckets) (ns : String) {nt : NumaTopology}
    (ht : nt.topology.skeleton = s.topology.topology.skeleton) :
    a.bucketCpus { s with topology := nt } b ns = a.bucketCpus s b ns := by
  have hv : nt.topology.valueAt = s.topology.topology.valueAt := funext (valueAt_of_skeleton ht)
  simp only [bucketCpus, getBucket, getLeafs_skeleton ht, hv]

theorem lookup_of_mem_bucketCpus {s : DaemonState} {b : NamespaceBuckets} {ns : String} {x : Int}
    (h : x ∈ a.bucketCpus s b ns) : ∃ k, b.namespaceToBucket.lookup ns = some k := by
  simp only [bucketCpus, getBucket] at h
  cases hl : b.namespaceToBucket.lookup ns with
  | none => simp [hl] at h
  | some k => exact ⟨k, rfl⟩

/-- Maps that send the namespace to the same index give it the same bucket. -/
theorem bucketCpus_of_lookup (s : DaemonState) {b b' : NamespaceBuckets} {ns : String}
    (hl : b'.namespaceToBucket.lookup ns = b.namespaceToBucket.lookup ns) :
    a.bucketCpus s b' ns = a.bucketCpus s b ns := by
  simp only [bucketCpus, getBucket, hl]

/-- The bucket of index `k` lies in the leaves from its start on, and, unless it is the last, in the
leaves before the start of the next one. -/
theorem bucketCpus_sub {s : DaemonState} {b : NamespaceBuckets} {ns : String} {k : Int}
    (hk : b.namespaceToBucket.lookup ns = some k) :
    (a.bucketCpus s b ns).Sublist ((s.topology.topology.getLeafs.map s.topology.topology.valueAt).drop
        ((s.topology.topology.getLeafs.length : Int) / a.numBuckets * k).toNat) ∧
      (k ≠ a.numBuckets - 1 → (a.bucketCpus s b ns).Sublist ((s.topology.topology.getLeafs.map
        s.topology.topology.valueAt).take ((s.topology.topology.getLeafs.length : Int) / a.numBuckets * (k + 1)).toNat)) := by
  simp only [bucketCpus, getBucket, hk]
  split_ifs with hlast <;> dsimp only
  · exact ⟨by rw [List.map_drop], fun h => absurd hlast h⟩
  · refine ⟨?_, fun _ => ?_⟩
    · rw [List.map_drop, List.map_take, List.drop_take]
      exact List.take_sublist _ _
    · rw [List.map_drop, List.map_take]
      exact List.drop_sublist _ _

/-- When `GetLeafs` reads distinct ids, the buckets of two indices hold different cpus. -/
theorem bucketCpus_disjoint {s : DaemonState} {b : NamespaceBuckets} {ns ns' : String} {k k' : Int}
    (hnd : (s.topology.topology.getLeafs.map s.topology.topology.valueAt).Nodup)
    (hr : 0 ≤ k ∧ k < a.numBuckets) (hr' : 0 ≤ k' ∧ k' < a.numBuckets)
    (hk : b.namespaceToBucket.lookup ns = some k) (hk' : b.namespaceToBucket.lookup ns' = some k') (hne : k ≠ k') :
    (a.bucketCpus s b ns).Disjoint (a.bucketCpus s b ns') := by
  have hsize : 0 ≤ (s.topology.topology.getLeafs.length : Int) / a.numBuckets :=
    Int.ediv_nonneg (Int.ofNat_nonneg _) a.numBuckets_pos.le
  have key : ∀ {ns ns' k k'}, b.namespaceToBucket.lookup ns = some k → b.namespaceToBucket.lookup ns' = some k' →
      0 ≤ k → k < k' → k' < a.numBuckets → (a.bucketCpus s b ns).Disjoint (a.bucketCpus s b ns') := by
    intro ns ns' k k' hk hk' h0 hlt hlt'
    have h1 := (@bucketCpus_sub a s _ _ _ hk).2 (by omega)
    have h2 := (@bucketCpus_sub a s _ _ _ hk').1
    have hle : ((s.topology.topology.getLeafs.length : Int) / a.numBuckets * (k + 1)).toNat ≤
        ((s.topology.topology.getLeafs.length : Int) / a.numBuckets * k').toNat := by
      have := Int.mul_le_mul_of_nonneg_left (show k + 1 ≤ k' by omega) hsize
      omega
    exact List.disjoint_of_subset_left h1.subset
      (List.disjoint_of_subset_right h2.subset (List.disjoint_take_drop hnd hle))
  rcases Int.lt_or_gt_of_ne hne with hlt | hlt
  · exact key hk hk' hr.1 hlt hr'.2
  · exact fun x hx hx' => key hk' hk hr'.1 hlt hr.2 hx' hx

/-! ### The invariant -/

/-- The containers listed in `Allocated` whose namespace, that of the pod `podOf` gives their id,
the maps send to bucket `k`. -/
def countIn (podOf nsOf : String → String) (b : NamespaceBuckets) (s : DaemonState) (k : Int) : Nat :=
  s.allocated.entries.countP fun e => decide (b.namespaceToBucket.lookup (nsOf (podOf e.1)) = some k)

/-- The counts of the maps do not enter `countIn`. -/
@[simp] theorem countIn_setCounts (podOf nsOf : String → String) (b : NamespaceBuckets)
    (m : AList fun _ : Int => Int) (s : DaemonState) :
    countIn podOf nsOf { b with bucketToNumContainers := m } s = countIn podOf nsOf b s := rfl

/-- What the per-namespace allocator keeps, `sk` being the shape of the loaded tree, when every
container `cid` belongs to the pod `podOf cid` of namespace `nsOf (podOf cid)`. -/
structure BucketInv (sk : TopologyNode) (podOf nsOf : String → String) (s : DaemonState) (b : NamespaceBuckets) :
    Prop where
  shape : s.topology.topology.skeleton = sk
  range : ∀ ns k, b.namespaceToBucket.lookup ns = some k → 0 ≤ k ∧ k < a.numBuckets
  mapped : ∀ cid ∈ s.allocated, nsOf (podOf cid) ∈ b.namespaceToBucket
  within : ∀ cid v, s.allocated.lookup cid = some v →
    ∀ x ∈ v.flatMap CPUBucket.cpus, x ∈ a.bucketCpus s b (nsOf (podOf cid))
  counted : ∀ k, (countIn podOf nsOf b s k : Int) ≤ lookupD b.bucketToNumContainers k 0

namespace BucketInv

variable {a} {sk : TopologyNode} {podOf nsOf : String → String} {s : DaemonState} {b : NamespaceBuckets}

theorem mem_of_lookup {m : AList fun _ : String => List CPUBucket} {cid : String} {v : List CPUBucket}
    (h : m.lookup cid = some v) : cid ∈ m :=
  AList.lookup_isSome.1 (by rw [h]; rfl)

/-- Every entry of `Allocated` lies in its bucket. -/
theorem entries (h : a.BucketInv sk podOf nsOf s b) :
    ∀ e ∈ s.allocated.entries, e.1 ∈ s.allocated ∧
      ∀ x ∈ e.2.flatMap CPUBucket.cpus, x ∈ a.bucketCpus s b (nsOf (podOf e.1)) := fun e he =>
  have hl : s.allocated.lookup e.1 = some e.2 := AList.mem_lookup_iff.2 he
  ⟨mem_of_lookup hl, h.within e.1 e.2 hl⟩

/-- A tree of the same shape. -/
theorem setTopology (h : a.BucketInv sk podOf nsOf s b) {nt : NumaTopology}
    (ht : nt.topology.skeleton = s.topology.topology.skeleton) : a.BucketInv sk podOf nsOf { s with topology := nt } b where
  shape := ht.trans h.shape
  range := h.range
  mapped := h.mapped
  within cid v hv x hx := by rw [a.bucketCpus_setTopology s b _ ht]; exact h.within cid v hv x hx
  counted := h.counted

/-- `newNamespace` maps a namespace none of the listed containers belongs to. -/
theorem newNamespace (h : a.BucketInv sk podOf nsOf s b) {ns : String} (hns : ns ∉ b.namespaceToBucket) :
    a.BucketInv sk podOf nsOf s (a.newNamespace b ns) := by
  have hl : ∀ cid ∈ s.allocated, (a.newNamespace b ns).namespaceToBucket.lookup (nsOf (podOf cid)) =
      b.namespaceToBucket.lookup (nsOf (podOf cid)) := fun cid hc =>
    AList.lookup_insert_ne fun he => hns (he ▸ h.mapped cid hc)
  refine ⟨h.shape, fun ns' k hk => ?_, fun cid hc => AList.mem_insert _ |>.2 (.inr (h.mapped cid hc)),
    fun cid v hv x hx => ?_, fun k => ?_⟩
  · by_cases e : ns' = ns
    · subst e
      simp only [NumaPerNamespaceAllocator.newNamespace, AList.lookup_insert, Option.some.injEq] at hk
      subst hk
      exact ⟨Int.emod_nonneg _ a.numBuckets_pos.ne', Int.emod_lt_of_pos _ a.numBuckets_pos⟩
    · exact h.range ns' k (by rwa [NumaPerNamespaceAllocator.newNamespace, AList.lookup_insert_ne e] at hk)
  · rw [a.bucketCpus_of_lookup s (hl cid (mem_of_lookup hv))]
    exact h.within cid v hv x hx
  · have : countIn podOf nsOf (a.newNamespace b ns) s k = countIn podOf nsOf b s k :=
      List.countP_congr fun e he => by rw [hl e.1 (List.mem_keys_of_mem he)]
    rw [this]
    exact h.counted k

/-- A count may grow. -/
theorem bump (h : a.BucketInv sk podOf nsOf s b) (k : Int) :
    a.BucketInv sk podOf nsOf s
      { b with bucketToNumContainers := b.bucketToNumContainers.insert k (lookupD b.bucketToNumContainers k 0 + 1) } where
  shape := h.shape
  range := h.range
  mapped := h.mapped
  within := h.within
  counted := counted_insert h.counted (by rw [countIn_setCounts]; omega) fun _ _ => le_rfl

/-- Listing a container in its bucket, counted in the bucket of its namespace. -/
theorem assign (h : a.BucketInv sk podOf nsOf s b) {cid : String} {k : Int}
    (hk : b.namespaceToBucket.lookup (nsOf (podOf cid)) = some k) {v : List CPUBucket}
    (hv : ∀ x ∈ v.flatMap CPUBucket.cpus, x ∈ a.bucketCpus s b (nsOf (podOf cid))) :
    a.BucketInv sk podOf nsOf { s with allocated := s.allocated.insert cid v }
      { b with bucketToNumContainers := b.bucketToNumContainers.insert k (lookupD b.bucketToNumContainers k 0 + 1) } where
  shape := h.shape
  range := h.range
  mapped cid' hc := by
    rcases (AList.mem_insert _).1 hc with rfl | hc
    · exact AList.lookup_isSome.1 (by rw [hk]; rfl)
    · exact h.mapped cid' hc
  within cid' v' hv' := by
    by_cases e : cid' = cid
    · subst e
      rw [AList.lookup_insert, Option.some.injEq] at hv'
      exact hv' ▸ hv
    · rw [AList.lookup_insert_ne e] at hv'
      exact h.within cid' v' hv'
  counted := counted_insert h.counted
    (by
      have := countP_insert_le (fun cid => b.namespaceToBucket.lookup (nsOf (podOf cid)) = some k) s.allocated cid v
      rw [if_pos hk] at this
      simp only [countIn] at this ⊢
      omega)
    fun k' e => by
      have := countP_insert_le (fun cid => b.namespaceToBucket.lookup (nsOf (podOf cid)) = some k') s.allocated cid v
      rw [if_neg (by rw [hk]; simpa using Ne.symm e)] at this
      simpa only [countIn] using this

/-- Re-pinning a listed container inside its bucket. -/
theorem repin (h : a.BucketInv sk podOf nsOf s b) {cid : String} (hc : cid ∈ s.allocated) {v : List CPUBucket}
    (hv : ∀ x ∈ v.flatMap CPUBucket.cpus, x ∈ a.bucketCpus s b (nsOf (podOf cid))) :
    a.BucketInv sk podOf nsOf { s with allocated := s.allocated.insert cid v } b where
  shape := h.shape
  range := h.range
  mapped cid' hc' := by
    rcases (AList.mem_insert _).1 hc' with rfl | hc'
    exacts [h.mapped cid' hc, h.mapped cid' hc']
  within cid' v' hv' := by
    by_cases e : cid' = cid
    · subst e
      rw [AList.lookup_insert, Option.some.injEq] at hv'
      exact hv' ▸ hv
    · rw [AList.lookup_insert_ne e] at hv'
      exact h.within cid' v' hv'
  counted k := by
    have := countP_insert_of_mem (fun cid => b.namespaceToBucket.lookup (nsOf (podOf cid)) = some k) s.allocated cid v hc
    simp only [countIn] at this ⊢
    rw [this]
    exact h.counted k

/-- Dropping a listed container. -/
theorem release (h : a.BucketInv sk podOf nsOf s b) {cid : String} {v : List CPUBucket}
    (hv : s.allocated.lookup cid = some v) : a.BucketInv sk podOf nsOf { s with allocated := s.allocated.erase cid } b where
  shape := h.shape
  range := h.range
  mapped cid' hc := h.mapped cid' (AList.mem_erase.1 hc).2
  within cid' v' hv' := by
    by_cases e : cid' = cid
    · subst e; simp at hv'
    · rw [AList.lookup_erase_ne e] at hv'
      exact h.within cid' v' hv'
  counted k := by
    have := countP_erase (fun cid => b.namespaceToBucket.lookup (nsOf (podOf cid)) = some k) s.allocated cid hv
    have h2 := h.counted k
    simp only [countIn] at this h2 ⊢
    split_ifs at this <;> omega

/-- Dropping a listed container and lowering the count of its namespace's bucket. -/
theorem releaseCounted (h : a.BucketInv sk podOf nsOf s b) {cid : String} {v : List CPUBucket} {k : Int}
    (hv : s.allocated.lookup cid = some v) (hk : b.namespaceToBucket.lookup (nsOf (podOf cid)) = some k) :
    a.BucketInv sk podOf nsOf { s with allocated := s.allocated.erase cid }
      { b with bucketToNumContainers := b.bucketToNumContainers.insert k (lookupD b.bucketToNumContainers k 0 - 1) } where
  shape := (h.release hv).shape
  range := h.range
  mapped := (h.release hv).mapped
  within := (h.release hv).within
  counted := counted_insert h.counted
    (by
      have := countP_erase (fun cid => b.namespaceToBucket.lookup (nsOf (podOf cid)) = some k) s.allocated cid hv
      rw [if_pos hk] at this
      simp only [countIn] at this ⊢
      omega)
    fun k' _ => by
      have := countP_erase (fun cid => b.namespaceToBucket.lookup (nsOf (podOf cid)) = some k') s.allocated cid hv
      simp only [countIn] at this ⊢
      omega

theorem freeNamespace_of_le {b : NamespaceBuckets} {ns : String}
    (h : lookupD b.bucketToNumContainers (lookupD b.namespaceToBucket ns 0) 0 ≤ 0) :
    NumaPerNamespaceAllocator.freeNamespace b ns = (none, { b with
      bucketToNumContainers := b.bucketToNumContainers.erase (lookupD b.namespaceToBucket ns 0)
      namespaceToBucket := b.namespaceToBucket.erase ns }) := by
  simp only [NumaPerNamespaceAllocator.freeNamespace]
  rw [if_neg (by omega)]

/-- `freeNamespace` forgets a namespace whose bucket counts no container: none is listed. -/
theorem freeNamespace (h : a.BucketInv sk podOf nsOf s b) {ns : String} {k : Int}
    (hk : b.namespaceToBucket.lookup ns = some k) (h0 : lookupD b.bucketToNumContainers k 0 = 0) :
    a.BucketInv sk podOf nsOf s (NumaPerNamespaceAllocator.freeNamespace b ns).2 := by
  have hnone : ∀ cid ∈ s.allocated, nsOf (podOf cid) ≠ ns := by
    intro cid hc he
    have h1 := h.counted k
    rw [h0] at h1
    have h2 : countIn podOf nsOf b s k = 0 := by omega
    obtain ⟨v, hv⟩ := Option.isSome_iff_exists.1 (AList.lookup_isSome.2 hc)
    exact List.countP_eq_zero.1 h2 ⟨cid, v⟩ (AList.mem_lookup_iff.1 hv) (by simp only [decide_eq_true_eq]; rw [he]; exact hk)
  have hl : ∀ cid ∈ s.allocated, (b.namespaceToBucket.erase ns).lookup (nsOf (podOf cid)) =
      b.namespaceToBucket.lookup (nsOf (podOf cid)) := fun cid hc => AList.lookup_erase_ne (hnone cid hc)
  have hkD : lookupD b.namespaceToBucket ns 0 = k := by simp [lookupD, hk]
  rw [freeNamespace_of_le (by rw [hkD, h0]), hkD]
  refine ⟨h.shape, fun ns' k' hk' => h.range ns' k' ?_, fun cid hc => AList.mem_erase.2 ⟨hnone cid hc, h.mapped cid hc⟩,
    fun cid v hv x hx => ?_, fun k' => ?_⟩
  · by_cases e : ns' = ns
    · subst e; simp at hk'
    · rwa [AList.lookup_erase_ne e] at hk'
  · rw [a.bucketCpus_of_lookup s (hl cid (mem_of_lookup hv))]
    exact h.within cid v hv x hx
  · have : countIn podOf nsOf
        { b with
          bucketToNumContainers := b.bucketToNumContainers.erase k
          namespaceToBucket := b.namespaceToBucket.erase ns } s k' = countIn podOf nsOf b s k' :=
      List.countP_congr fun e he => by simp only [hl e.1 (List.mem_keys_of_mem he)]
    rw [this, lookupD_erase]
    have := h.counted k'
    split_ifs with e
    · subst e; omega
    · exact this

/-- The re-pinning loop keeps the invariant when every new list lies in the old one and in `V`,
and `V` lies in the bucket of the namespace whose containers it re-pins, if that one is mapped. -/
theorem repinLoop {change : CPUSet → CPUSet} (V : List Int) (hch : ∀ S x, x ∈ change S → x ∈ S ∨ x ∈ V)
    (env : Env) (ns : String) :
    ∀ (l : List (Sigma fun _ : String => List CPUBucket)) (d : Daemon), a.BucketInv sk podOf nsOf d.state d.buckets →
      (Owners.ofMaps podOf nsOf).Pods d.state.pods →
      (ns ∈ d.buckets.namespaceToBucket → ∀ x ∈ V, x ∈ a.bucketCpus d.state d.buckets ns) →
      (∀ e ∈ l, e.1 ∈ d.state.allocated ∧
        ∀ x ∈ e.2.flatMap CPUBucket.cpus, x ∈ a.bucketCpus d.state d.buckets (nsOf (podOf e.1))) →
      a.BucketInv sk podOf nsOf (a.repinLoop change env ns l d).2.state (a.repinLoop change env ns l d).2.buckets
  | [], _, h, _, _, _ => h
  | ⟨cid, v⟩ :: rest, d, h, hpods, hV, hl => by
    have hl' := fun e (he : e ∈ rest) => hl e (List.mem_cons_of_mem _ he)
    obtain ⟨hcid, hvb⟩ := hl _ (List.mem_cons_self _ _)
    simp only [NumaPerNamespaceAllocator.repinLoop]
    split
    · exact repinLoop V hch env ns rest d h hpods hV hl'
    next c hf =>
      split_ifs with hcond
      · exact repinLoop V hch env ns rest d h hpods hV hl'
      have hns : nsOf (podOf cid) = ns := by
        rw [Owners.ofMaps_findContainer hpods hf]; exact not_not.1 (not_or.1 hcond).1
      split
      next err d' he =>
        obtain ⟨h1, h2⟩ := Daemon.updateCPUSet_eq he
        rw [h1, h2]; exact h
      next d' he =>
        obtain ⟨h1, h2⟩ := Daemon.updateCPUSet_eq he
        have hnew : ∀ x ∈ (change (cpuSetFromBucketList v)).toBucketList.flatMap CPUBucket.cpus,
            x ∈ a.bucketCpus d.state d.buckets (nsOf (podOf cid)) := fun x hx => by
          rcases hch _ x (CPUSet.mem_flatMap_toBucketList.1 hx) with hx | hx
          · exact hvb x (List.mem_flatMap.2 (mem_cpuSetFromBucketList.1 hx))
          · rw [hns]; exact hV (hns ▸ h.mapped cid hcid) x hx
        refine repinLoop V hch env ns rest _ ?_ ?_ ?_ ?_ <;>
          simp only [Daemon.setState_state, Daemon.setState_buckets, h1, h2]
        · exact h.repin hcid hnew
        · exact hpods
        · exact hV
        · exact fun e he => ⟨(AList.mem_insert _).2 (.inr (hl' e he).1), (hl' e he).2⟩

variable {d : Daemon}

/-- A take keeps the invariant: the bucket of a new namespace is fresh, and the cpus taken are those
of positions of the namespace's bucket. -/
theorem takeCpus (h : a.BucketInv sk podOf nsOf d.state d.buckets) (hpods : (Owners.ofMaps podOf nsOf).Pods d.state.pods)
    (env : Env) {c : Container} (hc : podOf c.cid = c.pid) :
    a.BucketInv sk podOf nsOf (a.takeCpus env c d).2.state (a.takeCpus env c d).2.buckets := by
  simp only [NumaPerNamespaceAllocator.takeCpus, Daemon.setState_state, Daemon.setState_buckets]
  split
  · exact h
  split
  · exact h
  next pm hpm =>
  have hns : nsOf (podOf c.cid) = pm.podNamespace := by rw [hc]; exact (hpods _ _ hpm).1.symm
  generalize hd1 : (if pm.podNamespace ∈ d.buckets.namespaceToBucket then d
    else { d with buckets := a.newNamespace d.buckets pm.podNamespace }) = d1
  have hs : d1.state = d.state := by rw [← hd1]; split_ifs <;> rfl
  have hpods1 : (Owners.ofMaps podOf nsOf).Pods d1.state.pods := by rw [hs]; exact hpods
  have h1 : a.BucketInv sk podOf nsOf d1.state d1.buckets := by
    rw [← hd1]; split_ifs with hm
    · exact h
    · exact h.newNamespace hm
  have hm1 : pm.podNamespace ∈ d1.buckets.namespaceToBucket := by
    rw [← hd1]; split_ifs with hm
    · exact hm
    · exact (AList.mem_insert _).2 (.inl rfl)
  obtain ⟨k, hk⟩ := Option.isSome_iff_exists.1 (AList.lookup_isSome.2 hm1)
  have hkD : lookupD d1.buckets.namespaceToBucket pm.podNamespace 0 = k := by simp [lookupD, hk]
  split
  · exact h1
  next bucket hb =>
  simp only [hkD]
  have hspec : (if c.qs = .guaranteed then takeGuaranteedCpusFromBucket d1.state.topology.topology bucket c
        else (.ok (a.takeAllCpusFromBucket d1.state.topology.topology bucket), d1.state.topology.topology)).2.skeleton =
        d1.state.topology.topology.skeleton ∧
      ∀ ids, (if c.qs = .guaranteed then takeGuaranteedCpusFromBucket d1.state.topology.topology bucket c
        else (.ok (a.takeAllCpusFromBucket d1.state.topology.topology bucket), d1.state.topology.topology)).1 = .ok ids →
        ∀ x ∈ ids, x ∈ bucket.map d1.state.topology.topology.valueAt := by
    split_ifs
    · exact takeGuaranteedCpusFromBucket_spec _ _ _
    · exact ⟨rfl, fun ids hids => by cases hids; exact a.takeAllCpusFromBucket_sub _ _⟩
  generalize (if c.qs = .guaranteed then takeGuaranteedCpusFromBucket d1.state.topology.topology bucket c
    else (.ok (a.takeAllCpusFromBucket d1.state.topology.topology bucket), d1.state.topology.topology)) = rt at hspec ⊢
  obtain ⟨r, t⟩ := rt
  obtain ⟨ht, hids⟩ := hspec
  split
  · exact (h1.bump k).setTopology ht
  next ids hr =>
  have h2 : a.BucketInv sk podOf nsOf { d1.state with topology := { d1.state.topology with topology := t } } d1.buckets :=
    h1.setTopology ht
  have h3 := h2.assign (by rw [hns]; exact hk) (v := ids.map fun cpu => ⟨cpu, cpu⟩) fun x hx => by
      rw [CPUBucket.flatMap_cpus_single] at hx
      rw [a.bucketCpus_setTopology _ _ _ ht, hns, a.bucketCpus_of_ok hb]
      exact hids ids hr x hx
  split
  next err d' he =>
    obtain ⟨e1, e2⟩ := Daemon.updateCPUSet_eq he
    rw [e1, e2]; exact h3
  next d' he =>
    obtain ⟨e1, e2⟩ := Daemon.updateCPUSet_eq he
    split_ifs
    · exact repinLoop [] (fun S x hx => .inl (CPUSet.mem_removeAll.1 hx).1) env _ _ d' (by rw [e1, e2]; exact h3)
        (by rw [e1]; exact hpods1) (fun _ x hx => absurd hx (List.not_mem_nil x)) (by rw [e1, e2]; exact h3.entries)
    · rw [e1, e2]; exact h3

/-- A free keeps the invariant: the count of the bucket still covers the listed containers, a
namespace is forgotten only when none of them is left, and the cpus given back to the namespace's
other containers are the freed container's, in the same bucket. -/
theorem freeCpus (h : a.BucketInv sk podOf nsOf d.state d.buckets) (hpods : (Owners.ofMaps podOf nsOf).Pods d.state.pods)
    (env : Env) {c : Container} (hc : podOf c.cid = c.pid) :
    a.BucketInv sk podOf nsOf (a.freeCpus env c d).2.state (a.freeCpus env c d).2.buckets := by
  simp only [NumaPerNamespaceAllocator.freeCpus, Daemon.setState_state, Daemon.setState_buckets]
  split
  · exact h
  next v hv =>
  split
  · exact h.release hv
  next pm hpm =>
  have hns : nsOf (podOf c.cid) = pm.podNamespace := by rw [hc]; exact (hpods _ _ hpm).1.symm
  obtain ⟨k, hk⟩ := Option.isSome_iff_exists.1 (AList.lookup_isSome.2 (h.mapped c.cid (mem_of_lookup hv)))
  rw [hns] at hk
  have hkD : lookupD d.buckets.namespaceToBucket pm.podNamespace 0 = k := by simp [lookupD, hk]
  simp only [hkD]
  have h2 := h.releaseCounted hv (by rw [hns]; exact hk)
  generalize heb : (if lookupD d.buckets.bucketToNumContainers k 0 - 1 = 0 then
      NumaPerNamespaceAllocator.freeNamespace { d.buckets with
        bucketToNumContainers := d.buckets.bucketToNumContainers.insert k (lookupD d.buckets.bucketToNumContainers k 0 - 1) }
        pm.podNamespace
    else (none, { d.buckets with
      bucketToNumContainers := d.buckets.bucketToNumContainers.insert k (lookupD d.buckets.bucketToNumContainers k 0 - 1) })) = eb
  have h3 : a.BucketInv sk podOf nsOf { d.state with allocated := d.state.allocated.erase c.cid } eb.2 := by
    rw [← heb]
    split_ifs with h0
    · exact h2.freeNamespace hk (by rw [lookupD_insert, if_pos rfl]; exact h0)
    · exact h2
  have h3m : pm.podNamespace ∈ eb.2.namespaceToBucket → eb.2.namespaceToBucket.lookup pm.podNamespace = some k := by
    rw [← heb]
    split_ifs with h0
    · rw [freeNamespace_of_le (by rw [hkD, lookupD_insert, if_pos rfl]; omega)]
      intro hm
      exact absurd rfl (AList.mem_erase.1 hm).1
    · exact fun _ => hk
  obtain ⟨err, b3⟩ := eb
  split
  · exact h3
  have hsk := NumaTopology.skeleton_returnCpus d.state.topology (v.flatMap CPUBucket.cpus)
  split
  next e nt he =>
    rw [he] at hsk
    simp only [Daemon.setState_state, Daemon.setState_buckets]
    exact h3.setTopology hsk
  next nt he =>
    rw [he] at hsk
    have h4 := h3.setTopology hsk
    have hV : pm.podNamespace ∈ b3.namespaceToBucket → ∀ x ∈ cpuSetFromBucketList v,
        x ∈ a.bucketCpus { { d.state with allocated := d.state.allocated.erase c.cid } with topology := nt } b3
          pm.podNamespace := fun hm x hx => by
      have hx' := h.within c.cid v hv x (List.mem_flatMap.2 (mem_cpuSetFromBucketList.1 hx))
      rw [hns] at hx'
      rw [a.bucketCpus_setTopology { d.state with allocated := d.state.allocated.erase c.cid } _ _ hsk,
        a.bucketCpus_of_lookup _ ((h3m hm).trans hk.symm)]
      exact hx'
    split_ifs
    · exact repinLoop (cpuSetFromBucketList v) (fun S x hx => CPUSet.mem_merge.1 hx) env _ _ _ h4 hpods hV h4.entries
    · simp only [Daemon.setState_state, Daemon.setState_buckets]
      exact h4

/-- The per-namespace allocator keeps the invariant under the discipline of the maps. -/
theorem keeps (a : NumaPerNamespaceAllocator) (sk : TopologyNode) (podOf nsOf : String → String) :
    (Allocator.numaPerNamespace a).Keeps (Owners.ofMaps podOf nsOf) (a.BucketInv sk podOf nsOf) where
  take env _ _ _ _ hc hpods h := h.takeCpus hpods env (hc.2.trans hc.1.symm)
  free env _ _ _ hc hpods h := h.freeCpus hpods env (hc.2.trans hc.1.symm)
  pods _ _ _ h := ⟨h.shape, h.range, h.mapped, h.within, h.counted⟩

/-- A freshly started daemon has nothing listed and no namespace mapped. -/
theorem fresh (cpus : List CpuInfo) (ranges : List CPUBucket) :
    a.BucketInv (NumaTopology.loadFromCpuInfo cpus).topology.skeleton podOf nsOf (Daemon.fresh cpus ranges).state
      (Daemon.fresh cpus ranges).buckets where
  shape := rfl
  range _ _ h := by simp [Daemon.fresh, NamespaceBuckets.empty] at h
  mapped _ h := by simp [Daemon.fresh] at h
  within _ _ h := by simp [Daemon.fresh] at h
  counted _ := by simp [Daemon.fresh, countIn, lookupD, NamespaceBuckets.empty]

/-- The tree keeps its shape, so `GetLeafs` reads distinct ids when the loaded tree had them. -/
theorem nodup (h : a.BucketInv sk podOf nsOf s b) (hnd : (sk.leaves.map value).Nodup) :
    (s.topology.topology.getLeafs.map s.topology.topology.valueAt).Nodup := by
  rw [← h.shape, map_value_leaves_skeleton] at hnd
  exact (getLeafs_perm _).nodup_iff.2 hnd

end BucketInv

/-! ### Isolation -/

/-- Every cpu listed for a container of a stored pod lies in the bucket `getBucket` returns for the
pod's namespace. -/
def InBuckets (s : DaemonState) (b : NamespaceBuckets) : Prop :=
  ∀ e ∈ s.pods.entries, ∀ c ∈ e.2.containers, ∀ x ∈ (lookupD s.allocated c.cid []).flatMap CPUBucket.cpus,
    x ∈ a.bucketCpus s b e.2.podNamespace

instance (s : DaemonState) (b : NamespaceBuckets) : Decidable (a.InBuckets s b) :=
  inferInstanceAs (Decidable (∀ e ∈ _, _))

/-- Containers of stored pods whose namespaces the maps send to different buckets hold disjoint
cpus. -/
def BucketsDisjoint (s : DaemonState) (b : NamespaceBuckets) : Prop :=
  ∀ e ∈ s.pods.entries, ∀ e' ∈ s.pods.entries,
    b.namespaceToBucket.lookup e.2.podNamespace ≠ b.namespaceToBucket.lookup e'.2.podNamespace →
    ∀ c ∈ e.2.containers, ∀ c' ∈ e'.2.containers, ∀ x ∈ (lookupD s.allocated c.cid []).flatMap CPUBucket.cpus,
      x ∉ (lookupD s.allocated c'.cid []).flatMap CPUBucket.cpus

instance (s : DaemonState) (b : NamespaceBuckets) : Decidable (BucketsDisjoint s b) :=
  inferInstanceAs (Decidable (∀ e ∈ _, _))

namespace BucketInv

variable {a} {sk : TopologyNode} {podOf nsOf : String → String} {s : DaemonState} {b : NamespaceBuckets}

/-- Under the invariant and the discipline, the containers of the stored pods keep inside their
namespace's bucket. -/
theorem inBuckets (h : a.BucketInv sk podOf nsOf s b) (hpods : (Owners.ofMaps podOf nsOf).Pods s.pods) :
    a.InBuckets s b := by
  intro e he c hc x hx
  obtain ⟨hns, hown⟩ := hpods e.1 e.2 (AList.mem_lookup_iff.2 he)
  have hpod : nsOf (podOf c.cid) = e.2.podNamespace := by rw [(hown c hc).2]; exact hns.symm
  cases hv : s.allocated.lookup c.cid with
  | none => simp [lookupD, hv] at hx
  | some v =>
    rw [← hpod]
    exact h.within c.cid v hv x (by simpa [lookupD, hv] using hx)

/-- Two buckets of different indices hold different cpus, so the containers in them do too. -/
theorem bucketsDisjoint (h : a.BucketInv sk podOf nsOf s b) (hpods : (Owners.ofMaps podOf nsOf).Pods s.pods)
    (hnd : (sk.leaves.map value).Nodup) : BucketsDisjoint s b := by
  intro e he e' he' hne c hc c' hc' x hx hx'
  have h1 := h.inBuckets hpods e he c hc x hx
  have h2 := h.inBuckets hpods e' he' c' hc' x hx'
  obtain ⟨k, hk⟩ := a.lookup_of_mem_bucketCpus h1
  obtain ⟨k', hk'⟩ := a.lookup_of_mem_bucketCpus h2
  rw [hk, hk'] at hne
  exact a.bucketCpus_disjoint (h.nodup hnd) (h.range _ _ hk) (h.range _ _ hk') hk hk' (fun e => hne (e ▸ rfl)) h1 h2

end BucketInv

/-- The per-namespace allocator with two buckets, outside exclusive mode. -/
def twoBuckets : NumaPerNamespaceAllocator := ⟨2, false, false, by decide⟩

/-- Pod `p1` of namespace `"a"` and pod `p2` of namespace `"b"`, both listing a burstable
container `"x"`, on two cpus. -/
def sharedIdRun : Daemon :=
  Daemon.run (.numaPerNamespace twoBuckets) Env.ok
    [.createPod ⟨"p1", "p1", "a", ⟨0, 0, 0, 0⟩, [burstableInfo "x"]⟩,
      .createPod ⟨"p2", "p2", "b", ⟨0, 0, 0, 0⟩, [burstableInfo "x"]⟩] (Daemon.fresh twoCpuInfos [])

/-- After `sharedIdRun` the one entry of `"x"` holds the cpu of bucket 1, which is outside the
bucket 0 of namespace `"a"`, and the two pods' containers share it. -/
theorem sharedContainerId_leaves_bucket :
    (lookupD sharedIdRun.state.pods "p1" .zero).containers.map (·.cid) = ["x"] ∧
      (lookupD sharedIdRun.state.pods "p2" .zero).containers.map (·.cid) = ["x"] ∧
      lookupD sharedIdRun.state.allocated "x" [] = [⟨1, 1⟩] ∧
      ¬twoBuckets.InBuckets sharedIdRun.state sharedIdRun.buckets ∧ ¬BucketsDisjoint sharedIdRun.state sharedIdRun.buckets := by
  decide

/-- From a tree loaded from distinct cpus, every run of requests in which every container id
belongs to one pod and every pod id to one namespace, whatever each write returns, keeps the
containers of the stored pods inside their namespaces' buckets and apart across buckets. -/
theorem numaPerNamespace_run_isolated (a : NumaPerNamespaceAllocator) (cpus : List CpuInfo) (ranges : List CPUBucket)
    (env : Env) (rs : List Request) (podOf nsOf : String → String) (hne : cpus ≠ [])
    (hd : (cpus.map CpuInfo.cpu).Nodup) (hrs : ∀ r ∈ rs, (Owners.ofMaps podOf nsOf).Admits r) :
    a.InBuckets (Daemon.run (.numaPerNamespace a) env rs (Daemon.fresh cpus ranges)).state
        (Daemon.run (.numaPerNamespace a) env rs (Daemon.fresh cpus ranges)).buckets ∧
      BucketsDisjoint (Daemon.run (.numaPerNamespace a) env rs (Daemon.fresh cpus ranges)).state
        (Daemon.run (.numaPerNamespace a) env rs (Daemon.fresh cpus ranges)).buckets := by
  obtain ⟨hpods, h⟩ := (BucketInv.keeps a _ podOf nsOf).run env rs _ hrs ⟨Owners.pods_empty, BucketInv.fresh cpus ranges⟩
  have hnd := (NumaTopology.loadFromCpuInfo_fresh hne hd).2.2
  rw [← map_value_leaves_skeleton] at hnd
  exact ⟨h.inBuckets hpods, h.bucketsDisjoint hpods hnd⟩

/-- Pod `p1` of namespace `"a"` with a burstable container `"x"`, and pod `p2` of namespace `"b"`
with a Guaranteed container `"y"`. -/
def twoNamespaces : List Request :=
  [.createPod ⟨"p1", "p1", "a", ⟨0, 0, 0, 0⟩, [burstableInfo "x"]⟩,
    .createPod ⟨"p2", "p2", "b", ⟨0, 0, 0, 0⟩, [guaranteedInfo "y"]⟩]

/-- The requests of `twoNamespaces` keep to the maps that give `"y"` to `p2` of namespace `"b"` and
every other id to `p1` of namespace `"a"`. -/
theorem numaPerNamespace_run_isolated_twoNamespaces :
    twoCpuInfos ≠ [] ∧ (twoCpuInfos.map CpuInfo.cpu).Nodup ∧
      (∀ r ∈ twoNamespaces, (Owners.ofMaps (fun cid => if cid = "y" then "p2" else "p1")
        fun p => if p = "p2" then "b" else "a").Admits r) ∧
      twoBuckets.InBuckets (Daemon.run (.numaPerNamespace twoBuckets) Env.ok twoNamespaces (Daemon.fresh twoCpuInfos [])).state
        (Daemon.run (.numaPerNamespace twoBuckets) Env.ok twoNamespaces (Daemon.fresh twoCpuInfos [])).buckets ∧
      BucketsDisjoint (Daemon.run (.numaPerNamespace twoBuckets) Env.ok twoNamespaces (Daemon.fresh twoCpuInfos [])).state
        (Daemon.run (.numaPerNamespace twoBuckets) Env.ok twoNamespaces (Daemon.fresh twoCpuInfos [])).buckets := by
  have hrs : ∀ r ∈ twoNamespaces, (Owners.ofMaps (fun cid => if cid = "y" then "p2" else "p1")
      fun p => if p = "p2" then "b" else "a").Admits r := by
    simp [twoNamespaces, Owners.Admits, Owners.ofMaps, containerFromRequest, burstableInfo, guaranteedInfo]
  exact ⟨by decide, by decide, hrs,
    numaPerNamespace_run_isolated twoBuckets twoCpuInfos [] Env.ok _ _ _ (by decide) (by decide) hrs⟩

/-- Along every such run the buckets stay the spec's: every mapped namespace holds an index in
`[0, N)`, and `getBucket` returns for it that index's segment of the leaves of the loaded tree. -/
theorem numaPerNamespace_run_buckets (a : NumaPerNamespaceAllocator) (cpus : List CpuInfo) (ranges : List CPUBucket)
    (env : Env) (rs : List Request) (podOf nsOf : String → String)
    (hrs : ∀ r ∈ rs, (Owners.ofMaps podOf nsOf).Admits r) (ns : String) (k : Int)
    (hk : (Daemon.run (.numaPerNamespace a) env rs (Daemon.fresh cpus ranges)).buckets.namespaceToBucket.lookup ns =
      some k) :
    0 ≤ k ∧ k < a.numBuckets ∧
      a.getBucket (Daemon.run (.numaPerNamespace a) env rs (Daemon.fresh cpus ranges)).state
          (Daemon.run (.numaPerNamespace a) env rs (Daemon.fresh cpus ranges)).buckets ns =
        .ok (bucketSegment (NumaTopology.loadFromCpuInfo cpus).topology.getLeafs a.numBuckets.toNat k.toNat) := by
  obtain ⟨-, h⟩ := (BucketInv.keeps a _ podOf nsOf).run env rs _ hrs ⟨Owners.pods_empty, BucketInv.fresh cpus ranges⟩
  obtain ⟨h0, hN⟩ := h.range ns k hk
  rw [a.getBucket_eq_bucketSegment hk h0 hN, getLeafs_skeleton h.shape]
  exact ⟨h0, hN, rfl⟩

end NumaPerNamespaceAllocator

end CpuControlPlane
