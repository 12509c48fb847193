import CpuControlPlane.Topology.Numa

/-! # Returning cpus undoes a take

`NumaTopology.Return` raises a taken leaf and every node above it by one, and leaves a free leaf
alone.  On a tree with consistent counters and distinct leaf ids:

- `returnCpu_of_free`: returning an id whose leaf is free, or that no leaf carries, changes
  nothing (no invariant is needed for this);
- `foldl_returnCpu`: returning ids one after the other frees exactly their leaves and keeps the
  shape and the counter invariant;
- `returnCpu_take_roundTrip`: `Return` keeps the invariant and is idempotent, and returning the
  ids a `Take` of `1 ≤ n ≤` the root's counter gave, in any order, gives back the topology, every
  counter included. -/

namespace CpuControlPlane

namespace NumaTopology

open TopologyNode

attribute [ext] NumaTopology

/-- Returning an id whose leaves are all free changes nothing. -/
theorem returnCpu_of_free {nt : NumaTopology} {v : Int}
    (hv : ∀ l ∈ nt.topology.leaves, l.value = v → l.numAvailable ≠ 0) : (nt.returnCpu v).2 = nt := by
  unfold returnCpu
  split
  · rfl
  next p x hfind =>
    obtain ⟨hp, hcmp⟩ := find_spec hfind
    simp only [Bool.and_eq_true, beq_iff_eq, isLeaf, List.isEmpty_iff] at hcmp
    obtain ⟨pre, suf, e1, -⟩ := leaves_addAbove_modify hp
    rw [leaves_of_children_nil hcmp.1] at e1
    rw [if_neg (hv x (by rw [e1]; simp) hcmp.2)]

/-- Returning ids one after the other frees exactly the leaves of those ids. -/
theorem foldl_returnCpu : ∀ (l : List Int) {nt : NumaTopology}, nt.topology.Wf → (nt.topology.leaves.map value).Nodup →
    (l.foldl (fun nt v => (nt.returnCpu v).2) nt).topology.leaves = markLeaves nt.topology.leaves l 1 ∧
      (l.foldl (fun nt v => (nt.returnCpu v).2) nt).topology.skeleton = nt.topology.skeleton ∧
      (l.foldl (fun nt v => (nt.returnCpu v).2) nt).topology.Wf ∧
      (l.foldl (fun nt v => (nt.returnCpu v).2) nt).cpuInformation = nt.cpuInformation
  | [], nt, hwf, _ => ⟨(markLeaves_of_disjoint 1 fun _ _ => List.not_mem_nil _).symm, rfl, hwf, rfl⟩
  | v :: l, nt, hwf, hd => by
    obtain ⟨-, c1, l1, s1, w1⟩ := returnCpu_spec (v := v) hwf hd
    obtain ⟨l2, s2, w2, c2⟩ := foldl_returnCpu l w1 (by rwa [l1, map_value_markLeaves])
    refine ⟨?_, s2.trans s1, w2, c2.trans c1⟩
    rw [List.foldl_cons, l2, l1, markLeaves_markLeaves]
    rfl

/-- **`Return` undoes `Take`.**  On a tree with consistent counters and distinct leaf ids, a
return keeps both; returning an id whose leaf is free, or that no leaf carries, changes nothing,
so returning the same id twice is returning it once.  A `Take` of `1 ≤ n ≤` the root's counter
succeeds, and returning the ids it gave, one after the other in any order, gives back the
topology. -/
theorem returnCpu_take_roundTrip (nt : NumaTopology) (hwf : nt.topology.Wf) (hd : (nt.topology.leaves.map value).Nodup) :
    (∀ v, (nt.returnCpu v).2.topology.Wf ∧ ((nt.returnCpu v).2.topology.leaves.map value).Nodup ∧
      ((∀ l ∈ nt.topology.leaves, l.value = v → l.numAvailable ≠ 0) → (nt.returnCpu v).2 = nt) ∧
      ((nt.returnCpu v).2.returnCpu v).2 = (nt.returnCpu v).2) ∧
    ∀ n, 1 ≤ n → n ≤ nt.topology.numAvailable →
      ∃ ids nt', nt.take n = (.ok ids, nt') ∧ ∀ l : List Int, l.Perm ids → l.foldl (fun nt v => (nt.returnCpu v).2) nt' = nt := by
  refine ⟨fun v => ?_, fun n hn hle => ?_⟩
  · obtain ⟨-, -, l1, -, w1⟩ := returnCpu_spec (v := v) hwf hd
    refine ⟨w1, by rwa [l1, map_value_markLeaves], returnCpu_of_free, returnCpu_of_free fun x hx hxv => ?_⟩
    rw [l1] at hx
    obtain ⟨y, -, rfl⟩ := List.mem_map.1 hx
    simp only [value_setAvailable, apply_ite value, ite_self] at hxv
    simp [hxv]
  obtain ⟨ids, t', ht, -, -, hfree, hl, hs, hw, -⟩ := NumaTopology.take_of_le hwf hd hn hle
  refine ⟨ids, _, ht, fun l hperm => ?_⟩
  obtain ⟨l2, s2, w2, c2⟩ := @foldl_returnCpu l { nt with topology := t' } hw (by rwa [hl, map_value_markLeaves])
  refine NumaTopology.ext (eq_of_skeleton_of_leaves w2 hwf (s2.trans hs) ?_) c2
  rw [l2, hl, markLeaves, markLeaves, List.map_map]
  conv_rhs => rw [← List.map_id nt.topology.leaves]
  refine List.map_congr_left fun x hx => ?_
  by_cases hx1 : x.value ∈ ids
  · obtain ⟨y, hy, hyv, hy1⟩ := hfree _ hx1
    obtain rfl := List.inj_on_of_nodup_map hd hy hx hyv
    simp [hx1, hperm.mem_iff.2 hx1, setAvailable_setAvailable, ← hy1, setAvailable_self]
  · simp [hx1, mt hperm.mem_iff.1 hx1]

/-- One of two free cpus taken and returned. -/
theorem returnCpu_take_roundTrip_twoCpus :
    twoCpus.topology.Wf ∧ (twoCpus.topology.leaves.map value).Nodup ∧
      ∃ ids nt', twoCpus.take 1 = (.ok ids, nt') ∧
        ∀ l : List Int, l.Perm ids → l.foldl (fun nt v => (nt.returnCpu v).2) nt' = twoCpus :=
  ⟨by decide, by decide, (returnCpu_take_roundTrip twoCpus (by decide) (by decide)).2 1 le_rfl (by decide)⟩

end NumaTopology

end CpuControlPlane
