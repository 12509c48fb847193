import CpuControlPlane.Topology.Tree

/-! # Taking leaves below a node

`takeLeaves n` is the recursion of `TopologyNode.takeLeaves`: at a leaf it zeroes the counter;
at an inner node it walks the children in order, skips those with no free leaf, asks each of
the others for as many leaves as it still needs (at most the child's counter), stops once `n`
leaves are collected, and lowers its own counter by `n`.

What it computes is said once, on the list of leaves: `takeFree k ls` marks the first `k` free
leaves of `ls` taken.  For a subtree satisfying the counter invariant and `1 ≤ n ≤` its
counter, `takeLeaves n` succeeds, returns exactly the leaves `takeFree` marks, leaves the
subtree's leaves as `takeFree` leaves them, keeps its skeleton and the invariant, and lowers its
counter by `n` (`takeLeaves_spec`).  The proof is one mutual induction over a node and its list
of children, with the loop's accumulator in the statement of the list half
(`takeLeavesLoop_spec`).

Below every node the leaves are then those `takeFree` marks for some count of its own
(`takeFree_get?`), so each node is lowered by the number of leaves taken below it
(`takeLeaves_correct`). -/

namespace CpuControlPlane

namespace TopologyNode

mutual
/-- `takeLeaves`: take `n` leaves of the subtree, depth-first.  Returns the taken leaves, whether
the call failed with `ErrNotAvailable`, and the subtree afterwards; on a failure inside the loop
the Go code returns the node itself as the only "leaf", with the children mutated so far. -/
def takeLeaves : TopologyNode → Int → List TopologyNode × Bool × TopologyNode
  | mk i a cs, n =>
    if n > a then ([], true, mk i a cs)
    else if cs.isEmpty then ([mk i 0 cs], false, mk i 0 cs)
    else
      match takeLeavesLoop cs n [] with
      | (leaves, false, cs') => (leaves, false, mk i (a - n) cs')
      | (_, true, cs') => ([mk i a cs'], true, mk i a cs')
/-- The loop of `takeLeaves` over the children, with the leaves collected so far. -/
def takeLeavesLoop : List TopologyNode → Int → List TopologyNode →
    List TopologyNode × Bool × List TopologyNode
  | [], _, leaves => (leaves, false, [])
  | c :: cs, n, leaves =>
    if c.numAvailable = 0 then
      let r := takeLeavesLoop cs n leaves
      (r.1, r.2.1, c :: r.2.2)
    else
      match c.takeLeaves (min (n - leaves.length) c.numAvailable) with
      | (_, true, c') => (leaves, true, c' :: cs)
      | (taken, false, c') =>
        if ((leaves ++ taken).length : Int) = n then (leaves ++ taken, false, c' :: cs)
        else
          let r := takeLeavesLoop cs n (leaves ++ taken)
          (r.1, r.2.1, c' :: r.2.2)
end

/-- The first `k` free leaves of `ls` marked taken: the marked leaves, and `ls` afterwards. -/
def takeFree : Nat → List TopologyNode → List TopologyNode × List TopologyNode
  | 0, ls => ([], ls)
  | _ + 1, [] => ([], [])
  | k + 1, l :: ls =>
    if l.numAvailable = 0 then ((takeFree (k + 1) ls).1, l :: (takeFree (k + 1) ls).2)
    else (l.setAvailable 0 :: (takeFree k ls).1, l.setAvailable 0 :: (takeFree k ls).2)

/-- Leaves whose counters are `0` or `1`, as `Wf` makes them. -/
def ZeroOne (ls : List TopologyNode) : Prop := ∀ l ∈ ls, l.numAvailable = 0 ∨ l.numAvailable = 1

@[simp] theorem takeFree_zero (ls : List TopologyNode) : takeFree 0 ls = ([], ls) := by
  cases ls <;> rfl
@[simp] theorem takeFree_nil (k : Nat) : takeFree k [] = ([], []) := by cases k <;> rfl
theorem takeFree_succ_cons (k : Nat) (l : TopologyNode) (ls : List TopologyNode) :
    takeFree (k + 1) (l :: ls) =
      if l.numAvailable = 0 then ((takeFree (k + 1) ls).1, l :: (takeFree (k + 1) ls).2)
      else (l.setAvailable 0 :: (takeFree k ls).1, l.setAvailable 0 :: (takeFree k ls).2) := rfl

@[simp] theorem zeroOne_nil : ZeroOne [] := by simp [ZeroOne]
@[simp] theorem zeroOne_cons {l : TopologyNode} {ls : List TopologyNode} :
    ZeroOne (l :: ls) ↔ (l.numAvailable = 0 ∨ l.numAvailable = 1) ∧ ZeroOne ls := by simp [ZeroOne]
@[simp] theorem zeroOne_append {ls ms : List TopologyNode} :
    ZeroOne (ls ++ ms) ↔ ZeroOne ls ∧ ZeroOne ms := by
  simp only [ZeroOne, List.mem_append]; aesop

theorem zeroOne_leaves {t : TopologyNode} (ht : t.Wf) : ZeroOne t.leaves :=
  fun _ => numAvailable_of_mem_leaves ht

/-! ### What `takeFree` does -/

theorem takeFree_append : ∀ (k : Nat) (A B : List TopologyNode),
    takeFree k (A ++ B) = ((takeFree k A).1 ++ (takeFree (k - (takeFree k A).1.length) B).1,
      (takeFree k A).2 ++ (takeFree (k - (takeFree k A).1.length) B).2)
  | 0, _, _ => by simp
  | _ + 1, [], _ => by simp
  | k + 1, l :: A, B => by
    rw [List.cons_append, takeFree_succ_cons, takeFree_succ_cons]
    split_ifs
    · simp [takeFree_append (k + 1) A B]
    · simp [takeFree_append k A B]

theorem takeFree_of_sum_zero : ∀ (k : Nat) {A : List TopologyNode}, ZeroOne A → sumAvailable A = 0 →
    takeFree k A = ([], A)
  | 0, _, _, _ => by simp
  | _ + 1, [], _, _ => by simp
  | k + 1, l :: A, h, hs => by
    simp only [zeroOne_cons, sumAvailable_cons] at h hs
    have := sumAvailable_nonneg h.2
    have hl : l.numAvailable = 0 := by omega
    rw [takeFree_succ_cons, if_pos hl, takeFree_of_sum_zero (k + 1) h.2 (by omega)]

/-- `takeFree k` marks `min k (free leaves)` leaves, lowers the count of free leaves by as many and
keeps the counters `0` or `1`. -/
theorem takeFree_counts : ∀ (k : Nat) {A : List TopologyNode}, ZeroOne A →
    ((takeFree k A).1.length : Int) = min (k : Int) (sumAvailable A) ∧
      sumAvailable (takeFree k A).2 = sumAvailable A - (takeFree k A).1.length ∧ ZeroOne (takeFree k A).2
  | 0, A, h => by have := sumAvailable_nonneg h; simp [h]; omega
  | _ + 1, [], _ => by simp; omega
  | k + 1, l :: A, h => by
    simp only [zeroOne_cons] at h
    rw [takeFree_succ_cons]
    split_ifs with hl
    · obtain ⟨h1, h2, h3⟩ := takeFree_counts (k + 1) h.2
      refine ⟨?_, ?_, by simpa [hl] using h3⟩ <;> simp only [sumAvailable_cons, hl] <;> omega
    · obtain ⟨h1, h2, h3⟩ := takeFree_counts k h.2
      have hl1 : l.numAvailable = 1 := by omega
      refine ⟨?_, ?_, by simpa [setAvailable] using h3⟩ <;>
        simp only [List.length_cons, sumAvailable_cons, setAvailable, numAvailable_mk, hl1] <;> omega

/-- The leaves `takeFree` marks are free leaves of the list, in order; on a list of distinct
values, the list afterwards is the old one with exactly those values marked. -/
theorem takeFree_marks : ∀ (k : Nat) (A : List TopologyNode), ∃ S : List TopologyNode, S.Sublist A ∧
    (∀ l ∈ S, l.numAvailable ≠ 0) ∧ (takeFree k A).1 = S.map (·.setAvailable 0) ∧
    ((A.map value).Nodup →
      (takeFree k A).2 = A.map fun l => if l.value ∈ S.map value then l.setAvailable 0 else l)
  | 0, A => ⟨[], List.nil_sublist _, by simp, by simp, fun _ => by simp⟩
  | _ + 1, [] => ⟨[], List.nil_sublist _, by simp, by simp, fun _ => by simp⟩
  | k + 1, l :: A => by
    rw [takeFree_succ_cons]
    split_ifs with hl
    · obtain ⟨S, hS, hfree, h1, h2⟩ := takeFree_marks (k + 1) A
      refine ⟨S, hS.cons l, hfree, h1, fun hn => ?_⟩
      simp only [List.map_cons, List.nodup_cons] at hn
      have : l.value ∉ S.map value := fun h => hn.1 (hS.map value |>.subset h)
      simp only [h2 hn.2, List.map_cons, if_neg this]
    · obtain ⟨S, hS, hfree, h1, h2⟩ := takeFree_marks k A
      refine ⟨l :: S, hS.cons₂ l, ?_, by simp [h1], fun hn => ?_⟩
      · simpa [hl] using hfree
      · simp only [List.map_cons, List.nodup_cons] at hn
        simp only [h2 hn.2, List.map_cons, List.mem_cons, true_or, if_true, List.cons.injEq, true_and]
        refine List.map_congr_left fun x hx => ?_
        have : x.value ≠ l.value := fun h => hn.1 (h ▸ List.mem_map_of_mem _ hx)
        simp [this]

/-- `takeFree` changes counters only. -/
theorem takeFree_skeleton : ∀ (k : Nat) (A : List TopologyNode),
    ((takeFree k A).2.map skeleton) = A.map skeleton
  | 0, _ => by simp
  | _ + 1, [] => by simp
  | k + 1, l :: A => by
    obtain ⟨i, a, cs⟩ := l
    rw [takeFree_succ_cons]
    split_ifs
    · simp [takeFree_skeleton (k + 1) A]
    · simp [takeFree_skeleton k A]

theorem takeFree_of_sum_le : ∀ {k j : Nat} {A : List TopologyNode}, ZeroOne A →
    sumAvailable A ≤ k → sumAvailable A ≤ j → takeFree k A = takeFree j A
  | _, _, [], _, _, _ => by simp
  | 0, k', l :: A, h, h1, _ => by
    have := sumAvailable_nonneg h
    rw [takeFree_zero, takeFree_of_sum_zero k' h (by omega)]
  | k + 1, 0, l :: A, h, _, h2 => by
    have := sumAvailable_nonneg h
    rw [takeFree_zero, takeFree_of_sum_zero (k + 1) h (by omega)]
  | k + 1, k' + 1, l :: A, h, h1, h2 => by
    simp only [zeroOne_cons, sumAvailable_cons] at h h1 h2
    have := sumAvailable_nonneg h.2
    rw [takeFree_succ_cons, takeFree_succ_cons]
    split_ifs with hl
    · rw [takeFree_of_sum_le h.2 (k := k + 1) (j := k' + 1) (by omega) (by omega)]
    · rw [takeFree_of_sum_le h.2 (k := k) (j := k') (by omega) (by omega)]

/-! ### The specification of `takeLeaves` -/

mutual
/-- **`takeLeaves` is correct.** On a subtree with consistent counters and `1 ≤ n ≤` its counter,
`takeLeaves n` succeeds and returns the first `n` free leaves depth-first; afterwards those leaves
are taken and nothing else about the leaves or the shape has changed, the counters are still
consistent, and the subtree's counter has dropped by `n`. -/
theorem takeLeaves_spec : ∀ {t : TopologyNode} {n : Int}, t.Wf → 0 < n → n ≤ t.numAvailable →
    ∃ t', t.takeLeaves n = ((takeFree n.toNat t.leaves).1, false, t') ∧
      t'.leaves = (takeFree n.toNat t.leaves).2 ∧ t'.skeleton = t.skeleton ∧ t'.Wf ∧
      t'.numAvailable = t.numAvailable - n
  | mk i a [], n, ht, hn, ha => by
    simp only [wf_nil, numAvailable_mk] at ht ha
    obtain rfl : n = 1 := by omega
    obtain rfl : a = 1 := by omega
    exact ⟨mk i 0 [], by simp [takeLeaves, takeFree_succ_cons], by simp [takeFree_succ_cons], by simp,
      by simp, by simp⟩
  | mk i a (c :: cs), n, ht, hn, ha => by
    rw [wf_cons] at ht
    rw [numAvailable_mk] at ha
    obtain ⟨cs', h1, h2, h3, h4, h5⟩ :=
      takeLeavesLoop_spec (p := []) (m := n.toNat) (n := n) ht.2 (by simp; omega) (by omega) (by rw [← ht.1]; omega)
    rw [List.nil_append] at h1
    have hne : cs' ≠ [] := by rintro rfl; simp at h3
    refine ⟨mk i (a - n) cs', ?_, by rw [leaves_of_ne_nil _ _ hne, h2, leaves_cons], by simp [h3], ?_,
      by simp⟩
    · simp only [takeLeaves]
      rw [if_neg (by omega), if_neg (by simp), h1, leaves_cons]
    · rw [wf_of_ne_nil _ _ hne]
      exact ⟨by omega, h4⟩
/-- The loop half of `takeLeaves_spec`: with `p` collected and `m ≥ 1` leaves still to take, no
more than the children hold, the loop takes the first `m` free ones. -/
theorem takeLeavesLoop_spec : ∀ {cs : List TopologyNode} {m : Nat} {p : List TopologyNode} {n : Int},
    WfOf cs → n = p.length + m → 0 < m → (m : Int) ≤ sumAvailable cs →
    ∃ cs', takeLeavesLoop cs n p = (p ++ (takeFree m (leavesOf cs)).1, false, cs') ∧
      leavesOf cs' = (takeFree m (leavesOf cs)).2 ∧ skeletonOf cs' = skeletonOf cs ∧
      WfOf cs' ∧ sumAvailable cs' = sumAvailable cs - m
  | [], _, _, _, _, _, h1, h2 => by simp at h2; omega
  | c :: cs, m, acc, n, hcs, hn, h1, h2 => by
    rw [wfOf_cons] at hcs
    have hcnt := numAvailable_eq_leaves hcs.1
    have hc0 := numAvailable_nonneg hcs.1
    rw [sumAvailable_cons] at h2
    rw [leavesOf_cons, takeFree_append]
    by_cases hz : c.numAvailable = 0
    · have hfree := takeFree_of_sum_zero m (zeroOne_leaves hcs.1) (by omega)
      obtain ⟨cs', e1, e2, e3, e4, e5⟩ := takeLeavesLoop_spec hcs.2 hn h1 (by omega)
      refine ⟨c :: cs', ?_, by simp [hfree, e2], by simp [e3], by simp [hcs.1, e4], by simp [e5, hz]⟩
      simp [takeLeavesLoop, hz, e1, hfree]
    · obtain ⟨k, hk⟩ : ∃ k : Nat, min (n - acc.length) c.numAvailable = k :=
        ⟨(min (n - acc.length) c.numAvailable).toNat, by omega⟩
      obtain ⟨c', f1, f2, f3, f4, f5⟩ := takeLeaves_spec hcs.1 (n := k) (by omega) (by omega)
      rw [Int.toNat_ofNat] at f1 f2
      obtain ⟨g1, -, -⟩ := takeFree_counts k (zeroOne_leaves hcs.1)
      have hlen : (takeFree k c.leaves).1.length = k := by omega
      by_cases heq : k = m
      · subst heq
        rw [hlen]
        refine ⟨c' :: cs, ?_, by simp [f2], by simp [f3], by simp [f4, hcs.2], by simp [f5]; omega⟩
        simp only [takeLeavesLoop, if_neg hz, hk, f1, List.length_append, hlen]
        simp [hn]
      · have hmono := takeFree_of_sum_le (zeroOne_leaves hcs.1) (k := k) (j := m) (by omega) (by omega)
        rw [← hmono, hlen]
        obtain ⟨cs', e1, e2, e3, e4, e5⟩ := takeLeavesLoop_spec (p := acc ++ (takeFree k c.leaves).1)
          (m := m - k) (n := n) hcs.2 (by simp [hlen]; omega) (by omega) (by omega)
        refine ⟨c' :: cs', ?_, by simp [f2, e2], by simp [f3, e3], by simp [f4, e4], by simp [f5, e5]; omega⟩
        simp only [takeLeavesLoop, if_neg hz, hk, f1, List.length_append, hlen]
        rw [if_neg (by omega), e1]
        simp
end

/-- Asked for more than its counter, a node fails at once and changes nothing. -/
theorem takeLeaves_of_lt {t : TopologyNode} {n : Int} (h : t.numAvailable < n) : t.takeLeaves n = ([], true, t) := by
  obtain ⟨i, a, cs⟩ := t
  rw [numAvailable_mk] at h
  simp [takeLeaves, h]

/-! ### Below every node -/

theorem length_takeFree (k : Nat) (A : List TopologyNode) : (takeFree k A).2.length = A.length := by
  simpa using congrArg List.length (takeFree_skeleton k A)

theorem length_leavesOf_of_skeletonOf {cs cs' : List TopologyNode} (h : skeletonOf cs = skeletonOf cs') :
    (leavesOf cs).length = (leavesOf cs').length := by
  rw [← List.length_map (leavesOf cs) skeleton, ← leavesOf_skeletonOf, h, leavesOf_skeletonOf, List.length_map]

/-- When a tree of the same shape has the leaves `takeFree k` leaves, the leaves below each of its
nodes are those `takeFree` leaves of the node's own leaves, for some count. -/
theorem takeFree_get? : ∀ (p : List Nat) {t t' u u' : TopologyNode} {k : Nat}, t.skeleton = t'.skeleton →
    t'.leaves = (takeFree k t.leaves).2 → t.get? p = some u → t'.get? p = some u' →
    ∃ k', u'.leaves = (takeFree k' u.leaves).2
  | [], _, _, _, _, k, _, hl, hu, hu' => by
    rw [get?_nil, Option.some.injEq] at hu hu'
    subst hu hu'
    exact ⟨k, hl⟩
  | j :: p, mk i a cs, mk i' a' cs', u, u', k, hs, hl, hu, hu' => by
    rw [get?_cons, Option.bind_eq_some] at hu hu'
    obtain ⟨c, hc, hcu⟩ := hu
    obtain ⟨c', hc', hcu'⟩ := hu'
    simp only [skeleton_mk, mk.injEq, true_and, skeletonOf_eq_map] at hs
    have hcc : c.skeleton = c'.skeleton := by
      simpa [hc, hc'] using congrArg (·[j]?) hs.2
    have hpre : (leavesOf (cs'.take j)).length = (leavesOf (cs.take j)).length :=
      length_leavesOf_of_skeletonOf (by rw [skeletonOf_eq_map, skeletonOf_eq_map, List.map_take, List.map_take, hs.2])
    rw [leaves_of_ne_nil _ _ (List.ne_nil_of_mem (List.getElem?_mem hc')),
      leaves_of_ne_nil _ _ (List.ne_nil_of_mem (List.getElem?_mem hc)), leavesOf_split hc', leavesOf_split hc,
      List.append_assoc, List.append_assoc, takeFree_append, takeFree_append] at hl
    obtain ⟨-, hl⟩ := List.append_inj hl (by rw [length_takeFree, hpre])
    obtain ⟨hl, -⟩ := List.append_inj hl (by rw [length_takeFree, length_leaves_of_skeleton hcc])
    exact takeFree_get? p hcc hl hcu hcu'

/-- **`takeLeaves` on a subtree.** On a subtree with consistent counters and `1 ≤ n ≤` its
counter, `takeLeaves n` succeeds with the first `n` free leaves depth-first; exactly those leaves
are taken, the shape and the counter invariant are kept, and every node is lowered by the number
of leaves taken below it (the first `k` free leaves of its own subtree, for some `k`), the subtree
itself by `n`.  Asked for more than its counter, it fails and changes nothing. -/
theorem takeLeaves_correct (t : TopologyNode) (n : Int) (ht : t.Wf) :
    (1 ≤ n → n ≤ t.numAvailable →
      ∃ t', t.takeLeaves n = ((takeFree n.toNat t.leaves).1, false, t') ∧
        t'.leaves = (takeFree n.toNat t.leaves).2 ∧ t'.skeleton = t.skeleton ∧ t'.Wf ∧
        t'.numAvailable = t.numAvailable - n ∧
        ∀ p u u', t.get? p = some u → t'.get? p = some u' →
          ∃ k, u'.leaves = (takeFree k u.leaves).2 ∧ u'.numAvailable = u.numAvailable - (takeFree k u.leaves).1.length) ∧
    (t.numAvailable < n → t.takeLeaves n = ([], true, t)) := by
  refine ⟨fun hn hle => ?_, takeLeaves_of_lt⟩
  obtain ⟨t', h1, h2, h3, h4, h5⟩ := takeLeaves_spec ht hn hle
  refine ⟨t', h1, h2, h3, h4, h5, fun p u u' hu hu' => ?_⟩
  obtain ⟨k, hk⟩ := takeFree_get? p h3.symm h2 hu hu'
  have hw := wf_of_get? ht hu
  obtain ⟨-, hc, -⟩ := takeFree_counts k (zeroOne_leaves hw)
  exact ⟨k, hk, by rw [numAvailable_eq_leaves (wf_of_get? h4 hu'), hk, hc, numAvailable_eq_leaves hw]⟩

/-- Two free leaves under the machine. -/
def twoLeafTree : TopologyNode := mk ⟨.machine, 0⟩ 2 [mk ⟨.cpu, 0⟩ 1 [], mk ⟨.cpu, 1⟩ 1 []]

/-- One of the two leaves taken. -/
theorem takeLeaves_correct_twoLeaves :
    twoLeafTree.Wf ∧
      ((1 : Int) ≤ 1 → (1 : Int) ≤ twoLeafTree.numAvailable →
        ∃ t', twoLeafTree.takeLeaves 1 = ((takeFree (1 : Int).toNat twoLeafTree.leaves).1, false, t') ∧
          t'.leaves = (takeFree (1 : Int).toNat twoLeafTree.leaves).2 ∧ t'.skeleton = twoLeafTree.skeleton ∧ t'.Wf ∧
          t'.numAvailable = twoLeafTree.numAvailable - 1 ∧
          ∀ p u u', twoLeafTree.get? p = some u → t'.get? p = some u' →
            ∃ k, u'.leaves = (takeFree k u.leaves).2 ∧ u'.numAvailable = u.numAvailable - (takeFree k u.leaves).1.length) ∧
      (twoLeafTree.numAvailable < 1 → twoLeafTree.takeLeaves 1 = ([], true, twoLeafTree)) :=
  ⟨by decide, takeLeaves_correct _ 1 (by decide)⟩

end TopologyNode

end CpuControlPlane
