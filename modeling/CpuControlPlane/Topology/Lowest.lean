import CpuControlPlane.Topology.Load
import Mathlib.Data.List.Lex

/-! # The node `Take` chooses

`findLowestNodeWithEnoughAvailability n` walks down only through nodes with at least `n` free
leaves and keeps, among the children's answers, the first of greatest depth.  When every node
counts no fewer free leaves than its children together (`Covers`, which every tree loaded by
`LoadFromCpuInfo` and changed by `Take` and `Return` keeps), no node with `n` free leaves is
hidden below one with fewer, so the node found is the deepest with `n` free leaves, the first in
child order among the deepest (`findLowest_isLowest`). -/

namespace CpuControlPlane

namespace TopologyNode

/-! ### Counters that cover the free leaves -/

mutual
/-- A weaker form of `Wf`: a leaf counts `0` or `1`, an inner node at least the sum of its
children.  Loading a cpu list with a repeated path raises the inner nodes of that path once more
than its leaf, so only this form holds of every loaded tree. -/
def Covers : TopologyNode → Prop
  | mk _ a [] => a = 0 ∨ a = 1
  | mk _ a (c :: cs) => sumAvailable (c :: cs) ≤ a ∧ CoversOf (c :: cs)
/-- Every tree of the list satisfies `Covers`. -/
def CoversOf : List TopologyNode → Prop
  | [] => True
  | c :: cs => c.Covers ∧ CoversOf cs
end

@[simp] theorem covers_nil (i : NodeInfo) (a : Int) : (mk i a []).Covers ↔ a = 0 ∨ a = 1 := by simp [Covers]
@[simp] theorem covers_cons (i : NodeInfo) (a : Int) (c : TopologyNode) (cs : List TopologyNode) :
    (mk i a (c :: cs)).Covers ↔ sumAvailable (c :: cs) ≤ a ∧ CoversOf (c :: cs) := by simp [Covers]
@[simp] theorem coversOf_nil : CoversOf [] := by simp [CoversOf]
@[simp] theorem coversOf_cons (c : TopologyNode) (cs : List TopologyNode) :
    CoversOf (c :: cs) ↔ c.Covers ∧ CoversOf cs := by simp [CoversOf]

theorem coversOf_iff {cs : List TopologyNode} : CoversOf cs ↔ ∀ c ∈ cs, c.Covers := by
  induction cs with
  | nil => simp
  | cons c cs ih => simp [ih]

theorem covers_of_ne_nil (i : NodeInfo) (a : Int) {cs : List TopologyNode} (h : cs ≠ []) :
    (mk i a cs).Covers ↔ sumAvailable cs ≤ a ∧ CoversOf cs := by
  cases cs with
  | nil => exact absurd rfl h
  | cons c cs => simp

mutual
theorem Covers.nonneg : ∀ {t : TopologyNode}, t.Covers → 0 ≤ t.numAvailable
  | mk _ _ [], h => by rw [covers_nil] at h; rw [numAvailable_mk]; omega
  | mk _ _ (_ :: _), h => by
    rw [covers_cons] at h
    have := CoversOf.nonneg h.2
    rw [numAvailable_mk]; omega
theorem CoversOf.nonneg : ∀ {cs : List TopologyNode}, CoversOf cs → 0 ≤ sumAvailable cs
  | [], _ => by simp
  | _ :: _, h => by
    rw [coversOf_cons] at h
    have := Covers.nonneg h.1
    have := CoversOf.nonneg h.2
    rw [sumAvailable_cons]; omega
end

mutual
theorem Wf.covers : ∀ {t : TopologyNode}, t.Wf → t.Covers
  | mk _ _ [], h => by simpa using h
  | mk _ _ (_ :: _), h => by
    rw [wf_cons] at h
    rw [covers_cons]
    exact ⟨h.1.ge, WfOf.coversOf h.2⟩
theorem WfOf.coversOf : ∀ {cs : List TopologyNode}, WfOf cs → CoversOf cs
  | [], _ => by simp
  | _ :: _, h => by
    rw [wfOf_cons] at h
    rw [coversOf_cons]
    exact ⟨Wf.covers h.1, WfOf.coversOf h.2⟩
end

theorem numAvailable_le_sumAvailable {cs : List TopologyNode} {c : TopologyNode} (h : CoversOf cs) (hc : c ∈ cs) :
    c.numAvailable ≤ sumAvailable cs := by
  induction cs with
  | nil => simp at hc
  | cons d ds ih =>
    rw [coversOf_cons] at h
    rw [sumAvailable_cons]
    rcases List.mem_cons.1 hc with rfl | hc
    · have := CoversOf.nonneg h.2; omega
    · have := Covers.nonneg h.1; have := ih h.2 hc; omega

/-- Below a node that covers its free leaves every node does, and counts no more. -/
theorem Covers.of_get? : ∀ {p : List Nat} {t u : TopologyNode}, t.Covers → t.get? p = some u →
    u.Covers ∧ u.numAvailable ≤ t.numAvailable
  | [], _, _, h, hp => by rw [get?_nil, Option.some.injEq] at hp; subst hp; exact ⟨h, le_rfl⟩
  | j :: p, mk i a cs, u, h, hp => by
    rw [get?_cons, Option.bind_eq_some] at hp
    obtain ⟨c, hc, hcu⟩ := hp
    have hmem := List.getElem?_mem hc
    rw [covers_of_ne_nil _ _ (List.ne_nil_of_mem hmem)] at h
    obtain ⟨h1, h2⟩ := Covers.of_get? (coversOf_iff.1 h.2 c hmem) hcu
    exact ⟨h1, h2.trans ((numAvailable_le_sumAvailable h.2 hmem).trans h.1)⟩

/-! ### The deepest node with enough free leaves -/

theorem lex_cons_cons {i j : Nat} {p q : List Nat} :
    List.Lex (· < ·) (i :: p) (j :: q) ↔ i < j ∨ i = j ∧ List.Lex (· < ·) p q := by
  constructor
  · intro h
    cases h with
    | cons h => exact .inr ⟨rfl, h⟩
    | rel h => exact .inl h
  · rintro (h | ⟨rfl, h⟩)
    exacts [.rel h, .cons h]

/-- `p` is a deepest position of a node with at least `n` free leaves, and no position of the same
depth with one comes before it in child order. -/
def IsLowest (n : Int) (t : TopologyNode) (p : List Nat) : Prop :=
  ∀ q u, t.get? q = some u → n ≤ u.numAvailable →
    q.length ≤ p.length ∧ (q.length = p.length → ¬List.Lex (· < ·) q p)

theorem forall_getElem?_cons {α : Type} {P : Nat → α → Prop} {a : α} {l : List α} :
    (∀ i x, (a :: l)[i]? = some x → P i x) ↔ P 0 a ∧ ∀ i x, l[i]? = some x → P (i + 1) x := by
  constructor
  · intro h
    exact ⟨h 0 a (List.getElem?_cons_zero), fun i x hx => h (i + 1) x (by simpa using hx)⟩
  · rintro ⟨h0, h⟩ (_ | i) x hx
    · rw [List.getElem?_cons_zero, Option.some.injEq] at hx
      exact hx ▸ h0
    · exact h i x (by simpa using hx)

/-- The loop keeps the first answer of greatest level, and replaces the answer it started with
only by a strictly deeper one. -/
theorem findLowestLoop_cases {n : Int} {level : Nat} : ∀ {cs : List TopologyNode} {j bl : Nat}
    {best r : Option (List Nat × TopologyNode × Nat)}, findLowestLoop n cs level j best bl = r →
    (r = best ∧ ∀ (i : Nat) (c : TopologyNode), cs[i]? = some c →
      ∀ x, c.findLowestNodeWithEnoughAvailability n level = some x → x.2.2 ≤ bl) ∨
    ∃ i c q l k, cs[i]? = some c ∧ c.findLowestNodeWithEnoughAvailability n level = some (q, l, k) ∧
      r = some ((j + i) :: q, l, k) ∧ bl < k ∧
      ∀ (i' : Nat) (c' : TopologyNode), cs[i']? = some c' →
        ∀ x', c'.findLowestNodeWithEnoughAvailability n level = some x' → x'.2.2 ≤ k ∧ (i' < i → x'.2.2 < k)
  | [], _, _, _, _, h => .inl ⟨by simpa [findLowestLoop] using h.symm, by simp⟩
  | c :: cs, j, bl, best, r, h => by
    simp only [findLowestLoop] at h
    split at h
    next q l k hc =>
      have hc' : ∀ x, c.findLowestNodeWithEnoughAvailability n level = some x → x.2.2 = k :=
        fun x hx => by rw [hc, Option.some.injEq] at hx; rw [← hx]
      split_ifs at h with hk
      · rcases findLowestLoop_cases h with ⟨rfl, hall⟩ | ⟨i, c', q', l', k', hi, hc'', rfl, hlt, hall⟩
        · exact .inr ⟨0, c, q, l, k, List.getElem?_cons_zero, hc, by simp, hk, forall_getElem?_cons.2
            ⟨fun x hx => by have := hc' x hx; omega, fun i c hi x hx => by have := hall i c hi x hx; omega⟩⟩
        · exact .inr ⟨i + 1, c', q', l', k', by simpa using hi, hc'', by simp [Nat.add_right_comm, Nat.add_assoc],
            by omega, forall_getElem?_cons.2 ⟨fun x hx => by have := hc' x hx; omega,
              fun i' c hi' x hx => by have := hall i' c hi' x hx; exact ⟨this.1, fun h => this.2 (by omega)⟩⟩⟩
      · rcases findLowestLoop_cases h with ⟨rfl, hall⟩ | ⟨i, c', q', l', k', hi, hc'', rfl, hlt, hall⟩
        · exact .inl ⟨rfl, forall_getElem?_cons.2 ⟨fun x hx => by have := hc' x hx; omega, hall⟩⟩
        · exact .inr ⟨i + 1, c', q', l', k', by simpa using hi, hc'', by simp [Nat.add_right_comm, Nat.add_assoc],
            hlt, forall_getElem?_cons.2 ⟨fun x hx => by have := hc' x hx; omega,
              fun i' c hi' x hx => by have := hall i' c hi' x hx; exact ⟨this.1, fun h => this.2 (by omega)⟩⟩⟩
    next hc =>
      have hc' : ∀ x, c.findLowestNodeWithEnoughAvailability n level ≠ some x := fun x hx => by simp [hc] at hx
      rcases findLowestLoop_cases h with ⟨rfl, hall⟩ | ⟨i, c', q', l', k', hi, hc'', rfl, hlt, hall⟩
      · exact .inl ⟨rfl, forall_getElem?_cons.2 ⟨fun x hx => absurd hx (hc' x), hall⟩⟩
      · exact .inr ⟨i + 1, c', q', l', k', by simpa using hi, hc'', by simp [Nat.add_right_comm, Nat.add_assoc],
          hlt, forall_getElem?_cons.2 ⟨fun x hx => absurd hx (hc' x),
            fun i' c hi' x hx => by have := hall i' c hi' x hx; exact ⟨this.1, fun h => this.2 (by omega)⟩⟩⟩

theorem Covers.of_mem {i : NodeInfo} {a : Int} {cs : List TopologyNode} {c : TopologyNode}
    (h : (mk i a cs).Covers) (hc : c ∈ cs) : c.Covers ∧ c.numAvailable ≤ a := by
  rw [covers_of_ne_nil _ _ (List.ne_nil_of_mem hc)] at h
  exact ⟨coversOf_iff.1 h.2 c hc, (numAvailable_le_sumAvailable h.2 hc).trans h.1⟩

/-- A node found below a child that has `n` free leaves somewhere below it, at a level no
shallower than that node. -/
theorem findLowest_of_get? {n : Int} {c u : TopologyNode} {q : List Nat} {level : Nat} (hc : c.Covers)
    (hu : c.get? q = some u) (hn : n ≤ u.numAvailable) :
    ∃ x, c.findLowestNodeWithEnoughAvailability n level = some x :=
  Option.isSome_iff_exists.1 ((findLowest_isSome n c level).2 (hn.trans (hc.of_get? hu).2))

/-- One step of the search: when each child's answer is its deepest node with `n` free leaves, the
node's answer is its own deepest one. -/
theorem isLowest_of_children {n : Int} {i : NodeInfo} {a : Int} {cs : List TopologyNode} {level : Nat}
    {p : List Nat} {l : TopologyNode} {k : Nat} (hcov : (mk i a cs).Covers)
    (ih : ∀ c ∈ cs, c.Covers → ∀ x, c.findLowestNodeWithEnoughAvailability n (level + 1) = some x →
      x.2.2 = level + 1 + x.1.length ∧ IsLowest n c x.1)
    (h : (mk i a cs).findLowestNodeWithEnoughAvailability n level = some (p, l, k)) :
    k = level + p.length ∧ IsLowest n (mk i a cs) p := by
  /- every child with `n` free leaves below it answers, no shallower than any of them -/
  have hchild : ∀ (j : Nat) (c : TopologyNode) (q : List Nat) (u : TopologyNode), cs[j]? = some c →
      c.get? q = some u → n ≤ u.numAvailable →
      ∃ x, c.findLowestNodeWithEnoughAvailability n (level + 1) = some x ∧
        x.2.2 = level + 1 + x.1.length ∧ q.length ≤ x.1.length ∧ IsLowest n c x.1 := by
    intro j c q u hj hu hn
    have hmem := List.getElem?_mem hj
    have hcc := (hcov.of_mem hmem).1
    obtain ⟨x, hx⟩ := @findLowest_of_get? n c u q (level + 1) hcc hu hn
    obtain ⟨hk, hlow⟩ := ih c hmem hcc x hx
    exact ⟨x, hx, hk, (hlow q u hu hn).1, hlow⟩
  simp only [findLowestNodeWithEnoughAvailability] at h
  split_ifs at h
  rcases findLowestLoop_cases (r := findLowestLoop n cs (level + 1) 0 none 0) rfl with
    ⟨hr, hall⟩ | ⟨j, c, q, l', k', hj, hc, hr, -, hall⟩ <;> rw [hr] at h
  · /- no child answers: the node itself is the deepest -/
    obtain ⟨rfl, -, rfl⟩ : [] = p ∧ mk i a cs = l ∧ level = k := by simpa using h
    refine ⟨rfl, ?_⟩
    rintro (_ | ⟨j', q'⟩) u hu hn
    · exact ⟨le_rfl, fun _ => List.Lex.not_nil_right _ _⟩
    · rw [get?_cons, Option.bind_eq_some] at hu
      obtain ⟨c', hj', hu'⟩ := hu
      obtain ⟨x, hx, hk, -⟩ := hchild j' c' q' u hj' hu' hn
      have := hall j' c' hj' x hx
      omega
  · /- the answer of child `j`: deepest among the children, first among the deepest -/
    obtain ⟨rfl, rfl, rfl⟩ : (0 + j) :: q = p ∧ l' = l ∧ k' = k := by simpa using h
    have hk := (ih c (List.getElem?_mem hj) (hcov.of_mem (List.getElem?_mem hj)).1 _ hc).1
    refine ⟨by simp only [List.length_cons] at hk ⊢; omega, ?_⟩
    rintro (_ | ⟨j', q'⟩) u hu hn
    · exact ⟨by simp, by simp⟩
    · rw [get?_cons, Option.bind_eq_some] at hu
      obtain ⟨c', hj', hu'⟩ := hu
      obtain ⟨x, hx, hk', hlen, hlow⟩ := hchild j' c' q' u hj' hu' hn
      obtain ⟨hle, hlt⟩ := hall j' c' hj' x hx
      simp only [List.length_cons, Nat.zero_add, lex_cons_cons] at hk hk' ⊢
      refine ⟨by omega, fun hq => ?_⟩
      rintro (hji | ⟨rfl, hlex⟩)
      · have := hlt hji; omega
      · obtain rfl : c' = c := Option.some.inj (hj'.symm.trans hj)
        obtain rfl : x = (q, l', k') := Option.some.inj (hx.symm.trans hc)
        exact (hlow q' u hu' hn).2 (by simpa using hq) hlex

mutual
/-- **The search finds the deepest node with `n` free leaves.**  On a tree whose counters cover
its free leaves, the node `findLowestNodeWithEnoughAvailability n` answers sits at the reported
level and no node with `n` free leaves is deeper, or as deep and before it in child order. -/
theorem findLowest_isLowest {n : Int} : ∀ {t : TopologyNode} {level : Nat} {p : List Nat} {l : TopologyNode}
    {k : Nat}, t.Covers → t.findLowestNodeWithEnoughAvailability n level = some (p, l, k) →
    k = level + p.length ∧ IsLowest n t p
  | mk _ _ cs, _, _, _, _, hcov, h =>
    isLowest_of_children hcov (fun c hc hcc x hx => findLowestOf_isLowest hc hcc hx) h
theorem findLowestOf_isLowest {n : Int} : ∀ {cs : List TopologyNode} {c : TopologyNode} {level : Nat}
    {x : List Nat × TopologyNode × Nat}, c ∈ cs → c.Covers →
    c.findLowestNodeWithEnoughAvailability n level = some x → x.2.2 = level + x.1.length ∧ IsLowest n c x.1
  | [], _, _, _, hc, _, _ => by simp at hc
  | d :: ds, c, _, (_, _, _), hc, hcc, h => by
    rw [List.mem_cons] at hc
    rcases hc with rfl | hc
    · exact findLowest_isLowest hcc h
    · exact findLowestOf_isLowest hc hcc h
end

/-- With `n ≤ 0` every node qualifies, so the deepest one is a leaf. -/
theorem children_eq_nil_of_isLowest {n : Int} {t v : TopologyNode} {p : List Nat} (ht : t.Covers) (hn : n ≤ 0)
    (hp : t.get? p = some v) (hlow : IsLowest n t p) : v.children = [] := by
  obtain ⟨i, a, _ | ⟨c, cs⟩⟩ := v
  · rfl
  · exfalso
    have hc : t.get? (p ++ [0]) = some c := by rw [get?_append hp]; simp
    have := (hlow _ c hc (hn.trans (ht.of_get? hc).1.nonneg)).1
    rw [List.length_append, List.length_singleton] at this
    omega

/-! ### `takeLeaves` on counters that cover the free leaves

A counter may exceed the free leaves below it, so `takeLeaves n` may return fewer than `n` leaves;
it never fails below a node that counts at least `n`, and it lowers that node by exactly `n`. -/

theorem coversOf_modify {g : TopologyNode → TopologyNode} {j : Nat} {cs : List TopologyNode} {c : TopologyNode}
    (hj : cs[j]? = some c) (hcs : CoversOf cs) (hg : (g c).Covers) : CoversOf (cs.modify g j) :=
  coversOf_iff.2 (forall_mem_modify hj (coversOf_iff.1 hcs) hg)

mutual
theorem takeLeaves_covers : ∀ {t : TopologyNode} {n : Int}, t.Covers → 1 ≤ n → n ≤ t.numAvailable →
    ∃ taken t', t.takeLeaves n = (taken, false, t') ∧ t'.Covers ∧ t'.numAvailable = t.numAvailable - n ∧
      (taken.length : Int) ≤ n ∧ (taken.map value).Sublist ((t.leaves.filter available).map value)
  | mk i a [], n, ht, hn, ha => by
    rw [covers_nil] at ht
    rw [numAvailable_mk] at ha
    exact ⟨[mk i 0 []], mk i 0 [], by simp [takeLeaves, show ¬a < n by omega], by simp, by simp; omega,
      by simp; omega, by simp [available, show 0 < a by omega]⟩
  | mk i a (c :: cs), n, ht, hn, ha => by
    rw [covers_cons] at ht
    rw [numAvailable_mk] at ha
    obtain ⟨taken, cs', h1, h2, h3, h4, h5, h6⟩ := @takeLeavesLoop_covers _ n [] ht.2 (by simp; omega)
    have hne : cs' ≠ [] := by rintro rfl; simp at h4
    refine ⟨taken, mk i (a - n) cs', ?_, (covers_of_ne_nil i (a - n) hne).2 ⟨by simp only [List.length_nil, Int.Nat.cast_ofNat_Int] at h3; omega, h2⟩, by simp,
      by simpa using h5, by simpa using h6⟩
    simp only [takeLeaves]
    rw [if_neg (by omega), if_neg (by simp), h1, List.nil_append]
/-- The loop half of `takeLeaves_covers`: with fewer than `n` leaves collected, the children are
lowered by at least what is still missing, or emptied. -/
theorem takeLeavesLoop_covers : ∀ {cs : List TopologyNode} {n : Int} {acc : List TopologyNode},
    CoversOf cs → (acc.length : Int) < n →
    ∃ taken cs', takeLeavesLoop cs n acc = (acc ++ taken, false, cs') ∧ CoversOf cs' ∧
      (sumAvailable cs' ≤ sumAvailable cs - (n - acc.length) ∨ sumAvailable cs' = 0) ∧
      cs'.length = cs.length ∧ ((acc ++ taken).length : Int) ≤ n ∧
      (taken.map value).Sublist (((leavesOf cs).filter available).map value)
  | [], n, acc, _, hacc => ⟨[], [], by simp [takeLeavesLoop], by simp, by simp, rfl, by simp; omega, by simp⟩
  | c :: cs, n, acc, hcs, hacc => by
    rw [coversOf_cons] at hcs
    have hc0 := hcs.1.nonneg
    have hs0 := hcs.2.nonneg
    by_cases hz : c.numAvailable = 0
    · obtain ⟨taken, cs', e1, e2, e3, e4, e5, e6⟩ := takeLeavesLoop_covers hcs.2 hacc
      refine ⟨taken, c :: cs', by simp [takeLeavesLoop, hz, e1], by simp [hcs.1, e2], ?_, by simp [e4], e5, ?_⟩
      · simp only [sumAvailable_cons, hz]
        omega
      · rw [leavesOf_cons, List.filter_append, List.map_append]
        exact e6.trans (List.sublist_append_right _ _)
    · obtain ⟨tk, c', f1, f2, f3, f4, f5⟩ := takeLeaves_covers (n := min (n - acc.length) c.numAvailable) hcs.1
        (by omega) (by omega)
      have hsplit : ((leavesOf (c :: cs)).filter available).map value =
          (c.leaves.filter available).map value ++ ((leavesOf cs).filter available).map value := by
        rw [leavesOf_cons, List.filter_append, List.map_append]
      simp only [takeLeavesLoop, if_neg hz, f1]
      split_ifs with hfull
      · refine ⟨tk, c' :: cs, rfl, by simp [f2, hcs.2], .inl ?_, rfl, hfull.le,
          hsplit ▸ f5.trans (List.sublist_append_left _ _)⟩
        simp only [sumAvailable_cons, f3, List.length_append] at hfull ⊢
        omega
      · obtain ⟨taken, cs', e1, e2, e3, e4, e5, e6⟩ := @takeLeavesLoop_covers cs n (acc ++ tk) hcs.2
          (by simp only [List.length_append] at hfull f4 ⊢; omega)
        refine ⟨tk ++ taken, c' :: cs', by simp [e1], by simp [f2, e2], ?_, by simp [e4],
          by simpa using e5, by rw [List.map_append, hsplit]; exact f5.append e6⟩
        simp only [sumAvailable_cons, f3, List.length_append] at e3 ⊢
        omega
end

end TopologyNode

end CpuControlPlane
