import Mathlib.Data.List.Basic
import Mathlib.Data.List.Nodup

/-! # The topology tree

`numautils` represents the machine as a tree whose leaves are cpus and whose inner levels are
the NUMA nodes, packages, dies and cores that tell the cpus apart (`TopologyNode`).

* **Nodes.** A `TopologyNode` carries its level and id (`NodeInfo`), a counter `numAvailable`
  and its children in order.  The Go code mutates nodes through pointers; here a pointer into
  the tree is its *position*, the list of child indices from the root, and a mutation is a
  function that rebuilds the tree along that position (`modify`, `addAbove`, `addAlong`).
* **The counter invariant.** The doc comment of `TopologyNode` says that a leaf holds `1` when
  it is free and `0` when it is taken, and that every other node holds the sum of its
  children.  `Wf` states it, as a mutual definition over a node and its list of children.
* **Views.** `leaves` lists the leaves depth-first (child order), `skeleton` forgets the
  counters; every operation of the allocators keeps the skeleton and changes leaves only
  through their counters, which is how their effect is specified.
* **Walks.** The walks over the tree come later: `getLeafs`, the breadth-first queue walk of
  `GetLeafs` (module `Leafs`), and `find`, the depth-first search of `FindCpu` and `Return`
  (module `Numa`).

The general facts proved here are what every later module uses: `Wf` forces the counter of a
node to be the number of its free leaves (`numAvailable_eq_leaves`), replacing a subtree and
shifting its ancestors by the same amount keeps `Wf` (`wf_addAbove_modify`), the leaves of the
result are those of the new subtree put in place of the old ones (`leaves_addAbove_modify`),
changing counters keeps the skeleton (`skeleton_modify`, `skeleton_addAlong`), and a tree with
consistent counters is determined by its skeleton and its leaves (`eq_of_skeleton_of_leaves`). -/

namespace CpuControlPlane

/-- `TopologyEntryType`: the level a node of the tree stands for. -/
inductive TopologyEntryType where
  | machine
  | node
  | package
  | die
  | core
  | cpu
  deriving DecidableEq, Repr

/-- `topoTypeByImportance`: the levels below the machine, outermost first. -/
def topoTypeByImportance : List TopologyEntryType := [.node, .package, .die, .core, .cpu]

/-- `nodeInfo`: the level of a node and its id at that level. -/
structure NodeInfo where
  type : TopologyEntryType
  value : Int
  deriving DecidableEq, Repr

/-- Errors of the `numautils` package (`ErrNotALeaf`, `ErrNotAvailable`, `ErrNotFound`). -/
inductive TopologyError where
  | notALeaf
  | notAvailable
  | notFound
  deriving DecidableEq, Repr

/-- The text of a `numautils` error. -/
def TopologyError.message : TopologyError → String
  | .notALeaf => "node is not a leaf"
  | .notAvailable => "not enough cpus available"
  | .notFound => "cpu not found"

/-- `TopologyNode`: a node of the topology tree with its count of available leaves. -/
inductive TopologyNode where
  | mk (info : NodeInfo) (numAvailable : Int) (children : List TopologyNode)
  deriving Repr

instance : Inhabited TopologyNode := ⟨.mk ⟨.machine, 0⟩ 0 []⟩

namespace TopologyNode

def info : TopologyNode → NodeInfo
  | mk i _ _ => i

def numAvailable : TopologyNode → Int
  | mk _ a _ => a

def children : TopologyNode → List TopologyNode
  | mk _ _ cs => cs

/-- `Value`: the id of the node at its level. -/
def value (t : TopologyNode) : Int := t.info.value

/-- `IsLeaf`: the node has no children. -/
def isLeaf (t : TopologyNode) : Bool := t.children.isEmpty

/-- `Available`: some leaf below the node is free. -/
def available (t : TopologyNode) : Bool := decide (0 < t.numAvailable)

/-- The node with its counter replaced. -/
def setAvailable (t : TopologyNode) (a : Int) : TopologyNode := mk t.info a t.children

@[simp] theorem info_mk (i : NodeInfo) (a : Int) (cs : List TopologyNode) : (mk i a cs).info = i := rfl
@[simp] theorem numAvailable_mk (i : NodeInfo) (a : Int) (cs : List TopologyNode) :
    (mk i a cs).numAvailable = a := rfl
@[simp] theorem children_mk (i : NodeInfo) (a : Int) (cs : List TopologyNode) :
    (mk i a cs).children = cs := rfl
@[simp] theorem value_mk (i : NodeInfo) (a : Int) (cs : List TopologyNode) : (mk i a cs).value = i.value := rfl
@[simp] theorem isLeaf_mk (i : NodeInfo) (a : Int) (cs : List TopologyNode) :
    (mk i a cs).isLeaf = cs.isEmpty := rfl
@[simp] theorem setAvailable_mk (i : NodeInfo) (a b : Int) (cs : List TopologyNode) :
    (mk i a cs).setAvailable b = mk i b cs := rfl
@[simp] theorem value_setAvailable (t : TopologyNode) (a : Int) : (t.setAvailable a).value = t.value := by
  cases t; rfl
@[simp] theorem setAvailable_numAvailable (t : TopologyNode) (a : Int) : (t.setAvailable a).numAvailable = a := by
  cases t; rfl
@[simp] theorem children_setAvailable (t : TopologyNode) (a : Int) : (t.setAvailable a).children = t.children := by
  cases t; rfl
@[simp] theorem setAvailable_self (t : TopologyNode) : t.setAvailable t.numAvailable = t := by cases t; rfl
@[simp] theorem setAvailable_setAvailable (t : TopologyNode) (a b : Int) :
    (t.setAvailable a).setAvailable b = t.setAvailable b := by
  cases t; rfl
@[simp] theorem available_eq (t : TopologyNode) : t.available = decide (0 < t.numAvailable) := rfl

/-- The sum of the counters of a list of nodes. -/
def sumAvailable : List TopologyNode → Int
  | [] => 0
  | c :: cs => c.numAvailable + sumAvailable cs

@[simp] theorem sumAvailable_nil : sumAvailable [] = 0 := rfl
@[simp] theorem sumAvailable_cons (c : TopologyNode) (cs : List TopologyNode) :
    sumAvailable (c :: cs) = c.numAvailable + sumAvailable cs := rfl
@[simp] theorem sumAvailable_append (cs ds : List TopologyNode) :
    sumAvailable (cs ++ ds) = sumAvailable cs + sumAvailable ds := by
  induction cs with
  | nil => simp
  | cons c cs ih => simp [ih, Int.add_assoc]

/-! ### Views of a tree -/

mutual
/-- The leaves, depth-first in child order. -/
def leaves : TopologyNode → List TopologyNode
  | mk i a [] => [mk i a []]
  | mk _ _ (c :: cs) => leavesOf (c :: cs)
/-- The leaves of a list of trees, one tree after the other. -/
def leavesOf : List TopologyNode → List TopologyNode
  | [] => []
  | c :: cs => c.leaves ++ leavesOf cs
end

mutual
/-- The tree with every counter set to `0`: its shape, levels and ids. -/
def skeleton : TopologyNode → TopologyNode
  | mk i _ cs => mk i 0 (skeletonOf cs)
def skeletonOf : List TopologyNode → List TopologyNode
  | [] => []
  | c :: cs => c.skeleton :: skeletonOf cs
end

mutual
/-- The number of nodes. -/
def nodeCount : TopologyNode → Nat
  | mk _ _ cs => nodeCountOf cs + 1
def nodeCountOf : List TopologyNode → Nat
  | [] => 0
  | c :: cs => c.nodeCount + nodeCountOf cs
end

mutual
/-- The counter invariant of `TopologyNode`: a leaf holds `0` or `1`, every other node the sum
of its children's counters. -/
def Wf : TopologyNode → Prop
  | mk _ a [] => a = 0 ∨ a = 1
  | mk _ a (c :: cs) => a = sumAvailable (c :: cs) ∧ WfOf (c :: cs)
/-- Every tree of the list satisfies `Wf`. -/
def WfOf : List TopologyNode → Prop
  | [] => True
  | c :: cs => c.Wf ∧ WfOf cs
end

mutual
/-- `Wf` is decidable. -/
def decWf : (t : TopologyNode) → Decidable t.Wf
  | mk _ a [] => inferInstanceAs (Decidable (a = 0 ∨ a = 1))
  | mk _ a (c :: cs) =>
    have := decWfOf (c :: cs)
    inferInstanceAs (Decidable (a = sumAvailable (c :: cs) ∧ WfOf (c :: cs)))
def decWfOf : (cs : List TopologyNode) → Decidable (WfOf cs)
  | [] => inferInstanceAs (Decidable True)
  | c :: cs =>
    have := decWf c
    have := decWfOf cs
    inferInstanceAs (Decidable (c.Wf ∧ WfOf cs))
end

instance : DecidablePred Wf := decWf

@[simp] theorem leaves_nil (i : NodeInfo) (a : Int) : (mk i a []).leaves = [mk i a []] := by
  simp [leaves]
@[simp] theorem leaves_cons (i : NodeInfo) (a : Int) (c : TopologyNode) (cs : List TopologyNode) :
    (mk i a (c :: cs)).leaves = leavesOf (c :: cs) := by simp [leaves]
@[simp] theorem leavesOf_nil : leavesOf [] = [] := by simp [leavesOf]
@[simp] theorem leavesOf_cons (c : TopologyNode) (cs : List TopologyNode) :
    leavesOf (c :: cs) = c.leaves ++ leavesOf cs := by simp [leavesOf]

@[simp] theorem skeleton_mk (i : NodeInfo) (a : Int) (cs : List TopologyNode) :
    (mk i a cs).skeleton = mk i 0 (skeletonOf cs) := by simp [skeleton]
@[simp] theorem skeletonOf_nil : skeletonOf [] = [] := by simp [skeletonOf]
@[simp] theorem skeletonOf_cons (c : TopologyNode) (cs : List TopologyNode) :
    skeletonOf (c :: cs) = c.skeleton :: skeletonOf cs := by simp [skeletonOf]

theorem skeletonOf_eq_map : ∀ cs : List TopologyNode, skeletonOf cs = cs.map skeleton
  | [] => rfl
  | c :: cs => by simp [skeletonOf_eq_map cs]

@[simp] theorem nodeCount_mk (i : NodeInfo) (a : Int) (cs : List TopologyNode) :
    (mk i a cs).nodeCount = nodeCountOf cs + 1 := by simp [nodeCount]
@[simp] theorem nodeCountOf_nil : nodeCountOf [] = 0 := by simp [nodeCountOf]
@[simp] theorem nodeCountOf_cons (c : TopologyNode) (cs : List TopologyNode) :
    nodeCountOf (c :: cs) = c.nodeCount + nodeCountOf cs := by simp [nodeCountOf]

@[simp] theorem wf_nil (i : NodeInfo) (a : Int) : (mk i a []).Wf ↔ a = 0 ∨ a = 1 := by simp [Wf]
@[simp] theorem wf_cons (i : NodeInfo) (a : Int) (c : TopologyNode) (cs : List TopologyNode) :
    (mk i a (c :: cs)).Wf ↔ a = sumAvailable (c :: cs) ∧ WfOf (c :: cs) := by simp [Wf]
@[simp] theorem wfOf_nil : WfOf [] := by simp [WfOf]
@[simp] theorem wfOf_cons (c : TopologyNode) (cs : List TopologyNode) :
    WfOf (c :: cs) ↔ c.Wf ∧ WfOf cs := by simp [WfOf]

theorem leaves_of_ne_nil (i : NodeInfo) (a : Int) {cs : List TopologyNode} (h : cs ≠ []) :
    (mk i a cs).leaves = leavesOf cs := by
  cases cs with
  | nil => exact absurd rfl h
  | cons c cs => simp

theorem wf_of_ne_nil (i : NodeInfo) (a : Int) {cs : List TopologyNode} (h : cs ≠ []) :
    (mk i a cs).Wf ↔ a = sumAvailable cs ∧ WfOf cs := by
  cases cs with
  | nil => exact absurd rfl h
  | cons c cs => simp

@[simp] theorem leavesOf_append (cs ds : List TopologyNode) :
    leavesOf (cs ++ ds) = leavesOf cs ++ leavesOf ds := by
  induction cs with
  | nil => simp
  | cons c cs ih => simp [ih]

theorem mem_leavesOf {cs : List TopologyNode} {l : TopologyNode} :
    l ∈ leavesOf cs ↔ ∃ c ∈ cs, l ∈ c.leaves := by
  induction cs with
  | nil => simp
  | cons c cs ih => simp [ih]

theorem wfOf_iff {cs : List TopologyNode} : WfOf cs ↔ ∀ c ∈ cs, c.Wf := by
  induction cs with
  | nil => simp
  | cons c cs ih => simp [ih]

@[simp] theorem value_skeleton (t : TopologyNode) : t.skeleton.value = t.value := by cases t; rfl

theorem setAvailable_skeleton {t : TopologyNode} (h : t.children = []) :
    t.skeleton.setAvailable t.numAvailable = t := by
  cases t; simp_all

mutual
theorem leaves_skeleton : ∀ t : TopologyNode, t.skeleton.leaves = t.leaves.map skeleton
  | mk _ _ [] => by simp
  | mk _ _ (c :: cs) => by simp [leaves_skeleton c, leavesOf_skeletonOf cs]
theorem leavesOf_skeletonOf : ∀ cs : List TopologyNode, leavesOf (skeletonOf cs) = (leavesOf cs).map skeleton
  | [] => by simp
  | c :: cs => by simp [leaves_skeleton c, leavesOf_skeletonOf cs]
end

/-- A tree and its shape have the same leaf ids, in the same order. -/
theorem map_value_leaves_skeleton (t : TopologyNode) : t.skeleton.leaves.map value = t.leaves.map value := by
  rw [leaves_skeleton, List.map_map]
  exact List.map_congr_left fun l _ => value_skeleton l

theorem length_leaves_of_skeleton {t t' : TopologyNode} (h : t.skeleton = t'.skeleton) :
    t.leaves.length = t'.leaves.length := by
  rw [← List.length_map t.leaves skeleton, ← leaves_skeleton, h, leaves_skeleton, List.length_map]

mutual
/-- A tree with consistent counters is determined by its shape and its leaves. -/
theorem eq_of_skeleton_of_leaves : ∀ {t t' : TopologyNode}, t.Wf → t'.Wf → t.skeleton = t'.skeleton →
    t.leaves = t'.leaves → t = t'
  | mk _ _ [], mk _ _ [], _, _, _, hl => by simpa using hl
  | mk _ _ [], mk _ _ (_ :: _), _, _, hs, _ => by simp at hs
  | mk _ _ (_ :: _), mk _ _ [], _, _, hs, _ => by simp at hs
  | mk _ _ (_ :: _), mk _ _ (_ :: _), h, h', hs, hl => by
    rw [wf_cons] at h h'
    rw [skeleton_mk, skeleton_mk, mk.injEq] at hs
    rw [leaves_cons, leaves_cons] at hl
    have hcs := eqOf_skeletonOf_of_leavesOf h.2 h'.2 hs.2.2 hl
    rw [h.1, h'.1, hs.1, hcs]
theorem eqOf_skeletonOf_of_leavesOf : ∀ {cs cs' : List TopologyNode}, WfOf cs → WfOf cs' →
    skeletonOf cs = skeletonOf cs' → leavesOf cs = leavesOf cs' → cs = cs'
  | [], [], _, _, _, _ => rfl
  | [], _ :: _, _, _, hs, _ => by simp at hs
  | _ :: _, [], _, _, hs, _ => by simp at hs
  | c :: cs, c' :: cs', h, h', hs, hl => by
    rw [wfOf_cons] at h h'
    rw [skeletonOf_cons, skeletonOf_cons, List.cons.injEq] at hs
    rw [leavesOf_cons, leavesOf_cons] at hl
    obtain ⟨h1, h2⟩ := List.append_inj hl (length_leaves_of_skeleton hs.1)
    rw [eq_of_skeleton_of_leaves h.1 h'.1 hs.1 h1, eqOf_skeletonOf_of_leavesOf h.2 h'.2 hs.2 h2]
end

/-! ### What the counter invariant says about the leaves -/

mutual
/-- Under `Wf` the counter of a node is the sum of its leaves' counters, i.e. its number of free
leaves. -/
theorem numAvailable_eq_leaves : ∀ {t : TopologyNode}, t.Wf → t.numAvailable = sumAvailable t.leaves
  | mk _ _ [], _ => by simp
  | mk _ _ (_ :: _), h => by
    rw [wf_cons] at h
    rw [leaves_cons, numAvailable_mk, h.1, sumAvailable_eq_leavesOf h.2]
theorem sumAvailable_eq_leavesOf : ∀ {cs : List TopologyNode}, WfOf cs → sumAvailable cs = sumAvailable (leavesOf cs)
  | [], _ => by simp
  | _ :: _, h => by
    rw [wfOf_cons] at h
    simp [numAvailable_eq_leaves h.1, sumAvailable_eq_leavesOf h.2]
end

mutual
theorem children_of_mem_leaves : ∀ {t l : TopologyNode}, l ∈ t.leaves → l.children = []
  | mk _ _ [], _, h => by simp at h; simp [h]
  | mk _ _ (_ :: _), _, h => by rw [leaves_cons] at h; exact children_of_mem_leavesOf h
theorem children_of_mem_leavesOf : ∀ {cs : List TopologyNode} {l : TopologyNode}, l ∈ leavesOf cs → l.children = []
  | [], _, h => by simp at h
  | _ :: _, _, h => by
    rw [leavesOf_cons, List.mem_append] at h
    exact h.elim children_of_mem_leaves children_of_mem_leavesOf
end

mutual
theorem numAvailable_of_mem_leaves : ∀ {t l : TopologyNode}, t.Wf → l ∈ t.leaves →
    l.numAvailable = 0 ∨ l.numAvailable = 1
  | mk _ _ [], _, ht, h => by simp at h ht; simp [h, ht]
  | mk _ _ (_ :: _), _, ht, h => by
    rw [leaves_cons] at h; rw [wf_cons] at ht; exact numAvailable_of_mem_leavesOf ht.2 h
theorem numAvailable_of_mem_leavesOf : ∀ {cs : List TopologyNode} {l : TopologyNode}, WfOf cs → l ∈ leavesOf cs →
    l.numAvailable = 0 ∨ l.numAvailable = 1
  | [], _, _, h => by simp at h
  | _ :: _, _, hcs, h => by
    rw [leavesOf_cons, List.mem_append] at h; rw [wfOf_cons] at hcs
    exact h.elim (numAvailable_of_mem_leaves hcs.1) (numAvailable_of_mem_leavesOf hcs.2)
end

theorem sumAvailable_nonneg {ls : List TopologyNode} (h : ∀ l ∈ ls, l.numAvailable = 0 ∨ l.numAvailable = 1) :
    0 ≤ sumAvailable ls := by
  induction ls with
  | nil => simp
  | cons l ls ih =>
    simp only [List.mem_cons, forall_eq_or_imp] at h
    simp only [sumAvailable_cons]
    have := ih h.2
    omega

theorem numAvailable_nonneg {t : TopologyNode} (ht : t.Wf) : 0 ≤ t.numAvailable := by
  rw [numAvailable_eq_leaves ht]
  exact sumAvailable_nonneg fun _ => numAvailable_of_mem_leaves ht

/-! ### Positions

A position is the list of child indices leading from the root to a node; it stands for the
pointer the Go code holds. -/

/-- The node at position `p`. -/
def get? : TopologyNode → List Nat → Option TopologyNode
  | t, [] => some t
  | mk _ _ cs, j :: p => cs[j]?.bind (·.get? p)

/-- Apply `f` to the node at position `p`. -/
def modify : TopologyNode → List Nat → (TopologyNode → TopologyNode) → TopologyNode
  | t, [], f => f t
  | mk i a cs, j :: p, f => mk i a (cs.modify (·.modify p f) j)

/-- Add `d` to the counter of every node strictly above position `p` (the loop over `path[1:]`
in `NumaTopology.Take`). -/
def addAbove (d : Int) : TopologyNode → List Nat → TopologyNode
  | t, [] => t
  | mk i a cs, j :: p => mk i (a + d) (cs.modify (·.addAbove d p) j)

/-- Add `d` to the counter of every node from this one down to position `p`, both included (the
loop over `path` in `NumaTopology.Return`). -/
def addAlong (d : Int) : TopologyNode → List Nat → TopologyNode
  | mk i a cs, [] => mk i (a + d) cs
  | mk i a cs, j :: p => mk i (a + d) (cs.modify (·.addAlong d p) j)

@[simp] theorem get?_nil (t : TopologyNode) : t.get? [] = some t := by cases t; rfl
@[simp] theorem get?_cons (i : NodeInfo) (a : Int) (cs : List TopologyNode) (j : Nat) (p : List Nat) :
    (mk i a cs).get? (j :: p) = cs[j]?.bind (·.get? p) := rfl
@[simp] theorem modify_nil (t : TopologyNode) (f : TopologyNode → TopologyNode) : t.modify [] f = f t := by
  cases t; rfl
@[simp] theorem modify_cons (i : NodeInfo) (a : Int) (cs : List TopologyNode) (j : Nat) (p : List Nat)
    (f : TopologyNode → TopologyNode) : (mk i a cs).modify (j :: p) f = mk i a (cs.modify (·.modify p f) j) := rfl
@[simp] theorem addAbove_nil (d : Int) (t : TopologyNode) : t.addAbove d [] = t := by cases t; rfl
@[simp] theorem addAbove_cons (d : Int) (i : NodeInfo) (a : Int) (cs : List TopologyNode) (j : Nat)
    (p : List Nat) : (mk i a cs).addAbove d (j :: p) = mk i (a + d) (cs.modify (·.addAbove d p) j) := rfl

mutual
/-- The positions of the leaves whose counter satisfies `keep`, depth-first in child order. -/
def leafPositionsWhere (keep : Int → Bool) : TopologyNode → List (List Nat)
  | mk _ a [] => if keep a then [[]] else []
  | mk _ _ (c :: cs) => leafPositionsWhereOf keep (c :: cs) 0
/-- The same below siblings, the first of them at index `j`. -/
def leafPositionsWhereOf (keep : Int → Bool) : List TopologyNode → Nat → List (List Nat)
  | [], _ => []
  | c :: cs, j => (c.leafPositionsWhere keep).map (j :: ·) ++ leafPositionsWhereOf keep cs (j + 1)
end

section LeafPositions

variable (keep : Int → Bool)

@[simp] theorem leafPositionsWhere_nil (i : NodeInfo) (a : Int) :
    (mk i a []).leafPositionsWhere keep = if keep a then [[]] else [] := by simp [leafPositionsWhere]
@[simp] theorem leafPositionsWhere_cons (i : NodeInfo) (a : Int) (c : TopologyNode) (cs : List TopologyNode) :
    (mk i a (c :: cs)).leafPositionsWhere keep = leafPositionsWhereOf keep (c :: cs) 0 := by
  simp [leafPositionsWhere]
@[simp] theorem leafPositionsWhereOf_nil (j : Nat) : leafPositionsWhereOf keep [] j = [] := by
  simp [leafPositionsWhereOf]
@[simp] theorem leafPositionsWhereOf_cons (c : TopologyNode) (cs : List TopologyNode) (j : Nat) :
    leafPositionsWhereOf keep (c :: cs) j =
      (c.leafPositionsWhere keep).map (j :: ·) ++ leafPositionsWhereOf keep cs (j + 1) := by
  simp [leafPositionsWhereOf]

theorem mem_leafPositionsWhereOf {s : List Nat} : ∀ {cs : List TopologyNode} {j : Nat},
    s ∈ leafPositionsWhereOf keep cs j ↔
      ∃ k r c, s = (j + k) :: r ∧ cs[k]? = some c ∧ r ∈ c.leafPositionsWhere keep
  | [], _ => by simp
  | c :: cs, j => by
    rw [leafPositionsWhereOf_cons, List.mem_append, List.mem_map, mem_leafPositionsWhereOf]
    constructor
    · rintro (⟨r, hr, rfl⟩ | ⟨k, r, c', rfl, hk, hr⟩)
      · exact ⟨0, r, c, rfl, List.getElem?_cons_zero, hr⟩
      · exact ⟨k + 1, r, c', by rw [Nat.add_right_comm, Nat.add_assoc], by rwa [List.getElem?_cons_succ], hr⟩
    · rintro ⟨_ | k, r, c', rfl, hk, hr⟩
      · rw [List.getElem?_cons_zero, Option.some.injEq] at hk
        exact .inl ⟨r, hk ▸ hr, rfl⟩
      · exact .inr ⟨k, r, c', by rw [Nat.add_right_comm, Nat.add_assoc], by rwa [List.getElem?_cons_succ] at hk, hr⟩

/-- A listed position is that of a leaf whose counter satisfies `keep`, and every such leaf is
listed. -/
theorem mem_leafPositionsWhere : ∀ {s : List Nat} {t : TopologyNode},
    s ∈ t.leafPositionsWhere keep ↔ ∃ w, t.get? s = some w ∧ w.children = [] ∧ keep w.numAvailable
  | [], mk i a [] => by by_cases h : keep a <;> simp [h]
  | [], mk i a (c :: cs) => by simp [mem_leafPositionsWhereOf]
  | j :: s, mk i a [] => by by_cases h : keep a <;> simp [h]
  | j :: s, mk i a (c :: cs) => by
    rw [leafPositionsWhere_cons, mem_leafPositionsWhereOf, get?_cons]
    constructor
    · rintro ⟨k, r, c', he, hk, hr⟩
      obtain ⟨rfl, rfl⟩ : j = k ∧ s = r := by simpa using he
      obtain ⟨w, hw⟩ := mem_leafPositionsWhere.1 hr
      exact ⟨w, by rw [hk, Option.some_bind]; exact hw.1, hw.2⟩
    · rintro ⟨w, hw, hl⟩
      rw [Option.bind_eq_some] at hw
      obtain ⟨c', hk, hc'⟩ := hw
      exact ⟨j, s, c', by simp, hk, mem_leafPositionsWhere.2 ⟨w, hc', hl⟩⟩

mutual
theorem nodup_leafPositionsWhere : ∀ t : TopologyNode, (t.leafPositionsWhere keep).Nodup
  | mk _ a [] => by by_cases h : keep a <;> simp [h]
  | mk _ _ (c :: cs) => by rw [leafPositionsWhere_cons]; exact nodup_leafPositionsWhereOf (c :: cs) 0
theorem nodup_leafPositionsWhereOf : ∀ (cs : List TopologyNode) (j : Nat), (leafPositionsWhereOf keep cs j).Nodup
  | [], _ => by simp
  | c :: cs, j => by
    rw [leafPositionsWhereOf_cons, List.nodup_append]
    refine ⟨(nodup_leafPositionsWhere c).map fun _ _ h => List.cons.inj h |>.2,
      nodup_leafPositionsWhereOf cs (j + 1), ?_⟩
    intro _ hx hy
    obtain ⟨r, -, rfl⟩ := List.mem_map.1 hx
    obtain ⟨k, r', -, he, -⟩ := (mem_leafPositionsWhereOf keep).1 hy
    simp at he
    omega
end

end LeafPositions

theorem addAbove_zero : ∀ (t : TopologyNode) (p : List Nat), t.addAbove 0 p = t
  | _, [] => by simp
  | mk i a cs, j :: p => by
    have : (fun c : TopologyNode => c.addAbove 0 p) = id := funext fun c => addAbove_zero c p
    rw [addAbove_cons, Int.add_zero, this, List.modify_id]

theorem get?_append_eq_bind : ∀ (t : TopologyNode) (p q : List Nat), t.get? (p ++ q) = (t.get? p).bind (·.get? q)
  | _, [], _ => by simp
  | mk _ _ cs, j :: p, q => by
    rw [List.cons_append, get?_cons, get?_cons]
    cases cs[j]? with
    | none => rfl
    | some c => exact get?_append_eq_bind c p q

theorem get?_append {t : TopologyNode} {p q : List Nat} {n : TopologyNode} (h : t.get? p = some n) :
    t.get? (p ++ q) = n.get? q := by
  rw [get?_append_eq_bind, h, Option.some_bind]

theorem wf_of_get? : ∀ {p : List Nat} {t l : TopologyNode}, t.Wf → t.get? p = some l → l.Wf
  | [], _, _, ht, hp => by simp at hp; exact hp ▸ ht
  | j :: p, mk i a cs, l, ht, hp => by
    simp only [get?_cons, Option.bind_eq_some] at hp
    obtain ⟨c, hc, hcl⟩ := hp
    have hne : cs ≠ [] := by rintro rfl; simp at hc
    rw [wf_of_ne_nil _ _ hne] at ht
    exact wf_of_get? (wfOf_iff.1 ht.2 c (List.getElem?_mem hc)) hcl

/-- Modifying the node at a position is replacing it by its image. -/
theorem modify_eq_const (f : TopologyNode → TopologyNode) :
    ∀ {p : List Nat} {t x : TopologyNode}, t.get? p = some x → t.modify p f = t.modify p fun _ => f x
  | [], _, _, hp => by simp at hp; subst hp; simp
  | j :: p, mk i a cs, x, hp => by
    simp only [get?_cons, Option.bind_eq_some] at hp
    obtain ⟨c, hc, hcx⟩ := hp
    simp only [modify_cons, mk.injEq, true_and]
    apply List.ext_getElem?
    intro k
    by_cases hk : j = k
    · subst hk; simp [hc, modify_eq_const f hcx]
    · simp [List.getElem?_modify_ne _ _ hk]

theorem modify_modify_same {α : Type} (f g : α → α) :
    ∀ (j : Nat) (l : List α), (l.modify f j).modify g j = l.modify (g ∘ f) j
  | _, [] => by simp
  | 0, _ :: _ => by simp
  | j + 1, _ :: l => by simp [modify_modify_same f g j l]

theorem sumAvailable_modify (g : TopologyNode → TopologyNode) :
    ∀ {j : Nat} {l : List TopologyNode} {c : TopologyNode}, l[j]? = some c →
      sumAvailable (l.modify g j) = sumAvailable l + ((g c).numAvailable - c.numAvailable)
  | _, [], _, h => by simp at h
  | 0, _ :: _, _, h => by simp at h; subst h; simp; omega
  | j + 1, _ :: cs, _, h => by simp at h; simp [sumAvailable_modify g (l := cs) h]; omega

theorem wfOf_modify (g : TopologyNode → TopologyNode) :
    ∀ {j : Nat} {cs : List TopologyNode} {c : TopologyNode}, cs[j]? = some c → WfOf cs → (g c).Wf →
      WfOf (cs.modify g j)
  | _, [], _, h, _, _ => by simp at h
  | 0, _ :: _, _, h, hcs, hg => by simp at h hcs; subst h; simp [hg, hcs.2]
  | j + 1, _ :: _, _, h, hcs, hg => by simp at h hcs; simp [hcs.1, wfOf_modify g h hcs.2 hg]

theorem leavesOf_split :
    ∀ {j : Nat} {cs : List TopologyNode} {c : TopologyNode}, cs[j]? = some c →
      leavesOf cs = leavesOf (cs.take j) ++ c.leaves ++ leavesOf (cs.drop (j + 1))
  | _, [], _, h => by simp at h
  | 0, _ :: _, _, h => by simp at h; subst h; simp
  | j + 1, _ :: _, _, h => by simp at h; simp [leavesOf_split h]

theorem leavesOf_modify (g : TopologyNode → TopologyNode) :
    ∀ {j : Nat} {cs : List TopologyNode} {c : TopologyNode}, cs[j]? = some c →
      leavesOf (cs.modify g j) = leavesOf (cs.take j) ++ (g c).leaves ++ leavesOf (cs.drop (j + 1))
  | _, [], _, h => by simp at h
  | 0, _ :: _, _, h => by simp at h; subst h; simp
  | j + 1, _ :: _, _, h => by simp at h; simp [leavesOf_modify g h]

theorem skeletonOf_modify (g : TopologyNode → TopologyNode) :
    ∀ {j : Nat} {cs : List TopologyNode} {c : TopologyNode}, cs[j]? = some c → (g c).skeleton = c.skeleton →
      skeletonOf (cs.modify g j) = skeletonOf cs
  | _, [], _, h, _ => by simp at h
  | 0, _ :: _, _, h, hg => by simp at h; subst h; simp [hg]
  | j + 1, _ :: _, _, h, hg => by simp at h; simp [skeletonOf_modify g h hg]

/-- Replacing the subtree at `p` by one whose counter differs by `d`, and shifting every
ancestor by `d`, keeps the counter invariant; the root moves by `d`. -/
theorem wf_addAbove_modify {d : Int} {l' : TopologyNode} (hl' : l'.Wf) :
    ∀ {p : List Nat} {t l : TopologyNode}, t.get? p = some l → t.Wf →
      l'.numAvailable = l.numAvailable + d →
      ((t.modify p fun _ => l').addAbove d p).Wf ∧
        ((t.modify p fun _ => l').addAbove d p).numAvailable = t.numAvailable + d
  | [], _, _, hp, _, hd => by simp at hp; subst hp; exact ⟨by simpa using hl', by simpa using hd⟩
  | j :: p, mk i a cs, l, hp, ht, hd => by
    simp only [get?_cons, Option.bind_eq_some] at hp
    obtain ⟨c, hc, hcl⟩ := hp
    have hne : cs ≠ [] := by rintro rfl; simp at hc
    rw [wf_of_ne_nil i a hne] at ht
    have hcw : c.Wf := wfOf_iff.1 ht.2 c (List.getElem?_mem hc)
    obtain ⟨ih1, ih2⟩ := wf_addAbove_modify hl' hcl hcw hd
    simp only [modify_cons, addAbove_cons, modify_modify_same, numAvailable_mk, and_true]
    refine (wf_of_ne_nil i _ (by simpa using hne)).2 ⟨?_, wfOf_modify _ hc ht.2 ih1⟩
    rw [sumAvailable_modify _ hc, Function.comp_apply, ih2, ht.1]
    omega

/-- The leaves after such a replacement are those of the new subtree put in place of the old
ones. -/
theorem leaves_addAbove_modify :
    ∀ {p : List Nat} {t l : TopologyNode}, t.get? p = some l →
      ∃ pre suf, t.leaves = pre ++ l.leaves ++ suf ∧
        ∀ (l' : TopologyNode) (d : Int), ((t.modify p fun _ => l').addAbove d p).leaves = pre ++ l'.leaves ++ suf
  | [], _, _, hp => by simp at hp; subst hp; exact ⟨[], [], by simp, fun l' d => by simp⟩
  | j :: p, mk i a cs, l, hp => by
    simp only [get?_cons, Option.bind_eq_some] at hp
    obtain ⟨c, hc, hcl⟩ := hp
    have hne : cs ≠ [] := by rintro rfl; simp at hc
    obtain ⟨pre, suf, h1, h2⟩ := leaves_addAbove_modify hcl
    refine ⟨leavesOf (cs.take j) ++ pre, suf ++ leavesOf (cs.drop (j + 1)), ?_, fun l' d => ?_⟩
    · simp [leaves_of_ne_nil i a hne, leavesOf_split hc, h1]
    · simp only [modify_cons, addAbove_cons, modify_modify_same]
      rw [leaves_of_ne_nil _ _ (by simpa using hne), leavesOf_modify _ hc, Function.comp_apply, h2]
      simp

/-- Such a replacement keeps the skeleton when the new subtree has the old one's. -/
theorem skeleton_addAbove_modify {d : Int} {l' : TopologyNode} :
    ∀ {p : List Nat} {t l : TopologyNode}, t.get? p = some l → l'.skeleton = l.skeleton →
      ((t.modify p fun _ => l').addAbove d p).skeleton = t.skeleton
  | [], _, _, hp, hs => by simp at hp; subst hp; simpa using hs
  | j :: p, mk i a cs, l, hp, hs => by
    simp only [get?_cons, Option.bind_eq_some] at hp
    obtain ⟨c, hc, hcl⟩ := hp
    simp only [modify_cons, addAbove_cons, modify_modify_same, skeleton_mk]
    rw [skeletonOf_modify _ hc (skeleton_addAbove_modify hcl hs)]

theorem skeletonOf_modify_of {g : TopologyNode → TopologyNode} (hg : ∀ x, (g x).skeleton = x.skeleton) :
    ∀ (j : Nat) (cs : List TopologyNode), skeletonOf (cs.modify g j) = skeletonOf cs
  | _, [] => by simp
  | 0, _ :: _ => by simp [hg]
  | j + 1, _ :: cs => by simp [skeletonOf_modify_of hg j cs]

/-- Changing a node by a function that keeps skeletons keeps the skeleton of the tree. -/
theorem skeleton_modify {f : TopologyNode → TopologyNode} (hf : ∀ x, (f x).skeleton = x.skeleton) :
    ∀ (t : TopologyNode) (p : List Nat), (t.modify p f).skeleton = t.skeleton
  | _, [] => by simp [hf]
  | mk _ _ _, _ :: p => by simp [skeletonOf_modify_of fun c => skeleton_modify hf c p]

/-- `addAlong` changes counters only. -/
theorem skeleton_addAlong (d : Int) : ∀ (t : TopologyNode) (p : List Nat), (t.addAlong d p).skeleton = t.skeleton
  | mk _ _ _, [] => by simp [addAlong]
  | mk _ _ _, _ :: p => by simp [addAlong, skeletonOf_modify_of fun c => skeleton_addAlong d c p]

end TopologyNode

end CpuControlPlane
