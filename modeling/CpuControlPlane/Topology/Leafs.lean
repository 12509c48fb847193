import CpuControlPlane.Topology.Load

/-! # The leaves in queue order

`getLeafs` is `TopologyNode.GetLeafs`: a walk with a queue that outputs a leaf met at its head
and puts the children of an inner node at its back.  It returns positions, the pointers the Go
code hands to the per-namespace allocator, which reads and takes the leaves through them.  The
walk pops one node a round, so `nodeCount` rounds are enough.

- every position it returns is the position of a leaf (`getLeafs_leaf`), and read through the
  tree its positions give the id of every leaf exactly once (`getLeafs_perm`);
- it depends only on the shape of the tree (`getLeafs_skeleton`), and so does what a position
  reads (`valueAt_of_skeleton`): taking and returning cpus never moves a bucket. -/

namespace CpuControlPlane

namespace TopologyNode

/-- The children of the node at position `p`, with their positions, as they join the queue. -/
def childEntries (p : List Nat) (cs : List TopologyNode) : List (List Nat × TopologyNode) :=
  cs.enum.map fun e => (p ++ [e.1], e.2)

/-- The queue walk of `GetLeafs`, for at most `fuel` rounds. -/
def getLeafsLoop : Nat → List (List Nat × TopologyNode) → List (List Nat)
  | 0, _ => []
  | _ + 1, [] => []
  | fuel + 1, (p, node) :: queue =>
    if node.isLeaf then p :: getLeafsLoop fuel queue
    else getLeafsLoop fuel (queue ++ childEntries p node.children)

/-- `GetLeafs`: the positions of the leaves in queue order. -/
def getLeafs (t : TopologyNode) : List (List Nat) := getLeafsLoop t.nodeCount [([], t)]

mutual
theorem nodeCount_skeleton : ∀ t : TopologyNode, t.skeleton.nodeCount = t.nodeCount
  | mk _ _ cs => by rw [skeleton_mk, nodeCount_mk, nodeCount_mk, nodeCountOf_skeletonOf cs]
theorem nodeCountOf_skeletonOf : ∀ cs : List TopologyNode, nodeCountOf (skeletonOf cs) = nodeCountOf cs
  | [] => by simp
  | c :: cs => by
    rw [skeletonOf_cons, nodeCountOf_cons, nodeCountOf_cons, nodeCount_skeleton c, nodeCountOf_skeletonOf cs]
end

/-- `Available()` read through a pointer. -/
def availableAt (t : TopologyNode) (p : List Nat) : Bool := (t.get? p).any available

/-- `Value` read through a pointer. -/
def valueAt (t : TopologyNode) (p : List Nat) : Int := ((t.get? p).map value).getD 0

/-! ### Only the shape matters -/

/-- What the walk sees of a queue entry. -/
def entryShape (e : List Nat × TopologyNode) : List Nat × TopologyNode := (e.1, e.2.skeleton)

theorem childEntries_shape (p : List Nat) (cs : List TopologyNode) :
    (childEntries p cs).map entryShape = childEntries p (skeletonOf cs) := by
  simp [childEntries, entryShape, skeletonOf_eq_map, List.enum_map, Function.comp_def]

theorem isLeaf_skeleton (t : TopologyNode) : t.skeleton.isLeaf = t.isLeaf := by
  obtain ⟨i, a, cs⟩ := t
  cases cs <;> simp

theorem getLeafsLoop_shape : ∀ (fuel : Nat) {q q' : List (List Nat × TopologyNode)},
    q.map entryShape = q'.map entryShape → getLeafsLoop fuel q = getLeafsLoop fuel q'
  | 0, _, _, _ => rfl
  | _ + 1, [], [], _ => rfl
  | _ + 1, [], _ :: _, h => by simp at h
  | _ + 1, _ :: _, [], h => by simp at h
  | fuel + 1, (p, n) :: q, (p', n') :: q', h => by
    simp only [List.map_cons, List.cons.injEq, entryShape, Prod.mk.injEq] at h
    obtain ⟨⟨rfl, hn⟩, hq⟩ := h
    have hleaf : n'.isLeaf = n.isLeaf := by rw [← isLeaf_skeleton, ← hn, isLeaf_skeleton]
    simp only [getLeafsLoop, hleaf]
    split
    · rw [getLeafsLoop_shape fuel hq]
    · apply getLeafsLoop_shape fuel
      obtain ⟨i, a, cs⟩ := n; obtain ⟨i', a', cs'⟩ := n'
      simp only [skeleton_mk, mk.injEq] at hn
      simp only [List.map_append, hq, childEntries_shape, children_mk, hn.2.2]

/-- `GetLeafs` of two trees of the same shape gives the same positions. -/
theorem getLeafs_skeleton {t t' : TopologyNode} (h : t.skeleton = t'.skeleton) :
    t.getLeafs = t'.getLeafs := by
  have hc : t.nodeCount = t'.nodeCount := by
    rw [← nodeCount_skeleton, h, nodeCount_skeleton]
  rw [getLeafs, getLeafs, hc]
  exact getLeafsLoop_shape _ (by simp [entryShape, h])

theorem get?_skeleton : ∀ (t : TopologyNode) (p : List Nat), t.skeleton.get? p = (t.get? p).map skeleton
  | _, [] => by simp
  | mk i a cs, j :: p => by
    rw [skeleton_mk, get?_cons, get?_cons, skeletonOf_eq_map, List.getElem?_map]
    cases cs[j]? with
    | none => rfl
    | some c => exact get?_skeleton c p

/-- What a position reads is in the shape of the tree. -/
theorem valueAt_of_skeleton {t t' : TopologyNode} (h : t.skeleton = t'.skeleton) (p : List Nat) :
    t.valueAt p = t'.valueAt p := by
  have key : ∀ u : TopologyNode, u.valueAt p = ((u.skeleton.get? p).map value).getD 0 := fun u => by
    simp [valueAt, get?_skeleton, Function.comp_def]
  rw [key, h, ← key]

/-! ### Every returned position holds a leaf -/

theorem get?_childEntries {t : TopologyNode} {p : List Nat} {n : TopologyNode} (h : t.get? p = some n) :
    ∀ e ∈ childEntries p n.children, t.get? e.1 = some e.2 := by
  intro e he
  simp only [childEntries, List.mem_map] at he
  obtain ⟨⟨j, c⟩, hjc, rfl⟩ := he
  rw [get?_append h]
  obtain ⟨i, a, cs⟩ := n
  simpa [List.mem_enum_iff_getElem?] using hjc

theorem getLeafsLoop_leaf (t : TopologyNode) : ∀ (fuel : Nat) {q : List (List Nat × TopologyNode)},
    (∀ e ∈ q, t.get? e.1 = some e.2) → ∀ p ∈ getLeafsLoop fuel q, ∃ l, t.get? p = some l ∧ l.isLeaf
  | 0, _, _ => by simp [getLeafsLoop]
  | _ + 1, [], _ => by simp [getLeafsLoop]
  | fuel + 1, (p, n) :: q, hq => by
    have hq' : ∀ e ∈ q, t.get? e.1 = some e.2 := fun e he => hq e (List.mem_cons_of_mem _ he)
    simp only [getLeafsLoop]
    split
    · intro p' hp'
      rcases List.mem_cons.1 hp' with rfl | hp'
      · exact ⟨n, hq _ (List.mem_cons_self _ _), ‹_›⟩
      · exact getLeafsLoop_leaf t fuel hq' p' hp'
    · refine getLeafsLoop_leaf t fuel fun e he => ?_
      rcases List.mem_append.1 he with he | he
      exacts [hq' e he, get?_childEntries (hq _ (List.mem_cons_self _ _)) e he]

/-- Every position `GetLeafs` returns is that of a leaf. -/
theorem getLeafs_leaf {t : TopologyNode} {p : List Nat} (hp : p ∈ t.getLeafs) :
    ∃ l, t.get? p = some l ∧ l.isLeaf :=
  getLeafsLoop_leaf t _ (by simp) p hp

/-! ### Every leaf is returned once -/

theorem leavesOf_eq_flatMap : ∀ cs : List TopologyNode, leavesOf cs = cs.flatMap leaves
  | [] => rfl
  | c :: cs => by simp [leavesOf_eq_flatMap cs]

@[simp] theorem nodeCountOf_append (cs ds : List TopologyNode) :
    nodeCountOf (cs ++ ds) = nodeCountOf cs + nodeCountOf ds := by
  induction cs with
  | nil => simp
  | cons c cs ih => simp [ih, Nat.add_assoc]

theorem nodeCount_pos (t : TopologyNode) : 0 < t.nodeCount := by cases t; simp

theorem childEntries_snd (p : List Nat) (cs : List TopologyNode) : (childEntries p cs).map Prod.snd = cs := by
  simp [childEntries, Function.comp_def]

/-- With enough rounds the walk reads, up to order, the ids of the leaves of every queued tree. -/
theorem getLeafsLoop_perm (t : TopologyNode) : ∀ (fuel : Nat) {q : List (List Nat × TopologyNode)},
    (∀ e ∈ q, t.get? e.1 = some e.2) → nodeCountOf (q.map Prod.snd) ≤ fuel →
    ((getLeafsLoop fuel q).map t.valueAt).Perm (q.flatMap fun e => e.2.leaves.map value)
  | 0, [], _, _ => by simp [getLeafsLoop]
  | 0, e :: _, _, hf => by have := nodeCount_pos e.2; simp at hf; omega
  | _ + 1, [], _, _ => by simp [getLeafsLoop]
  | fuel + 1, (p, n) :: q, hq, hf => by
    have hn := hq _ (List.mem_cons_self _ _)
    have hq' : ∀ e ∈ q, t.get? e.1 = some e.2 := fun e he => hq e (List.mem_cons_of_mem _ he)
    have hpos := nodeCount_pos n
    simp only [List.map_cons, nodeCountOf_cons] at hf
    simp only [getLeafsLoop, List.flatMap_cons]
    split
    next hleaf =>
      have hc : n.children = [] := by obtain ⟨i, a, cs⟩ := n; simpa using hleaf
      rw [List.map_cons, leaves_of_children_nil hc, valueAt, hn]
      exact (getLeafsLoop_perm t fuel hq' (by omega)).cons _
    next hleaf =>
      obtain ⟨i, a, cs⟩ := n
      have hne : cs ≠ [] := by simpa using hleaf
      have hce : (childEntries p cs).flatMap (fun e => e.2.leaves.map value) = (leavesOf cs).map value := by
        conv_rhs => rw [← childEntries_snd p cs, leavesOf_eq_flatMap]
        simp [List.flatMap_map, List.map_flatMap]
      refine (getLeafsLoop_perm t fuel (fun e he => ?_) ?_).trans ?_
      · rcases List.mem_append.1 he with he | he
        exacts [hq' e he, get?_childEntries hn e he]
      · simp only [List.map_append, nodeCountOf_append, children_mk, childEntries_snd]
        simp only [nodeCount_mk] at hf
        omega
      · rw [List.flatMap_append, children_mk, hce, leaves_of_ne_nil i a hne]
        exact List.perm_append_comm

/-- `GetLeafs` returns every leaf once: read through the tree, its positions give the ids of the
leaves, up to order. -/
theorem getLeafs_perm (t : TopologyNode) : (t.getLeafs.map t.valueAt).Perm (t.leaves.map value) := by
  simpa using getLeafsLoop_perm t t.nodeCount (q := [([], t)]) (by simp) (by simp)

/-! ### On trees with every leaf at one depth

A tree built by `LoadFromCpuInfo` has all its leaves at the depth of the levels used.  On such a
tree the walk meets the nodes level by level, and a level lists the leaves below it in child
order, so the queue order is the topology order. -/

/-- The positions of the leaves, depth-first in child order: the topology order. -/
def leafPositions (t : TopologyNode) : List (List Nat) := t.leafPositionsWhere fun _ => true

/-- Every leaf sits `D` levels down: the nodes above have children, those at depth `D` none. -/
def Uniform : Nat → TopologyNode → Prop
  | 0, t => t.children = []
  | D + 1, t => t.children ≠ [] ∧ ∀ c ∈ t.children, Uniform D c

theorem exists_leaf_below : ∀ t : TopologyNode, ∃ q l, t.get? q = some l ∧ l.children = []
  | mk i a [] => ⟨[], _, get?_nil _, rfl⟩
  | mk i a (c :: cs) =>
    have ⟨q, l, h1, h2⟩ := exists_leaf_below c
    ⟨0 :: q, l, by simpa using h1, h2⟩

theorem uniform_of_depth : ∀ (D : Nat) {t : TopologyNode},
    (∀ p u, t.get? p = some u → u.isLeaf → p.length = D) → Uniform D t
  | 0, mk i a [], _ => rfl
  | 0, mk i a (c :: cs), h => by
    obtain ⟨q, l, h1, h2⟩ := exists_leaf_below c
    have := h (0 :: q) l (by simpa using h1) (by simp [isLeaf, h2])
    simp at this
  | D + 1, mk i a cs, h => by
    refine ⟨fun hnil => ?_, fun c hc => uniform_of_depth D fun p u hp hu => ?_⟩
    · have := h [] _ (get?_nil _) (by simpa [isLeaf] using hnil)
      simp at this
    · obtain ⟨j, hj⟩ := List.mem_iff_getElem?.1 (by simpa using hc : c ∈ cs)
      simpa using h (j :: p) u (by simp [hj, hp]) hu

theorem depth_of_uniform : ∀ {D : Nat} {t : TopologyNode} {p : List Nat} {u : TopologyNode}, Uniform D t →
    t.get? p = some u → u.isLeaf → p.length = D
  | 0, _, [], _, _, _, _ => rfl
  | D + 1, mk i a cs, [], u, h, hp, hu => by
    rw [get?_nil, Option.some.injEq] at hp; subst hp
    exact absurd (by simpa [isLeaf] using hu) h.1
  | 0, mk i a cs, j :: p, _, h, hp, _ => by
    simp only [Uniform, children_mk] at h; subst h
    simp at hp
  | D + 1, mk i a cs, j :: p, u, h, hp, hu => by
    rw [get?_cons, Option.bind_eq_some] at hp
    obtain ⟨c, hc, hcu⟩ := hp
    rw [List.length_cons, depth_of_uniform (h.2 c (List.getElem?_mem hc)) hcu hu]

theorem uniform_fresh (info : NodeInfo) : ∀ q : List NodeInfo, Uniform q.length ((mk info 0 []).append q)
  | [] => rfl
  | x :: q => by
    have : (mk info 0 []).append (x :: q) = mk info 1 [(mk x 0 []).append q] := by simp [append]
    rw [this]
    exact ⟨by simp, by simpa using uniform_fresh x q⟩

theorem uniform_append : ∀ (q : List NodeInfo) {t : TopologyNode}, Uniform q.length t → Uniform q.length (t.append q)
  | [], mk i a cs, h => h
  | x :: q, mk i a cs, h => by
    obtain ⟨hne, hcs⟩ := h
    simp only [append]
    split
    next j hj =>
      obtain ⟨hj', -, -⟩ := List.findIdx?_eq_some_iff_getElem.1 hj
      refine ⟨by simpa using hne, forall_mem_modify (List.getElem?_eq_getElem hj') hcs
        (uniform_append q (hcs _ (List.getElem_mem hj')))⟩
    next =>
      refine ⟨by simp, fun c hc => ?_⟩
      rcases List.mem_append.1 hc with hc | hc
      exacts [hcs c hc, by rw [List.mem_singleton.1 hc]; exact uniform_fresh x q]

theorem uniform_foldl_append : ∀ {L : Nat} (ps : List (List NodeInfo)) {t : TopologyNode}, Uniform L t →
    (∀ q ∈ ps, q.length = L) → Uniform L (ps.foldl append t)
  | _, [], _, h, _ => h
  | _, q :: ps, _, h, hlen => by
    obtain rfl := hlen q (List.mem_cons_self _ _)
    exact uniform_foldl_append ps (uniform_append q h) fun q' hq' => hlen q' (List.mem_cons_of_mem _ hq')

/-- Every loaded tree has all its leaves at the depth of the levels used. -/
theorem loadFromCpuInfo_uniform (cpus : List CpuInfo) :
    Uniform (getUsedTopoTypes cpus).length (NumaTopology.loadFromCpuInfo cpus).topology := by
  rw [show (NumaTopology.loadFromCpuInfo cpus).topology = _ from NumaTopology.cpuInfoToTopology_eq cpus]
  cases cpus with
  | nil => rfl
  | cons c cs =>
    have hlen : ∀ c' : CpuInfo, (cpuInfoToNodeInfoList c' (getUsedTopoTypes (c :: cs))).length =
        (getUsedTopoTypes (c :: cs)).length := by simp [cpuInfoToNodeInfoList]
    rw [List.map_cons, List.foldl_cons]
    refine uniform_foldl_append _ ?_ (by simp [hlen])
    rw [← hlen c]
    exact uniform_fresh _ _

/-! #### The walk, level by level -/

theorem leafPositions_of_children_nil {n : TopologyNode} (h : n.children = []) : n.leafPositions = [[]] := by
  obtain ⟨i, a, cs⟩ := n
  simp only [children_mk] at h; subst h
  simp [leafPositions]

theorem leafPositionsWhereOf_eq_flatMap (keep : Int → Bool) : ∀ (cs : List TopologyNode) (j : Nat),
    leafPositionsWhereOf keep cs j = (cs.enumFrom j).flatMap fun e => (e.2.leafPositionsWhere keep).map (e.1 :: ·)
  | [], _ => by simp
  | c :: cs, j => by simp [leafPositionsWhereOf_eq_flatMap keep cs (j + 1)]

/-- Below an inner node at `p`, the leaves in topology order are those of its children, one child
after the other. -/
theorem leafPositions_append_of_ne_nil (p : List Nat) {n : TopologyNode} (h : n.children ≠ []) :
    n.leafPositions.map (p ++ ·) =
      (childEntries p n.children).flatMap fun e => e.2.leafPositions.map (e.1 ++ ·) := by
  obtain ⟨i, a, _ | ⟨c, cs⟩⟩ := n
  · exact absurd rfl h
  · simp [leafPositions, leafPositionsWhereOf_eq_flatMap, childEntries, List.enum, List.map_flatMap,
      List.flatMap_map, Function.comp_def]

theorem nodeCount_eq (t : TopologyNode) : t.nodeCount = nodeCountOf t.children + 1 := by cases t; simp

theorem nodeCountOf_childEntries : ∀ q : List (List Nat × TopologyNode),
    nodeCountOf (q.map Prod.snd) = q.length + nodeCountOf ((q.flatMap fun e => childEntries e.1 e.2.children).map Prod.snd)
  | [] => by simp
  | e :: q => by
    rw [List.flatMap_cons, List.map_append, nodeCountOf_append, childEntries_snd, List.map_cons, nodeCountOf_cons,
      nodeCount_eq, nodeCountOf_childEntries q, List.length_cons]
    omega

/-- Popping a queue of inner nodes appends their children, in order. -/
theorem getLeafsLoop_inner (fuel : Nat) : ∀ (q r : List (List Nat × TopologyNode)), (∀ e ∈ q, e.2.children ≠ []) →
    getLeafsLoop (fuel + q.length) (q ++ r) = getLeafsLoop fuel (r ++ q.flatMap fun e => childEntries e.1 e.2.children)
  | [], r, _ => by simp
  | (p, n) :: q, r, h => by
    have hn : n.isLeaf = false := by simpa [isLeaf] using h _ (List.mem_cons_self _ _)
    rw [List.length_cons, ← Nat.add_assoc, List.cons_append]
    simp only [getLeafsLoop, hn, Bool.false_eq_true, if_false]
    rw [List.append_assoc, getLeafsLoop_inner fuel q _ fun e he => h e (List.mem_cons_of_mem _ he)]
    simp

/-- With enough rounds, the walk over a queue of nodes whose leaves all lie `D` levels down
returns the leaves of each queued node in turn, in topology order. -/
theorem getLeafsLoop_uniform : ∀ (D fuel : Nat) (q : List (List Nat × TopologyNode)), (∀ e ∈ q, Uniform D e.2) →
    nodeCountOf (q.map Prod.snd) ≤ fuel → getLeafsLoop fuel q = q.flatMap fun e => e.2.leafPositions.map (e.1 ++ ·)
  | 0, fuel, [], _, _ => by cases fuel <;> rfl
  | 0, fuel, (p, n) :: q, h, hf => by
    have hn : n.children = [] := h _ (List.mem_cons_self _ _)
    have hpos := nodeCount_pos n
    simp only [List.map_cons, nodeCountOf_cons] at hf
    obtain ⟨f, rfl⟩ : ∃ f, fuel = f + 1 := ⟨fuel - 1, by omega⟩
    have hleaf : n.isLeaf = true := by simp [isLeaf, hn]
    rw [getLeafsLoop, if_pos hleaf, getLeafsLoop_uniform 0 f q (fun e he => h e (List.mem_cons_of_mem _ he)) (by omega),
      List.flatMap_cons, leafPositions_of_children_nil hn]
    simp
  | D + 1, fuel, q, h, hf => by
    have hin : ∀ e ∈ q, e.2.children ≠ [] := fun e he => (h e he).1
    have hcount := nodeCountOf_childEntries q
    obtain ⟨f, rfl⟩ : ∃ f, fuel = f + q.length := ⟨fuel - q.length, by omega⟩
    have hstep := getLeafsLoop_inner f q [] hin
    rw [List.append_nil, List.nil_append] at hstep
    rw [hstep, getLeafsLoop_uniform D f _ (fun e he => ?_) (by omega), List.flatMap_assoc]
    · exact List.flatMap_congr fun e he => (leafPositions_append_of_ne_nil e.1 (hin e he)).symm
    · obtain ⟨e', he', he⟩ := List.mem_flatMap.1 he
      simp only [childEntries, List.mem_map] at he
      obtain ⟨⟨j, c⟩, hjc, rfl⟩ := he
      exact (h e' he').2 c (List.snd_mem_of_mem_enum hjc)
termination_by D _ q => (D, q)

/-- **`GetLeafs` on a tree whose leaves all lie at one depth returns the leaves in topology order.** -/
theorem getLeafs_of_uniform {D : Nat} {t : TopologyNode} (h : Uniform D t) : t.getLeafs = t.leafPositions := by
  simpa using getLeafsLoop_uniform D t.nodeCount [([], t)] (by simpa using h) (by simp)

mutual
theorem leafPositions_get? : ∀ t : TopologyNode, t.leafPositions.map t.get? = t.leaves.map some
  | mk i a [] => by simp [leafPositions]
  | mk i a (c :: cs) => by
    rw [leafPositions, leafPositionsWhere_cons, leaves_cons]
    exact leafPositionsOf_get? i a [] (c :: cs)
theorem leafPositionsOf_get? (i : NodeInfo) (a : Int) : ∀ (pre cs : List TopologyNode),
    (leafPositionsWhereOf (fun _ => true) cs pre.length).map (mk i a (pre ++ cs)).get? = (leavesOf cs).map some
  | _, [] => by simp
  | pre, c :: cs => by
    have hc : (pre ++ c :: cs)[pre.length]? = some c := by
      rw [List.getElem?_append_right (Nat.le_refl _), Nat.sub_self, List.getElem?_cons_zero]
    have hrest := leafPositionsOf_get? i a (pre ++ [c]) cs
    rw [List.append_assoc, List.singleton_append, List.length_append, List.length_singleton] at hrest
    rw [leafPositionsWhereOf_cons, List.map_append, hrest, leavesOf_cons, List.map_append, List.map_map,
      ← leafPositions_get? c]
    congr 1
    exact List.map_congr_left fun r _ => by simp [hc]
end

/-- Read through the tree, the leaves in topology order give the leaf ids depth-first. -/
theorem map_valueAt_leafPositions (t : TopologyNode) : t.leafPositions.map t.valueAt = t.leaves.map value := by
  have := congrArg (List.map fun o => (o.map value).getD 0) (leafPositions_get? t)
  simpa [List.map_map, Function.comp_def, valueAt] using this

end TopologyNode

end CpuControlPlane
