import CpuControlPlane.Topology.Numa

/-! # Building the tree from the cpu list

`loadFromCpuInfo` is `NumaTopology.LoadFromCpuInfo`: it keeps the levels on which not all cpus
agree (`getUsedTopoTypes`), turns every cpu into the path of its ids at those levels
(`cpuInfoToNodeInfoList`), and inserts the paths one after the other into an empty machine node
(`append`): an insertion follows the child with the next id, creates it at the end of the
children when there is none, raises every counter on the way, and sets the counter of the node
it ends on to `1`.

A tree built from distinct paths of one length `L` is a `Trie L`: its leaves are exactly at depth
`L` and free, the children of a node have distinct ids, and every inner node counts the free
leaves below it.  Inserting a new path into such a tree keeps it a trie and adds one free leaf
carrying the path's last id (`append_trie`).  Hence, for a non-empty list of cpus with distinct
ids, the loaded tree satisfies the counter invariant, all its leaves are free, and their ids are
distinct (`loadFromCpuInfo_fresh`): these are the fresh states the allocators start from.

- `loadFromCpuInfo_levels`: from two cpus or more, of distinct ids, the leaves are one free leaf
  per cpu carrying its id, and they are exactly the nodes at the depth of the number of levels
  used;
- `loadFromCpuInfo_oneCpu`: a single cpu uses no level, the cpu level included, so the tree is
  the machine node alone, whose id is `0`, not the cpu's; `Take(1)` hands out cpu `0`, and
  `Return` finds no leaf for the machine's cpu.  The package doc of numa.go has the cpus as the
  leaves. -/

namespace CpuControlPlane

open TopologyNode

/-- `valueFromCpuInfo`: the id of a cpu at a level (the machine level is never asked for; the Go
code stops the program there). -/
def TopologyEntryType.valueFromCpuInfo : TopologyEntryType → CpuInfo → Int
  | .node, c => c.node
  | .package, c => c.package
  | .die, c => c.die
  | .core, c => c.core
  | .cpu, c => c.cpu
  | .machine, _ => -1

/-- `getUsedTopoTypes`: the levels, outermost first, on which the cpus do not all agree. -/
def getUsedTopoTypes : List CpuInfo → List TopologyEntryType
  | [] => []
  | c :: cpus => topoTypeByImportance.filter fun topoType =>
      !(cpus.all fun cpu => topoType.valueFromCpuInfo cpu == topoType.valueFromCpuInfo c)

/-- `cpuInfoToNodeInfoList`: the path of a cpu through the given levels. -/
def cpuInfoToNodeInfoList (c : CpuInfo) (topoTypes : List TopologyEntryType) : List NodeInfo :=
  topoTypes.map fun topoType => ⟨topoType, topoType.valueFromCpuInfo c⟩

namespace TopologyNode

/-- `append`: insert a path below this node. -/
def append : TopologyNode → List NodeInfo → TopologyNode
  | mk i _ cs, [] => mk i 1 cs
  | mk i a cs, info :: path =>
    match cs.findIdx? (fun child => child.value == info.value) with
    | some j => mk i (a + 1) (cs.modify (·.append path) j)
    | none => mk i (a + 1) (cs ++ [(mk info 0 []).append path])

end TopologyNode

namespace NumaTopology

/-- `cpuInfoToTopology`: insert the path of every cpu, in order, into an empty machine node. -/
def cpuInfoToTopology (cpuInfos : List CpuInfo) : TopologyNode :=
  cpuInfos.foldl (fun t cpu => t.append (cpuInfoToNodeInfoList cpu (getUsedTopoTypes cpuInfos)))
    (.mk ⟨.machine, 0⟩ 0 [])

/-- `LoadFromCpuInfo`: the tree of the cpus and the map from cpu id to its information. -/
def loadFromCpuInfo (cpus : List CpuInfo) : NumaTopology where
  topology := cpuInfoToTopology cpus
  cpuInformation := cpus.foldl (fun m cpuInfo => m.insert cpuInfo.cpu cpuInfo) ∅

end NumaTopology

/-- Two cpus of one core, with ids 0 and 1. -/
def twoCpuInfos : List CpuInfo := [⟨0, 0, 0, 0, 0⟩, ⟨1, 0, 0, 0, 0⟩]

namespace TopologyNode

/-! ### Tries -/

/-- The tree has a leaf reached from this node through children with the ids `vs`. -/
def HasPath : TopologyNode → List Int → Prop
  | t, [] => t.children = []
  | t, v :: vs => ∃ c ∈ t.children, c.value = v ∧ HasPath c vs

/-- A trie of depth `L` with all leaves free: leaves exactly at depth `L` with counter `1`,
children with distinct ids, inner nodes holding the sum of their children. -/
def Trie : Nat → TopologyNode → Prop
  | 0, t => t.children = [] ∧ t.numAvailable = 1
  | L + 1, t => t.children ≠ [] ∧ (t.children.map value).Nodup ∧ (∀ c ∈ t.children, Trie L c) ∧
      t.numAvailable = sumAvailable t.children

theorem Trie.wf : ∀ {L : Nat} {t : TopologyNode}, Trie L t → t.Wf
  | 0, mk i a cs, h => by simp only [Trie, children_mk, numAvailable_mk] at h; obtain ⟨rfl, rfl⟩ := h; simp
  | L + 1, mk i a cs, h => by
    simp only [Trie, children_mk, numAvailable_mk] at h
    exact (wf_of_ne_nil i a h.1).2 ⟨h.2.2.2, wfOf_iff.2 fun c hc => (h.2.2.1 c hc).wf⟩

theorem Trie.leaves_free : ∀ {L : Nat} {t : TopologyNode}, Trie L t → ∀ l ∈ t.leaves, l.numAvailable = 1
  | 0, mk i a cs, h, l, hl => by
    simp only [Trie, children_mk, numAvailable_mk] at h; obtain ⟨rfl, rfl⟩ := h
    simp at hl; simp [hl]
  | L + 1, mk i a cs, h, l, hl => by
    simp only [Trie, children_mk] at h
    rw [leaves_of_ne_nil i a h.1] at hl
    obtain ⟨c, hc, hl⟩ := mem_leavesOf.1 hl
    exact (h.2.2.1 c hc).leaves_free l hl

/-- In a trie of depth `L` the nodes without children are exactly those at depth `L`. -/
theorem Trie.children_eq_nil_iff : ∀ {L : Nat} {t : TopologyNode} {p : List Nat} {u : TopologyNode}, Trie L t →
    t.get? p = some u → (u.children = [] ↔ p.length = L)
  | 0, _, [], _, h, hp => by rw [get?_nil, Option.some.injEq] at hp; subst hp; simp [h.1]
  | L + 1, _, [], _, h, hp => by rw [get?_nil, Option.some.injEq] at hp; subst hp; simp [h.1]
  | 0, mk i a cs, j :: p, _, h, hp => by
    simp only [Trie, children_mk] at h
    simp [h.1] at hp
  | L + 1, mk i a cs, j :: p, _, h, hp => by
    simp only [Trie, children_mk] at h
    rw [get?_cons, Option.bind_eq_some] at hp
    obtain ⟨c, hc, hcu⟩ := hp
    rw [Trie.children_eq_nil_iff (h.2.2.1 c (List.getElem?_mem hc)) hcu, List.length_cons, Nat.add_right_cancel_iff]

/-! ### Inserting a path -/

@[simp] theorem append_nil (i : NodeInfo) (a : Int) (cs : List TopologyNode) :
    (mk i a cs).append [] = mk i 1 cs := rfl

theorem value_append : ∀ (t : TopologyNode) (q : List NodeInfo), (t.append q).value = t.value
  | mk _ _ _, [] => rfl
  | mk _ _ cs, x :: _ => by simp only [append]; split <;> rfl

theorem forall_mem_modify {P : TopologyNode → Prop} {g : TopologyNode → TopologyNode} {j : Nat}
    {cs : List TopologyNode} {c : TopologyNode} (h : cs[j]? = some c) (hcs : ∀ x ∈ cs, P x)
    (hg : P (g c)) : ∀ x ∈ cs.modify g j, P x := by
  intro x hx
  rw [List.modify_eq_set, h] at hx
  rcases List.mem_or_eq_of_mem_set hx with hx | rfl
  exacts [hcs x hx, hg]

theorem map_modify_of_eq {β : Type} (f : TopologyNode → β) (g : TopologyNode → TopologyNode)
    (hg : ∀ x, f (g x) = f x) : ∀ (j : Nat) (cs : List TopologyNode), (cs.modify g j).map f = cs.map f
  | _, [] => by simp
  | 0, c :: cs => by simp [hg]
  | j + 1, c :: cs => by simp [map_modify_of_eq f g hg j cs]

/-- Inserting a path below a fresh node builds a chain ending in one free leaf. -/
theorem append_fresh : ∀ (q : List NodeInfo) (info : NodeInfo),
    Trie q.length ((mk info 0 []).append q) ∧
      ((mk info 0 []).append q).leaves = [mk (q.getLastD info) 1 []]
  | [], info => ⟨by simp [Trie], by simp⟩
  | x :: q, info => by
    obtain ⟨ht, hl⟩ := append_fresh q x
    have hn : ((mk x 0 []).append q).numAvailable = 1 := by
      rw [numAvailable_eq_leaves ht.wf, hl]; rfl
    have e : (mk info 0 []).append (x :: q) = mk info 1 [(mk x 0 []).append q] := by
      simp [append]
    rw [e, List.getLastD_cons]
    exact ⟨⟨by simp, by simp, by simpa using ht, by simp [hn]⟩, by simp [hl]⟩

theorem numAvailable_append_cons (t : TopologyNode) (x : NodeInfo) (q : List NodeInfo) :
    (t.append (x :: q)).numAvailable = t.numAvailable + 1 := by
  obtain ⟨i, a, cs⟩ := t
  simp only [append]; split <;> rfl

/-- Appending below a child whose id comes next: the child grows by one leaf. -/
theorem append_child_trie {L : Nat} {i : NodeInfo} {a : Int} {cs : List TopologyNode} {j : Nat}
    {c new : TopologyNode} {g : TopologyNode → TopologyNode} (ht : Trie (L + 1) (mk i a cs))
    (hj : cs[j]? = some c) (hv : ∀ x, (g x).value = x.value) (hc : Trie L (g c))
    (hn : (g c).numAvailable = c.numAvailable + 1) (hl : (g c).leaves.Perm (c.leaves ++ [new])) :
    Trie (L + 1) (mk i (a + 1) (cs.modify g j)) ∧
      (mk i (a + 1) (cs.modify g j)).leaves.Perm ((mk i a cs).leaves ++ [new]) := by
  simp only [Trie, children_mk, numAvailable_mk] at ht
  obtain ⟨hne, hnd, hcs, ha⟩ := ht
  have hne' : cs.modify g j ≠ [] := by simpa using hne
  refine ⟨⟨hne', by rwa [children_mk, map_modify_of_eq value g hv], forall_mem_modify hj hcs hc, ?_⟩, ?_⟩
  · simp only [children_mk, numAvailable_mk, sumAvailable_modify g hj, hn, ha]; omega
  · rw [leaves_of_ne_nil _ _ hne', leaves_of_ne_nil _ _ hne, leavesOf_modify g hj, leavesOf_split hj]
    refine ((hl.append_left _).append_right _).trans ?_
    simp only [List.append_assoc]
    exact .append_left _ (.append_left _ (List.perm_append_singleton _ _).symm)

/-- Appending below a new last child: the children keep distinct ids. -/
theorem append_new_trie {L : Nat} {i : NodeInfo} {a : Int} {cs : List TopologyNode} {x : NodeInfo}
    {q : List NodeInfo} (hL : q.length = L) (ht : Trie (L + 1) (mk i a cs))
    (hx : ∀ c ∈ cs, c.value ≠ x.value) :
    Trie (L + 1) (mk i (a + 1) (cs ++ [(mk x 0 []).append q])) ∧
      (mk i (a + 1) (cs ++ [(mk x 0 []).append q])).leaves = (mk i a cs).leaves ++ [mk (q.getLastD x) 1 []] := by
  simp only [Trie, children_mk, numAvailable_mk] at ht
  obtain ⟨hne, hnd, hcs, ha⟩ := ht
  obtain ⟨hf, hl⟩ := append_fresh q x
  subst hL
  have hn : ((mk x 0 []).append q).numAvailable = 1 := by rw [numAvailable_eq_leaves hf.wf, hl]; rfl
  refine ⟨⟨by simp, ?_, ?_, by simp [ha, hn]⟩, ?_⟩
  · simpa [List.nodup_append, value_append, hnd] using hx
  · intro c hc
    rcases List.mem_append.1 hc with hc | hc
    exacts [hcs c hc, by simp at hc; exact hc ▸ hf]
  · rw [leaves_of_ne_nil _ _ (by simp), leaves_of_ne_nil _ _ hne, leavesOf_append]; simp [hl]

/-- Inserting a path of the trie's depth whose last id is not yet a leaf keeps the trie and adds
that leaf, free. -/
theorem append_trie (x : NodeInfo) (q : List NodeInfo) : ∀ {t : TopologyNode},
    Trie (q.length + 1) t → (q.getLastD x).value ∉ t.leaves.map value →
    Trie (q.length + 1) (t.append (x :: q)) ∧
      (t.append (x :: q)).leaves.Perm (t.leaves ++ [mk (q.getLastD x) 1 []]) := by
  induction q generalizing x with
  | nil => ?_
  | cons y q ih => ?_
  all_goals
    rintro ⟨i, a, cs⟩ ht hnew
    rcases h : cs.findIdx? (fun child => child.value == x.value) with _ | j
    · simp only [append, h]
      obtain ⟨h1, h2⟩ := append_new_trie rfl ht (by simpa using List.findIdx?_eq_none_iff.1 h)
      exact ⟨h1, h2 ▸ List.Perm.refl _⟩
    obtain ⟨hj, hv, -⟩ := List.findIdx?_eq_some_iff_getElem.1 h
    have hc : cs[j] ∈ cs := List.getElem_mem hj
    have hsub : ∀ l ∈ cs[j].leaves, l ∈ (mk i a cs).leaves := fun l hl =>
      (leaves_of_ne_nil i a (List.ne_nil_of_mem hc)).symm ▸ mem_leavesOf.2 ⟨_, hc, hl⟩
    simp only [Trie, children_mk] at ht
    simp only [append, h]
  · -- a path of one id cannot end on an existing leaf
    have hleaf := (ht.2.2.1 _ hc).1
    refine absurd ?_ hnew
    exact List.mem_map.2 ⟨cs[j], hsub _ (by rw [leaves_of_children_nil hleaf]; exact List.mem_singleton_self _),
      by simpa using hv⟩
  · obtain ⟨h1, h2⟩ := ih y (ht.2.2.1 _ hc) fun hm => hnew <| by
      obtain ⟨l, hl, hlv⟩ := List.mem_map.1 hm
      exact List.mem_map.2 ⟨l, hsub l hl, by rw [hlv, List.getLastD_cons]⟩
    rw [List.getLastD_cons]
    exact append_child_trie (by simpa only [Trie, children_mk] using ht) (List.getElem?_eq_getElem hj)
      (fun t => value_append t _) h1 (numAvailable_append_cons _ _ _) h2

/-- Inserting paths one after the other, each of the trie's depth and ending on a new id. -/
theorem foldl_append_trie {L : Nat} (d : NodeInfo) : ∀ (ps : List (List NodeInfo)) {t : TopologyNode},
    Trie (L + 1) t → (∀ p ∈ ps, p.length = L + 1) →
    (t.leaves.map value ++ ps.map fun p => (p.getLastD d).value).Nodup →
    Trie (L + 1) (ps.foldl append t) ∧
      (ps.foldl append t).leaves.Perm (t.leaves ++ ps.map fun p => mk (p.getLastD d) 1 [])
  | [], _, ht, _, _ => ⟨ht, by simp⟩
  | [] :: _, _, _, hlen, _ => absurd (hlen [] (List.mem_cons_self _ _)) (by simp)
  | (x :: q) :: ps, t, ht, hlen, hnd => by
    have hq : q.length = L := by simpa using hlen _ (List.mem_cons_self _ _)
    rw [List.map_cons, List.getLastD_cons, List.nodup_append_comm, List.cons_append,
      List.nodup_cons, List.mem_append, not_or, List.nodup_append_comm] at hnd
    obtain ⟨h1, h2⟩ := append_trie x q (by rwa [hq]) hnd.1.2
    rw [hq] at h1
    have hnd' : ((t.append (x :: q)).leaves.map value ++ ps.map fun p => (p.getLastD d).value).Nodup := by
      refine ((h2.map value).append_right _).nodup_iff.2 ?_
      rw [List.map_append, List.append_assoc, List.map_singleton, List.singleton_append, List.nodup_middle,
        List.nodup_cons, List.mem_append, not_or]
      exact ⟨⟨hnd.1.2, hnd.1.1⟩, hnd.2⟩
    obtain ⟨h3, h4⟩ := foldl_append_trie d ps h1 (fun p hp => hlen p (List.mem_cons_of_mem _ hp)) hnd'
    refine ⟨h3, h4.trans ?_⟩
    rw [List.map_cons, List.getLastD_cons]
    exact (h2.append_right _).trans (by simp)

end TopologyNode

namespace NumaTopology

theorem cpuInfoToTopology_eq (cpus : List CpuInfo) :
    cpuInfoToTopology cpus = (cpus.map fun c => cpuInfoToNodeInfoList c (getUsedTopoTypes cpus)).foldl
      append (.mk ⟨.machine, 0⟩ 0 []) := by
  simp only [cpuInfoToTopology, List.foldl_map]

/-- With two cpus of distinct ids the cpu level is used, and it comes last. -/
theorem getUsedTopoTypes_eq_append_cpu {c : CpuInfo} {cpus : List CpuInfo} (hne : cpus ≠ [])
    (hd : ((c :: cpus).map CpuInfo.cpu).Nodup) : ∃ ts, getUsedTopoTypes (c :: cpus) = ts ++ [.cpu] := by
  obtain ⟨c', hc'⟩ := List.exists_mem_of_ne_nil cpus hne
  have hne' : c'.cpu ≠ c.cpu := fun h => (List.nodup_cons.1 hd).1 (h ▸ List.mem_map_of_mem _ hc')
  rw [getUsedTopoTypes, show topoTypeByImportance = [.node, .package, .die, .core] ++ [.cpu] from rfl,
    List.filter_append]
  refine ⟨_, congrArg _ ?_⟩
  simpa [TopologyEntryType.valueFromCpuInfo] using ⟨c', hc', hne'⟩

/-- With two cpus or more, of distinct ids, the loaded tree is a trie as deep as the levels used,
with one free leaf of the cpu level for each cpu, carrying the cpu's id. -/
theorem loadFromCpuInfo_trie {cpus : List CpuInfo} (h2 : 2 ≤ cpus.length) (hd : (cpus.map CpuInfo.cpu).Nodup) :
    Trie (getUsedTopoTypes cpus).length (loadFromCpuInfo cpus).topology ∧
      (loadFromCpuInfo cpus).topology.leaves.Perm (cpus.map fun c => TopologyNode.mk ⟨.cpu, c.cpu⟩ 1 []) := by
  obtain ⟨c, cs, rfl⟩ := List.exists_cons_of_ne_nil (List.ne_nil_of_length_pos (by omega : 0 < cpus.length))
  have hcs : cs ≠ [] := by rintro rfl; simp at h2
  obtain ⟨ts, hts⟩ := getUsedTopoTypes_eq_append_cpu hcs hd
  have hlast : ∀ c' : CpuInfo,
      (cpuInfoToNodeInfoList c' (getUsedTopoTypes (c :: cs))).getLast? = some ⟨.cpu, c'.cpu⟩ := by
    simp [hts, cpuInfoToNodeInfoList, TopologyEntryType.valueFromCpuInfo]
  have hlen : ∀ c' : CpuInfo, (cpuInfoToNodeInfoList c' (getUsedTopoTypes (c :: cs))).length = ts.length + 1 := by
    simp [hts, cpuInfoToNodeInfoList]
  simp only [loadFromCpuInfo, cpuInfoToTopology_eq, List.map_cons, List.foldl_cons]
  obtain ⟨hf, hl⟩ := append_fresh (cpuInfoToNodeInfoList c (getUsedTopoTypes (c :: cs))) ⟨.machine, 0⟩
  rw [hlen] at hf
  obtain ⟨h1, h3⟩ := foldl_append_trie ⟨.machine, 0⟩
    (cs.map fun c' => cpuInfoToNodeInfoList c' (getUsedTopoTypes (c :: cs))) hf (by simp [hlen])
    (by simpa [hl, hlast, Function.comp_def] using hd)
  have hL : (getUsedTopoTypes (c :: cs)).length = ts.length + 1 := by simp [hts]
  refine ⟨hL ▸ h1, h3.trans ?_⟩
  simp [hl, hlast, Function.comp_def]

/-- A non-empty list of cpus with distinct ids loads into a tree that satisfies the counter
invariant, whose leaves are all free and carry distinct ids. -/
theorem loadFromCpuInfo_fresh {cpus : List CpuInfo} (hne : cpus ≠ []) (hd : (cpus.map CpuInfo.cpu).Nodup) :
    (loadFromCpuInfo cpus).topology.Wf ∧ (∀ l ∈ (loadFromCpuInfo cpus).topology.leaves, l.numAvailable = 1) ∧
      ((loadFromCpuInfo cpus).topology.leaves.map value).Nodup := by
  rcases cpus with _ | ⟨c, _ | ⟨c', cs⟩⟩
  · exact absurd rfl hne
  · simp [loadFromCpuInfo, cpuInfoToTopology, getUsedTopoTypes, cpuInfoToNodeInfoList]
  · obtain ⟨ht, hl⟩ := loadFromCpuInfo_trie (by simp) hd
    exact ⟨ht.wf, ht.leaves_free, (hl.map value).nodup_iff.2 (by simpa [Function.comp_def] using hd)⟩

/-- **The loaded tree.**  From two cpus or more, of distinct ids, `LoadFromCpuInfo` builds a tree
with one leaf for each cpu, carrying its id; the leaves are exactly the nodes at the depth of the
number of levels on which the cpus differ; every leaf is free and every inner node counts the sum
of its children. -/
theorem loadFromCpuInfo_levels (cpus : List CpuInfo) (h2 : 2 ≤ cpus.length) (hd : (cpus.map CpuInfo.cpu).Nodup) :
    (loadFromCpuInfo cpus).topology.leaves.Perm (cpus.map fun c => TopologyNode.mk ⟨.cpu, c.cpu⟩ 1 []) ∧
      (∀ p u, (loadFromCpuInfo cpus).topology.get? p = some u →
        (u.children = [] ↔ p.length = (getUsedTopoTypes cpus).length)) ∧
      (loadFromCpuInfo cpus).topology.Wf := by
  obtain ⟨ht, hl⟩ := loadFromCpuInfo_trie h2 hd
  exact ⟨hl, fun p u hp => ht.children_eq_nil_iff hp, ht.wf⟩

/-- Two cpus of one core. -/
theorem loadFromCpuInfo_levels_twoCpus :
    2 ≤ [CpuInfo.mk 0 0 0 0 0, CpuInfo.mk 1 0 0 0 0].length ∧ ([CpuInfo.mk 0 0 0 0 0, CpuInfo.mk 1 0 0 0 0].map CpuInfo.cpu).Nodup ∧
      (loadFromCpuInfo [⟨0, 0, 0, 0, 0⟩, ⟨1, 0, 0, 0, 0⟩]).topology.Wf :=
  ⟨by decide, by decide, (loadFromCpuInfo_levels [⟨0, 0, 0, 0, 0⟩, ⟨1, 0, 0, 0, 0⟩] (by decide) (by decide)).2.2⟩

/-- **A single cpu is lost.**  A single cpu agrees with itself on every level, the cpu level
included, so no level is used: the tree is the machine node alone, a free leaf with id `0` whatever
the cpu's id.  `Take(1)` then hands out cpu `0`, which the machine does not have, and `Return(1)`
finds no leaf for the machine's cpu. -/
theorem loadFromCpuInfo_oneCpu :
    (loadFromCpuInfo [⟨1, 0, 0, 0, 0⟩]).topology = TopologyNode.mk ⟨.machine, 0⟩ 1 [] ∧
      ((loadFromCpuInfo [⟨1, 0, 0, 0, 0⟩]).take 1).1 = .ok [0] ∧
      ((loadFromCpuInfo [⟨1, 0, 0, 0, 0⟩]).returnCpu 1).1 = some .notFound :=
  ⟨rfl, rfl, rfl⟩

end NumaTopology

end CpuControlPlane
