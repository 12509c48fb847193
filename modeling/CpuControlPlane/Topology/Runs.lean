import CpuControlPlane.Topology.Lowest

/-! # Where `Take` takes, on every topology a run reaches

The allocators load a topology with `LoadFromCpuInfo` and then change it only by `Take` and
`Return`, with whatever arguments their callers pass (`Reachable`).  The counters of such a tree
need not count its free leaves exactly: loading a list that repeats a cpu counts the repeated path
twice, and `Take` of `n ≤ 0` zeroes a leaf while raising its ancestors by `-n`.  They always cover
the free leaves (`Covers`): loading builds levels one path length deep (`Layered`), and `Take` and
`Return` replace a subtree and shift its ancestors by no less than the subtree's counter moved.

Main results:

* `take_lowest`: on a reachable topology, `Take(n)` for `1 ≤ n ≤` the root's counter succeeds and
  returns at most `n` distinct free leaves of the node the search finds, in child order; that node
  is the deepest that counts `n` and the first in child order among the deepest; no `n` free leaves have a common ancestor deeper
  than that node, so no `n` free leaves are closer to each other than the ones returned;
* `take_zero`: on a tree whose counters cover its free leaves, `Take(0)` succeeds with the id of
  the first deepest leaf, marks that leaf taken and changes no other counter
  (`take_zero_twoCpus`: on two free cpus it returns cpu `0`, and the root still counts two). -/

namespace CpuControlPlane

namespace TopologyNode

/-! ### Shifting the ancestors of a changed subtree -/

/-- Replacing the subtree at `p` by a covering one whose counter grows by at most `d`, and
shifting every ancestor by `d`, keeps the counters covering the free leaves. -/
theorem covers_addAbove_modify {d : Int} {l' : TopologyNode} (hl' : l'.Covers) :
    ∀ {p : List Nat} {t l : TopologyNode}, t.get? p = some l → t.Covers → l'.numAvailable ≤ l.numAvailable + d →
      ((t.modify p fun _ => l').addAbove d p).Covers ∧
        ((t.modify p fun _ => l').addAbove d p).numAvailable ≤ t.numAvailable + d
  | [], _, _, hp, _, hd => by
    rw [get?_nil, Option.some.injEq] at hp; subst hp
    exact ⟨by simpa using hl', by simpa using hd⟩
  | j :: p, mk i a cs, l, hp, ht, hd => by
    rw [get?_cons, Option.bind_eq_some] at hp
    obtain ⟨c, hc, hcl⟩ := hp
    have hmem := List.getElem?_mem hc
    rw [covers_of_ne_nil i a (List.ne_nil_of_mem hmem)] at ht
    obtain ⟨ih1, ih2⟩ := covers_addAbove_modify hl' hcl (coversOf_iff.1 ht.2 c hmem) hd
    simp only [modify_cons, addAbove_cons, modify_modify_same, numAvailable_mk]
    refine ⟨(covers_of_ne_nil i _ (by simpa using List.ne_nil_of_mem hmem)).2 ⟨?_, coversOf_modify hc ht.2 ih1⟩,
      le_rfl⟩
    rw [sumAvailable_modify _ hc, Function.comp_apply]
    omega

/-! ### Loading -/

/-- The levels `append` builds, `L` deep: a node at depth `L` has no children and counts `0` or
`1`; above, a node counts at least its children, and `0` while it has none. -/
def Layered : Nat → TopologyNode → Prop
  | 0, t => t.children = [] ∧ (t.numAvailable = 0 ∨ t.numAvailable = 1)
  | L + 1, t => sumAvailable t.children ≤ t.numAvailable ∧ (t.children = [] → t.numAvailable = 0) ∧
      ∀ c ∈ t.children, Layered L c

theorem Layered.covers : ∀ {L : Nat} {t : TopologyNode}, Layered L t → t.Covers
  | 0, mk i a cs, h => by
    simp only [Layered, children_mk, numAvailable_mk] at h
    obtain ⟨rfl, h⟩ := h
    simpa using h
  | _ + 1, mk i a [], h => by simp [Layered] at h; simp [h]
  | _ + 1, mk i a (c :: cs), h => by
    simp only [Layered, children_mk, numAvailable_mk] at h
    exact (covers_cons ..).2 ⟨h.1, coversOf_iff.2 fun d hd => (h.2.2 d hd).covers⟩

theorem layered_fresh (info : NodeInfo) : ∀ L, Layered L (mk info 0 [])
  | 0 => by simp [Layered]
  | _ + 1 => by simp [Layered]

/-- Inserting a path as long as the levels keeps them, and raises the node's counter by at most
one. -/
theorem layered_append : ∀ (q : List NodeInfo) {t : TopologyNode}, Layered q.length t →
    Layered q.length (t.append q) ∧ (t.append q).numAvailable ≤ t.numAvailable + 1
  | [], mk i a cs, h => by
    simp only [List.length_nil, Layered, children_mk, numAvailable_mk] at h
    obtain ⟨rfl, h⟩ := h
    simp only [append_nil, Layered, children_mk, numAvailable_mk]
    exact ⟨by simp, by omega⟩
  | x :: q, mk i a cs, h => by
    simp only [List.length_cons, Layered, children_mk, numAvailable_mk] at h
    obtain ⟨hsum, -, hcs⟩ := h
    simp only [append]
    split
    next j hj =>
      obtain ⟨hj', -, -⟩ := List.findIdx?_eq_some_iff_getElem.1 hj
      have hc := List.getElem?_eq_getElem hj'
      obtain ⟨ih1, ih2⟩ := layered_append q (hcs _ (List.getElem_mem hj'))
      refine ⟨⟨?_, fun hnil => ?_, forall_mem_modify hc hcs ih1⟩, by simp⟩
      · rw [children_mk, numAvailable_mk, sumAvailable_modify _ hc]
        omega
      · have := congrArg List.length hnil
        rw [children_mk, List.length_modify, List.length_nil] at this
        omega
    next =>
      obtain ⟨ih1, ih2⟩ := layered_append q (layered_fresh x q.length)
      refine ⟨⟨?_, by simp, fun c hc => ?_⟩, by simp⟩
      · simp only [children_mk, numAvailable_mk, sumAvailable_append, sumAvailable_cons, sumAvailable_nil] at ih2 ⊢
        omega
      · rcases List.mem_append.1 hc with hc | hc
        exacts [hcs c hc, by rw [List.mem_singleton.1 hc]; exact ih1]

theorem layered_foldl_append : ∀ {L : Nat} (ps : List (List NodeInfo)) {t : TopologyNode}, Layered L t →
    (∀ q ∈ ps, q.length = L) → Layered L (ps.foldl append t)
  | _, [], _, h, _ => h
  | _, q :: ps, _, h, hlen => by
    obtain rfl := hlen q (List.mem_cons_self _ _)
    exact layered_foldl_append ps (layered_append q h).1 fun q' hq' => hlen q' (List.mem_cons_of_mem _ hq')

/-! ### Free leaves below a common ancestor -/

/-- The positions of the free leaves, depth-first. -/
def freeLeafPositions (t : TopologyNode) : List (List Nat) := t.leafPositionsWhere fun a => decide (0 < a)

/-- The position of every free leaf is listed. -/
theorem mem_freeLeafPositions {s : List Nat} {t w : TopologyNode} (hs : t.get? s = some w) (hl : w.isLeaf)
    (ha : w.available) : s ∈ t.freeLeafPositions :=
  (mem_leafPositionsWhere _).2 ⟨w, hs, by simpa [isLeaf] using hl, by simpa using ha⟩

mutual
/-- Counters that cover the free leaves count at least the free leaves. -/
theorem length_freeLeafPositions_le : ∀ {t : TopologyNode}, t.Covers → (t.freeLeafPositions.length : Int) ≤ t.numAvailable
  | mk _ a [], h => by
    rw [covers_nil] at h
    by_cases ha : 0 < a <;> simp [freeLeafPositions, ha] <;> omega
  | mk _ a (c :: cs), h => by
    rw [covers_cons] at h
    rw [freeLeafPositions, leafPositionsWhere_cons, numAvailable_mk]
    exact (length_freeLeafPositionsOf_le h.2 0).trans h.1
theorem length_freeLeafPositionsOf_le : ∀ {cs : List TopologyNode}, CoversOf cs → ∀ j,
    ((leafPositionsWhereOf (fun a => decide (0 < a)) cs j).length : Int) ≤ sumAvailable cs
  | [], _, _ => by simp
  | c :: cs, h, j => by
    rw [coversOf_cons] at h
    have h1 := length_freeLeafPositions_le h.1
    have h2 := length_freeLeafPositionsOf_le h.2 (j + 1)
    simp only [freeLeafPositions] at h1
    simp only [leafPositionsWhereOf_cons, List.length_append, List.length_map, sumAvailable_cons]
    omega
end

/-- Distinct free leaves below a common ancestor are no more than the ancestor's counter. -/
theorem length_le_of_ancestor {t w : TopologyNode} {r : List Nat} {S : List (List Nat)} (ht : t.Covers)
    (hr : t.get? r = some w) (hS : S.Nodup) (hfree : ∀ s ∈ S, ∃ u, t.get? s = some u ∧ u.isLeaf ∧ u.available)
    (hpre : ∀ s ∈ S, r <+: s) : (S.length : Int) ≤ w.numAvailable := by
  have hback : ∀ s ∈ S, r ++ s.drop r.length = s := fun s hs => List.prefix_iff_eq_append.1 (hpre s hs)
  have hsub : S.map (List.drop r.length) ⊆ w.freeLeafPositions := by
    intro q hq
    obtain ⟨s, hs, rfl⟩ := List.mem_map.1 hq
    obtain ⟨u, hu, hl, ha⟩ := hfree s hs
    rw [← hback s hs, get?_append hr] at hu
    exact mem_freeLeafPositions hu hl ha
  have hnd : (S.map (List.drop r.length)).Nodup :=
    List.Nodup.map_on (fun s hs s' hs' h => by rw [← hback s hs, ← hback s' hs', h]) hS
  calc (S.length : Int) = (S.map (List.drop r.length)).length := by rw [List.length_map]
    _ ≤ w.freeLeafPositions.length := Int.ofNat_le.2 (List.subperm_of_subset hnd hsub).length_le
    _ ≤ w.numAvailable := length_freeLeafPositions_le (ht.of_get? hr).1

end TopologyNode

namespace NumaTopology

open TopologyNode

/-! ### Every step keeps the counters covering the free leaves -/

/-- Every loaded tree's counters cover its free leaves, whatever the cpu list. -/
theorem loadFromCpuInfo_covers (cpus : List CpuInfo) : (loadFromCpuInfo cpus).topology.Covers := by
  rw [show (loadFromCpuInfo cpus).topology = _ from cpuInfoToTopology_eq cpus]
  exact (layered_foldl_append (L := (getUsedTopoTypes cpus).length) _ (layered_fresh _ _)
    (by simp [cpuInfoToNodeInfoList])).covers

/-- `Take(n)` for any `n` the root's counter reaches succeeds and keeps the counters covering the
free leaves; for `1 ≤ n` it returns the ids of at most `n` distinct free leaves of the node the
search finds, in child order. -/
theorem take_of_covers {nt : NumaTopology} {n : Int} (h : nt.topology.Covers) (hle : n ≤ nt.topology.numAvailable) :
    ∃ p v k ids nt', nt.topology.findLowestNodeWithEnoughAvailability n 0 = some (p, v, k) ∧
      nt.take n = (.ok ids, nt') ∧
      (1 ≤ n → ids.Sublist ((v.leaves.filter available).map value) ∧ (ids.length : Int) ≤ n) ∧
      nt'.topology.Covers := by
  obtain ⟨⟨p, v, k⟩, hfind⟩ := Option.isSome_iff_exists.1 ((findLowest_isSome n nt.topology 0).2 hle)
  obtain ⟨hp, hv⟩ := findLowest_spec hfind
  have hvc := (h.of_get? hp).1
  obtain ⟨taken, v', htake, hc', hcnt, hval⟩ : ∃ taken v', v.takeLeaves n = (taken, false, v') ∧ v'.Covers ∧
      v'.numAvailable ≤ v.numAvailable + -n ∧
      (1 ≤ n → (taken.map value).Sublist ((v.leaves.filter available).map value) ∧ (taken.length : Int) ≤ n) := by
    rcases le_or_lt 1 n with hn | hn
    · obtain ⟨taken, v', h1, h2, h3, h4, h5⟩ := takeLeaves_covers hvc hn hv
      exact ⟨taken, v', h1, h2, by omega, fun _ => ⟨h5, h4⟩⟩
    · have hleaf := children_eq_nil_of_isLowest h (by omega) hp (findLowest_isLowest h hfind).2
      obtain ⟨i, a, cs⟩ := v
      simp only [children_mk] at hleaf; subst hleaf
      rw [covers_nil] at hvc
      exact ⟨[TopologyNode.mk i 0 []], TopologyNode.mk i 0 [], by simp [takeLeaves, show ¬a < n by omega], by simp,
        by simp; omega, fun h1 => absurd h1 (by omega)⟩
  exact ⟨p, v, k, taken.map value, _, hfind, take_eq_of_takeLeaves hfind htake, by simpa using hval,
    (covers_addAbove_modify hc' hp h hcnt).1⟩

theorem take_covers {nt : NumaTopology} (n : Int) (h : nt.topology.Covers) : (nt.take n).2.topology.Covers := by
  rcases lt_or_le nt.topology.numAvailable n with hlt | hle
  · rw [take_of_lt hlt]
    exact h
  · obtain ⟨_, _, _, _, nt', -, ht, -, hc⟩ := take_of_covers h hle
    rw [ht]
    exact hc

theorem returnCpu_covers {nt : NumaTopology} (v : Int) (h : nt.topology.Covers) :
    (nt.returnCpu v).2.topology.Covers := by
  unfold returnCpu
  split
  · exact h
  next p x hfind =>
    obtain ⟨hp, hcmp⟩ := find_spec hfind
    simp only [Bool.and_eq_true, isLeaf, List.isEmpty_iff] at hcmp
    split_ifs with h0
    · obtain ⟨i, a, cs⟩ := x
      simp only [children_mk] at hcmp
      obtain ⟨rfl, -⟩ := hcmp
      rw [numAvailable_mk] at h0; subst h0
      dsimp only
      rw [addAlong_eq, modify_eq_const _ hp]
      exact (covers_addAbove_modify (by simp) hp h (by simp)).1
    · exact h

/-! ### Runs -/

/-- The topologies a run reaches: loaded from the cpu list, then changed by any sequence of
`Take` and `Return`, whatever their arguments. -/
inductive Reachable (cpus : List CpuInfo) : NumaTopology → Prop
  | load : Reachable cpus (loadFromCpuInfo cpus)
  | take {nt : NumaTopology} (n : Int) : Reachable cpus nt → Reachable cpus (nt.take n).2
  | returnCpu {nt : NumaTopology} (v : Int) : Reachable cpus nt → Reachable cpus (nt.returnCpu v).2

theorem Reachable.covers {cpus : List CpuInfo} {nt : NumaTopology} (h : Reachable cpus nt) : nt.topology.Covers := by
  induction h with
  | load => exact loadFromCpuInfo_covers cpus
  | take n _ ih => exact take_covers n ih
  | returnCpu v _ ih => exact returnCpu_covers v ih

/-- **`Take` minimises the topology distance.**  On every topology a run reaches, `Take(n)` for
`1 ≤ n ≤` the root's counter succeeds and returns the ids of at most `n` distinct free leaves below
the node `v` the search finds at position `p`, in child order: `v` counts `n` free leaves, no node
that counts `n` is deeper, and none as deep comes before it in child order.  Every `n` distinct
free leaves have all their common ancestors at depth at most `p`'s, so none are closer to each
other than the leaves returned.  (A counter may exceed the free leaves below it on these trees,
so fewer than `n` ids may come back; on trees whose counters are exact `take_correct` gives `n`.) -/
theorem take_lowest (cpus : List CpuInfo) (nt : NumaTopology) (hr : Reachable cpus nt) (n : Int) (hn : 1 ≤ n)
    (hle : n ≤ nt.topology.numAvailable) :
    ∃ p v ids nt', nt.topology.findLowestNodeWithEnoughAvailability n 0 = some (p, v, p.length) ∧
      nt.take n = (.ok ids, nt') ∧ nt.topology.get? p = some v ∧ n ≤ v.numAvailable ∧
      IsLowest n nt.topology p ∧ ids.Sublist ((v.leaves.filter available).map value) ∧ (ids.length : Int) ≤ n ∧
      ∀ (S : List (List Nat)) (r : List Nat), S.Nodup → n ≤ S.length →
        (∀ s ∈ S, ∃ w, nt.topology.get? s = some w ∧ w.isLeaf ∧ w.available) → (∀ s ∈ S, r <+: s) →
        r.length ≤ p.length := by
  have hc := hr.covers
  obtain ⟨p, v, k, ids, nt', hfind, htake, hids, -⟩ := take_of_covers hc hle
  obtain ⟨hp, hv⟩ := findLowest_spec hfind
  obtain ⟨hk, hlow⟩ := findLowest_isLowest hc hfind
  rw [Nat.zero_add] at hk; subst hk
  refine ⟨p, v, ids, nt', hfind, htake, hp, hv, hlow, (hids hn).1, (hids hn).2, fun S r hS hlen hfree hpre => ?_⟩
  obtain ⟨s, hs⟩ := List.exists_mem_of_length_pos (by omega : 0 < S.length)
  obtain ⟨u, hu, -⟩ := hfree s hs
  obtain ⟨q, rfl⟩ := hpre s hs
  rw [get?_append_eq_bind, Option.bind_eq_some] at hu
  obtain ⟨w, hw, -⟩ := hu
  exact (hlow r w hw (hlen.trans (length_le_of_ancestor hc hw hS hfree hpre))).1

/-- Two free cpus of one core, one taken. -/
theorem take_lowest_twoCpus :
    Reachable twoCpuInfos (loadFromCpuInfo twoCpuInfos) ∧ (1 : Int) ≤ 1 ∧
      1 ≤ (loadFromCpuInfo twoCpuInfos).topology.numAvailable ∧
      ∃ p v ids nt', (loadFromCpuInfo twoCpuInfos).topology.findLowestNodeWithEnoughAvailability 1 0 =
          some (p, v, p.length) ∧
        (loadFromCpuInfo twoCpuInfos).take 1 = (.ok ids, nt') ∧ (loadFromCpuInfo twoCpuInfos).topology.get? p = some v ∧
        1 ≤ v.numAvailable ∧ IsLowest 1 (loadFromCpuInfo twoCpuInfos).topology p ∧
        ids.Sublist ((v.leaves.filter available).map value) ∧ (ids.length : Int) ≤ 1 ∧
        ∀ (S : List (List Nat)) (r : List Nat), S.Nodup → (1 : Int) ≤ S.length →
          (∀ s ∈ S, ∃ w, (loadFromCpuInfo twoCpuInfos).topology.get? s = some w ∧ w.isLeaf ∧ w.available) →
          (∀ s ∈ S, r <+: s) → r.length ≤ p.length :=
  ⟨.load, le_rfl, by decide, take_lowest twoCpuInfos _ .load 1 le_rfl (by decide)⟩

/-- **`Take(0)` takes a cpu.**  On a tree whose counters cover its free leaves every node has at
least `0` free leaves, so the search ends on the first deepest node, a leaf; `takeLeaves` marks
that leaf taken and returns it, and its ancestors move by `0`. -/
theorem take_zero (nt : NumaTopology) (h : nt.topology.Covers) :
    ∃ p l, nt.topology.get? p = some l ∧ l.isLeaf ∧ IsLowest 0 nt.topology p ∧
      nt.take 0 = (.ok [l.value], { nt with topology := nt.topology.modify p fun x => x.setAvailable 0 }) := by
  obtain ⟨⟨p, v, k⟩, hfind⟩ := Option.isSome_iff_exists.1 ((findLowest_isSome 0 nt.topology 0).2 h.nonneg)
  obtain ⟨hp, -⟩ := findLowest_spec hfind
  have hlow := (findLowest_isLowest h hfind).2
  have hleaf := children_eq_nil_of_isLowest h le_rfl hp hlow
  obtain ⟨i, a, cs⟩ := v
  simp only [children_mk] at hleaf; subst hleaf
  have ha := (h.of_get? hp).1
  rw [covers_nil] at ha
  refine ⟨p, _, hp, by simp, hlow, ?_⟩
  have hleaf : (TopologyNode.mk i a []).takeLeaves 0 = ([TopologyNode.mk i 0 []], false, TopologyNode.mk i 0 []) := by
    simp [takeLeaves]; omega
  rw [take_eq_of_takeLeaves hfind hleaf, Int.neg_zero, addAbove_zero, modify_eq_const (fun x => x.setAvailable 0) hp]
  rfl

/-- Two free cpus: `Take(0)` returns cpu `0` and marks it taken, and the root still counts two. -/
theorem take_zero_twoCpus :
    twoCpus.topology.Wf ∧ (twoCpus.take 0).1 = .ok [0] ∧
      (twoCpus.take 0).2.topology = .mk ⟨.machine, 0⟩ 2 [.mk ⟨.cpu, 0⟩ 0 [], .mk ⟨.cpu, 1⟩ 1 []] ∧
      ¬(twoCpus.take 0).2.topology.Wf :=
  ⟨by decide, rfl, rfl, by decide⟩

end NumaTopology

end CpuControlPlane
