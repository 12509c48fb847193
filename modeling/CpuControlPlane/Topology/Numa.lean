import CpuControlPlane.Topology.TakeLeaves
import Mathlib.Data.List.AList

/-! # `NumaTopology.Take` and `NumaTopology.Return`

`take n` is the allocation algorithm of the NUMA-aware allocators.  It finds the deepest node,
first in child order, that still has `n` free leaves (`findLowestNodeWithEnoughAvailability`),
takes `n` leaves below it (`takeLeaves`), and lowers every ancestor of that node by `n`, which it
reaches through a depth-first search for the node (`find`).  `returnCpu` finds the leaf of a cpu
id and, when it is taken, raises it and every node above it by one.

Main results:

* `findLowest_spec`: the node found has at least `n` free leaves, and one is found exactly when
  the root has;
* `take_spec`: on a tree with consistent counters and distinct leaf ids, `take n` for
  `1 ≤ n ≤` the root's counter returns `n` distinct ids of free leaves, marks exactly those
  leaves taken, keeps the shape and the counters consistent, and lowers the root by `n`; for a
  larger `n` it fails and changes nothing;
* `returnCpu_spec`: returning the id of a taken leaf frees exactly that leaf and keeps the
  counters consistent; returning a free or unknown id changes nothing. -/

namespace CpuControlPlane

/-- `CpuInfo`: where a cpu sits in the machine. -/
structure CpuInfo where
  cpu : Int
  node : Int
  package : Int
  die : Int
  core : Int
  deriving DecidableEq, Repr

namespace TopologyNode

mutual
/-- `findLowestNodeWithEnoughAvailability`: the deepest node with at least `n` free leaves, the
first one in child order among the deepest; with its position and its level. -/
def findLowestNodeWithEnoughAvailability (n : Int) : TopologyNode → Nat → Option (List Nat × TopologyNode × Nat)
  | mk i a cs, currentLevel =>
    if a < n then none
    else
      match findLowestLoop n cs (currentLevel + 1) 0 none 0 with
      | none => some ([], mk i a cs, currentLevel)
      | some best => some best
/-- The loop of `findLowestNodeWithEnoughAvailability` over the children, keeping the best
answer so far and its level (`bestLevelNum`, initially `0`). -/
def findLowestLoop (n : Int) : List TopologyNode → Nat → Nat → Option (List Nat × TopologyNode × Nat) →
    Nat → Option (List Nat × TopologyNode × Nat)
  | [], _, _, best, _ => best
  | c :: cs, level, j, best, bestLevelNum =>
    match c.findLowestNodeWithEnoughAvailability n level with
    | some (p, l, levelNum) =>
      if levelNum > bestLevelNum then findLowestLoop n cs level (j + 1) (some (j :: p, l, levelNum)) levelNum
      else findLowestLoop n cs level (j + 1) best bestLevelNum
    | none => findLowestLoop n cs level (j + 1) best bestLevelNum
end

mutual
/-- `find`: the first node, depth-first, that satisfies `comparator`, with its position. -/
def find (comparator : TopologyNode → Bool) : TopologyNode → Option (List Nat × TopologyNode)
  | mk i a cs => if comparator (mk i a cs) then some ([], mk i a cs) else findLoop comparator cs 0
/-- The loop of `find` over the children. -/
def findLoop (comparator : TopologyNode → Bool) : List TopologyNode → Nat → Option (List Nat × TopologyNode)
  | [], _ => none
  | c :: cs, j =>
    match c.find comparator with
    | some (p, x) => some (j :: p, x)
    | none => findLoop comparator cs (j + 1)
end

/-- `TopologyNode.Take`: mark a leaf taken; no other node changes. -/
def take (t : TopologyNode) : Option TopologyError × TopologyNode :=
  if t.isLeaf then (none, t.setAvailable (t.numAvailable - 1)) else (some .notALeaf, t)

@[simp] theorem skeleton_take (t : TopologyNode) : t.take.2.skeleton = t.skeleton := by
  obtain ⟨i, a, cs⟩ := t
  unfold take
  split <;> simp

/-! ### The node `findLowestNodeWithEnoughAvailability` chooses -/

theorem findLowestLoop_mem {n : Int} (Q : List Nat × TopologyNode × Nat → Prop) :
    ∀ {cs : List TopologyNode} {level j bestLevelNum : Nat} {best r : Option (List Nat × TopologyNode × Nat)},
      (∀ i c q l k, cs[i]? = some c → c.findLowestNodeWithEnoughAvailability n level = some (q, l, k) →
        Q ((j + i) :: q, l, k)) →
      (∀ x, best = some x → Q x) → findLowestLoop n cs level j best bestLevelNum = r → ∀ x, r = some x → Q x
  | [], _, _, _, _, _, _, hb, h => by simp [findLowestLoop] at h; subst h; exact hb
  | c :: cs, level, j, bestLevelNum, best, r, hc, hb, h => by
    have hc' : ∀ i c' q l k, cs[i]? = some c' → c'.findLowestNodeWithEnoughAvailability n level = some (q, l, k) →
        Q ((j + 1 + i) :: q, l, k) := fun i c' q l k h1 h2 => by
      simpa [Nat.add_right_comm, Nat.add_assoc] using hc (i + 1) c' q l k (by simpa using h1) h2
    simp only [findLowestLoop] at h
    split at h
    · rename_i q l k hq
      split at h
      · exact findLowestLoop_mem Q hc' (fun x hx => by cases hx; simpa using hc 0 c q l k (by simp) hq) h
      · exact findLowestLoop_mem Q hc' hb h
    · exact findLowestLoop_mem Q hc' hb h

mutual
/-- The node found has at least `n` free leaves and sits where the position says. -/
theorem findLowest_spec {n : Int} : ∀ {t : TopologyNode} {level : Nat} {p : List Nat} {l : TopologyNode} {k : Nat},
    t.findLowestNodeWithEnoughAvailability n level = some (p, l, k) → t.get? p = some l ∧ n ≤ l.numAvailable
  | mk i a cs, level, p, l, k, h => by
    simp only [findLowestNodeWithEnoughAvailability] at h
    split_ifs at h with ha
    split at h
    · cases h; simpa using ha
    · rename_i best hbest
      cases h
      refine findLowestLoop_mem (fun r => (mk i a cs).get? r.1 = some r.2.1 ∧ n ≤ r.2.1.numAvailable)
        (fun j c q l k hc hq => ?_) (by simp) hbest _ rfl
      obtain ⟨h1, h2⟩ := findLowestOf_spec (List.getElem?_mem hc) hq
      simpa [hc] using And.intro h1 h2
theorem findLowestOf_spec {n : Int} : ∀ {cs : List TopologyNode} {c : TopologyNode} {level : Nat} {p : List Nat}
    {l : TopologyNode} {k : Nat}, c ∈ cs →
    c.findLowestNodeWithEnoughAvailability n level = some (p, l, k) → c.get? p = some l ∧ n ≤ l.numAvailable
  | [], _, _, _, _, _, hc, _ => by simp at hc
  | d :: ds, c, level, p, l, k, hc, h => by
    rw [List.mem_cons] at hc
    rcases hc with rfl | hc
    · exact findLowest_spec h
    · exact findLowestOf_spec hc h
end

theorem findLowest_isSome (n : Int) (t : TopologyNode) (level : Nat) :
    (t.findLowestNodeWithEnoughAvailability n level).isSome ↔ n ≤ t.numAvailable := by
  obtain ⟨i, a, cs⟩ := t
  simp only [findLowestNodeWithEnoughAvailability, numAvailable_mk]
  split_ifs with ha
  · simpa using ha
  · split <;> simp <;> omega

/-! ### `find` -/

mutual
theorem find_spec {cmp : TopologyNode → Bool} : ∀ {t : TopologyNode} {p : List Nat} {x : TopologyNode},
    t.find cmp = some (p, x) → t.get? p = some x ∧ cmp x = true
  | mk i a cs, p, x, h => by
    simp only [find] at h
    split_ifs at h with hc
    · cases h; simpa using hc
    · obtain ⟨j, c, q, rfl, hj, hq⟩ := findLoop_spec (j := 0) h
      simpa [hj] using hq
theorem findLoop_spec {cmp : TopologyNode → Bool} : ∀ {cs : List TopologyNode} {j : Nat} {p : List Nat}
    {x : TopologyNode}, findLoop cmp cs j = some (p, x) →
    ∃ k c q, p = (j + k) :: q ∧ cs[k]? = some c ∧ c.get? q = some x ∧ cmp x = true
  | [], _, _, _, h => by simp [findLoop] at h
  | c :: cs, j, p, x, h => by
    simp only [findLoop] at h
    split at h
    · rename_i q y hq
      cases h
      exact ⟨0, c, q, rfl, by simp, find_spec hq⟩
    · obtain ⟨k, c', q, rfl, hk, hq⟩ := findLoop_spec h
      exact ⟨k + 1, c', q, by simp [Nat.add_right_comm, Nat.add_assoc], by simpa using hk, hq⟩
end

mutual
theorem find_none {cmp : TopologyNode → Bool} : ∀ {t : TopologyNode}, t.find cmp = none →
    ∀ l ∈ t.leaves, cmp l = false
  | mk i a [], h, l, hl => by
    simp only [find] at h; split_ifs at h with hc
    simp at hl; subst hl; simpa using hc
  | mk i a (c :: cs), h, l, hl => by
    simp only [find] at h; split_ifs at h with hc
    rw [leaves_cons] at hl
    exact findLoop_none h l hl
theorem findLoop_none {cmp : TopologyNode → Bool} : ∀ {cs : List TopologyNode} {j : Nat}, findLoop cmp cs j = none →
    ∀ l ∈ leavesOf cs, cmp l = false
  | [], _, _, _, hl => by simp at hl
  | c :: cs, j, h, l, hl => by
    simp only [findLoop] at h
    split at h
    · cases h
    · rename_i hc
      rw [leavesOf_cons, List.mem_append] at hl
      exact hl.elim (find_none hc l) (findLoop_none h l)
end

theorem leaves_of_children_nil {x : TopologyNode} (h : x.children = []) : x.leaves = [x] := by
  obtain ⟨i, a, cs⟩ := x
  simp only [children_mk] at h
  subst h
  simp

theorem addAlong_eq (d : Int) : ∀ (t : TopologyNode) (p : List Nat),
    t.addAlong d p = (t.modify p fun y => y.setAvailable (y.numAvailable + d)).addAbove d p
  | mk i a cs, [] => by simp [addAlong]
  | mk i a cs, j :: p => by
    simp only [addAlong, modify_cons, addAbove_cons, modify_modify_same]
    congr 1
    congr 1
    funext c
    exact addAlong_eq d c p

/-- Marking the leaves whose ids are in `ids` with counter `k`. -/
def markLeaves (ls : List TopologyNode) (ids : List Int) (k : Int) : List TopologyNode :=
  ls.map fun l => if l.value ∈ ids then l.setAvailable k else l

theorem markLeaves_append (ls ms : List TopologyNode) (ids : List Int) (k : Int) :
    markLeaves (ls ++ ms) ids k = markLeaves ls ids k ++ markLeaves ms ids k := by
  simp [markLeaves]

theorem markLeaves_of_disjoint {ls : List TopologyNode} {ids : List Int} (k : Int)
    (h : ∀ l ∈ ls, l.value ∉ ids) : markLeaves ls ids k = ls := by
  simp only [markLeaves]
  conv_rhs => rw [← List.map_id ls]
  exact List.map_congr_left fun l hl => by simp [h l hl]

@[simp] theorem map_value_markLeaves (ls : List TopologyNode) (ids : List Int) (k : Int) :
    (markLeaves ls ids k).map value = ls.map value := by
  simp [markLeaves, Function.comp_def, apply_ite]

theorem markLeaves_markLeaves (ls : List TopologyNode) (ids ids' : List Int) (k : Int) :
    markLeaves (markLeaves ls ids k) ids' k = markLeaves ls (ids ++ ids') k := by
  simp only [markLeaves, List.map_map]
  refine List.map_congr_left fun l _ => ?_
  by_cases h : l.value ∈ ids <;> by_cases h' : l.value ∈ ids' <;> simp [h, h']

end TopologyNode

/-- `NumaTopology`: the topology tree and the information on every cpu it was built from. -/
structure NumaTopology where
  topology : TopologyNode
  cpuInformation : AList (fun _ : Int => CpuInfo)

namespace NumaTopology

open TopologyNode

/-- `NumaTopology.Take`: find the lowest node with `n` free leaves, take `n` leaves below it and
lower its ancestors (the nodes of `path[1:]`, found by `find`) by `n`. -/
def take (nt : NumaTopology) (n : Int) : Except TopologyError (List Int) × NumaTopology :=
  match nt.topology.findLowestNodeWithEnoughAvailability n 0 with
  | none => (.error .notAvailable, nt)
  | some (p, l, _) =>
    match l.takeLeaves n with
    | (leaves, err, l') =>
      let t1 := nt.topology.modify p fun _ => l'
      let t2 := if p ≠ [] then t1.addAbove (-n) p else t1
      if err then (.error .notAvailable, { nt with topology := t2 })
      else (.ok (leaves.map value), { nt with topology := t2 })

/-- `NumaTopology.Return`: find the leaf of `cpuID` and, when it is taken, raise it and every node
above it by one. -/
def returnCpu (nt : NumaTopology) (cpuID : Int) : Option TopologyError × NumaTopology :=
  match nt.topology.find (fun tl => tl.isLeaf && tl.value == cpuID) with
  | none => (some .notFound, nt)
  | some (p, leaf) =>
    if leaf.numAvailable = 0 then (none, { nt with topology := nt.topology.addAlong 1 p }) else (none, nt)

theorem skeleton_returnCpu (nt : NumaTopology) (cpuID : Int) :
    (nt.returnCpu cpuID).2.topology.skeleton = nt.topology.skeleton := by
  unfold returnCpu
  split
  · rfl
  · split_ifs
    · exact skeleton_addAlong 1 _ _
    · rfl

/-! ### `Take` -/

/-- `Take` fails without changing anything when the root has fewer than `n` free leaves. -/
theorem take_of_lt {nt : NumaTopology} {n : Int} (h : nt.topology.numAvailable < n) :
    nt.take n = (.error .notAvailable, nt) := by
  have : nt.topology.findLowestNodeWithEnoughAvailability n 0 = none := by
    rw [← Option.not_isSome_iff_eq_none, findLowest_isSome]; omega
  simp [take, this]

/-- `Take` once the search has found a node and `takeLeaves` has succeeded below it: the ids of
the leaves taken, and the node replaced with every ancestor lowered by `n`. -/
theorem take_eq_of_takeLeaves {nt : NumaTopology} {n : Int} {p : List Nat} {v v' : TopologyNode} {k : Nat}
    {taken : List TopologyNode} (hfind : nt.topology.findLowestNodeWithEnoughAvailability n 0 = some (p, v, k))
    (htake : v.takeLeaves n = (taken, false, v')) :
    nt.take n = (.ok (taken.map value), { nt with topology := (nt.topology.modify p fun _ => v').addAbove (-n) p }) := by
  have : ∀ t : TopologyNode, (if p ≠ [] then t.addAbove (-n) p else t) = t.addAbove (-n) p := by
    intro t
    split_ifs with hp0
    · rfl
    · rw [not_not] at hp0; subst hp0; simp
  simp [take, hfind, htake, this]

/-- What `Take` does when the root has enough free leaves: it succeeds, the ids it returns are
those of `n` distinct free leaves, exactly those leaves are marked taken, and the shape and the
counter invariant are kept with the root lowered by `n`. -/
theorem take_of_le {nt : NumaTopology} {n : Int} (hwf : nt.topology.Wf)
    (hd : (nt.topology.leaves.map value).Nodup) (hn : 1 ≤ n) (hle : n ≤ nt.topology.numAvailable) :
    ∃ ids t', nt.take n = (.ok ids, { nt with topology := t' }) ∧ (ids.length : Int) = n ∧ ids.Nodup ∧
      (∀ v ∈ ids, ∃ l ∈ nt.topology.leaves, l.value = v ∧ l.numAvailable = 1) ∧
      t'.leaves = markLeaves nt.topology.leaves ids 0 ∧ t'.skeleton = nt.topology.skeleton ∧ t'.Wf ∧
      t'.numAvailable = nt.topology.numAvailable - n := by
  obtain ⟨p, l, k, hfind⟩ : ∃ p l k, nt.topology.findLowestNodeWithEnoughAvailability n 0 = some (p, l, k) := by
    have := findLowest_isSome n nt.topology 0
    rw [Option.isSome_iff_exists] at this
    obtain ⟨⟨p, l, k⟩, h⟩ := this.2 hle
    exact ⟨p, l, k, h⟩
  obtain ⟨hp, hl⟩ := findLowest_spec hfind
  have hlw := wf_of_get? hwf hp
  obtain ⟨l', h1, h2, h3, h4, h5⟩ := takeLeaves_spec hlw (by omega) hl
  obtain ⟨pre, suf, e1, e2⟩ := leaves_addAbove_modify hp
  obtain ⟨w1, w2⟩ := wf_addAbove_modify (d := -n) h4 hp hwf (by omega)
  have hld : (l.leaves.map value).Nodup := by
    rw [e1] at hd; simpa using (List.nodup_append.1 (List.nodup_append.1 (by simpa using hd)).1).2.1
  obtain ⟨S, hS, hfree, g1, g2⟩ := takeFree_marks n.toNat l.leaves
  obtain ⟨c1, -, -⟩ := takeFree_counts n.toNat (zeroOne_leaves hlw)
  rw [← numAvailable_eq_leaves hlw] at c1
  have hids : (S.map (·.setAvailable 0)).map value = S.map value := by simp [Function.comp_def]
  have hlen : (S.length : Int) = n := by
    have := congrArg List.length g1
    rw [List.length_map] at this
    omega
  refine ⟨S.map value, (nt.topology.modify p fun _ => l').addAbove (-n) p, ?_, ?_, ?_, ?_, ?_,
    skeleton_addAbove_modify hp h3, w1, by rw [w2]; omega⟩
  · rw [take_eq_of_takeLeaves hfind h1, g1, hids]
  · simpa using hlen
  · exact (hS.map value).nodup (by rw [e1] at hd; simpa using (List.nodup_append.1 (List.nodup_append.1 (by simpa using hd)).1).2.1)
  · intro v hv
    obtain ⟨x, hx, rfl⟩ := List.mem_map.1 hv
    have hxl : x ∈ l.leaves := hS.subset hx
    refine ⟨x, by rw [e1]; simp [hxl], rfl, ?_⟩
    have := numAvailable_of_mem_leaves hlw hxl
    have := hfree x hx
    omega
  · rw [e1, List.map_append, List.map_append, List.nodup_append, List.nodup_append] at hd
    have hsub : ∀ v ∈ S.map value, v ∈ l.leaves.map value := fun v hv => (hS.map value).subset hv
    rw [e2, h2, g2 hld, e1, markLeaves_append, markLeaves_append,
      markLeaves_of_disjoint 0 fun x hx hv => hd.1.2.2 (List.mem_map_of_mem _ hx) (hsub _ hv),
      markLeaves_of_disjoint 0 fun x hx hv => hd.2.2 (List.mem_append_right _ (hsub _ hv)) (List.mem_map_of_mem _ hx)]
    rfl

/-- **`NumaTopology.Take` is correct.** -/
theorem take_correct (nt : NumaTopology) (n : Int) (hwf : nt.topology.Wf)
    (hd : (nt.topology.leaves.map value).Nodup) (hn : 1 ≤ n) :
    (n ≤ nt.topology.numAvailable →
      ∃ ids t', nt.take n = (.ok ids, { nt with topology := t' }) ∧ (ids.length : Int) = n ∧ ids.Nodup ∧
        (∀ v ∈ ids, ∃ l ∈ nt.topology.leaves, l.value = v ∧ l.numAvailable = 1) ∧
        t'.leaves = markLeaves nt.topology.leaves ids 0 ∧ t'.skeleton = nt.topology.skeleton ∧ t'.Wf ∧
        t'.numAvailable = nt.topology.numAvailable - n) ∧
    (nt.topology.numAvailable < n → nt.take n = (.error .notAvailable, nt)) :=
  ⟨take_of_le hwf hd hn, take_of_lt⟩

/-- Two free cpus under the machine. -/
def twoCpus : NumaTopology :=
  ⟨.mk ⟨.machine, 0⟩ 2 [.mk ⟨.cpu, 0⟩ 1 [], .mk ⟨.cpu, 1⟩ 1 []], ∅⟩

theorem take_correct_twoCpus :
    twoCpus.topology.Wf ∧ (twoCpus.topology.leaves.map value).Nodup ∧ (1 : Int) ≤ 1 ∧
    ((1 : Int) ≤ twoCpus.topology.numAvailable →
      ∃ ids t', twoCpus.take 1 = (.ok ids, { twoCpus with topology := t' }) ∧ (ids.length : Int) = 1 ∧
        ids.Nodup ∧ (∀ v ∈ ids, ∃ l ∈ twoCpus.topology.leaves, l.value = v ∧ l.numAvailable = 1) ∧
        t'.leaves = markLeaves twoCpus.topology.leaves ids 0 ∧ t'.skeleton = twoCpus.topology.skeleton ∧
        t'.Wf ∧ t'.numAvailable = twoCpus.topology.numAvailable - 1) ∧
    (twoCpus.topology.numAvailable < 1 → twoCpus.take 1 = (.error .notAvailable, twoCpus)) :=
  ⟨by decide, by decide, le_refl _, take_correct twoCpus 1 (by decide) (by decide) (le_refl _)⟩

/-! ### `Return` -/

/-- What `Return` does: it fails exactly on an id that is no leaf's; it frees the leaf of the id
when it is taken and changes nothing else, keeping the shape and the counter invariant. -/
theorem returnCpu_spec {nt : NumaTopology} {v : Int} (hwf : nt.topology.Wf)
    (hd : (nt.topology.leaves.map value).Nodup) :
    ((nt.returnCpu v).1 = none ↔ v ∈ nt.topology.leaves.map value) ∧
      (nt.returnCpu v).2.cpuInformation = nt.cpuInformation ∧
      (nt.returnCpu v).2.topology.leaves = markLeaves nt.topology.leaves [v] 1 ∧
      (nt.returnCpu v).2.topology.skeleton = nt.topology.skeleton ∧ (nt.returnCpu v).2.topology.Wf := by
  unfold returnCpu
  split
  · rename_i hnone
    have hno : ∀ l ∈ nt.topology.leaves, l.value ≠ v := fun l hl hv => by
      have := find_none hnone l hl
      simp [children_of_mem_leaves hl, isLeaf, hv] at this
    refine ⟨by simpa using fun l hl => hno l hl, rfl, ?_, rfl, hwf⟩
    exact (markLeaves_of_disjoint 1 fun l hl h => hno l hl (by simpa using h)).symm
  · rename_i p x hfind
    obtain ⟨hp, hcmp⟩ := find_spec hfind
    simp only [Bool.and_eq_true, beq_iff_eq, isLeaf, List.isEmpty_iff] at hcmp
    obtain ⟨hleaf, rfl⟩ := hcmp
    obtain ⟨pre, suf, e1, e2⟩ := leaves_addAbove_modify hp
    rw [leaves_of_children_nil hleaf] at e1
    have hx : x.numAvailable = 0 ∨ x.numAvailable = 1 :=
      numAvailable_of_mem_leaves hwf (by rw [e1]; simp)
    have hmark : markLeaves nt.topology.leaves [x.value] 1 = pre ++ [x.setAvailable 1] ++ suf := by
      rw [e1, List.map_append, List.map_append, List.nodup_append, List.nodup_append] at hd
      rw [e1, markLeaves_append, markLeaves_append,
        markLeaves_of_disjoint 1 fun y hy hv => hd.1.2.2 (List.mem_map_of_mem _ hy) (by simpa using hv),
        markLeaves_of_disjoint 1 fun y hy hv => hd.2.2 (by simp [show y.value = x.value by simpa using hv])
          (List.mem_map_of_mem _ hy)]
      simp [markLeaves]
    have hmem : x.value ∈ nt.topology.leaves.map value := by rw [e1]; simp
    split_ifs with h0
    · have hl' : (x.setAvailable (x.numAvailable + 1)).Wf := by
        obtain ⟨i, a, cs⟩ := x; simp only [children_mk] at hleaf; subst hleaf; simp [h0]
      obtain ⟨w1, -⟩ := wf_addAbove_modify (d := 1) hl' hp hwf (by simp)
      have heq : nt.topology.addAlong 1 p = (nt.topology.modify p fun _ => x.setAvailable (x.numAvailable + 1)).addAbove 1 p := by
        rw [addAlong_eq, modify_eq_const _ hp]
      refine ⟨by simpa using hmem, rfl, ?_, ?_, ?_⟩ <;> dsimp only <;> rw [heq]
      · rw [e2, hmark, h0, Int.zero_add, leaves_of_children_nil (by simpa using hleaf)]
      · exact skeleton_addAbove_modify hp (by obtain ⟨i, a, cs⟩ := x; simp)
      · exact w1
    · have h1 : x.numAvailable = 1 := by omega
      refine ⟨by simpa using hmem, rfl, ?_, rfl, hwf⟩
      rw [hmark, e1, ← h1, setAvailable_self]

end NumaTopology

end CpuControlPlane
