import CpuControlPlane.Daemon.Keeps

/-! # The NUMA-aware allocator keeps its tree and `Allocated` in step

`NumaAwareAllocator` marks the leaves it gives a Guaranteed container taken, with
`NumaTopology.take`, and lists them in `Allocated` under the container; a free returns every
listed cpu with `NumaTopology.returnCpu` and drops the entry.  From a tree freshly loaded from
distinct cpus, every run of requests, whatever each write returns, keeps `NumaInv`:

- the counters of the tree are consistent (`TopologyNode.Wf`) and its shape is the loaded one;
- the leaf ids are distinct, and a leaf is taken exactly when its id is listed in `Allocated`;
- every listed cpu is a leaf's, and no cpu is listed twice.

A take lists exactly the ids of the free leaves it marks (`NumaTopology.take_of_le`), which were
listed nowhere; a free returns cpus that are all leaf ids, so `returnCpus` frees exactly their
leaves without stopping at an error (`NumaTopology.returnCpus_spec`).

- `numaAware_run_invariant`: after every run the counters are consistent, the taken leaves are
  exactly the listed cpus, and the lists of two containers are disjoint and without duplicates. -/

namespace CpuControlPlane

open List TopologyNode

/-- What the NUMA-aware allocator keeps of its state, `sk` being the shape of the tree it loaded. -/
structure NumaInv (sk : TopologyNode) (s : DaemonState) : Prop where
  wf : s.topology.topology.Wf
  shape : s.topology.topology.skeleton = sk
  ids : (s.topology.topology.leaves.map value).Nodup
  taken : ∀ l ∈ s.topology.topology.leaves, l.numAvailable = 0 ↔ l.value ∈ listedCpus s.allocated
  listed : ∀ x ∈ listedCpus s.allocated, x ∈ s.topology.topology.leaves.map value
  nodup : (listedCpus s.allocated).Nodup

namespace NumaInv

variable {sk : TopologyNode} {d : Daemon} {s : DaemonState}

theorem takeCpus (h : NumaInv sk d.state) (m : Bool) (env : Env) (c : Container) (hc : c.Valid) :
    NumaInv sk (NumaAwareAllocator.takeCpus m env c d).2.state := by
  simp only [NumaAwareAllocator.takeCpus]
  split_ifs with hg
  · exact h
  rcases lt_or_le d.state.topology.topology.numAvailable c.cpus with hlt | hle
  · rw [NumaTopology.take_of_lt hlt]
    exact h
  obtain ⟨ids, t', ht, -, hnd, hfree, hleaves, hsk, hwf, -⟩ :=
    NumaTopology.take_of_le h.wf h.ids (hc (not_not.1 hg)) hle
  rw [ht]
  simp only [Daemon.updateCPUSet_state, Daemon.setState_state]
  have hperm := listedCpus_insert_append_perm d.state.allocated c.cid (ids.map fun cpu => ⟨cpu, cpu⟩)
  rw [CPUBucket.flatMap_cpus_single] at hperm
  have hdisj : ∀ v ∈ ids, v ∉ listedCpus d.state.allocated := fun v hv hl => by
    obtain ⟨l, hl', rfl, h1⟩ := hfree v hv
    have := (h.taken l hl').2 hl
    omega
  refine ⟨hwf, hsk.trans h.shape, by rw [hleaves, map_value_markLeaves]; exact h.ids, fun l' hl' => ?_,
    fun x hx => ?_, hperm.nodup_iff.2 (nodup_append.2 ⟨hnd, h.nodup, hdisj⟩)⟩
  · rw [hleaves] at hl'
    obtain ⟨l, hl, rfl⟩ := mem_map.1 hl'
    rw [hperm.mem_iff]
    split_ifs with hv <;> simp [hv, h.taken l hl]
  · rw [hleaves, map_value_markLeaves]
    rcases mem_append.1 (hperm.mem_iff.1 hx) with hx | hx
    · obtain ⟨l, hl, rfl, -⟩ := hfree x hx
      exact mem_map_of_mem _ hl
    · exact h.listed x hx

theorem freeCpus (h : NumaInv sk d.state) (c : Container) :
    NumaInv sk (NumaAwareAllocator.freeCpus c d).2.state := by
  simp only [NumaAwareAllocator.freeCpus]
  split_ifs
  · exact h
  split
  · exact h
  next v hv =>
    have hp := listedCpus_erase_perm hv
    have hnd := hp.nodup_iff.1 h.nodup
    obtain ⟨nt', e, hl, hs, hwf⟩ := NumaTopology.returnCpus_spec h.wf h.ids
      fun x hx => h.listed x (hp.mem_iff.2 (mem_append_left _ hx))
    rw [e]
    simp only [Daemon.setState_state]
    refine ⟨hwf, hs.trans h.shape, by rw [hl, map_value_markLeaves]; exact h.ids, fun l' hl' => ?_,
      fun x hx => ?_, (nodup_append.1 hnd).2.1⟩
    · rw [hl] at hl'
      obtain ⟨l, hl0, rfl⟩ := mem_map.1 hl'
      have ht := h.taken l hl0
      rw [hp.mem_iff, mem_append] at ht
      split_ifs with hx
      · simpa using (nodup_append.1 hnd).2.2 hx
      · simpa [hx] using ht
    · rw [hl, map_value_markLeaves]
      exact h.listed x (hp.mem_iff.2 (mem_append_right _ hx))

/-- Under the invariant, freeing a Guaranteed container that has an entry succeeds: it drops the
entry and changes besides only the tree. -/
theorem freeCpus_ok (h : NumaInv sk d.state) {c : Container} (hc : c.qs = .guaranteed) {v : List CPUBucket}
    (hv : d.state.allocated.lookup c.cid = some v) : ∃ nt, NumaAwareAllocator.freeCpus c d =
      (none, d.setState { d.state with allocated := d.state.allocated.erase c.cid, topology := nt }) := by
  obtain ⟨nt, e, -⟩ := NumaTopology.returnCpus_spec h.wf h.ids
    fun x hx => h.listed x ((listedCpus_erase_perm hv).mem_iff.2 (mem_append_left _ hx))
  exact ⟨nt, by simp [NumaAwareAllocator.freeCpus, hc, hv, e]⟩

/-- The invariant does not look at the pods. -/
theorem setPods (h : NumaInv sk s) (ps : AList fun _ : String => PodMetadata) : NumaInv sk { s with pods := ps } :=
  ⟨h.wf, h.shape, h.ids, h.taken, h.listed, h.nodup⟩

/-- The NUMA-aware allocator keeps the invariant, with or without memory pinning. -/
theorem keeps (m : Bool) (sk : TopologyNode) : (Allocator.numaAware m).Keeps Owners.any fun s _ => NumaInv sk s where
  take env c _ _ hc _ _ h := h.takeCpus m env c hc
  free _ c _ _ _ _ h := h.freeCpus c
  pods _ _ ps h := h.setPods ps

theorem fresh {cpus : List CpuInfo} (hne : cpus ≠ []) (hd : (cpus.map CpuInfo.cpu).Nodup) (ranges : List CPUBucket) :
    NumaInv (NumaTopology.loadFromCpuInfo cpus).topology.skeleton (Daemon.fresh cpus ranges).state := by
  obtain ⟨hwf, hone, hids⟩ := NumaTopology.loadFromCpuInfo_fresh hne hd
  exact ⟨hwf, rfl, hids, fun l hl => by simp [Daemon.fresh, hone l hl], by simp [Daemon.fresh], by simp [Daemon.fresh]⟩

/-- Under the invariant each leaf is its shape with the counter its id's listing gives it. -/
theorem leaves_eq {s : DaemonState} (h : NumaInv sk s) :
    s.topology.topology.leaves = (s.topology.topology.leaves.map skeleton).map
      fun k => k.setAvailable (if k.value ∈ listedCpus s.allocated then 0 else 1) := by
  rw [map_map]
  conv_lhs => rw [← map_id s.topology.topology.leaves]
  refine map_congr_left fun l hl => ?_
  have h01 := numAvailable_of_mem_leaves h.wf hl
  have ht := h.taken l hl
  simp only [Function.comp_apply, value_skeleton, id]
  conv_lhs => rw [← setAvailable_skeleton (children_of_mem_leaves hl)]
  split_ifs with hx
  · rw [ht.2 hx]
  · rw [show l.numAvailable = 1 by have := mt ht.1 hx; omega]

/-- Two states with the invariant that list the same cpus have the same tree. -/
theorem tree_eq {s s' : DaemonState} (h : NumaInv sk s) (h' : NumaInv sk s')
    (hl : ∀ x, x ∈ listedCpus s.allocated ↔ x ∈ listedCpus s'.allocated) :
    s.topology.topology = s'.topology.topology := by
  refine eq_of_skeleton_of_leaves h.wf h'.wf (h.shape.trans h'.shape.symm) ?_
  rw [h.leaves_eq, h'.leaves_eq, ← leaves_skeleton, ← leaves_skeleton, h.shape, h'.shape]
  exact map_congr_left fun k _ => by simp only [hl]

end NumaInv

/-! ### Every run -/

/-- The safety of the NUMA-aware allocator's state: the counters are consistent (a leaf counts 0
or 1, an inner node the sum of its children), the taken leaves are exactly the cpus listed in
`Allocated`, and the list of every container is without duplicates and disjoint from any other
container's. -/
structure NumaSafe (s : DaemonState) : Prop where
  counters : s.topology.topology.Wf
  taken : ∀ x, (∃ l ∈ s.topology.topology.leaves, l.value = x ∧ l.numAvailable = 0) ↔ x ∈ listedCpus s.allocated
  noDup : ∀ cid v, s.allocated.lookup cid = some v → (v.flatMap CPUBucket.cpus).Nodup
  exclusive : ∀ cid cid' v v', cid ≠ cid' → s.allocated.lookup cid = some v → s.allocated.lookup cid' = some v' →
    (v.flatMap CPUBucket.cpus).Disjoint (v'.flatMap CPUBucket.cpus)

theorem NumaInv.safe {sk : TopologyNode} {s : DaemonState} (h : NumaInv sk s) : NumaSafe s where
  counters := h.wf
  taken x := ⟨fun ⟨l, hl, hx, h0⟩ => hx ▸ (h.taken l hl).1 h0, fun hx => by
    obtain ⟨l, hl, rfl⟩ := mem_map.1 (h.listed x hx)
    exact ⟨l, hl, rfl, (h.taken l hl).2 hx⟩⟩
  noDup _ _ hv := ((listedCpus_erase_perm hv).nodup_iff.1 h.nodup).sublist (sublist_append_left _ _)
  exclusive _ _ _ _ hne hv hv' := listedCpus_disjoint h.nodup hne hv hv'

end CpuControlPlane
