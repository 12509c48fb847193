import CpuControlPlane.Daemon.Keeps

/-! # The default allocator never hands out a cpu twice

`DefaultAllocator` keeps the free cpus as a list of ranges and the cpus of each Guaranteed
container as one bucket in `Allocated`.  Started on non-empty, pairwise disjoint ranges, every run
of requests, whatever each write returns, keeps `DefaultInv`:

- every available range is non-empty, and every entry of `Allocated` is one non-empty bucket;
- no cpu occurs twice among the available ranges and the allocated buckets (`coveredCpus`);
- every one of these cpus is a cpu of the initial ranges.

A take cuts its bucket from the front of a range, and the bucket and the rest of the range hold
the range's cpus (`takeFromRanges_spec`).  A free extends the ranges that start right after the
bucket (`returnToRanges_spec`); two ranges cannot both start there, so the freed cpus come back
at most once.  Either way the list of all cpus of the state only shrinks, up to order.

- `default_run_disjoint`: after every run the available ranges and the allocated buckets are
  pairwise disjoint, the ranges non-empty, all cpus initial ones, and two containers never hold
  the same cpu. -/

namespace CpuControlPlane

open List

/-- The available ranges followed by the buckets stored in `Allocated`. -/
def allBuckets (s : DaemonState) : List CPUBucket := s.availableCPUs ++ s.allocated.entries.flatMap (·.2)

/-- The cpus of the available ranges followed by those listed in `Allocated`. -/
def coveredCpus (s : DaemonState) : List Int := s.availableCPUs.flatMap CPUBucket.cpus ++ listedCpus s.allocated

theorem flatMap_allBuckets (s : DaemonState) : (allBuckets s).flatMap CPUBucket.cpus = coveredCpus s := by
  simp [allBuckets, coveredCpus, listedCpus, flatMap_assoc]

namespace DefaultAllocator

/-! ### Cutting and extending ranges -/

/-- A take of `n > 0` cpus from non-empty ranges cuts a non-empty bucket, leaves non-empty ranges,
and loses no cpu. -/
theorem takeFromRanges_spec {n : Int} (hn : 0 < n) : ∀ {rs rs' : List CPUBucket} {bk : CPUBucket},
    takeFromRanges n rs = some (bk, rs') → (∀ r ∈ rs, r.startCPU ≤ r.endCPU) →
    bk.startCPU ≤ bk.endCPU ∧ (∀ r ∈ rs', r.startCPU ≤ r.endCPU) ∧
      bk.cpus ++ rs'.flatMap CPUBucket.cpus ~ rs.flatMap CPUBucket.cpus
  | [], _, _, h, _ => by simp [takeFromRanges] at h
  | b :: bs, rs', bk, h, hne => by
    simp only [takeFromRanges] at h
    split_ifs at h with hb
    · simp only [Option.some.injEq, Prod.mk.injEq] at h
      obtain ⟨rfl, rfl⟩ := h
      refine ⟨by simp only; omega, forall_mem_cons.2 ⟨by simp only; omega, fun r hr => hne r (mem_cons_of_mem _ hr)⟩,
        ?_⟩
      have := CPUBucket.cpus_split (s := b.startCPU) (e := b.endCPU) (m := b.startCPU + n - 1 + 1)
        (by omega) (by omega)
      simp only [flatMap_cons, ← append_assoc, Int.add_sub_cancel] at this ⊢
      exact this.symm.append_right _
    · obtain ⟨⟨bk', rs''⟩, h', he⟩ := Option.map_eq_some'.1 h
      simp only [Prod.mk.injEq] at he
      obtain ⟨rfl, rfl⟩ := he
      obtain ⟨h1, h2, h3⟩ := takeFromRanges_spec hn h' fun r hr => hne r (mem_cons_of_mem _ hr)
      refine ⟨h1, forall_mem_cons.2 ⟨hne _ (mem_cons_self _ _), h2⟩, ?_⟩
      simp only [flatMap_cons]
      exact (perm_append_comm_assoc _ _ _).trans (h3.append_left _)

theorem returnToRanges_cons (b : CPUBucket) (r : CPUBucket) (rs : List CPUBucket) :
    returnToRanges [b] (r :: rs) =
      (if b.endCPU = r.startCPU - 1 then { r with startCPU := b.startCPU } else r) :: returnToRanges [b] rs := rfl

/-- A free of a non-empty bucket whose cpus are not in the non-empty ranges leaves non-empty ranges
and brings back each of the bucket's cpus at most once. -/
theorem returnToRanges_spec {b : CPUBucket} (hb : b.startCPU ≤ b.endCPU) : ∀ {rs : List CPUBucket},
    (∀ r ∈ rs, r.startCPU ≤ r.endCPU) → (b.cpus ++ rs.flatMap CPUBucket.cpus).Nodup →
    (∀ r ∈ returnToRanges [b] rs, r.startCPU ≤ r.endCPU) ∧
      (returnToRanges [b] rs).flatMap CPUBucket.cpus <+~ b.cpus ++ rs.flatMap CPUBucket.cpus
  | [], _, _ => by simp [returnToRanges]
  | r :: rs, hne, hd => by
    have hr := hne r (mem_cons_self _ _)
    have hne' : ∀ r' ∈ rs, r'.startCPU ≤ r'.endCPU := fun r' h => hne r' (mem_cons_of_mem _ h)
    rw [returnToRanges_cons]
    split_ifs with habut
    · -- the range right after the bucket: no other range starts where it does
      have hrest : returnToRanges [b] rs = rs := by
        conv_rhs => rw [← map_id rs]
        refine map_congr_left fun r' hr' => if_neg fun h' => ?_
        have hdr : (r.cpus ++ rs.flatMap CPUBucket.cpus).Nodup := by
          simpa using hd.sublist (sublist_append_right _ _)
        exact (nodup_append.1 hdr).2.2 (CPUBucket.mem_cpus.2 ⟨le_refl _, hr⟩)
          (mem_flatMap.2 ⟨r', hr', CPUBucket.mem_cpus.2 ⟨by omega, by have := hne' r' hr'; omega⟩⟩)
      rw [hrest]
      refine ⟨forall_mem_cons.2 ⟨by simp only; omega, hne'⟩, ?_⟩
      have := CPUBucket.cpus_split (s := b.startCPU) (e := r.endCPU) (m := r.startCPU) (by omega) (by omega)
      have hb' : CPUBucket.mk b.startCPU (r.startCPU - 1) = b := by cases b; simp only at habut ⊢; congr; omega
      rw [hb'] at this
      simp only [flatMap_cons, ← append_assoc]
      exact (this.append_right _).subperm
    · have hsub : b.cpus ++ rs.flatMap CPUBucket.cpus <+ b.cpus ++ (r :: rs).flatMap CPUBucket.cpus :=
        (sublist_append_right r.cpus _).append_left b.cpus
      obtain ⟨h1, h2⟩ := returnToRanges_spec hb hne' (hd.sublist hsub)
      refine ⟨forall_mem_cons.2 ⟨hr, h1⟩, ?_⟩
      simp only [flatMap_cons]
      exact ((subperm_append_left _).2 h2).trans (perm_append_comm_assoc _ _ _).subperm

end DefaultAllocator

/-! ### The invariant -/

/-- What the default allocator keeps of its state, `U` being the cpus it started from. -/
structure DefaultInv (U : List Int) (s : DaemonState) : Prop where
  nonempty : ∀ r ∈ s.availableCPUs, r.startCPU ≤ r.endCPU
  single : ∀ cid v, s.allocated.lookup cid = some v → ∃ b, v = [b] ∧ b.startCPU ≤ b.endCPU
  nodup : (coveredCpus s).Nodup
  within : coveredCpus s ⊆ U

namespace DefaultInv

variable {U : List Int} {d : Daemon}

/-- A state whose cpus are among those of a state with the invariant, with non-empty ranges and
single non-empty buckets, has the invariant. -/
theorem of_subperm {s s' : DaemonState} (h : DefaultInv U s) (hc : coveredCpus s' <+~ coveredCpus s)
    (hne : ∀ r ∈ s'.availableCPUs, r.startCPU ≤ r.endCPU)
    (hs : ∀ cid v, s'.allocated.lookup cid = some v → ∃ b, v = [b] ∧ b.startCPU ≤ b.endCPU) :
    DefaultInv U s' :=
  ⟨hne, hs, nodup_of_subperm hc h.nodup, hc.subset.trans h.within⟩

theorem takeCpus (h : DefaultInv U d.state) (env : Env) (c : Container) (hc : c.Valid) :
    DefaultInv U (DefaultAllocator.takeCpus env c d).2.state := by
  simp only [DefaultAllocator.takeCpus]
  split_ifs with hg
  · exact h
  · split
    · exact h
    · next sCPU eCPU ranges ht =>
      obtain ⟨h1, h2, h3⟩ := DefaultAllocator.takeFromRanges_spec (hc (not_not.1 hg)) ht h.nonempty
      refine h.of_subperm ?_ h2 fun cid v hv => ?_
      · simp only [Daemon.updateCPUSet_state, Daemon.setState_state, coveredCpus]
        refine ((subperm_append_left _).2 (listedCpus_insert_subperm _ c.cid _)).trans (Perm.subperm ?_)
        simp only [flatMap_cons, flatMap_nil, append_nil, ← append_assoc]
        exact perm_append_comm.append_right _ |>.trans (h3.append_right _)
      · simp only [Daemon.updateCPUSet_state, Daemon.setState_state] at hv
        by_cases hcid : cid = c.cid
        · subst hcid
          rw [AList.lookup_insert, Option.some.injEq] at hv
          exact ⟨_, hv.symm, h1⟩
        · rw [AList.lookup_insert_ne hcid] at hv
          exact h.single cid v hv

theorem freeCpus (h : DefaultInv U d.state) (c : Container) :
    DefaultInv U (DefaultAllocator.freeCpus c d).2.state := by
  simp only [DefaultAllocator.freeCpus]
  split_ifs
  · exact h
  · split
    · exact h
    · next v hv =>
      obtain ⟨b, rfl, hb⟩ := h.single c.cid v hv
      have hp := listedCpus_erase_perm hv
      have hd : (d.state.availableCPUs.flatMap CPUBucket.cpus ++ ([b].flatMap CPUBucket.cpus ++
          listedCpus (d.state.allocated.erase c.cid))).Nodup := (hp.append_left _).nodup_iff.1 h.nodup
      have hbd : (b.cpus ++ d.state.availableCPUs.flatMap CPUBucket.cpus).Nodup := by
        refine perm_append_comm.nodup_iff.1 (hd.sublist ?_)
        simp
      obtain ⟨h1, h2⟩ := DefaultAllocator.returnToRanges_spec hb h.nonempty hbd
      refine h.of_subperm ?_ h1 fun cid v' hv' => ?_
      · simp only [Daemon.setState_state, coveredCpus]
        refine ((subperm_append_right _).2 h2).trans (Perm.subperm ?_)
        refine Perm.trans ?_ (hp.append_left _).symm
        simp only [flatMap_cons, flatMap_nil, append_nil, append_assoc]
        exact perm_append_comm_assoc _ _ _
      · simp only [Daemon.setState_state] at hv'
        by_cases hcid : cid = c.cid
        · subst hcid; simp [AList.lookup_erase] at hv'
        · rw [AList.lookup_erase_ne hcid] at hv'
          exact h.single cid v' hv'

/-- The default allocator keeps the invariant. -/
theorem keeps (U : List Int) : Allocator.default.Keeps Owners.any fun s _ => DefaultInv U s where
  take env c _ _ hc _ _ h := h.takeCpus env c hc
  free _ c _ _ _ _ h := h.freeCpus c
  pods _ _ _ h := ⟨h.nonempty, h.single, h.nodup, h.within⟩

theorem fresh {ranges : List CPUBucket} (hne : ∀ r ∈ ranges, r.startCPU ≤ r.endCPU)
    (hdis : ranges.Pairwise fun r r' => r.cpus.Disjoint r'.cpus) (cpus : List CpuInfo) :
    DefaultInv (ranges.flatMap CPUBucket.cpus) (Daemon.fresh cpus ranges).state where
  nonempty := hne
  single cid v h := by simp [Daemon.fresh] at h
  nodup := by
    simpa [coveredCpus, Daemon.fresh] using nodup_flatMap.2 ⟨fun r _ => r.nodup_cpus, hdis⟩
  within := by simp [coveredCpus, Daemon.fresh]

end DefaultInv

/-! ### Every run -/

/-- The safety of the default allocator's state, `U` being the cpus it started from: the available
ranges and the allocated buckets are pairwise disjoint, the ranges are non-empty, all their cpus
are in `U`, and no two containers hold a common cpu. -/
structure DefaultSafe (U : List Int) (s : DaemonState) : Prop where
  disjoint : (allBuckets s).Pairwise fun b b' => b.cpus.Disjoint b'.cpus
  nonempty : ∀ r ∈ s.availableCPUs, r.startCPU ≤ r.endCPU
  within : ∀ b ∈ allBuckets s, ∀ x ∈ b.cpus, x ∈ U
  exclusive : ∀ cid cid' v v', cid ≠ cid' → s.allocated.lookup cid = some v → s.allocated.lookup cid' = some v' →
    (v.flatMap CPUBucket.cpus).Disjoint (v'.flatMap CPUBucket.cpus)

theorem DefaultInv.safe {U : List Int} {s : DaemonState} (h : DefaultInv U s) : DefaultSafe U s where
  disjoint := (nodup_flatMap.1 ((flatMap_allBuckets s).symm ▸ h.nodup)).2
  nonempty := h.nonempty
  within b hb _ hx := h.within (flatMap_allBuckets s ▸ mem_flatMap.2 ⟨b, hb, hx⟩)
  exclusive _ _ _ _ hne hv hv' := listedCpus_disjoint (h.nodup.sublist (sublist_append_right _ _)) hne hv hv'

/-- From non-empty, pairwise disjoint ranges, every run of requests with the default allocator,
whatever each write returns, leaves a safe state. -/
theorem default_run_disjoint (cpus : List CpuInfo) (ranges : List CPUBucket) (env : Env) (rs : List Request)
    (hne : ∀ r ∈ ranges, r.startCPU ≤ r.endCPU) (hdis : ranges.Pairwise fun r r' => r.cpus.Disjoint r'.cpus) :
    DefaultSafe (ranges.flatMap CPUBucket.cpus) (Daemon.run .default env rs (Daemon.fresh cpus ranges)).state :=
  ((DefaultInv.keeps _).run_any env rs _ (DefaultInv.fresh hne hdis cpus)).safe

/-- Two ranges, and a pod with a Guaranteed container created and deleted. -/
theorem default_run_disjoint_twoRanges :
    (∀ r ∈ [CPUBucket.mk 0 3, CPUBucket.mk 8 11], r.startCPU ≤ r.endCPU) ∧
      [CPUBucket.mk 0 3, CPUBucket.mk 8 11].Pairwise (fun r r' => r.cpus.Disjoint r'.cpus) ∧
      DefaultSafe ([CPUBucket.mk 0 3, CPUBucket.mk 8 11].flatMap CPUBucket.cpus)
        (Daemon.run .default Env.ok [.createPod (podRequest "p" [guaranteedInfo "g"]), .deletePod ⟨"p"⟩]
          (Daemon.fresh [] [⟨0, 3⟩, ⟨8, 11⟩])).state :=
  have hdis : [CPUBucket.mk 0 3, CPUBucket.mk 8 11].Pairwise (fun r r' => r.cpus.Disjoint r'.cpus) :=
    List.pairwise_pair.2 fun x hx hx' => by simp only [CPUBucket.mem_cpus] at hx hx'; omega
  ⟨by decide, hdis, default_run_disjoint [] _ Env.ok _ (by decide) hdis⟩

end CpuControlPlane
