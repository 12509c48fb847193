import CpuControlPlane.Daemon.NamespaceRuns

/-! # Requests that run at the same time

Each request handler runs in its own goroutine.  `CreatePod` and `DeletePod` validate without
reading the state and then run under `stateMu`: one atomic step each.  `UpdatePod` checks that
the pod exists before taking the lock, so it makes two steps: the check, and the locked part.

A run of several requests is a schedule naming, step after step, the request that moves
(`interleave`); running the requests one after the other is `serial`.  The interleaving is
`Serializable` when its final state and every reply are those of the requests run one after the
other in some order.

- `interleave_serialSchedule`: letting each request finish before the next starts is the serial
  run;
- `updateAfterDelete_not_serializable`: an `UpdatePod` that passed its check before a
  `DeletePod` of the same pod ran, and takes the lock after it, puts the deleted pod back. -/

namespace CpuControlPlane

/-- A request in flight: what remains of it. -/
inductive Pending where
  | create (req : CreatePodRequest)
  | delete (req : DeletePodRequest)
  | update (req : UpdatePodRequest)
  /-- An `UpdatePod` past its check, waiting for the lock. -/
  | updateLocked (req : UpdatePodRequest)

/-- The reply of a request. -/
inductive Reply where
  | created (r : Except Error AllocatedPodResources)
  | updated (r : Option AllocatedPodResources × Option Error)
  | deleted (r : Option Error)

namespace Pending

variable (al : Allocator) (env : Env)

/-- One atomic step: what is left of the request, or its reply. -/
def step : Pending → Daemon → (Pending ⊕ Reply) × Daemon
  | .create r, d => ((.inr (.created (d.createPod al env r).1)), (d.createPod al env r).2)
  | .delete r, d => ((.inr (.deleted (d.deletePod al env r).1)), (d.deletePod al env r).2)
  | .update r, d =>
    match Daemon.updatePodCheck r d.state with
    | some err => (.inr (.updated (none, some err)), d)
    | none => (.inl (.updateLocked r), d)
  | .updateLocked r, d => ((.inr (.updated (d.updatePodLocked al env r).1)), (d.updatePodLocked al env r).2)

/-- The request run to its end without interruption. -/
def finish (p : Pending) (d : Daemon) : Reply × Daemon :=
  match p.step al env d with
  | (.inr r, d) => (r, d)
  | (.inl p, d) =>
    match p.step al env d with
    | (.inr r, d) => (r, d)
    | (.inl _, d) => (.deleted none, d)

end Pending

variable (al : Allocator) (env : Env)

/-- Run requests by a schedule: each entry names the request that makes its next step; an entry
naming a finished request does nothing. -/
def interleave : List Nat → List (Pending ⊕ Reply) → Daemon → List (Pending ⊕ Reply) × Daemon
  | [], ts, d => (ts, d)
  | i :: sched, ts, d =>
    match ts[i]? with
    | some (.inl p) => interleave sched (ts.set i (p.step al env d).1) (p.step al env d).2
    | _ => interleave sched ts d

/-- Run the requests one after the other, in the given order of their indices. -/
def serial (reqs : List Pending) : List Nat → Daemon → (Nat → Option Reply) × Daemon
  | [], d => (fun _ => none, d)
  | i :: order, d =>
    match reqs[i]? with
    | none => serial reqs order d
    | some p =>
      let (r, d) := p.finish al env d
      let (f, d) := serial reqs order d
      (fun j => if j = i then some r else f j, d)

/-- The interleaving ends as the requests run one after the other in some order: the same final
state and, for every request, the same reply. -/
def Serializable (reqs : List Pending) (sched : List Nat) (d : Daemon) : Prop :=
  ∃ order : List Nat, order.Perm (List.range reqs.length) ∧
    (interleave al env sched (reqs.map .inl) d).2.state = (serial al env reqs order d).2.state ∧
    ∀ i < reqs.length, (interleave al env sched (reqs.map .inl) d).1[i]? = ((serial al env reqs order d).1 i).map .inr

/-! ### Running one request at a time -/

/-- Two steps for each request in turn. -/
def serialSchedule (k n : Nat) : List Nat := (List.range' k n).flatMap fun i => [i, i]

theorem step_eq_inl {p q : Pending} {d d' : Daemon} (h : p.step al env d = (.inl q, d')) :
    ∃ r, q = .updateLocked r := by
  cases p with
  | update r =>
    simp only [Pending.step] at h
    split at h <;> simp only [Prod.mk.injEq, reduceCtorEq, Sum.inl.injEq, false_and] at h
    exact ⟨r, h.1.symm⟩
  | _ => simp [Pending.step] at h

/-- Two steps in a row finish a request. -/
theorem interleave_pair (i : Nat) (ts : List (Pending ⊕ Reply)) (p : Pending) (d : Daemon)
    (hi : ts[i]? = some (.inl p)) (sched : List Nat) :
    interleave al env (i :: i :: sched) ts d =
      interleave al env sched (ts.set i (.inr (p.finish al env d).1)) (p.finish al env d).2 := by
  have hlen : i < ts.length := (List.getElem?_eq_some_iff.1 hi).1
  simp only [interleave, hi]
  rcases h : p.step al env d with ⟨_ | r, d'⟩
  · obtain ⟨r, rfl⟩ := step_eq_inl al env h
    rw [Pending.finish, h]
    simp [List.getElem?_set_self hlen, Pending.step]
  · rw [Pending.finish, h]
    simp [List.getElem?_set_self hlen]

theorem serialSchedule_succ (k n : Nat) : serialSchedule k (n + 1) = k :: k :: serialSchedule (k + 1) n := by
  simp [serialSchedule, List.range'_succ]

theorem interleave_serialSchedule_from (R : List Pending) : ∀ (n k : Nat) (ts : List (Pending ⊕ Reply)) (d : Daemon),
    n + k = R.length → ts.length = R.length → (∀ j, k ≤ j → ts[j]? = R[j]?.map .inl) →
      (interleave al env (serialSchedule k n) ts d).2 = (serial al env R (List.range' k n) d).2 ∧
      ∀ j, (interleave al env (serialSchedule k n) ts d).1[j]? =
        if k ≤ j ∧ j < R.length then ((serial al env R (List.range' k n) d).1 j).map .inr else ts[j]?
  | 0, k, ts, d, hn, _, _ => ⟨rfl, fun j => by rw [if_neg (by omega)]; rfl⟩
  | n + 1, k, ts, d, hn, hlen, hts => by
    have hk : k < R.length := by omega
    have hRk : R[k]? = some R[k] := List.getElem?_eq_getElem hk
    have hk' : ts[k]? = some (.inl R[k]) := by rw [hts k le_rfl, hRk]; rfl
    rw [serialSchedule_succ, interleave_pair al env k ts R[k] d hk', List.range'_succ]
    obtain ⟨ih1, ih2⟩ := interleave_serialSchedule_from R n (k + 1)
      (ts.set k (.inr (R[k].finish al env d).1)) (R[k].finish al env d).2 (by omega) (by simpa using hlen)
      fun j hj => by rw [List.getElem?_set_ne (by omega), hts j (by omega)]
    simp only [serial, hRk]
    refine ⟨ih1, fun j => ?_⟩
    rw [ih2 j]
    by_cases hj : j = k
    · subst hj; simp [List.getElem?_set_self (hlen ▸ hk), hk]
    · simp only [hj, if_false, List.getElem?_set_ne (Ne.symm hj)]
      split_ifs <;> first | rfl | omega

/-- Letting each request finish before the next one starts is serializable: it is the serial run
in the order of the requests. -/
theorem interleave_serialSchedule (reqs : List Pending) (d : Daemon) :
    Serializable al env reqs (serialSchedule 0 reqs.length) d := by
  obtain ⟨h1, h2⟩ := interleave_serialSchedule_from al env reqs reqs.length 0 (reqs.map .inl) d (by simp) (by simp)
    fun j _ => by simp
  refine ⟨List.range reqs.length, List.Perm.refl _, by rw [h1, List.range_eq_range'], fun i hi => ?_⟩
  rw [h2 i, if_pos ⟨Nat.zero_le _, hi⟩, List.range_eq_range']

/-! ### An update that outlives a delete -/

/-- A two-element permutation of `0, 1` is one of its two orders. -/
theorem perm_range_two {order : List Nat} (h : order.Perm (List.range 2)) : order = [0, 1] ∨ order = [1, 0] := by
  have hnd := h.nodup_iff.2 (List.nodup_range 2)
  match order, h.length_eq with
  | [a, b], _ =>
    have ha : a < 2 := List.mem_range.1 (h.subset (List.mem_cons_self a _))
    have hb : b < 2 := List.mem_range.1 (h.subset (List.mem_cons_of_mem _ (List.mem_singleton_self b)))
    have hab : a ≠ b := by simpa using hnd
    rcases (by omega : a = 0 ∨ a = 1) with rfl | rfl <;> rcases (by omega : b = 0 ∨ b = 1) with rfl | rfl <;>
      simp_all

/-- Pod `p` stored with one best-effort container. -/
def podStored : Daemon :=
  (Daemon.fresh [] [⟨0, 3⟩]).handle .default Env.ok (.createPod (podRequest "p" [bestEffortInfo "x"]))

/-- An `UpdatePod` of `p` and a `DeletePod` of `p`. -/
def updateAndDelete : List Pending := [.update ⟨"p", ⟨0, 0, 0, 0⟩, [bestEffortInfo "x"]⟩, .delete ⟨"p"⟩]

/-- The update passes its check, the delete runs, then the update takes the lock and stores `p`
again, which neither order of the two requests does. -/
theorem updateAfterDelete_not_serializable :
    "p" ∈ (interleave .default Env.ok [0, 1, 0] (updateAndDelete.map .inl) podStored).2.state.pods ∧
      ¬Serializable .default Env.ok updateAndDelete [0, 1, 0] podStored := by
  refine ⟨by decide, ?_⟩
  rintro ⟨order, hperm, hstate, -⟩
  have hp := congrArg (fun s : DaemonState => decide ("p" ∈ s.pods)) hstate
  rcases perm_range_two hperm with rfl | rfl <;> exact absurd hp (by decide)

end CpuControlPlane
