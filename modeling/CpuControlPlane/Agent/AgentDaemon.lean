import CpuControlPlane.Agent.Agent

/-! # The agent in front of the daemon

The agent's client reaches the daemon through `Server` of ctlplaneapi, whose methods serve each
request with the daemon's handler and return an error exactly when the handler does
(`Daemon.serve`).  Together they make one system, whose runs are those of `Agent.run` with the
daemon as the client's state.

From a fresh daemon and a fresh agent, with any allocator and whatever each write of the state
returns:

- `run_daemon_pods_added`: the daemon stores only pods the agent has marked, under non-empty ids,
  so a pod whose deletion the agent has seen is stored no more, whatever the `DeletePod` returned;
- `run_daemon_pods_eq_added`: while no call returns an error, the daemon stores exactly the pods
  the agent has marked.

The converse fails once a call fails: the agent marks a pod when it sends its `CreatePod`,
whatever the reply, and never sends it again.

- `run_marked_not_stored`: a pod the agent has marked and the daemon does not store stays
  unstored until the agent sends a `DeletePod` for it, and every `UpdatePod` for it fails. -/

namespace CpuControlPlane

/-! ### The client's calls -/

namespace Daemon

variable (al : Allocator) (env : Env)

/-- The daemon behind the agent's client, through `Server` of ctlplaneapi: each method serves its
request with the daemon's handler and returns an error exactly when the handler does. -/
def serve : Request → Daemon → Bool × Daemon
  | .createPod r, d => (!(d.createPod al env r).1.toBool, (d.createPod al env r).2)
  | .updatePod r, d => ((d.updatePod al env r).1.2.isSome, (d.updatePod al env r).2)
  | .deletePod r, d => ((d.deletePod al env r).1.isSome, (d.deletePod al env r).2)

theorem serve_snd (r : Request) (d : Daemon) : (serve al env r d).2 = d.handle al env r := by
  cases r <;> rfl

/-- An `UpdatePod` for a pod the daemon does not store fails and changes nothing. -/
theorem serve_updatePod_of_not_mem {r : UpdatePodRequest} {d : Daemon} (h : r.podId ∉ d.state.pods) :
    serve al env (.updatePod r) d = (true, d) := by
  have hc : (updatePodCheck r d.state).isSome := by
    unfold updatePodCheck
    split
    · rfl
    · rw [if_neg h]; rfl
  obtain ⟨err, he⟩ := Option.isSome_iff_exists.1 hc
  simp only [serve, updatePod, he, Option.isSome_some]

end Daemon

/-- Whether a request deletes the pod `p`. -/
def Request.deletes (p : String) : Request → Bool
  | .deletePod r => r.podId == p
  | _ => false

namespace Agent

variable (al : Allocator) (env : Env)

/-! ### Which pods the daemon stores -/

/-- Every pod the daemon stores has a non-empty id and is marked in `added`. -/
def Synced (added : AList (fun _ : String => Bool)) (d : Daemon) : Prop :=
  ∀ p ∈ d.state.pods, p ≠ "" ∧ lookupD added p false = true

/-- The daemon stores exactly the pods marked in `added`. -/
def Mirrors (added : AList (fun _ : String => Bool)) (d : Daemon) : Prop :=
  ∀ p, p ∈ d.state.pods ↔ lookupD added p false = true

theorem synced_handle (a : Agent) (e : Event) (d : Daemon) (hs : Synced a.addedPods d) :
    Synced (a.handle (Daemon.serve al env) e d).2.1.addedPods (a.handle (Daemon.serve al env) e d).2.2 := by
  rcases a.handle_cases (Daemon.serve al env) e d with h | ⟨-, h⟩ | ⟨r, -, -, h⟩ | ⟨r, -, -, h⟩ | ⟨r, -, h⟩ <;>
    rw [h] <;> simp only [unsuccessfulAttempt_addedPods, attempted_addedPods, Daemon.serve_snd]
  · exact hs
  · exact hs
  · exact fun p hp => hs p ((Daemon.mem_updatePod al env r d p).1 hp)
  · intro p hp
    by_cases hpr : p = r.podId
    · subst hpr
      refine ⟨fun h0 => ?_, by rw [lookupD_insert, if_pos rfl]⟩
      have hd : (d.createPod al env r).2.state = d.state := Daemon.createPod_of_podId_empty al env h0 d
      exact (hs _ (hd ▸ hp)).1 h0
    · rw [lookupD_insert, if_neg hpr]
      exact hs p ((Daemon.mem_handle_ne al env (.createPod r) d hpr).1 hp)
  · intro p hp
    have hpd : p ∈ d.state.pods ∧ p ≠ r.podId := by
      by_cases hr : r.podId = ""
      · have hd : (d.deletePod al env r).2 = d := by rw [Daemon.deletePod_of_podId_empty al env hr]
        have hp : p ∈ d.state.pods := hd ▸ hp
        exact ⟨hp, hr ▸ (hs p hp).1⟩
      · have hpr : p ≠ r.podId := fun he => Daemon.not_mem_deletePod al env hr d (he ▸ hp)
        exact ⟨(Daemon.mem_handle_ne al env (.deletePod r) d hpr).1 hp, hpr⟩
    rw [lookupD_erase, if_neg hpd.2]
    exact hs p hpd.1

theorem mirrors_handle (a : Agent) (e : Event) (d : Daemon) (hm : Mirrors a.addedPods d)
    (hok : (a.handle (Daemon.serve al env) e d).1.callFailed = false) :
    Mirrors (a.handle (Daemon.serve al env) e d).2.1.addedPods (a.handle (Daemon.serve al env) e d).2.2 := by
  rcases a.handle_cases (Daemon.serve al env) e d with h | ⟨-, h⟩ | ⟨r, -, -, h⟩ | ⟨r, -, -, h⟩ | ⟨r, -, h⟩ <;>
    rw [h] at hok ⊢ <;> simp only [unsuccessfulAttempt_addedPods, attempted_addedPods, Daemon.serve_snd] at hok ⊢
  · exact hm
  · exact hm
  · exact fun p => (Daemon.mem_updatePod al env r d p).trans (hm p)
  · have hin : r.podId ∈ (d.createPod al env r).2.state.pods := by
      simp only [Attempt.callFailed, Daemon.serve] at hok
      cases hc : (d.createPod al env r).1 with
      | error _ => rw [hc] at hok; cases hok
      | ok _ => exact Daemon.mem_createPod_of_ok al env hc
    intro p
    by_cases hpr : p = r.podId
    · subst hpr
      rw [lookupD_insert, if_pos rfl]
      exact iff_of_true hin rfl
    · rw [lookupD_insert, if_neg hpr]
      exact (Daemon.mem_handle_ne al env (.createPod r) d hpr).trans (hm p)
  · simp only [Attempt.callFailed, Daemon.serve] at hok
    have hr : r.podId ≠ "" := fun h0 => by rw [Daemon.deletePod_of_podId_empty al env h0] at hok; cases hok
    intro p
    by_cases hpr : p = r.podId
    · subst hpr
      rw [lookupD_erase, if_pos rfl]
      exact iff_of_false (Daemon.not_mem_deletePod al env hr d) Bool.false_ne_true
    · rw [lookupD_erase, if_neg hpr]
      exact (Daemon.mem_handle_ne al env (.deletePod r) d hpr).trans (hm p)

/-- **The daemon stores only what the agent has marked.**  With the daemon behind the client, from
a fresh daemon and a fresh agent, after every sequence of events and with any allocator and
whatever each write of the state returns, every pod the daemon stores has a non-empty id and is
marked in `addedPods`: a pod whose `DeletePod` the agent has sent is stored no more, even when the
call returned an error. -/
theorem run_daemon_pods_added (es : List Event) (pre : String) (cpus : List CpuInfo) (ranges : List CPUBucket) :
    ∀ p ∈ (run (Daemon.serve al env) es (newAgent pre) (Daemon.fresh cpus ranges)).2.2.state.pods,
      p ≠ "" ∧ lookupD (run (Daemon.serve al env) es (newAgent pre) (Daemon.fresh cpus ranges)).2.1.addedPods p false = true :=
  run_invariant (Daemon.serve al env) (fun a d _ => Synced a.addedPods d)
    (fun a d _ e hs => synced_handle al env a e d hs) es _ _ [] fun p hp => absurd hp (AList.not_mem_empty p)

/-- A pod of one BestEffort container whose status is ready. -/
def readyPod : WatchedPod :=
  ⟨"p", "p", "ns", [⟨"c", ⟨⟨"0", some 0⟩, ⟨"0", some 0⟩⟩, ⟨⟨"0", some 0⟩, ⟨"0", some 0⟩⟩⟩], [⟨⟨"c", "cid"⟩, true⟩], false⟩

/-- Two updates of a ready pod with the default allocator on a fresh two-cpu daemon: the pod is
stored, under a non-empty id that the agent has marked. -/
theorem run_daemon_pods_added_readyPod :
    "p" ∈ (run (Daemon.serve .default Env.ok) [.update readyPod, .update readyPod] (newAgent "")
      (Daemon.fresh twoCpuInfos [⟨0, 1⟩])).2.2.state.pods ∧
    ("p" ≠ "" ∧ lookupD (run (Daemon.serve .default Env.ok) [.update readyPod, .update readyPod] (newAgent "")
      (Daemon.fresh twoCpuInfos [⟨0, 1⟩])).2.1.addedPods "p" false = true) :=
  ⟨by decide, run_daemon_pods_added .default Env.ok _ "" twoCpuInfos [⟨0, 1⟩] "p" (by decide)⟩

/-- **While no call fails, the daemon stores exactly what the agent has marked.**  From a fresh
daemon and a fresh agent, after a sequence of events in which no call returned an error, a pod is
stored by the daemon exactly when the agent's `addedPods` marks it. -/
theorem run_daemon_pods_eq_added (es : List Event) (pre : String) (cpus : List CpuInfo) (ranges : List CPUBucket)
    (hok : ∀ t ∈ (run (Daemon.serve al env) es (newAgent pre) (Daemon.fresh cpus ranges)).1, t.callFailed = false)
    (p : String) :
    p ∈ (run (Daemon.serve al env) es (newAgent pre) (Daemon.fresh cpus ranges)).2.2.state.pods ↔
      lookupD (run (Daemon.serve al env) es (newAgent pre) (Daemon.fresh cpus ranges)).2.1.addedPods p false = true := by
  have := run_invariant (Daemon.serve al env)
    (fun a d l => (∀ t ∈ l, t.callFailed = false) → Mirrors a.addedPods d)
    (fun a d l e hm hl => mirrors_handle al env a e d (hm fun t ht => hl t (List.mem_append_left _ ht))
      (hl _ (List.mem_append_right _ (List.mem_singleton_self _))))
    es (newAgent pre) (Daemon.fresh cpus ranges) []
    (fun _ q => iff_of_false (AList.not_mem_empty q) (by simp [newAgent, lookupD, AList.lookup_empty]))
  exact this (by simpa using hok) p

/-- Two updates of a ready pod (a `CreatePod`, then an `UpdatePod`) with the default allocator on
a fresh two-cpu daemon: no call fails, and the pod is both stored and marked. -/
theorem run_daemon_pods_eq_added_readyPod :
    (∀ t ∈ (run (Daemon.serve .default Env.ok) [.update readyPod, .update readyPod] (newAgent "")
      (Daemon.fresh twoCpuInfos [⟨0, 1⟩])).1, t.callFailed = false) ∧
    ("p" ∈ (run (Daemon.serve .default Env.ok) [.update readyPod, .update readyPod] (newAgent "")
        (Daemon.fresh twoCpuInfos [⟨0, 1⟩])).2.2.state.pods ↔
      lookupD (run (Daemon.serve .default Env.ok) [.update readyPod, .update readyPod] (newAgent "")
        (Daemon.fresh twoCpuInfos [⟨0, 1⟩])).2.1.addedPods "p" false = true) :=
  ⟨by decide, run_daemon_pods_eq_added .default Env.ok _ "" twoCpuInfos [⟨0, 1⟩] (by decide) "p"⟩

/-! ### A failed `CreatePod` is not retried -/

/-- A pod marked in `added` that the daemon does not store. -/
def MarkedNotStored (p : String) (added : AList (fun _ : String => Bool)) (d : Daemon) : Prop :=
  lookupD added p false = true ∧ p ∉ d.state.pods

theorem markedNotStored_handle (a : Agent) (e : Event) (d : Daemon) {p : String}
    (hs : MarkedNotStored p a.addedPods d)
    (hno : ∀ r, (a.handle (Daemon.serve al env) e d).1.request? = some r → r.deletes p = false) :
    MarkedNotStored p (a.handle (Daemon.serve al env) e d).2.1.addedPods (a.handle (Daemon.serve al env) e d).2.2 ∧
      ∀ u f, (a.handle (Daemon.serve al env) e d).1 = .sent (.updatePod u) f → u.podId = p → f = true := by
  obtain ⟨hadd, hp⟩ := hs
  rcases a.handle_cases (Daemon.serve al env) e d with h | ⟨-, h⟩ | ⟨r, -, -, h⟩ | ⟨r, -, hu, h⟩ | ⟨r, -, h⟩ <;>
    rw [h] at hno ⊢ <;> simp only [unsuccessfulAttempt_addedPods, attempted_addedPods]
  · exact ⟨⟨hadd, hp⟩, fun _ _ he => by cases he⟩
  · exact ⟨⟨hadd, hp⟩, fun _ _ he => by cases he⟩
  · by_cases hr : r.podId = p
    · rw [Daemon.serve_updatePod_of_not_mem al env (hr ▸ hp)]
      exact ⟨⟨hadd, hp⟩, fun _ _ he _ => by cases he; rfl⟩
    · refine ⟨⟨hadd, fun hm => hp ((Daemon.mem_handle_ne al env (.updatePod r) d (Ne.symm hr)).1 ?_)⟩,
        fun _ _ he hu' => by cases he; exact absurd hu' hr⟩
      rwa [← Daemon.serve_snd]
  · have hr : p ≠ r.podId := fun he => by rw [he, hu] at hadd; cases hadd
    refine ⟨⟨by rw [lookupD_insert, if_neg hr]; exact hadd, fun hm => hp ?_⟩, fun _ _ he => by cases he⟩
    rwa [Daemon.serve_snd, Daemon.mem_handle_ne al env (.createPod r) d hr] at hm
  · have hr : p ≠ r.podId := fun he => by
      have := hno (.deletePod r) rfl
      simp [Request.deletes, he] at this
    refine ⟨⟨by rw [lookupD_erase, if_neg hr]; exact hadd, fun hm => hp ?_⟩, fun _ _ he => by cases he⟩
    rwa [Daemon.serve_snd, Daemon.mem_handle_ne al env (.deletePod r) d hr] at hm

/-- **A marked pod the daemon does not store stays so.**  Once the agent has marked a pod the
daemon does not store (its `CreatePod` failed: the agent marks the pod whatever the reply), then
over any sequence of events in which the agent sends no `DeletePod` for it, the daemon still does
not store it, and every `UpdatePod` the agent sends for it fails. -/
theorem run_marked_not_stored (es : List Event) (a : Agent) (d : Daemon) {p : String}
    (hadd : lookupD a.addedPods p false = true) (hp : p ∉ d.state.pods)
    (hno : ∀ r ∈ (run (Daemon.serve al env) es a d).1.filterMap Attempt.request?, r.deletes p = false) :
    p ∉ (run (Daemon.serve al env) es a d).2.2.state.pods ∧
      ∀ u f, Attempt.sent (.updatePod u) f ∈ (run (Daemon.serve al env) es a d).1 → u.podId = p → f = true := by
  have := run_invariant (Daemon.serve al env)
    (fun a' d' l => (∀ r ∈ l.filterMap Attempt.request?, r.deletes p = false) →
      MarkedNotStored p a'.addedPods d' ∧ ∀ u f, Attempt.sent (.updatePod u) f ∈ l → u.podId = p → f = true)
    (fun a' d' l e ih hl => by
      rw [filterMap_concat] at hl
      obtain ⟨hs, hu⟩ := ih fun r hr => hl r (List.mem_append_left _ hr)
      have hstep := markedNotStored_handle al env a' e d' hs fun r hr =>
        hl r (List.mem_append_right _ (by rw [hr]; exact List.mem_singleton_self _))
      refine ⟨hstep.1, fun u f hmem hup => ?_⟩
      rcases List.mem_append.1 hmem with hmem | hmem
      · exact hu u f hmem hup
      · exact hstep.2 u f (List.mem_singleton.1 hmem).symm hup)
    es a d [] fun _ => ⟨⟨hadd, hp⟩, fun _ _ h => absurd h (List.not_mem_nil _)⟩
  rw [List.nil_append] at this
  exact ⟨(this hno).1.2, (this hno).2⟩

/-- A pod whose one Guaranteed container asks for three cpus. -/
def bigPod : WatchedPod :=
  ⟨"b", "b", "ns", [⟨"c", ⟨⟨"3", some 3⟩, ⟨"0", some 0⟩⟩, ⟨⟨"3", some 3⟩, ⟨"0", some 0⟩⟩⟩], [⟨⟨"c", "cid"⟩, true⟩], false⟩

/-- The agent and the daemon after the `CreatePod` of `bigPod` failed on a two-cpu machine. -/
def afterFailedCreate : List Attempt × Agent × Daemon :=
  run (Daemon.serve .default Env.ok) [.update bigPod] (newAgent "") (Daemon.fresh twoCpuInfos [⟨0, 1⟩])

/-- After the failed `CreatePod` of `bigPod`, two more updates of the pod send `UpdatePod`s that
fail, and the daemon still does not store it. -/
theorem run_marked_not_stored_bigPod :
    (lookupD afterFailedCreate.2.1.addedPods "b" false = true ∧ "b" ∉ afterFailedCreate.2.2.state.pods ∧
      ∀ r ∈ (run (Daemon.serve .default Env.ok) [.update bigPod, .update bigPod] afterFailedCreate.2.1
        afterFailedCreate.2.2).1.filterMap Attempt.request?, r.deletes "b" = false) ∧
    ("b" ∉ (run (Daemon.serve .default Env.ok) [.update bigPod, .update bigPod] afterFailedCreate.2.1
        afterFailedCreate.2.2).2.2.state.pods ∧
      ∀ u f, Attempt.sent (.updatePod u) f ∈ (run (Daemon.serve .default Env.ok) [.update bigPod, .update bigPod]
        afterFailedCreate.2.1 afterFailedCreate.2.2).1 → u.podId = "b" → f = true) :=
  ⟨⟨by decide, by decide, by decide⟩, run_marked_not_stored .default Env.ok _ _ _ (by decide) (by decide) (by decide)⟩

end Agent

end CpuControlPlane
