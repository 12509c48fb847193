import CpuControlPlane.Agent.Resources
import CpuControlPlane.Daemon.CpuSetText
import CpuControlPlane.Daemon.PodKeys

/-! # The agent: pod events in, requests to the daemon out

`Agent` watches the pods of its node (agent.go).  The informer calls `update` on every change of
a pod and `delete` when a pod is gone, one call at a time under the agent's mutex.  For a pod of
a served namespace (`namespacePrefix`):

- `update` waits until the pod is not being deleted and every container has an id and is ready;
  it then sends `CreatePod` the first time and `UpdatePod` afterwards, and marks the pod in
  `addedPods` once it has sent the `CreatePod`, whatever the reply;
- `delete` sends `DeletePod` and forgets the pod, whatever the reply;
- an unsuccessful attempt (a request that cannot be built, or a call that returns an error)
  counts up `numConsecutiveUnsuccessfulAttempts`, a successful one resets it, and the
  `maxUnsuccesfullAttempts`-th unsuccessful attempt in a row ends the process (`klog.Fatal`).

Every run is packaged once (`run_invariant`: what each event keeps holds after every sequence of
events).  Over every sequence of events and whatever the calls return:

- `run_followsProtocol`: the requests for each pod follow the protocol
  closed →`CreatePod`→ open →`UpdatePod`→ open →`DeletePod`→ closed, a `DeletePod` being also
  allowed for a closed pod, and a pod is open exactly when `addedPods` marks it;
- `run_exited_iff`: a fresh agent ends the process exactly when `maxUnsuccesfullAttempts`
  attempts in a row were unsuccessful. -/

namespace CpuControlPlane

/-! ### Executable definitions -/

/-- The state of an `Agent`: the pods it has sent a `CreatePod` for, the namespace prefix it
serves, `numConsecutiveUnsuccessfulAttempts`, and whether `klog.Fatal` has ended the process. -/
structure Agent where
  addedPods : AList (fun _ : String => Bool)
  namespacePrefix : String
  numConsecutiveUnsuccessfulAttempts : Nat
  exited : Bool

namespace Agent

/-- A container status as `update` reads it: its name and runtime id, and `Ready`. -/
structure WatchedStatus where
  status : ContainerStatus
  ready : Bool
  deriving DecidableEq, Repr

/-- The pod object the informer hands to `update` and `delete`: the fields of `corev1.Pod` the
agent reads, with `DeletionTimestamp != nil` as `deleting`. -/
structure WatchedPod where
  uid : String
  name : String
  podNamespace : String
  containers : List Container
  statuses : List WatchedStatus
  deleting : Bool
  deriving DecidableEq, Repr

/-- The pod as the request builders of resources.go read it. -/
def WatchedPod.pod (p : WatchedPod) : Pod :=
  ⟨p.uid, p.name, p.podNamespace, p.containers, p.statuses.map (·.status)⟩

/-- `maxUnsuccesfullAttempts`. -/
def maxUnsuccesfullAttempts : Nat := 3

/-- `NewAgent`. -/
def newAgent (namespacePrefix : String) : Agent := ⟨∅, namespacePrefix, 0, false⟩

/-- What one event made the agent do: nothing, fail to build its request (an unsuccessful
attempt), or send a request, whose call returned an error or not. -/
inductive Attempt where
  | ignored
  | notBuilt
  | sent (r : Request) (failed : Bool)

/-- The two informer callbacks the agent registers. -/
inductive Event where
  | update (p : WatchedPod)
  | delete (p : WatchedPod)

/-- `allContainersReady`: every container status has a runtime id and is ready. -/
def allContainersReady (statuses : List WatchedStatus) : Bool :=
  statuses.all fun c => c.status.containerID != "" && c.ready

/-- `successfulAttempt`. -/
def successfulAttempt (a : Agent) : Agent := { a with numConsecutiveUnsuccessfulAttempts := 0 }

/-- `unsuccessfulAttempt`: count the attempt; the `maxUnsuccesfullAttempts`-th in a row ends the
process. -/
def unsuccessfulAttempt (a : Agent) : Agent :=
  let a := { a with numConsecutiveUnsuccessfulAttempts := a.numConsecutiveUnsuccessfulAttempts + 1 }
  if a.numConsecutiveUnsuccessfulAttempts ≥ maxUnsuccesfullAttempts then { a with exited := true } else a

/-- The end of `update` and `delete`: the attempt counted by whether the call returned an error. -/
def attempted (a : Agent) (failed : Bool) : Agent :=
  if failed then a.unsuccessfulAttempt else a.successfulAttempt

variable {σ : Type} (call : Request → σ → Bool × σ)

/-- `update`, with the control-plane client `call`, which answers whether the call returned an
error and may change the state `σ` of what serves it. -/
def update (a : Agent) (p : WatchedPod) (s : σ) : Attempt × Agent × σ :=
  if !hasPrefix p.podNamespace a.namespacePrefix then (.ignored, a, s)
  else if p.deleting then (.ignored, a, s)
  else if !allContainersReady p.statuses || p.statuses.length != p.containers.length then (.ignored, a, s)
  else if lookupD a.addedPods p.uid false then
    match getUpdatePodRequest p.pod with
    | .error _ => (.notBuilt, a.unsuccessfulAttempt, s)
    | .ok r =>
      let res := call (.updatePod r) s
      (.sent (.updatePod r) res.1, a.attempted res.1, res.2)
  else
    match getCreatePodRequest p.pod with
    | .error _ => (.notBuilt, a.unsuccessfulAttempt, s)
    | .ok r =>
      let res := call (.createPod r) s
      (.sent (.createPod r) res.1, { a with addedPods := a.addedPods.insert p.uid true }.attempted res.1, res.2)

/-- `delete`. -/
def delete (a : Agent) (p : WatchedPod) (s : σ) : Attempt × Agent × σ :=
  if !hasPrefix p.podNamespace a.namespacePrefix then (.ignored, a, s)
  else
    let res := call (.deletePod (getDeletePodRequest p.pod)) s
    (.sent (.deletePod (getDeletePodRequest p.pod)) res.1,
      { a with addedPods := a.addedPods.erase p.uid }.attempted res.1, res.2)

/-- One event; once `klog.Fatal` has ended the process nothing handles it. -/
def handle (a : Agent) (e : Event) (s : σ) : Attempt × Agent × σ :=
  if a.exited then (.ignored, a, s)
  else match e with
    | .update p => a.update call p s
    | .delete p => a.delete call p s

/-- The events handled one after the other: what each made the agent do, the agent and the
client's state afterwards. -/
def run : List Event → Agent → σ → List Attempt × Agent × σ
  | [], a, s => ([], a, s)
  | e :: es, a, s =>
    let h := a.handle call e s
    let r := run es h.2.1 h.2.2
    (h.1 :: r.1, r.2)

/-- The request an attempt sent. -/
def Attempt.request? : Attempt → Option Request
  | .sent r _ => some r
  | _ => none

/-- Whether an attempt was unsuccessful; `none` when the event made no attempt. -/
def Attempt.unsuccessful? : Attempt → Option Bool
  | .ignored => none
  | .notBuilt => some true
  | .sent _ failed => some failed

/-- Whether an attempt sent a request whose call returned an error. -/
def Attempt.callFailed : Attempt → Bool
  | .sent _ failed => failed
  | _ => false

/-! ### What an event can do -/

@[simp] theorem successfulAttempt_addedPods (a : Agent) : a.successfulAttempt.addedPods = a.addedPods := rfl

@[simp] theorem unsuccessfulAttempt_addedPods (a : Agent) : a.unsuccessfulAttempt.addedPods = a.addedPods := by
  simp only [unsuccessfulAttempt]; split_ifs <;> rfl

@[simp] theorem attempted_addedPods (a : Agent) (f : Bool) : (a.attempted f).addedPods = a.addedPods := by
  cases f <;> simp [attempted]

theorem getUpdatePodRequest_podId {pod : Pod} {r : UpdatePodRequest} (h : getUpdatePodRequest pod = .ok r) :
    r.podId = pod.uid := by
  simp only [getUpdatePodRequest] at h
  split at h <;> cases h
  rfl

theorem getCreatePodRequest_podId {pod : Pod} {r : CreatePodRequest} (h : getCreatePodRequest pod = .ok r) :
    r.podId = pod.uid := by
  simp only [getCreatePodRequest] at h
  split at h <;> cases h
  rfl

/-- Everything one event can do: nothing; count a request that cannot be built; send `UpdatePod`
for a marked pod; send `CreatePod` for an unmarked pod and mark it; send `DeletePod` and forget
the pod.  Only a running agent does anything. -/
theorem handle_cases (a : Agent) (e : Event) (s : σ) :
    a.handle call e s = (.ignored, a, s) ∨
    a.exited = false ∧ a.handle call e s = (.notBuilt, a.unsuccessfulAttempt, s) ∨
    (∃ r : UpdatePodRequest, a.exited = false ∧ lookupD a.addedPods r.podId false = true ∧
      a.handle call e s = (.sent (.updatePod r) (call (.updatePod r) s).1,
        a.attempted (call (.updatePod r) s).1, (call (.updatePod r) s).2)) ∨
    (∃ r : CreatePodRequest, a.exited = false ∧ lookupD a.addedPods r.podId false = false ∧
      a.handle call e s = (.sent (.createPod r) (call (.createPod r) s).1,
        { a with addedPods := a.addedPods.insert r.podId true }.attempted (call (.createPod r) s).1,
        (call (.createPod r) s).2)) ∨
    (∃ r : DeletePodRequest, a.exited = false ∧
      a.handle call e s = (.sent (.deletePod r) (call (.deletePod r) s).1,
        { a with addedPods := a.addedPods.erase r.podId }.attempted (call (.deletePod r) s).1,
        (call (.deletePod r) s).2)) := by
  unfold handle
  split
  · exact .inl rfl
  next hx =>
  have hx : a.exited = false := Bool.eq_false_iff.2 hx
  cases e with
  | update p =>
    simp only [update]
    by_cases h1 : (!hasPrefix p.podNamespace a.namespacePrefix) = true
    · rw [if_pos h1]; exact .inl rfl
    rw [if_neg h1]
    by_cases h2 : p.deleting = true
    · rw [if_pos h2]; exact .inl rfl
    rw [if_neg h2]
    by_cases h3 : (!allContainersReady p.statuses || p.statuses.length != p.containers.length) = true
    · rw [if_pos h3]; exact .inl rfl
    rw [if_neg h3]
    by_cases hadded : lookupD a.addedPods p.uid false = true
    · rw [if_pos hadded]
      cases hr : getUpdatePodRequest p.pod with
      | error _ => exact .inr (.inl ⟨hx, rfl⟩)
      | ok r =>
        refine .inr (.inr (.inl ⟨r, hx, ?_, rfl⟩))
        rw [getUpdatePodRequest_podId hr]; exact hadded
    · rw [if_neg hadded]
      cases hr : getCreatePodRequest p.pod with
      | error _ => exact .inr (.inl ⟨hx, rfl⟩)
      | ok r =>
        have hid : r.podId = p.uid := getCreatePodRequest_podId hr
        refine .inr (.inr (.inr (.inl ⟨r, hx, ?_, ?_⟩)))
        · rw [hid]; exact Bool.eq_false_iff.2 hadded
        · rw [hid]
  | delete p =>
    simp only [delete]
    split_ifs
    · exact .inl rfl
    · exact .inr (.inr (.inr (.inr ⟨getDeletePodRequest p.pod, hx, rfl⟩)))

/-! ### Invariants of whole runs -/

/-- **Runs keep what events keep.**  A property of the agent, the client's state and the attempts
made so far that every event keeps holds after every sequence of events. -/
theorem run_invariant (I : Agent → σ → List Attempt → Prop)
    (hstep : ∀ a s l e, I a s l → I (a.handle call e s).2.1 (a.handle call e s).2.2 (l ++ [(a.handle call e s).1])) :
    ∀ (es : List Event) (a : Agent) (s : σ) (l : List Attempt), I a s l →
      I (run call es a s).2.1 (run call es a s).2.2 (l ++ (run call es a s).1)
  | [], _, _, l, h => by simpa only [run, List.append_nil] using h
  | e :: es, a, s, l, h => by
    have := run_invariant I hstep es _ _ _ (hstep a s l e h)
    rwa [List.append_assoc, List.singleton_append] at this

theorem filterMap_concat {α β : Type} (f : α → Option β) (l : List α) (x : α) :
    (l ++ [x]).filterMap f = l.filterMap f ++ (f x).toList := by
  cases h : f x <;> simp [h]

/-! ### The protocol of one pod -/

/-- One request for a pod through the protocol automaton, whose state says whether the pod is
open (created and not deleted since); `none` when the request is not allowed. -/
def protocolStep (opened : Bool) : Request → Option Bool
  | .createPod _ => if opened then none else some true
  | .updatePod _ => if opened then some true else none
  | .deletePod _ => some false

/-- The requests for the pod `uid` of a list through the automaton, from the state `opened`. -/
def followsProtocol (uid : String) : Bool → List Request → Option Bool
  | opened, [] => some opened
  | opened, r :: rs =>
    if r.podId = uid then (protocolStep opened r).bind fun o => followsProtocol uid o rs
    else followsProtocol uid opened rs

theorem followsProtocol_append (uid : String) : ∀ (o : Bool) (l₁ l₂ : List Request),
    followsProtocol uid o (l₁ ++ l₂) = (followsProtocol uid o l₁).bind fun o' => followsProtocol uid o' l₂
  | _, [], _ => rfl
  | o, r :: l₁, l₂ => by
    simp only [List.cons_append, followsProtocol]
    split_ifs
    · cases protocolStep o r <;> simp [followsProtocol_append]
    · exact followsProtocol_append uid o l₁ l₂

theorem followsProtocol_singleton (uid : String) (o : Bool) (r : Request) :
    followsProtocol uid o [r] = if r.podId = uid then protocolStep o r else some o := by
  simp only [followsProtocol, Option.bind_some]

/-- One event moves each pod through the automaton as it moves the pod's mark. -/
theorem handle_followsProtocol (a : Agent) (e : Event) (s : σ) (uid : String) :
    followsProtocol uid (lookupD a.addedPods uid false) (a.handle call e s).1.request?.toList =
      some (lookupD (a.handle call e s).2.1.addedPods uid false) := by
  rcases a.handle_cases call e s with h | ⟨-, h⟩ | ⟨r, -, hu, h⟩ | ⟨r, -, hu, h⟩ | ⟨r, -, h⟩ <;>
    rw [h] <;> simp only [Attempt.request?, Option.toList, followsProtocol, followsProtocol_singleton,
      unsuccessfulAttempt_addedPods, attempted_addedPods, Request.podId]
  · by_cases he : r.podId = uid
    · subst he; simp [protocolStep, hu]
    · rw [if_neg he]
  · by_cases he : r.podId = uid
    · subst he; simp [protocolStep, hu, lookupD_insert]
    · simp [lookupD_insert, Ne.symm he, he]
  · by_cases he : r.podId = uid
    · subst he; simp [protocolStep, lookupD_erase]
    · simp [lookupD_erase, Ne.symm he, he]

/-- **The protocol of each pod.**  Over every sequence of events and whatever the calls return,
the requests the agent sends for a pod are accepted by the automaton closed →`CreatePod`→ open
→`UpdatePod`→ open →`DeletePod`→ closed (`DeletePod` also from closed), started from the pod's
mark, and end in the state the pod's mark then has.  From a fresh agent every pod starts closed:
no `UpdatePod` before a `CreatePod`, and no second `CreatePod` without a `DeletePod` between. -/
theorem run_followsProtocol (es : List Event) (a : Agent) (s : σ) (uid : String) :
    followsProtocol uid (lookupD a.addedPods uid false) ((run call es a s).1.filterMap Attempt.request?) =
      some (lookupD (run call es a s).2.1.addedPods uid false) := by
  have := run_invariant call
    (fun a' _ l => followsProtocol uid (lookupD a.addedPods uid false) (l.filterMap Attempt.request?) =
      some (lookupD a'.addedPods uid false))
    (fun a' s' l e h => by
      simp only [filterMap_concat, followsProtocol_append, h, Option.bind_some]
      exact handle_followsProtocol call a' e s' uid)
    es a s [] rfl
  rwa [List.nil_append] at this

/-! ### The count of unsuccessful attempts -/

theorem replicate_succ_suffix_concat {α : Type} (x b : α) (n : Nat) (h : List α) :
    List.IsSuffix (List.replicate (n + 1) x) (h ++ [b]) ↔ x = b ∧ List.IsSuffix (List.replicate n x) h := by
  rw [List.replicate_succ', List.suffix_concat_iff]
  constructor
  · rintro (hn | ⟨t, ht, hs⟩)
    · simp at hn
    · obtain ⟨rfl, hx⟩ := List.append_inj' ht rfl
      exact ⟨List.singleton_inj.1 hx, hs⟩
  · rintro ⟨rfl, hs⟩
    exact .inr ⟨_, rfl, hs⟩

theorem replicate_suffix_replicate {α : Type} (x : α) {m n : Nat} (h : m ≤ n) :
    List.IsSuffix (List.replicate m x) (List.replicate n x) :=
  ⟨List.replicate (n - m) x, by rw [← List.replicate_add, Nat.sub_add_cancel h]⟩

/-- A run of `n` copies of `x` that is new in `h ++ [b]` ends there. -/
theorem replicate_infix_concat {α : Type} {x b : α} {n : Nat} {h : List α} (hn : 0 < n)
    (hinf : ¬List.IsInfix (List.replicate n x) h) (hi : List.IsInfix (List.replicate n x) (h ++ [b])) :
    x = b ∧ List.IsSuffix (List.replicate (n - 1) x) h := by
  rcases List.infix_concat_iff.1 hi with hs | hi
  · rw [← Nat.sub_add_cancel hn] at hs
    exact (replicate_succ_suffix_concat x b _ h).1 hs
  · exact absurd hi hinf

/-- How the agent's counter follows the outcomes `h` of the attempts made so far (oldest first,
`true` for unsuccessful): the process has ended exactly when `h` holds `maxUnsuccesfullAttempts`
unsuccessful attempts in a row, and until then the counter is the number of unsuccessful attempts
`h` ends with. -/
def Counted (a : Agent) (h : List Bool) : Prop :=
  (a.exited = true ↔ List.IsInfix (List.replicate maxUnsuccesfullAttempts true) h) ∧
  (a.exited = false → List.IsSuffix (List.replicate a.numConsecutiveUnsuccessfulAttempts true) h ∧
    ¬List.IsSuffix (List.replicate (a.numConsecutiveUnsuccessfulAttempts + 1) true) h)

theorem counted_newAgent (pre : String) : Counted (newAgent pre) [] :=
  ⟨by simp [newAgent, maxUnsuccesfullAttempts], fun _ => ⟨List.nil_suffix, by simp [newAgent]⟩⟩

/-- A running agent's attempt, counted (whatever it did to the marks). -/
theorem counted_attempted {a : Agent} {h : List Bool} (hc : Counted a h) (hx : a.exited = false)
    (added : AList (fun _ : String => Bool)) : ∀ f, Counted ({ a with addedPods := added }.attempted f) (h ++ [f]) := by
  have hinf : ¬List.IsInfix (List.replicate maxUnsuccesfullAttempts true) h := fun hi => by
    simp [hc.1.2 hi] at hx
  obtain ⟨hsuf, hnot⟩ := hc.2 hx
  have hlt : a.numConsecutiveUnsuccessfulAttempts < maxUnsuccesfullAttempts := Nat.lt_of_not_le fun hge =>
    hinf ((replicate_suffix_replicate true hge).trans hsuf).isInfix
  have hpos : 0 < maxUnsuccesfullAttempts := Nat.zero_lt_of_lt hlt
  intro f
  cases f with
  | false =>
    refine ⟨⟨fun he => by simp [attempted, successfulAttempt, hx] at he,
      fun hi => Bool.noConfusion (replicate_infix_concat hpos hinf hi).1⟩,
      fun _ => ⟨List.nil_suffix, fun hs => Bool.noConfusion ((replicate_succ_suffix_concat _ _ _ _).1 hs).1⟩⟩
  | true =>
    simp only [attempted, if_true, unsuccessfulAttempt]
    have hsuf' := (replicate_succ_suffix_concat true true _ h).2 ⟨rfl, hsuf⟩
    split_ifs with hge
    · have hM : a.numConsecutiveUnsuccessfulAttempts + 1 = maxUnsuccesfullAttempts := by omega
      exact ⟨iff_of_true rfl (hM ▸ hsuf'.isInfix), fun he => Bool.noConfusion he⟩
    · refine ⟨⟨fun he => absurd (hx.symm.trans he) Bool.false_ne_true, fun hi => (hnot
        ((replicate_suffix_replicate true (by omega)).trans (replicate_infix_concat hpos hinf hi).2)).elim⟩,
        fun _ => ⟨hsuf', fun hs => hnot ((replicate_succ_suffix_concat true true _ h).1 hs).2⟩⟩

theorem counted_handle (a : Agent) (e : Event) (s : σ) {h : List Bool} (hc : Counted a h) :
    Counted (a.handle call e s).2.1 (h ++ (a.handle call e s).1.unsuccessful?.toList) := by
  rcases a.handle_cases call e s with he | ⟨hx, he⟩ | ⟨r, hx, -, he⟩ | ⟨r, hx, -, he⟩ | ⟨r, hx, he⟩ <;> rw [he]
  · simpa [Attempt.unsuccessful?] using hc
  · exact counted_attempted hc hx a.addedPods true
  · exact counted_attempted hc hx a.addedPods _
  all_goals exact counted_attempted hc hx _ _

/-- **The agent stops after `maxUnsuccesfullAttempts` unsuccessful attempts in a row.**  Over
every sequence of events and whatever the calls return, a fresh agent has ended the process
exactly when the outcomes of its attempts hold `maxUnsuccesfullAttempts` unsuccessful ones in a
row: a successful attempt in between resets the count, and an event that made no attempt does not
touch it. -/
theorem run_exited_iff (es : List Event) (pre : String) (s : σ) :
    (run call es (newAgent pre) s).2.1.exited = true ↔
      List.IsInfix (List.replicate maxUnsuccesfullAttempts true)
        ((run call es (newAgent pre) s).1.filterMap Attempt.unsuccessful?) := by
  have := run_invariant call (fun a _ l => Counted a (l.filterMap Attempt.unsuccessful?))
    (fun a s' l e hc => by simp only [filterMap_concat]; exact counted_handle call a e s' hc) es (newAgent pre) s []
    (counted_newAgent pre)
  rw [List.nil_append] at this
  exact this.1

end Agent

end CpuControlPlane
