import CpuControlPlane.Daemon.State

/-! # The cgroup slice of a container

`SliceName` (daemon_allocators.go) gives the path, below the cgroup root, of the leaf cgroup whose
cpuset `UpdateCPUSet` writes for a container: under `kind`, under systemd, or under cgroupfs, each
built from the container's QoS class, its pod id and its container id without the runtime's URL
prefix (`strings.ReplaceAll`).  The runtime arrays of the Docker and containerd formats have no
entry for `Kind`, which `SliceName` handles first.

- `sliceName_inj`: two containers get the same slice only when they have the same QoS class, the
  same pod id, and the same container id once the runtime's prefix is removed, provided pod ids
  hold no `/` (and, under systemd, where `-` becomes `_`, no `_`).  So the daemon's cpuset writes
  for containers that differ there go to different cgroups. -/

namespace CpuControlPlane

/-! ### Executable definitions -/

/-- The scan of `strings.ReplaceAll`, with fuel: each step replaces an occurrence of `old` or
keeps one character. -/
def replaceAllLoop (old new : List Char) : Nat → List Char → List Char
  | 0, s => s
  | _ + 1, [] => []
  | n + 1, c :: rest =>
    if old.isPrefixOf (c :: rest) then new ++ replaceAllLoop old new n ((c :: rest).drop old.length)
    else c :: replaceAllLoop old new n rest

/-- `strings.ReplaceAll`: the occurrences of `old`, left to right and not overlapping, replaced by
`new`; an empty `old` matches before each character and at the end. -/
def replaceAll (s old new : String) : String :=
  if old = "" then ⟨new.toList ++ s.toList.flatMap (· :: new.toList)⟩
  else ⟨replaceAllLoop old.toList new.toList s.length s.toList⟩

/-- `ContainerRuntime`. -/
inductive ContainerRuntime where
  | docker
  | containerdRunc
  | kind
deriving DecidableEq, Repr

/-- `CGroupDriver`. -/
inductive CGroupDriver where
  | driverSystemd
  | driverCgroupfs
deriving DecidableEq, Repr

/-- The array `{"docker", "cri-containerd"}` indexed by the runtime; `Kind` lies outside it. -/
def runtimeTypePrefix : ContainerRuntime → Option String
  | .docker => some "docker"
  | .containerdRunc => some "cri-containerd"
  | .kind => none

/-- The array `{"docker://", "containerd://"}` indexed by the runtime; `Kind` lies outside it. -/
def runtimeURLPrefix : ContainerRuntime → Option String
  | .docker => some "docker://"
  | .containerdRunc => some "containerd://"
  | .kind => none

/-- The array `{"", "besteffort/", "burstable/"}` indexed by the QoS class (`podType` of
`sliceNameKind`, `sliceType` of the cgroupfs format). -/
def kubepodsDir : QoS → String
  | .guaranteed => ""
  | .bestEffort => "besteffort/"
  | .burstable => "burstable/"

/-- `sliceType` of the systemd format. -/
def systemdSliceType : QoS → String
  | .guaranteed => ""
  | .bestEffort => "kubepods-besteffort.slice/"
  | .burstable => "kubepods-burstable.slice/"

/-- `podType` of the systemd format. -/
def systemdPodType : QoS → String
  | .guaranteed => ""
  | .bestEffort => "-besteffort"
  | .burstable => "-burstable"

/-- `sliceNameKind`. -/
def sliceNameKind (c : Container) : String :=
  "kubelet/kubepods/" ++ kubepodsDir c.qs ++ "pod" ++ c.pid ++ "/" ++ replaceAll c.cid "containerd://" ""

/-- `sliceNameDockerContainerdWithSystemd`; `none` is the index-out-of-range panic of `Kind`. -/
def sliceNameDockerContainerdWithSystemd (c : Container) (r : ContainerRuntime) : Option String := do
  let typePrefix ← runtimeTypePrefix r
  let urlPrefix ← runtimeURLPrefix r
  pure ("/kubepods.slice/" ++ systemdSliceType c.qs ++ "kubepods" ++ systemdPodType c.qs ++ "-pod" ++
    replaceAll c.pid "-" "_" ++ ".slice/" ++ typePrefix ++ "-" ++ replaceAll c.cid urlPrefix "" ++ ".scope")

/-- `sliceNameDockerContainerdWithCgroupfs`; `none` is the index-out-of-range panic of `Kind`. -/
def sliceNameDockerContainerdWithCgroupfs (c : Container) (r : ContainerRuntime) : Option String := do
  let urlPrefix ← runtimeURLPrefix r
  pure ("/kubepods/" ++ kubepodsDir c.qs ++ "pod" ++ c.pid ++ "/" ++ replaceAll c.cid urlPrefix "")

/-- `SliceName`. -/
def sliceName (c : Container) (r : ContainerRuntime) (d : CGroupDriver) : Option String :=
  if r = .kind then some (sliceNameKind c)
  else if d = .driverSystemd then sliceNameDockerContainerdWithSystemd c r
  else sliceNameDockerContainerdWithCgroupfs c r

example : sliceName ⟨"containerd://cid", "pid-01", "", 0, .burstable⟩ .containerdRunc .driverSystemd =
    some "/kubepods.slice/kubepods-burstable.slice/kubepods-burstable-podpid_01.slice/cri-containerd-cid.scope" := by
  decide

/-! ### Replacing characters -/

theorem replaceAllLoop_single (a b : Char) : ∀ (n : Nat) (l : List Char), l.length ≤ n →
    replaceAllLoop [a] [b] n l = l.map fun c => if c = a then b else c
  | 0, [], _ => rfl
  | n + 1, [], _ => rfl
  | n + 1, c :: rest, h => by
    have ih := replaceAllLoop_single a b n rest (by simpa using h)
    by_cases hc : c = a
    · subst hc
      simp [replaceAllLoop, ih]
    · simp [replaceAllLoop, hc, Ne.symm hc, ih]

/-- Replacing one character by another maps it over the string. -/
theorem toList_replaceAll_single (s : String) (a b : Char) :
    (replaceAll s ⟨[a]⟩ ⟨[b]⟩).toList = s.toList.map fun c => if c = a then b else c := by
  rw [replaceAll, if_neg (by simp [String.ext_iff])]
  exact replaceAllLoop_single a b _ _ le_rfl

theorem toList_replaceAll_dash (s : String) :
    (replaceAll s "-" "_").toList = s.toList.map fun c => if c = '-' then '_' else c :=
  toList_replaceAll_single s '-' '_'

/-- Mapping `-` to `_` is injective on lists without `_`. -/
theorem map_dash_inj {l l' : List Char} (h : '_' ∉ l) (h' : '_' ∉ l')
    (he : (l.map fun c => if c = '-' then '_' else c) = l'.map fun c => if c = '-' then '_' else c) : l = l' := by
  have back : ∀ l : List Char, '_' ∉ l →
      ((l.map fun c => if c = '-' then '_' else c).map fun c => if c = '_' then '-' else c) = l := fun l hl => by
    rw [List.map_map]
    refine (List.map_congr_left fun c hc => ?_).trans (List.map_id l)
    by_cases hd : c = '-'
    · simp [hd]
    · simp [hd, show c ≠ '_' from fun e => hl (e ▸ hc)]
  rw [← back l h, he, back l' h']

/-- A list is cut at the first occurrence of a separator. -/
theorem append_cons_inj_of_not_mem_left {α : Type} {sep : α} : ∀ {a a' x x' : List α}, sep ∉ a → sep ∉ a' →
    a ++ sep :: x = a' ++ sep :: x' → a = a' ∧ x = x'
  | [], [], _, _, _, _, h => ⟨rfl, (List.cons.inj h).2⟩
  | [], _ :: _, _, _, _, h', h => absurd ((List.cons.inj h).1 ▸ List.mem_cons_self _ _) h'
  | _ :: _, [], _, _, h, _, he => absurd ((List.cons.inj he).1 ▸ List.mem_cons_self _ _) h
  | _ :: _, _ :: _, _, _, h, h', he => by
    rw [List.cons_append, List.cons_append] at he
    obtain ⟨rfl, ht⟩ := List.cons.inj he
    obtain ⟨rfl, rfl⟩ := append_cons_inj_of_not_mem_left (mt (List.mem_cons_of_mem _) h)
      (mt (List.mem_cons_of_mem _) h') ht
    exact ⟨rfl, rfl⟩

/-! ### Reading a slice back -/

theorem kubepodsDir_inj {q q' : QoS} {x y : List Char}
    (h : (kubepodsDir q).toList ++ ("pod".toList ++ x) = (kubepodsDir q').toList ++ ("pod".toList ++ y)) :
    q = q' ∧ x = y := by
  cases q <;> cases q' <;> simp [kubepodsDir] at h ⊢ <;> exact h

theorem systemdPodType_inj {q q' : QoS} {x y : List Char}
    (h : (systemdSliceType q).toList ++ ("kubepods".toList ++ ((systemdPodType q).toList ++ ("-pod".toList ++ x))) =
      (systemdSliceType q').toList ++ ("kubepods".toList ++ ((systemdPodType q').toList ++ ("-pod".toList ++ y)))) :
    q = q' ∧ x = y := by
  cases q <;> cases q' <;> simp [systemdSliceType, systemdPodType] at h ⊢ <;> exact h

/-- The pod id and the rest of a kind or cgroupfs slice, after the QoS directory. -/
theorem pod_slash_inj {q q' : QoS} {p p' x x' : String} (hp : '/' ∉ p.toList) (hp' : '/' ∉ p'.toList)
    (h : (kubepodsDir q).toList ++ ("pod".toList ++ (p.toList ++ ("/".toList ++ x.toList))) =
      (kubepodsDir q').toList ++ ("pod".toList ++ (p'.toList ++ ("/".toList ++ x'.toList)))) :
    q = q' ∧ p = p' ∧ x = x' := by
  obtain ⟨hq, h⟩ := kubepodsDir_inj h
  obtain ⟨hpe, hx⟩ := append_cons_inj_of_not_mem_left hp hp' h
  exact ⟨hq, String.ext hpe, String.ext hx⟩

theorem sliceNameKind_inj {c c' : Container} (hp : '/' ∉ c.pid.toList) (hp' : '/' ∉ c'.pid.toList)
    (h : sliceNameKind c = sliceNameKind c') :
    c.qs = c'.qs ∧ c.pid = c'.pid ∧ replaceAll c.cid "containerd://" "" = replaceAll c'.cid "containerd://" "" := by
  have h := congrArg String.toList h
  simp only [sliceNameKind, String.toList, String.data_append, List.append_assoc, List.append_cancel_left_eq] at h
  exact pod_slash_inj hp hp' h

theorem sliceNameDockerContainerdWithCgroupfs_inj {c c' : Container} {r : ContainerRuntime} {u : String}
    (hu : runtimeURLPrefix r = some u) (hp : '/' ∉ c.pid.toList) (hp' : '/' ∉ c'.pid.toList)
    (h : sliceNameDockerContainerdWithCgroupfs c r = sliceNameDockerContainerdWithCgroupfs c' r) :
    c.qs = c'.qs ∧ c.pid = c'.pid ∧ replaceAll c.cid u "" = replaceAll c'.cid u "" := by
  simp only [sliceNameDockerContainerdWithCgroupfs, hu, Option.bind_eq_bind, Option.some_bind, Option.pure_def,
    Option.some.injEq] at h
  have h := congrArg String.toList h
  simp only [String.toList, String.data_append, List.append_assoc, List.append_cancel_left_eq] at h
  exact pod_slash_inj hp hp' h

theorem sliceNameDockerContainerdWithSystemd_inj {c c' : Container} {r : ContainerRuntime} {t u : String}
    (ht : runtimeTypePrefix r = some t) (hu : runtimeURLPrefix r = some u) (hp : '/' ∉ c.pid.toList)
    (hp' : '/' ∉ c'.pid.toList) (hs : '_' ∉ c.pid.toList) (hs' : '_' ∉ c'.pid.toList)
    (h : sliceNameDockerContainerdWithSystemd c r = sliceNameDockerContainerdWithSystemd c' r) :
    c.qs = c'.qs ∧ c.pid = c'.pid ∧ replaceAll c.cid u "" = replaceAll c'.cid u "" := by
  simp only [sliceNameDockerContainerdWithSystemd, ht, hu, Option.bind_eq_bind, Option.some_bind, Option.pure_def,
    Option.some.injEq] at h
  have h := congrArg String.toList h
  simp only [String.toList, String.data_append, List.append_assoc, List.append_cancel_left_eq] at h
  obtain ⟨hq, h⟩ := systemdPodType_inj h
  have split : ∀ P R : List Char, P ++ (['.', 's', 'l', 'i', 'c', 'e', '/'] ++ R) =
      (P ++ ['.', 's', 'l', 'i', 'c', 'e']) ++ '/' :: R := fun P R => by simp
  have noSlash : ∀ p : String, '/' ∉ p.toList → '/' ∉ (replaceAll p "-" "_").toList ++ ['.', 's', 'l', 'i', 'c', 'e'] :=
    fun p hp => by
      rw [toList_replaceAll_dash, List.mem_append, List.mem_map, not_or]
      refine ⟨fun ⟨c, hc, he⟩ => ?_, by decide⟩
      by_cases hd : c = '-'
      · rw [if_pos hd] at he
        exact absurd he (by decide)
      · rw [if_neg hd] at he
        exact hp (he ▸ hc)
  rw [split, split] at h
  obtain ⟨hP, hR⟩ := append_cons_inj_of_not_mem_left (noSlash _ hp) (noSlash _ hp') h
  simp only [List.append_cancel_left_eq] at hR
  have hpid : (replaceAll c.pid "-" "_").toList = (replaceAll c'.pid "-" "_").toList := List.append_cancel_right hP
  rw [toList_replaceAll_dash, toList_replaceAll_dash] at hpid
  exact ⟨hq, String.ext (map_dash_inj hs hs' hpid), String.ext (List.append_cancel_right hR)⟩

/-- **Different containers, different slices.**  Two containers get the same slice from `SliceName`
only when they have the same QoS class, the same pod id, and the same container id once the
runtime's URL prefix (`containerd://` under `kind`) is removed, provided their pod ids hold no `/`
and, under systemd with Docker or containerd, where `-` becomes `_`, no `_`.  So under any runtime
and driver, the cpuset writes for containers that differ there go to different cgroups. -/
theorem sliceName_inj (r : ContainerRuntime) (d : CGroupDriver) {c c' : Container}
    (hp : '/' ∉ c.pid.toList) (hp' : '/' ∉ c'.pid.toList)
    (hs : r ≠ .kind → d = .driverSystemd → '_' ∉ c.pid.toList ∧ '_' ∉ c'.pid.toList)
    (h : sliceName c r d = sliceName c' r d) :
    c.qs = c'.qs ∧ c.pid = c'.pid ∧
      replaceAll c.cid ((runtimeURLPrefix r).getD "containerd://") "" =
        replaceAll c'.cid ((runtimeURLPrefix r).getD "containerd://") "" := by
  unfold sliceName at h
  by_cases hk : r = .kind
  · subst hk
    simp only [if_true] at h
    exact sliceNameKind_inj hp hp' (Option.some.inj h)
  obtain ⟨t, u, ht, hu⟩ : ∃ t u, runtimeTypePrefix r = some t ∧ runtimeURLPrefix r = some u := by
    cases r <;> simp [runtimeTypePrefix, runtimeURLPrefix] at hk ⊢
  rw [hu, Option.getD_some]
  rw [if_neg hk, if_neg hk] at h
  by_cases hd : d = .driverSystemd
  · rw [if_pos hd, if_pos hd] at h
    exact sliceNameDockerContainerdWithSystemd_inj ht hu hp hp' (hs hk hd).1 (hs hk hd).2 h
  · rw [if_neg hd, if_neg hd] at h
    exact sliceNameDockerContainerdWithCgroupfs_inj hu hp hp' h

/-- The container `containerd://cid` of the Go test and a container `cid` of the same pod get the
same systemd slice: their ids agree once the prefix is removed. -/
theorem sliceName_inj_samePod :
    ('/' ∉ "pid-01".toList ∧ '/' ∉ "pid-01".toList ∧
      (ContainerRuntime.containerdRunc ≠ .kind → CGroupDriver.driverSystemd = .driverSystemd →
        '_' ∉ "pid-01".toList ∧ '_' ∉ "pid-01".toList) ∧
      sliceName ⟨"containerd://cid", "pid-01", "", 0, .burstable⟩ .containerdRunc .driverSystemd =
        sliceName ⟨"cid", "pid-01", "c", 2, .burstable⟩ .containerdRunc .driverSystemd) ∧
    (QoS.burstable = QoS.burstable ∧ "pid-01" = "pid-01" ∧
      replaceAll "containerd://cid" ((runtimeURLPrefix .containerdRunc).getD "containerd://") "" =
        replaceAll "cid" ((runtimeURLPrefix .containerdRunc).getD "containerd://") "") :=
  ⟨⟨by decide, by decide, fun _ _ => ⟨by decide, by decide⟩, by decide⟩,
    @sliceName_inj .containerdRunc .driverSystemd ⟨"containerd://cid", "pid-01", "", 0, .burstable⟩
      ⟨"cid", "pid-01", "c", 2, .burstable⟩ (by decide) (by decide) (fun _ _ => ⟨by decide, by decide⟩) (by decide)⟩

end CpuControlPlane
