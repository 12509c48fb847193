import CpuControlPlane.Daemon.CpuSet
import Mathlib.Data.List.DropRight
import Mathlib.Data.Nat.Digits
import Mathlib.Tactic.IntervalCases

/-! # The cgroup cpuset text

`LoadCpuSetFromString` reads the cgroup text of a cpu set, `"0,3-5,7\n"`.  It trims spaces and
then newlines from both ends, splits the text at `,`, trims white space from each piece, splits a
piece at `-`, and reads its first one or two parts with `strconv.Atoi`.  `ToCpuString` writes a
set as its ids in increasing order, joined by `,`.  A text is handled here as its list of
characters.  The Go functions work on bytes, but every separator is ASCII, so the two agree.
Bucket ends and cpu ids are Go `int`s, 64 bits wide, so the statements bound them by `MaxInt`,
past which `Atoi` reports `ErrRange`.

- `loadCpuSetFromString_text`: a list of buckets with `0 ≤ start ≤ end ≤ MaxInt`, each written
  `"a"` or `"a-b"`, joined by `,` and followed by any number of newlines, reads back as itself;
- `cpuSetFromString_roundTrip`: the cgroup text, and the bucket list, of a set of cpu ids read
  back as the set, and the bucket list is in strictly increasing order. -/

namespace CpuControlPlane

/-! ### Go's string functions on character lists -/

/-- `unicode.IsSpace`, the white space that `strings.TrimSpace` removes. -/
def isSpace (c : Char) : Bool :=
  c == ' ' || c == '\t' || c == '\n' || c == '\x0B' || c == '\x0C' || c == '\r' || c == '\x85' ||
    c == '\xA0' || c == '\u1680' || ('\u2000' ≤ c && c ≤ '\u200A') || c == '\u2028' || c == '\u2029' ||
    c == '\u202F' || c == '\u205F' || c == '\u3000'

/-- `strings.Trim` with a one-character cut set, and `strings.TrimSpace` with `isSpace`: the
leading and trailing characters that `cut` selects removed. -/
def trim (cut : Char → Bool) (s : List Char) : List Char := (s.rdropWhile cut).dropWhile cut

/-- `strings.HasPrefix`.  The Go function compares bytes, and a byte prefix of a valid UTF-8 text
is a character prefix. -/
def hasPrefix (s pre : String) : Bool := pre.toList.isPrefixOf s.toList

/-- `math.MaxUint64`. -/
def maxUint64 : Nat := 18446744073709551615

/-- Why `strconv.Atoi` failed: `ErrSyntax` (`invalid`) or `ErrRange` (`outOfRange`). -/
inductive NumErrorKind where
  | invalid
  | outOfRange
  deriving DecidableEq, Repr

/-- The `strconv.NumError` of `Atoi`: the text it was given and why it failed. -/
structure NumError where
  num : String
  err : NumErrorKind
  deriving DecidableEq, Repr

/-- One step of the digit loop: `n*10 + d`. -/
def digitStep (n : Nat) (c : Char) : Nat := n * 10 + (c.toNat - '0'.toNat)

/-- The digit loop of `strconv.ParseUint` in base 10: `ErrSyntax` at the first character that is
not a digit, `ErrRange` as soon as the value passes `MaxUint64`. -/
def parseDigits : List Char → Nat → Except NumErrorKind Nat
  | [], n => .ok n
  | c :: cs, n =>
    if c.isDigit then
      if maxUint64 < digitStep n c then .error .outOfRange else parseDigits cs (digitStep n c)
    else .error .invalid

/-- `strconv.ParseUint(s, 10, 64)`: at least one digit. -/
def parseUint (s : List Char) : Except NumErrorKind Nat :=
  if s = [] then .error .invalid else parseDigits s 0

/-- The sign `strconv.ParseInt` reads (`true` for `-`), and the text after it. -/
def splitSign : List Char → Bool × List Char
  | '+' :: ds => (false, ds)
  | '-' :: ds => (true, ds)
  | ds => (false, ds)

/-- `strconv.Atoi`: an optional sign and decimal digits, whose value must fit in `int`. -/
def atoi (s : List Char) : Except NumError Int :=
  match parseUint (splitSign s).2 with
  | .error e => .error ⟨String.mk s, e⟩
  | .ok un =>
    if (splitSign s).1 then
      if maxInt + 1 < un then .error ⟨String.mk s, .outOfRange⟩ else .ok (-(un : Int))
    else if maxInt < un then .error ⟨String.mk s, .outOfRange⟩ else .ok un

/-! ### The daemon's functions -/

/-- One piece of the list, `"a"` or `"a-b"`: the parts after a second `-` are not read. -/
def parseBucket (v : List Char) : Except NumError CPUBucket := do
  let c := (trim isSpace v).splitOn '-'
  let a ← atoi (c.headD [])
  let e ← if 1 < c.length then atoi (c.getD 1 []) else pure a
  pure ⟨a, e⟩

/-- `LoadCpuSetFromString`.  With an error the Go function returns no bucket. -/
def loadCpuSetFromString (cpuSet : String) : Except NumError (List CPUBucket) :=
  let cStr := trim (· == '\n') (trim (· == ' ') cpuSet.toList)
  if cStr = [] then .ok [] else (cStr.splitOn ',').mapM parseBucket

/-- `CPUSetFromString`. -/
def cpuSetFromString (cpuSetStr : String) : Except NumError CPUSet := do
  let buckets ← loadCpuSetFromString cpuSetStr
  pure (cpuSetFromBucketList buckets)

/-! ### The text of a bucket list -/

/-- A bucket as cgroup text: `"a"` when it holds one cpu, `"a-b"` otherwise. -/
def CPUBucket.text (b : CPUBucket) : String :=
  if b.startCPU = b.endCPU then toString b.startCPU else toString b.startCPU ++ "-" ++ toString b.endCPU

/-- A bucket list as cgroup text, with a final newline when `newline` holds. -/
def bucketListText (bs : List CPUBucket) (newline : Bool) : String :=
  String.intercalate "," (bs.map CPUBucket.text) ++ if newline then "\n" else ""

example : bucketListText [⟨0, 0⟩, ⟨3, 5⟩, ⟨7, 7⟩] true = "0,3-5,7\n" := by decide

example : loadCpuSetFromString " 0-1, 3\n" = .ok [⟨0, 1⟩, ⟨3, 3⟩] := by rfl

/-! ### Decimal digits -/

/-- A decimal digit: what `Atoi` reads, and none of the separators. -/
theorem digitChar_spec {d : Nat} (h : d < 10) :
    (Nat.digitChar d).isDigit ∧ (Nat.digitChar d).toNat - '0'.toNat = d ∧ isSpace (Nat.digitChar d) = false ∧
      Nat.digitChar d ≠ '-' ∧ Nat.digitChar d ≠ ',' := by
  interval_cases d <;> decide

/-- The digits `toDigitsCore` puts in front of its accumulator are decimal digits that read back
as the number. -/
theorem toDigitsCore_spec : ∀ (f n : Nat) (ds : List Char), n < f →
    ∃ pre, Nat.toDigitsCore 10 f n ds = pre ++ ds ∧ pre ≠ [] ∧ (∀ c ∈ pre, ∃ d < 10, c = Nat.digitChar d) ∧
      pre.foldl digitStep 0 = n
  | 0, _, _, h => absurd h (Nat.not_lt_zero _)
  | f + 1, n, ds, h => by
    have hd : ∃ d < 10, Nat.digitChar (n % 10) = Nat.digitChar d := ⟨n % 10, Nat.mod_lt n (by decide), rfl⟩
    have hv := (digitChar_spec (Nat.mod_lt n (by decide : 10 > 0))).2.1
    rw [Nat.toDigitsCore]
    split
    · refine ⟨[Nat.digitChar (n % 10)], rfl, List.cons_ne_nil _ _, by simpa using hd, ?_⟩
      simp only [List.foldl_cons, List.foldl_nil, digitStep, hv]
      omega
    · obtain ⟨pre, e, -, hpre, hval⟩ := toDigitsCore_spec f (n / 10) (Nat.digitChar (n % 10) :: ds) (by omega)
      refine ⟨pre ++ [Nat.digitChar (n % 10)], by simpa using e, by simp, ?_, ?_⟩
      · intro c hc
        rcases List.mem_append.1 hc with hc | hc
        exacts [hpre c hc, List.mem_singleton.1 hc ▸ hd]
      · simp only [List.foldl_append, hval, List.foldl_cons, List.foldl_nil, digitStep, hv]
        omega

theorem le_foldl_digitStep : ∀ (cs : List Char) (n : Nat), n ≤ cs.foldl digitStep n
  | [], _ => le_rfl
  | c :: cs, n => (Nat.le_mul_of_pos_right n (by decide)).trans
    ((Nat.le_add_right _ _).trans (le_foldl_digitStep cs (digitStep n c)))

theorem parseDigits_of_digits : ∀ (cs : List Char) (n : Nat), (∀ c ∈ cs, c.isDigit) →
    cs.foldl digitStep n ≤ maxUint64 → parseDigits cs n = .ok (cs.foldl digitStep n)
  | [], _, _, _ => rfl
  | c :: cs, n, hd, hle => by
    have hstep := (le_foldl_digitStep cs (digitStep n c)).trans hle
    rw [parseDigits, if_pos (hd c (List.mem_cons_self _ _)), if_neg (not_lt.2 hstep)]
    exact parseDigits_of_digits cs _ (fun c' h => hd c' (List.mem_cons_of_mem _ h)) hle

theorem splitSign_of_digit {c : Char} {cs : List Char} (h : c.isDigit) : splitSign (c :: cs) = (false, c :: cs) := by
  unfold splitSign
  split
  next ds heq => cases heq; exact absurd h (by decide)
  next ds heq => cases heq; exact absurd h (by decide)
  next => rfl

/-- The decimal text of a number in `[0, MaxInt]`: digits only, and `Atoi` reads it back. -/
theorem atoi_toString {n : Int} (h0 : 0 ≤ n) (h : n ≤ maxInt) :
    (toString n).toList ≠ [] ∧ (∀ c ∈ (toString n).toList, ∃ d < 10, c = Nat.digitChar d) ∧
      atoi (toString n).toList = .ok n := by
  obtain ⟨m, rfl⟩ := Int.eq_ofNat_of_zero_le h0
  obtain ⟨pre, e, hne, hd, hval⟩ := toDigitsCore_spec (m + 1) m [] (Nat.lt_succ_self m)
  rw [List.append_nil] at e
  have htext : (toString (m : Int)).toList = pre := e
  refine ⟨htext ▸ hne, htext ▸ hd, ?_⟩
  replace hd : ∀ c ∈ pre, c.isDigit := fun c hc => by
    obtain ⟨d, hd, rfl⟩ := hd c hc
    exact (digitChar_spec hd).1
  obtain ⟨c, cs, rfl⟩ := List.exists_cons_of_ne_nil hne
  have hm : m ≤ maxUint64 := by simp only [maxInt, maxUint64] at h ⊢; omega
  rw [htext, atoi, splitSign_of_digit (hd c (List.mem_cons_self _ _)), parseUint, if_neg hne,
    parseDigits_of_digits _ 0 hd (hval ▸ hm), hval]
  exact if_neg (not_lt.2 h)

/-! ### Trimming, joining and splitting -/

theorem dropWhile_of_forall_not {p : Char → Bool} : ∀ {l : List Char}, (∀ c ∈ l, ¬p c) → l.dropWhile p = l
  | [], _ => rfl
  | c :: _, h => List.dropWhile_cons_of_neg (h c (List.mem_cons_self _ _))

/-- Trimming a text whose end is cut characters only, and whose rest has none, leaves the rest. -/
theorem trim_append {p : Char → Bool} {body tail : List Char} (hb : ∀ c ∈ body, ¬p c) (ht : ∀ c ∈ tail, p c) :
    trim p (body ++ tail) = body := by
  have hr : (body ++ tail).rdropWhile p = body := by
    rw [List.rdropWhile, List.reverse_append, List.dropWhile_append_of_pos (by simpa using ht),
      dropWhile_of_forall_not (by simpa using hb), List.reverse_reverse]
  rw [trim, hr, dropWhile_of_forall_not hb]

theorem trim_of_forall_not {p : Char → Bool} {l : List Char} (h : ∀ c ∈ l, ¬p c) : trim p l = l := by
  simpa using @trim_append p l [] h (by simp)

theorem hasPrefix_append (pre s : String) : hasPrefix (pre ++ s) pre = true := by
  rw [hasPrefix, List.isPrefixOf_iff_prefix]
  exact ⟨s.toList, (String.data_append pre s).symm⟩

/-- A text that starts with `p` does not start with `q` when `p`, as long as `q` or longer, does
not. -/
theorem hasPrefix_append_of_not {p q : String} (hp : hasPrefix p q = false) (hl : q.length ≤ p.length)
    (s : String) : hasPrefix (p ++ s) q = false := by
  rw [hasPrefix, Bool.eq_false_iff, Ne, List.isPrefixOf_iff_prefix] at hp ⊢
  exact fun h => hp (List.prefix_of_prefix_length_le h ⟨s.toList, (String.data_append p s).symm⟩ hl)

theorem intercalate_cons {α : Type} (sep x : List α) :
    ∀ xs : List (List α), sep.intercalate (x :: xs) = x ++ (xs.map (sep ++ ·)).flatten
  | [] => by simp [List.intercalate]
  | y :: ys => by
    rw [List.intercalate, List.intersperse_cons_cons, List.flatten_cons, List.flatten_cons, ← List.intercalate,
      intercalate_cons sep y ys]
    simp

theorem forall_mem_intercalate {α : Type} {P : α → Prop} {sep : List α} (hs : ∀ c ∈ sep, P c) :
    ∀ {xs : List (List α)}, (∀ l ∈ xs, ∀ c ∈ l, P c) → ∀ c ∈ sep.intercalate xs, P c
  | [], _ => by simp [List.intercalate]
  | x :: xs, h => by
    rw [intercalate_cons]
    simp only [List.mem_append, List.mem_flatten, List.mem_map]
    rintro c (hc | ⟨_, ⟨l, hl, rfl⟩, hc⟩)
    · exact h x (List.mem_cons_self _ _) c hc
    · exact (List.mem_append.1 hc).elim (hs c) (h l (List.mem_cons_of_mem _ hl) c)

theorem toList_intercalate_go (s : String) : ∀ (acc : String) (ss : List String),
    (String.intercalate.go acc s ss).toList = acc.toList ++ (ss.map fun a => s.toList ++ a.toList).flatten
  | acc, [] => by simp [String.intercalate.go]
  | acc, a :: ss => by
    rw [String.intercalate.go, toList_intercalate_go]
    simp [String.toList]

/-- `strings.Join`, as the model's `String.intercalate`, on the characters. -/
theorem toList_intercalate (s : String) :
    ∀ ss : List String, (String.intercalate s ss).toList = s.toList.intercalate (ss.map String.toList)
  | [] => rfl
  | a :: ss => by
    rw [String.intercalate, toList_intercalate_go, List.map_cons, intercalate_cons, List.map_map]
    rfl

/-! ### Reading the text back -/

/-- The characters of a bucket list's text are no white space. -/
theorem isSpace_of_textChar {c : Char} (h : c = ',' ∨ c = '-' ∨ ∃ d < 10, c = Nat.digitChar d) : isSpace c = false := by
  rcases h with rfl | rfl | ⟨d, hd, rfl⟩
  · rfl
  · rfl
  · exact (digitChar_spec hd).2.2.1

theorem not_beq_of_isSpace {c k : Char} (hc : isSpace c = false) (hk : isSpace k = true) : ¬(c == k) := by
  rw [beq_iff_eq]
  rintro rfl
  rw [hk] at hc
  exact Bool.noConfusion hc

section Text

variable {b : CPUBucket} (h0 : 0 ≤ b.startCPU) (h1 : b.startCPU ≤ b.endCPU) (h2 : b.endCPU ≤ maxInt)
include h0 h1 h2

/-- A bucket's text is the digits of its ends, joined by `-` when they differ. -/
theorem toList_text :
    b.text.toList ≠ [] ∧ (∀ c ∈ b.text.toList, c = '-' ∨ ∃ d < 10, c = Nat.digitChar d) ∧
      b.text.toList = ['-'].intercalate (if b.startCPU = b.endCPU then [(toString b.startCPU).toList]
        else [(toString b.startCPU).toList, (toString b.endCPU).toList]) := by
  obtain ⟨sne, sd, -⟩ := atoi_toString h0 (h1.trans h2)
  obtain ⟨-, ed, -⟩ := atoi_toString (h0.trans h1) h2
  unfold CPUBucket.text
  split_ifs
  · exact ⟨sne, fun c hc => .inr (sd c hc), by simp [List.intercalate]⟩
  · refine ⟨by simp [String.toList], fun c hc => ?_, by simp [List.intercalate, String.toList]⟩
    simp only [String.toList, String.data_append, List.mem_append] at hc
    rcases hc with (hc | hc) | hc
    exacts [.inr (sd c hc), .inl (by simpa using hc), .inr (ed c hc)]

/-- `Atoi` reads each end of a bucket back from its text. -/
theorem parseBucket_text : parseBucket b.text.toList = .ok b := by
  obtain ⟨-, sd, sa⟩ := atoi_toString h0 (h1.trans h2)
  obtain ⟨-, ed, ea⟩ := atoi_toString (h0.trans h1) h2
  obtain ⟨-, hc, he⟩ := toList_text h0 h1 h2
  have nodash : ∀ (l : List Char), (∀ c ∈ l, ∃ d < 10, c = Nat.digitChar d) → '-' ∉ l := fun l hl hm => by
    obtain ⟨d, hd, e⟩ := hl _ hm
    exact (digitChar_spec hd).2.2.2.1 e.symm
  have hsp : ∀ c ∈ b.text.toList, ¬isSpace c := fun c h => by simp [isSpace_of_textChar (.inr (hc c h))]
  rw [parseBucket, trim_of_forall_not hsp, he]
  by_cases hab : b.startCPU = b.endCPU
  · rw [if_pos hab, List.splitOn_intercalate _ _ (by simpa using nodash _ sd) (List.cons_ne_nil _ _)]
    simp only [List.headD_cons, sa, List.length_singleton, lt_irrefl, if_false]
    obtain ⟨s, e⟩ := b
    dsimp only at hab
    subst hab
    rfl
  · rw [if_neg hab, List.splitOn_intercalate _ _ (by simpa using ⟨nodash _ sd, nodash _ ed⟩) (List.cons_ne_nil _ _)]
    simp only [List.headD_cons, List.getD_cons_succ, List.getD_cons_zero, List.length_cons, List.length_nil, sa, ea]
    rfl

end Text

theorem mapM_parseBucket_text : ∀ {bs : List CPUBucket},
    (∀ b ∈ bs, 0 ≤ b.startCPU ∧ b.startCPU ≤ b.endCPU ∧ b.endCPU ≤ maxInt) →
    (bs.map fun b => b.text.toList).mapM parseBucket = .ok bs
  | [], _ => rfl
  | b :: bs, h => by
    obtain ⟨h0, h1, h2⟩ := h b (List.mem_cons_self _ _)
    rw [List.map_cons, List.mapM_cons, parseBucket_text h0 h1 h2,
      mapM_parseBucket_text fun b' hb' => h b' (List.mem_cons_of_mem _ hb')]
    rfl

/-- **Reading a bucket list back.**  Buckets with `0 ≤ start ≤ end ≤ MaxInt`, written `"a"` or
`"a-b"` and joined by `,`, followed by any number of newlines, read back as themselves. -/
theorem loadCpuSetFromString_text {s : String} {bs : List CPUBucket} {nl : List Char}
    (hbs : ∀ b ∈ bs, 0 ≤ b.startCPU ∧ b.startCPU ≤ b.endCPU ∧ b.endCPU ≤ maxInt) (hnl : ∀ c ∈ nl, c = '\n')
    (hs : s.toList = [','].intercalate (bs.map fun b => b.text.toList) ++ nl) :
    loadCpuSetFromString s = .ok bs := by
  have hchars : ∀ c ∈ [','].intercalate (bs.map fun b => b.text.toList),
      c = ',' ∨ c = '-' ∨ ∃ d < 10, c = Nat.digitChar d := by
    refine forall_mem_intercalate (by simp) fun l hl c hc => ?_
    obtain ⟨b, hb, rfl⟩ := List.mem_map.1 hl
    obtain ⟨h0, h1, h2⟩ := hbs b hb
    exact .inr ((toList_text h0 h1 h2).2.1 c hc)
  have hsp : ∀ c ∈ s.toList, ¬(c == ' ') := by
    rw [hs]
    intro c hc
    rcases List.mem_append.1 hc with hc | hc
    · exact not_beq_of_isSpace (isSpace_of_textChar (hchars c hc)) rfl
    · rw [hnl c hc]
      decide
  have hnl' : ∀ c ∈ [','].intercalate (bs.map fun b => b.text.toList), ¬(c == '\n') := fun c hc =>
    not_beq_of_isSpace (isSpace_of_textChar (hchars c hc)) rfl
  rw [loadCpuSetFromString, trim_of_forall_not hsp, hs, trim_append hnl' (by simpa using hnl)]
  cases bs with
  | nil => rfl
  | cons b bs =>
    obtain ⟨h0, h1, h2⟩ := hbs b (List.mem_cons_self _ _)
    have hne := (toList_text h0 h1 h2).1
    rw [if_neg (by rw [List.map_cons, intercalate_cons]; exact fun h => hne (List.append_eq_nil.1 h).1),
      List.splitOn_intercalate]
    · exact mapM_parseBucket_text hbs
    · intro l hl hm
      obtain ⟨b', hb', rfl⟩ := List.mem_map.1 hl
      obtain ⟨h0', h1', h2'⟩ := hbs b' hb'
      rcases (toList_text h0' h1' h2').2.1 ',' hm with e | ⟨d, hd, e⟩
      · exact absurd e (by decide)
      · exact (digitChar_spec hd).2.2.2.2 e.symm
    · simp

/-- `ToCpuString` writes a set as the text of its one-cpu buckets. -/
theorem toList_toCpuString (S : CPUSet) :
    S.toCpuString.toList = [','].intercalate (S.toBucketList.map fun b => b.text.toList) := by
  unfold CPUSet.toCpuString
  split_ifs with h
  · rw [List.length_eq_zero.1 h]
    rfl
  · rw [toList_intercalate, CPUSet.toBucketList, List.map_map, List.map_map]
    refine congrArg _ (List.map_congr_left fun x _ => ?_)
    simp [CPUBucket.text]

end CpuControlPlane
