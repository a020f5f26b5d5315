import Mathlib.Data.List.Basic

/-!
# Line syntax

The pieces that line-oriented formats are read and written with: prefixes and suffixes, the
first occurrence of a separator, whitespace-separated words, and decimal integers of bounded
range. Each reader comes with the lemma that it inverts the corresponding writer.

## Main definitions

- `Text.stripPrefix`, `Text.stripSuffix`, `Text.splitOnce`
- `Text.isWhitespace`, `Text.splitWhitespace`, `Text.replace`
- `Text.formatInt`, `Text.parseInt`: decimal integers within bounds
-/

set_option autoImplicit false

namespace Text

/-- The characters with the Unicode property `White_Space`. -/
def isWhitespace (c : Char) : Bool :=
  let n := c.toNat
  (9 ≤ n && n ≤ 13) || n == 0x20 || n == 0x85 || n == 0xA0 || n == 0x1680 ||
    (0x2000 ≤ n && n ≤ 0x200A) || n == 0x2028 || n == 0x2029 || n == 0x202F || n == 0x205F ||
    n == 0x3000

/-- The text after a prefix. -/
def stripPrefix : List Char → List Char → Option (List Char)
  | [], s => some s
  | _ :: _, [] => none
  | a :: p, b :: s => if a = b then stripPrefix p s else none

/-- The text before a suffix. -/
def stripSuffix (p s : List Char) : Option (List Char) :=
  (stripPrefix p.reverse s.reverse).map List.reverse

/-- The parts before and after the first occurrence of a separator. -/
def splitOnce (sep : Char) : List Char → Option (List Char × List Char)
  | [] => none
  | c :: s => if c = sep then some ([], s) else (splitOnce sep s).map (fun p => (c :: p.1, p.2))

/-- The text after its leading whitespace. -/
def trimStart (s : List Char) : List Char := s.dropWhile isWhitespace

/-- The text before its trailing whitespace. -/
def trimEnd (s : List Char) : List Char := (trimStart s.reverse).reverse

/-- The text between its leading and trailing whitespace. -/
def trim (s : List Char) : List Char := trimEnd (trimStart s)

/-- The maximal runs of characters that are not whitespace. -/
def splitWhitespace (s : List Char) : List (List Char) :=
  (s.splitOnP isWhitespace).filter (fun w => !w.isEmpty)

/-- Replace the occurrences of a pattern from the left; `skip` characters belong to the last
one. -/
def replaceFrom (pat rep : List Char) : (skip : Nat) → List Char → List Char
  | _, [] => []
  | skip + 1, _ :: s => replaceFrom pat rep skip s
  | 0, c :: s =>
    if (stripPrefix pat (c :: s)).isSome then rep ++ replaceFrom pat rep (pat.length - 1) s
    else c :: replaceFrom pat rep 0 s

/-- Replace every occurrence of a non-empty pattern. -/
def replace (pat rep s : List Char) : List Char := replaceFrom pat rep 0 s

/-- Whether a text starts with a prefix. -/
def startsWith (s p : List Char) : Bool := (stripPrefix p s).isSome

/-- The order of the characters, which is the order of the UTF-8 bytes. -/
def le : List Char → List Char → Bool
  | [], _ => true
  | _ :: _, [] => false
  | a :: s, b :: t => if a = b then le s t else decide (a.toNat < b.toNat)

/-- Whether a text ends with a suffix. -/
def endsWith (s p : List Char) : Bool := (stripSuffix p s).isSome

/-! ### Prefixes, suffixes, separators -/

theorem stripPrefix_eq_some_iff {p s r : List Char} : stripPrefix p s = some r ↔ s = p ++ r := by
  induction p generalizing s with
  | nil => simp [stripPrefix, eq_comm]
  | cons a p ih =>
    cases s with
    | nil => simp [stripPrefix]
    | cons b s =>
      rw [stripPrefix]
      by_cases hab : a = b
      · subst hab
        simp [ih]
      · simp [hab, Ne.symm hab]

@[simp] theorem stripPrefix_append (p r : List Char) : stripPrefix p (p ++ r) = some r :=
  (stripPrefix_eq_some_iff).mpr rfl

theorem stripSuffix_eq_some_iff {p s r : List Char} : stripSuffix p s = some r ↔ s = r ++ p := by
  unfold stripSuffix
  rw [Option.map_eq_some_iff]
  constructor
  · rintro ⟨q, hq, rfl⟩
    rw [stripPrefix_eq_some_iff] at hq
    have hs := congrArg List.reverse hq
    simpa using hs
  · rintro rfl
    exact ⟨r.reverse, by simp, List.reverse_reverse r⟩

@[simp] theorem stripSuffix_append (r p : List Char) : stripSuffix p (r ++ p) = some r :=
  (stripSuffix_eq_some_iff).mpr rfl

theorem startsWith_iff {s p : List Char} : startsWith s p = true ↔ ∃ r, s = p ++ r := by
  simp [startsWith, Option.isSome_iff_exists, stripPrefix_eq_some_iff]

/-- Splitting at the first separator inverts joining with it. -/
theorem splitOnce_append {sep : Char} {p : List Char} (hp : sep ∉ p) (q : List Char) :
    splitOnce sep (p ++ sep :: q) = some (p, q) := by
  induction p with
  | nil => simp [splitOnce]
  | cons c p ih =>
    rw [List.mem_cons, not_or] at hp
    rw [List.cons_append, splitOnce, if_neg (Ne.symm hp.1), ih hp.2]
    rfl

theorem splitOnce_of_notMem {sep : Char} {s : List Char} (hs : sep ∉ s) :
    splitOnce sep s = none := by
  induction s with
  | nil => rfl
  | cons c s ih =>
    rw [List.mem_cons, not_or] at hs
    rw [splitOnce, if_neg (Ne.symm hs.1), ih hs.2]
    rfl

/-! ### Literals

A literal unfolds to `String.ofList`, so that its characters need not be decoded. -/

theorem cons_ofList {cs : List Char} {rest rest' : List (List Char)} (h : rest = rest') :
    (String.ofList cs).toList :: rest = cs :: rest' := by
  rw [String.toList_ofList, h]

theorem cons_ofList_pair {α : Type} {cs : List Char} {x x' : α} {rest rest' : List (List Char × α)}
    (hx : x = x') (h : rest = rest') :
    ((String.ofList cs).toList, x) :: rest = (cs, x') :: rest' := by
  rw [String.toList_ofList, hx, h]

/-! ### Words -/

/-- A word: non-empty and free of whitespace. -/
def IsWord (w : List Char) : Prop := w ≠ [] ∧ ∀ c ∈ w, isWhitespace c = false

/-- A text without whitespace, checked character by character. -/
theorem noWhitespace_of_all {s : List Char} (h : s.all (fun c => !isWhitespace c) = true) :
    ∀ c ∈ s, isWhitespace c = false := by
  simpa using h

theorem isWord_of_all {s : List Char} (hne : s ≠ [])
    (h : s.all (fun c => !isWhitespace c) = true) : IsWord s := ⟨hne, noWhitespace_of_all h⟩

theorem splitWhitespace_of_isWord {w : List Char} (h : IsWord w) : splitWhitespace w = [w] := by
  unfold splitWhitespace
  rw [List.splitOnP_eq_singleton h.2]
  simp [h.1]

/-- Reading words inverts joining them with whitespace. -/
theorem splitWhitespace_append {w : List Char} (h : IsWord w) {sep : Char}
    (hsep : isWhitespace sep = true) (rest : List Char) :
    splitWhitespace (w ++ sep :: rest) = w :: splitWhitespace rest := by
  unfold splitWhitespace
  rw [List.splitOnP_append_cons _ _ hsep, List.splitOnP_eq_singleton h.2]
  simp [h.1]

/-- Words joined with single spaces. -/
def unwords : List (List Char) → List Char
  | [] => []
  | [w] => w
  | w :: ws => w ++ ' ' :: unwords ws

theorem splitWhitespace_unwords {ws : List (List Char)} (h : ∀ w ∈ ws, IsWord w) :
    splitWhitespace (unwords ws) = ws := by
  induction ws with
  | nil => rfl
  | cons w ws ih =>
    have hw := h w List.mem_cons_self
    have ih' := ih (fun v hv => h v (List.mem_cons_of_mem w hv))
    cases ws with
    | nil => exact splitWhitespace_of_isWord hw
    | cons v ws =>
      show splitWhitespace (w ++ ' ' :: unwords (v :: ws)) = _
      rw [splitWhitespace_append hw (by decide), ih']

theorem trimStart_of_isWord {w : List Char} (h : IsWord w) (rest : List Char) :
    trimStart (w ++ rest) = w ++ rest := by
  obtain ⟨hne, hw⟩ := h
  cases w with
  | nil => exact absurd rfl hne
  | cons c w => simp [trimStart, hw c List.mem_cons_self]

@[simp] theorem trimStart_space (s : List Char) : trimStart (' ' :: s) = trimStart s := rfl

/-! ### Integers -/

/-- Why a text is not an integer of the expected range. -/
inductive ParseIntError where
  | empty
  | invalidDigit
  | posOverflow
  | negOverflow
  deriving DecidableEq

/-- The decimal digits of an integer, with a sign if it is negative. -/
def formatInt : Int → List Char
  | .ofNat n => Nat.toDigits 10 n
  | .negSucc n => '-' :: Nat.toDigits 10 (n + 1)

/-- Accumulate digits from the left; the bounds are checked after each one. -/
def digitsFrom (lo hi : Int) (neg : Bool) : Int → List Char → Except ParseIntError Int
  | acc, [] => .ok acc
  | acc, c :: cs =>
    if c.isDigit then
      let d : Int := (c.toNat - 48 : Nat)
      let acc' := if neg then acc * 10 - d else acc * 10 + d
      if acc' < lo then .error .negOverflow
      else if hi < acc' then .error .posOverflow
      else digitsFrom lo hi neg acc' cs
    else .error .invalidDigit

/-- Read a decimal integer between `lo` and `hi`. A minus sign is a digit error where the range
has no negative numbers. -/
def parseInt (lo hi : Int) : List Char → Except ParseIntError Int
  | [] => .error .empty
  | ['+'] => .error .invalidDigit
  | ['-'] => .error .invalidDigit
  | '+' :: cs => digitsFrom lo hi false 0 cs
  | '-' :: cs => if lo < 0 then digitsFrom lo hi true 0 cs else .error .invalidDigit
  | cs => digitsFrom lo hi false 0 cs

theorem ofDigitChars_ge (cs : List Char) (n : Nat) : n ≤ Nat.ofDigitChars 10 cs n := by
  induction cs generalizing n with
  | nil => simp
  | cons c cs ih =>
    rw [Nat.ofDigitChars_cons]
    exact Nat.le_trans (by omega) (ih _)

theorem digitsFrom_pos {lo hi : Int} (hlo : lo ≤ 0) {cs : List Char}
    (hd : ∀ c ∈ cs, c.isDigit = true) {n : Nat} (hhi : (Nat.ofDigitChars 10 cs n : Int) ≤ hi) :
    digitsFrom lo hi false n cs = .ok (Nat.ofDigitChars 10 cs n : Int) := by
  induction cs generalizing n with
  | nil => simp [digitsFrom]
  | cons c cs ih =>
    rw [Nat.ofDigitChars_cons] at hhi ⊢
    have hge := ofDigitChars_ge cs (10 * n + (c.toNat - '0'.toNat))
    have hacc : (n : Int) * 10 + ((c.toNat - 48 : Nat) : Int)
        = ((10 * n + (c.toNat - '0'.toNat) : Nat) : Int) := by
      have h0 : '0'.toNat = 48 := rfl
      rw [h0]
      omega
    rw [digitsFrom, if_pos (hd c List.mem_cons_self)]
    simp only [Bool.false_eq_true, if_false, hacc]
    rw [if_neg (by omega), if_neg (by omega)]
    exact ih (fun d h => hd d (List.mem_cons_of_mem c h)) hhi

theorem digitsFrom_neg {lo hi : Int} (hhi : 0 ≤ hi) {cs : List Char}
    (hd : ∀ c ∈ cs, c.isDigit = true) {n : Nat} (hlo : lo ≤ -(Nat.ofDigitChars 10 cs n : Int)) :
    digitsFrom lo hi true (-n) cs = .ok (-(Nat.ofDigitChars 10 cs n : Int)) := by
  induction cs generalizing n with
  | nil => simp [digitsFrom]
  | cons c cs ih =>
    rw [Nat.ofDigitChars_cons] at hlo ⊢
    have hge := ofDigitChars_ge cs (10 * n + (c.toNat - '0'.toNat))
    have hacc : -(n : Int) * 10 - ((c.toNat - 48 : Nat) : Int)
        = -((10 * n + (c.toNat - '0'.toNat) : Nat) : Int) := by
      have h0 : '0'.toNat = 48 := rfl
      rw [h0]
      omega
    rw [digitsFrom, if_pos (hd c List.mem_cons_self)]
    simp only [if_true, hacc]
    rw [if_neg (by omega), if_neg (by omega)]
    exact ih (fun d h => hd d (List.mem_cons_of_mem c h)) hlo

theorem toDigits_isDigit {n : Nat} : ∀ c ∈ Nat.toDigits 10 n, c.isDigit = true :=
  fun _ hc => Nat.isDigit_of_mem_toDigits (by omega) (by omega) hc

/-- An unsigned text is read by its digits alone. -/
theorem parseInt_toDigits (lo hi : Int) (n : Nat) :
    parseInt lo hi (Nat.toDigits 10 n) = digitsFrom lo hi false 0 (Nat.toDigits 10 n) := by
  have hd := @toDigits_isDigit n
  have hne : Nat.toDigits 10 n ≠ [] := Nat.toDigits_ne_nil
  generalize Nat.toDigits 10 n = l at hd hne
  cases l with
  | nil => exact absurd rfl hne
  | cons c cs =>
    have hc : c.isDigit = true := hd c List.mem_cons_self
    have hp : c ≠ '+' := by rintro rfl; revert hc; decide
    have hm : c ≠ '-' := by rintro rfl; revert hc; decide
    unfold parseInt
    split <;> simp_all

/-- Reading inverts writing for every integer of the range. -/
theorem parseInt_formatInt {lo hi n : Int} (h0 : lo ≤ 0) (h0' : 0 ≤ hi) (hlo : lo ≤ n)
    (hhi : n ≤ hi) : parseInt lo hi (formatInt n) = .ok n := by
  cases n with
  | ofNat n =>
    have hv := Nat.ofDigitChars_ten_toDigits (n := n)
    rw [formatInt, parseInt_toDigits]
    have h := @digitsFrom_pos lo hi h0 (Nat.toDigits 10 n) toDigits_isDigit 0
      (by rw [hv]; exact hhi)
    rw [hv] at h
    exact h
  | negSucc n =>
    have hv := Nat.ofDigitChars_ten_toDigits (n := n + 1)
    have hne : Nat.toDigits 10 (n + 1) ≠ [] := Nat.toDigits_ne_nil
    have hneg : (Int.negSucc n) = -((n + 1 : Nat) : Int) := rfl
    have h := @digitsFrom_neg lo hi h0' (Nat.toDigits 10 (n + 1)) toDigits_isDigit 0
      (by rw [hv, ← hneg]; exact hlo)
    rw [hv, ← hneg] at h
    have hl : lo < 0 := Int.lt_of_le_of_lt hlo (Int.negSucc_lt_zero n)
    rw [formatInt]
    generalize Nat.toDigits 10 (n + 1) = l at hne h
    cases l with
    | nil => exact absurd rfl hne
    | cons c cs =>
      rw [parseInt, if_pos hl]
      · exact h
      · simp

theorem digitsFrom_range {lo hi acc n : Int} {neg : Bool} {cs : List Char} (hlo : lo ≤ acc)
    (hhi : acc ≤ hi) (h : digitsFrom lo hi neg acc cs = .ok n) : lo ≤ n ∧ n ≤ hi := by
  induction cs generalizing acc with
  | nil =>
    cases h
    exact ⟨hlo, hhi⟩
  | cons c cs ih =>
    rw [digitsFrom] at h
    by_cases hdigit : c.isDigit = true
    · rw [if_pos hdigit] at h
      dsimp only at h
      generalize (if neg then acc * 10 - ((c.toNat - 48 : Nat) : Int)
        else acc * 10 + ((c.toNat - 48 : Nat) : Int)) = acc' at h
      by_cases hunder : acc' < lo
      · rw [if_pos hunder] at h
        cases h
      rw [if_neg hunder] at h
      by_cases hover : hi < acc'
      · rw [if_pos hover] at h
        cases h
      rw [if_neg hover] at h
      exact ih (Int.not_lt.mp hunder) (Int.not_lt.mp hover) h
    · rw [if_neg hdigit] at h
      cases h

/-- What is read is in the range. -/
theorem parseInt_range {lo hi n : Int} (h0 : lo ≤ 0) (h0' : 0 ≤ hi) {s : List Char}
    (h : parseInt lo hi s = .ok n) : lo ≤ n ∧ n ≤ hi := by
  unfold parseInt at h
  split at h
  · cases h
  · cases h
  · cases h
  · exact digitsFrom_range h0 h0' h
  · split_ifs at h
    exact digitsFrom_range h0 h0' h
  · exact digitsFrom_range h0 h0' h

/-- Digits that are read at all have the value that they say. -/
theorem digitsFrom_value {lo hi m : Int} {cs : List Char} (hd : ∀ c ∈ cs, c.isDigit = true)
    {n : Nat} (h : digitsFrom lo hi false n cs = .ok m) : m = (Nat.ofDigitChars 10 cs n : Int) := by
  induction cs generalizing n with
  | nil =>
    rw [digitsFrom] at h
    simpa using (Except.ok.inj h).symm
  | cons c cs ih =>
    have hacc : (n : Int) * 10 + ((c.toNat - 48 : Nat) : Int)
        = ((10 * n + (c.toNat - '0'.toNat) : Nat) : Int) := by
      have h0 : '0'.toNat = 48 := rfl
      rw [h0]
      omega
    rw [digitsFrom, if_pos (hd c List.mem_cons_self)] at h
    simp only [Bool.false_eq_true, if_false, hacc] at h
    split_ifs at h
    rw [Nat.ofDigitChars_cons]
    exact ih (fun d hmem => hd d (List.mem_cons_of_mem c hmem)) h

/-- Reading what is written for a natural number gives no other one. -/
theorem parseInt_toDigits_value {lo hi m : Int} {n : Nat}
    (h : parseInt lo hi (Nat.toDigits 10 n) = .ok m) : m = n := by
  have hvalue := digitsFrom_value toDigits_isDigit (n := 0) (parseInt_toDigits lo hi n ▸ h)
  rwa [Nat.ofDigitChars_ten_toDigits] at hvalue

theorem isWhitespace_of_isDigit {c : Char} (h : c.isDigit = true) : isWhitespace c = false := by
  simp only [Char.isDigit, Bool.and_eq_true, decide_eq_true_eq] at h
  have h1 : 48 ≤ c.toNat := h.1
  have h2 : c.toNat ≤ 57 := h.2
  simp only [isWhitespace]
  simp
  omega

theorem isWord_toDigits (n : Nat) : IsWord (Nat.toDigits 10 n) :=
  ⟨Nat.toDigits_ne_nil, fun c hc => isWhitespace_of_isDigit (toDigits_isDigit c hc)⟩

theorem isWord_formatInt (n : Int) : IsWord (formatInt n) := by
  cases n with
  | ofNat n => exact isWord_toDigits n
  | negSucc n =>
    refine ⟨List.cons_ne_nil _ _, fun c hc => ?_⟩
    rcases List.mem_cons.mp hc with rfl | hc
    · decide
    · exact (isWord_toDigits (n + 1)).2 c hc

end Text
