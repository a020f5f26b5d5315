import Mathlib.Data.List.TakeWhile
import Repartee.E2e.Basic

/-!
# Targets and outgoing lines

`irc/formatting.rs`, the line splitting of `irc/mod.rs`, and the keyring context that
`e2e/mod.rs` derives from a target.

## Main definitions

- `isChannel`, `contextKey`
- `splitIrcMessage`: the lines that a plaintext message is sent as

## Main results

- `splitIrcMessage_eq_nil_iff`: which messages are split into no line at all
-/

set_option autoImplicit false

namespace Repartee

/-! ### Targets -/

/-- Whether a target is a channel. -/
def isChannel (target : Str) : Bool :=
  match target with
  | c :: _ => c = '#' || c = '&' || c = '+' || c = '!'
  | [] => false

/-- The keyring context of a conversation: the channel, or the pseudochannel `@<peer_handle>`. -/
def contextKey (target peerHandle : Str) : Str :=
  if isChannel target then target else '@' :: peerHandle

/-! ### Formatting codes -/

/-- How many of at most `n` characters satisfy `p`. -/
def countLeading (p : Char → Bool) (n : Nat) (s : Str) : Nat := ((s.take n).takeWhile p).length

/-- The length of `N[,N]` behind a colour code, whose numbers have at most `n` digits. -/
def colorLength (digit : Char → Bool) (n : Nat) (s : Str) : Nat :=
  let fg := countLeading digit n s
  match s.drop fg with
  | ',' :: d :: rest => if digit d then fg + 1 + countLeading digit n (d :: rest) else fg
  | _ => fg

def isAsciiHexdigit (c : Char) : Bool :=
  c.isDigit || ('a' ≤ c && c ≤ 'f') || ('A' ≤ c && c ≤ 'F')

/-- Strip the formatting codes behind the first `skip` characters. -/
def stripFormattingFrom : (skip : Nat) → Str → Str
  | _, [] => []
  | skip + 1, _ :: rest => stripFormattingFrom skip rest
  | 0, c :: rest =>
    if c.toNat ∈ [0x02, 0x1D, 0x1F, 0x1E, 0x16, 0x0F] then stripFormattingFrom 0 rest
    else if c.toNat = 0x03 then stripFormattingFrom (colorLength Char.isDigit 2 rest) rest
    else if c.toNat = 0x04 then stripFormattingFrom (colorLength isAsciiHexdigit 6 rest) rest
    else c :: stripFormattingFrom 0 rest

/-- `strip_irc_formatting` -/
def stripIrcFormatting (text : Str) : Str := stripFormattingFrom 0 text

/-! ### Line splitting -/

/-- Default maximum message body length in bytes. -/
def messageMaxBytes : Nat := 350

/-- `WordSplitter::next`: a word with its trailing whitespace, and what remains. -/
def nextWord (remaining : Str) : Str × Str :=
  let word := remaining.takeWhile (fun c => !Text.isWhitespace c)
  let rest := remaining.dropWhile (fun c => !Text.isWhitespace c)
  (word ++ rest.takeWhile Text.isWhitespace, rest.dropWhile Text.isWhitespace)

/-- The words of a `WordSplitter`; every word is non-empty, so the length of the text is fuel
enough. -/
def splitWords : (fuel : Nat) → Str → List Str
  | 0, _ => []
  | _ + 1, [] => []
  | fuel + 1, c :: s =>
    let next := nextWord (c :: s)
    next.1 :: splitWords fuel next.2

/-- The lines that are complete and the one that is being filled. -/
abbrev LineState := List Str × Str

/-- Break an overlong word at a character boundary. -/
def pushChar (maxBytes : Nat) (st : LineState) (ch : Char) : LineState :=
  if Utf8.byteLen st.2 + ch.utf8Size > maxBytes && !st.2.isEmpty then (st.1 ++ [st.2], [ch])
  else (st.1, st.2 ++ [ch])

/-- One round of the loop of `split_irc_message`. -/
def pushWord (maxBytes : Nat) (st : LineState) (word : Str) : LineState :=
  if Utf8.byteLen st.2 + Utf8.byteLen word ≤ maxBytes then (st.1, st.2 ++ word)
  else if Utf8.byteLen (Text.trim word) ≤ maxBytes then
    if st.2.isEmpty then (st.1, Text.trimStart word)
    else (st.1 ++ [st.2], Text.trimStart word)
  else word.foldl (pushChar maxBytes) st

/-- Split a message into lines of at most `maxBytes` bytes, at word boundaries if possible. -/
def splitIrcMessage (text : Str) (maxBytes : Nat) : List Str :=
  if Utf8.byteLen text ≤ maxBytes then [text]
  else
    let st := (splitWords text.length text).foldl (pushWord maxBytes) ([], [])
    if st.2.isEmpty then st.1 else st.1 ++ [st.2]

/-! ### Messages without a line -/

/-- A text of nothing but whitespace that is too long for one line. -/
def Blank (maxBytes : Nat) (text : Str) : Prop :=
  maxBytes < Utf8.byteLen text ∧ ∀ c ∈ text, Text.isWhitespace c = true

instance (maxBytes : Nat) (text : Str) : Decidable (Blank maxBytes text) :=
  inferInstanceAs (Decidable (_ ∧ _))

/-- Nothing has been put on a line yet. -/
def LineState.Unused (st : LineState) : Prop := st.1 = [] ∧ st.2 = []

theorem pushChar_used (maxBytes : Nat) (st : LineState) (ch : Char) :
    ¬ (pushChar maxBytes st ch).Unused := by
  unfold pushChar
  split <;> simp [LineState.Unused]

theorem foldl_pushChar_used {maxBytes : Nat} {word : Str} {st : LineState} (h : ¬ st.Unused) :
    ¬ (word.foldl (pushChar maxBytes) st).Unused := by
  induction word generalizing st with
  | nil => exact h
  | cons ch word ih => exact ih (pushChar_used maxBytes st ch)

/-- A line that has been begun is never lost. -/
theorem pushWord_used {maxBytes : Nat} {st : LineState} (h : ¬ st.Unused) (word : Str) :
    ¬ (pushWord maxBytes st word).Unused := by
  unfold pushWord
  split
  · rintro ⟨hl, hc⟩
    exact h ⟨hl, (List.append_eq_nil_iff.mp hc).1⟩
  split
  · split
    · rename_i hcur
      rintro ⟨hl, -⟩
      exact h ⟨hl, by simpa using hcur⟩
    · rintro ⟨hl, -⟩
      simp at hl
  · exact foldl_pushChar_used h

theorem foldl_pushWord_used {maxBytes : Nat} {words : List Str} {st : LineState}
    (h : ¬ st.Unused) : ¬ (words.foldl (pushWord maxBytes) st).Unused := by
  induction words generalizing st with
  | nil => exact h
  | cons word words ih => exact ih (pushWord_used h word)

theorem trimStart_eq_nil_iff {s : Str} :
    Text.trimStart s = [] ↔ ∀ c ∈ s, Text.isWhitespace c = true := by
  simp [Text.trimStart, List.dropWhile_eq_nil_iff]

/-- A word with a character that is not whitespace begins a line. -/
theorem pushWord_of_visible {maxBytes : Nat} {word : Str} (st : LineState)
    (h : ¬ ∀ c ∈ word, Text.isWhitespace c = true) : ¬ (pushWord maxBytes st word).Unused := by
  have hne : word ≠ [] := by
    rintro rfl
    exact h (by simp)
  unfold pushWord
  split
  · rintro ⟨-, hc⟩
    exact hne (List.append_eq_nil_iff.mp hc).2
  split
  · have htrim : Text.trimStart word ≠ [] := fun ht => h ((trimStart_eq_nil_iff).mp ht)
    split
    · exact fun hu => htrim hu.2
    · exact fun hu => htrim hu.2
  · cases word with
    | nil => exact absurd rfl hne
    | cons ch word => exact @foldl_pushChar_used maxBytes word _ (pushChar_used maxBytes st ch)

theorem nextWord_append (s : Str) : (nextWord s).1 ++ (nextWord s).2 = s := by
  simp [nextWord, List.append_assoc, List.takeWhile_append_dropWhile]

theorem length_nextWord (c : Char) (s : Str) : (nextWord (c :: s)).2.length ≤ s.length := by
  have happ := congrArg List.length (nextWord_append (c :: s))
  have hpos : (nextWord (c :: s)).1 ≠ [] := by
    by_cases hc : Text.isWhitespace c <;> simp [nextWord, hc]
  have hlen := List.length_pos_iff.mpr hpos
  simp only [List.length_append, List.length_cons] at happ
  omega

/-- The words make up the text. -/
theorem flatten_splitWords {fuel : Nat} {s : Str} (h : s.length ≤ fuel) :
    (splitWords fuel s).flatten = s := by
  induction fuel generalizing s with
  | zero =>
    rw [List.length_eq_zero_iff.mp (Nat.le_zero.mp h)]
    rfl
  | succ fuel ih =>
    cases s with
    | nil => rfl
    | cons c s =>
      have hle : (nextWord (c :: s)).2.length ≤ fuel :=
        Nat.le_trans (length_nextWord c s) (Nat.le_of_succ_le_succ h)
      show (nextWord (c :: s)).1 ++ (splitWords fuel (nextWord (c :: s)).2).flatten = c :: s
      rw [ih hle, nextWord_append]

/-- A text of whitespace is one word. -/
theorem splitWords_of_whitespace {text : Str} (hne : text ≠ [])
    (h : ∀ c ∈ text, Text.isWhitespace c = true) : splitWords text.length text = [text] := by
  cases text with
  | nil => exact absurd rfl hne
  | cons c s =>
    have hc := h c List.mem_cons_self
    have htake : (c :: s).takeWhile Text.isWhitespace = c :: s :=
      List.takeWhile_eq_self_iff.mpr h
    have hdrop : (c :: s).dropWhile Text.isWhitespace = [] := List.dropWhile_eq_nil_iff.mpr h
    have hnext : nextWord (c :: s) = (c :: s, []) := by
      simp [nextWord, hc, htake, hdrop]
    rw [List.length_cons, splitWords, hnext]
    cases s.length <;> rfl

theorem foldl_pushWord_of_visible {maxBytes : Nat} {words : List Str} (st : LineState)
    (h : ∃ word ∈ words, ¬ ∀ c ∈ word, Text.isWhitespace c = true) :
    ¬ (words.foldl (pushWord maxBytes) st).Unused := by
  induction words generalizing st with
  | nil => simp at h
  | cons word words ih =>
    obtain ⟨w, hw, hvis⟩ := h
    rcases List.mem_cons.mp hw with rfl | hw
    · exact @foldl_pushWord_used maxBytes words _ (pushWord_of_visible st hvis)
    · exact ih _ ⟨w, hw, hvis⟩

/-- A message is split into no line exactly if it is blank. -/
theorem splitIrcMessage_eq_nil_iff {text : Str} {maxBytes : Nat} :
    splitIrcMessage text maxBytes = [] ↔ Blank maxBytes text := by
  unfold splitIrcMessage
  split
  · rename_i hle
    simp only [List.cons_ne_nil, Blank, false_iff, not_and]
    exact fun hlt => absurd hle (Nat.not_le.mpr hlt)
  rename_i hgt
  have hlt := Nat.not_le.mp hgt
  have hne : text ≠ [] := by
    rintro rfl
    simp [Utf8.byteLen] at hgt
  constructor
  · intro hnil
    refine ⟨hlt, ?_⟩
    by_contra hvis
    obtain ⟨c, hc, hcv⟩ : ∃ c ∈ text, ¬ Text.isWhitespace c = true := by simpa using hvis
    rw [← flatten_splitWords (Nat.le_refl text.length)] at hc
    obtain ⟨word, hw, hcw⟩ := List.mem_flatten.mp hc
    refine @foldl_pushWord_of_visible maxBytes (splitWords text.length text) ([], [])
      ⟨word, hw, fun hall => hcv (hall c hcw)⟩ ?_
    dsimp only at hnil
    split at hnil
    · rename_i hcur
      exact ⟨hnil, by simpa using hcur⟩
    · simp at hnil
  · rintro ⟨-, hall⟩
    have htrim : Text.trimStart text = [] := (trimStart_eq_nil_iff).mpr hall
    have hpush : pushWord maxBytes ([], []) text = ([], []) := by
      have h0 : ¬ Utf8.byteLen [] + Utf8.byteLen text ≤ maxBytes := by
        simpa [Utf8.byteLen] using hlt
      have hz : Utf8.byteLen (Text.trim text) ≤ maxBytes := by
        rw [Text.trim, htrim]
        exact Nat.zero_le _
      rw [pushWord, if_neg h0, if_pos hz]
      simp [htrim]
    simp [splitWords_of_whitespace hne hall, hpush]

end Repartee
