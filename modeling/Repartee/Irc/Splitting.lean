import Repartee.Irc.Formatting
import Repartee.Lib.Lines

/-!
# What the lines of a message keep

The chunks of `split_irc_message` beside the words of the text. A word is measured without the
whitespace behind it and pushed with it, so a chunk can be longer than the limit.

## Main definitions

- `WordAt`: a word of a text, with whitespace or an end of the text on either side
- `SplitsWell`: what is promised of the chunks
- `GapsFit`: every word that fits also fits together with the whitespace behind it

## Main results

- `mem_splitWords`, `splitWords_of_wordAt`: the words of the splitter are the words of the text
- `SplitsWell.iff_gapsFit`: the chunks are as promised exactly if all gaps fit
-/

set_option autoImplicit false

namespace Repartee

open Text (isWhitespace trim trimStart trimEnd)
open Utf8 (byteLen)

/-! ### Words and whitespace -/

/-- A text with all its whitespace deleted. -/
def visible (s : Str) : Str := s.filter (fun c => !isWhitespace c)

@[simp] theorem visible_nil : visible [] = [] := rfl

@[simp] theorem visible_append (s t : Str) : visible (s ++ t) = visible s ++ visible t :=
  List.filter_append ..

theorem visible_of_whitespace {s : Str} (h : ∀ c ∈ s, isWhitespace c = true) : visible s = [] := by
  rw [visible, List.filter_eq_nil_iff]
  intro c hc
  simp [h c hc]

@[simp] theorem visible_trimStart (s : Str) : visible (trimStart s) = visible s := by
  have hgap : visible (s.takeWhile isWhitespace) = [] :=
    visible_of_whitespace fun c hc => List.mem_takeWhile_imp hc
  calc visible (trimStart s) = visible (s.takeWhile isWhitespace) ++ visible (trimStart s) := by
        rw [hgap, List.nil_append]
    _ = visible s := by
        rw [← visible_append, Text.trimStart, List.takeWhile_append_dropWhile]

/-- In the text `a ++ w ++ b`, the middle part is a word. -/
structure WordAt (a w b : Str) : Prop where
  word : Text.IsWord w
  before : ∀ c ∈ a.getLast?, isWhitespace c = true
  behind : ∀ c ∈ b.head?, isWhitespace c = true

/-- The whitespace at the start of what stands behind a word. -/
def gap (b : Str) : Str := b.takeWhile isWhitespace

theorem whitespace_gap {b : Str} : ∀ c ∈ gap b, isWhitespace c = true :=
  fun _ hc => List.mem_takeWhile_imp hc

theorem trim_word {w ws : Str} (hw : Text.IsWord w) (hws : ∀ c ∈ ws, isWhitespace c = true) :
    trim (w ++ ws) = w := by
  rw [Text.trim, Text.trimStart_of_isWord hw]
  induction ws using List.reverseRecOn with
  | nil =>
    rw [List.append_nil, Text.trimEnd_eq_rdropWhile, List.rdropWhile_eq_self_iff]
    intro hne hlast
    have hword := hw.2 _ (List.getLast_mem hne)
    exact absurd hlast (by simp [hword])
  | append_singleton ws c ih =>
    have hc : isWhitespace c = true := hws c (by simp)
    rw [← List.append_assoc, Text.trimEnd_append_singleton _ hc]
    exact ih fun d hd => hws d (List.mem_append_left _ hd)

/-! ### The words of the splitter -/

section Scan

variable {α : Type} {p : α → Bool}

theorem takeWhile_append_cons {x : α} (hx : p x = false) (l r : List α) :
    (l ++ x :: r).takeWhile p = l.takeWhile p := by
  induction l with
  | nil => simp [hx]
  | cons y l ih => cases hy : p y <;> simp [hy, ih]

theorem dropWhile_append_cons {x : α} (hx : p x = false) (l r : List α) :
    (l ++ x :: r).dropWhile p = l.dropWhile p ++ x :: r := by
  induction l with
  | nil => simp [hx]
  | cons y l ih => cases hy : p y <;> simp [hy, ih]

end Scan

/-- A word stands whole at the start of the text that it begins. -/
theorem nextWord_of_word {w b : Str} (hw : Text.IsWord w)
    (hb : ∀ c ∈ b.head?, isWhitespace c = true) :
    nextWord (w ++ b) = (w ++ gap b, trimStart b) := by
  have hword : ∀ c ∈ w, (!isWhitespace c) = true := fun c hc => by simp [hw.2 c hc]
  have htake : b.takeWhile (fun c => !isWhitespace c) = [] := by
    cases b with
    | nil => rfl
    | cons c b => simp [hb c rfl]
  have hdrop : b.dropWhile (fun c => !isWhitespace c) = b := by
    cases b with
    | nil => rfl
    | cons c b => simp [hb c rfl]
  simp only [nextWord, List.takeWhile_append_of_pos hword, List.dropWhile_append_of_pos hword,
    htake, hdrop, List.append_nil]
  rfl

/-- What comes first in a text that ends with whitespace does not depend on the word behind it. -/
theorem nextWord_append_word {a r : Str} {d x : Char} (hd : isWhitespace d = true)
    (hx : isWhitespace x = false) :
    nextWord (a ++ d :: (x :: r)) =
      ((nextWord (a ++ [d])).1, (nextWord (a ++ [d])).2 ++ x :: r) := by
  have hd' : (!isWhitespace d) = false := by simp [hd]
  have hrest (t : Str) : (a ++ d :: t).dropWhile (fun c => !isWhitespace c) =
      a.dropWhile (fun c => !isWhitespace c) ++ d :: t :=
    dropWhile_append_cons (p := fun c => !isWhitespace c) hd' a t
  have hword (t : Str) : (a ++ d :: t).takeWhile (fun c => !isWhitespace c) =
      a.takeWhile (fun c => !isWhitespace c) :=
    takeWhile_append_cons (p := fun c => !isWhitespace c) hd' a t
  have hsplit : a.dropWhile (fun c => !isWhitespace c) ++ d :: (x :: r) =
      (a.dropWhile (fun c => !isWhitespace c) ++ [d]) ++ x :: r := by simp
  simp only [nextWord, hrest, hword, hsplit, takeWhile_append_cons hx, dropWhile_append_cons hx]

/-- Every word of the text is a word of the splitter, with the gap behind it. -/
theorem splitWords_of_wordAt {fuel : Nat} {a w b : Str} (h : WordAt a w b)
    (hfuel : (a ++ (w ++ b)).length ≤ fuel) :
    ∃ before behind, splitWords fuel (a ++ (w ++ b)) = before ++ (w ++ gap b) :: behind ∧
      before.flatten = a := by
  obtain ⟨x, w', rfl⟩ := List.exists_cons_of_ne_nil h.word.1
  induction fuel generalizing a with
  | zero => simp at hfuel
  | succ fuel ih =>
    rcases List.eq_nil_or_concat' a with rfl | ⟨a', d, rfl⟩
    · refine ⟨[], splitWords fuel (trimStart b), ?_, rfl⟩
      show (nextWord (x :: w' ++ b)).1 :: splitWords fuel (nextWord (x :: w' ++ b)).2 = _
      rw [nextWord_of_word h.word h.behind]
      rfl
    · have hd : isWhitespace d = true := h.before d (by simp)
      have hx : isWhitespace x = false := h.word.2 x List.mem_cons_self
      have hnext : nextWord (a' ++ d :: (x :: (w' ++ b))) = _ := nextWord_append_word hd hx
      have happ := nextWord_append (a' ++ [d])
      -- what remains of `a` still ends with whitespace, or nothing remains of it
      have hrest : WordAt (nextWord (a' ++ [d])).2 (x :: w') b := by
        refine ⟨h.word, ?_, h.behind⟩
        intro c hc
        have hlast : (a' ++ [d]).getLast? = some c := by
          rw [← happ, List.getLast?_append, Option.mem_def.mp hc]
          rfl
        exact h.before c hlast
      obtain ⟨c, s, hcs⟩ : ∃ c s, a' ++ d :: (x :: (w' ++ b)) = c :: s := by
        cases a' <;> simp
      have hlen : ((nextWord (a' ++ [d])).2 ++ (x :: w' ++ b)).length ≤ fuel := by
        have hle := length_nextWord c s
        have heq := congrArg List.length hcs
        rw [← hcs, hnext] at hle
        simp only [List.length_append, List.length_cons, List.length_nil] at hle hfuel heq ⊢
        omega
      obtain ⟨before, behind, hsplit, hflat⟩ := ih hrest hlen
      refine ⟨(nextWord (a' ++ [d])).1 :: before, behind, ?_, ?_⟩
      · have htext : a' ++ [d] ++ (x :: w' ++ b) = c :: s := by simpa using hcs
        show splitWords (fuel + 1) (a' ++ [d] ++ (x :: w' ++ b)) = _
        rw [htext, splitWords, ← hcs, hnext]
        simpa using hsplit
      · rw [List.flatten_cons, hflat, happ]

/-- A word of the splitter is a word of the text with the gap behind it, or whitespace at the
start. -/
theorem mem_splitWords {fuel : Nat} {text word : Str} (h : word ∈ splitWords fuel text) :
    (∀ c ∈ word, isWhitespace c = true) ∨
      ∃ a w b, text = a ++ (w ++ b) ∧ WordAt a w b ∧ word = w ++ gap b := by
  induction fuel generalizing text with
  | zero => simp [splitWords] at h
  | succ fuel ih =>
    cases text with
    | nil => simp [splitWords] at h
    | cons c s =>
      let w := (c :: s).takeWhile (fun c => !isWhitespace c)
      let b := (c :: s).dropWhile (fun c => !isWhitespace c)
      have htext : c :: s = w ++ b := (List.takeWhile_append_dropWhile ..).symm
      have hw : ∀ d ∈ w, isWhitespace d = false := by
        intro d hd
        simpa using List.mem_takeWhile_imp hd
      have hb : ∀ d ∈ b.head?, isWhitespace d = true := by
        intro d hd
        have hneg := List.head?_dropWhile_not (fun c => !isWhitespace c) (c :: s)
        rw [show (c :: s).dropWhile (fun c => !isWhitespace c) = b from rfl,
          Option.mem_def.mp hd] at hneg
        simpa using hneg
      rcases List.mem_cons.mp h with rfl | h
      · by_cases hne : w = []
        · left
          intro d hd
          have hd' : d ∈ w ++ gap b := hd
          rw [hne, List.nil_append] at hd'
          exact whitespace_gap d hd'
        · exact Or.inr ⟨[], w, b, htext, ⟨⟨hne, hw⟩, by simp, hb⟩, rfl⟩
      rcases ih h with hws | ⟨a, v, b', hrest, hat, rfl⟩
      · exact Or.inl hws
      right
      refine ⟨(nextWord (c :: s)).1 ++ a, v, b', ?_, ⟨hat.word, ?_, hat.behind⟩, rfl⟩
      · rw [List.append_assoc, ← hrest, nextWord_append]
      intro d hd
      rw [List.getLast?_append] at hd
      cases hlast : a.getLast? with
      | some e =>
        rw [hlast] at hd
        exact hat.before d (hlast.trans hd)
      | none =>
        -- the word before it ends with whitespace, since something stands behind the gap
        rw [hlast] at hd
        rw [List.getLast?_eq_none_iff.mp hlast] at hrest
        have hdrop : trimStart b = v ++ b' := hrest
        have hgap : gap b ≠ [] := by
          intro hnil
          have hb' : b = v ++ b' := by
            rw [← hdrop, Text.trimStart]
            conv_lhs => rw [← List.takeWhile_append_dropWhile (p := isWhitespace) (l := b)]
            rw [show b.takeWhile isWhitespace = [] from hnil, List.nil_append]
          obtain ⟨y, v', rfl⟩ := List.exists_cons_of_ne_nil hat.word.1
          have hy := hb y (by rw [hb']; rfl)
          rw [hat.word.2 y List.mem_cons_self] at hy
          exact Bool.noConfusion hy
        obtain ⟨g, e, hge⟩ := List.eq_nil_or_concat' (gap b) |>.resolve_left hgap
        have hlast' : (w ++ gap b).getLast? = some e := by
          rw [hge, ← List.append_assoc, List.getLast?_concat]
        have hde : d = e := by
          have hd' : (w ++ gap b).getLast? = some d := hd
          exact Option.some.inj (hd'.symm.trans hlast')
        rw [hde]
        exact whitespace_gap e (by rw [hge]; simp)

/-! ### Filling the lines -/

namespace LineState

/-- The lines together with the one that is being filled. -/
def text (st : LineState) : Str := st.1.flatten ++ st.2

/-- The lines when the text has been read. -/
def closed (st : LineState) : List Str := if st.2.isEmpty then st.1 else st.1 ++ [st.2]

/-- Later lines stand behind the earlier ones, and only the one being filled has grown. -/
def Grows (st st' : LineState) : Prop :=
  ∃ more rest, st'.1 ++ [st'.2] = st.1 ++ (st.2 ++ more) :: rest

/-- Every line fits. -/
def Within (maxBytes : Nat) (st : LineState) : Prop :=
  ∀ line ∈ st.1 ++ [st.2], byteLen line ≤ maxBytes

theorem Grows.refl (st : LineState) : st.Grows st := ⟨[], [], by simp⟩

theorem Grows.trans {st st' st'' : LineState} (h : st.Grows st') (h' : st'.Grows st'') :
    st.Grows st'' := by
  obtain ⟨more, rest, heq⟩ := h
  obtain ⟨more', rest', heq'⟩ := h'
  rcases List.eq_nil_or_concat' rest with rfl | ⟨rest, last, rfl⟩
  · obtain ⟨hlines, hline⟩ := List.append_inj' heq rfl
    refine ⟨more ++ more', rest', ?_⟩
    rw [heq', hlines, List.singleton_inj.mp hline, List.append_assoc]
  · have hconcat : st'.1 ++ [st'.2] = (st.1 ++ (st.2 ++ more) :: rest) ++ [last] := by
      simpa using heq
    obtain ⟨hlines, -⟩ := List.append_inj' hconcat rfl
    refine ⟨more, rest ++ (st'.2 ++ more') :: rest', ?_⟩
    rw [heq', hlines]
    simp

/-- A line that has been begun is the beginning of one of the lines in the end. -/
theorem Grows.closed {st st' : LineState} (h : st.Grows st') (hne : st.2 ≠ []) :
    ∃ more rest, st'.closed = st.1 ++ (st.2 ++ more) :: rest := by
  obtain ⟨more, rest, heq⟩ := h
  have hbegun : st.2 ++ more ≠ [] := fun hnil => hne (List.append_eq_nil_iff.mp hnil).1
  unfold LineState.closed
  split
  · rename_i hlast
    rw [List.isEmpty_iff.mp hlast] at heq
    rcases List.eq_nil_or_concat' rest with rfl | ⟨rest, last, rfl⟩
    · exact absurd (List.singleton_inj.mp (List.append_inj' heq rfl).2).symm hbegun
    · have hconcat : st'.1 ++ [[]] = (st.1 ++ (st.2 ++ more) :: rest) ++ [last] := by
        simpa using heq
      exact ⟨more, rest, (List.append_inj' hconcat rfl).1⟩
  · exact ⟨more, rest, heq⟩

theorem flatten_closed (st : LineState) : st.closed.flatten = st.text := by
  unfold closed text
  split
  · rename_i hlast
    rw [List.isEmpty_iff.mp hlast, List.append_nil]
  · simp

end LineState

theorem pushChar_grows (maxBytes : Nat) (st : LineState) (ch : Char) :
    st.Grows (pushChar maxBytes st ch) := by
  unfold pushChar
  split
  · exact ⟨[], [[ch]], by simp⟩
  · exact ⟨[ch], [], by simp⟩

theorem foldl_pushChar_grows (maxBytes : Nat) (word : Str) (st : LineState) :
    st.Grows (word.foldl (pushChar maxBytes) st) := by
  induction word generalizing st with
  | nil => exact LineState.Grows.refl st
  | cons ch word ih => exact (pushChar_grows maxBytes st ch).trans (ih _)

theorem pushWord_grows (maxBytes : Nat) (st : LineState) (word : Str) :
    st.Grows (pushWord maxBytes st word) := by
  unfold pushWord
  split
  · exact ⟨word, [], by simp⟩
  split
  · split
    · rename_i hcur
      exact ⟨trimStart word, [], by simp [List.isEmpty_iff.mp hcur]⟩
    · exact ⟨[], [trimStart word], by simp⟩
  · exact foldl_pushChar_grows maxBytes word st

theorem foldl_pushWord_grows (maxBytes : Nat) (words : List Str) (st : LineState) :
    st.Grows (words.foldl (pushWord maxBytes) st) := by
  induction words generalizing st with
  | nil => exact LineState.Grows.refl st
  | cons word words ih => exact (pushWord_grows maxBytes st word).trans (ih _)

/-! ### No character is lost -/

theorem foldl_pushChar_text (maxBytes : Nat) (word : Str) (st : LineState) :
    (word.foldl (pushChar maxBytes) st).text = st.text ++ word := by
  induction word generalizing st with
  | nil => simp
  | cons ch word ih =>
    have hstep : (pushChar maxBytes st ch).text = st.text ++ [ch] := by
      unfold pushChar
      split <;> simp [LineState.text]
    rw [List.foldl_cons, ih, hstep]
    simp

/-- Only whitespace is left out, that in front of the word. -/
theorem pushWord_visible (maxBytes : Nat) (st : LineState) (word : Str) :
    visible (pushWord maxBytes st word).text = visible st.text ++ visible word := by
  unfold pushWord
  split
  · simp [LineState.text]
  split
  · split
    · rename_i hcur
      simp [LineState.text, List.isEmpty_iff.mp hcur]
    · simp [LineState.text]
  · rw [foldl_pushChar_text, visible_append]

theorem foldl_pushWord_visible (maxBytes : Nat) (words : List Str) (st : LineState) :
    visible (words.foldl (pushWord maxBytes) st).text =
      visible st.text ++ visible words.flatten := by
  induction words generalizing st with
  | nil => simp
  | cons word words ih =>
    rw [List.foldl_cons, ih, pushWord_visible, List.flatten_cons, visible_append,
      List.append_assoc]

/-! ### No line is empty -/

/-- None of the lines is empty. -/
def NoneEmpty (lines : List Str) : Prop := ∀ line ∈ lines, line ≠ []

theorem NoneEmpty.concat {lines : List Str} (h : NoneEmpty lines) {line : Str} (hne : line ≠ []) :
    NoneEmpty (lines ++ [line]) :=
  List.forall_mem_append.mpr ⟨h, List.forall_mem_singleton.mpr hne⟩

theorem pushChar_nonempty {maxBytes : Nat} {st : LineState} (h : NoneEmpty st.1) (ch : Char) :
    NoneEmpty (pushChar maxBytes st ch).1 := by
  unfold pushChar
  split
  · rename_i hfull
    apply h.concat
    intro hnil
    simp [hnil] at hfull
  · exact h

theorem foldl_pushChar_nonempty {maxBytes : Nat} (word : Str) {st : LineState}
    (h : NoneEmpty st.1) : NoneEmpty (word.foldl (pushChar maxBytes) st).1 := by
  induction word generalizing st with
  | nil => exact h
  | cons ch word ih => exact ih (pushChar_nonempty h ch)

theorem pushWord_nonempty {maxBytes : Nat} {st : LineState} (h : NoneEmpty st.1) (word : Str) :
    NoneEmpty (pushWord maxBytes st word).1 := by
  unfold pushWord
  split
  · exact h
  split
  · split
    · exact h
    · rename_i hcur
      apply h.concat
      intro hnil
      exact hcur (List.isEmpty_iff.mpr hnil)
  · exact foldl_pushChar_nonempty word h

theorem foldl_pushWord_nonempty {maxBytes : Nat} (words : List Str) {st : LineState}
    (h : NoneEmpty st.1) : NoneEmpty (words.foldl (pushWord maxBytes) st).1 := by
  induction words generalizing st with
  | nil => exact h
  | cons word words ih => exact ih (pushWord_nonempty h word)

theorem LineState.nonempty_closed {st : LineState} (h : NoneEmpty st.1) : NoneEmpty st.closed := by
  unfold closed
  split
  · exact h
  · rename_i hcur
    apply h.concat
    intro hnil
    exact hcur (List.isEmpty_iff.mpr hnil)

/-! ### Which lines fit -/

namespace LineState

variable {maxBytes : Nat} {st : LineState}

theorem within_iff : st.Within maxBytes ↔
    (∀ line ∈ st.1, byteLen line ≤ maxBytes) ∧ byteLen st.2 ≤ maxBytes := by
  unfold Within
  rw [List.forall_mem_append, List.forall_mem_singleton]

/-- The line being filled is put aside and another one begun. -/
theorem Within.next (h : st.Within maxBytes) {line : Str} (hline : byteLen line ≤ maxBytes) :
    Within maxBytes (st.1 ++ [st.2], line) :=
  List.forall_mem_append.mpr ⟨h, List.forall_mem_singleton.mpr hline⟩

theorem Within.replace (h : st.Within maxBytes) {line : Str} (hline : byteLen line ≤ maxBytes) :
    Within maxBytes (st.1, line) :=
  (within_iff).mpr ⟨((within_iff).mp h).1, hline⟩

theorem Within.closed (h : st.Within maxBytes) :
    ∀ line ∈ st.closed, byteLen line ≤ maxBytes := by
  unfold LineState.closed
  split
  · exact ((within_iff).mp h).1
  · exact h

end LineState

theorem pushChar_within {maxBytes : Nat} (hmax : 4 ≤ maxBytes) {st : LineState}
    (h : st.Within maxBytes) (ch : Char) : (pushChar maxBytes st ch).Within maxBytes := by
  have hsize : ch.utf8Size ≤ 4 := Char.utf8Size_le_four ch
  have hchar : byteLen [ch] = ch.utf8Size := by simp [Utf8.byteLen]
  unfold pushChar
  split
  · exact h.next (by omega)
  · rename_i hroom
    apply h.replace
    rw [Utf8.byteLen_append, hchar]
    by_cases hcur : st.2 = []
    · rw [hcur]
      show 0 + ch.utf8Size ≤ maxBytes
      omega
    · simp [hcur] at hroom
      omega

theorem foldl_pushChar_within {maxBytes : Nat} (hmax : 4 ≤ maxBytes) (word : Str) {st : LineState}
    (h : st.Within maxBytes) : (word.foldl (pushChar maxBytes) st).Within maxBytes := by
  induction word generalizing st with
  | nil => exact h
  | cons ch word ih => exact ih (pushChar_within hmax h ch)

theorem pushWord_within {maxBytes : Nat} (hmax : 4 ≤ maxBytes) {st : LineState}
    (h : st.Within maxBytes) {word : Str}
    (hgap : byteLen (trim word) ≤ maxBytes → byteLen (trimStart word) ≤ maxBytes) :
    (pushWord maxBytes st word).Within maxBytes := by
  unfold pushWord
  split
  · rename_i hroom
    apply h.replace
    rwa [Utf8.byteLen_append]
  split
  · rename_i hfits
    split
    · exact h.replace (hgap hfits)
    · exact h.next (hgap hfits)
  · exact foldl_pushChar_within hmax word h

theorem foldl_pushWord_within {maxBytes : Nat} (hmax : 4 ≤ maxBytes) {words : List Str}
    (hgap : ∀ word ∈ words,
      byteLen (trim word) ≤ maxBytes → byteLen (trimStart word) ≤ maxBytes)
    {st : LineState} (h : st.Within maxBytes) :
    (words.foldl (pushWord maxBytes) st).Within maxBytes := by
  induction words generalizing st with
  | nil => exact h
  | cons word words ih =>
    obtain ⟨hword, hwords⟩ := List.forall_mem_cons.mp hgap
    exact ih hwords (pushWord_within hmax h hword)

/-! ### Words that fit -/

/-- A word that fits is put on one line, with the gap behind it. -/
theorem pushWord_of_fits {maxBytes : Nat} {w ws : Str} (hw : Text.IsWord w)
    (hws : ∀ c ∈ ws, isWhitespace c = true) (hfit : byteLen w ≤ maxBytes) (st : LineState) :
    ∃ x, (pushWord maxBytes st (w ++ ws)).2 = x ++ (w ++ ws) ∧
      (pushWord maxBytes st (w ++ ws)).1.flatten ++ x = st.text := by
  unfold pushWord LineState.text
  rw [trim_word hw hws, Text.trimStart_of_isWord hw, if_pos hfit]
  split
  · exact ⟨st.2, rfl, rfl⟩
  split
  · rename_i hcur
    exact ⟨[], rfl, by simp [List.isEmpty_iff.mp hcur]⟩
  · exact ⟨[], rfl, by simp⟩

/-- The chunks for a text that does not fit on one line. -/
theorem splitIrcMessage_of_lt {text : Str} {maxBytes : Nat} (h : maxBytes < byteLen text) :
    splitIrcMessage text maxBytes =
      ((splitWords text.length text).foldl (pushWord maxBytes) ([], [])).closed := by
  unfold splitIrcMessage
  rw [if_neg (Nat.not_le.mpr h)]
  rfl

/-- A word that fits is found in one chunk, at its place in the text, and the gap behind it in the
same chunk. -/
theorem splitIrcMessage_word {text a w b : Str} {maxBytes : Nat}
    (hlt : maxBytes < byteLen text) (htext : text = a ++ (w ++ b)) (h : WordAt a w b)
    (hfit : byteLen w ≤ maxBytes) :
    ∃ pre post x y, splitIrcMessage text maxBytes = pre ++ (x ++ (w ++ gap b) ++ y) :: post ∧
      visible (pre.flatten ++ x) = visible a := by
  obtain ⟨before, behind, hsplit, hflat⟩ :=
    splitWords_of_wordAt h (Nat.le_of_eq (congrArg List.length htext.symm))
  let st := before.foldl (pushWord maxBytes) ([], [])
  rw [← htext] at hsplit
  obtain ⟨x, hcur, hdone⟩ := pushWord_of_fits h.word whitespace_gap hfit st
  have hne : (pushWord maxBytes st (w ++ gap b)).2 ≠ [] := by
    rw [hcur]
    simp [h.word.1]
  obtain ⟨y, post, hclosed⟩ :=
    (foldl_pushWord_grows maxBytes behind (pushWord maxBytes st (w ++ gap b))).closed hne
  refine ⟨(pushWord maxBytes st (w ++ gap b)).1, post, x, y, ?_, ?_⟩
  · rw [splitIrcMessage_of_lt hlt, hsplit, List.foldl_append, List.foldl_cons, hclosed, hcur]
  · rw [hdone, foldl_pushWord_visible, hflat]
    rfl

/-! ### What is promised of the chunks -/

/-- Chunks that fit, are not empty, keep every character but whitespace in its place, and break no
word that fits. -/
structure SplitsWell (maxBytes : Nat) (text : Str) : Prop where
  fits : ∀ chunk ∈ splitIrcMessage text maxBytes, byteLen chunk ≤ maxBytes
  nonempty : text ≠ [] → ∀ chunk ∈ splitIrcMessage text maxBytes, chunk ≠ []
  visible : visible (splitIrcMessage text maxBytes).flatten = visible text
  intact : ∀ a w b, text = a ++ (w ++ b) → WordAt a w b → byteLen w ≤ maxBytes →
    ∃ pre post x y, splitIrcMessage text maxBytes = pre ++ (x ++ (w ++ y)) :: post ∧
      Repartee.visible (pre.flatten ++ x) = Repartee.visible a

/-- Every word that fits on a line fits there together with the whitespace behind it. -/
def GapsFit (maxBytes : Nat) (text : Str) : Prop :=
  ∀ a w b, text = a ++ (w ++ b) → WordAt a w b → byteLen w ≤ maxBytes →
    byteLen w + byteLen (gap b) ≤ maxBytes

/-- A text that fits on one line is that line. -/
theorem splitsWell_of_le {maxBytes : Nat} {text : Str} (h : byteLen text ≤ maxBytes) :
    SplitsWell maxBytes text := by
  have hone : splitIrcMessage text maxBytes = [text] := if_pos h
  constructor
  · rw [hone]
    exact List.forall_mem_singleton.mpr h
  · intro hne
    rw [hone]
    exact List.forall_mem_singleton.mpr hne
  · rw [hone]
    simp
  · intro a w b htext _ _
    exact ⟨[], [], a, b, by rw [hone, htext]; rfl, rfl⟩

theorem gapsFit_of_le {maxBytes : Nat} {text : Str} (h : byteLen text ≤ maxBytes) :
    GapsFit maxBytes text := by
  intro a w b htext _ _
  have hb : byteLen b = byteLen (gap b) + byteLen (trimStart b) := by
    rw [← Utf8.byteLen_append, gap, Text.trimStart, List.takeWhile_append_dropWhile]
  rw [htext, Utf8.byteLen_append, Utf8.byteLen_append, hb] at h
  omega

/-- What is pushed of a word fits if what is measured of it does. -/
theorem GapsFit.words {maxBytes : Nat} {text : Str} (h : GapsFit maxBytes text) {fuel : Nat} :
    ∀ word ∈ splitWords fuel text,
      byteLen (trim word) ≤ maxBytes → byteLen (trimStart word) ≤ maxBytes := by
  intro word hmem hfit
  rcases mem_splitWords hmem with hws | ⟨a, w, b, htext, hat, rfl⟩
  · rw [trimStart_eq_nil_iff.mpr hws]
    exact Nat.zero_le _
  · rw [trim_word hat.word whitespace_gap] at hfit
    rw [Text.trimStart_of_isWord hat.word, Utf8.byteLen_append]
    exact h a w b htext hat hfit

theorem GapsFit.iff_words {maxBytes : Nat} {text : Str} : GapsFit maxBytes text ↔
    ∀ word ∈ splitWords text.length text,
      byteLen (trim word) ≤ maxBytes → byteLen (trimStart word) ≤ maxBytes := by
  constructor
  · exact fun h => h.words
  · intro h a w b htext hat hfit
    obtain ⟨before, behind, hsplit, -⟩ :=
      splitWords_of_wordAt hat (Nat.le_of_eq (congrArg List.length htext.symm))
    have hword := h (w ++ gap b) (by rw [htext] at hsplit ⊢; rw [hsplit]; simp)
    rw [trim_word hat.word whitespace_gap, Text.trimStart_of_isWord hat.word,
      Utf8.byteLen_append] at hword
    exact hword hfit

instance (maxBytes : Nat) (text : Str) : Decidable (GapsFit maxBytes text) :=
  decidable_of_iff _ GapsFit.iff_words.symm

/-- The chunks are as promised exactly if no word that fits has too much whitespace behind it. -/
theorem SplitsWell.iff_gapsFit {maxBytes : Nat} (hmax : 4 ≤ maxBytes) (text : Str) :
    SplitsWell maxBytes text ↔ GapsFit maxBytes text := by
  by_cases hle : byteLen text ≤ maxBytes
  · exact iff_of_true (splitsWell_of_le hle) (gapsFit_of_le hle)
  have hlt := Nat.not_le.mp hle
  constructor
  · intro h a w b htext hat hfit
    -- the chunk with the word holds the gap as well
    obtain ⟨pre, post, x, y, hchunks, -⟩ := splitIrcMessage_word hlt htext hat hfit
    have hchunk := h.fits (x ++ (w ++ gap b) ++ y) (by rw [hchunks]; simp)
    simp only [Utf8.byteLen_append] at hchunk
    omega
  · intro h
    have hwithin : LineState.Within maxBytes
        ((splitWords text.length text).foldl (pushWord maxBytes) ([], [])) :=
      foldl_pushWord_within hmax h.words (by simp [LineState.Within, Utf8.byteLen])
    constructor
    · rw [splitIrcMessage_of_lt hlt]
      exact hwithin.closed
    · intro _
      rw [splitIrcMessage_of_lt hlt]
      exact LineState.nonempty_closed (foldl_pushWord_nonempty _ (by simp [NoneEmpty]))
    · rw [splitIrcMessage_of_lt hlt, LineState.flatten_closed, foldl_pushWord_visible,
        flatten_splitWords (Nat.le_refl _)]
      rfl
    · intro a w b htext hat hfit
      obtain ⟨pre, post, x, y, hchunks, hplace⟩ := splitIrcMessage_word hlt htext hat hfit
      exact ⟨pre, post, x, gap b ++ y, by simpa using hchunks, hplace⟩

theorem hello_world_splits_well : SplitsWell 10 (str "hello world") :=
  (SplitsWell.iff_gapsFit (by decide) _).mpr (by decide +kernel)

/-- A word of four bytes is sent with the space behind it. -/
theorem full_word_takes_its_space : ¬ SplitsWell 4 (str "abcd e") := by
  intro h
  have hfits : ∀ chunk ∈ [str "abcd ", str "e"], byteLen chunk ≤ 4 := h.fits
  revert hfits
  decide +kernel

end Repartee
