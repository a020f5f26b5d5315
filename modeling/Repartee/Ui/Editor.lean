import Repartee.Ui.Keys

/-!
# The input line stays well-formed

A well-formed input line has its cursor on a character boundary, and the range of the spell
correction at work is the word that it marks or has applied. An event keeps it so unless it edits
the text in front of the end of that range, replaces the word with the cursor inside it, or
deletes back to a whitespace of more than one byte.

## Main definitions

- `WellFormed`: the invariant of the input line
- `Keeps`: what an event must not do
- `KeepsAll`: a run of such events

## Main results

- `wellFormed_step`: such an event does not panic, and the input line is well-formed again
- `wellFormed_run`: neither does a run of them
-/

set_option autoImplicit false

namespace Repartee.Ui

/-- The word that a spell correction marks: the original word, or the applied suggestion. -/
def SpellCorrection.word (spell : SpellCorrection) : Option Str :=
  if spell.highlightOnly then some spell.original else spell.suggestions[spell.index]?

/-- The invariant of the input line. -/
structure WellFormed (s : InputState) : Prop where
  cursor : Utf8.isCharBoundary s.value s.cursorPos = true
  history : ∀ i, s.historyIndex = some i → i < s.history.length
  spell : ∀ spell, s.spellState = some spell → ∃ word,
    spell.word = some word ∧ Utf8.slice s.value spell.wordStart spell.wordEnd = some word

namespace InputState

/-- The word of the spell correction ends at an offset at the latest. -/
def SpelledBefore (s : InputState) (n : Nat) : Prop :=
  ∀ spell, s.spellState = some spell → spell.wordEnd ≤ n

/-- The cursor is not inside a word that a spell correction has replaced. -/
def Outside (s : InputState) : Prop :=
  ∀ spell, s.spellState = some spell →
    spell.highlightOnly = true ∨ s.cursorPos ≤ spell.wordStart ∨ spell.wordEnd ≤ s.cursorPos

/-- The whitespace in front of the last word is of one byte. -/
def oneByteGap (front : Str) : Bool :=
  ((Text.trimEnd front).reverse.find? Text.isWhitespace).all (fun c => c.utf8Size = 1)

/-- What Ctrl+W must find: in front of the word a whitespace of one byte, which is not in front of
the spell correction. -/
def KeepsWordBack (s : InputState) : Prop :=
  ∀ front, Utf8.before s.value s.cursorPos = some front → s.cursorPos = 0 ∨
    oneByteGap front = true ∧ s.SpelledBefore (wordBack front)

end InputState

open InputState

/-- What a key with Control must not do. -/
def KeepsControl (s : InputState) (c : Char) : Prop :=
  (c = 'u' → s.cursorPos = 0 ∨ s.spellState = none) ∧
    (c = 'k' → s.SpelledBefore s.cursorPos) ∧ (c = 'w' → s.KeepsWordBack)

def KeepsKey (s : InputState) (mods : KeyModifiers) : KeyCode → Prop
  | .esc => s.Outside
  | .backspace => s.Outside
  | .tab => s.Outside
  | .delete => s.SpelledBefore s.cursorPos
  | .up => s.history = [] ∨ s.historyIndex = some 0 ∨ s.spellState = none
  | .down => s.historyIndex = none ∨ s.spellState = none
  | .char c => mods = .ctrl → KeepsControl s c
  | _ => True

/-- An event that does not edit what a spell correction refers to. -/
def Keeps (ctx : Context) (s : InputState) : Event → Prop
  | .key mods code => KeepsKey s mods code
  | .paste text => (pastedLines text).length ≤ 1 ∨ s.spellState = none
  | .emote index => ctx.displayName index = ['?'] ∨ s.SpelledBefore s.cursorPos

/-- A run of such events. -/
def KeepsAll : InputState → List (Context × Event) → Prop
  | _, [] => True
  | s, e :: events => Keeps e.1 s e.2 ∧ ∀ s', s.step e.1 e.2 = some s' → KeepsAll s' events

/-! ### Edits -/

section

variable {s : InputState}

theorem WellFormed.exists_cursor (h : WellFormed s) :
    ∃ p q, s.value = p ++ q ∧ s.cursorPos = Utf8.byteLen p := by
  obtain ⟨p, q, hvalue, hlen⟩ := Utf8.isCharBoundary_iff.mp h.cursor
  exact ⟨p, q, hvalue, hlen.symm⟩

/-- Without a spell correction, the text is free. -/
theorem WellFormed.free (h : WellFormed s) {value : Str} {cursorPos : Nat}
    (hcursor : Utf8.isCharBoundary value cursorPos = true) (tab : Option TabCompletionState) :
    WellFormed { s with
      spellState := none, value := value, cursorPos := cursorPos, tabState := tab } :=
  ⟨hcursor, h.history, nofun⟩

/-- An edit behind the word of the spell correction. -/
theorem WellFormed.edit (h : WellFormed s) {p q : Str} (hvalue : s.value = p ++ q)
    (hspelled : s.SpelledBefore (Utf8.byteLen p)) {q' : Str} {cursorPos : Nat}
    (hcursor : Utf8.isCharBoundary (p ++ q') cursorPos = true)
    (tab : Option TabCompletionState) :
    WellFormed { s with value := p ++ q', cursorPos := cursorPos, tabState := tab } := by
  refine ⟨hcursor, h.history, fun spell hspell => ?_⟩
  obtain ⟨word, hword, hslice⟩ := h.spell spell hspell
  rw [hvalue] at hslice
  exact ⟨word, hword, Utf8.slice_append_right hslice (hspelled spell hspell) q'⟩

/-- A move of the cursor. -/
theorem WellFormed.move (h : WellFormed s) {cursorPos : Nat}
    (hcursor : Utf8.isCharBoundary s.value cursorPos = true)
    (tab : Option TabCompletionState) :
    WellFormed { s with cursorPos := cursorPos, tabState := tab } :=
  ⟨hcursor, h.history, h.spell⟩

theorem spelledBefore_of_none (h : s.spellState = none) (n : Nat) : s.SpelledBefore n := by
  intro spell hspell
  rw [h] at hspell
  cases hspell

theorem wellFormed_insertChar (h : WellFormed s) (c : Char) :
    ∃ s', s.insertChar c = some s' ∧ WellFormed s' := by
  rw [InputState.insertChar]
  by_cases hc : isControl c = true
  · rw [if_pos hc]
    exact ⟨s, rfl, h⟩
  · rw [if_neg hc]
    obtain ⟨p, q, hvalue, hcursor⟩ := h.exists_cursor
    rw [hvalue, hcursor, Utf8.insertStr_append]
    refine ⟨_, rfl, h.free ?_ none⟩
    refine Utf8.isCharBoundary_iff.mpr ⟨p ++ [c], q, by simp, ?_⟩
    rw [Utf8.byteLen_append]
    rfl

theorem wellFormed_backspace (h : WellFormed s) (hspell : s.spellState = none) :
    ∃ s', s.backspace = some s' ∧ WellFormed s' := by
  obtain ⟨p, q, hvalue, hcursor⟩ := h.exists_cursor
  rw [InputState.backspace]
  by_cases hpos : 0 < s.cursorPos
  · obtain ⟨c, hp, hlast⟩ := Utf8.exists_last (Utf8.byteLen_pos_iff.mp (hcursor ▸ hpos))
    have hbefore : Utf8.before s.value s.cursorPos = some p := by
      rw [hvalue, hcursor, Utf8.before_append]
    have hparts : s.value = p.dropLast ++ ([c] ++ q) := by
      rw [hvalue, ← List.append_assoc, ← hp]
    have hdrain : Utf8.drain s.value (Utf8.lastIndex p) s.cursorPos = some (p.dropLast ++ q) := by
      have hcut := Utf8.drain_append p.dropLast [c] q
      rwa [← hparts, show Utf8.byteLen p.dropLast + Utf8.byteLen [c] = s.cursorPos from
        hlast.trans hcursor.symm] at hcut
    rw [if_pos hpos, hbefore]
    refine ⟨{ s with
      value := p.dropLast ++ q, cursorPos := Utf8.lastIndex p, tabState := none }, ?_, ?_⟩
    · simp [hdrain]
    · exact h.edit hparts (spelledBefore_of_none hspell _) (Utf8.isCharBoundary_append _ q) none
  · rw [if_neg hpos]
    exact ⟨_, rfl, h.move h.cursor none⟩

/-- The character behind a boundary. -/
theorem nextIndex_append {p q : Str} {c : Char} (h : s.value = p ++ c :: q) :
    s.nextIndex (Utf8.byteLen p) = some (Utf8.byteLen p + c.utf8Size) := by
  rw [InputState.nextIndex, h, Utf8.behind_append]
  cases q with
  | nil =>
    show some (Utf8.byteLen (p ++ [c])) = _
    rw [Utf8.byteLen_append]
    rfl
  | cons d q => rfl

/-- The character at the cursor, unless the cursor is at the end. -/
theorem exists_next {p q : Str} (hvalue : s.value = p ++ q) (hcursor : s.cursorPos = Utf8.byteLen p)
    (hlt : s.cursorPos < Utf8.byteLen s.value) : ∃ c r, q = c :: r := by
  cases q with
  | nil =>
    rw [hvalue, List.append_nil, hcursor] at hlt
    exact absurd hlt (Nat.lt_irrefl _)
  | cons c r => exact ⟨c, r, rfl⟩

theorem wellFormed_delete (h : WellFormed s) (hspelled : s.SpelledBefore s.cursorPos) :
    ∃ s', s.delete = some s' ∧ WellFormed s' := by
  obtain ⟨p, q, hvalue, hcursor⟩ := h.exists_cursor
  rw [InputState.delete]
  by_cases hlt : s.cursorPos < Utf8.byteLen s.value
  · obtain ⟨c, r, rfl⟩ := exists_next hvalue hcursor hlt
    have hdrain : Utf8.drain s.value s.cursorPos (s.cursorPos + c.utf8Size) = some (p ++ r) := by
      rw [hvalue, hcursor]
      exact Utf8.drain_append p [c] r
    have hnext : s.nextIndex s.cursorPos = some (s.cursorPos + c.utf8Size) := by
      rw [hcursor]
      exact nextIndex_append hvalue
    rw [if_pos hlt, hnext]
    refine ⟨{ s with value := p ++ r, tabState := none }, ?_, ?_⟩
    · simp [hdrain]
    · exact h.edit hvalue (hcursor ▸ hspelled) (hcursor ▸ Utf8.isCharBoundary_append p r) none
  · rw [if_neg hlt]
    exact ⟨_, rfl, h.move h.cursor none⟩

theorem wellFormed_moveLeft (h : WellFormed s) : ∃ s', s.moveLeft = some s' ∧ WellFormed s' := by
  obtain ⟨p, q, hvalue, hcursor⟩ := h.exists_cursor
  rw [InputState.moveLeft]
  by_cases hpos : 0 < s.cursorPos
  · obtain ⟨c, hp, -⟩ := Utf8.exists_last (Utf8.byteLen_pos_iff.mp (hcursor ▸ hpos))
    have hbefore : Utf8.before s.value s.cursorPos = some p := by
      rw [hvalue, hcursor, Utf8.before_append]
    have hparts : s.value = p.dropLast ++ ([c] ++ q) := by
      rw [hvalue, ← List.append_assoc, ← hp]
    rw [if_pos hpos, hbefore]
    refine ⟨_, rfl, h.move ?_ none⟩
    rw [hparts]
    exact Utf8.isCharBoundary_append _ _
  · rw [if_neg hpos]
    exact ⟨_, rfl, h.move h.cursor none⟩

theorem wellFormed_moveRight (h : WellFormed s) : ∃ s', s.moveRight = some s' ∧ WellFormed s' := by
  obtain ⟨p, q, hvalue, hcursor⟩ := h.exists_cursor
  rw [InputState.moveRight]
  by_cases hlt : s.cursorPos < Utf8.byteLen s.value
  · obtain ⟨c, r, rfl⟩ := exists_next hvalue hcursor hlt
    rw [if_pos hlt, hcursor, nextIndex_append hvalue]
    refine ⟨_, rfl, h.move ?_ none⟩
    refine Utf8.isCharBoundary_iff.mpr ⟨p ++ [c], r, by simp [hvalue], ?_⟩
    rw [Utf8.byteLen_append]
    rfl
  · rw [if_neg hlt]
    exact ⟨_, rfl, h.move h.cursor none⟩

theorem wellFormed_clearToStart (h : WellFormed s)
    (hkeeps : s.cursorPos = 0 ∨ s.spellState = none) :
    ∃ s', s.clearToStart = some s' ∧ WellFormed s' := by
  obtain ⟨p, q, hvalue, hcursor⟩ := h.exists_cursor
  rw [InputState.clearToStart]
  by_cases hpos : 0 < s.cursorPos
  · have hspell : s.spellState = none := hkeeps.resolve_left (Nat.pos_iff_ne_zero.mp hpos)
    have hdrain : Utf8.drain s.value 0 s.cursorPos = some q := by
      have hcut := Utf8.drain_append [] p q
      rwa [List.nil_append, ← hvalue, show Utf8.byteLen [] + Utf8.byteLen p = s.cursorPos from
        (Nat.zero_add _).trans hcursor.symm] at hcut
    rw [if_pos hpos]
    refine ⟨{ s with value := q, cursorPos := 0, tabState := none }, ?_, ?_⟩
    · simp [hdrain]
    · exact h.edit (p := []) rfl (spelledBefore_of_none hspell _) (Utf8.isCharBoundary_zero q) none
  · rw [if_neg hpos]
    exact ⟨_, rfl, h.move h.cursor none⟩

theorem wellFormed_clearToEnd (h : WellFormed s) (hspelled : s.SpelledBefore s.cursorPos) :
    ∃ s', s.clearToEnd = some s' ∧ WellFormed s' := by
  obtain ⟨p, q, hvalue, hcursor⟩ := h.exists_cursor
  rw [InputState.clearToEnd]
  by_cases hlt : s.cursorPos < Utf8.byteLen s.value
  · have htruncate : Utf8.truncate s.value s.cursorPos = some p := by
      rw [hvalue, hcursor, Utf8.truncate_append]
    rw [if_pos hlt, htruncate]
    refine ⟨_, rfl, ?_⟩
    have hedge : Utf8.isCharBoundary (p ++ []) s.cursorPos = true := by
      rw [hcursor]
      exact Utf8.isCharBoundary_append p []
    have hedit := h.edit hvalue (hcursor ▸ hspelled) hedge none
    rwa [List.append_nil] at hedit
  · rw [if_neg hlt]
    exact ⟨_, rfl, h.move h.cursor none⟩

theorem exists_trimEnd (front : Str) : ∃ z, front = Text.trimEnd front ++ z := by
  obtain ⟨z, hz⟩ := List.dropWhile_suffix (l := front.reverse) Text.isWhitespace
  refine ⟨z.reverse, ?_⟩
  rw [Text.trimEnd, Text.trimStart, ← List.reverse_append, hz, List.reverse_reverse]

/-- Behind a whitespace of one byte, the word begins on a character boundary. -/
theorem exists_wordBack {front : Str} (h : oneByteGap front = true) :
    ∃ a b, front = a ++ b ∧ wordBack front = Utf8.byteLen a := by
  obtain ⟨z, hz⟩ := exists_trimEnd front
  rw [wordBack]
  rw [oneByteGap] at h
  generalize Text.trimEnd front = trimmed at h hz ⊢
  cases hfind : Utf8.rfind Text.isWhitespace trimmed with
  | none => exact ⟨[], front, rfl, rfl⟩
  | some i =>
    obtain ⟨a, c, b, rfl, rfl, hc, hb⟩ := Utf8.rfind_eq_some hfind
    have hlast : (a ++ c :: b).reverse.find? Text.isWhitespace = some c := by
      rw [List.reverse_append, List.reverse_cons, List.append_assoc, List.find?_append,
        List.find?_eq_none.mpr (fun d hd => by simp [hb d (List.mem_reverse.mp hd)])]
      simp [hc]
    rw [hlast, Option.all_some, decide_eq_true_eq] at h
    refine ⟨a ++ [c], b ++ z, by simpa using hz, ?_⟩
    rw [Utf8.byteLen_append]
    show Utf8.byteLen a + 1 = Utf8.byteLen a + (c.utf8Size + 0)
    rw [h]

theorem wellFormed_deleteWordBack (h : WellFormed s) (hkeeps : s.KeepsWordBack) :
    ∃ s', s.deleteWordBack = some s' ∧ WellFormed s' := by
  obtain ⟨p, q, hvalue, hcursor⟩ := h.exists_cursor
  rw [InputState.deleteWordBack]
  by_cases hzero : s.cursorPos = 0
  · rw [if_pos hzero]
    exact ⟨s, rfl, h⟩
  · have hbefore : Utf8.before s.value s.cursorPos = some p := by
      rw [hvalue, hcursor, Utf8.before_append]
    obtain ⟨hgap, hspelled⟩ := (hkeeps p hbefore).resolve_left hzero
    obtain ⟨a, b, rfl, hstart⟩ := exists_wordBack hgap
    rw [hstart] at hspelled
    have hparts : s.value = a ++ (b ++ q) := by rw [hvalue, List.append_assoc]
    have hdrain : Utf8.drain s.value (Utf8.byteLen a) s.cursorPos = some (a ++ q) := by
      rw [hparts, hcursor, Utf8.byteLen_append]
      exact Utf8.drain_append a b q
    rw [if_neg hzero, hbefore]
    refine ⟨{ s with value := a ++ q, cursorPos := Utf8.byteLen a, tabState := none }, ?_, ?_⟩
    · simp [hstart, hdrain]
    · exact h.edit hparts hspelled (Utf8.isCharBoundary_append a q) none

theorem wellFormed_submit (hspell : s.spellState = none) : WellFormed s.submit.2 :=
  ⟨Utf8.isCharBoundary_zero [], nofun, fun spell hs => by
    have hnone : s.submit.2.spellState = none := hspell
    rw [hnone] at hs
    cases hs⟩

/-! ### History -/

theorem wellFormed_showHistory (hspell : s.spellState = none) {idx : Nat}
    (hidx : idx < s.history.length) : ∃ s', s.showHistory idx = some s' ∧ WellFormed s' := by
  rw [InputState.showHistory, List.getElem?_eq_getElem hidx]
  refine ⟨_, rfl, Utf8.isCharBoundary_byteLen _, ?_, ?_⟩
  · intro i hi
    cases hi
    exact hidx
  · intro spell hs
    rw [hspell] at hs
    cases hs

theorem wellFormed_historyUp (h : WellFormed s)
    (hkeeps : s.history = [] ∨ s.historyIndex = some 0 ∨ s.spellState = none) :
    ∃ s', s.historyUp = some s' ∧ WellFormed s' := by
  rw [InputState.historyUp]
  by_cases hnil : s.history = []
  · rw [if_pos hnil]
    exact ⟨s, rfl, h⟩
  rw [if_neg hnil]
  have hlen := List.length_pos_iff.mpr hnil
  cases hindex : s.historyIndex with
  | none =>
    have hspell : s.spellState = none :=
      (hkeeps.resolve_left hnil).resolve_left (fun hzero => by rw [hindex] at hzero; cases hzero)
    exact wellFormed_showHistory (s := { s with savedInput := some s.value }) hspell
      (Nat.sub_lt hlen Nat.one_pos)
  | some idx =>
    have hidx := h.history idx hindex
    dsimp only
    by_cases hpos : 0 < idx
    · have hspell : s.spellState = none := by
        refine (hkeeps.resolve_left hnil).resolve_left (fun hzero => ?_)
        rw [hindex] at hzero
        cases hzero
        exact absurd hpos (Nat.lt_irrefl 0)
      rw [if_pos hpos]
      exact wellFormed_showHistory hspell (by omega)
    · have hmove := h.move h.cursor none
      rw [hindex] at hmove
      rw [if_neg hpos]
      exact ⟨_, rfl, hmove⟩

theorem wellFormed_historyDown (h : WellFormed s)
    (hkeeps : s.historyIndex = none ∨ s.spellState = none) :
    ∃ s', s.historyDown = some s' ∧ WellFormed s' := by
  rw [InputState.historyDown]
  cases hindex : s.historyIndex with
  | none =>
    have hmove := h.move h.cursor none
    rw [hindex] at hmove
    exact ⟨_, rfl, hmove⟩
  | some idx =>
    have hspell : s.spellState = none :=
      hkeeps.resolve_left (fun hnone => by rw [hindex] at hnone; cases hnone)
    dsimp only
    by_cases hlt : idx + 1 < s.history.length
    · rw [if_pos hlt]
      exact wellFormed_showHistory hspell hlt
    · rw [if_neg hlt]
      refine ⟨_, rfl, Utf8.isCharBoundary_byteLen _, nofun, ?_⟩
      intro spell hs
      rw [hspell] at hs
      cases hs

/-! ### Spell correction -/

/-- A correction that is accepted as it stands. -/
theorem WellFormed.accept (h : WellFormed s) : WellFormed { s with spellState := none } :=
  ⟨h.cursor, h.history, nofun⟩

/-- The cursor outside a word, when the word is replaced. -/
theorem isCharBoundary_shiftCursor {x w y : Str} {n : Nat}
    (h : Utf8.isCharBoundary (x ++ (w ++ y)) n = true)
    (hout : n ≤ Utf8.byteLen x ∨ Utf8.byteLen x + Utf8.byteLen w ≤ n) (t : Str) :
    Utf8.isCharBoundary (x ++ (t ++ y))
      (shiftCursor n (Utf8.byteLen x) (Utf8.byteLen w) (Utf8.byteLen t)) = true := by
  rw [shiftCursor]
  by_cases hlt : Utf8.byteLen x < n
  · rw [if_pos hlt]
    exact Utf8.isCharBoundary_replace_right h (by omega) t
  · rw [if_neg hlt]
    exact Utf8.isCharBoundary_replace_left h (Nat.le_of_not_lt hlt) t

theorem checkedSub_add (a b : Nat) : checkedSub (a + b) a = some b := by
  rw [checkedSub, if_pos (Nat.le_add_right a b), Nat.add_sub_cancel_left]

theorem wellFormed_dismissSpell (h : WellFormed s) (hout : s.Outside) :
    ∃ s', s.dismissSpell = some s' ∧ WellFormed s' ∧ s'.spellState = none := by
  rw [InputState.dismissSpell]
  cases hspell : s.spellState with
  | none => exact ⟨s, rfl, h, hspell⟩
  | some spell =>
    dsimp only
    by_cases hmode : spell.highlightOnly = true
    · rw [if_pos hmode]
      exact ⟨_, rfl, h.accept, rfl⟩
    obtain ⟨word, -, hslice⟩ := h.spell spell hspell
    obtain ⟨x, y, hvalue, hstart, hend⟩ := Utf8.slice_eq_some_iff.mp hslice
    rw [List.append_assoc] at hvalue
    have hplace := (hout spell hspell).resolve_left hmode
    have hreplace : Utf8.replaceRange s.value spell.wordStart spell.wordEnd spell.original =
        some (x ++ (spell.original ++ y)) := by
      rw [hvalue, ← hstart, ← hend]
      exact Utf8.replaceRange_append x word y spell.original
    have hsub : checkedSub spell.wordEnd spell.wordStart = some (Utf8.byteLen word) := by
      rw [← hstart, ← hend]
      exact checkedSub_add _ _
    have hcursor := isCharBoundary_shiftCursor (hvalue ▸ h.cursor)
      (by rw [hend, hstart]; exact hplace) spell.original
    rw [if_neg hmode, hsub]
    refine ⟨{ s with
      spellState := none
      value := x ++ (spell.original ++ y)
      cursorPos := shiftCursor s.cursorPos spell.wordStart (Utf8.byteLen word)
        (Utf8.byteLen spell.original) }, ?_, ?_, rfl⟩
    · simp [hreplace]
    · rw [hstart] at hcursor
      exact h.free hcursor s.tabState

/-- A suggestion takes the place of the word. -/
theorem wellFormed_applySpellSuggestion
    (hhistory : ∀ i, s.historyIndex = some i → i < s.history.length)
    {spell : SpellCorrection} (hspell : s.spellState = some spell)
    (hmode : spell.highlightOnly = false) {word : Str}
    (hslice : Utf8.slice s.value spell.wordStart spell.wordEnd = some word)
    (hcursor : Utf8.isCharBoundary s.value s.cursorPos = true)
    (hplace : s.cursorPos ≤ spell.wordStart ∨ spell.wordEnd ≤ s.cursorPos) {index : Nat}
    (hindex : index < spell.suggestions.length) :
    ∃ s', s.applySpellSuggestion index = some s' ∧ WellFormed s' := by
  obtain ⟨x, y, hvalue, hstart, hend⟩ := Utf8.slice_eq_some_iff.mp hslice
  rw [List.append_assoc] at hvalue
  have hget := List.getElem?_eq_getElem hindex
  generalize spell.suggestions[index] = replacement at hget
  have hreplace : Utf8.replaceRange s.value spell.wordStart spell.wordEnd replacement =
      some (x ++ (replacement ++ y)) := by
    rw [hvalue, ← hstart, ← hend]
    exact Utf8.replaceRange_append x word y replacement
  have hsub : checkedSub spell.wordEnd spell.wordStart = some (Utf8.byteLen word) := by
    rw [← hstart, ← hend]
    exact checkedSub_add _ _
  have hshift := isCharBoundary_shiftCursor (hvalue ▸ hcursor)
    (by rw [hend, hstart]; exact hplace) replacement
  rw [hstart] at hshift
  rw [InputState.applySpellSuggestion, hspell]
  dsimp only
  rw [hget, hsub]
  refine ⟨{ s with
    value := x ++ (replacement ++ y)
    cursorPos := shiftCursor s.cursorPos spell.wordStart (Utf8.byteLen word)
      (Utf8.byteLen replacement)
    spellState := some { spell with
      wordEnd := spell.wordStart + Utf8.byteLen replacement, index := index } }, ?_, hshift,
    hhistory, ?_⟩
  · simp [hreplace]
  · intro spell' hspell'
    cases hspell'
    refine ⟨replacement, ?_, ?_⟩
    · rw [SpellCorrection.word, hmode]
      exact hget
    · exact Utf8.slice_eq_some_iff.mpr ⟨x, y, by simp, hstart, by rw [hstart]⟩

theorem wellFormed_cycleSpellSuggestion (h : WellFormed s) {spell : SpellCorrection}
    (hspell : s.spellState = some spell) (hmode : spell.highlightOnly = false)
    (hout : s.Outside) : ∃ s', s.cycleSpellSuggestion = some s' ∧ WellFormed s' := by
  have hplace := (hout spell hspell).resolve_left (by rw [hmode]; exact Bool.false_ne_true)
  obtain ⟨word, -, hslice⟩ := h.spell spell hspell
  rw [InputState.cycleSpellSuggestion, hspell]
  dsimp only
  by_cases hnil : spell.suggestions = []
  · rw [if_pos hnil]
    exact ⟨s, rfl, h⟩
  · rw [if_neg hnil]
    exact wellFormed_applySpellSuggestion h.history hspell hmode hslice h.cursor hplace
      (Nat.mod_lt _ (List.length_pos_iff.mpr hnil))

/-- The cursor behind a character is behind all of it. -/
theorem le_of_isCharBoundary_of_lt {p q : Str} {c : Char} {n : Nat}
    (h : Utf8.isCharBoundary (p ++ c :: q) n = true) (hlt : Utf8.byteLen p < n) :
    Utf8.byteLen p + c.utf8Size ≤ n := by
  by_contra hnot
  have hinside := @Utf8.splitAt_inside p q c (n - Utf8.byteLen p) (by omega) (by omega)
  rw [Nat.add_sub_cancel' hlt.le] at hinside
  rw [Utf8.isCharBoundary, hinside] at h
  cases h

theorem exists_removeSeparator (h : WellFormed s) {front y : Str} (hvalue : s.value = front ++ y) :
    ∃ rest, s.removeSeparator (Utf8.byteLen front) = some (front ++ rest) := by
  rw [InputState.removeSeparator]
  by_cases hlt : Utf8.byteLen front < Utf8.byteLen s.value
  · obtain ⟨c, r, rfl⟩ : ∃ c r, y = c :: r := by
      cases y with
      | nil =>
        rw [hvalue, List.append_nil] at hlt
        exact absurd hlt (Nat.lt_irrefl _)
      | cons c r => exact ⟨c, r, rfl⟩
    have hdrain : Utf8.drain s.value (Utf8.byteLen front) (Utf8.byteLen front + c.utf8Size) =
        some (front ++ r) := by
      rw [hvalue]
      exact Utf8.drain_append front [c] r
    refine ⟨r, ?_⟩
    rw [if_pos hlt, nextIndex_append hvalue, Option.bind_eq_bind, Option.bind_some, hdrain,
      Option.bind_eq_bind, Option.bind_some, Nat.add_sub_cancel_left]
    by_cases hcursor : Utf8.byteLen front < s.cursorPos
    · have hle := le_of_isCharBoundary_of_lt (hvalue ▸ h.cursor) hcursor
      rw [if_pos hcursor, checkedSub, if_pos (by omega)]
      rfl
    · rw [if_neg hcursor]
  · exact ⟨y, by rw [if_neg hlt, hvalue]⟩

theorem wellFormed_acceptSpellWithPunctuation (h : WellFormed s) (punct : Char) :
    ∃ s', s.acceptSpellWithPunctuation punct = some s' ∧ WellFormed s' := by
  rw [InputState.acceptSpellWithPunctuation]
  cases hspell : s.spellState with
  | none => exact ⟨s, rfl, h⟩
  | some spell =>
    obtain ⟨word, -, hslice⟩ := h.spell spell hspell
    obtain ⟨x, y, hvalue, hstart, hend⟩ := Utf8.slice_eq_some_iff.mp hslice
    obtain ⟨rest, hrest⟩ := exists_removeSeparator h hvalue
    dsimp only
    rw [← hend, ← Utf8.byteLen_append, hrest, Option.bind_eq_bind, Option.bind_some,
      Utf8.insertStr_append]
    refine ⟨_, rfl, ?_, h.history, nofun⟩
    refine Utf8.isCharBoundary_iff.mpr ⟨(x ++ word) ++ [punct], rest, by simp, ?_⟩
    rw [Utf8.byteLen_append (x ++ word)]
    rfl

/-! ### Spelling -/

/-- The last word of a trimmed text is what is behind its last whitespace. -/
theorem exists_lastWordStart (trimmed : Str) :
    ∃ a b, trimmed = a ++ b ∧ lastWordStart trimmed = some (Utf8.byteLen a) := by
  rw [lastWordStart]
  cases hfind : Utf8.rfind Text.isWhitespace trimmed with
  | none => exact ⟨[], trimmed, rfl, rfl⟩
  | some i =>
    obtain ⟨a, c, b, rfl, rfl, -, -⟩ := Utf8.rfind_eq_some hfind
    have hnext := @nextIndex_append { value := a ++ c :: b } a b c rfl
    rw [InputState.nextIndex, Utf8.behind_append] at hnext
    refine ⟨a ++ [c], b, by simp, ?_⟩
    dsimp only
    rw [Utf8.behind_append, Utf8.byteLen_append a [c]]
    exact hnext

/-- A completed word is in front of the cursor. -/
theorem lastCompletedWord_spec (h : WellFormed s) :
    ∃ r, s.lastCompletedWord = some r ∧ ∀ a b w, r = some (a, b, w) →
      Utf8.slice s.value a b = some w ∧ b ≤ s.cursorPos := by
  obtain ⟨p, q, hvalue, hcursor⟩ := h.exists_cursor
  have hbefore : Utf8.before s.value s.cursorPos = some p := by
    rw [hvalue, hcursor, Utf8.before_append]
  obtain ⟨z, hz⟩ := exists_trimEnd p
  rw [InputState.lastCompletedWord, hbefore, Option.bind_eq_bind, Option.bind_some]
  generalize Text.trimEnd p = trimmed at hz ⊢
  by_cases hnil : trimmed = []
  · rw [hnil]
    exact ⟨none, rfl, nofun⟩
  obtain ⟨a, b, hparts, hstart⟩ := exists_lastWordStart trimmed
  have hslice : Utf8.slice trimmed (Utf8.byteLen a) (Utf8.byteLen trimmed) = some b :=
    Utf8.slice_eq_some_iff.mpr ⟨a, [], by rw [List.append_nil, hparts], rfl, by
      rw [hparts, Utf8.byteLen_append]⟩
  have hkept : Utf8.slice s.value (Utf8.byteLen a) (Utf8.byteLen trimmed) = some b := by
    have happend := Utf8.slice_append_right (q := []) (by rw [List.append_nil]; exact hslice)
      (Nat.le_refl _) (z ++ q)
    rwa [← List.append_assoc, ← hz, ← hvalue] at happend
  have hle : Utf8.byteLen trimmed ≤ s.cursorPos := by
    rw [hcursor, hz, Utf8.byteLen_append]
    exact Nat.le_add_right _ _
  refine ⟨if b = [] then none else some (Utf8.byteLen a, Utf8.byteLen trimmed, b), ?_, ?_⟩
  · dsimp only
    rw [if_neg hnil, hstart, Option.bind_eq_bind, Option.bind_some, hslice]
    rfl
  · intro a' b' w hr
    split at hr
    · cases hr
    · cases hr
      exact ⟨hkept, hle⟩

/-- A slice ends where it says. -/
theorem add_byteLen_of_slice {m : Str} {value : Str} {a b : Nat}
    (h : Utf8.slice value a b = some m) :
    a + Utf8.byteLen m = b ∧ b ≤ Utf8.byteLen value := by
  obtain ⟨x, y, rfl, rfl, rfl⟩ := Utf8.slice_eq_some_iff.mp h
  refine ⟨rfl, ?_⟩
  rw [Utf8.byteLen_append, Utf8.byteLen_append]
  exact Nat.le_add_right _ _

theorem slice_stripWordPunctuation {f : Char → Bool} {word stripped : Str} {a b : Nat}
    (h : stripWordPunctuation f word = (stripped, a, b)) (hne : stripped ≠ []) :
    Utf8.slice word a b = some stripped := by
  rw [stripWordPunctuation] at h
  split at h
  · cases h
    exact absurd rfl hne
  · cases h
    obtain ⟨z, hz⟩ := List.dropWhile_suffix
      (l := (word.dropWhile (fun c => !f c)).reverse) (fun c => !f c)
    refine Utf8.slice_eq_some_iff.mpr ⟨word.takeWhile (fun c => !f c), z.reverse, ?_, rfl, rfl⟩
    rw [List.append_assoc, ← List.reverse_append, hz, List.reverse_reverse,
      List.takeWhile_append_dropWhile]

theorem wellFormed_checkSpelling (h : WellFormed s) (ctx : Context) :
    ∃ s', s.checkSpellingAfterSeparator ctx = some s' ∧ WellFormed s' := by
  rw [InputState.checkSpellingAfterSeparator]
  cases ctx.spellchecker with
  | none => exact ⟨s, rfl, h⟩
  | some checker =>
    dsimp only
    by_cases hcommand : s.isCommand = true
    · rw [if_pos hcommand]
      exact ⟨s, rfl, h⟩
    rw [if_neg hcommand]
    obtain ⟨r, hr, hword⟩ := lastCompletedWord_spec h
    rw [hr, Option.bind_eq_bind, Option.bind_some]
    cases r with
    | none => exact ⟨s, rfl, h⟩
    | some found =>
      obtain ⟨rawStart, rawEnd, rawWord⟩ := found
      obtain ⟨hslice, hle⟩ := hword rawStart rawEnd rawWord rfl
      dsimp only
      cases hstrip : stripWordPunctuation ctx.isAlphanumeric rawWord with
      | mk stripped offsets =>
        obtain ⟨stripOffset, stripEnd⟩ := offsets
        dsimp only
        by_cases hnil : stripped = []
        · rw [if_pos hnil]
          exact ⟨s, rfl, h⟩
        have hin := slice_stripWordPunctuation hstrip hnil
        have hrange := Utf8.slice_slice hslice hin
        have hbehind : rawStart + stripEnd ≤ s.cursorPos := by
          have hraw := add_byteLen_of_slice hslice
          have hcore := add_byteLen_of_slice hin
          omega
        rw [if_neg hnil]
        split
        · exact ⟨s, rfl, h⟩
        split
        · exact ⟨s, rfl, h⟩
        rename_i hsuggestions
        split
        · rename_i hmode
          refine ⟨_, rfl, h.cursor, h.history, ?_⟩
          intro spell hs
          cases hs
          exact ⟨stripped, by rw [SpellCorrection.word, hmode]; rfl, hrange⟩
        · rename_i hmode
          exact wellFormed_applySpellSuggestion (s := { s with spellState := some _ }) h.history rfl
            (eq_false_of_ne_true hmode) hrange h.cursor (.inr hbehind)
            (List.length_pos_iff.mpr hsuggestions)

/-! ### Keys -/

theorem wellFormed_typeText (h : WellFormed s) (ctx : Context) (c : Char) :
    ∃ s', s.typeText ctx c = some s' ∧ WellFormed s' := by
  obtain ⟨s', hs', h'⟩ := wellFormed_insertChar h c
  rw [InputState.typeText, hs', Option.bind_eq_bind, Option.bind_some]
  split
  · exact wellFormed_checkSpelling h' ctx
  · exact ⟨s', rfl, h'⟩

theorem wellFormed_typeChar (h : WellFormed s) (ctx : Context) (c : Char) :
    ∃ s', s.typeChar ctx c = some s' ∧ WellFormed s' := by
  rw [InputState.typeChar]
  cases hspell : s.spellState with
  | none => exact wellFormed_typeText h ctx c
  | some spell =>
    dsimp only
    by_cases hmode : spell.highlightOnly = true
    · rw [if_pos hmode]
      exact wellFormed_typeText h.accept ctx c
    rw [if_neg hmode]
    by_cases hspace : c = ' '
    · obtain ⟨word, -, hslice⟩ := h.spell spell hspell
      obtain ⟨x, y, hvalue, -, hend⟩ := Utf8.slice_eq_some_iff.mp hslice
      rw [if_pos hspace, hvalue, ← hend, ← Utf8.byteLen_append, Utf8.behind_append,
        Option.bind_eq_bind, Option.bind_some]
      rw [← hvalue]
      split
      · exact ⟨_, rfl, h.accept⟩
      · exact wellFormed_insertChar h.accept ' '
    · rw [if_neg hspace]
      split
      · exact wellFormed_acceptSpellWithPunctuation h c
      · exact wellFormed_insertChar h.accept c

theorem wellFormed_showCompletion (hhistory : ∀ i, s.historyIndex = some i → i < s.history.length)
    (hspell : s.spellState = none) {tab : TabCompletionState}
    (hindex : tab.index < tab.candidates.length) :
    ∃ s', s.showCompletion tab = some s' ∧ WellFormed s' := by
  rw [InputState.showCompletion, List.getElem?_eq_getElem hindex]
  refine ⟨_, rfl, Utf8.isCharBoundary_byteLen _, hhistory, ?_⟩
  intro spell hs
  rw [hspell] at hs
  cases hs

theorem wellFormed_tabComplete (h : WellFormed s) (hspell : s.spellState = none)
    (env : Completion) : ∃ s', s.tabComplete env = some s' ∧ WellFormed s' := by
  rw [InputState.tabComplete]
  cases htab : s.tabState with
  | some tab =>
    dsimp only
    by_cases hnil : tab.candidates = []
    · rw [if_pos hnil]
      exact ⟨s, rfl, h⟩
    · rw [if_neg hnil]
      exact wellFormed_showCompletion h.history hspell
        (Nat.mod_lt _ (List.length_pos_iff.mpr hnil))
  | none =>
    obtain ⟨p, q, hvalue, hcursor⟩ := h.exists_cursor
    have hbefore : Utf8.before s.value s.cursorPos = some p := by
      rw [hvalue, hcursor, Utf8.before_append]
    dsimp only
    rw [hbefore, Option.bind_eq_bind, Option.bind_some]
    split
    · exact ⟨s, rfl, h⟩
    split
    · exact ⟨s, rfl, h⟩
    · rename_i hnil
      exact wellFormed_showCompletion h.history hspell (List.length_pos_iff.mpr hnil)

theorem wellFormed_handleTab (h : WellFormed s) (hout : s.Outside) (ctx : Context) :
    ∃ s', s.handleTab ctx = some s' ∧ WellFormed s' := by
  rw [InputState.handleTab]
  cases hspell : s.spellState with
  | none => exact wellFormed_tabComplete h hspell ctx.toCompletion
  | some spell =>
    dsimp only
    by_cases hmode : spell.highlightOnly = true
    · rw [if_pos hmode]
      exact wellFormed_tabComplete h.accept rfl ctx.toCompletion
    · rw [if_neg hmode]
      exact wellFormed_cycleSpellSuggestion h hspell (eq_false_of_ne_true hmode) hout

theorem wellFormed_handleControl (h : WellFormed s) {c : Char} (hkeeps : KeepsControl s c) :
    ∃ s', s.handleControl c = some s' ∧ WellFormed s' := by
  unfold InputState.handleControl
  split
  · exact wellFormed_clearToStart h (hkeeps.1 rfl)
  · exact wellFormed_clearToEnd h (hkeeps.2.1 rfl)
  · exact wellFormed_deleteWordBack h (hkeeps.2.2 rfl)
  · exact ⟨_, rfl, h.move (Utf8.isCharBoundary_zero _) none⟩
  · exact wellFormed_moveLeft h
  · exact ⟨_, rfl, h.move (Utf8.isCharBoundary_byteLen _) none⟩
  · exact ⟨s, rfl, h⟩

theorem wellFormed_handleKey (h : WellFormed s) {mods : KeyModifiers} {code : KeyCode}
    (hkeeps : KeepsKey s mods code) (ctx : Context) :
    ∃ s', s.handleKey ctx mods code = some s' ∧ WellFormed s' := by
  have hsame : ∃ s', some s = some s' ∧ WellFormed s' := ⟨s, rfl, h⟩
  have henter : ∃ s', some s.handleEnter = some s' ∧ WellFormed s' :=
    ⟨_, rfl, wellFormed_submit rfl⟩
  cases code with
  | esc =>
    obtain ⟨s', hs', h', -⟩ := wellFormed_dismissSpell h hkeeps
    exact ⟨s', hs', h'⟩
  | home => exact ⟨_, rfl, h.move (Utf8.isCharBoundary_zero _) none⟩
  | end' => exact ⟨_, rfl, h.move (Utf8.isCharBoundary_byteLen _) none⟩
  | left =>
    rw [InputState.handleKey]
    split
    · exact hsame
    · exact wellFormed_moveLeft h
  | right =>
    rw [InputState.handleKey]
    split
    · exact hsame
    · exact wellFormed_moveRight h
  | enter => exact henter
  | backspace =>
    obtain ⟨s', hs', h', hspell⟩ := wellFormed_dismissSpell h hkeeps
    rw [InputState.handleKey, hs', Option.bind_eq_bind, Option.bind_some]
    exact wellFormed_backspace h' hspell
  | delete => exact wellFormed_delete h hkeeps
  | up => exact wellFormed_historyUp h hkeeps
  | down => exact wellFormed_historyDown h hkeeps
  | tab => exact wellFormed_handleTab h hkeeps ctx
  | char c =>
    rw [InputState.handleKey]
    split
    · exact henter
    split
    · rename_i hctrl
      exact wellFormed_handleControl h (hkeeps hctrl)
    split
    · exact hsame
    split
    · exact hsame
    · exact wellFormed_typeChar h ctx c
  | pageUp => exact hsame
  | pageDown => exact hsame
  | other => exact hsame

/-! ### Events -/

theorem wellFormed_insertChars (h : WellFormed s) (text : Str) :
    ∃ s', text.foldlM InputState.insertChar s = some s' ∧ WellFormed s' := by
  induction text generalizing s with
  | nil => exact ⟨s, rfl, h⟩
  | cons c text ih =>
    obtain ⟨s', hs', h'⟩ := wellFormed_insertChar h c
    rw [List.foldlM_cons, hs', Option.bind_eq_bind, Option.bind_some]
    exact ih h'

theorem wellFormed_handlePaste (h : WellFormed s) {text : Str}
    (hkeeps : (pastedLines text).length ≤ 1 ∨ s.spellState = none) :
    ∃ s', s.handlePaste text = some s' ∧ WellFormed s' := by
  rw [InputState.handlePaste]
  split
  · exact ⟨s, rfl, h⟩
  · exact wellFormed_insertChars h _
  · rename_i hnil hone
    have hspell : s.spellState = none := by
      refine hkeeps.resolve_left (fun hle => ?_)
      match hlines : pastedLines text with
      | [] => exact hnil hlines
      | [single] => exact hone single hlines
      | _ :: _ :: _ =>
        rw [hlines] at hle
        simp at hle
    exact ⟨_, rfl, wellFormed_submit hspell⟩

theorem wellFormed_insertEmoteByIndex (h : WellFormed s) {ctx : Context} {index : Nat}
    (hkeeps : ctx.displayName index = ['?'] ∨ s.SpelledBefore s.cursorPos) :
    ∃ s', s.insertEmoteByIndex ctx index = some s' ∧ WellFormed s' := by
  rw [InputState.insertEmoteByIndex]
  dsimp only
  by_cases hname : ctx.displayName index = ['?']
  · rw [if_pos hname]
    exact ⟨s, rfl, h⟩
  · have hspelled := hkeeps.resolve_left hname
    rw [if_neg hname]
    generalize ':' :: ctx.displayName index ++ [':'] = token
    obtain ⟨p, q, hvalue, hcursor⟩ := h.exists_cursor
    have hinsert : Utf8.insertStr s.value s.cursorPos token = some (p ++ (token ++ q)) := by
      rw [hvalue, hcursor, Utf8.insertStr_append]
    refine ⟨{ s with
      value := p ++ (token ++ q)
      cursorPos := s.cursorPos + Utf8.byteLen token, tabState := none }, ?_, ?_⟩
    · simp [hinsert]
    · refine h.edit hvalue (hcursor ▸ hspelled) ?_ none
      refine Utf8.isCharBoundary_iff.mpr ⟨p ++ token, q, by simp, ?_⟩
      rw [Utf8.byteLen_append, hcursor]

/-- **One event** that keeps the spelled word does not panic, and keeps the invariant. -/
theorem wellFormed_step (h : WellFormed s) {ctx : Context} {e : Event} (hkeeps : Keeps ctx s e) :
    ∃ s', s.step ctx e = some s' ∧ WellFormed s' := by
  cases e with
  | key mods code => exact wellFormed_handleKey h hkeeps ctx
  | paste text => exact wellFormed_handlePaste h hkeeps
  | emote index => exact wellFormed_insertEmoteByIndex h hkeeps

end

theorem wellFormed_new : WellFormed {} := ⟨Utf8.isCharBoundary_zero [], nofun, nofun⟩

theorem wellFormed_prefix {s : InputState} (h : WellFormed s) {pre post : List (Context × Event)}
    (hkeeps : KeepsAll s (pre ++ post)) : ∃ s', s.run pre = some s' ∧ WellFormed s' := by
  induction pre generalizing s with
  | nil => exact ⟨s, rfl, h⟩
  | cons e pre ih =>
    obtain ⟨hstep, hrest⟩ := hkeeps
    obtain ⟨s', hs', h'⟩ := wellFormed_step h hstep
    obtain ⟨t, ht, hwell⟩ := ih h' (hrest s' hs')
    refine ⟨t, ?_, hwell⟩
    rw [InputState.run, List.foldlM_cons, hs', Option.bind_eq_bind, Option.bind_some]
    exact ht

/-- **The input line stays well-formed**: in a run whose events keep the spelled word, no state is
a panic, and every state reached is well-formed. -/
theorem wellFormed_run {events : List (Context × Event)} (hkeeps : KeepsAll {} events) :
    ∀ pre post, events = pre ++ post →
      ∃ s, InputState.run {} pre = some s ∧ WellFormed s := by
  intro pre post hsplit
  subst hsplit
  exact wellFormed_prefix wellFormed_new hkeeps

/-! ### Samples -/

instance (s : InputState) (n : Nat) : Decidable (s.SpelledBefore n) :=
  decidable_of_iff (s.spellState.all (fun spell => spell.wordEnd ≤ n) = true) (by
    rw [InputState.SpelledBefore]
    cases s.spellState <;> simp)

instance (s : InputState) : Decidable s.Outside :=
  decidable_of_iff (s.spellState.all (fun spell => spell.highlightOnly ||
    decide (s.cursorPos ≤ spell.wordStart ∨ spell.wordEnd ≤ s.cursorPos)) = true) (by
    rw [InputState.Outside]
    cases s.spellState <;> simp)

instance (s : InputState) : Decidable s.KeepsWordBack :=
  decidable_of_iff ((Utf8.before s.value s.cursorPos).all (fun front =>
    decide (s.cursorPos = 0 ∨ oneByteGap front = true ∧ s.SpelledBefore (wordBack front))) = true)
    (by
      rw [InputState.KeepsWordBack]
      cases Utf8.before s.value s.cursorPos <;> simp)

instance (s : InputState) (c : Char) : Decidable (KeepsControl s c) :=
  inferInstanceAs (Decidable ((c = 'u' → s.cursorPos = 0 ∨ s.spellState = none) ∧
    (c = 'k' → s.SpelledBefore s.cursorPos) ∧ (c = 'w' → s.KeepsWordBack)))

instance (s : InputState) (mods : KeyModifiers) : (code : KeyCode) → Decidable (KeepsKey s mods code)
  | .esc | .backspace | .tab => inferInstanceAs (Decidable s.Outside)
  | .delete => inferInstanceAs (Decidable (s.SpelledBefore s.cursorPos))
  | .up => inferInstanceAs
    (Decidable (s.history = [] ∨ s.historyIndex = some 0 ∨ s.spellState = none))
  | .down => inferInstanceAs (Decidable (s.historyIndex = none ∨ s.spellState = none))
  | .char c => inferInstanceAs (Decidable (mods = .ctrl → KeepsControl s c))
  | .enter | .left | .right | .home | .end' | .pageUp | .pageDown | .other =>
    inferInstanceAs (Decidable True)

instance (ctx : Context) (s : InputState) : (e : Event) → Decidable (Keeps ctx s e)
  | .key mods code => inferInstanceAs (Decidable (KeepsKey s mods code))
  | .paste text => inferInstanceAs
    (Decidable ((pastedLines text).length ≤ 1 ∨ s.spellState = none))
  | .emote index => inferInstanceAs
    (Decidable (ctx.displayName index = ['?'] ∨ s.SpelledBefore s.cursorPos))

/-- Whether all events of a run keep the spelled word. -/
def keepsAll : InputState → List (Context × Event) → Bool
  | _, [] => true
  | s, e :: events =>
    decide (Keeps e.1 s e.2) && (s.step e.1 e.2).all (fun s' => keepsAll s' events)

theorem keepsAll_of_eq_true {s : InputState} {events : List (Context × Event)}
    (h : keepsAll s events = true) : KeepsAll s events := by
  induction events generalizing s with
  | nil => trivial
  | cons e events ih =>
    rw [keepsAll, Bool.and_eq_true, decide_eq_true_eq] at h
    refine ⟨h.1, fun s' hs' => ih ?_⟩
    have hrest := h.2
    rwa [hs', Option.all_some] at hrest

/-- A dictionary that takes every word for a misspelled `the` or `ten`. -/
def sampleContext : Context where
  nicks := []
  lastSpeakers := []
  commands := []
  settingPaths := []
  emotesEnabled := true
  tagNames := []
  subcommandNames _ := []
  toLowercase := id
  spellchecker := some ⟨fun _ _ => false, fun _ => [str "the", str "ten"]⟩
  highlight := false
  logBrowserMode := false
  isAlphanumeric := Char.isAlphanum
  displayName _ := str "smile"

def press (code : KeyCode) : Context × Event := (sampleContext, .key {} code)

def pressCtrl (c : Char) : Context × Event := (sampleContext, .key .ctrl (.char c))

def typed (text : Str) : List (Context × Event) := text.map (fun c => press (.char c))

/-- A word is misspelled, corrected twice, accepted with a full stop, and deleted. -/
def sampleEvents : List (Context × Event) :=
  typed (str "a teh ") ++ [press .tab, press (.char '.'), (sampleContext, .emote 0), pressCtrl 'w']

theorem sample_wellFormed :
    KeepsAll {} sampleEvents ∧
      ∃ s, InputState.run {} sampleEvents = some s ∧ WellFormed s := by
  have hkeeps : KeepsAll {} sampleEvents := keepsAll_of_eq_true (by decide +kernel)
  exact ⟨hkeeps, wellFormed_run hkeeps sampleEvents [] (List.append_nil _).symm⟩

/-- Deleting back to a no-break space panics, and so does the next suggestion for a word that
Ctrl+U has cut. -/
theorem edits_panic :
    InputState.run {} [(sampleContext, .paste ['a', Char.ofNat 0xA0, 'b']), pressCtrl 'w'] = none ∧
      InputState.run {} (typed (str "teh ") ++ [pressCtrl 'u', press .tab]) = none := by
  decide +kernel

end Repartee.Ui
