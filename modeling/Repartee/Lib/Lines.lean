import Mathlib.Data.List.DropRight
import Mathlib.Data.List.Basic
import Repartee.Lib.Text

/-!
# Texts as lists of lines

Splitting a text at its line breaks, writing lines back, and trimming. A line comes back without
the carriage return it may end with, so what is read from a written text agrees with the lines
only up to the whitespace at their ends.
-/

set_option autoImplicit false

namespace Text

/-- The lines of a text, without the breaks that end them. -/
def lines : List Char → List (List Char)
  | [] => []
  | c :: s =>
    if c = '\n' then [] :: lines s
    else if c = '\r' ∧ s.head? = some '\n' then lines s
    else match lines s with
      | [] => [[c]]
      | l :: ls => (c :: l) :: ls

/-- Lines with a break between any two and one behind the last. -/
def ofLines (ls : List (List Char)) : List Char := ['\n'].intercalate ls ++ ['\n']

/-- A line without the carriage return it may end with. -/
def chomp : List Char → List Char
  | [] => []
  | c :: l => if c = '\r' ∧ l = [] then [] else c :: chomp l

/-- A text between the runs of a character at its two ends. -/
def trimMatches (c : Char) (s : List Char) : List Char :=
  (s.dropWhile (fun d => d = c)).rdropWhile (fun d => d = c)

theorem trimMatches_isInfix (c : Char) (s : List Char) : trimMatches c s <:+: s :=
  (List.rdropWhile_prefix _ _).isInfix.trans (List.dropWhile_suffix _).isInfix

theorem trimMatches_subset (c : Char) (s : List Char) : trimMatches c s ⊆ s :=
  (trimMatches_isInfix c s).subset

/-- Nothing is taken off the ends of a text if nothing is to be taken off there. -/
theorem rdropWhile_dropWhile_eq_self_iff {p : Char → Bool} {s : List Char} :
    (s.dropWhile p).rdropWhile p = s ↔
      ∀ c, s.head? = some c ∨ s.getLast? = some c → p c = false := by
  constructor
  · intro h
    have hfront : s.dropWhile p = s := by
      refine (List.dropWhile_suffix p).eq_of_length_le ?_
      have hle := (List.rdropWhile_prefix p (s.dropWhile p)).length_le
      rwa [h] at hle
    rw [hfront] at h
    rintro c (hhead | hlast)
    · have hnot := List.head?_dropWhile_not p s
      rwa [hfront, hhead] at hnot
    · obtain ⟨pre, rfl⟩ := List.getLast?_eq_some_iff.mp hlast
      have hnot := List.rdropWhile_eq_self_iff.mp h (by simp)
      rw [List.getLast_concat, Bool.not_eq_true] at hnot
      exact hnot
  · intro h
    have hfront : s.dropWhile p = s := by
      cases s with
      | nil => rfl
      | cons c s => exact List.dropWhile_cons_of_neg (by simp [h c (.inl rfl)])
    rw [hfront, List.rdropWhile_eq_self_iff]
    intro hne
    rw [Bool.not_eq_true]
    exact h _ (.inr (List.getLast?_eq_some_getLast hne))

/-- The parts around the first separator. -/
theorem splitOnce_eq_some {sep : Char} {s p q : List Char} (h : splitOnce sep s = some (p, q)) :
    sep ∉ p ∧ s = p ++ sep :: q := by
  induction s generalizing p with
  | nil => cases h
  | cons c s ih =>
    rw [splitOnce] at h
    by_cases hc : c = sep
    · rw [if_pos hc] at h
      cases h
      exact ⟨List.not_mem_nil, by rw [hc, List.nil_append]⟩
    · rw [if_neg hc] at h
      obtain ⟨⟨p', q'⟩, hrest, heq⟩ := Option.map_eq_some_iff.mp h
      obtain ⟨rfl, rfl⟩ := Prod.mk.inj heq
      obtain ⟨hmem, rfl⟩ := ih hrest
      exact ⟨by simp [Ne.symm hc, hmem], rfl⟩

/-! ### Trimming -/

theorem trimEnd_eq_rdropWhile (s : List Char) : trimEnd s = s.rdropWhile isWhitespace := rfl

theorem trimEnd_append_singleton (s : List Char) {c : Char} (h : isWhitespace c = true) :
    trimEnd (s ++ [c]) = trimEnd s := List.rdropWhile_concat_pos isWhitespace s c h

theorem trim_append_singleton (s : List Char) {c : Char} (h : isWhitespace c = true) :
    trim (s ++ [c]) = trim s := by
  have hdrop : trimStart (s ++ [c]) =
      if (trimStart s).isEmpty then [c].dropWhile isWhitespace else trimStart s ++ [c] :=
    List.dropWhile_append
  rw [trim, trim, hdrop]
  by_cases hempty : (trimStart s).isEmpty
  · rw [if_pos hempty, List.isEmpty_iff.mp hempty, List.dropWhile_cons_of_pos h]
    rfl
  · rw [if_neg hempty, trimEnd_append_singleton _ h]

/-- A text whose first character is no whitespace has none to lose in front. -/
theorem trimStart_eq_self {s : List Char} (h : ∀ c, s.head? = some c → isWhitespace c = false) :
    trimStart s = s := by
  cases s with
  | nil => rfl
  | cons c s => exact List.dropWhile_cons_of_neg (by simp [h c rfl])

theorem head_trimStart {s : List Char} {c : Char} (h : (trimStart s).head? = some c) :
    isWhitespace c = false := by
  have hnot := List.head?_dropWhile_not isWhitespace s
  rw [show s.dropWhile isWhitespace = trimStart s from rfl, h] at hnot
  exact hnot

theorem prefix_trimEnd (s : List Char) : trimEnd s <+: s := List.rdropWhile_prefix isWhitespace s

theorem trim_infix (s : List Char) : trim s <:+: s :=
  (prefix_trimEnd (trimStart s)).isInfix.trans (List.dropWhile_suffix isWhitespace).isInfix

/-- The first character of a prefix is the first of the text. -/
theorem prefix_head {s t : List Char} {c : Char} (h : s <+: t) (hs : s.head? = some c) :
    t.head? = some c := by
  obtain ⟨r, rfl⟩ := h
  rw [List.head?_append, hs]
  rfl

theorem head_trim {s : List Char} {c : Char} (h : (trim s).head? = some c) :
    isWhitespace c = false := head_trimStart (prefix_head (prefix_trimEnd _) h)

@[simp] theorem trim_trim (s : List Char) : trim (trim s) = trim s := by
  have hstart : trimStart (trim s) = trim s := trimStart_eq_self (fun _ h => head_trim h)
  rw [trim, hstart]
  exact List.rdropWhile_idempotent isWhitespace (trimStart s)

/-- Trailing whitespace is lost either way. -/
theorem trim_trimEnd (s : List Char) : trim (trimEnd s) = trim s := by
  induction s using List.reverseRecOn with
  | nil => rfl
  | append_singleton s c ih =>
    cases hc : isWhitespace c with
    | true => rw [trimEnd_append_singleton s hc, trim_append_singleton s hc, ih]
    | false =>
      rw [trimEnd_eq_rdropWhile, List.rdropWhile_concat_neg isWhitespace s c (by simp [hc])]

/-- Trimming a text with a separator that is no whitespace trims the ends of its two parts. -/
theorem trimEnd_append_cons (s t : List Char) {c : Char} (h : isWhitespace c = false) :
    trimEnd (s ++ c :: t) = s ++ c :: trimEnd t := by
  induction t using List.reverseRecOn with
  | nil => exact List.rdropWhile_concat_neg isWhitespace s c (by simp [h])
  | append_singleton t d ih =>
    rw [← List.cons_append, ← List.append_assoc]
    cases hd : isWhitespace d with
    | true => rw [trimEnd_append_singleton _ hd, trimEnd_append_singleton _ hd, ih]
    | false =>
      rw [trimEnd_eq_rdropWhile, trimEnd_eq_rdropWhile,
        List.rdropWhile_concat_neg isWhitespace _ d (by simp [hd]),
        List.rdropWhile_concat_neg isWhitespace _ d (by simp [hd])]
      simp

theorem trim_append_cons {s : List Char} (hs : trim s = s) (t : List Char) {c : Char}
    (h : isWhitespace c = false) : trim (s ++ c :: t) = s ++ c :: trimEnd t := by
  have hstart : trimStart (s ++ c :: t) = s ++ c :: t := by
    apply trimStart_eq_self
    intro d hd
    cases s with
    | nil => rwa [← Option.some.inj (show some c = some d from hd)]
    | cons b s => exact head_trim (s := b :: s) (hs.symm ▸ hd)
  rw [trim, hstart, trimEnd_append_cons s t h]

/-- A prefix that ends with no whitespace is seen with or without the whitespace behind. -/
theorem startsWith_trim (s p : List Char) {c : Char} (h : isWhitespace c = false) :
    startsWith (trim s) (p ++ [c]) = startsWith (trimStart s) (p ++ [c]) := by
  rw [Bool.eq_iff_iff, startsWith_iff, startsWith_iff]
  constructor
  · rintro ⟨r, hr⟩
    obtain ⟨q, hq⟩ := prefix_trimEnd (trimStart s)
    exact ⟨r ++ q, by rw [← hq, ← trim, hr, List.append_assoc]⟩
  · rintro ⟨r, hr⟩
    refine ⟨trimEnd r, ?_⟩
    rw [trim, hr, List.append_assoc, List.singleton_append, trimEnd_append_cons p r h,
      List.append_assoc, List.singleton_append]

/-! ### Lines -/

theorem chomp_cases (l : List Char) : chomp l = l ∨ l = chomp l ++ ['\r'] := by
  induction l with
  | nil => exact Or.inl rfl
  | cons c l ih =>
    rw [chomp]
    by_cases h : c = '\r' ∧ l = []
    · rw [if_pos h, h.1, h.2]
      exact Or.inr rfl
    · rw [if_neg h]
      rcases ih with ih | ih
      · exact Or.inl (by rw [ih])
      · exact Or.inr (by rw [List.cons_append, ← ih])

@[simp] theorem trim_chomp (l : List Char) : trim (chomp l) = trim l := by
  rcases chomp_cases l with h | h
  · rw [h]
  · conv_rhs => rw [h]
    exact (trim_append_singleton (chomp l) (by decide)).symm

theorem lines_append {l : List Char} (h : '\n' ∉ l) (rest : List Char) :
    lines (l ++ '\n' :: rest) = chomp l :: lines rest := by
  induction l with
  | nil => rfl
  | cons c l ih =>
    rw [List.mem_cons, not_or] at h
    have ih' := ih h.2
    rw [List.cons_append, lines, if_neg (Ne.symm h.1), chomp]
    cases l with
    | nil =>
      by_cases hc : c = '\r'
      · simp [hc, lines]
      · simp [hc, lines, chomp]
    | cons d l =>
      have hd : d ≠ '\n' := fun heq => h.2 (heq ▸ List.mem_cons_self)
      rw [if_neg (by simp [hd]), if_neg (by simp), ih']

theorem newline_not_mem_lines {s l : List Char} (h : l ∈ lines s) : '\n' ∉ l := by
  induction s generalizing l with
  | nil => exact absurd h List.not_mem_nil
  | cons c s ih =>
    rw [lines] at h
    split at h
    · rcases List.mem_cons.mp h with rfl | h
      · exact List.not_mem_nil
      · exact ih h
    · rename_i hc
      split at h
      · exact ih h
      · cases hs : lines s with
        | nil =>
          rw [hs, List.mem_singleton] at h
          rw [h, List.mem_singleton]
          exact Ne.symm hc
        | cons k ks =>
          rw [hs] at h
          rcases List.mem_cons.mp h with rfl | h
          · rw [List.mem_cons, not_or]
            exact ⟨Ne.symm hc, ih (hs ▸ List.mem_cons_self)⟩
          · exact ih (hs ▸ List.mem_cons_of_mem k h)

theorem ofLines_cons_cons (l k : List Char) (ks : List (List Char)) :
    ofLines (l :: k :: ks) = l ++ '\n' :: ofLines (k :: ks) := by
  simp [ofLines, List.intercalate]

/-- Reading what was written gives the lines, less the carriage returns at their ends. -/
theorem lines_ofLines {ls : List (List Char)} (hne : ls ≠ []) (h : ∀ l ∈ ls, '\n' ∉ l) :
    lines (ofLines ls) = ls.map chomp := by
  induction ls with
  | nil => exact absurd rfl hne
  | cons l ls ih =>
    have hl := h l List.mem_cons_self
    cases ls with
    | nil =>
      have hof : ofLines [l] = l ++ '\n' :: [] := by simp [ofLines, List.intercalate]
      rw [hof, lines_append hl]
      rfl
    | cons k ks =>
      rw [ofLines_cons_cons, lines_append hl,
        ih (List.cons_ne_nil k ks) (fun l' hl' => h l' (List.mem_cons_of_mem l hl'))]
      rfl

/-- Whatever is read off the lines without their surrounding whitespace, and nothing off a blank
one, survives writing and reading. -/
theorem filterMap_lines_ofLines {α : Type} {f : List Char → Option α}
    (htrim : ∀ l, f (trim l) = f l) (hblank : f [] = none) {ls : List (List Char)}
    (h : ∀ l ∈ ls, '\n' ∉ l) : (lines (ofLines ls)).filterMap f = ls.filterMap f := by
  by_cases hne : ls = []
  · subst hne
    show [([] : List Char)].filterMap f = []
    simp [hblank]
  · rw [lines_ofLines hne h, List.filterMap_map]
    congr 1
    funext l
    show f (chomp l) = f l
    rw [← htrim, trim_chomp, htrim]

end Text
