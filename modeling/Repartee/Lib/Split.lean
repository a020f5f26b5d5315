import Repartee.Lib.Lines

/-!
# Texts cut at separators

## Main results

- `Text.splitOnP_induction`: induction along the parts of a text
- `Text.map_trim_splitOnP_trim`: trimming a text before it is cut does not matter where its parts
  are trimmed
- `Text.trimmedParts_join`: joining texts and cutting the result again cuts each of them
- `Text.flatMap_trimmedParts_eq_iff`: which texts are not changed by that
-/

set_option autoImplicit false

namespace Text

variable {sep : Char → Bool}

/-- **Induction along the parts of a text.** -/
theorem splitOnP_induction (sep : Char → Bool) {motive : List Char → Prop}
    (part : ∀ w, (∀ c ∈ w, sep c = false) → motive w)
    (more : ∀ w c t, (∀ c ∈ w, sep c = false) → sep c = true → motive t → motive (w ++ c :: t))
    (s : List Char) : motive s := by
  induction hn : s.length using Nat.strongRecOn generalizing s with
  | _ n ih =>
    subst hn
    have hsplit := List.takeWhile_append_dropWhile (p := fun c => !sep c) (l := s)
    have htake : ∀ c ∈ s.takeWhile (fun c => !sep c), sep c = false :=
      fun c hc => by simpa using List.mem_takeWhile_imp hc
    cases hdrop : s.dropWhile (fun c => !sep c) with
    | nil =>
      rw [hdrop, List.append_nil] at hsplit
      exact part s (hsplit ▸ htake)
    | cons c t =>
      have hhead := List.head?_dropWhile_not (fun c => !sep c) s
      rw [hdrop] at hhead
      have hlen := congrArg List.length hsplit
      rw [hdrop, List.length_append, List.length_cons] at hlen
      rw [← hsplit, hdrop]
      exact more _ c t htake (by simpa using hhead) (ih t.length (by omega) t rfl)

/-- There is no separator in a part. -/
theorem sep_of_mem_splitOnP {s w : List Char} (h : w ∈ s.splitOnP sep) :
    ∀ c ∈ w, sep c = false := by
  induction s using splitOnP_induction sep with
  | part s hs =>
    rw [List.splitOnP_eq_singleton hs, List.mem_singleton] at h
    exact h ▸ hs
  | more v c t hv hc ih =>
    rw [List.splitOnP_append_cons_of_forall_mem hv c hc] at h
    rcases List.mem_cons.mp h with rfl | h
    · exact hv
    · exact ih h

/-- What is no whitespace is not trimmed off. -/
theorem mem_trim {s : List Char} {c : Char} (h : c ∈ s) (hc : isWhitespace c = false) :
    c ∈ trim s := by
  have hdrop : ∀ t : List Char, c ∈ t → c ∈ t.dropWhile isWhitespace := by
    intro t ht
    rw [← List.takeWhile_append_dropWhile (p := isWhitespace) (l := t)] at ht
    refine (List.mem_append.mp ht).resolve_left (fun htake => ?_)
    rw [List.mem_takeWhile_imp htake] at hc
    exact nomatch hc
  rw [trim, trimEnd, List.mem_reverse]
  exact hdrop _ (List.mem_reverse.mpr (hdrop s h))

theorem IsWord.trim_eq {w : List Char} (h : IsWord w) : trim w = w := by
  refine rdropWhile_dropWhile_eq_self_iff.mpr ?_
  rintro c (hc | hc)
  · exact h.2 c (List.mem_of_head? hc)
  · exact h.2 c (List.mem_of_getLast? hc)

theorem trim_trimStart (s : List Char) : trim (trimStart s) = trim s := by
  rw [trim, trim, trimStart_eq_self (fun _ h => head_trimStart h)]

theorem trimStart_append_cons (s t : List Char) {c : Char} (h : isWhitespace c = false) :
    trimStart (s ++ c :: t) = trimStart s ++ c :: t := by
  have hstop : (c :: t).dropWhile isWhitespace = c :: t := List.dropWhile_cons_of_neg (by simp [h])
  rw [trimStart, List.dropWhile_append, hstop]
  split_ifs with hempty
  · rw [trimStart, List.isEmpty_iff.mp hempty, List.nil_append]
  · rfl

/-- Trimming a text before it is cut does not matter where its parts are trimmed. -/
theorem map_trim_splitOnP_trim (hsep : ∀ c, sep c = true → isWhitespace c = false)
    (s : List Char) : ((trim s).splitOnP sep).map trim = (s.splitOnP sep).map trim := by
  have hend : ∀ s : List Char, ((trimEnd s).splitOnP sep).map trim =
      (s.splitOnP sep).map trim := by
    intro s
    induction s using splitOnP_induction sep with
    | part s hs =>
      have hs' : ∀ c ∈ trimEnd s, sep c = false := fun c hc => hs c ((prefix_trimEnd s).subset hc)
      rw [List.splitOnP_eq_singleton hs, List.splitOnP_eq_singleton hs', List.map_singleton,
        List.map_singleton, trim_trimEnd]
    | more w c t hw hc ih =>
      rw [trimEnd_append_cons w t (hsep c hc), List.splitOnP_append_cons_of_forall_mem hw c hc,
        List.splitOnP_append_cons_of_forall_mem hw c hc, List.map_cons, List.map_cons, ih]
  have hstart : ∀ s : List Char, ((trimStart s).splitOnP sep).map trim =
      (s.splitOnP sep).map trim := by
    intro s
    have htrim : ∀ w : List Char, (∀ c ∈ w, sep c = false) → ∀ c ∈ trimStart w, sep c = false :=
      fun w hw c hc => hw c ((List.dropWhile_suffix isWhitespace).subset hc)
    induction s using splitOnP_induction sep with
    | part s hs =>
      rw [List.splitOnP_eq_singleton hs, List.splitOnP_eq_singleton (htrim s hs),
        List.map_singleton, List.map_singleton, trim_trimStart]
    | more w c t hw hc ih =>
      rw [trimStart_append_cons w t (hsep c hc), List.splitOnP_append_cons_of_forall_mem hw c hc,
        List.splitOnP_append_cons_of_forall_mem (htrim w hw) c hc, List.map_cons, List.map_cons,
        trim_trimStart]
  rw [trim, hend, hstart]

/-! ### Joined texts -/

section Joined

variable {sep : Char}

theorem splitOn_of_notMem {s : List Char} (h : sep ∉ s) : s.splitOn sep = [s] := by
  have hne : ∀ c ∈ s, (c == sep) = false := by
    intro c hc
    exact beq_eq_false_iff_ne.mpr (fun heq => h (heq ▸ hc))
  rw [List.splitOn_eq_splitOnP, List.splitOnP_eq_singleton hne]

theorem splitOn_append_cons (s t : List Char) :
    (s ++ sep :: t).splitOn sep = s.splitOn sep ++ t.splitOn sep :=
  List.splitOnP_append_cons (p := (· == sep)) s t (beq_self_eq_true sep)

/-- A text is not the only part of itself if a separator occurs in it. -/
theorem exists_splitOn_of_mem {s : List Char} (h : sep ∈ s) :
    ∃ d e ds, s.splitOn sep = d :: e :: ds := by
  obtain ⟨p, q, rfl⟩ := List.append_of_mem h
  rw [splitOn_append_cons]
  obtain ⟨d, ds, hd⟩ := List.exists_cons_of_ne_nil (List.splitOn_ne_nil sep p)
  obtain ⟨e, es, he⟩ := List.exists_cons_of_ne_nil (List.splitOn_ne_nil sep q)
  rw [hd, he]
  cases ds with
  | nil => exact ⟨d, e, es, rfl⟩
  | cons f fs => exact ⟨d, f, fs ++ e :: es, rfl⟩

theorem splitOn_injective {s t : List Char} (h : s.splitOn sep = t.splitOn sep) : s = t := by
  have hs : [sep].intercalate (s.splitOn sep) = s := List.intercalate_splitOn sep
  rw [← hs, h, List.intercalate_splitOn]

/-- The trimmed parts of a text between separators. -/
def trimmedParts (sep : Char) (s : List Char) : List (List Char) := (s.splitOn sep).map trim

/-- A text that is one trimmed part. -/
def IsPart (sep : Char) (w : List Char) : Prop := trim w = w ∧ sep ∉ w

theorem trimmedParts_space (hsep : sep ≠ ' ') (s : List Char) :
    trimmedParts sep (' ' :: s) = trimmedParts sep s := by
  rw [trimmedParts, List.splitOn_eq_splitOnP, List.splitOnP_cons_eq_if_modifyHead,
    if_neg (by simpa using hsep.symm), trimmedParts, List.splitOn_eq_splitOnP]
  obtain ⟨w, ws, hws⟩ := List.exists_cons_of_ne_nil (List.splitOnP_ne_nil (· == sep) s)
  rw [hws]
  rfl

theorem trimmedParts_append_cons (s t : List Char) :
    trimmedParts sep (s ++ sep :: t) = trimmedParts sep s ++ trimmedParts sep t := by
  rw [trimmedParts, splitOn_append_cons, List.map_append]
  rfl

theorem isPart_of_mem {s w : List Char} (h : w ∈ trimmedParts sep s) : IsPart sep w := by
  obtain ⟨v, hv, rfl⟩ := List.mem_map.mp h
  rw [List.splitOn_eq_splitOnP] at hv
  refine ⟨trim_trim v, fun hmem => ?_⟩
  have hinside := trim_infix v
  have hne := sep_of_mem_splitOnP hv sep (hinside.subset hmem)
  simp at hne

theorem IsPart.trimmedParts_eq {w : List Char} (h : IsPart sep w) : trimmedParts sep w = [w] := by
  rw [trimmedParts, splitOn_of_notMem h.2, List.map_singleton, h.1]

/-- Joining texts and cutting the result again cuts each of them. -/
theorem trimmedParts_join (hsep : sep ≠ ' ') {xs : List (List Char)} (hne : xs ≠ []) :
    trimmedParts sep ([sep, ' '].intercalate xs) = xs.flatMap (trimmedParts sep) := by
  induction xs with
  | nil => exact absurd rfl hne
  | cons x xs ih =>
    cases xs with
    | nil => rw [List.intercalate_singleton, List.flatMap_singleton]
    | cons y ys =>
      have hcut : ([sep, ' '].intercalate (x :: y :: ys)) =
          x ++ sep :: ' ' :: [sep, ' '].intercalate (y :: ys) := by
        rw [List.intercalate_cons_cons, List.append_assoc]
        rfl
      rw [hcut, trimmedParts_append_cons]
      calc trimmedParts sep x ++ trimmedParts sep (' ' :: [sep, ' '].intercalate (y :: ys))
          = trimmedParts sep x ++ trimmedParts sep ([sep, ' '].intercalate (y :: ys)) := by
            rw [trimmedParts_space hsep]
        _ = trimmedParts sep x ++ (y :: ys).flatMap (trimmedParts sep) := by
            rw [ih (List.cons_ne_nil y ys)]
        _ = (x :: y :: ys).flatMap (trimmedParts sep) := List.flatMap_cons.symm

/-- Cutting texts leaves them as they are just if each is one part. -/
theorem flatMap_trimmedParts_eq_iff {xs : List (List Char)} :
    xs.flatMap (trimmedParts sep) = xs ↔ ∀ x ∈ xs, IsPart sep x := by
  constructor
  · intro h x hx
    rw [← h] at hx
    obtain ⟨y, -, hy⟩ := List.mem_flatMap.mp hx
    exact isPart_of_mem hy
  · intro h
    induction xs with
    | nil => rfl
    | cons x xs ih =>
      rw [List.flatMap_cons, (h x List.mem_cons_self).trimmedParts_eq,
        ih (fun y hy => h y (List.mem_cons_of_mem x hy)), List.singleton_append]

/-- The trimmed parts of a text that are not empty. -/
def nonemptyParts (sep : Char) (s : List Char) : List (List Char) :=
  (trimmedParts sep s).filter (fun w => !w.isEmpty)

theorem nonemptyParts_join (hsep : sep ≠ ' ') (xs : List (List Char)) :
    nonemptyParts sep ([sep, ' '].intercalate xs) = xs.flatMap (nonemptyParts sep) := by
  by_cases hne : xs = []
  · subst hne
    have hnil : trimmedParts sep [] = [[]] := IsPart.trimmedParts_eq ⟨rfl, List.not_mem_nil⟩
    rw [List.intercalate_nil, nonemptyParts, hnil]
    rfl
  · rw [nonemptyParts, trimmedParts_join hsep hne, List.filter_flatMap]
    rfl

theorem flatMap_nonemptyParts_eq_iff {xs : List (List Char)} :
    xs.flatMap (nonemptyParts sep) = xs ↔ ∀ x ∈ xs, x ≠ [] ∧ IsPart sep x := by
  constructor
  · intro h x hx
    rw [← h] at hx
    obtain ⟨y, -, hy⟩ := List.mem_flatMap.mp hx
    obtain ⟨hpart, hne⟩ := List.mem_filter.mp hy
    exact ⟨fun hnil => by simp [hnil] at hne, isPart_of_mem hpart⟩
  · intro h
    induction xs with
    | nil => rfl
    | cons x xs ih =>
      obtain ⟨hne, hpart⟩ := h x List.mem_cons_self
      have hx : nonemptyParts sep x = [x] := by
        rw [nonemptyParts, hpart.trimmedParts_eq]
        exact List.filter_cons_of_pos (by simpa using hne)
      rw [List.flatMap_cons, hx, ih (fun y hy => h y (List.mem_cons_of_mem x hy)),
        List.singleton_append]

end Joined

end Text
