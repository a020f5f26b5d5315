import Mathlib.Data.List.Infix
import Mathlib.Data.List.Forall2

/-!
# Glob patterns and the loop with one remembered star

A pattern is a list of characters, two of which are wildcards: `any` stands for every sequence
and `one` for a single character. `Ends` is the usual loop that matches character by character,
remembers the last `any` it has passed and goes back to it when it is stuck. The loop compares
characters before it looks for `any`, so that an `any` of the pattern that meets the same
character in the input is taken for that character. `Aligned` is the language that it decides.

## Main definitions

- `Glob.Lang`: the language of a pattern
- `Glob.Aligned`: the part of it where every `any` that meets an `any` stands for just that
- `Glob.Ends`: the runs of the loop

## Main results

- `Glob.Ends.iff_aligned`: the loop accepts the aligned inputs
- `Glob.aligned_iff_lang`: for inputs without `any`, that is the whole language
-/

set_option autoImplicit false

universe u

namespace Glob

variable {α : Type u} (any one : α)

/-- The language of a pattern. -/
inductive Lang : List α → List α → Prop
  | nil : Lang [] []
  | same {c : α} {p s : List α} : c ≠ any → c ≠ one → Lang p s → Lang (c :: p) (c :: s)
  | one {p s : List α} (c : α) : Lang p s → Lang (one :: p) (c :: s)
  | any {p s t : List α} : t <:+ s → Lang p t → Lang (any :: p) s

/-- The inputs that match with every `any` that stands before an `any` of the input taken for
that character. -/
inductive Aligned : List α → List α → Prop
  | nil : Aligned [] []
  | same {c : α} {p s : List α} : Aligned p s → Aligned (c :: p) (c :: s)
  | one {p s : List α} (c : α) : Aligned p s → Aligned (one :: p) (c :: s)
  | any {p s t : List α} : (∀ c ∈ s.head?, c ≠ any) → t <:+ s → Aligned p t →
      Aligned (any :: p) s

/-- The first character of the pattern is no wildcard and not the one of the input. -/
def Mismatch (p : List α) (i : α) : Prop := ∀ c ∈ p.head?, c ≠ one ∧ c ≠ i ∧ c ≠ any

/-- The loop: what is left of the pattern and of the input, and at the last `any` the pattern
behind it and the input to try it on next. -/
inductive Ends [DecidableEq α] : Option (List α × List α) → List α → List α → Bool → Prop
  | done {star : Option (List α × List α)} {p : List α} :
      Ends star p [] (p.all (fun c => decide (c = any)))
  | same {star : Option (List α × List α)} {c i : α} {p s : List α} {b : Bool} :
      c = one ∨ c = i → Ends star p s b → Ends star (c :: p) (i :: s) b
  | star {star : Option (List α × List α)} {i : α} {p s : List α} {b : Bool} :
      ¬ (any = one ∨ any = i) → Ends (some (p, i :: s)) p (i :: s) b →
      Ends star (any :: p) (i :: s) b
  | resume {i x : α} {p s starPat starInp : List α} {b : Bool} : Mismatch any one p i →
      Ends (some (starPat, starInp)) starPat starInp b →
      Ends (some (starPat, x :: starInp)) p (i :: s) b
  | fail {i : α} {p s : List α} : Mismatch any one p i → Ends none p (i :: s) false

variable {any one}

/-! ### The two languages -/

theorem Aligned.lang {p s : List α} (h : Aligned any one p s) : Lang any one p s := by
  induction h with
  | nil => exact .nil
  | @same c p s _ ih =>
    by_cases hany : c = any
    · subst hany
      exact .any (List.suffix_cons c s) ih
    by_cases hone : c = one
    · subst hone
      exact .one c ih
    · exact .same hany hone ih
  | one c _ ih => exact .one c ih
  | any _ hsuf _ ih => exact .any hsuf ih

theorem Lang.aligned {p s : List α} (h : Lang any one p s) (hs : any ∉ s) :
    Aligned any one p s := by
  induction h with
  | nil => exact .nil
  | same _ _ _ ih => exact .same (ih (List.not_mem_of_not_mem_cons hs))
  | one c _ ih => exact .one c (ih (List.not_mem_of_not_mem_cons hs))
  | any hsuf _ ih =>
    refine .any ?_ hsuf (ih fun hmem => hs (hsuf.mem hmem))
    intro c hc hany
    exact hs (hany ▸ List.mem_of_mem_head? hc)

theorem aligned_iff_lang {p s : List α} (hs : any ∉ s) :
    Aligned any one p s ↔ Lang any one p s :=
  ⟨Aligned.lang, fun h => h.aligned hs⟩

theorem aligned_nil_iff {p : List α} : Aligned any one p [] ↔ ∀ c ∈ p, c = any := by
  constructor
  · intro h
    generalize hs : ([] : List α) = s at h
    induction h with
    | nil => simp
    | same _ _ => cases hs
    | one _ _ _ => cases hs
    | any _ hsuf _ ih =>
      subst hs
      have ht := List.suffix_nil.mp hsuf
      exact List.forall_mem_cons.mpr ⟨rfl, ih ht.symm⟩
  · intro h
    induction p with
    | nil => exact .nil
    | cons c p ih =>
      obtain ⟨rfl, hp⟩ := List.forall_mem_cons.mp h
      exact .any (by simp) List.suffix_rfl (ih hp)

theorem aligned_cons_iff (hne : any ≠ one) {c i : α} {p s : List α} (hc : c = one ∨ c = i) :
    Aligned any one (c :: p) (i :: s) ↔ Aligned any one p s := by
  constructor
  · intro h
    cases h with
    | same h => exact h
    | one _ h => exact h
    | any hhead _ _ =>
      rcases hc with hone | rfl
      · exact absurd hone hne
      · exact absurd rfl (hhead any rfl)
  · intro h
    rcases hc with rfl | rfl
    · exact .one i h
    · exact .same h

theorem not_aligned_of_mismatch {p s : List α} {i : α} (hm : Mismatch any one p i) :
    ¬ Aligned any one p (i :: s) := by
  intro h
  cases h with
  | same _ => exact (hm _ rfl).2.1 rfl
  | one _ _ => exact (hm _ rfl).1 rfl
  | any _ _ _ => exact (hm _ rfl).2.2 rfl

/-- An `any` before another character stands for whatever it takes. -/
theorem aligned_any_iff {p s : List α} {i : α} (hi : any ≠ i) :
    Aligned any one (any :: p) (i :: s) ↔ ∃ t, t <:+ i :: s ∧ Aligned any one p t := by
  constructor
  · intro h
    cases h with
    | same _ => exact absurd rfl hi
    | one _ h => exact ⟨s, List.suffix_cons i s, h⟩
    | any _ hsuf h => exact ⟨_, hsuf, h⟩
  · rintro ⟨t, hsuf, h⟩
    refine .any ?_ hsuf h
    intro c hc
    rw [List.head?_cons, Option.mem_some_iff] at hc
    exact hc ▸ Ne.symm hi

/-- A pattern with a leading `any` that matches a suffix matches one with an earlier start. -/
theorem exists_suffix_of_any {p t : List α} (h : Aligned any one (any :: p) t) :
    ∃ t', t' <:+ t ∧ Aligned any one p t' := by
  cases h with
  | same h => exact ⟨_, List.suffix_cons _ _, h⟩
  | one _ h => exact ⟨_, List.suffix_cons _ _, h⟩
  | any _ hsuf h => exact ⟨_, hsuf, h⟩

/-! ### The loop -/

/-- A part of the pattern has been compared with a part of the input. -/
def Compared (one : α) (p s : List α) : Prop := List.Forall₂ (fun c i => c = one ∨ c = i) p s

/-- **No way back**: a later start cannot end earlier. Whatever the pattern matches from a later
start on, its rest matches from no earlier position than the one that has been reached. -/
theorem exists_suffix_of_compared (hne : any ≠ one) {p₁ s₁ p s : List α}
    (h : Compared one p₁ s₁) {t : List α} (ht : t <:+ s₁ ++ s)
    (ha : Aligned any one (p₁ ++ p) t) : ∃ t', t' <:+ s ∧ Aligned any one p t' := by
  induction h generalizing t with
  | nil => exact ⟨t, ht, ha⟩
  | @cons c i p₁ s₁ hci _ ih =>
    have htail : ∀ x t', t = x :: t' → t' <:+ s₁ ++ s := by
      rintro x t' rfl
      rcases List.suffix_cons_iff.mp ht with he | hsuf
      · rw [List.cons.injEq] at he
        exact he.2 ▸ List.suffix_rfl
      · exact (List.suffix_cons x t').trans hsuf
    cases ha with
    | same ha => exact ih (htail _ _ rfl) ha
    | one x ha => exact ih (htail _ _ rfl) ha
    | any hhead hsuf ha =>
      -- at the same position the input has an `any` too, so the start is a later one
      rcases List.suffix_cons_iff.mp ht with rfl | hlater
      · rcases hci with hone | hci
        · exact absurd hone hne
        · exact absurd hci.symm (hhead i rfl)
      · exact ih (hsuf.trans hlater) ha

/-- What the loop still tries when it is stuck. -/
def Resumes (any one : α) (star : Option (List α × List α)) : Prop :=
  ∃ starPat starInp, star = some (starPat, starInp) ∧
    ∃ t, t <:+ starInp.tail ∧ Aligned any one starPat t

/-- Since the last `any` the loop has compared character by character. -/
def Since (one : α) (star : Option (List α × List α)) (p s : List α) : Prop :=
  ∀ starPat starInp, star = some (starPat, starInp) →
    ∃ p₁ s₁, starPat = p₁ ++ p ∧ starInp = s₁ ++ s ∧ Compared one p₁ s₁

theorem since_self (p s : List α) : Since one (some (p, s)) p s := by
  intro starPat starInp hstar
  rw [Option.some.injEq, Prod.mk.injEq] at hstar
  exact ⟨[], [], hstar.1.symm, hstar.2.symm, .nil⟩

theorem Since.cons {star : Option (List α × List α)} {c i : α} {p s : List α}
    (h : Since one star (c :: p) (i :: s)) (hc : c = one ∨ c = i) : Since one star p s := by
  intro starPat starInp hstar
  obtain ⟨p₁, s₁, rfl, rfl, hcmp⟩ := h starPat starInp hstar
  exact ⟨p₁ ++ [c], s₁ ++ [i], by simp, by simp,
    List.rel_append hcmp (List.Forall₂.cons hc .nil)⟩

theorem Since.exists_suffix (hne : any ≠ one) {star : Option (List α × List α)}
    {p s : List α} (h : Since one star p s) (hr : Resumes any one star) :
    ∃ t, t <:+ s ∧ Aligned any one p t := by
  obtain ⟨starPat, starInp, hstar, t, ht, ha⟩ := hr
  obtain ⟨p₁, s₁, rfl, rfl, hcmp⟩ := h starPat starInp hstar
  exact exists_suffix_of_compared hne hcmp (ht.trans (List.tail_suffix _)) ha

/-- Starting again one character later, or later still. -/
theorem resumes_iff {p s : List α} {x : α} : Resumes any one (some (p, x :: s)) ↔
    Aligned any one p s ∨ Resumes any one (some (p, s)) := by
  constructor
  · rintro ⟨starPat, starInp, hstar, t, ht, ha⟩
    rw [Option.some.injEq, Prod.mk.injEq] at hstar
    obtain ⟨rfl, rfl⟩ := hstar
    rw [List.tail_cons] at ht
    cases s with
    | nil =>
      rw [List.suffix_nil.mp ht] at ha
      exact Or.inl ha
    | cons y s =>
      rcases List.suffix_cons_iff.mp ht with rfl | hlater
      · exact Or.inl ha
      · exact Or.inr ⟨p, y :: s, rfl, t, hlater, ha⟩
  · rintro (ha | ⟨starPat, starInp, hstar, t, ht, ha⟩)
    · exact ⟨p, x :: s, rfl, s, List.suffix_rfl, ha⟩
    · rw [Option.some.injEq, Prod.mk.injEq] at hstar
      obtain ⟨rfl, rfl⟩ := hstar
      exact ⟨p, x :: s, rfl, t, ht.trans (List.tail_suffix _), ha⟩

theorem Ends.iff_aligned_or_resumes [DecidableEq α] (hne : any ≠ one)
    {star : Option (List α × List α)} {p s : List α} {b : Bool} (h : Ends any one star p s b) :
    Since one star p s → (b = true ↔ Aligned any one p s ∨ Resumes any one star) := by
  induction h with
  | @done star p =>
    -- behind the end of the input only stars may be left of the pattern
    intro hsince
    rw [List.all_eq_true]
    simp only [decide_eq_true_eq]
    have hnil : Aligned any one p [] ↔ ∀ c ∈ p, c = any := aligned_nil_iff
    rw [← hnil]
    refine ⟨Or.inl, ?_⟩
    rintro (ha | hr)
    · exact ha
    · obtain ⟨t, ht, ha⟩ := hsince.exists_suffix hne hr
      rwa [List.suffix_nil.mp ht] at ha
  | same hc _ ih =>
    intro hsince
    rw [ih (hsince.cons hc), aligned_cons_iff hne hc]
  | @star star i p s b hnot _ ih =>
    intro hsince
    have hi : any ≠ i := fun he => hnot (Or.inr he)
    -- the new star replaces the old one, which loses nothing: it can take what the old one takes
    rw [ih (since_self p (i :: s)), aligned_any_iff hi]
    constructor
    · rintro (ha | ⟨starPat, starInp, hstar, t, ht, ha⟩)
      · exact Or.inl ⟨_, List.suffix_rfl, ha⟩
      · rw [Option.some.injEq, Prod.mk.injEq] at hstar
        obtain ⟨rfl, rfl⟩ := hstar
        exact Or.inl ⟨t, ht.trans (List.suffix_cons i s), ha⟩
    · intro hor
      have hex : ∃ t, t <:+ i :: s ∧ Aligned any one p t := by
        rcases hor with hex | hr
        · exact hex
        · obtain ⟨t, ht, ha⟩ := hsince.exists_suffix hne hr
          obtain ⟨t', ht', ha'⟩ := exists_suffix_of_any ha
          exact ⟨t', ht'.trans ht, ha'⟩
      obtain ⟨t, ht, ha⟩ := hex
      rcases List.suffix_cons_iff.mp ht with rfl | hlater
      · exact Or.inl ha
      · exact Or.inr ⟨p, i :: s, rfl, t, hlater, ha⟩
  | resume hm _ ih =>
    -- the star takes one character more
    intro _
    rw [ih (since_self _ _), ← resumes_iff]
    exact ⟨Or.inr, fun hor => hor.resolve_left (not_aligned_of_mismatch hm)⟩
  | fail hm =>
    intro _
    refine ⟨fun hfalse => Bool.noConfusion hfalse, ?_⟩
    rintro (ha | ⟨_, _, hstar, _⟩)
    · exact absurd ha (not_aligned_of_mismatch hm)
    · cases hstar

/-- **What the loop decides**: without a remembered star it accepts the aligned inputs. -/
theorem Ends.iff_aligned [DecidableEq α] (hne : any ≠ one) {p s : List α} {b : Bool}
    (h : Ends any one none p s b) : b = true ↔ Aligned any one p s := by
  rw [h.iff_aligned_or_resumes hne (fun _ _ hstar => by cases hstar)]
  refine ⟨fun hor => hor.resolve_right ?_, Or.inl⟩
  rintro ⟨_, _, hstar, _⟩
  cases hstar

end Glob
