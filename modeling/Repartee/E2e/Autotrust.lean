import Repartee.Lib.Glob
import Repartee.E2e.Keyring
import Repartee.E2e.Sample
import Mathlib.Tactic.Linarith

/-!
# The patterns of autotrust rules

`keyring.rs`, `glob_matches_ci`: the loop with one remembered `*`. It ends on every pattern and
input, and it decides the aligned inputs: the comparison of two characters comes before the case
of a `*`, so a `*` of the pattern that meets a `*` in the handle is spent on it.

## Main results

- `ends_globMatchesCi`: the loop ends
- `globMatchesCi_iff_aligned`: what it accepts
- `globMatchesCi_exact_iff`: when that is the language of the pattern
-/

set_option autoImplicit false

namespace Repartee

namespace Keyring

open Glob

variable (cr : Crates)

/-- A text in lower case. -/
def toLowercase (s : Str) : Str := s.flatMap cr.lowercase

/-- How often the loop can still start again. -/
def startsLeft (star : Option (Str × Str)) (inp : Str) : Nat :=
  match star with
  | none => inp.length
  | some s => s.2.length

/-- The patterns are no longer than `bound`, and the loop is not ahead of its last `*`. -/
structure LoopFits (bound : Nat) (star : Option (Str × Str)) (pat inp : Str) : Prop where
  pat_le : pat.length ≤ bound
  star_le : ∀ s, star = some s → s.1.length ≤ bound ∧ inp.length ≤ s.2.length

variable {bound fuel : Nat} {star : Option (Str × Str)} {pat inp : Str} {p i : Char}

theorem LoopFits.length_le_startsLeft (h : LoopFits bound star pat inp) :
    inp.length ≤ startsLeft star inp := by
  cases star with
  | none => exact le_rfl
  | some s => exact (h.star_le s rfl).2

theorem LoopFits.cons (h : LoopFits bound star (p :: pat) (i :: inp)) :
    LoopFits bound star pat inp := by
  have hpat := h.pat_le
  rw [List.length_cons] at hpat
  refine ⟨by omega, fun s hs => ?_⟩
  have hstar := h.star_le s hs
  rw [List.length_cons] at hstar
  exact ⟨hstar.1, by omega⟩

theorem startsLeft_cons_le (star : Option (Str × Str)) (i : Char) (inp : Str) :
    startsLeft star inp ≤ startsLeft star (i :: inp) := by
  cases star with
  | none => exact Nat.le_succ _
  | some s => exact le_rfl

/-- A stuck loop goes back to its last `*`. -/
def globResume (fuel : Nat) (star : Option (Str × Str)) : Bool :=
  match star with
  | some (starPat, _ :: starInp) => globLoop fuel (some (starPat, starInp)) starPat starInp
  | _ => false

theorem globLoop_nil (fuel : Nat) (star : Option (Str × Str)) (i : Char) (inp : Str) :
    globLoop (fuel + 1) star [] (i :: inp) = globResume fuel star := rfl

theorem globLoop_cons (fuel : Nat) (star : Option (Str × Str)) (p : Char) (pat : Str) (i : Char)
    (inp : Str) : globLoop (fuel + 1) star (p :: pat) (i :: inp) =
      if p = '?' ∨ p = i then globLoop fuel star pat inp
      else if p = '*' then globLoop fuel (some (pat, i :: inp)) pat (i :: inp)
      else globResume fuel star := by
  rw [globLoop.eq_def]
  simp only [Bool.or_eq_true, decide_eq_true_eq]
  rfl

/-- With enough fuel the model runs the loop to its end: every round shortens the pattern that is
left or uses up a start. -/
theorem ends_globLoop (hfit : LoopFits bound star pat inp)
    (hfuel : startsLeft star inp * (bound + 1) + pat.length < fuel) :
    Ends '*' '?' star pat inp (globLoop fuel star pat inp) := by
  induction fuel generalizing star pat inp with
  | zero => exact absurd hfuel (Nat.not_lt_zero _)
  | succ fuel ih =>
    rcases inp with _ | ⟨i, inp⟩
    · rw [globLoop]
      exact .done
    have hresume : Mismatch '*' '?' pat i →
        Ends '*' '?' star pat (i :: inp) (globResume fuel star) := by
      intro hm
      rcases star with _ | ⟨starPat, _ | ⟨x, starInp⟩⟩
      · exact .fail hm
      · have hlen := (hfit.star_le _ rfl).2
        simp at hlen
      · -- a start is used up, and the pattern begins again behind the star
        have hpat : starPat.length ≤ bound := (hfit.star_le _ rfl).1
        refine .resume hm (ih ⟨hpat, ?_⟩ ?_)
        · intro s hs
          rw [Option.some.injEq] at hs
          subst hs
          exact ⟨hpat, le_rfl⟩
        · simp only [startsLeft, List.length_cons, Nat.add_mul] at hfuel ⊢
          omega
    rcases pat with _ | ⟨p, pat⟩
    · rw [globLoop_nil]
      exact hresume (by simp [Mismatch])
    have hlen := hfit.pat_le
    rw [List.length_cons] at hlen hfuel
    rw [globLoop_cons]
    split_ifs with hsame hp
    · have hstarts := Nat.mul_le_mul_right (bound + 1) (startsLeft_cons_le star i inp)
      exact .same hsame (ih hfit.cons (by omega))
    · -- a new star has at most as many starts as the old one has left
      subst hp
      have hstarts := Nat.mul_le_mul_right (bound + 1) hfit.length_le_startsLeft
      have hpat : pat.length ≤ bound := by omega
      refine .star hsame (ih ⟨hpat, ?_⟩ ?_)
      · intro s hs
        rw [Option.some.injEq] at hs
        subst hs
        exact ⟨hpat, le_rfl⟩
      · simp only [startsLeft] at hfuel hstarts ⊢
        omega
    · refine hresume (fun c hc => ?_)
      rw [List.head?_cons, Option.mem_some_iff] at hc
      subst hc
      exact ⟨fun h => hsame (Or.inl h), fun h => hsame (Or.inr h), hp⟩

/-- The loop ends, with the result of the model. -/
theorem ends_globMatchesCi (pattern input : Str) :
    Ends '*' '?' none (toLowercase cr pattern) (toLowercase cr input)
      (globMatchesCi cr pattern input) := by
  have hfits : LoopFits (toLowercase cr pattern).length none (toLowercase cr pattern)
      (toLowercase cr input) := ⟨le_rfl, fun s hs => by cases hs⟩
  refine ends_globLoop hfits ?_
  simp only [startsLeft, toLowercase]
  nlinarith

theorem globMatchesCi_iff_aligned (pattern input : Str) :
    globMatchesCi cr pattern input = true ↔
      Aligned '*' '?' (toLowercase cr pattern) (toLowercase cr input) :=
  (ends_globMatchesCi cr pattern input).iff_aligned (by decide)

/-- The loop ends and accepts the language of the pattern exactly when the input, if it is in
the language, also matches with each `*` that meets a `*` spent on it. -/
theorem globMatchesCi_exact_iff (pattern input : Str) :
    (Ends '*' '?' none (toLowercase cr pattern) (toLowercase cr input)
        (globMatchesCi cr pattern input) ∧
      (globMatchesCi cr pattern input = true ↔
        Lang '*' '?' (toLowercase cr pattern) (toLowercase cr input))) ↔
    (Lang '*' '?' (toLowercase cr pattern) (toLowercase cr input) →
      Aligned '*' '?' (toLowercase cr pattern) (toLowercase cr input)) := by
  rw [globMatchesCi_iff_aligned]
  constructor
  · rintro ⟨-, hiff⟩
    exact hiff.mpr
  · intro h
    exact ⟨ends_globMatchesCi cr pattern input, Aligned.lang, h⟩

/-- The pattern `*@host` does not match the handle `*b@host`. -/
theorem star_spent_on_star :
    ¬ (globMatchesCi sample (str "*@host") (str "*b@host") = true ↔
      Lang '*' '?' (toLowercase sample (str "*@host")) (toLowercase sample (str "*b@host"))) := by
  have hhost : Lang '*' '?' (str "@host") (str "@host") :=
    .same (by decide) (by decide) <| .same (by decide) (by decide) <|
      .same (by decide) (by decide) <| .same (by decide) (by decide) <|
        .same (by decide) (by decide) .nil
  have hlang : Lang '*' '?' (str "*@host") (str "*b@host") := .any ⟨str "*b", by decide⟩ hhost
  have hrejects : globMatchesCi sample (str "*@host") (str "*b@host") = false := by decide
  rw [hrejects]
  exact fun hiff => Bool.noConfusion (hiff.mpr hlang)

/-- Handles without a `*` are matched exactly. -/
theorem globMatchesCi_of_no_star {pattern input : Str} (hs : '*' ∉ toLowercase cr input) :
    globMatchesCi cr pattern input = true ↔
      Lang '*' '?' (toLowercase cr pattern) (toLowercase cr input) := by
  rw [globMatchesCi_iff_aligned, aligned_iff_lang hs]

end Keyring

end Repartee
