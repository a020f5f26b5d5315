import Mathlib.Data.List.Basic

/-!
# Runs of a deterministic system

A system is a function `step : σ → ι → σ` that answers one input. Its runs are the folds of
`step` over lists of inputs. A guard `G : σ → ι → Prop` is a condition on an input in the state
it arrives in; `Guarded step G s is` says that every input of the run meets it.

## Main results

- `Run.invariant`: what every step keeps holds after every run
- `Run.Guarded.invariant`: what every guarded step keeps holds after every guarded run
- `Run.exists_step_of_switch`: a property that a run establishes is established by one of its
  steps
- `Run.related_iff`: two systems stay related as long as the guard is met that keeps them so
-/

set_option autoImplicit false

universe u v

namespace Run

variable {σ : Type u} {ι : Type v} {step : σ → ι → σ}

/-- The state after a list of inputs. -/
def run (step : σ → ι → σ) (s : σ) (is : List ι) : σ := is.foldl step s

@[simp] theorem run_nil (s : σ) : run step s [] = s := rfl

@[simp] theorem run_cons (s : σ) (i : ι) (is : List ι) :
    run step s (i :: is) = run step (step s i) is := rfl

theorem run_append (s : σ) (is js : List ι) :
    run step s (is ++ js) = run step (run step s is) js := List.foldl_append

/-- Every input of the run meets the guard in the state it arrives in. -/
def Guarded (step : σ → ι → σ) (G : σ → ι → Prop) : σ → List ι → Prop
  | _, [] => True
  | s, i :: is => G s i ∧ Guarded step G (step s i) is

variable {G : σ → ι → Prop} {P : σ → Prop}

theorem guarded_append {s : σ} {is js : List ι} :
    Guarded step G s (is ++ js) ↔ Guarded step G s is ∧ Guarded step G (run step s is) js := by
  induction is generalizing s with
  | nil => simp [Guarded]
  | cons i is ih => simp [Guarded, ih, and_assoc]

/-- A run is guarded exactly when each of its inputs meets the guard where it arrives. -/
theorem guarded_iff {s : σ} {is : List ι} :
    Guarded step G s is ↔ ∀ pre i post, is = pre ++ i :: post → G (run step s pre) i := by
  constructor
  · rintro h pre i post rfl
    exact ((guarded_append).mp h).2.1
  · intro h
    induction is generalizing s with
    | nil => trivial
    | cons i is ih =>
      refine ⟨h [] i is rfl, ih (fun pre j post hj => ?_)⟩
      exact h (i :: pre) j post (hj ▸ rfl)

theorem Guarded.mono {G' : σ → ι → Prop} (hG : ∀ s i, G s i → G' s i) {is : List ι} :
    ∀ {s : σ}, Guarded step G s is → Guarded step G' s is := by
  induction is with
  | nil => exact fun _ => trivial
  | cons i is ih => exact fun h => ⟨hG _ _ h.1, ih h.2⟩

/-- **Invariant rule**: what every step keeps holds after every run. -/
theorem invariant (hstep : ∀ s i, P s → P (step s i)) {s : σ} (hs : P s) (is : List ι) :
    P (run step s is) := by
  induction is generalizing s with
  | nil => exact hs
  | cons i is ih => exact ih (hstep s i hs)

/-- **Guarded invariant rule**: what every guarded step keeps holds after every guarded run. -/
theorem Guarded.invariant (hstep : ∀ s i, P s → G s i → P (step s i)) {is : List ι} :
    ∀ {s : σ}, P s → Guarded step G s is → P (run step s is) := by
  induction is with
  | nil => exact fun hs _ => hs
  | cons i is ih => exact fun hs h => ih (hstep _ _ hs h.1) h.2

/-- A property that does not hold at the start of a run and holds at its end is established by
one of the steps. -/
theorem exists_step_of_switch {s : σ} {is : List ι} (hs : ¬ P s) (he : P (run step s is)) :
    ∃ pre i post, is = pre ++ i :: post ∧ ¬ P (run step s pre) ∧
      P (step (run step s pre) i) := by
  induction is generalizing s with
  | nil => exact absurd he hs
  | cons i is ih =>
    by_cases hi : P (step s i)
    · exact ⟨[], i, is, rfl, hs, hi⟩
    · obtain ⟨pre, j, post, rfl, hpre, hpost⟩ := ih hi he
      exact ⟨i :: pre, j, post, rfl, hpre, hpost⟩

/-- **Simulation rule**: if the guard says which steps keep two systems related, it says in which
runs they are related all the way. -/
theorem related_iff {τ : Type*} {step' : τ → ι → τ} {R : σ → τ → Prop} {G : τ → ι → Prop}
    (hstep : ∀ s t i, R s t → (R (step s i) (step' t i) ↔ G t i)) {s : σ} {t : τ} (h : R s t)
    (is : List ι) :
    (∀ pre, pre <+: is → R (run step s pre) (run step' t pre)) ↔ Guarded step' G t is := by
  induction is generalizing s t with
  | nil =>
    refine iff_of_true ?_ trivial
    intro pre hpre
    rw [List.prefix_nil.mp hpre]
    exact h
  | cons i is ih =>
    constructor
    · intro hall
      have hnext : R (step s i) (step' t i) := hall [i] (List.prefix_append [i] is)
      refine ⟨(hstep s t i h).mp hnext, (ih hnext).mp fun pre hpre => ?_⟩
      exact hall (i :: pre) ((List.prefix_cons_inj i).mpr hpre)
    · rintro ⟨hi, his⟩ pre hpre
      cases pre with
      | nil => exact h
      | cons j pre =>
        obtain ⟨rfl, htail⟩ := List.cons_prefix_cons.mp hpre
        exact (ih ((hstep s t j h).mpr hi)).mpr his pre htail

end Run
