import Repartee.Lib.Exec

/-!
# What a computation sees

Relational rules for `EStateM`. A view `φ` is the part of the state that an observer knows.
`Sim φ V x y` relates the runs of `x` and `y` from any two states with the same view: both return,
with `V`-related values, or both throw the same error, and the views stay the same. `Sees φ x` is
the case of one computation: its outcome and what it makes of the view depend on the view alone.
A computation is `Confined φ ψ` when it also leaves the part `ψ` as it is.

## Main definitions

- `Exec.outcome`: the returned value, or the error
- `Exec.Sim`, `Exec.Sees`: two runs from states with the same view
- `Exec.Confined`: what is seen, and what is not written

## Main results

- `Exec.Sim.bind`, `Exec.Sim.get_bind`: the sequencing rules
- `Exec.Confined.bind`, `Exec.Confined.forM`: sequences and loops are confined to what their
  parts are
-/

set_option autoImplicit false

universe u

namespace Exec

variable {ε σ α β : Type u}

/-- The returned value, or the error. -/
def outcome (x : EStateM ε σ α) (s : σ) : Except ε α :=
  match x.run s with
  | .ok a _ => .ok a
  | .error e _ => .error e

variable {τ υ : Type*} {φ : σ → τ} {ψ : σ → υ}

/-- Two runs that end alike, in states with the same view. -/
inductive Agree (φ : σ → τ) (V : α → β → Prop) :
    EStateM.Result ε σ α → EStateM.Result ε σ β → Prop where
  | ok {a : α} {b : β} {s t : σ} : V a b → φ s = φ t → Agree φ V (.ok a s) (.ok b t)
  | error {e : ε} {s t : σ} : φ s = φ t → Agree φ V (.error e s) (.error e t)

/-- From states with the same view, two computations end alike. -/
def Sim (φ : σ → τ) (V : α → β → Prop) (x : EStateM ε σ α) (y : EStateM ε σ β) : Prop :=
  ∀ s t, φ s = φ t → Agree φ V (x.run s) (y.run t)

/-- The outcome of a computation, and what it makes of a view, depend on the view alone. -/
def Sees (φ : σ → τ) (x : EStateM ε σ α) : Prop := Sim φ Eq x x

theorem Agree.final_eq {V : α → β → Prop} {x : EStateM ε σ α} {y : EStateM ε σ β} {s t : σ}
    (h : Agree φ V (x.run s) (y.run t)) : φ (final x s) = φ (final y t) := by
  unfold final
  generalize x.run s = r at h
  generalize y.run t = r' at h
  cases h with
  | ok hV hst => exact hst
  | error hst => exact hst

theorem Agree.outcome_eq {x y : EStateM ε σ α} {s t : σ}
    (h : Agree φ Eq (x.run s) (y.run t)) : outcome x s = outcome y t := by
  unfold outcome
  generalize x.run s = r at h
  generalize y.run t = r' at h
  cases h with
  | ok hV hst => exact congrArg Except.ok hV
  | error hst => rfl

/-! ### Two runs -/

theorem Sim.mono {V W : α → β → Prop} {x : EStateM ε σ α} {y : EStateM ε σ β} (h : Sim φ V x y)
    (hVW : ∀ a b, V a b → W a b) : Sim φ W x y := by
  intro s t hst
  have hr := h s t hst
  generalize x.run s = r at hr
  generalize y.run t = r' at hr
  cases hr with
  | ok hV hst' => exact .ok (hVW _ _ hV) hst'
  | error hst' => exact .error hst'

/-- Sequences end alike when their parts do. -/
theorem Sim.bind {α' β' : Type u} {V : α → β → Prop} {W : α' → β' → Prop} {x : EStateM ε σ α}
    {y : EStateM ε σ β} {f : α → EStateM ε σ α'} {g : β → EStateM ε σ β'} (hxy : Sim φ V x y)
    (hfg : ∀ a b, V a b → Sim φ W (f a) (g b)) : Sim φ W (x >>= f) (y >>= g) := by
  intro s t hst
  have h := hxy s t hst
  rw [EStateM.run_bind, EStateM.run_bind]
  generalize x.run s = r at h
  generalize y.run t = r' at h
  cases h with
  | ok hV hst' => exact hfg _ _ hV _ _ hst'
  | error hst' => exact .error hst'

theorem Sim.pure {V : α → β → Prop} {a : α} {b : β} (h : V a b) :
    Sim φ V (Pure.pure a : EStateM ε σ α) (Pure.pure b) := fun _ _ hst => .ok h hst

/-- Reading the whole state is harmless where the rest of the computation reads the view. -/
theorem Sim.get_bind {V : α → β → Prop} {f : σ → EStateM ε σ α} {g : σ → EStateM ε σ β}
    (h : ∀ s t, φ s = φ t → Sim φ V (f s) (g t)) : Sim φ V (get >>= f) (get >>= g) := by
  intro s t hst
  exact h s t hst s t hst

/-- Overwriting two states with states of the same view. -/
theorem Sim.set {s t : σ} (h : φ s = φ t) :
    Sim φ Eq (MonadStateOf.set s : EStateM ε σ PUnit) (MonadStateOf.set t) :=
  fun _ _ _ => .ok rfl h

theorem Sim.modifyGet {V : α → β → Prop} {f : σ → α × σ} {g : σ → β × σ}
    (h : ∀ s t, φ s = φ t → V (f s).1 (g t).1 ∧ φ (f s).2 = φ (g t).2) :
    Sim φ V (MonadStateOf.modifyGet f : EStateM ε σ α) (MonadStateOf.modifyGet g) := by
  intro s t hst
  obtain ⟨hV, hφ⟩ := h s t hst
  exact .ok hV hφ

/-! ### One computation -/

theorem Sees.bind {x : EStateM ε σ α} {f : α → EStateM ε σ β} (hx : Sees φ x)
    (hf : ∀ a, Sees φ (f a)) : Sees φ (x >>= f) :=
  Sim.bind hx (fun a _ hab => hab ▸ hf a)

theorem Sees.query {f : σ → Except ε α} (h : ∀ s t, φ s = φ t → f s = f t) :
    Sees φ (query f) := by
  intro s t hst
  rw [run_query, run_query, h s t hst]
  cases f t with
  | ok a => exact .ok rfl hst
  | error e => exact .error hst

/-- A statement whose success depends on the view, and what it makes of the view as well. -/
theorem Sees.update {f : σ → Except ε σ}
    (h : ∀ s t, φ s = φ t → (f s).map φ = (f t).map φ) : Sees φ (update f) := by
  intro s t hst
  have hf := h s t hst
  rw [run_update, run_update]
  cases hs : f s with
  | ok s' =>
    cases ht : f t with
    | ok t' =>
      rw [hs, ht] at hf
      exact .ok rfl (Except.ok.inj hf)
    | error e =>
      rw [hs, ht] at hf
      cases hf
  | error e =>
    cases ht : f t with
    | ok t' =>
      rw [hs, ht] at hf
      cases hf
    | error e' =>
      rw [hs, ht] at hf
      obtain rfl : e = e' := Except.error.inj hf
      exact .error hst

/-- A caught failure is part of the outcome. -/
theorem Sees.attempt {x : EStateM ε σ α} (hx : Sees φ x) : Sees φ (attempt x) := by
  intro s t hst
  have h := hx s t hst
  rw [run_attempt, run_attempt]
  generalize x.run s = r at h
  generalize x.run t = r' at h
  cases h with
  | ok hV hst' => exact .ok (congrArg Except.ok hV) hst'
  | error hst' => exact .ok rfl hst'

theorem Sees.throw (e : ε) : Sees φ (MonadExcept.throw e : EStateM ε σ α) :=
  fun _ _ hst => .error hst

theorem Sees.modifyGet {f : σ → α × σ}
    (h : ∀ s t, φ s = φ t → (f s).1 = (f t).1 ∧ φ (f s).2 = φ (f t).2) :
    Sees φ (MonadStateOf.modifyGet f : EStateM ε σ α) := Sim.modifyGet h

/-! ### Confinement -/

/-- The computation sees at most the view `φ`, and leaves the part `ψ` of the state as it is. -/
structure Confined (φ : σ → τ) (ψ : σ → υ) (x : EStateM ε σ α) : Prop where
  sees : Sees φ x
  frame : Moves (Frame ψ) x

namespace Confined

theorem bind {x : EStateM ε σ α} {f : α → EStateM ε σ β} (hx : Confined φ ψ x)
    (hf : ∀ a, Confined φ ψ (f a)) : Confined φ ψ (x >>= f) :=
  ⟨hx.sees.bind (fun a => (hf a).sees), hx.frame.bind (fun a => (hf a).frame)⟩

theorem pure (a : α) : Confined φ ψ (Pure.pure a : EStateM ε σ α) :=
  ⟨Sim.pure rfl, Moves.pure a⟩

theorem throw (e : ε) : Confined φ ψ (MonadExcept.throw e : EStateM ε σ α) :=
  ⟨Sees.throw e, Moves.throw e⟩

theorem query {f : σ → Except ε α} (h : ∀ s t, φ s = φ t → f s = f t) :
    Confined φ ψ (query f) := ⟨Sees.query h, Moves.query f⟩

theorem require (c : Bool) (e : ε) : Confined φ ψ (require c e) := by
  refine ⟨?_, Moves.require c e⟩
  cases c with
  | true => exact Sim.pure rfl
  | false => exact Sees.throw e

theorem runIf {c : Bool} {x : EStateM ε σ PUnit} (hx : Confined φ ψ x) :
    Confined φ ψ (runIf c x) := by
  cases c with
  | true => exact hx
  | false => exact pure _

theorem attempt {x : EStateM ε σ α} (hx : Confined φ ψ x) : Confined φ ψ (attempt x) :=
  ⟨hx.sees.attempt, hx.frame.attempt⟩

theorem modifyGet {f : σ → α × σ}
    (h : ∀ s t, φ s = φ t → (f s).1 = (f t).1 ∧ φ (f s).2 = φ (f t).2)
    (hψ : ∀ s, ψ (f s).2 = ψ s) :
    Confined φ ψ (MonadStateOf.modifyGet f : EStateM ε σ α) :=
  ⟨Sees.modifyGet h, Moves.modifyGet hψ⟩

theorem modify {f : σ → σ} (h : ∀ s t, φ s = φ t → φ (f s) = φ (f t))
    (hψ : ∀ s, ψ (f s) = ψ s) : Confined φ ψ (modify f : EStateM ε σ PUnit) :=
  modifyGet (fun s t hst => ⟨rfl, h s t hst⟩) hψ

/-- Reading the whole state is harmless where the rest of the computation is the same for states
with the same view. -/
theorem get_bind {f : σ → EStateM ε σ α} (h : ∀ s t, φ s = φ t → f s = f t)
    (hf : ∀ s, Confined φ ψ (f s)) : Confined φ ψ (get >>= f) := by
  refine ⟨Sim.get_bind (fun s t hst => ?_), Moves.get.bind (fun s => (hf s).frame)⟩
  rw [h s t hst]
  exact (hf t).sees

theorem ite {c : Prop} [Decidable c] {x y : EStateM ε σ α} (hx : Confined φ ψ x)
    (hy : Confined φ ψ y) : Confined φ ψ (if c then x else y) := by
  by_cases h : c
  · rw [if_pos h]; exact hx
  · rw [if_neg h]; exact hy

/-- The loop rule. -/
theorem forM {f : α → EStateM ε σ PUnit} (hf : ∀ a, Confined φ ψ (f a)) (l : List α) :
    Confined φ ψ (l.forM f) := by
  induction l with
  | nil => exact pure _
  | cons a l ih => exact (hf a).bind (fun _ => ih)

end Confined

end Exec
