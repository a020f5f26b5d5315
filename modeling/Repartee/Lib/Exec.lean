import Mathlib.Order.Defs.Unbundled
import Mathlib.Logic.Basic

/-!
# Computations that update a state and may fail

Rules for `EStateM`: a computation that throws keeps the writes it has made so far, so a fact
about *every* outcome is a fact about `final`, the state left behind by a return and by a throw
alike. `Moves R x` says that `x` takes each state to an `R`-related one. With a reflexive and
transitive `R` it is closed under sequencing, branching and loops, and both invariants
(`R s s' := P s → P s'`) and frame conditions (`R s s' := f s' = f s`) are instances.

## Main definitions

- `Exec.query`: read the state, or fail
- `Exec.update`: replace the state, or fail and leave it as it was
- `Exec.require`, `Exec.runIf`: early exits and conditional statements
- `Exec.attempt`: catch a failure
- `Exec.final`: the state a computation leaves behind
- `Exec.Returns`: the computation does not throw
- `Exec.Moves`: every state is taken to a related one
-/

set_option autoImplicit false

universe u

namespace Exec

variable {ε σ α β : Type u}

/-- What returns from a sequence returned from both of its parts. -/
theorem except_bind_ok {x : Except ε α} {f : α → Except ε β} {b : β}
    (h : x >>= f = .ok b) : ∃ a, x = .ok a ∧ f a = .ok b := by
  cases x with
  | error err => simp [bind, Except.bind] at h
  | ok a => exact ⟨a, rfl, h⟩

/-- Read the state with a partial function. -/
def query (f : σ → Except ε α) : EStateM ε σ α := fun s =>
  match f s with
  | .ok a => .ok a s
  | .error e => .error e s

/-- Replace the state by a partial function of it; a failure leaves the state unchanged. -/
def update (f : σ → Except ε σ) : EStateM ε σ PUnit := fun s =>
  match f s with
  | .ok s' => .ok ⟨⟩ s'
  | .error e => .error e s

/-- Fail unless a condition holds. -/
def require (c : Bool) (e : ε) : EStateM ε σ PUnit := if c then pure ⟨⟩ else throw e

/-- Run a computation only if a condition holds. -/
def runIf (c : Bool) (x : EStateM ε σ PUnit) : EStateM ε σ PUnit := if c then x else pure ⟨⟩

/-- Turn a throw into a returned value; the writes made before it stay. -/
def attempt (x : EStateM ε σ α) : EStateM ε σ (Except ε α) := fun s =>
  match x s with
  | .ok a s' => .ok (.ok a) s'
  | .error e s' => .ok (.error e) s'

/-- The state left behind, by a return or by a throw. -/
def final (x : EStateM ε σ α) (s : σ) : σ :=
  match x.run s with
  | .ok _ s' => s'
  | .error _ s' => s'

/-- The returned value, if the computation returns. -/
def value? (x : EStateM ε σ α) (s : σ) : Option α :=
  match x.run s with
  | .ok a _ => some a
  | .error _ _ => none

/-! ### Outcomes -/

theorem final_of_ok {x : EStateM ε σ α} {s s' : σ} {a : α} (h : x.run s = .ok a s') :
    final x s = s' := by
  simp [final, h]

theorem final_of_error {x : EStateM ε σ α} {s s' : σ} {e : ε} (h : x.run s = .error e s') :
    final x s = s' := by
  simp [final, h]

theorem value?_eq_some_iff {x : EStateM ε σ α} {s : σ} {a : α} :
    value? x s = some a ↔ x.run s = .ok a (final x s) := by
  unfold value? final
  cases h : x.run s <;> simp

theorem bind_of_ok {x : EStateM ε σ α} {f : α → EStateM ε σ β} {s s' : σ} {a : α}
    (h : x.run s = .ok a s') : (x >>= f).run s = (f a).run s' := by
  rw [EStateM.run_bind, h]

theorem bind_of_error {x : EStateM ε σ α} {f : α → EStateM ε σ β} {s s' : σ} {e : ε}
    (h : x.run s = .error e s') : (x >>= f).run s = .error e s' := by
  rw [EStateM.run_bind, h]

/-- A sequence only depends on the outcome of its first part. -/
theorem bind_of_run_eq {x y : EStateM ε σ α} {s s' : σ} (h : x.run s = y.run s')
    (f : α → EStateM ε σ β) : (x >>= f).run s = (y >>= f).run s' := by
  rw [EStateM.run_bind, EStateM.run_bind, h]

/-- A sequence returns exactly when both of its parts do. -/
theorem bind_eq_ok_iff {x : EStateM ε σ α} {f : α → EStateM ε σ β} {s s'' : σ} {b : β} :
    (x >>= f).run s = .ok b s'' ↔
      ∃ a s', x.run s = .ok a s' ∧ (f a).run s' = .ok b s'' := by
  rw [EStateM.run_bind]
  cases h : x.run s with
  | ok a s' =>
    constructor
    · intro hb
      exact ⟨a, s', rfl, hb⟩
    · rintro ⟨a', t, ⟨rfl, rfl⟩, hb⟩
      exact hb
  | error e s' => simp

/-- A sequence throws exactly when one of its parts does. -/
theorem bind_eq_error_iff {x : EStateM ε σ α} {f : α → EStateM ε σ β} {s s'' : σ} {e : ε} :
    (x >>= f).run s = .error e s'' ↔
      x.run s = .error e s'' ∨ ∃ a s', x.run s = .ok a s' ∧ (f a).run s' = .error e s'' := by
  rw [EStateM.run_bind]
  cases h : x.run s with
  | ok a s' =>
    constructor
    · intro hb
      exact .inr ⟨a, s', rfl, hb⟩
    · rintro (hx | ⟨a', t, ⟨rfl, rfl⟩, hb⟩)
      · cases hx
      · exact hb
  | error e' s' => simp

theorem final_bind (x : EStateM ε σ α) (f : α → EStateM ε σ β) (s : σ) :
    final (x >>= f) s =
      match x.run s with
      | .ok a s' => final (f a) s'
      | .error _ s' => s' := by
  unfold final
  rw [EStateM.run_bind]
  cases x.run s <;> rfl

theorem final_bind_of_ok {x : EStateM ε σ α} {f : α → EStateM ε σ β} {s s' : σ} {a : α}
    (h : x.run s = .ok a s') : final (x >>= f) s = final (f a) s' := by
  rw [final_bind, h]

theorem final_bind_of_error {x : EStateM ε σ α} {f : α → EStateM ε σ β} {s s' : σ} {e : ε}
    (h : x.run s = .error e s') : final (x >>= f) s = s' := by
  rw [final_bind, h]

/-- Mapping the returned value does not change the state left behind. -/
theorem final_bind_pure (x : EStateM ε σ α) (f : α → β) (s : σ) :
    final (x >>= fun a => pure (f a)) s = final x s := by
  rw [final_bind, final]
  cases x.run s <;> rfl

@[simp] theorem final_pure (a : α) (s : σ) : final (pure a : EStateM ε σ α) s = s := rfl

@[simp] theorem final_throw (e : ε) (s : σ) : final (throw e : EStateM ε σ α) s = s := rfl

@[simp] theorem run_throw (e : ε) (s : σ) :
    (throw e : EStateM ε σ α).run s = .error e s := rfl

@[simp] theorem final_modify (f : σ → σ) (s : σ) :
    final (modify f : EStateM ε σ PUnit) s = f s := rfl

theorem run_query (f : σ → Except ε α) (s : σ) :
    (query f).run s = match f s with | .ok a => .ok a s | .error e => .error e s := rfl

theorem run_query_of_ok {f : σ → Except ε α} {s : σ} {a : α} (h : f s = .ok a) :
    (query f).run s = .ok a s := by
  rw [run_query, h]

theorem run_query_of_error {f : σ → Except ε α} {s : σ} {e : ε} (h : f s = .error e) :
    (query f).run s = .error e s := by
  rw [run_query, h]

theorem run_query_eq_ok_iff {f : σ → Except ε α} {s s' : σ} {a : α} :
    (query f).run s = .ok a s' ↔ f s = .ok a ∧ s' = s := by
  rw [run_query]
  cases h : f s with
  | error e => simp
  | ok b => simp [eq_comm]

@[simp] theorem final_query (f : σ → Except ε α) (s : σ) : final (query f) s = s := by
  rw [final, run_query]
  cases f s <;> rfl

theorem run_update (f : σ → Except ε σ) (s : σ) :
    (update f).run s = match f s with | .ok s' => .ok ⟨⟩ s' | .error e => .error e s := rfl

theorem run_update_of_ok {f : σ → Except ε σ} {s s' : σ} (h : f s = .ok s') :
    (update f).run s = .ok ⟨⟩ s' := by
  rw [run_update, h]

theorem run_update_eq_ok_iff {f : σ → Except ε σ} {s s' : σ} {u : PUnit} :
    (update f).run s = .ok u s' ↔ f s = .ok s' := by
  rw [run_update]
  cases h : f s with
  | error e => simp
  | ok b => simp

theorem final_update (f : σ → Except ε σ) (s : σ) :
    final (update f) s = match f s with | .ok s' => s' | .error _ => s := by
  rw [final, run_update]
  cases f s <;> rfl

theorem run_require (c : Bool) (e : ε) (s : σ) :
    (require c e).run s = if c then .ok ⟨⟩ s else .error e s := by
  cases c <;> rfl

@[simp] theorem final_require (c : Bool) (e : ε) (s : σ) : final (require c e) s = s := by
  cases c <;> rfl

theorem run_require_of_true {c : Bool} (h : c = true) (e : ε) (s : σ) :
    (require c e).run s = .ok ⟨⟩ s := by
  rw [run_require, if_pos h]

theorem run_require_of_false {c : Bool} (h : c = false) (e : ε) (s : σ) :
    (require c e).run s = .error e s := by
  rw [run_require, h]
  rfl

theorem run_require_eq_ok_iff {c : Bool} {e : ε} {s s' : σ} {u : PUnit} :
    (require c e).run s = .ok u s' ↔ c = true ∧ s' = s := by
  cases c <;> simp [run_require, eq_comm]

theorem runIf_true (x : EStateM ε σ PUnit) : runIf true x = x := rfl

theorem final_runIf (c : Bool) (x : EStateM ε σ PUnit) (s : σ) :
    final (runIf c x) s = if c then final x s else s := by
  cases c <;> rfl

theorem run_attempt (x : EStateM ε σ α) (s : σ) :
    (attempt x).run s =
      match x.run s with
      | .ok a s' => .ok (.ok a) s'
      | .error e s' => .ok (.error e) s' := rfl

/-- An attempt always returns. -/
theorem exists_run_attempt (x : EStateM ε σ α) (s : σ) :
    ∃ r, (attempt x).run s = .ok r (final x s) := by
  rw [run_attempt, final]
  cases x.run s with
  | ok a s' => exact ⟨.ok a, rfl⟩
  | error e s' => exact ⟨.error e, rfl⟩

@[simp] theorem final_attempt (x : EStateM ε σ α) (s : σ) : final (attempt x) s = final x s := by
  rw [final, final, run_attempt]
  cases x.run s <;> rfl

/-! ### Computations that return -/

/-- The computation returns, it does not throw. -/
def Returns (x : EStateM ε σ α) (s : σ) : Prop := ∃ a s', x.run s = .ok a s'

instance (x : EStateM ε σ α) (s : σ) : Decidable (Returns x s) :=
  match h : x.run s with
  | .ok a s' => isTrue ⟨a, s', h⟩
  | .error e s' => isFalse (by
      rintro ⟨a, s'', hok⟩
      rw [hok] at h
      cases h)

/-- A computation that does not return throws. -/
theorem exists_error_of_not_returns {x : EStateM ε σ α} {s : σ} (h : ¬ Returns x s) :
    ∃ e, x.run s = .error e (final x s) := by
  cases hx : x.run s with
  | ok a s' => exact absurd ⟨a, s', hx⟩ h
  | error e s' => exact ⟨e, by rw [final_of_error hx]⟩

theorem returns_of_ok {x : EStateM ε σ α} {s s' : σ} {a : α} (h : x.run s = .ok a s') :
    Returns x s := ⟨a, s', h⟩

theorem returns_bind_iff {x : EStateM ε σ α} {f : α → EStateM ε σ β} {s : σ} :
    Returns (x >>= f) s ↔ ∃ a s', x.run s = .ok a s' ∧ Returns (f a) s' := by
  constructor
  · rintro ⟨b, s'', h⟩
    obtain ⟨a, s', hx, hf⟩ := (bind_eq_ok_iff).mp h
    exact ⟨a, s', hx, returns_of_ok hf⟩
  · rintro ⟨a, s', hx, b, s'', hf⟩
    exact ⟨b, s'', (bind_eq_ok_iff).mpr ⟨a, s', hx, hf⟩⟩

theorem returns_pure (a : α) (s : σ) : Returns (pure a : EStateM ε σ α) s := ⟨a, s, rfl⟩

/-- A sequence whose first part surely returns depends on its second part. -/
theorem returns_bind_of_ok {x : EStateM ε σ α} {f : α → EStateM ε σ β} {s s' : σ} {a : α}
    (h : x.run s = .ok a s') : Returns (x >>= f) s ↔ Returns (f a) s' := by
  rw [Returns, Returns, bind_of_ok h]

theorem returns_bind_pure {x : EStateM ε σ α} {f : α → β} {s : σ} :
    Returns (x >>= fun a => pure (f a)) s ↔ Returns x s := by
  rw [returns_bind_iff]
  constructor
  · rintro ⟨a, s', hx, -⟩
    exact ⟨a, s', hx⟩
  · rintro ⟨a, s', hx⟩
    exact ⟨a, s', hx, returns_pure _ _⟩

theorem returns_runIf_iff {c : Bool} {x : EStateM ε σ PUnit} {s : σ} :
    Returns (runIf c x) s ↔ (c = true → Returns x s) := by
  cases c with
  | false => simpa [runIf] using returns_pure _ _
  | true => simp [runIf]

/-- A loop returns if and only if every iteration does, where an iteration's success does not
depend on the state it starts in. -/
theorem returns_forM_iff {f : α → EStateM ε σ PUnit} {P : α → Prop}
    (h : ∀ a s, Returns (f a) s ↔ P a) (l : List α) (s : σ) :
    Returns (l.forM f) s ↔ ∀ a ∈ l, P a := by
  induction l generalizing s with
  | nil => simpa using returns_pure _ _
  | cons a l ih =>
    show Returns (f a >>= fun _ => l.forM f) s ↔ _
    rw [returns_bind_iff, List.forall_mem_cons]
    constructor
    · rintro ⟨u, s', ha, hl⟩
      exact ⟨(h a s).mp (returns_of_ok ha), (ih s').mp hl⟩
    · rintro ⟨ha, hl⟩
      obtain ⟨u, s', ha⟩ := (h a s).mpr ha
      exact ⟨u, s', ha, (ih s').mpr hl⟩

/-! ### Moves -/

/-- Every state is taken to an `R`-related one, whatever the outcome. -/
def Moves (R : σ → σ → Prop) (x : EStateM ε σ α) : Prop := ∀ s, R s (final x s)

variable {R : σ → σ → Prop}

/-- The sequencing rule at one state: the second part only needs to move from the states that
the first part returns in. -/
theorem rel_final_bind [IsTrans σ R] {x : EStateM ε σ α} {f : α → EStateM ε σ β} {s : σ}
    (hx : R s (final x s)) (hf : ∀ a s', x.run s = .ok a s' → R s' (final (f a) s')) :
    R s (final (x >>= f) s) := by
  rw [final_bind]
  cases h : x.run s with
  | ok a s' =>
    rw [final_of_ok h] at hx
    exact IsTrans.trans _ _ _ hx (hf a s' h)
  | error e s' =>
    rw [final_of_error h] at hx
    exact hx

/-- Sequencing after a computation that returns without moving the state. -/
theorem rel_final_query_bind {f : σ → Except ε α} {g : α → EStateM ε σ β} [Std.Refl R] {s : σ}
    (h : ∀ a, f s = .ok a → R s (final (g a) s)) : R s (final (query f >>= g) s) := by
  rw [final_bind]
  cases hf : f s with
  | ok a => simpa [run_query_of_ok hf] using h a hf
  | error e => simpa [run_query_of_error hf] using Std.Refl.refl s

theorem Moves.bind [IsTrans σ R] {x : EStateM ε σ α} {f : α → EStateM ε σ β}
    (hx : Moves R x) (hf : ∀ a, Moves R (f a)) : Moves R (x >>= f) := fun s =>
  rel_final_bind (hx s) (fun a s' _ => hf a s')

theorem Moves.pure [Std.Refl R] (a : α) : Moves R (Pure.pure a : EStateM ε σ α) := fun s =>
  Std.Refl.refl s

theorem Moves.throw [Std.Refl R] (e : ε) :
    Moves R (MonadExcept.throw e : EStateM ε σ α) := fun s => Std.Refl.refl s

theorem Moves.query [Std.Refl R] (f : σ → Except ε α) :
    Moves R (query f : EStateM ε σ α) := fun s => by
  rw [final_query]
  exact Std.Refl.refl s

theorem Moves.update [Std.Refl R] {f : σ → Except ε σ} (h : ∀ s s', f s = .ok s' → R s s') :
    Moves R (update f) := fun s => by
  rw [final_update]
  cases hf : f s with
  | ok s' => exact h s s' hf
  | error e => exact Std.Refl.refl s

theorem Moves.require [Std.Refl R] (c : Bool) (e : ε) : Moves R (require c e) := fun s => by
  rw [final_require]
  exact Std.Refl.refl s

theorem Moves.runIf [Std.Refl R] {c : Bool} {x : EStateM ε σ PUnit} (hx : c = true → Moves R x) :
    Moves R (runIf c x) := fun s => by
  rw [final_runIf]
  split
  · exact hx ‹_› s
  · exact Std.Refl.refl s

theorem Moves.attempt {x : EStateM ε σ α} (hx : Moves R x) : Moves R (attempt x) := fun s => by
  rw [final_attempt]
  exact hx s

theorem Moves.modify {f : σ → σ} (h : ∀ s, R s (f s)) :
    Moves R (modify f : EStateM ε σ PUnit) := h

theorem Moves.modifyGet {f : σ → α × σ} (h : ∀ s, R s (f s).2) :
    Moves R (modifyGet f : EStateM ε σ α) := h

theorem Moves.get [Std.Refl R] : Moves R (get : EStateM ε σ σ) := fun s =>
  Std.Refl.refl s

theorem Moves.ite {c : Prop} [Decidable c] {x y : EStateM ε σ α} (hx : c → Moves R x)
    (hy : ¬ c → Moves R y) : Moves R (if c then x else y) := by
  by_cases h : c
  · rw [if_pos h]; exact hx h
  · rw [if_neg h]; exact hy h

/-- The loop rule: an iteration that moves along `R` for every element makes a loop that does. -/
theorem Moves.forM [Std.Refl R] [IsTrans σ R] {f : α → EStateM ε σ PUnit}
    (hf : ∀ a, Moves R (f a)) : ∀ l : List α, Moves R (l.forM f)
  | [] => Moves.pure _
  | a :: l => (hf a).bind (fun _ => Moves.forM hf l)

/-- The loop rule with the elements that are visited. -/
theorem Moves.forM_mem [Std.Refl R] [IsTrans σ R] {f : α → EStateM ε σ PUnit} (l : List α)
    (hf : ∀ a ∈ l, Moves R (f a)) : Moves R (l.forM f) := by
  induction l with
  | nil => exact Moves.pure _
  | cons a l ih =>
    refine (hf a List.mem_cons_self).bind (fun _ => ih (fun b hb => ?_))
    exact hf b (List.mem_cons_of_mem a hb)

theorem Moves.mono {R' : σ → σ → Prop} {x : EStateM ε σ α} (h : Moves R x)
    (hR : ∀ s s', R s s' → R' s s') : Moves R' x := fun s => hR _ _ (h s)

/-- A returned state is related to the one the computation started in. -/
theorem Moves.of_ok {x : EStateM ε σ α} (h : Moves R x) {s s' : σ} {a : α}
    (hx : x.run s = .ok a s') : R s s' := final_of_ok hx ▸ h s

/-! ### Invariants and frames -/

/-- The relation of an invariant: `P` is not lost. -/
def Keeps (P : σ → Prop) (s s' : σ) : Prop := P s → P s'

instance (P : σ → Prop) : Std.Refl (Keeps P) := ⟨fun _ h => h⟩

instance (P : σ → Prop) : IsTrans σ (Keeps P) := ⟨fun _ _ _ h h' hp => h' (h hp)⟩

/-- The relation of a frame condition: the part `f` of the state is not written. -/
def Frame {τ : Type*} (f : σ → τ) (s s' : σ) : Prop := f s' = f s

instance {τ : Type*} (f : σ → τ) : Std.Refl (Frame f) := ⟨fun _ => rfl⟩

instance {τ : Type*} (f : σ → τ) : IsTrans σ (Frame f) := ⟨fun _ _ _ h h' => Eq.trans h' h⟩

end Exec
