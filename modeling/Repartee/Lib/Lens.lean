import Mathlib.Data.List.Basic

/-!
# Parts of a record that are shown and set as text

A part of a record is shown as a text, and set from one that may not be legible. The laws of such a
pair follow from those of the part, which is a lens, and of the code between its values and texts.

## Main definitions

- `Lens.IsLens`: a part that can be replaced
- `Lens.Code`: reading a value from a text and writing it as one
- `Lens.Settles`, `Lens.Stable`, `Lens.Keeps`: what setting should do to what is shown

## Main results

- `Lens.Coded.settles`, `Lens.Coded.stable_iff`, `Lens.Coded.keeps`: the laws of a coded part
- `Lens.IsLens.settles`, `Lens.IsLens.stable_iff`, `Lens.IsLens.keeps`: the laws of a part of a part
-/

set_option autoImplicit false

universe u v w

namespace Lens

variable {σ : Type u} {τ : Type v} {α : Type w} {ε : Type}

/-- A part that can be replaced. -/
structure IsLens (get : σ → α) (put : σ → α → σ) : Prop where
  get_put : ∀ s v, get (put s v) = v
  put_get : ∀ s, put s (get s) = s
  put_put : ∀ s v w, put (put s v) w = put s w

/-- How a value is read from a text, and written as one. -/
structure Code (ε : Type) (α : Type w) where
  read : List Char → Except ε α
  write : α → List Char

/-- A value that was read is read again from what is written for it. -/
def Code.Settles (c : Code ε α) : Prop :=
  ∀ raw v, c.read raw = .ok v → c.read (c.write v) = .ok v

/-- Reading what is written for a value gives that value, if it gives one. -/
def Code.Fixes (c : Code ε α) (v : α) : Prop := ∀ w, c.read (c.write v) = .ok w → w = v

/-! ### Showing and setting -/

section Laws

variable (view : σ → List Char) (set : σ → List Char → Except ε σ)

/-- Setting what is shown after something was set does nothing more. -/
def Settles : Prop := ∀ s raw s', set s raw = .ok s' → set s' (view s') = .ok s'

/-- Setting what is shown changes nothing. -/
def Stable (s : σ) : Prop := ∀ s', set s (view s) = .ok s' → s' = s

/-- Setting does not change something else. -/
def Keeps {β : Type*} (other : σ → β) : Prop :=
  ∀ s raw s', set s raw = .ok s' → other s' = other s

end Laws

theorem map_eq_ok {f : α → σ} {x : Except ε α} {s : σ} (h : x.map f = .ok s) :
    ∃ v, x = .ok v ∧ f v = s := by
  cases x with
  | error e => cases h
  | ok v => exact ⟨v, rfl, Except.ok.inj h⟩

/-! ### A coded part -/

/-- A part that is shown and set through a code. -/
structure Coded (c : Code ε α) (get : σ → α) (put : σ → α → σ) (view : σ → List Char)
    (set : σ → List Char → Except ε σ) : Prop extends IsLens get put where
  view_eq : ∀ s, view s = c.write (get s)
  set_eq : ∀ s raw, set s raw = (c.read raw).map (put s)

section

variable {c : Code ε α} {get : σ → α} {put : σ → α → σ} {view : σ → List Char}
  {set : σ → List Char → Except ε σ}

theorem Coded.settles (h : Coded c get put view set) (hc : c.Settles) : Settles view set := by
  intro s raw s' hset
  rw [h.set_eq] at hset
  obtain ⟨v, hv, rfl⟩ := map_eq_ok hset
  rw [h.set_eq, h.view_eq, h.get_put, hc raw v hv]
  exact congrArg Except.ok (h.put_put s v v)

theorem Coded.stable_iff (h : Coded c get put view set) {s : σ} :
    Stable view set s ↔ c.Fixes (get s) := by
  rw [Stable, h.view_eq]
  constructor
  · intro hstable w hw
    have hput := hstable (put s w) (by rw [h.set_eq, hw]; rfl)
    rw [← hput, h.get_put]
  · intro hfixes s' hset
    rw [h.set_eq] at hset
    obtain ⟨v, hv, rfl⟩ := map_eq_ok hset
    rw [hfixes v hv, h.put_get]

theorem Coded.keeps (h : Coded c get put view set) {β : Type*} {other : σ → β}
    (hother : ∀ s v, other (put s v) = other s) : Keeps set other := by
  intro s raw s' hset
  rw [h.set_eq] at hset
  obtain ⟨v, -, rfl⟩ := map_eq_ok hset
  exact hother s v

end

/-! ### A part of a part -/

section

variable {get : τ → σ} {put : τ → σ → τ} {view : σ → List Char}
  {set : σ → List Char → Except ε σ}

theorem IsLens.settles (h : IsLens get put) (hset : Settles view set) :
    Settles (fun t => view (get t)) (fun t raw => (set (get t) raw).map (put t)) := by
  intro t raw t' heq
  obtain ⟨s, hs, rfl⟩ := map_eq_ok heq
  dsimp only
  rw [h.get_put, hset _ _ _ hs]
  exact congrArg Except.ok (h.put_put t s s)

theorem IsLens.stable_iff (h : IsLens get put) {t : τ} :
    Stable (fun t => view (get t)) (fun t raw => (set (get t) raw).map (put t)) t ↔
      Stable view set (get t) := by
  constructor
  · intro hstable s hs
    have hput := hstable (put t s) (by dsimp only; rw [hs]; rfl)
    rw [← h.get_put t s, hput]
  · intro hstable t' heq
    obtain ⟨s, hs, rfl⟩ := map_eq_ok heq
    rw [hstable s hs, h.put_get]

theorem IsLens.keeps (h : IsLens get put) {β : Type*} {other : σ → β} (hset : Keeps set other) :
    Keeps (fun t raw => (set (get t) raw).map (put t)) (fun t => other (get t)) := by
  intro t raw t' heq
  obtain ⟨s, hs, rfl⟩ := map_eq_ok heq
  dsimp only
  rw [h.get_put]
  exact hset _ _ _ hs

/-- What setting a part cannot reach. -/
theorem keeps_of_put {β : Type*} {other : τ → β} (hother : ∀ t s, other (put t s) = other t) :
    Keeps (fun t raw => (set (get t) raw).map (put t)) other := by
  intro t raw t' heq
  obtain ⟨s, -, rfl⟩ := map_eq_ok heq
  exact hother t s

end

end Lens
