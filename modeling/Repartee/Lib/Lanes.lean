import Repartee.Lib.Run
import Mathlib.Data.List.Pairwise

/-!
# Two ways to one sink

Items get a number when they start. Each has a key, and goes to a sink either at once or through
a queue, in which items can be lost. The items of one key arrive in the order of their numbers
as long as none goes at once while another of its key is in the queue.

## Main definitions

- `Lanes`: the queue and the sink
- `Lanes.InOrder`: the numbers of each key increase
- `Lanes.InTurn`: an item overtakes nothing

## Main results

- `Lanes.sound_direct_iff`: what goes at once keeps the order exactly when it overtakes nothing
- `Lanes.Sound.arrived_inOrder`: the order of what has arrived
-/

set_option autoImplicit false

universe u

namespace Lanes

/-- The numbers of each key increase. -/
def InOrder {κ : Type u} (items : List (Nat × κ)) : Prop :=
  items.Pairwise (fun a b => a.2 = b.2 → a.1 < b.1)

namespace InOrder

variable {κ : Type u} {items rest : List (Nat × κ)}

theorem append_iff : InOrder (items ++ rest) ↔
    InOrder items ∧ InOrder rest ∧ ∀ a ∈ items, ∀ b ∈ rest, a.2 = b.2 → a.1 < b.1 :=
  List.pairwise_append

theorem sublist (h : InOrder items) (hsub : rest.Sublist items) : InOrder rest :=
  List.Pairwise.sublist hsub h

/-- The newest item goes to the end. -/
theorem concat {n : Nat} (h : InOrder items) (hlt : ∀ a ∈ items, a.1 < n) (k : κ) :
    InOrder (items ++ [(n, k)]) := by
  refine (append_iff).mpr ⟨h, List.pairwise_singleton _ _, fun a ha b hb _ => ?_⟩
  rw [List.mem_singleton.mp hb]
  exact hlt a ha

end InOrder

end Lanes

/-- What waits in the queue and what has arrived. -/
structure Lanes (κ : Type u) where
  count : Nat
  queue : List (Nat × κ)
  arrived : List (Nat × κ)

namespace Lanes

variable {κ : Type u}

inductive Act (κ : Type u) where
  | enter (k : κ)
  | direct (k : κ)
  /-- It takes a number and goes nowhere. -/
  | vanish
  | leave
  | lose (i : Nat)

def step (s : Lanes κ) : Act κ → Lanes κ
  | .enter k => { s with count := s.count + 1, queue := s.queue ++ [(s.count, k)] }
  | .direct k => { s with count := s.count + 1, arrived := s.arrived ++ [(s.count, k)] }
  | .vanish => { s with count := s.count + 1 }
  | .leave => { s with queue := s.queue.drop 1, arrived := s.arrived ++ s.queue.take 1 }
  | .lose i => { s with queue := s.queue.eraseIdx i }

/-- An item that goes at once finds no other of its key in the queue. -/
def InTurn (s : Lanes κ) : Act κ → Prop
  | .direct k => ∀ a ∈ s.queue, a.2 ≠ k
  | _ => True

/-- What has arrived and what is to come is in order. -/
structure Sound (s : Lanes κ) : Prop where
  fresh : ∀ a ∈ s.arrived ++ s.queue, a.1 < s.count
  inOrder : InOrder (s.arrived ++ s.queue)

variable {s : Lanes κ}

/-- What goes at once keeps the order exactly when it overtakes nothing. -/
theorem sound_direct_iff (h : s.Sound) (k : κ) :
    (s.step (.direct k)).Sound ↔ ∀ a ∈ s.queue, a.2 ≠ k := by
  constructor
  · intro hdirect a ha hk
    have hnew : (s.count, k) ∈ s.arrived ++ [(s.count, k)] := List.mem_concat_self
    have hbehind := (InOrder.append_iff.mp hdirect.inOrder).2.2 _ hnew a ha hk.symm
    have hfresh := h.fresh a (List.mem_append_right _ ha)
    exact absurd hbehind (Nat.not_lt.mpr (Nat.le_of_lt hfresh))
  · intro hnone
    obtain ⟨harrived, hqueue, hcross⟩ := InOrder.append_iff.mp h.inOrder
    refine ⟨fun a ha => ?_, InOrder.append_iff.mpr ⟨?_, hqueue, fun a ha b hb hkey => ?_⟩⟩
    · have hmem : a ∈ s.arrived ++ s.queue ∨ a = (s.count, k) := by
        simp only [step, List.mem_append, List.mem_singleton] at ha ⊢
        tauto
      rcases hmem with hold | rfl
      · exact Nat.lt_succ_of_lt (h.fresh a hold)
      · exact Nat.lt_succ_self _
    · exact harrived.concat (fun a ha => h.fresh a (List.mem_append_left _ ha)) k
    · rcases List.mem_append.mp ha with ha | ha
      · exact hcross a ha b hb hkey
      · rw [List.mem_singleton.mp ha] at hkey
        exact absurd hkey.symm (hnone b hb)

/-- What is in a smaller system of the same count, is sound. -/
theorem Sound.of_sublist {s' : Lanes κ} (h : s.Sound) (hcount : s.count ≤ s'.count)
    (hsub : (s'.arrived ++ s'.queue).Sublist (s.arrived ++ s.queue)) : s'.Sound :=
  ⟨fun a ha => Nat.lt_of_lt_of_le (h.fresh a (hsub.subset ha)) hcount, h.inOrder.sublist hsub⟩

theorem sound_step (h : s.Sound) {a : Act κ} (hturn : s.InTurn a) : (s.step a).Sound := by
  cases a with
  | enter k =>
    have hcat : (s.step (.enter k)).arrived ++ (s.step (.enter k)).queue =
        (s.arrived ++ s.queue) ++ [(s.count, k)] := (List.append_assoc _ _ _).symm
    refine ⟨fun a ha => ?_, ?_⟩
    · rw [hcat] at ha
      rcases List.mem_append.mp ha with ha | ha
      · exact Nat.lt_succ_of_lt (h.fresh a ha)
      · rw [List.mem_singleton.mp ha]
        exact Nat.lt_succ_self _
    · rw [hcat]
      exact h.inOrder.concat h.fresh k
  | direct k => exact (sound_direct_iff h k).mpr hturn
  | vanish => exact h.of_sublist (Nat.le_succ _) (List.Sublist.refl _)
  | leave =>
    refine h.of_sublist (Nat.le_refl _) ?_
    rw [step, List.append_assoc, List.take_append_drop]
  | lose i =>
    exact h.of_sublist (Nat.le_refl _)
      ((List.Sublist.refl _).append (List.eraseIdx_sublist _ _))

/-- The items of each key have arrived in order. -/
theorem Sound.arrived_inOrder (h : s.Sound) : InOrder s.arrived :=
  h.inOrder.sublist (List.sublist_append_left _ _)

end Lanes
