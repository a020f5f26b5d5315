import Mathlib.Data.List.Basic
import Mathlib.Data.List.InsertIdx
import Mathlib.Data.List.Perm.Basic

/-!
# Queues in the order of priority

A queue has its items in the order of their keys, the highest first, and items of one key in the
order they came in. There are two ways to keep it so: to put a new item before the first one of a
lower key, and to append it and sort with a stable sort. They agree.

## Main definitions

- `sortDesc`: the stable sort
- `insertDesc`: the insertion
- `Ranked`: the order of a queue whose items are numbered as they come in

## Main results

- `filterMap_insertDesc`: the insertion does not look at more than the keys
- `sortDesc_concat`: sorting the queue with a new item at its end inserts the item
- `ranked_insertDesc`: the insertion of the youngest item keeps the queue in order
-/

set_option autoImplicit false

universe u v

namespace Priority

variable {α : Type u} (key : α → Int)

/-- The highest key comes first. -/
def Falling (l : List α) : Prop := l.Pairwise (fun a b => key b ≤ key a)

/-- The stable sort that puts the highest key first. -/
def sortDesc (l : List α) : List α := l.mergeSort (fun a b => decide (key b ≤ key a))

/-- Put an item before the first one of a lower key. -/
def insertDesc (x : α) (l : List α) : List α :=
  l.insertIdx (l.findIdx (fun a => decide (key a < key x))) x

section Sorting

@[simp] theorem sortDesc_nil : sortDesc key [] = [] := List.mergeSort_nil

theorem falling_sortDesc (l : List α) : Falling key (sortDesc key l) := by
  have hsorted := @List.pairwise_mergeSort α (fun a b => decide (key b ≤ key a))
    (fun a b c hab hbc => by simp only [decide_eq_true_eq] at *; omega)
    (fun a b => by simp only [Bool.or_eq_true, decide_eq_true_eq]; omega) l
  exact hsorted.imp (fun {a b} h => of_decide_eq_true h)

/-- An item in front of a list comes before all items of its key. -/
theorem sortDesc_cons (a : α) (l : List α) : ∃ l₁ l₂, sortDesc key (a :: l) = l₁ ++ a :: l₂ ∧
    sortDesc key l = l₁ ++ l₂ ∧ ∀ b ∈ l₁, key a < key b := by
  obtain ⟨l₁, l₂, hcons, hl, hlow⟩ :=
    @List.mergeSort_cons α (fun a b => decide (key b ≤ key a))
      (fun a b c hab hbc => by simp only [decide_eq_true_eq] at *; omega)
      (fun a b => by simp only [Bool.or_eq_true, decide_eq_true_eq]; omega) a l
  refine ⟨l₁, l₂, hcons, hl, fun b hb => ?_⟩
  have hnot := hlow b hb
  simp only [Bool.not_eq_true', decide_eq_false_iff_not] at hnot
  omega

end Sorting

section Insert

variable (x : α)

@[simp] theorem insertDesc_nil : insertDesc key x [] = [x] := rfl

theorem insertDesc_cons (a : α) (l : List α) : insertDesc key x (a :: l) =
    if key a < key x then x :: a :: l else a :: insertDesc key x l := by
  by_cases h : key a < key x
  · simp [insertDesc, List.findIdx_cons, h]
  · simp [insertDesc, List.findIdx_cons, h]

theorem insertDesc_perm (l : List α) : (insertDesc key x l).Perm (x :: l) := by
  induction l with
  | nil => exact .refl _
  | cons a l ih =>
    rw [insertDesc_cons]
    split
    · exact .refl _
    · exact (ih.cons a).trans (.swap x a l)

@[simp] theorem mem_insertDesc {a : α} {l : List α} :
    a ∈ insertDesc key x l ↔ a = x ∨ a ∈ l := by
  rw [(insertDesc_perm key x l).mem_iff, List.mem_cons]

/-- Items may be replaced by others of the same keys. -/
theorem filterMap_insertDesc {β : Type v} (key' : β → Int) {f : α → Option β} {y : β}
    (hx : f x = some y) (hy : key' y = key x) {l : List α}
    (hl : ∀ a ∈ l, ∃ b, f a = some b ∧ key' b = key a) :
    (insertDesc key x l).filterMap f = insertDesc key' y (l.filterMap f) := by
  induction l with
  | nil => simp [hx]
  | cons a l ih =>
    obtain ⟨b, hb, hkey⟩ := hl a List.mem_cons_self
    have hrest := ih (fun c hc => hl c (List.mem_cons_of_mem a hc))
    rw [insertDesc_cons, List.filterMap_cons_some hb, insertDesc_cons, hkey, hy]
    split
    · rw [List.filterMap_cons_some hx, List.filterMap_cons_some hb]
    · rw [List.filterMap_cons_some hb, hrest]

/-- A key above all others goes in front. -/
theorem insertDesc_of_lt {l : List α} (h : ∀ a ∈ l, key a < key x) :
    insertDesc key x l = x :: l := by
  cases l with
  | nil => rfl
  | cons a l => rw [insertDesc_cons, if_pos (h a List.mem_cons_self)]

end Insert

/-- **Sorting is insertion**: to append an item to a queue and sort it is to put the item before
the first one of a lower key. -/
theorem sortDesc_concat {l : List α} (hl : Falling key l) (x : α) :
    sortDesc key (l ++ [x]) = insertDesc key x l := by
  induction l with
  | nil => exact List.mergeSort_singleton x
  | cons a l ih =>
    have hle : ∀ b ∈ l, key b ≤ key a := (List.pairwise_cons.mp hl).1
    obtain ⟨l₁, l₂, hcons, hsort, hlow⟩ := sortDesc_cons key a (l ++ [x])
    rw [ih (List.pairwise_cons.mp hl).2] at hsort
    rw [List.cons_append, hcons, insertDesc_cons]
    -- only `x` may overtake `a`
    by_cases hx : key a < key x
    · rw [if_pos hx]
      rw [insertDesc_of_lt key x (fun b hb => Int.lt_of_le_of_lt (hle b hb) hx)] at hsort
      cases l₁ with
      | nil =>
        obtain rfl : l₂ = x :: l := by simpa using hsort.symm
        have hfall := falling_sortDesc key (a :: (l ++ [x]))
        rw [hcons] at hfall
        have hax := (List.pairwise_cons.mp hfall).1 x List.mem_cons_self
        omega
      | cons y l₁ =>
        obtain ⟨rfl, hl₁⟩ := List.cons.inj hsort
        cases l₁ with
        | nil => rw [hl₁]; rfl
        | cons z l₁ =>
          have hz := hlow z (List.mem_cons_of_mem _ List.mem_cons_self)
          have hza := hle z (hl₁ ▸ List.mem_cons_self)
          omega
    · rw [if_neg hx]
      cases l₁ with
      | nil => exact congrArg (a :: ·) hsort.symm
      | cons y l₁ =>
        have hy := hlow y List.mem_cons_self
        have hmem : y ∈ insertDesc key x l := hsort ▸ List.mem_cons_self
        rcases (mem_insertDesc key x).mp hmem with rfl | hmem
        · exact absurd hy hx
        · have hya := hle y hmem
          omega

section Ranked

variable (age : α → Nat)

/-- The highest key comes first, and of two items of one key the older. -/
def Before (a b : α) : Prop := key b < key a ∨ key b = key a ∧ age a < age b

/-- A queue whose items are numbered as they come in. -/
def Ranked (l : List α) : Prop := l.Pairwise (Before key age)

theorem Ranked.falling {l : List α} (h : Ranked key age l) : Falling key l := by
  refine List.Pairwise.imp (fun {a b} hab => ?_) h
  rcases hab with hlt | ⟨heq, -⟩
  · exact Int.le_of_lt hlt
  · exact Int.le_of_eq heq

theorem ranked_insertDesc {x : α} {l : List α} (h : Ranked key age l)
    (hx : ∀ a ∈ l, age a < age x) : Ranked key age (insertDesc key x l) := by
  induction l with
  | nil => exact List.pairwise_singleton _ _
  | cons a l ih =>
    obtain ⟨ha, hl⟩ := List.pairwise_cons.mp h
    rw [insertDesc_cons]
    split
    · rename_i hax
      refine List.pairwise_cons.mpr ⟨fun b hb => .inl ?_, h⟩
      rcases List.mem_cons.mp hb with rfl | hb
      · exact hax
      · rcases ha b hb with hba | ⟨hba, -⟩ <;> omega
    · rename_i hax
      refine List.pairwise_cons.mpr
        ⟨fun b hb => ?_, ih hl (fun b hb => hx b (List.mem_cons_of_mem a hb))⟩
      rcases (mem_insertDesc key x).mp hb with rfl | hb
      · rcases Int.lt_or_eq_of_le (Int.not_lt.mp hax) with hlt | heq
        · exact .inl hlt
        · exact .inr ⟨heq, hx a List.mem_cons_self⟩
      · exact ha b hb

/-- The queue says which of two items is the older one, so none is in it twice. -/
theorem Ranked.nodup {l : List α} (h : Ranked key age l) : l.Nodup := by
  refine List.Pairwise.imp (fun {a b} hab heq => ?_) h
  subst heq
  rcases hab with hlt | ⟨-, hlt⟩
  · exact Int.lt_irrefl _ hlt
  · exact Nat.lt_irrefl _ hlt

end Ranked

end Priority
