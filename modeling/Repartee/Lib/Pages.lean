import Mathlib.Data.List.DropRight
import Mathlib.Data.List.Pairwise

/-!
# Paging backwards through a sorted list

A query that orders what it selects from the newest item on and takes a limited number of them
reads the end of the sorted list. A cursor that is one of the items selects what stands before it,
so page after page reads the whole list, from its end to its start.

## Main definitions

- `OrdersNewest`: what ordering the newest item first promises
- `page`: a limited number of the newest items, in their order

## Main results

- `page_eq_rtake`: a page is the end of the sorted list
- `filter_before`: what stands before a cursor
- `rtake_take_append_drop`: a page goes right before the pages that were read
-/

set_option autoImplicit false

universe u

namespace Pages

variable {α : Type u} (before : α → α → Prop)

/-- Items are ordered with the newest one first. -/
structure OrdersNewest (order : List α → List α) : Prop where
  perm : ∀ items, (order items).Perm items
  sorted : ∀ items, (order items).Pairwise (fun a b => ¬before a b)

/-- The newest items, in their order. -/
def page (order : List α → List α) (limit : Nat) (items : List α) : List α :=
  ((order items).take limit).reverse

variable {before}

/-- An ordered list of distinct items is sorted strictly. -/
theorem pairwise_reverse_order {order : List α → List α} (horder : OrdersNewest before order)
    {items : List α} (hnodup : items.Nodup)
    (htotal : ∀ a ∈ items, ∀ b ∈ items, a ≠ b → before a b ∨ before b a) :
    (order items).reverse.Pairwise before := by
  have hperm := horder.perm items
  rw [List.pairwise_reverse]
  have hne : (order items).Pairwise (fun a b => a ≠ b) := hperm.nodup_iff.mpr hnodup
  refine (hne.and (horder.sorted items)).imp_of_mem ?_
  intro a b ha hb h
  exact (htotal a (hperm.mem_iff.mp ha) b (hperm.mem_iff.mp hb) h.1).resolve_left h.2

variable (hasymm : ∀ {a b}, before a b → ¬before b a)

include hasymm in
/-- However it is ordered, a list with no two items of one rank is ordered in one way. -/
theorem order_eq_reverse {order : List α → List α} (horder : OrdersNewest before order)
    {items rows : List α} (hrows : rows.Pairwise before) (hperm : items.Perm rows) :
    order items = rows.reverse := by
  have hcomparable : ∀ a ∈ rows, ∀ b ∈ rows, a ≠ b → before a b ∨ before b a := by
    have hor : rows.Pairwise (fun a b => before a b ∨ before b a) := hrows.imp Or.inl
    have hsymm : Std.Symm (fun a b => before a b ∨ before b a) := ⟨fun _ _ => Or.symm⟩
    intro a ha b hb hne
    exact hor.forall ha hb hne
  have hperm' : (order items).Perm rows := (horder.perm items).trans hperm
  have hreverse : rows.reverse.Pairwise (fun a b => ¬before a b) := by
    rw [List.pairwise_reverse]
    exact hrows.imp hasymm
  refine List.Perm.eq_of_pairwise ?_ (horder.sorted items) hreverse
    (hperm'.trans rows.reverse_perm.symm)
  intro a b ha hb hab hba
  by_contra hne
  exact (hcomparable a (hperm'.mem_iff.mp ha) b (List.mem_reverse.mp hb) hne).elim hab hba

include hasymm in
theorem page_eq_rtake {order : List α → List α} (horder : OrdersNewest before order)
    {items rows : List α} (hrows : rows.Pairwise before) (hperm : items.Perm rows)
    (limit : Nat) : page order limit items = rows.rtake limit := by
  rw [page, order_eq_reverse hasymm horder hrows hperm, List.rtake_eq_reverse_take_reverse]

include hasymm in
/-- What stands before an item of a sorted list. -/
theorem filter_before [DecidableRel before] {pre post : List α} {cursor : α}
    (h : (pre ++ cursor :: post).Pairwise before) :
    (pre ++ cursor :: post).filter (fun a => decide (before a cursor)) = pre := by
  rw [List.pairwise_append, List.pairwise_cons] at h
  obtain ⟨-, ⟨hpost, -⟩, hpre⟩ := h
  have hkeep : pre.filter (fun a => decide (before a cursor)) = pre := by
    refine List.filter_eq_self.mpr (fun a ha => decide_eq_true ?_)
    exact hpre a ha cursor List.mem_cons_self
  have hdrop : (cursor :: post).filter (fun a => decide (before a cursor)) = [] := by
    refine List.filter_eq_nil_iff.mpr (fun a ha hbefore => ?_)
    have hlt := of_decide_eq_true hbefore
    rcases List.mem_cons.mp ha with rfl | ha
    · exact hasymm hlt hlt
    · exact hasymm hlt (hpost a ha)
  rw [List.filter_append, hkeep, hdrop, List.append_nil]

/-- With everything from a position on read, the next page is what stands right before it. -/
theorem rtake_take_append_drop {rows : List α} {k : Nat} (hk : k ≤ rows.length) (limit : Nat) :
    (rows.take k).rtake limit ++ rows.drop k = rows.drop (k - limit) := by
  have hlength : (rows.take k).length = k := List.length_take_of_le hk
  have hle : k - limit ≤ (rows.take k).length := by omega
  rw [List.rtake, hlength, ← List.drop_append_of_le_length hle, List.take_append_drop]

theorem length_rtake_take {rows : List α} {k : Nat} (hk : k ≤ rows.length) (limit : Nat) :
    ((rows.take k).rtake limit).length = min limit k := by
  rw [List.rtake, List.length_drop, List.length_take_of_le hk]
  omega

end Pages
