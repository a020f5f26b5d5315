import Mathlib.Data.List.Sort
import Mathlib.Order.Defs.LinearOrder
import Mathlib.Tactic.Tauto

/-!
# The newest items, with ties

Items have a time. An order puts the newest first and items of one time as it likes. The first `n`
items are the same in every order exactly when no tie can change them.

## Main definitions

- `SortsDesc`: what is known of an order
- `IsNewest`: a list has the newest items, and ties do not matter

## Main results

- `newest_iff`: every order has a list in front exactly when it `IsNewest`
-/

set_option autoImplicit false

universe u v

namespace Newest

variable {α : Type u} {τ : Type v} [LinearOrder τ] (time : α → τ)

/-- The newest come first. -/
structure SortsDesc (order : List α → List α) : Prop where
  perm : ∀ items, (order items).Perm items
  sorted : ∀ items, (order items).Pairwise (fun a b => time b ≤ time a)

/-- A list has the newest `n` items of another one, in the order of their times, and no other item
is of a time with one of them. -/
structure IsNewest (items : List α) (n : Nat) (l : List α) : Prop where
  subset : ∀ a ∈ l, a ∈ items
  increasing : l.Pairwise (fun a b => time a < time b)
  older : ∀ b ∈ items, b ∉ l → l.length = n ∧ ∀ a ∈ l, time b < time a

section Order

variable [DecidableEq α]

/-- Newest first; the item `x` is put before the others of its time. -/
def PrefersTo (x a b : α) : Prop := time b < time a ∨ time b = time a ∧ (a = x ∨ b ≠ x)

instance (x a b : α) : Decidable (PrefersTo time x a b) := inferInstanceAs (Decidable (_ ∨ _))

/-- An order that puts one item before the others of its time. -/
def preferring (x : α) (items : List α) : List α := items.insertionSort (PrefersTo time x)

theorem pairwise_preferring (x : α) (items : List α) :
    (preferring time x items).Pairwise (PrefersTo time x) := by
  have htotal : Std.Total (PrefersTo time x) := ⟨fun a b => by
    rcases lt_trichotomy (time a) (time b) with hlt | heq | hlt
    · exact .inr (.inl hlt)
    · by_cases ha : a = x
      · exact .inl (.inr ⟨heq.symm, .inl ha⟩)
      · exact .inr (.inr ⟨heq, .inr ha⟩)
    · exact .inl (.inl hlt)⟩
  have htrans : IsTrans α (PrefersTo time x) := ⟨fun a b c hab hbc => by
    rcases hab with hab | ⟨hab, hx⟩
    · rcases hbc with hbc | ⟨hbc, -⟩
      · exact .inl (hbc.trans hab)
      · exact .inl (hbc ▸ hab)
    · rcases hbc with hbc | ⟨hbc, hx'⟩
      · exact .inl (hab ▸ hbc)
      · refine .inr ⟨hbc.trans hab, ?_⟩
        by_cases hc : c = x
        · exact .inl (hx.resolve_right (not_not.mpr (hx'.resolve_right (not_not.mpr hc))))
        · exact .inr hc⟩
  exact List.pairwise_insertionSort _ items

theorem sortsDesc_preferring (x : α) : SortsDesc time (preferring time x) := by
  refine ⟨fun items => List.perm_insertionSort _ items, fun items => ?_⟩
  refine (pairwise_preferring time x items).imp (fun {a b} hab => ?_)
  rcases hab with hlt | ⟨heq, -⟩
  · exact hlt.le
  · exact heq.le

end Order

variable {time} {items l : List α} {n : Nat}

/-- A list in which what has a property comes first. -/
theorem filter_append_filter_not {p : α → Bool} {items : List α}
    (h : items.Pairwise (fun a b => p b = true → p a = true)) :
    items.filter p ++ items.filter (fun a => !p a) = items := by
  induction items with
  | nil => rfl
  | cons a rest ih =>
    obtain ⟨hhead, htail⟩ := List.pairwise_cons.mp h
    by_cases hp : p a = true
    · simp [hp, ih htail]
    · have hnone : ∀ b ∈ rest, p b = false := fun b hb =>
        Bool.eq_false_iff.mpr (fun hpb => hp (hhead b hb hpb))
      have hall : rest.filter (fun a => !p a) = rest :=
        List.filter_eq_self.mpr (fun b hb => by simp [hnone b hb])
      have hempty : rest.filter p = [] :=
        List.filter_eq_nil_iff.mpr (fun b hb => by simp [hnone b hb])
      simp [hp, hall, hempty]

variable [DecidableEq α]

theorem IsNewest.take_reverse (h : IsNewest time items n l) (hitems : items.Nodup)
    (hlen : l.length ≤ n) {order : List α → List α} (horder : SortsDesc time order) :
    ((order items).take n).reverse = l := by
  have hperm := horder.perm items
  have hsorted := horder.sorted items
  have hl : l.Nodup := h.increasing.imp (fun {a b} hlt (hab : a = b) =>
    absurd hlt (hab ▸ lt_irrefl (time a)))
  -- the rest of the items stands behind the list
  have hsplit : (order items).filter (· ∈ l) ++ (order items).filter (fun a => !decide (a ∈ l)) =
      order items := by
    refine filter_append_filter_not (List.Pairwise.imp_of_mem (fun {a b} ha _ hle => ?_) hsorted)
    intro hb
    by_contra hnot
    have hnotl : a ∉ l := fun hmem => hnot (decide_eq_true hmem)
    have hlt := (h.older a (hperm.subset ha) hnotl).2 b (of_decide_eq_true hb)
    exact absurd hle (not_le.mpr hlt)
  have hfront : (order items).filter (· ∈ l) = l.reverse := by
    have hmem : ∀ a, a ∈ (order items).filter (· ∈ l) ↔ a ∈ l.reverse := by
      intro a
      rw [List.mem_filter, List.mem_reverse, decide_eq_true_eq]
      exact and_iff_right_of_imp (fun ha => hperm.symm.subset (h.subset a ha))
    have hperm' : ((order items).filter (· ∈ l)).Perm l.reverse :=
      (List.perm_ext_iff_of_nodup ((hperm.symm.nodup hitems).filter _)
        (List.nodup_reverse.mpr hl)).mpr hmem
    have hsame : ∀ a b, a ∈ (order items).filter (· ∈ l) → b ∈ l.reverse → time b ≤ time a →
        time a ≤ time b → a = b := by
      intro a b ha hb hba hab
      have htime : time a = time b := le_antisymm hab hba
      by_contra hne
      have hlt := List.pairwise_iff_getElem.mp h.increasing
      obtain ⟨i, hi, rfl⟩ := List.getElem_of_mem (List.mem_reverse.mp ((hmem a).mp ha))
      obtain ⟨j, hj, rfl⟩ := List.getElem_of_mem (List.mem_reverse.mp hb)
      rcases lt_trichotomy i j with hij | hij | hij
      · exact absurd htime (hlt i j hi hj hij).ne
      · subst hij
        exact hne rfl
      · exact absurd htime (hlt j i hj hi hij).ne'
    refine List.Perm.eq_of_pairwise hsame (hsorted.filter _) ?_ hperm'
    exact List.pairwise_reverse.mpr (h.increasing.imp (fun hlt => hlt.le))
  have htake : (order items).take n = l.reverse := by
    by_cases hfull : l.length = n
    · rw [← hsplit, hfront, ← hfull, ← List.length_reverse, List.take_left]
    · have hnone : (order items).filter (fun a => !decide (a ∈ l)) = [] := by
        refine List.filter_eq_nil_iff.mpr (fun a ha hnot => hfull ?_)
        have hnotl : a ∉ l := by simpa using hnot
        exact (h.older a (hperm.subset ha) hnotl).1
      rw [← hsplit, hfront, hnone, List.append_nil]
      exact List.take_of_length_le (by rwa [List.length_reverse])
  rw [htake, List.reverse_reverse]

/-- **Ties do not matter**: every order has the reverse of a list in front exactly when the list
has the newest items and is not tied with others. -/
theorem newest_iff (hitems : items.Nodup) (hlen : l.length ≤ n) (hl : l.Nodup) :
    (∀ order, SortsDesc time order → ((order items).take n).reverse = l) ↔
      IsNewest time items n l := by
  refine ⟨fun h => ?_, fun h order horder => h.take_reverse hitems hlen horder⟩
  have htake : ∀ x, (preferring time x items).take n = l.reverse := fun x => by
    rw [← h _ (sortsDesc_preferring time x), List.reverse_reverse]
  have hsub : ∀ a ∈ l, a ∈ items := by
    intro a ha
    have hmem : a ∈ (preferring time a items).take n := by
      rw [htake a]
      exact List.mem_reverse.mpr ha
    exact ((sortsDesc_preferring time a).perm items).subset (List.mem_of_mem_take hmem)
  refine ⟨hsub, ?_, ?_⟩
  · -- an order that prefers an item would put it behind a later one of its time
    have hpairs : ∀ x, l.reverse.Pairwise (PrefersTo time x) := fun x => by
      rw [← htake x]
      exact (pairwise_preferring time x items).sublist (List.take_sublist _ _)
    refine List.pairwise_iff_getElem.mpr (fun i j hi hj hij => ?_)
    have hprefers := List.pairwise_iff_getElem.mp (List.pairwise_reverse.mp (hpairs l[i])) i j hi hj
      hij
    rcases hprefers with hlt | ⟨-, hx⟩
    · exact hlt
    · have hne : l[j] ≠ l[i] := fun heq => hij.ne' (hl.getElem_inj_iff.mp heq)
      exact absurd rfl (hx.resolve_left hne)
  · intro b hb hnot
    have hdrop : ∀ x, b ∈ (preferring time x items).drop n := by
      intro x
      have hmem : b ∈ preferring time x items :=
        ((sortsDesc_preferring time x).perm items).symm.subset hb
      rw [← List.take_append_drop n (preferring time x items)] at hmem
      refine (List.mem_append.mp hmem).resolve_left (fun htaken => hnot ?_)
      rw [htake x] at htaken
      exact List.mem_reverse.mp htaken
    refine ⟨?_, fun a ha => ?_⟩
    · have hlong : n < (preferring time b items).length := by
        by_contra hshort
        have hnil : (preferring time b items).drop n = [] :=
          List.drop_eq_nil_iff.mpr (not_lt.mp hshort)
        exact absurd (hnil ▸ hdrop b) List.not_mem_nil
      have hcount : ((preferring time b items).take n).length = n := by
        rw [List.length_take, min_eq_left hlong.le]
      rwa [htake b, List.length_reverse] at hcount
    · -- an order that prefers the other item would put it in front
      have hmem : a ∈ (preferring time b items).take n := by
        rw [htake b]
        exact List.mem_reverse.mpr ha
      have hpairs := pairwise_preferring time b items
      rw [← List.take_append_drop n (preferring time b items)] at hpairs
      rcases (List.pairwise_append.mp hpairs).2.2 a hmem b (hdrop b) with hlt | ⟨-, hx⟩
      · exact hlt
      · have hne : a ≠ b := fun heq => hnot (heq ▸ ha)
        exact absurd rfl (hx.resolve_left hne)

end Newest
