import Mathlib.Data.List.Basic
import Mathlib.Data.List.Induction

/-!
# Headings in a list

A list whose items have keys is shown with a heading before each item whose key is not that of the
item before it. Lists that are shown one by one are shown as one when the heading of the second is
left out, if it repeats the last key of the first.

## Main definitions

- `Line`: an item, or the heading for the key of an item
- `lines`: a list with its headings
- `HeadedOnce`: each key has one heading, right before its first item

## Main results

- `lines_append_cons`: how two lists with headings are joined
- `headedOnce_lines`: if the items of a key stand together, each key has one heading
-/

set_option autoImplicit false

universe u v w

namespace Headings

variable {α : Type u} {β : Type v}

/-- An item, or the heading of an item's key. -/
inductive Line (α : Type u) where
  | heading (first : α)
  | item (a : α)
  deriving DecidableEq

def Line.item? : Line α → Option α
  | .heading _ => none
  | .item a => some a

section Lines

variable [DecidableEq β] (key : α → β)

/-- A list with its headings, after an item of the last key. -/
def lines : Option β → List α → List (Line α)
  | _, [] => []
  | last, a :: as =>
    if last = some (key a) then .item a :: lines (some (key a)) as
    else .heading a :: .item a :: lines (some (key a)) as

theorem lines_same (a : α) (as : List α) :
    lines key (some (key a)) (a :: as) = .item a :: lines key (some (key a)) as :=
  if_pos rfl

theorem lines_of_ne {last : Option β} {a : α} (h : last ≠ some (key a)) (as : List α) :
    lines key last (a :: as) = .heading a :: .item a :: lines key (some (key a)) as :=
  if_neg h

theorem lines_none_cons (a : α) (as : List α) :
    lines key none (a :: as) = .heading a :: .item a :: lines key (some (key a)) as :=
  lines_of_ne key (Option.some_ne_none (key a)).symm as

theorem lines_append (last : Option β) (as bs : List α) :
    lines key last (as ++ bs) =
      lines key last as ++ lines key ((as.getLast?.map key).or last) bs := by
  induction as generalizing last with
  | nil => rfl
  | cons a as ih =>
    -- The last key is that of the last item of `as`, or that of `a` where `as` is empty.
    have hlast : (((a :: as).getLast?.map key).or last) =
        (as.getLast?.map key).or (some (key a)) := by
      cases as with
      | nil => rfl
      | cons a' as =>
        rw [List.getLast?_cons_cons, List.getLast?_eq_some_getLast (List.cons_ne_nil a' as)]
        rfl
    rw [hlast]
    by_cases h : last = some (key a)
    · rw [List.cons_append, lines, lines, if_pos h, if_pos h, ih, List.cons_append]
    · rw [List.cons_append, lines_of_ne key h, lines_of_ne key h, ih]
      rfl

/-- Shown after a list whose last key is that of their first item, items lose their heading. -/
theorem lines_append_cons {as : List α} {a : α} (ha : as.getLast? = some a) (b : α)
    (bs : List α) :
    lines key none (as ++ b :: bs) =
      lines key none as ++
        if key a = key b then (lines key none (b :: bs)).tail else lines key none (b :: bs) := by
  rw [lines_append, ha, lines_none_cons]
  by_cases h : key a = key b
  · rw [if_pos h, Option.map_some, Option.or_none, h, lines_same, List.tail_cons]
  · have hne : ((some a).map key).or none ≠ some (key b) := fun heq => h (Option.some.inj heq)
    rw [if_neg h, lines_of_ne key hne]

theorem lines_concat (as : List α) (a : α) :
    lines key none (as ++ [a]) =
      if as.getLast?.map key = some (key a) then lines key none as ++ [.item a]
      else lines key none as ++ [.heading a] ++ [.item a] := by
  rw [lines_append, Option.or_none]
  by_cases h : as.getLast?.map key = some (key a)
  · rw [if_pos h, h, lines_same]
    rfl
  · rw [if_neg h, lines_of_ne key h, List.append_assoc]
    rfl

end Lines

section HeadedOnce

variable (key : α → β)

/-- The items of each key stand together. -/
def Contiguous (items : List α) : Prop :=
  ∀ pre a post, items = pre ++ a :: post → ∀ b ∈ pre, key b = key a →
    pre.getLast?.map key = some (key a)

/-- Sorted items stand together by key if each key is that of a convex set of times. -/
theorem contiguous_of_sorted {τ : Type w} [LE τ] {time : α → τ} {items : List α}
    (hsorted : items.Pairwise (fun a b => time a ≤ time b))
    (hconvex : ∀ a ∈ items, ∀ b ∈ items, ∀ c ∈ items, time a ≤ time b → time b ≤ time c →
      key a = key c → key b = key c) : Contiguous key items := by
  intro pre a post heq b hb hkey
  -- The last item before `a` is between `b` and `a`, which have one key.
  obtain ⟨pre', c, rfl⟩ := pre.eq_nil_or_concat'.resolve_left (List.ne_nil_of_mem hb)
  have hmem : ∀ x ∈ pre' ++ [c], x ∈ items := by
    intro x hx
    rw [heq]
    exact List.mem_append_left _ hx
  have ha : a ∈ items := by
    rw [heq]
    exact List.mem_append_right _ List.mem_cons_self
  rw [heq, List.pairwise_append] at hsorted
  obtain ⟨hpre, -, hbefore⟩ := hsorted
  have hc : c ∈ pre' ++ [c] := List.mem_append_right _ List.mem_cons_self
  rw [List.getLast?_concat, Option.map_some]
  congr 1
  rcases List.mem_append.mp hb with hb' | hb'
  · have hbc : time b ≤ time c :=
      (List.pairwise_append.mp hpre).2.2 b hb' c List.mem_cons_self
    exact hconvex b (hmem b hb) c (hmem c hc) a ha hbc (hbefore c hc a List.mem_cons_self) hkey
  · rw [← List.mem_singleton.mp hb']
    exact hkey

/-- No item before has the key of an item. -/
def IsFirst (pre : List (Line α)) (a : α) : Prop := ∀ b, .item b ∈ pre → key b ≠ key a

/-- Each key of some items has one heading, right before its first item. -/
structure HeadedOnce (items : List α) (ls : List (Line α)) : Prop where
  /-- Headings aside, the lines are the items. -/
  items_eq : ls.filterMap Line.item? = items
  /-- An item has a heading of its key right before it exactly if it is the first of its key. -/
  item : ∀ pre a post, ls = pre ++ .item a :: post →
    ((∃ b, pre.getLast? = some (.heading b) ∧ key b = key a) ↔ IsFirst key pre a)
  /-- A heading is right before the first item of its key. -/
  heading : ∀ pre a post, ls = pre ++ .heading a :: post →
    (∃ post', post = .item a :: post') ∧ IsFirst key pre a

/-- A position of a list with one more item is the last one, or it is one of the list. -/
theorem split_concat {γ : Type u} {ls pre post : List γ} {l l' : γ}
    (h : ls ++ [l'] = pre ++ l :: post) :
    pre = ls ∧ l = l' ∧ post = [] ∨ ∃ post', post = post' ++ [l'] ∧ ls = pre ++ l :: post' := by
  rcases post.eq_nil_or_concat' with rfl | ⟨post', x, rfl⟩
  · obtain ⟨rfl, hl⟩ := List.append_inj' h rfl
    exact .inl ⟨rfl, (List.cons.inj hl).1.symm, rfl⟩
  · rw [← List.cons_append, ← List.append_assoc] at h
    obtain ⟨hls, hx⟩ := List.append_inj' h rfl
    obtain rfl := (List.cons.inj hx).1
    exact .inr ⟨post', rfl, hls⟩

namespace HeadedOnce

variable {key} {items : List α} {ls : List (Line α)} (h : HeadedOnce key items ls)

include h

theorem item_mem_iff {a : α} : .item a ∈ ls ↔ a ∈ items := by
  constructor
  · intro ha
    rw [← h.items_eq]
    exact List.mem_filterMap.mpr ⟨.item a, ha, rfl⟩
  · intro ha
    rw [← h.items_eq] at ha
    obtain ⟨l, hl, hitem⟩ := List.mem_filterMap.mp ha
    cases l with
    | heading b => exact absurd hitem.symm (Option.some_ne_none a)
    | item b =>
      obtain rfl := Option.some.inj hitem
      exact hl

/-- No heading is the last line. -/
theorem getLast?_ne_heading (a : α) : ls.getLast? ≠ some (.heading a) := by
  intro hlast
  obtain ⟨pre, rfl⟩ := List.getLast?_eq_some_iff.mp hlast
  obtain ⟨⟨post', hpost⟩, -⟩ := h.heading pre a [] rfl
  exact List.cons_ne_nil _ _ hpost.symm

/-- One more item of the last key needs no heading. -/
theorem concat_item {a : α} (hlast : items.getLast?.map key = some (key a)) :
    HeadedOnce key (items ++ [a]) (ls ++ [.item a]) := by
  refine ⟨?_, ?_, ?_⟩
  · rw [List.filterMap_append, h.items_eq]
    rfl
  · intro pre x post heq
    obtain ⟨rfl, hx, -⟩ | ⟨post', -, hls⟩ := split_concat heq
    · obtain ⟨b, hb, hkey⟩ := Option.map_eq_some_iff.mp hlast
      cases hx
      refine iff_of_false ?_ ?_
      · rintro ⟨c, hc, -⟩
        exact h.getLast?_ne_heading c hc
      · exact fun hfirst => hfirst b (h.item_mem_iff.mpr (List.mem_of_getLast? hb)) hkey
    · exact h.item pre x post' hls
  · intro pre x post heq
    obtain ⟨-, hx, -⟩ | ⟨post', rfl, hls⟩ := split_concat heq
    · cases hx
    · obtain ⟨⟨rest, hrest⟩, hfirst⟩ := h.heading pre x post' hls
      exact ⟨⟨rest ++ [.item a], by rw [hrest, List.cons_append]⟩, hfirst⟩

/-- One more item of a new key is put under its heading. -/
theorem concat_heading {a : α} (hnew : ∀ b ∈ items, key b ≠ key a) :
    HeadedOnce key (items ++ [a]) (ls ++ [.heading a] ++ [.item a]) := by
  have hfirst : IsFirst key ls a := fun b hb => hnew b (h.item_mem_iff.mp hb)
  refine ⟨?_, ?_, ?_⟩
  · rw [List.filterMap_append, List.filterMap_append, h.items_eq, List.append_assoc]
    rfl
  · intro pre x post heq
    obtain ⟨rfl, hx, -⟩ | ⟨post', -, hls⟩ := split_concat heq
    · cases hx
      refine iff_of_true ⟨a, List.getLast?_concat, rfl⟩ ?_
      intro b hb
      rcases List.mem_append.mp hb with hb | hb
      · exact hfirst b hb
      · cases List.mem_singleton.mp hb
    · obtain ⟨-, hx, -⟩ | ⟨post'', -, hls'⟩ := split_concat hls
      · cases hx
      · exact h.item pre x post'' hls'
  · intro pre x post heq
    obtain ⟨-, hx, -⟩ | ⟨post', rfl, hls⟩ := split_concat heq
    · cases hx
    · obtain ⟨rfl, hx, rfl⟩ | ⟨post'', rfl, hls'⟩ := split_concat hls
      · cases hx
        exact ⟨⟨[], rfl⟩, hfirst⟩
      · obtain ⟨⟨rest, hrest⟩, hfirst'⟩ := h.heading pre x post'' hls'
        refine ⟨⟨rest ++ [.heading a] ++ [.item a], ?_⟩, hfirst'⟩
        rw [hrest, List.cons_append, List.cons_append]

end HeadedOnce

variable [DecidableEq β] {key}

/-- **If the items of each key stand together, each key gets one heading.** -/
theorem headedOnce_lines {items : List α} (h : Contiguous key items) :
    HeadedOnce key items (lines key none items) := by
  induction items using List.reverseRecOn with
  | nil =>
    have hne : ∀ (pre post : List (Line α)) (l : Line α), [] ≠ pre ++ l :: post :=
      fun pre post l => (List.append_ne_nil_of_right_ne_nil pre (List.cons_ne_nil l post)).symm
    exact ⟨rfl, fun pre a post heq => absurd heq (hne pre post _),
      fun pre a post heq => absurd heq (hne pre post _)⟩
  | append_singleton as a ih =>
    have has : Contiguous key as := by
      intro pre x post heq
      refine h pre x (post ++ [a]) ?_
      rw [heq, List.append_assoc, List.cons_append]
    rw [lines_concat]
    split_ifs with hlast
    · exact (ih has).concat_item hlast
    · exact (ih has).concat_heading (fun b hb hkey => hlast (h as a [] rfl b hb hkey))

end HeadedOnce

end Headings
