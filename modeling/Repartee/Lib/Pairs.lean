import Mathlib.Data.List.Basic
import Mathlib.Algebra.Group.Nat.Even

/-!
# Lists in which labels stand in pairs

Some elements of a list have a label. The list is paired if the labelled elements, read from the
left, come in twos: an element and right behind it another with the same label. Where such a list
can be cut is decided by the elements on the two sides of the cut, except within a run of one
label, where it is decided by parity.

## Main definitions

- `Paired f as is`: the labelled elements of `as` are pairs, with the labels `is`
- `AllLabelled f i as`: every element has the label `i`

## Main results

- `Paired.split_of_ne`: a cut between different labels keeps both parts paired
- `Paired.split_even`: so does a cut behind an even number of elements of one label
- `Paired.length_of_allLabelled`: elements of one label are paired only if they are even in number
-/

set_option autoImplicit false

universe u v

variable {α : Type u} {ι : Type v}

/-- The labelled elements stand in pairs, whose labels are `is`. -/
inductive Paired (f : α → Option ι) : List α → List ι → Prop where
  | nil : Paired f [] []
  | plain {a : α} {as : List α} {is : List ι} (ha : f a = none) (rest : Paired f as is) :
      Paired f (a :: as) is
  | pair {a b : α} {i : ι} {as : List α} {is : List ι} (ha : f a = some i) (hb : f b = some i)
      (rest : Paired f as is) : Paired f (a :: b :: as) (i :: is)

/-- Every element has the label `i`. -/
def AllLabelled (f : α → Option ι) (i : ι) (as : List α) : Prop := ∀ a ∈ as, f a = some i

namespace Paired

variable {f : α → Option ι} {as bs : List α} {is js : List ι}

theorem append (h : Paired f as is) (h' : Paired f bs js) : Paired f (as ++ bs) (is ++ js) := by
  induction h with
  | nil => exact h'
  | plain ha _ ih => exact .plain ha ih
  | pair ha hb _ ih => exact .pair ha hb ih

theorem of_plain (h : ∀ a ∈ as, f a = none) : Paired f as [] := by
  induction as with
  | nil => exact .nil
  | cons a as ih =>
    obtain ⟨ha, has⟩ := List.forall_mem_cons.mp h
    exact .plain ha (ih has)

/-- A list is paired in one way. -/
theorem unique (h : Paired f as is) (h' : Paired f as js) : is = js := by
  induction h generalizing js with
  | nil =>
    cases h'
    rfl
  | plain ha _ ih =>
    cases h' with
    | plain _ rest => exact ih rest
    | pair ha' => simp [ha] at ha'
  | pair ha hb _ ih =>
    cases h' with
    | plain ha' => simp [ha] at ha'
    | pair ha' _ rest =>
      rw [ha] at ha'
      rw [Option.some.inj ha', ih rest]

theorem plain_iff {a : α} (ha : f a = none) : Paired f (a :: as) is ↔ Paired f as is := by
  constructor
  · intro h
    cases h with
    | plain _ rest => exact rest
    | pair ha' => simp [ha] at ha'
  · exact .plain ha

theorem map_iff {β : Type*} {g : β → α} {bs : List β} :
    Paired f (bs.map g) is ↔ Paired (f ∘ g) bs is := by
  constructor
  · intro h
    generalize heq : bs.map g = as at h
    induction h generalizing bs with
    | nil =>
      rw [List.map_eq_nil_iff.mp heq]
      exact .nil
    | plain ha _ ih =>
      obtain ⟨b, bs, rfl, rfl, htail⟩ := List.map_eq_cons_iff.mp heq
      exact .plain ha (ih htail)
    | pair ha hb _ ih =>
      obtain ⟨b, rest, rfl, rfl, hrest⟩ := List.map_eq_cons_iff.mp heq
      obtain ⟨c, bs, rfl, rfl, htail⟩ := List.map_eq_cons_iff.mp hrest
      exact .pair ha hb (ih htail)
  · intro h
    induction h with
    | nil => exact .nil
    | plain ha _ ih => exact .plain ha ih
    | pair ha hb _ ih => exact .pair ha hb ih

/-- Elements without a label can be left out in front. -/
theorem append_iff_of_plain (has : ∀ a ∈ as, f a = none) :
    Paired f (as ++ bs) is ↔ Paired f bs is := by
  induction as with
  | nil => exact Iff.rfl
  | cons a as ih =>
    obtain ⟨ha, has⟩ := List.forall_mem_cons.mp has
    rw [List.cons_append, plain_iff ha, ih has]

/-- A cut between elements that do not have the same label goes through no pair. -/
theorem split_of_ne (h : Paired f (as ++ bs) is)
    (hcut : ∀ a ∈ as.getLast?, ∀ b ∈ bs.head?, ∀ i, f a = some i → f b ≠ some i) :
    ∃ is₁ is₂, Paired f as is₁ ∧ Paired f bs is₂ ∧ is = is₁ ++ is₂ := by
  generalize heq : as ++ bs = cs at h
  induction h generalizing as with
  | nil =>
    obtain ⟨rfl, rfl⟩ := List.append_eq_nil_iff.mp heq
    exact ⟨[], [], .nil, .nil, rfl⟩
  | @plain a cs is ha rest ih =>
    cases as with
    | nil => exact ⟨[], is, .nil, by rw [show bs = a :: cs from heq]; exact .plain ha rest, rfl⟩
    | cons a' as =>
      obtain ⟨rfl, htail⟩ := List.cons.inj heq
      have hcut' : ∀ c ∈ as.getLast?, ∀ b ∈ bs.head?, ∀ i, f c = some i → f b ≠ some i := by
        intro c hc
        apply hcut c
        rw [List.getLast?_cons, Option.mem_def.mp hc]
        rfl
      obtain ⟨is₁, is₂, h₁, h₂, his⟩ := ih hcut' htail
      exact ⟨is₁, is₂, .plain ha h₁, h₂, his⟩
  | @pair a b i cs is ha hb rest ih =>
    match as with
    | [] =>
      exact ⟨[], i :: is, .nil, by rw [show bs = a :: b :: cs from heq]; exact .pair ha hb rest,
        rfl⟩
    | [a'] =>
      -- the cut would go through this pair
      obtain ⟨rfl, htail⟩ := List.cons.inj heq
      have hbs : bs = b :: cs := htail
      exact absurd hb (hcut a' rfl b (by rw [hbs]; rfl) i ha)
    | a' :: b' :: as =>
      obtain ⟨rfl, hsecond⟩ := List.cons.inj heq
      obtain ⟨rfl, htail⟩ := List.cons.inj hsecond
      have hcut' : ∀ c ∈ as.getLast?, ∀ d ∈ bs.head?, ∀ i, f c = some i → f d ≠ some i := by
        intro c hc
        apply hcut c
        rw [List.getLast?_cons, List.getLast?_cons, Option.mem_def.mp hc]
        rfl
      obtain ⟨is₁, is₂, h₁, h₂, his⟩ := ih hcut' htail
      exact ⟨i :: is₁, is₂, .pair ha hb h₁, h₂, by rw [his]; rfl⟩

/-- A cut behind an even number of elements of one label goes through no pair. -/
theorem split_even {i : ι} (h : Paired f (as ++ bs) is) (has : AllLabelled f i as)
    (heven : Even as.length) :
    ∃ is₁ is₂, Paired f as is₁ ∧ Paired f bs is₂ ∧ is = is₁ ++ is₂ := by
  generalize heq : as ++ bs = cs at h
  induction h generalizing as with
  | nil =>
    obtain ⟨rfl, rfl⟩ := List.append_eq_nil_iff.mp heq
    exact ⟨[], [], .nil, .nil, rfl⟩
  | @plain a cs is ha rest ih =>
    cases as with
    | nil => exact ⟨[], is, .nil, by rw [show bs = a :: cs from heq]; exact .plain ha rest, rfl⟩
    | cons a' as =>
      obtain ⟨rfl, -⟩ := List.cons.inj heq
      have hlabel := has a' List.mem_cons_self
      simp [ha] at hlabel
  | @pair a b j cs is ha hb rest ih =>
    match as with
    | [] =>
      exact ⟨[], j :: is, .nil, by rw [show bs = a :: b :: cs from heq]; exact .pair ha hb rest,
        rfl⟩
    | [a'] => simp at heven
    | a' :: b' :: as =>
      obtain ⟨rfl, hsecond⟩ := List.cons.inj heq
      obtain ⟨rfl, htail⟩ := List.cons.inj hsecond
      have has' : AllLabelled f i as := fun c hc =>
        has c (List.mem_cons_of_mem _ (List.mem_cons_of_mem _ hc))
      have heven' : Even as.length := by simpa [Nat.even_add_one] using heven
      obtain ⟨is₁, is₂, h₁, h₂, his⟩ := ih has' heven' htail
      exact ⟨j :: is₁, is₂, .pair ha hb h₁, h₂, by rw [his]; rfl⟩

theorem length_of_allLabelled {i : ι} (h : Paired f as is) (has : AllLabelled f i as) :
    as.length = 2 * is.length := by
  induction h with
  | nil => rfl
  | @plain a as is ha _ ih =>
    have hlabel := has a List.mem_cons_self
    simp [ha] at hlabel
  | pair _ _ _ ih =>
    have hlen := ih fun c hc => has c (List.mem_cons_of_mem _ (List.mem_cons_of_mem _ hc))
    simp only [List.length_cons, hlen]
    omega

end Paired
