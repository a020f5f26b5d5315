import Mathlib.Data.List.Infix
import Repartee.Lib.Text
import Repartee.Lib.Utf8

/-!
# Replacing one text by another

`Text.replace` takes the occurrences of a pattern from the left, `Text.replaceEach` does so for one
pattern after the other. What a later pattern finds may be what an earlier one has put there.

## Main definitions

- `Text.replaceEach`: several replacements in order

## Main results

- `Text.replace_append_stop`: the text before a character that is not in the pattern and the text
  behind it are replaced apart
- `Text.replace_unique`: replacing the only occurrence
- `Text.replaceEach_eq_self`, `Text.byteLen_replaceEach_lt`: what patterns do to a text
-/

set_option autoImplicit false

universe u

namespace Text

open Utf8 (byteLen byteLen_append)

variable {pat rep s t g : List Char} {c : Char}

theorem replaceFrom_eq (pat rep : List Char) (n : Nat) (s : List Char) :
    replaceFrom pat rep n s = replace pat rep (s.drop n) := by
  induction s generalizing n with
  | nil => cases n <;> rfl
  | cons c s ih =>
    cases n with
    | zero => rfl
    | succ n => rw [replaceFrom, ih, List.drop_succ_cons]

@[simp] theorem replace_nil (pat rep : List Char) : replace pat rep [] = [] := rfl

theorem replace_append (hpat : pat ≠ []) (rep s : List Char) :
    replace pat rep (pat ++ s) = rep ++ replace pat rep s := by
  cases pat with
  | nil => exact absurd rfl hpat
  | cons d pat =>
    have hprefix : (stripPrefix (d :: pat) (d :: (pat ++ s))).isSome = true := by
      rw [← List.cons_append, stripPrefix_append]
      rfl
    rw [List.cons_append, replace, replaceFrom, if_pos hprefix, replaceFrom_eq]
    simp

theorem replace_cons (h : ¬ pat <+: c :: s) (rep : List Char) :
    replace pat rep (c :: s) = c :: replace pat rep s := by
  rw [replace, replaceFrom, if_neg, replace]
  intro hprefix
  obtain ⟨r, hr⟩ := Option.isSome_iff_exists.mp hprefix
  exact h ⟨r, (stripPrefix_eq_some_iff.mp hr).symm⟩

/-- **Induction along the occurrences of a pattern**, from the left. -/
theorem replace_induction (hpat : pat ≠ []) {motive : List Char → Prop} (nil : motive [])
    (found : ∀ s, motive s → motive (pat ++ s))
    (other : ∀ c s, ¬ pat <+: c :: s → motive s → motive (c :: s)) (s : List Char) : motive s := by
  have hpos := List.length_pos_iff.mpr hpat
  induction hn : s.length using Nat.strongRecOn generalizing s with
  | _ n ih =>
    subst hn
    cases s with
    | nil => exact nil
    | cons c s =>
      by_cases h : pat <+: c :: s
      · obtain ⟨r, hr⟩ := h
        rw [← hr, List.length_append] at ih
        exact hr ▸ found r (ih r.length (by omega) r rfl)
      · exact other c s h (ih s.length (Nat.lt_succ_self _) s rfl)

theorem prefix_of_notMem {x y : List Char} (hc : c ∉ pat) (h : pat <+: x ++ c :: y) :
    pat <+: x := by
  obtain ⟨r, hr⟩ := h
  rcases List.append_eq_append_iff.mp hr with ⟨k, rfl, -⟩ | ⟨k, rfl, hk⟩
  · exact List.prefix_append pat k
  · cases k with
    | nil => rw [List.append_nil]
    | cons d k =>
      obtain ⟨rfl, -⟩ := List.cons.inj hk
      exact absurd (List.mem_append_right x List.mem_cons_self) hc

/-- A character that is not in the pattern separates what is replaced. -/
theorem replace_append_stop (hpat : pat ≠ []) (hc : c ∉ pat) (rep x y : List Char) :
    replace pat rep (x ++ c :: y) = replace pat rep x ++ c :: replace pat rep y := by
  induction x using replace_induction hpat with
  | nil =>
    refine replace_cons (fun h => ?_) rep
    exact hpat (List.prefix_nil.mp (@prefix_of_notMem pat c [] y hc h))
  | found s ih => rw [List.append_assoc, replace_append hpat, ih, replace_append hpat,
      List.append_assoc]
  | other d s h ih =>
    have h' : ¬ pat <+: d :: (s ++ c :: y) := fun hpre => h (prefix_of_notMem hc hpre)
    rw [List.cons_append, replace_cons h', ih, replace_cons h, List.cons_append]

/-- A text without the pattern is left alone. -/
theorem replace_eq_self (hpat : pat ≠ []) (h : ¬ pat <:+: s) (rep : List Char) :
    replace pat rep s = s := by
  induction s using replace_induction hpat with
  | nil => rfl
  | found s ih => exact absurd (List.prefix_append pat s).isInfix h
  | other c s hc ih =>
    rw [replace_cons hc, ih (fun hs => h (hs.trans (List.suffix_cons c s).isInfix))]

/-- Replacing the only occurrence. -/
theorem replace_unique (hpat : pat ≠ [])
    (h : ∀ a b, g ++ (pat ++ t) = a ++ (pat ++ b) → a = g) (rep : List Char) :
    replace pat rep (g ++ (pat ++ t)) = g ++ (rep ++ t) := by
  induction g with
  | nil =>
    have hrest : ¬ pat <:+: t := by
      rintro ⟨a, b, rfl⟩
      have hnil := h (pat ++ a) b (by simp)
      exact hpat (List.append_eq_nil_iff.mp hnil).1
    rw [List.nil_append, replace_append hpat, replace_eq_self hpat hrest, List.nil_append]
  | cons d g ih =>
    have hfirst : ¬ pat <+: d :: (g ++ (pat ++ t)) := by
      rintro ⟨b, hb⟩
      exact List.cons_ne_nil d g (h [] b hb.symm).symm
    have hrest : ∀ a b, g ++ (pat ++ t) = a ++ (pat ++ b) → a = g := by
      intro a b hab
      exact (List.cons.inj (h (d :: a) b (congrArg (d :: ·) hab))).2
    rw [List.cons_append, replace_cons hfirst, ih hrest, List.cons_append]

theorem byteLen_replace_le (hpat : pat ≠ []) (hlen : byteLen rep ≤ byteLen pat)
    (s : List Char) : byteLen (replace pat rep s) ≤ byteLen s := by
  induction s using replace_induction hpat with
  | nil => exact Nat.le_refl _
  | found s ih =>
    rw [replace_append hpat, byteLen_append, byteLen_append]
    exact Nat.add_le_add hlen ih
  | other c s h ih =>
    rw [replace_cons h]
    exact Nat.add_le_add_left ih _

/-- A shorter replacement makes a text with the pattern shorter. -/
theorem byteLen_replace_lt (hpat : pat ≠ []) (hlen : byteLen rep < byteLen pat) (h : pat <:+: s) :
    byteLen (replace pat rep s) < byteLen s := by
  induction s using replace_induction hpat with
  | nil => exact absurd (List.infix_nil.mp h) hpat
  | found s ih =>
    rw [replace_append hpat, byteLen_append, byteLen_append]
    exact Nat.add_lt_add_of_lt_of_le hlen (byteLen_replace_le hpat (Nat.le_of_lt hlen) s)
  | other c s hc ih =>
    rw [replace_cons hc]
    exact Nat.add_lt_add_left (ih ((List.infix_cons_iff.mp h).resolve_left hc)) _

/-! ### Several patterns -/

section Each

variable {β : Type u} (old new : β → List Char)

/-- One replacement after the other. -/
def replaceEach (subs : List β) (s : List Char) : List Char :=
  subs.foldl (fun s x => replace (old x) (new x) s) s

variable {old new} {subs : List β}

@[simp] theorem replaceEach_nil (s : List Char) : replaceEach old new [] s = s := rfl

theorem replaceEach_cons (x : β) (subs : List β) (s : List Char) :
    replaceEach old new (x :: subs) s = replaceEach old new subs (replace (old x) (new x) s) := rfl

theorem replaceEach_append (subs subs' : List β) (s : List Char) :
    replaceEach old new (subs ++ subs') s =
      replaceEach old new subs' (replaceEach old new subs s) := List.foldl_append

theorem replaceEach_append_stop (h : ∀ x ∈ subs, old x ≠ [] ∧ c ∉ old x) (s t : List Char) :
    replaceEach old new subs (s ++ c :: t) =
      replaceEach old new subs s ++ c :: replaceEach old new subs t := by
  induction subs generalizing s t with
  | nil => rfl
  | cons x subs ih =>
    obtain ⟨hne, hc⟩ := h x List.mem_cons_self
    rw [replaceEach_cons, replace_append_stop hne hc,
      ih (fun x hx => h x (List.mem_cons_of_mem _ hx)), ← replaceEach_cons, ← replaceEach_cons]

theorem replaceEach_eq_self (hne : ∀ x ∈ subs, old x ≠ []) (h : ∀ x ∈ subs, ¬ old x <:+: s) :
    replaceEach old new subs s = s := by
  induction subs with
  | nil => rfl
  | cons x subs ih =>
    rw [replaceEach_cons, replace_eq_self (hne x List.mem_cons_self) (h x List.mem_cons_self)]
    exact ih (fun x hx => hne x (List.mem_cons_of_mem _ hx))
      (fun x hx => h x (List.mem_cons_of_mem _ hx))

theorem byteLen_replaceEach_le (hne : ∀ x ∈ subs, old x ≠ [])
    (hlen : ∀ x ∈ subs, byteLen (new x) < byteLen (old x)) (s : List Char) :
    byteLen (replaceEach old new subs s) ≤ byteLen s := by
  induction subs generalizing s with
  | nil => exact Nat.le_refl _
  | cons x subs ih =>
    rw [replaceEach_cons]
    refine Nat.le_trans (ih (fun x hx => hne x (List.mem_cons_of_mem _ hx))
      (fun x hx => hlen x (List.mem_cons_of_mem _ hx)) _) ?_
    exact byteLen_replace_le (hne x List.mem_cons_self)
      (Nat.le_of_lt (hlen x List.mem_cons_self)) s

/-- Shorter replacements make a text with one of the patterns shorter. -/
theorem byteLen_replaceEach_lt (hne : ∀ x ∈ subs, old x ≠ [])
    (hlen : ∀ x ∈ subs, byteLen (new x) < byteLen (old x)) (h : ∃ x ∈ subs, old x <:+: s) :
    byteLen (replaceEach old new subs s) < byteLen s := by
  induction subs with
  | nil =>
    obtain ⟨x, hx, -⟩ := h
    exact absurd hx List.not_mem_nil
  | cons x subs ih =>
    have hne' := fun y hy => hne y (List.mem_cons_of_mem x hy)
    have hlen' := fun y hy => hlen y (List.mem_cons_of_mem x hy)
    rw [replaceEach_cons]
    by_cases hin : old x <:+: s
    · exact Nat.lt_of_le_of_lt (byteLen_replaceEach_le hne' hlen' _)
        (byteLen_replace_lt (hne x List.mem_cons_self) (hlen x List.mem_cons_self) hin)
    · rw [replace_eq_self (hne x List.mem_cons_self) hin]
      obtain ⟨y, hy, hys⟩ := h
      rcases List.mem_cons.mp hy with rfl | hy
      · exact absurd hys hin
      · exact ih hne' hlen' ⟨y, hy, hys⟩

end Each

end Text
