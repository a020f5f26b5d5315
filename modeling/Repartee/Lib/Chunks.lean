import Mathlib.Data.List.Basic

/-!
# Cutting a list into chunks

## Main results

- `List.toChunks_of_le`, `List.toChunks_of_lt`: the first chunk, and the others
- `List.flatten_toChunks`, `List.length_le_of_mem_toChunks`: the chunks make up the list, and none
  is too long
-/

set_option autoImplicit false

universe u

namespace List

variable {α : Type u} {n : Nat}

theorem toChunks_go_append (xs : List α) (acc₁ : Array α) (acc₂ : Array (List α)) :
    toChunks.go n xs acc₁ acc₂ = acc₂.toList ++ toChunks.go n xs acc₁ #[] := by
  induction xs generalizing acc₁ acc₂ with
  | nil => simp [toChunks.go]
  | cons x xs ih =>
    rw [toChunks.go, toChunks.go]
    split_ifs
    · rw [ih, ih _ (#[].push acc₁.toList)]
      simp
    · exact ih _ _

theorem toChunks_cons (hn : n ≠ 0) (x : α) (xs : List α) :
    toChunks n (x :: xs) = toChunks.go n xs #[x] #[] := by
  cases n with
  | zero => exact absurd rfl hn
  | succ n => rfl

/-- A chunk is filled up to `n`. -/
theorem toChunks_go_eq (hn : n ≠ 0) (xs : List α) {acc : Array α} (hacc : acc.size ≤ n) :
    toChunks.go n xs acc #[] =
      if acc.size + xs.length ≤ n then [acc.toList ++ xs]
      else (acc.toList ++ xs).take n :: toChunks n ((acc.toList ++ xs).drop n) := by
  induction xs generalizing acc with
  | nil => rw [List.append_nil, List.length_nil, Nat.add_zero, if_pos hacc]; rfl
  | cons x xs ih =>
    have hlen : (x :: xs).length = xs.length + 1 := rfl
    rw [toChunks.go]
    by_cases hfull : acc.size = n
    · have hsize : acc.toList.length = n := by simpa using hfull
      rw [if_pos (by simpa using hfull), toChunks_go_append, if_neg (by omega),
        List.take_left' hsize, List.drop_left' hsize, toChunks_cons hn]
      rfl
    · rw [if_neg (by simpa using hfull), ih (by rw [Array.size_push]; omega), Array.size_push,
        Array.toList_push, List.append_assoc, List.singleton_append]
      exact if_congr (by omega) rfl rfl

theorem toChunks_of_le {l : List α} (hl : l ≠ []) (h : l.length ≤ n) : toChunks n l = [l] := by
  cases l with
  | nil => exact absurd rfl hl
  | cons x xs =>
    have hn : n ≠ 0 := by
      rintro rfl
      exact absurd h (Nat.not_succ_le_zero _)
    have hlen : (x :: xs).length = xs.length + 1 := rfl
    have hsize : (#[x] : Array α).size = 1 := rfl
    rw [toChunks_cons hn, toChunks_go_eq hn xs (by omega), if_pos (by omega)]
    rfl

theorem toChunks_of_lt (hn : n ≠ 0) {l : List α} (h : n < l.length) :
    toChunks n l = l.take n :: toChunks n (l.drop n) := by
  cases l with
  | nil => exact absurd h (Nat.not_lt_zero n)
  | cons x xs =>
    have hlen : (x :: xs).length = xs.length + 1 := rfl
    have hsize : (#[x] : Array α).size = 1 := rfl
    rw [toChunks_cons hn, toChunks_go_eq hn xs (by omega), if_neg (by omega)]
    rfl

/-- Induction along the chunks of a list. -/
theorem toChunks_induction (hn : n ≠ 0) {motive : List α → List (List α) → Prop}
    (nil : motive [] []) (last : ∀ l, l ≠ [] → l.length ≤ n → motive l [l])
    (more : ∀ l, n < l.length → motive (l.drop n) (toChunks n (l.drop n)) →
      motive l (l.take n :: toChunks n (l.drop n)))
    (l : List α) : motive l (toChunks n l) := by
  induction hlen : l.length using Nat.strongRecOn generalizing l with
  | _ m ih =>
    subst hlen
    by_cases hnil : l = []
    · subst hnil
      cases n <;> exact nil
    by_cases hle : l.length ≤ n
    · rw [toChunks_of_le hnil hle]
      exact last l hnil hle
    · have hlt := Nat.not_le.mp hle
      rw [toChunks_of_lt hn hlt]
      refine more l hlt (ih _ ?_ _ rfl)
      rw [length_drop]
      omega

theorem flatten_toChunks (hn : n ≠ 0) (l : List α) : (l.toChunks n).flatten = l := by
  induction l using toChunks_induction hn with
  | nil => rfl
  | last l hnil hle => exact append_nil l
  | more l hlt ih => rw [flatten_cons, ih, take_append_drop]

theorem length_le_of_mem_toChunks (hn : n ≠ 0) {l chunk : List α} (h : chunk ∈ l.toChunks n) :
    chunk.length ≤ n := by
  revert h
  induction l using toChunks_induction hn with
  | nil => exact fun h => absurd h not_mem_nil
  | last l hnil hle =>
    intro h
    rw [mem_singleton.mp h]
    exact hle
  | more l hlt ih =>
    intro h
    rcases mem_cons.mp h with rfl | h
    · exact length_take_le n l
    · exact ih h

end List
