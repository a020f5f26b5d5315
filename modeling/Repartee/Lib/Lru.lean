import Mathlib.Data.Finset.Card
import Mathlib.Data.List.Dedup
import Mathlib.Data.List.DropRight

/-!
# The most recently touched keys

A history is the list of the keys that were touched, the oldest touch first. `recent n history`
are its `n` most recently touched keys, each once, in the order of their last touches. A store of
`n` entries that keeps the most recently touched ones has these keys.

## Main definitions

- `Lru.recent`: the most recently touched keys
- `Lru.without`: a list without a key
- `Lru.since`: the touches after the last touch of a key

## Main results

- `Lru.recent_concat_of_mem`, `Lru.recent_concat_of_notMem`: what one touch changes
- `Lru.mem_recent_iff`: a key is recent exactly when few others were touched after it
-/

set_option autoImplicit false

universe u

namespace Lru

variable {κ : Type u} [DecidableEq κ]

/-- The `n` most recently touched keys of a history, in the order of their last touches. -/
def recent (n : Nat) (history : List κ) : List κ := history.dedup.rtake n

/-- The touches after the last touch of `k`; the whole history if there is none. -/
def since (k : κ) (history : List κ) : List κ := history.rtakeWhile (fun k' => decide (k' ≠ k))

/-- The keys of a list other than `k`. -/
def without (k : κ) (l : List κ) : List κ := l.filter (fun k' => !decide (k' = k))

variable {n : Nat} {k : κ} {history : List κ}

/-! ### The end of a list -/

omit [DecidableEq κ] in
theorem rtake_append_of_length {l r : List κ} (hr : r.length = n) : (l ++ r).rtake n = r := by
  have hdrop : (l ++ r).length - n = l.length := by
    rw [List.length_append]
    omega
  rw [List.rtake, hdrop, List.drop_left]

omit [DecidableEq κ] in
theorem rtake_of_length_le {l : List κ} (hl : l.length ≤ n) : l.rtake n = l := by
  rw [List.rtake, Nat.sub_eq_zero_of_le hl, List.drop_zero]

omit [DecidableEq κ] in
/-- A list is what precedes its end and the end, which is all of the list or is full. -/
theorem exists_rtake (n : Nat) (l : List κ) :
    ∃ p, l = p ++ l.rtake n ∧ (l.rtake n).length ≤ n ∧ (p = [] ∨ (l.rtake n).length = n) := by
  refine ⟨l.take (l.length - n), (List.take_append_drop _ l).symm, ?_, ?_⟩
  · rw [List.rtake, List.length_drop]
    omega
  · by_cases hl : l.length ≤ n
    · exact .inl (by rw [Nat.sub_eq_zero_of_le hl, List.take_zero])
    · refine .inr ?_
      rw [List.rtake, List.length_drop]
      omega

@[simp] theorem recent_nil : recent n ([] : List κ) = [] := by
  simp [recent]

theorem nodup_recent : (recent n history).Nodup :=
  (List.nodup_dedup history).sublist (List.drop_sublist _ _)

/-! ### All keys but one -/

theorem without_append (l r : List κ) : without k (l ++ r) = without k l ++ without k r :=
  List.filter_append l r

theorem without_of_notMem {l : List κ} (h : k ∉ l) : without k l = l := by
  refine List.filter_eq_self.mpr (fun k' hk' => ?_)
  have hne : k' ≠ k := fun heq => h (heq ▸ hk')
  simp [hne]

theorem without_cons_self (l : List κ) : without k (k :: l) = without k l :=
  List.filter_cons_of_neg (by simp)

theorem without_cons_of_ne {k' : κ} (h : k' ≠ k) (l : List κ) :
    without k (k' :: l) = k' :: without k l := List.filter_cons_of_pos (by simp [h])

theorem length_without_of_mem {l : List κ} (hl : l.Nodup) (h : k ∈ l) :
    (without k l).length + 1 = l.length := by
  obtain ⟨l₁, l₂, rfl⟩ := List.append_of_mem h
  obtain ⟨-, h₂, hdisj⟩ := List.nodup_append.mp hl
  have hl₁ : k ∉ l₁ := fun hk => hdisj k hk k List.mem_cons_self rfl
  rw [without_append, without_cons_self, without_of_notMem hl₁,
    without_of_notMem (List.nodup_cons.mp h₂).1, List.length_append, List.length_append,
    List.length_cons]
  omega

/-! ### One more touch -/

/-- A touched key comes last, and the others keep their order. -/
theorem dedup_concat (history : List κ) (k : κ) :
    (history ++ [k]).dedup = without k history.dedup ++ [k] := by
  induction history with
  | nil => simp [without]
  | cons k' history ih =>
    rw [List.cons_append]
    by_cases hmem : k' ∈ history
    · rw [List.dedup_cons_of_mem (List.mem_append_left [k] hmem), ih,
        List.dedup_cons_of_mem hmem]
    · rw [List.dedup_cons_of_notMem hmem]
      by_cases hk : k' = k
      · subst hk
        rw [List.dedup_cons_of_mem (List.mem_append_right history List.mem_cons_self), ih,
          without_cons_self]
      · have hnot : k' ∉ history ++ [k] := by simp [hmem, hk]
        rw [List.dedup_cons_of_notMem hnot, ih, without_cons_of_ne hk, List.cons_append]

/-- Touching a recent key moves it to the end. -/
theorem recent_concat_of_mem (h : k ∈ recent n history) :
    recent n (history ++ [k]) = without k (recent n history) ++ [k] := by
  obtain ⟨p, hsplit, hle, hfull⟩ := exists_rtake n history.dedup
  have hlen := length_without_of_mem nodup_recent h
  have hnot : k ∉ p := by
    intro hp
    have hnodup := List.nodup_dedup history
    rw [hsplit] at hnodup
    exact (List.nodup_append.mp hnodup).2.2 k hp k h rfl
  have hconcat : (history ++ [k]).dedup = p ++ (without k (recent n history) ++ [k]) := by
    rw [dedup_concat, hsplit, without_append, without_of_notMem hnot, List.append_assoc]
    rfl
  rw [recent, hconcat]
  rcases hfull with rfl | hfull
  · refine rtake_of_length_le ?_
    rw [List.nil_append, List.length_append, List.length_singleton, hlen]
    exact hle
  · refine rtake_append_of_length ?_
    rw [List.length_append, List.length_singleton, hlen]
    exact hfull

/-- Touching another key takes the place of the least recent one when there is no room. -/
theorem recent_concat_of_notMem (hn : 0 < n) (h : k ∉ recent n history) :
    recent n (history ++ [k]) =
      (if n ≤ (recent n history).length then (recent n history).tail else recent n history) ++
        [k] := by
  obtain ⟨p, hsplit, hle, hfull⟩ := exists_rtake n history.dedup
  have hconcat : (history ++ [k]).dedup = without k p ++ (recent n history ++ [k]) := by
    have hnone : without k (history.dedup.rtake n) = recent n history := without_of_notMem h
    rw [dedup_concat, hsplit, without_append, List.append_assoc, hnone]
  rw [recent, hconcat]
  by_cases hroom : n ≤ (recent n history).length
  · have hlen : (recent n history).length = n := le_antisymm hle hroom
    rw [if_pos hroom]
    cases hr : recent n history with
    | nil =>
      rw [hr, List.length_nil] at hlen
      omega
    | cons oldest rest =>
      rw [List.tail_cons, List.cons_append, List.append_cons]
      refine rtake_append_of_length ?_
      rw [hr, List.length_cons] at hlen
      rw [List.length_append, List.length_singleton]
      exact hlen
  · have hp : p = [] := hfull.resolve_right (fun hlen => hroom (Nat.le_of_eq hlen.symm))
    rw [if_neg hroom, hp]
    refine rtake_of_length_le ?_
    rw [show without k ([] : List κ) = [] from rfl, List.nil_append, List.length_append,
      List.length_singleton]
    omega

/-! ### Which keys are recent -/

theorem since_append_cons {pre post : List κ} (h : k ∉ post) :
    since k (pre ++ k :: post) = post := by
  induction post using List.reverseRecOn with
  | nil => exact List.rtakeWhile_concat_neg _ _ _ (by simp)
  | append_singleton post k' ih =>
    rw [List.mem_append, not_or, List.mem_singleton] at h
    have hk : decide (k' ≠ k) = true := decide_eq_true (Ne.symm h.2)
    have hrest := ih h.1
    rw [since] at hrest ⊢
    rw [← List.cons_append, ← List.append_assoc,
      List.rtakeWhile_concat_pos (fun k' => decide (k' ≠ k)) _ _ hk, hrest]

/-- A key is among the `n` most recent ones exactly when it was touched, and fewer than `n` others
were touched after it. -/
theorem mem_recent_iff :
    k ∈ recent n history ↔ k ∈ history ∧ (since k history).toFinset.card < n := by
  by_cases hmem : k ∈ history
  · obtain ⟨post', pre', hrev, hpost'⟩ :=
      List.eq_append_cons_of_mem (List.mem_reverse.mpr hmem)
    have hhist : history = pre'.reverse ++ k :: post'.reverse := by
      rw [← List.reverse_reverse history, hrev]
      simp
    have hpost : k ∉ post'.reverse := fun h => hpost' (List.mem_reverse.mp h)
    generalize pre'.reverse = pre at hhist
    generalize post'.reverse = post at hhist hpost
    subst hhist
    obtain ⟨p, hp⟩ := List.suffix_union_right pre (k :: post).dedup
    have hdedup : (pre ++ k :: post).dedup = p ++ k :: post.dedup := by
      rw [List.dedup_append, ← hp, List.dedup_cons_of_notMem hpost]
    have hcard : post.toFinset.card = post.dedup.length := List.card_toFinset post
    rw [recent, hdedup, since_append_cons hpost, hcard, List.rtake]
    constructor
    · intro h
      refine ⟨hmem, Nat.lt_of_not_le (fun hle => ?_)⟩
      -- the key is cut off with what precedes it
      have hdrop : (p ++ k :: post.dedup).length - n =
          (p ++ [k]).length + (post.dedup.length - n) := by
        simp only [List.length_append, List.length_cons, List.length_nil]
        omega
      rw [hdrop, List.append_cons p k post.dedup, List.drop_length_add_append] at h
      exact hpost (List.mem_dedup.mp (List.mem_of_mem_drop h))
    · rintro ⟨-, hlt⟩
      have hdrop : (p ++ k :: post.dedup).length - n ≤ p.length := by
        simp only [List.length_append, List.length_cons]
        omega
      rw [List.drop_append_of_le_length hdrop]
      exact List.mem_append_right _ List.mem_cons_self
  · refine iff_of_false (fun h => hmem ?_) (fun h => hmem h.1)
    exact List.mem_dedup.mp (List.mem_of_mem_drop h)

end Lru
