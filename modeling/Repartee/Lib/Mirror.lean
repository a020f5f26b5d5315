import Mathlib.Data.List.Induction
import Mathlib.Data.List.Nodup
import Repartee.Lib.Run

/-!
# A list that mirrors a set

A remote set of keys is known from a stream of changes, and is kept as a list: a new key comes last,
a key that is in the list stays where it is, and beyond a limit the oldest keys are dropped.

## Main definitions

- `Mirror.Change`, `Mirror.IsSet`: the changes, and what is in the set after them
- `Mirror.step`: the list after a change

## Main results

- `Mirror.nodup_run`, `Mirror.length_run_le`: no key comes twice, and there are not too many
- `Mirror.insertedBefore_run`: the keys are in the order in which they came in
- `Mirror.mem_run_iff`: as long as the set is within the limit, its keys are in the list
- `Mirror.run_prefix_of_grows`: a key keeps its place as long as none is taken out
-/

set_option autoImplicit false

universe u

namespace Mirror

section Newest

variable {κ : Type u}

/-- The newest keys within a limit. -/
def newest (limit : Nat) (l : List κ) : List κ := l.drop (l.length - limit)

theorem newest_sublist (limit : Nat) (l : List κ) : (newest limit l).Sublist l :=
  List.drop_sublist _ l

theorem newest_of_le {limit : Nat} {l : List κ} (h : l.length ≤ limit) : newest limit l = l := by
  rw [newest, Nat.sub_eq_zero_of_le h, List.drop_zero]

theorem length_newest_le (limit : Nat) (l : List κ) : (newest limit l).length ≤ limit := by
  rw [newest, List.length_drop]
  omega

/-- The key that has just come is the newest one. -/
theorem newest_concat {limit : Nat} (hlimit : 0 < limit) (l : List κ) (k : κ) :
    newest limit (l ++ [k]) = l.drop (l.length + 1 - limit) ++ [k] := by
  have hlen : (l ++ [k]).length = l.length + 1 := List.length_append
  rw [newest, hlen, List.drop_append_of_le_length (by omega)]

end Newest

/-- A change of the set. -/
inductive Change (κ : Type u) where
  | add (k : κ)
  | remove (k : κ)
  | clear
  /-- Something that does not concern the set. -/
  | other

variable {κ : Type u} [DecidableEq κ]

/-- Whether a key is not in the set after a change, if only that is known. -/
def Change.drops (k : κ) : Change κ → Bool
  | .add _ => false
  | .remove k' => k' = k
  | .clear => true
  | .other => false

/-- The last change that concerns a key added it. -/
def IsSet (cs : List (Change κ)) (k : κ) : Prop :=
  ∃ pre post, cs = pre ++ .add k :: post ∧ ∀ c ∈ post, c.drops k = false

/-- The set never had more keys than the limit. -/
def Within (limit : Nat) (cs : List (Change κ)) : Prop :=
  ∀ pre, pre <+: cs → ∀ ks : List κ, ks.Nodup → (∀ k ∈ ks, IsSet pre k) → ks.length ≤ limit

def step (limit : Nat) (l : List κ) : Change κ → List κ
  | .add k => if k ∈ l then l else newest limit (l ++ [k])
  | .remove k => l.filter (fun k' => k' ≠ k)
  | .clear => []
  | .other => l

/-- A key came into the list before another one, and has been there since. -/
def InsertedBefore (limit : Nat) (cs : List (Change κ)) (a b : κ) : Prop :=
  ∃ pre post, cs = pre ++ post ∧ b ∉ Run.run (step limit) [] pre ∧
    ∀ p, p <+: post → a ∈ Run.run (step limit) [] (pre ++ p)

/-! ### The set -/

theorem not_isSet_nil (k : κ) : ¬ IsSet [] k := by
  rintro ⟨pre, post, heq, -⟩
  exact List.append_ne_nil_of_right_ne_nil pre (List.cons_ne_nil _ post) heq.symm

theorem isSet_concat (cs : List (Change κ)) (c : Change κ) (k : κ) :
    IsSet (cs ++ [c]) k ↔ c = .add k ∨ IsSet cs k ∧ c.drops k = false := by
  constructor
  · rintro ⟨pre, post, heq, hpost⟩
    rcases post.eq_nil_or_concat' with rfl | ⟨post', c', rfl⟩
    · exact .inl (List.cons.inj (List.append_inj' heq rfl).2).1
    · rw [← List.cons_append, ← List.append_assoc] at heq
      obtain ⟨hcs, hc⟩ := List.append_inj' heq rfl
      obtain rfl := (List.cons.inj hc).1
      refine .inr ⟨⟨pre, post', hcs, fun d hd => hpost d (List.mem_append_left _ hd)⟩, ?_⟩
      exact hpost c (List.mem_append_right _ List.mem_cons_self)
  · rintro (rfl | ⟨⟨pre, post, rfl, hpost⟩, hc⟩)
    · exact ⟨cs, [], rfl, fun c hc => absurd hc List.not_mem_nil⟩
    · refine ⟨pre, post ++ [c], by simp, fun d hd => ?_⟩
      rcases List.mem_append.mp hd with hd | hd
      · exact hpost d hd
      · rw [List.mem_singleton.mp hd]
        exact hc

theorem Within.of_concat {limit : Nat} {cs : List (Change κ)} {c : Change κ}
    (h : Within limit (cs ++ [c])) : Within limit cs :=
  fun pre hpre => h pre (hpre.trans (List.prefix_append cs [c]))

/-! ### The list -/

section

variable {limit : Nat} {l : List κ} {c : Change κ}

theorem nodup_step (h : l.Nodup) : (step limit l c).Nodup := by
  cases c with
  | add k =>
    rw [step]
    split_ifs with hk
    · exact h
    · refine List.Nodup.sublist (newest_sublist limit _) (List.nodup_append.mpr ?_)
      refine ⟨h, List.nodup_singleton k, fun a ha b hb => ?_⟩
      rw [List.mem_singleton.mp hb]
      exact fun heq => hk (heq ▸ ha)
  | remove k => exact h.filter _
  | clear => exact List.nodup_nil
  | other => exact h

theorem length_step_le (h : l.length ≤ limit) : (step limit l c).length ≤ limit := by
  cases c with
  | add k =>
    rw [step]
    split_ifs
    · exact h
    · exact length_newest_le limit _
  | remove k => exact Nat.le_trans (List.length_filter_le _ l) h
  | clear => exact Nat.zero_le limit
  | other => exact h

/-- Keys of the list keep their order, and a new key comes behind all of them. -/
theorem step_eq_append (hlimit : 0 < limit) (l : List κ) (c : Change κ) :
    ∃ kept new, step limit l c = kept ++ new ∧ kept.Sublist l ∧ new.length ≤ 1 ∧
      ∀ k ∈ new, k ∉ l := by
  have hsame : ∀ kept : List κ, kept.Sublist l → ∃ kept' new, kept = kept' ++ new ∧
      kept'.Sublist l ∧ new.length ≤ 1 ∧ ∀ k ∈ new, k ∉ l := by
    intro kept hkept
    refine ⟨kept, [], (List.append_nil kept).symm, hkept, Nat.zero_le 1, ?_⟩
    exact fun k hk => absurd hk List.not_mem_nil
  cases c with
  | add k =>
    rw [step]
    split_ifs with hk
    · exact hsame l (List.Sublist.refl l)
    · refine ⟨l.drop (l.length + 1 - limit), [k], newest_concat hlimit l k, List.drop_sublist _ l,
        Nat.le_refl 1, fun k' hk' => ?_⟩
      rw [List.mem_singleton.mp hk']
      exact hk
  | remove k => exact hsame _ List.filter_sublist
  | clear => exact hsame [] (List.nil_sublist l)
  | other => exact hsame l (List.Sublist.refl l)

end

/-! ### Runs -/

section Runs

variable {limit : Nat} (cs : List (Change κ))

theorem nodup_run (limit : Nat) : (Run.run (step limit) [] cs).Nodup :=
  Run.invariant (P := fun l : List κ => l.Nodup) (fun _ _ h => nodup_step h) List.nodup_nil cs

theorem length_run_le (limit : Nat) : (Run.run (step limit) [] cs).length ≤ limit :=
  Run.invariant (P := fun l : List κ => l.length ≤ limit) (fun _ _ h => length_step_le h)
    (show ([] : List κ).length ≤ limit from Nat.zero_le limit) cs

theorem run_concat (limit : Nat) (c : Change κ) :
    Run.run (step limit) [] (cs ++ [c]) = step limit (Run.run (step limit) [] cs) c :=
  Run.run_append [] cs [c]

/-- **The keys of the list are in the order in which they came in.** -/
theorem insertedBefore_run (hlimit : 0 < limit) :
    (Run.run (step limit) [] cs).Pairwise (InsertedBefore limit cs) := by
  induction cs using List.reverseRecOn with
  | nil => exact List.Pairwise.nil
  | append_singleton cs c ih =>
    have hrun := run_concat cs limit c
    obtain ⟨kept, new, hstep, hkept, hnew, hfresh⟩ :=
      step_eq_append hlimit (Run.run (step limit) [] cs) c
    rw [hstep] at hrun
    rw [hrun, List.pairwise_append]
    -- a key that stays in the list is there after one more change
    have hstay : ∀ a ∈ kept, a ∈ Run.run (step limit) [] (cs ++ [c]) := by
      intro a ha
      rw [hrun]
      exact List.mem_append_left new ha
    refine ⟨?_, ?_, ?_⟩
    · refine (ih.sublist hkept).imp_of_mem (fun {a b} ha _ hab => ?_)
      obtain ⟨pre, post, rfl, hb, hall⟩ := hab
      refine ⟨pre, post ++ [c], List.append_assoc pre post [c], hb, fun p hp => ?_⟩
      rcases List.prefix_concat_iff.mp hp with rfl | hp
      · rw [← List.append_assoc]
        exact hstay a ha
      · exact hall p hp
    · cases new with
      | nil => exact List.Pairwise.nil
      | cons k rest =>
        obtain rfl := List.eq_nil_of_length_eq_zero (Nat.le_zero.mp (Nat.le_of_succ_le_succ hnew))
        exact List.pairwise_singleton _ k
    · intro a ha b hb
      refine ⟨cs, [c], rfl, hfresh b hb, fun p hp => ?_⟩
      rcases List.prefix_concat_iff.mp (show p <+: [] ++ [c] from hp) with rfl | hp
      · exact hstay a ha
      · rw [List.prefix_nil.mp hp, List.append_nil]
        exact hkept.subset ha

/-- Within the limit a new key drops no other one. -/
theorem run_concat_add {k : κ} (hmem : ∀ k, k ∈ Run.run (step limit) [] cs ↔ IsSet cs k)
    (hwithin : Within limit (cs ++ [.add k])) (hk : k ∉ Run.run (step limit) [] cs) :
    Run.run (step limit) [] (cs ++ [.add k]) = Run.run (step limit) [] cs ++ [k] := by
  have hnodup : (Run.run (step limit) [] cs ++ [k]).Nodup := by
    refine List.nodup_append.mpr ⟨nodup_run cs limit, List.nodup_singleton k, ?_⟩
    intro a ha b hb
    rw [List.mem_singleton.mp hb]
    exact fun heq => hk (heq ▸ ha)
  have hle : (Run.run (step limit) [] cs ++ [k]).length ≤ limit := by
    refine hwithin _ (List.prefix_refl _) _ hnodup (fun a ha => ?_)
    rw [isSet_concat, ← hmem]
    rcases List.mem_append.mp ha with ha | ha
    · exact .inr ⟨ha, rfl⟩
    · rw [List.mem_singleton.mp ha]
      exact .inl rfl
  rw [run_concat, step, if_neg hk, newest_of_le hle]

/-- **Within its limit the list has the keys of the set.** -/
theorem mem_run_iff (hwithin : Within limit cs) (k : κ) :
    k ∈ Run.run (step limit) [] cs ↔ IsSet cs k := by
  induction cs using List.reverseRecOn generalizing k with
  | nil => exact iff_of_false List.not_mem_nil (not_isSet_nil k)
  | append_singleton cs c ih =>
    have ih' := ih hwithin.of_concat
    rw [isSet_concat, ← ih']
    cases c with
    | add k' =>
      have hdrops : (Change.add k').drops k = false := rfl
      rw [hdrops, Change.add.injEq]
      by_cases hk' : k' ∈ Run.run (step limit) [] cs
      · rw [run_concat, step, if_pos hk']
        refine ⟨fun hk => .inr ⟨hk, rfl⟩, ?_⟩
        rintro (rfl | ⟨hk, -⟩)
        · exact hk'
        · exact hk
      · rw [run_concat_add cs ih' hwithin hk', List.mem_append, List.mem_singleton, or_comm,
          eq_comm (a := k)]
        simp
    | remove k' =>
      rw [run_concat, step, List.mem_filter, decide_eq_true_eq, Change.drops,
        decide_eq_false_iff_not]
      constructor
      · exact fun h => .inr ⟨h.1, fun heq => h.2 heq.symm⟩
      · rintro (heq | h)
        · exact nomatch heq
        · exact ⟨h.1, fun heq => h.2 heq.symm⟩
    | clear => simp [run_concat, step, Change.drops]
    | other => simp [run_concat, step, Change.drops]

/-- Within the limit the list only grows at its end as long as no key is taken out. -/
theorem run_prefix_of_grows {post : List (Change κ)} (hwithin : Within limit (cs ++ post))
    (hgrows : ∀ c ∈ post, ∀ k, c.drops k = false) :
    Run.run (step limit) [] cs <+: Run.run (step limit) [] (cs ++ post) := by
  induction post using List.reverseRecOn with
  | nil =>
    exact (List.append_nil cs).symm ▸ List.prefix_refl _
  | append_singleton post c ih =>
    rw [← List.append_assoc] at hwithin ⊢
    have hpost : ∀ c ∈ post, ∀ k, c.drops k = false :=
      fun c hc => hgrows c (List.mem_append_left _ hc)
    have hc := hgrows c (List.mem_append_right _ List.mem_cons_self)
    refine (ih hwithin.of_concat hpost).trans ?_
    cases c with
    | add k =>
      by_cases hk : k ∈ Run.run (step limit) [] (cs ++ post)
      · have hsame : step limit (Run.run (step limit) [] (cs ++ post)) (.add k) =
            Run.run (step limit) [] (cs ++ post) := if_pos hk
        exact (run_concat ..).trans hsame ▸ List.prefix_refl _
      · rw [run_concat_add _ (mem_run_iff _ hwithin.of_concat) hwithin hk]
        exact List.prefix_append _ _
    | remove k =>
      have hdrop := hc k
      rw [Change.drops, decide_eq_true rfl] at hdrop
      exact nomatch hdrop
    | clear =>
      rcases hrun : Run.run (step limit) [] (cs ++ post) with _ | ⟨k, rest⟩
      · exact List.nil_prefix
      · exact nomatch hc k
    | other =>
      have hsame : step limit (Run.run (step limit) [] (cs ++ post)) .other =
          Run.run (step limit) [] (cs ++ post) := rfl
      exact (run_concat ..).trans hsame ▸ List.prefix_refl _

end Runs

end Mirror
