import Mathlib.Data.List.Find
import Repartee.Lib.Replace

/-!
# Templates

A template is a text with variables in it. Instantiating it puts the values of its variables in
their places at once; `Text.replaceEach` does so for one variable after the other, over the whole
text that the ones before it have left.

## Main definitions

- `Template.tokens`: the characters and the variables of a text
- `Template.instantiate`: the text with its variables instantiated
- `Template.Undisturbed`: no variable is written where the template does not have it

## Main results

- `Template.tokens_append_stop`: a character that no variable has separates templates
- `Template.replaceEach_tokens`: undisturbed, one replacement after the other instantiates
-/

set_option autoImplicit false

universe u

namespace Template

inductive Token (β : Type u) where
  | lit (c : Char)
  | var (x : β)
  deriving DecidableEq

variable {β : Type u} (source value : β → List Char)

/-- Find the variables of a text from the left, the first one of `vars` that is written there;
`skip` characters belong to the last one. -/
def tokensFrom (vars : List β) : (skip : Nat) → List Char → List (Token β)
  | _, [] => []
  | skip + 1, _ :: s => tokensFrom vars skip s
  | 0, c :: s =>
    match vars.find? (fun x => (source x).isPrefixOf (c :: s)) with
    | some x => .var x :: tokensFrom vars ((source x).length - 1) s
    | none => .lit c :: tokensFrom vars 0 s

def tokens (vars : List β) (s : List Char) : List (Token β) := tokensFrom source vars 0 s

def Token.instantiated : Token β → List Char
  | .lit c => [c]
  | .var x => value x

/-- The text with its variables instantiated. -/
def instantiate (toks : List (Token β)) : List Char := toks.flatMap (Token.instantiated value)

variable [DecidableEq β]

/-- A token, with some of the variables instantiated. -/
def Token.written (done : List β) : Token β → List Char
  | .lit c => [c]
  | .var x => if x ∈ done then value x else source x

/-- The text with some of the variables instantiated. -/
def written (done : List β) (toks : List (Token β)) : List Char :=
  toks.flatMap (Token.written source value done)

/-- Where the tokens have no variable `x`, it does not begin in the text either. -/
def OnlyOwn (done : List β) (x : β) : List (Token β) → Prop
  | [] => True
  | tok :: toks =>
    (tok ≠ .var x → ∀ i < (tok.written source value done).length,
      ¬ source x <+: (tok.written source value done).drop i ++ written source value done toks) ∧
    OnlyOwn done x toks

instance decidableOnlyOwn (done : List β) (x : β) :
    ∀ toks, Decidable (OnlyOwn source value done x toks)
  | [] => .isTrue trivial
  | _ :: toks =>
    have : Decidable (OnlyOwn source value done x toks) := decidableOnlyOwn done x toks
    inferInstanceAs (Decidable (_ ∧ _))

/-- So it is for one variable after the other. -/
def Undisturbed (toks : List (Token β)) : (done vars : List β) → Prop
  | _, [] => True
  | done, x :: vars => OnlyOwn source value done x toks ∧ Undisturbed toks (done ++ [x]) vars

instance decidableUndisturbed (toks : List (Token β)) :
    ∀ done vars, Decidable (Undisturbed source value toks done vars)
  | _, [] => .isTrue trivial
  | done, x :: vars =>
    have : Decidable (Undisturbed source value toks (done ++ [x]) vars) :=
      decidableUndisturbed toks (done ++ [x]) vars
    inferInstanceAs (Decidable (_ ∧ _))

variable {source value} {vars done : List β} {x : β} {toks : List (Token β)} {s t : List Char}
  {c : Char}

/-! ### Tokens -/

omit [DecidableEq β]

theorem tokensFrom_eq (n : Nat) (s : List Char) :
    tokensFrom source vars n s = tokens source vars (s.drop n) := by
  induction s generalizing n with
  | nil => cases n <;> rfl
  | cons c s ih =>
    cases n with
    | zero => rfl
    | succ n => rw [tokensFrom, ih, List.drop_succ_cons]

theorem tokens_of_none
    (h : vars.find? (fun x => (source x).isPrefixOf (c :: s)) = none) :
    tokens source vars (c :: s) = .lit c :: tokens source vars s := by
  rw [tokens, tokensFrom, h]
  rfl

theorem tokens_of_some (hne : ∀ x ∈ vars, source x ≠ [])
    (h : vars.find? (fun x => (source x).isPrefixOf s) = some x) :
    ∃ t, s = source x ++ t ∧ x ∈ vars ∧
      tokens source vars s = .var x :: tokens source vars t := by
  have hx := List.mem_of_find?_eq_some h
  have hprefix : (source x).isPrefixOf s = true :=
    List.find?_some (p := fun y => (source y).isPrefixOf s) h
  obtain ⟨t, rfl⟩ := List.isPrefixOf_iff_prefix.mp hprefix
  refine ⟨t, rfl, hx, ?_⟩
  cases hs : source x with
  | nil => exact absurd hs (hne x hx)
  | cons d p =>
    rw [hs, List.cons_append] at h
    rw [List.cons_append, tokens, tokensFrom, h]
    dsimp only
    rw [tokensFrom_eq, hs]
    simp

/-- **Induction along the tokens of a text.** -/
theorem tokens_induction (source : β → List Char) {vars : List β}
    (hne : ∀ x ∈ vars, source x ≠ []) {motive : List Char → Prop} (nil : motive [])
    (lit : ∀ c s, vars.find? (fun x => (source x).isPrefixOf (c :: s)) = none → motive s →
      motive (c :: s))
    (var : ∀ x s, x ∈ vars → vars.find? (fun y => (source y).isPrefixOf (source x ++ s)) = some x →
      motive s → motive (source x ++ s)) (s : List Char) : motive s := by
  induction hn : s.length using Nat.strongRecOn generalizing s with
  | _ n ih =>
    subst hn
    cases s with
    | nil => exact nil
    | cons c s =>
      cases h : vars.find? (fun x => (source x).isPrefixOf (c :: s)) with
      | none => exact lit c s h (ih s.length (Nat.lt_succ_self _) s rfl)
      | some x =>
        obtain ⟨t, ht, hx, -⟩ := tokens_of_some hne h
        have hpos := List.length_pos_iff.mpr (hne x hx)
        rw [ht, List.length_append] at ih
        rw [ht] at h
        exact ht ▸ var x t hx h (ih t.length (by omega) t rfl)

/-- The tokens are those of the variables. -/
theorem mem_of_var_mem (hne : ∀ x ∈ vars, source x ≠ [])
    (h : .var x ∈ tokens source vars s) : x ∈ vars := by
  induction s using tokens_induction source hne with
  | nil => exact absurd h List.not_mem_nil
  | lit c s hnone ih =>
    rw [tokens_of_none hnone] at h
    exact ih ((List.mem_cons.mp h).resolve_left (fun heq => nomatch heq))
  | var y s hy hsome ih =>
    obtain ⟨t, ht, -, htoks⟩ := tokens_of_some hne hsome
    rw [htoks] at h
    rcases List.mem_cons.mp h with heq | h
    · exact (Token.var.inj heq) ▸ hy
    · exact ih (List.append_cancel_left ht ▸ h)

/-- A character that no variable has separates templates. -/
theorem tokens_append_stop (hne : ∀ x ∈ vars, source x ≠ []) (hc : ∀ x ∈ vars, c ∉ source x)
    (s t : List Char) : tokens source vars (s ++ c :: t) =
      tokens source vars s ++ .lit c :: tokens source vars t := by
  have hprefix : ∀ u, ∀ x ∈ vars, (source x).isPrefixOf (u ++ c :: t) =
      (source x).isPrefixOf u := by
    intro u x hx
    rw [Bool.eq_iff_iff, List.isPrefixOf_iff_prefix, List.isPrefixOf_iff_prefix]
    exact ⟨Text.prefix_of_notMem (hc x hx), fun h => h.trans (List.prefix_append u _)⟩
  have hfind : ∀ u, vars.find? (fun x => (source x).isPrefixOf (u ++ c :: t)) =
      vars.find? (fun x => (source x).isPrefixOf u) := fun u =>
    List.find?_congr (fun x hx => hprefix u x hx)
  induction s using tokens_induction source hne with
  | nil =>
    have hnone : vars.find? (fun x => (source x).isPrefixOf ([] ++ c :: t)) = none := by
      rw [hfind, List.find?_eq_none]
      intro x hx
      rw [List.isPrefixOf_iff_prefix]
      exact fun h => hne x hx (List.prefix_nil.mp h)
    exact tokens_of_none hnone
  | lit d s h ih =>
    have h' := (hfind (d :: s)).trans h
    rw [List.cons_append] at h' ⊢
    rw [tokens_of_none h', ih, tokens_of_none h, List.cons_append]
  | var x s hx h ih =>
    have h' := (hfind (source x ++ s)).trans h
    obtain ⟨u, hu, -, htoks⟩ := tokens_of_some hne h
    obtain ⟨u', hu', -, htoks'⟩ := tokens_of_some hne h'
    rw [List.append_assoc] at hu'
    obtain rfl := List.append_cancel_left hu
    obtain rfl := List.append_cancel_left hu'
    rw [htoks, htoks', ih, List.cons_append]

/-! ### One variable after the other -/

variable [DecidableEq β]

/-- A text in which no occurrence begins is left alone. -/
theorem replace_skip {pat : List Char} (rep : List Char)
    (h : ∀ i < s.length, ¬ pat <+: s.drop i ++ t) :
    Text.replace pat rep (s ++ t) = s ++ Text.replace pat rep t := by
  induction s with
  | nil => rfl
  | cons c s ih =>
    have hfirst : ¬ pat <+: c :: (s ++ t) := h 0 (Nat.succ_pos _)
    have hrest : ∀ i < s.length, ¬ pat <+: s.drop i ++ t := fun i hi =>
      h (i + 1) (Nat.succ_lt_succ hi)
    rw [List.cons_append, Text.replace_cons hfirst, ih hrest, List.cons_append]

theorem written_nil_tokens (hne : ∀ x ∈ vars, source x ≠ []) (s : List Char) :
    written source value [] (tokens source vars s) = s := by
  induction s using tokens_induction source hne with
  | nil => rfl
  | lit c s h ih =>
    rw [tokens_of_none h, written, List.flatMap_cons, ← written, ih]
    rfl
  | var x s hx h ih =>
    obtain ⟨t, ht, -, htoks⟩ := tokens_of_some hne h
    obtain rfl := List.append_cancel_left ht
    rw [htoks, written, List.flatMap_cons, ← written, ih]
    rfl

/-- With all its variables done, a text is instantiated. -/
theorem written_eq_instantiate (h : ∀ x, .var x ∈ toks → x ∈ done) :
    written source value done toks = instantiate value toks := by
  refine List.flatMap_congr (fun tok htok => ?_)
  cases tok with
  | lit c => rfl
  | var x => exact if_pos (h x htok)

theorem replace_written (hne : source x ≠ []) (hx : x ∉ done)
    (h : OnlyOwn source value done x toks) :
    Text.replace (source x) (value x) (written source value done toks) =
      written source value (done ++ [x]) toks := by
  induction toks with
  | nil => rfl
  | cons tok toks ih =>
    obtain ⟨hhead, htail⟩ := h
    have hcons : ∀ done', written source value done' (tok :: toks) =
        tok.written source value done' ++ written source value done' toks := fun _ => rfl
    rw [hcons, hcons]
    by_cases hown : tok = .var x
    · subst hown
      have hsource : (Token.var x).written source value done = source x := if_neg hx
      have hvalue : (Token.var x).written source value (done ++ [x]) = value x :=
        if_pos (List.mem_append_right done List.mem_cons_self)
      rw [hsource, hvalue, Text.replace_append hne, ih htail]
    · have hsame : tok.written source value (done ++ [x]) = tok.written source value done := by
        cases tok with
        | lit c => rfl
        | var y =>
          have hy : y ≠ x := fun heq => hown (congrArg Token.var heq)
          simp [Token.written, hy]
      rw [hsame, replace_skip (value x) (hhead hown), ih htail]

theorem replaceEach_written (hne : ∀ x ∈ vars, source x ≠ []) (hnodup : (done ++ vars).Nodup)
    (h : Undisturbed source value toks done vars) :
    Text.replaceEach source value vars (written source value done toks) =
      written source value (done ++ vars) toks := by
  induction vars generalizing done with
  | nil => rw [List.append_nil]; rfl
  | cons x vars ih =>
    have hx : x ∉ done := by
      intro hmem
      exact (List.nodup_append.mp hnodup).2.2 x hmem x List.mem_cons_self rfl
    have hsplit : done ++ x :: vars = done ++ [x] ++ vars := List.append_cons done x vars
    rw [Text.replaceEach_cons, replace_written (hne x List.mem_cons_self) hx h.1,
      ih (fun y hy => hne y (List.mem_cons_of_mem x hy)) (hsplit ▸ hnodup) h.2, hsplit]

/-- **Undisturbed, one replacement after the other instantiates the template.** -/
theorem replaceEach_tokens (hne : ∀ x ∈ vars, source x ≠ []) (hnodup : vars.Nodup)
    (h : Undisturbed source value (tokens source vars s) [] vars) :
    Text.replaceEach source value vars s = instantiate value (tokens source vars s) := by
  have hwritten :
      Text.replaceEach source value vars (written source value [] (tokens source vars s)) =
        written source value ([] ++ vars) (tokens source vars s) :=
    replaceEach_written hne hnodup h
  rw [written_nil_tokens hne, List.nil_append] at hwritten
  rw [hwritten, written_eq_instantiate (fun x hx => mem_of_var_mem hne hx)]

end Template
