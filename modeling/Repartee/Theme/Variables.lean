import Repartee.Theme.Parser

/-!
# The variables of a format

A format is a list of *tokens*, which does not depend on the parameters; substituting reads the
tokens and writes each of them out. Only a padded variable can fail, on its width.

## Main results

- `substituteVars_eq`: substitution writes out the tokens of the format
- `isSome_substituteVars_iff`: it fails exactly on a width that is too large
-/

set_option autoImplicit false

namespace Repartee.Theme

/-- What a format is made of. -/
inductive Token where
  /-- A character that stands for itself. -/
  | lit (c : Char)
  /-- A `$` that no variable follows, with the character after it. -/
  | kept (c : Char)
  | all
  | padded (padWidth : Int) (idx : Nat)
  | var (idx : Nat)
  deriving DecidableEq

/-- The token at the front of a format, and what remains. -/
def readToken : Char → Str → Token × Str
  | '$', [] => (.lit '$', [])
  | '$', '*' :: rest => (.all, rest)
  | '$', '[' :: rest =>
    let rest' := (rest.dropWhile (· ≠ ']')).drop 1
    (.padded (parseWidth (rest.takeWhile (· ≠ ']'))) (parseIndex (rest'.takeWhile Char.isDigit)),
      rest'.dropWhile Char.isDigit)
  | '$', c :: rest =>
    if c.isDigit then
      (.var (parseIndex ((c :: rest).takeWhile Char.isDigit)),
        (c :: rest).dropWhile Char.isDigit)
    else (.kept c, rest)
  | c, rest => (.lit c, rest)

def tokensFrom : (fuel : Nat) → Str → List Token
  | 0, _ => []
  | _ + 1, [] => []
  | fuel + 1, c :: rest => (readToken c rest).1 :: tokensFrom fuel (readToken c rest).2

/-- The tokens of a format. -/
def tokens (input : Str) : List Token := tokensFrom input.length input

/-- A token written out, if its width fits. -/
def Token.expand (params : List Str) : Token → Option Str
  | .lit c => some [c]
  | .kept c => some ['$', c]
  | .all => some (joinParams params)
  | .padded padWidth idx => pad (params.getD idx []) padWidth
  | .var idx => some (params.getD idx [])

/-- Tokens written out one after the other. -/
def expandAll (params : List Str) : List Token → Option Str
  | [] => some []
  | t :: ts => (t.expand params).bind (fun s => (expandAll params ts).map (s ++ ·))

/-! ### Substitution writes out the tokens -/

theorem expandAll_append (params : List Str) (ts us : List Token) :
    expandAll params (ts ++ us) =
      (expandAll params ts).bind (fun s => (expandAll params us).map (s ++ ·)) := by
  induction ts with
  | nil => simp [expandAll]
  | cons t ts ih =>
    rw [List.cons_append, expandAll, expandAll, ih]
    cases t.expand params <;> cases expandAll params ts <;> cases expandAll params us <;>
      simp [List.append_assoc]

/-- One round of the loop writes out one token. -/
theorem substituteLoop_cons (params : List Str) (fuel : Nat) (c : Char) (rest result : Str) :
    substituteLoop params (fuel + 1) (c :: rest) result =
      ((readToken c rest).1.expand params).bind
        (fun s => substituteLoop params fuel (readToken c rest).2 (result ++ s)) := by
  unfold readToken
  split
  · simp only [substituteLoop, Token.expand, Option.bind_some]
    cases fuel <;> rfl
  · rfl
  · rw [substituteLoop]
    dsimp only [Token.expand]
    split
    · rename_i h
      rw [h]
      rfl
    · rename_i h
      rw [h]
      rfl
  · rename_i d rest' hs hb
    rw [substituteLoop]
    · split
      · rfl
      · rfl
    · exact fun h => hs h
    · exact fun h => hb h
  · rename_i h₀ hs hb hd
    rw [substituteLoop]
    · rfl
    · rintro rfl
      cases rest with
      | nil => exact h₀ rfl rfl
      | cons d rest => exact hd d rest rfl rfl

theorem substituteLoop_eq (params : List Str) (fuel : Nat) (input result : Str) :
    substituteLoop params fuel input result =
      (expandAll params (tokensFrom fuel input)).map (result ++ ·) := by
  induction fuel generalizing input result with
  | zero => simp [substituteLoop, tokensFrom, expandAll]
  | succ fuel ih =>
    cases input with
    | nil => simp [substituteLoop, tokensFrom, expandAll]
    | cons c rest =>
      rw [substituteLoop_cons, tokensFrom, expandAll]
      cases (readToken c rest).1.expand params with
      | none => rfl
      | some s =>
        rw [Option.bind_some, Option.bind_some, ih, Option.map_map]
        congr 1
        funext u
        simp

/-- **Substitution** writes out the tokens of the format. -/
theorem substituteVars_eq (input : Str) (params : List Str) :
    substituteVars input params = expandAll params (tokens input) := by
  rw [substituteVars, substituteLoop_eq]
  simp [tokens]

/-! ### Termination -/

/-- Every round of the loop reads a character. -/
theorem length_readToken_le (c : Char) (rest : Str) :
    (readToken c rest).2.length ≤ rest.length := by
  have hdrop : ∀ (p : Char → Bool) (s : Str), (s.dropWhile p).length ≤ s.length :=
    fun p s => (List.dropWhile_sublist p).length_le
  unfold readToken
  split
  · exact Nat.le_refl _
  · simp
  · rename_i rest
    dsimp only
    have h₁ := hdrop Char.isDigit ((rest.dropWhile (· ≠ ']')).drop 1)
    have h₂ := hdrop (· ≠ ']') rest
    simp only [List.length_drop, List.length_cons] at h₁ ⊢
    omega
  · split
    · exact hdrop _ _
    · simp
  · exact Nat.le_refl _

/-! ### Formats without variables -/

def Token.isVariable : Token → Bool
  | .lit _ => false
  | .kept _ => false
  | .all => true
  | .padded _ _ => true
  | .var _ => true

def hasVariables (input : Str) : Bool := (tokens input).any Token.isVariable

/-- A token that is no variable is written out as it was read. -/
theorem readToken_of_not_isVariable {c : Char} {rest : Str} (params : List Str)
    (h : (readToken c rest).1.isVariable = false) :
    ∃ s, (readToken c rest).1.expand params = some s ∧ c :: rest = s ++ (readToken c rest).2 := by
  unfold readToken at h ⊢
  split at h
  · exact ⟨_, rfl, rfl⟩
  · cases h
  · cases h
  · split at h
    · cases h
    · rename_i hdigit
      rw [if_neg hdigit]
      exact ⟨_, rfl, rfl⟩
  · exact ⟨_, rfl, rfl⟩

theorem substituteVars_of_not_hasVariables {input : Str} (params : List Str)
    (h : hasVariables input = false) : substituteVars input params = some input := by
  have haux : ∀ fuel input, input.length ≤ fuel →
      (tokensFrom fuel input).any Token.isVariable = false →
      expandAll params (tokensFrom fuel input) = some input := by
    intro fuel
    induction fuel with
    | zero =>
      intro input hle _
      cases List.eq_nil_of_length_eq_zero (Nat.le_zero.mp hle)
      rfl
    | succ fuel ih =>
      intro input hle hvars
      cases input with
      | nil => rfl
      | cons c rest =>
        rw [tokensFrom, List.any_cons, Bool.or_eq_false_iff] at hvars
        obtain ⟨s, hs, hinput⟩ := readToken_of_not_isVariable params hvars.1
        have hlen := length_readToken_le c rest
        rw [List.length_cons] at hle
        rw [tokensFrom, expandAll, hs, Option.bind_some, ih _ (by omega) hvars.2, hinput]
        rfl
  rw [substituteVars_eq]
  exact haux input.length input (Nat.le_refl _) h

/-! ### Widths -/

/-- Every padded variable of the format has a width that `write!` takes. -/
def WidthsFit (input : Str) : Prop :=
  ∀ padWidth idx, Token.padded padWidth idx ∈ tokens input → padWidth.natAbs ≤ maxFormatWidth

theorem isSome_pad_iff {value : Str} {padWidth : Int} :
    (pad value padWidth).isSome = true ↔ padWidth.natAbs ≤ maxFormatWidth := by
  unfold pad
  dsimp only
  split
  · simp
    omega
  · split <;> simp <;> omega

theorem isSome_expandAll_iff {params : List Str} {ts : List Token} :
    (expandAll params ts).isSome = true ↔
      ∀ t ∈ ts, (t.expand params).isSome = true := by
  induction ts with
  | nil => simp [expandAll]
  | cons t ts ih =>
    rw [expandAll, List.forall_mem_cons, ← ih]
    cases t.expand params <;> cases expandAll params ts <;> simp

/-- Substitution fails exactly on a width that is too large. -/
theorem isSome_substituteVars_iff {input : Str} {params : List Str} :
    (substituteVars input params).isSome = true ↔ WidthsFit input := by
  rw [substituteVars_eq, isSome_expandAll_iff]
  constructor
  · intro h padWidth idx hmem
    exact (isSome_pad_iff).mp (h _ hmem)
  · intro h t ht
    cases t with
    | padded padWidth idx => exact (isSome_pad_iff).mpr (h padWidth idx ht)
    | lit c => rfl
    | kept c => rfl
    | all => rfl
    | var idx => rfl

end Repartee.Theme
