import Mathlib.Data.List.Basic

/-!
# Base64

The standard alphabet, with padding.

## Main definitions

- `Base64.encode`

## Main results

- `Base64.length_encode`, `Base64.ascii_encode`: how long an encoding is, and of which characters
-/

set_option autoImplicit false

namespace Base64

/-- The character of six bits. -/
def digit (n : Nat) : Char :=
  if n < 26 then Char.ofNat (65 + n)
  else if n < 52 then Char.ofNat (71 + n)
  else if n < 62 then Char.ofNat (n - 4)
  else if n = 62 then '+'
  else '/'

/-- Four characters for three bytes; the last group is padded. -/
def encode : List UInt8 → List Char
  | [] => []
  | [a] =>
    let n := a.toNat * 16
    [digit (n / 64), digit (n % 64), '=', '=']
  | [a, b] =>
    let n := (a.toNat * 256 + b.toNat) * 4
    [digit (n / 4096), digit (n / 64 % 64), digit (n % 64), '=']
  | a :: b :: c :: rest =>
    let n := (a.toNat * 256 + b.toNat) * 256 + c.toNat
    digit (n / 262144) :: digit (n / 4096 % 64) :: digit (n / 64 % 64) :: digit (n % 64) ::
      encode rest

theorem length_encode (bytes : List UInt8) :
    (encode bytes).length = 4 * ((bytes.length + 2) / 3) := by
  induction bytes using encode.induct with
  | case1 => rfl
  | case2 a => simp [encode]
  | case3 a b => simp [encode]
  | case4 a b c rest ih =>
    simp only [encode, List.length_cons, ih]
    omega

theorem digit_lt (n : Nat) : (digit n).toNat < 128 := by
  have hchar : ∀ k < 128, (Char.ofNat k).toNat < 128 := by decide
  unfold digit
  split_ifs
  · exact hchar _ (by omega)
  · exact hchar _ (by omega)
  · exact hchar _ (by omega)
  · decide
  · decide

theorem ascii_encode (bytes : List UInt8) : ∀ c ∈ encode bytes, c.toNat < 128 := by
  have hpad : ('=' : Char).toNat < 128 := by decide
  induction bytes using encode.induct with
  | case1 => exact fun c hc => absurd hc List.not_mem_nil
  | case2 a =>
    simp only [encode, List.forall_mem_cons, digit_lt, hpad, true_and]
    exact fun c hc => absurd hc List.not_mem_nil
  | case3 a b =>
    simp only [encode, List.forall_mem_cons, digit_lt, hpad, true_and]
    exact fun c hc => absurd hc List.not_mem_nil
  | case4 a b c rest ih =>
    simp only [encode, List.forall_mem_cons, digit_lt, true_and]
    exact ih

end Base64
