import Mathlib.Data.List.TakeWhile
import Repartee.Lib.Utf8

/-!
# Scanning the bytes of a text

A loop over the UTF-8 bytes of a text asks predicates of single bytes. Where a predicate says the
same of every byte of a character, the loop is one over characters.

## Main definitions

- `Utf8.Agrees`: a predicate on bytes that is one on characters

## Main results

- `Utf8.agrees_of_ascii`: a check of the ASCII characters is enough
- `Utf8.Agrees.takeWhile_encode`: scanning bytes is scanning characters
- `Utf8.slice_append`, `Utf8.getElem?_encode`: what is found at the end of a prefix
-/

set_option autoImplicit false

namespace Utf8

/-- A predicate on bytes says of each byte of a character what one on characters says of it. -/
def Agrees (p : UInt8 → Bool) (q : Char → Bool) : Prop :=
  ∀ c, ∀ b ∈ String.utf8EncodeChar c, p b = q c

variable {p : UInt8 → Bool} {q : Char → Bool}

theorem encodeChar_cases (c : Char) :
    c.toNat < 128 ∧ String.utf8EncodeChar c = [UInt8.ofNat c.toNat] ∨
      128 ≤ c.toNat ∧ ∀ b ∈ String.utf8EncodeChar c, 0x80 ≤ b := by
  by_cases hc : c.toNat < 128
  · exact .inl ⟨hc, encodeChar_of_lt hc⟩
  · obtain ⟨b, b', bs, heq, hall⟩ := encodeChar_of_le (Nat.le_of_not_lt hc)
    exact .inr ⟨Nat.le_of_not_lt hc, heq ▸ hall⟩

/-- Predicates that agree on ASCII, and do not look at anything beyond it. -/
theorem agrees_of_ascii {v : Bool} (hascii : ∀ n < 128, p (UInt8.ofNat n) = q (Char.ofNat n))
    (hbyte : ∀ b, 0x80 ≤ b → p b = v) (hchar : ∀ c : Char, 128 ≤ c.toNat → q c = v) :
    Agrees p q := by
  intro c b hb
  rcases encodeChar_cases c with ⟨hc, heq⟩ | ⟨hc, hall⟩
  · rw [heq, List.mem_singleton] at hb
    rw [hb, hascii c.toNat hc, Char.ofNat_toNat]
  · rw [hbyte b (hall b hb), hchar c hc]

theorem encodeChar_ne_nil (c : Char) : String.utf8EncodeChar c ≠ [] := by
  intro hnil
  have hlen := String.length_utf8EncodeChar c
  have hpos := Char.utf8Size_pos c
  rw [hnil, List.length_nil] at hlen
  omega

theorem Agrees.takeWhile_encode (h : Agrees p q) (s : List Char) :
    (encode s).takeWhile p = encode (s.takeWhile q) := by
  induction s with
  | nil => rfl
  | cons c s ih =>
    rw [encode_cons]
    cases hq : q c with
    | true =>
      have hall : ∀ b ∈ String.utf8EncodeChar c, p b = true := fun b hb => (h c b hb).trans hq
      rw [List.takeWhile_append_of_pos hall, ih, List.takeWhile_cons_of_pos hq, encode_cons]
    | false =>
      rw [List.takeWhile_cons_of_neg (by simp [hq])]
      cases hbytes : String.utf8EncodeChar c with
      | nil => exact absurd hbytes (encodeChar_ne_nil c)
      | cons b bs =>
        have hb : p b = false := (h c b (hbytes ▸ List.mem_cons_self)).trans hq
        rw [List.cons_append, List.takeWhile_cons_of_neg (by simp [hb])]
        rfl

/-- The byte where a prefix of a text ends. -/
theorem getElem?_encode (pre s : List Char) :
    (encode (pre ++ s))[byteLen pre]? = (encode s).head? := by
  rw [← List.head?_drop, drop_encode_append]

/-- The text between a prefix and what follows it. -/
theorem slice_append (pre m post : List Char) :
    slice (pre ++ m ++ post) (byteLen pre) (byteLen pre + byteLen m) = some m :=
  slice_eq_some_iff.mpr ⟨pre, post, rfl, rfl, rfl⟩

/-- A text begins with the byte of an ASCII character exactly when it begins with the
character. -/
theorem head?_encode_eq_iff {d : Char} (hd : d.toNat < 128) {s : List Char} :
    (encode s).head? = some (UInt8.ofNat d.toNat) ↔ s.head? = some d := by
  cases s with
  | nil => simp
  | cons c s =>
    rw [List.head?_cons, Option.some.injEq]
    rcases encodeChar_cases c with ⟨hc, heq⟩ | ⟨hc, hall⟩
    · rw [encode_cons, heq, List.singleton_append, List.head?_cons, Option.some.injEq]
      exact ⟨eq_of_ofNat_toNat_eq hc hd, fun h => h ▸ rfl⟩
    · refine iff_of_false (fun h => ?_) (fun h => ?_)
      · cases hbytes : String.utf8EncodeChar c with
        | nil => exact encodeChar_ne_nil c hbytes
        | cons b bs =>
          rw [encode_cons, hbytes, List.cons_append, List.head?_cons, Option.some.injEq] at h
          have hle := hall b (hbytes ▸ List.mem_cons_self)
          rw [h, UInt8.le_iff_toNat_le, UInt8.toNat_ofNat'] at hle
          have h80 : (0x80 : UInt8).toNat = 128 := rfl
          omega
      · rw [h] at hc
        omega

end Utf8
