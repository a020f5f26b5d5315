import Mathlib.Data.List.Basic

/-!
# Text with byte offsets

Text is a list of characters, and a byte offset into it counts the bytes of the UTF-8 encoding.
An offset is a *character boundary* when some prefix of the text has that many bytes. Slicing by
bytes is partial: it is defined exactly when the start is at most the end and both are
boundaries.

## Main definitions

- `Utf8.encode`, `Utf8.decode`: the encoding and its partial inverse
- `Utf8.splitAt`: cut a text at a byte offset
- `Utf8.isCharBoundary`: whether an offset can be cut at
- `Utf8.slice`: the text between two byte offsets
-/

set_option autoImplicit false

namespace Utf8

/-- The UTF-8 bytes of a text. -/
def encode (s : List Char) : List UInt8 := s.flatMap String.utf8EncodeChar

/-- The text with the given UTF-8 bytes, if they are valid. -/
def decode (b : List UInt8) : Option (List Char) := b.toByteArray.utf8Decode?.map Array.toList

/-- The number of bytes of a text. -/
def byteLen : List Char → Nat
  | [] => 0
  | c :: s => c.utf8Size + byteLen s

/-- Cut a text at a byte offset, if it is a character boundary. -/
def splitAt : List Char → Nat → Option (List Char × List Char)
  | s, 0 => some ([], s)
  | [], _ + 1 => none
  | c :: s, n + 1 =>
    if c.utf8Size ≤ n + 1 then
      (splitAt s (n + 1 - c.utf8Size)).map (fun p => (c :: p.1, p.2))
    else none

/-- Whether a byte offset falls between two characters (or at an end). -/
def isCharBoundary (s : List Char) (n : Nat) : Bool := (splitAt s n).isSome

/-- The text between two byte offsets, where both are boundaries and in order. -/
def slice (s : List Char) (a b : Nat) : Option (List Char) :=
  if a ≤ b then
    (splitAt s a).bind (fun p => (splitAt p.2 (b - a)).map Prod.fst)
  else none

/-! ### Encoding -/

@[simp] theorem encode_nil : encode [] = [] := rfl

@[simp] theorem encode_append (s t : List Char) : encode (s ++ t) = encode s ++ encode t := by
  simp [encode]

@[simp] theorem length_encode (s : List Char) : (encode s).length = byteLen s := by
  induction s with
  | nil => rfl
  | cons c s ih =>
    have hc : encode (c :: s) = String.utf8EncodeChar c ++ encode s := rfl
    simp [hc, byteLen, ih]

/-- Decoding inverts encoding. -/
theorem decode_encode (s : List Char) : decode (encode s) = some s := by
  have h : (encode s).toByteArray = s.utf8Encode := rfl
  simp [decode, h, List.utf8Decode?_utf8Encode]

theorem encode_injective {s t : List Char} (h : encode s = encode t) : s = t := by
  have hd := congrArg decode h
  rw [decode_encode, decode_encode] at hd
  exact Option.some.inj hd

theorem encode_eq_nil_iff {s : List Char} : encode s = [] ↔ s = [] :=
  ⟨fun h => encode_injective h, fun h => by rw [h]; rfl⟩

theorem encode_cons (c : Char) (s : List Char) :
    encode (c :: s) = String.utf8EncodeChar c ++ encode s := rfl

/-- An ASCII character is its own byte. -/
theorem encodeChar_of_lt {c : Char} (h : c.toNat < 128) :
    String.utf8EncodeChar c = [UInt8.ofNat c.toNat] := by
  have hc : c.val.toNat ≤ 127 := Nat.le_of_lt_succ h
  simp only [String.utf8EncodeChar, hc, if_true]
  rfl

/-- Any other character takes at least two bytes, none of them an ASCII byte. -/
theorem encodeChar_of_le {c : Char} (h : 128 ≤ c.toNat) :
    ∃ b b' bs, String.utf8EncodeChar c = b :: b' :: bs ∧ ∀ x ∈ b :: b' :: bs, 0x80 ≤ x := by
  have hc : ¬ c.val.toNat ≤ 127 := Nat.not_le.mpr h
  have hmax : c.val.toNat < 0x110000 := by
    have hv := c.valid
    simp only [UInt32.isValidChar, Nat.isValidChar] at hv
    omega
  simp only [String.utf8EncodeChar, hc, if_false]
  -- one case for each length of the encoding
  split
  · refine ⟨_, _, _, rfl, ?_⟩
    simp [UInt8.le_iff_toNat_le]
    omega
  · split
    · refine ⟨_, _, _, rfl, ?_⟩
      simp [UInt8.le_iff_toNat_le]
      omega
    · refine ⟨_, _, _, rfl, ?_⟩
      simp [UInt8.le_iff_toNat_le]
      omega

/-- ASCII characters differ in their bytes. -/
theorem eq_of_ofNat_toNat_eq {c d : Char} (hc : c.toNat < 128) (hd : d.toNat < 128)
    (h : UInt8.ofNat c.toNat = UInt8.ofNat d.toNat) : c = d := by
  have hn := congrArg UInt8.toNat h
  rw [UInt8.toNat_ofNat', UInt8.toNat_ofNat'] at hn
  apply Char.toNat_inj.mp
  omega

theorem two_le_utf8Size {c : Char} (h : 128 ≤ c.toNat) : 2 ≤ c.utf8Size := by
  obtain ⟨b, b', bs, he, -⟩ := encodeChar_of_le h
  rw [← String.length_utf8EncodeChar, he, List.length_cons, List.length_cons]
  omega

theorem encode_cons_of_lt {c : Char} (h : c.toNat < 128) (s : List Char) :
    encode (c :: s) = UInt8.ofNat c.toNat :: encode s := by
  rw [encode_cons, encodeChar_of_lt h]
  rfl

/-- A leading ASCII byte is a leading ASCII character. -/
theorem exists_of_encode_eq_cons {s : List Char} {b : UInt8} {r : List UInt8}
    (h : encode s = b :: r) (hb : b < 0x80) :
    ∃ c t, s = c :: t ∧ c.toNat < 128 ∧ b = UInt8.ofNat c.toNat ∧ encode t = r := by
  cases s with
  | nil => cases h
  | cons c t =>
    by_cases hc : c.toNat < 128
    · rw [encode_cons_of_lt hc] at h
      obtain ⟨rfl, rfl⟩ := List.cons.inj h
      exact ⟨c, t, rfl, hc, rfl, rfl⟩
    · obtain ⟨b₀, b₁, bs, he, hall⟩ := encodeChar_of_le (Nat.le_of_not_lt hc)
      rw [encode_cons, he] at h
      obtain ⟨rfl, -⟩ := List.cons.inj h
      exact absurd (hall b₀ List.mem_cons_self) (UInt8.not_le.mpr hb)

/-- Leading ASCII bytes are leading ASCII characters. -/
theorem exists_of_encode_eq_append {s : List Char} {bs r : List UInt8}
    (h : encode s = bs ++ r) (hb : ∀ b ∈ bs, b < 0x80) :
    ∃ a t, s = a ++ t ∧ encode a = bs ∧ encode t = r ∧ ∀ c ∈ a, c.toNat < 128 := by
  induction bs generalizing s with
  | nil => exact ⟨[], s, rfl, rfl, h, by simp⟩
  | cons b bs ih =>
    obtain ⟨c, t, rfl, hc, rfl, ht⟩ := exists_of_encode_eq_cons h (hb b List.mem_cons_self)
    obtain ⟨a, t', rfl, rfl, hr, ha⟩ := ih ht (fun x hx => hb x (List.mem_cons_of_mem _ hx))
    exact ⟨c :: a, t', rfl, encode_cons_of_lt hc a, hr, by simpa [hc] using ha⟩

/-! ### Byte offsets -/

@[simp] theorem byteLen_append (s t : List Char) : byteLen (s ++ t) = byteLen s + byteLen t := by
  induction s with
  | nil => simp [byteLen]
  | cons c s ih => simp [byteLen, ih, Nat.add_assoc]

@[simp] theorem drop_encode_append (s t : List Char) :
    (encode (s ++ t)).drop (byteLen s) = encode t := by
  rw [encode_append, List.drop_left' (length_encode s)]

theorem byteLen_of_ascii {s : List Char} (h : ∀ c ∈ s, c.toNat < 128) : byteLen s = s.length := by
  induction s with
  | nil => rfl
  | cons c s ih =>
    have hc := congrArg List.length (encodeChar_of_lt (h c List.mem_cons_self))
    rw [String.length_utf8EncodeChar] at hc
    have hs := ih (fun d hd => h d (List.mem_cons_of_mem c hd))
    simp only [byteLen, hc, hs, List.length_cons, List.length_nil]
    omega

theorem byteLen_eq_zero_iff {s : List Char} : byteLen s = 0 ↔ s = [] := by
  cases s with
  | nil => simp [byteLen]
  | cons c s =>
    have hc := Char.utf8Size_pos c
    simp [byteLen]
    omega

theorem byteLen_pos_iff {s : List Char} : 0 < byteLen s ↔ s ≠ [] := by
  rw [Nat.pos_iff_ne_zero, ne_eq, byteLen_eq_zero_iff]

@[simp] theorem splitAt_zero (s : List Char) : splitAt s 0 = some ([], s) := by
  cases s <;> rfl

/-- A cut yields the two parts of the text, the first with as many bytes as the offset. -/
theorem splitAt_eq_some_iff {s p q : List Char} {n : Nat} :
    splitAt s n = some (p, q) ↔ s = p ++ q ∧ byteLen p = n := by
  induction s generalizing n p with
  | nil =>
    cases n with
    | zero =>
      rw [splitAt_zero, byteLen_eq_zero_iff]
      constructor
      · intro h
        cases h
        exact ⟨rfl, rfl⟩
      · rintro ⟨h, rfl⟩
        rw [List.nil_append] at h
        rw [h]
    | succ n =>
      simp only [splitAt, reduceCtorEq, false_iff, not_and]
      intro h hp
      obtain ⟨rfl, -⟩ := List.append_eq_nil_iff.mp h.symm
      simp [byteLen] at hp
  | cons c s ih =>
    cases n with
    | zero =>
      rw [splitAt_zero, byteLen_eq_zero_iff]
      constructor
      · intro h
        cases h
        exact ⟨rfl, rfl⟩
      · rintro ⟨h, rfl⟩
        rw [h, List.nil_append]
    | succ n =>
      have hc := Char.utf8Size_pos c
      rw [splitAt]
      split
      · rename_i hle
        rw [Option.map_eq_some_iff]
        constructor
        · rintro ⟨⟨p', q'⟩, h, he⟩
          obtain ⟨rfl, rfl⟩ := Prod.mk.inj he
          obtain ⟨rfl, hp⟩ := ih.mp h
          exact ⟨rfl, by simp only [byteLen]; omega⟩
        · rintro ⟨h, hp⟩
          cases p with
          | nil => simp [byteLen] at hp
          | cons d p =>
            obtain ⟨rfl, rfl⟩ := List.cons.inj h
            simp only [byteLen] at hp
            exact ⟨(p, q), ih.mpr ⟨rfl, by omega⟩, rfl⟩
      · rename_i hle
        simp only [reduceCtorEq, false_iff, not_and]
        intro h hp
        cases p with
        | nil => simp [byteLen] at hp
        | cons d p =>
          obtain ⟨rfl, -⟩ := List.cons.inj h
          simp only [byteLen] at hp
          omega

/-- A cut behind some text is a cut of the rest. -/
theorem splitAt_append (p s : List Char) :
    splitAt (p ++ s) (byteLen p) = some (p, s) := (splitAt_eq_some_iff).mpr ⟨rfl, rfl⟩

/-- No cut goes through a character. -/
theorem splitAt_inside {p s : List Char} {c : Char} {k : Nat} (hk : 0 < k) (hc : k < c.utf8Size) :
    splitAt (p ++ c :: s) (byteLen p + k) = none := by
  by_contra h
  obtain ⟨⟨a, b⟩, hab⟩ := Option.ne_none_iff_exists'.mp h
  obtain ⟨he, hlen⟩ := (splitAt_eq_some_iff).mp hab
  rcases List.append_eq_append_iff.mp he with ⟨m, rfl, hm⟩ | ⟨m, rfl, -⟩
  · rw [byteLen_append] at hlen
    cases m with
    | nil =>
      simp only [byteLen] at hlen
      omega
    | cons d m =>
      obtain ⟨rfl, -⟩ := List.cons.inj hm
      simp only [byteLen] at hlen
      omega
  · rw [byteLen_append] at hlen
    omega

theorem isCharBoundary_iff {s : List Char} {n : Nat} :
    isCharBoundary s n = true ↔ ∃ p q, s = p ++ q ∧ byteLen p = n := by
  unfold isCharBoundary
  rw [Option.isSome_iff_exists]
  constructor
  · rintro ⟨⟨p, q⟩, h⟩
    exact ⟨p, q, (splitAt_eq_some_iff).mp h⟩
  · rintro ⟨p, q, h⟩
    exact ⟨(p, q), (splitAt_eq_some_iff).mpr h⟩

@[simp] theorem isCharBoundary_zero (s : List Char) : isCharBoundary s 0 = true := by
  simp [isCharBoundary]

@[simp] theorem isCharBoundary_byteLen (s : List Char) : isCharBoundary s (byteLen s) = true :=
  (isCharBoundary_iff).mpr ⟨s, [], (List.append_nil s).symm, rfl⟩

/-- A slice is the middle part of a decomposition of the text. -/
theorem slice_eq_some_iff {s m : List Char} {a b : Nat} :
    slice s a b = some m ↔
      ∃ p q, s = p ++ m ++ q ∧ byteLen p = a ∧ byteLen p + byteLen m = b := by
  unfold slice
  constructor
  · intro h
    split at h
    · rename_i hab
      obtain ⟨⟨p, r⟩, hp, hr⟩ := Option.bind_eq_some_iff.mp h
      obtain ⟨⟨m', q⟩, hm, rfl⟩ := Option.map_eq_some_iff.mp hr
      obtain ⟨rfl, hpa⟩ := (splitAt_eq_some_iff).mp hp
      obtain ⟨rfl, hmb⟩ := (splitAt_eq_some_iff).mp hm
      exact ⟨p, q, by simp, hpa, by simp only at hmb ⊢; omega⟩
    · simp at h
  · rintro ⟨p, q, rfl, rfl, rfl⟩
    rw [if_pos (Nat.le_add_right _ _)]
    have hp : splitAt (p ++ m ++ q) (byteLen p) = some (p, m ++ q) :=
      (splitAt_eq_some_iff).mpr ⟨by simp, rfl⟩
    have hm : splitAt (m ++ q) (byteLen p + byteLen m - byteLen p) = some (m, q) :=
      (splitAt_eq_some_iff).mpr ⟨rfl, by omega⟩
    rw [hp, Option.bind_some]
    simp only [hm, Option.map_some]

/-- A slice is defined exactly when the offsets are boundaries in order. -/
theorem isSome_slice_iff {s : List Char} {a b : Nat} :
    (slice s a b).isSome ↔
      a ≤ b ∧ isCharBoundary s a = true ∧ isCharBoundary s b = true := by
  constructor
  · intro h
    obtain ⟨m, hm⟩ := Option.isSome_iff_exists.mp h
    obtain ⟨p, q, rfl, rfl, rfl⟩ := (slice_eq_some_iff).mp hm
    refine ⟨Nat.le_add_right _ _, (isCharBoundary_iff).mpr ⟨p, m ++ q, by simp, rfl⟩, ?_⟩
    exact (isCharBoundary_iff).mpr ⟨p ++ m, q, rfl, byteLen_append p m⟩
  · rintro ⟨hab, ha, hb⟩
    obtain ⟨p, r, rfl, rfl⟩ := (isCharBoundary_iff).mp ha
    obtain ⟨p', q, he, rfl⟩ := (isCharBoundary_iff).mp hb
    rw [List.append_eq_append_iff] at he
    rcases he with ⟨m, rfl, rfl⟩ | ⟨m, rfl, rfl⟩
    · refine Option.isSome_iff_exists.mpr ⟨m, (slice_eq_some_iff).mpr ⟨p, q, ?_, rfl, ?_⟩⟩
      · simp
      · rw [byteLen_append]
    · have hm : m = [] := by
        rw [byteLen_append] at hab
        exact (byteLen_eq_zero_iff).mp (by omega)
      subst hm
      refine Option.isSome_iff_exists.mpr ⟨[], (slice_eq_some_iff).mpr ⟨p', r, ?_, ?_, ?_⟩⟩
      · simp
      · simp
      · simp [byteLen]

end Utf8
