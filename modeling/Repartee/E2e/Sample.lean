import Repartee.E2e.System

/-!
# A sample instance of the crates

A transparent instance of `Crates` that satisfies every assumption made of them and evaluates
quickly: signatures and ciphertexts carry their key in the clear. It is what the concrete runs
of the development are computed in.

## Main results

- `sample_codecs`, `sample_idealAead`, `sample_honest`: the assumptions are satisfiable
-/

set_option autoImplicit false

namespace Repartee

namespace Sample

/-- The last 32 bytes, padded in front. -/
def last32 (l : List UInt8) : Bytes 32 :=
  ⟨((l.reverse ++ List.replicate 32 0).take 32).reverse, by simp⟩

/-- A self-delimiting coding of bytes. -/
def delimit : List UInt8 → List UInt8
  | [] => [0]
  | b :: l => 1 :: b :: delimit l

def sealPrefix (k : Bytes 32) (n : Bytes 24) (a : List UInt8) : List UInt8 :=
  k.1 ++ (n.1 ++ delimit a)

/-- The rest of a list after a prefix. -/
def dropPrefix : List UInt8 → List UInt8 → Option (List UInt8)
  | [], l => some l
  | _ :: _, [] => none
  | a :: p, b :: l => if a = b then dropPrefix p l else none

def encodeByte (b : UInt8) : Str :=
  [Char.ofNat (65 + b.toNat / 16), Char.ofNat (65 + b.toNat % 16)]

def encodeBytes (l : List UInt8) : Str := l.flatMap encodeByte

def decodeChars : Str → Except Str (List UInt8)
  | [] => .ok []
  | [_] => .error (str "Odd number of digits")
  | hi :: lo :: s =>
    match decodeChars s with
    | .ok l => .ok (UInt8.ofNat ((hi.toNat - 65) * 16 + (lo.toNat - 65)) :: l)
    | .error err => .error err

def addBytes (a b : Bytes 32) : Bytes 32 :=
  ⟨List.zipWith (· + ·) a.1 b.1, by simp [a.2, b.2]⟩

end Sample

open Sample

/-- The sample instance. -/
def sample : Crates where
  sha256 := last32
  edPublic := id
  edSign seed m := ⟨seed.1 ++ (last32 m).1, by simp [seed.2, (last32 m).2]⟩
  edDecode _ := .ok ()
  edVerify pk m sig :=
    if sig.1 = pk.1 ++ (last32 m).1 then .ok () else .error (str "signature error")
  edMontgomery := id
  edScalar := id
  xPublic := id
  diffieHellman := addBytes
  hkdf _ ikm _ := ikm
  xchachaEncrypt k n a m := .ok (sealPrefix k n a ++ m)
  xchachaDecrypt k n a c :=
    match dropPrefix (sealPrefix k n a) c with
    | some m => .ok m
    | none => .error (str "aead::Error")
  b64Encode := encodeBytes
  b64Decode := decodeChars
  b64UrlEncode := encodeBytes
  b64UrlDecode := decodeChars
  hexEncode := encodeBytes
  hexDecode := decodeChars
  lowercase c := [c.toLower]
  utf8Error _ := str "invalid utf-8 sequence"

namespace Sample

theorem dropPrefix_eq_some_iff {p l r : List UInt8} : dropPrefix p l = some r ↔ l = p ++ r := by
  induction p generalizing l with
  | nil => simp [dropPrefix, eq_comm]
  | cons a p ih =>
    cases l with
    | nil => simp [dropPrefix]
    | cons b l =>
      rw [dropPrefix]
      by_cases hab : a = b
      · subst hab
        simp [ih]
      · simp [hab, Ne.symm hab]

theorem delimit_append_inj {a a' m m' : List UInt8} (h : delimit a ++ m = delimit a' ++ m') :
    a = a' ∧ m = m' := by
  induction a generalizing a' with
  | nil =>
    cases a' with
    | nil => exact ⟨rfl, by simpa [delimit] using h⟩
    | cons b a' => simp [delimit] at h
  | cons b a ih =>
    cases a' with
    | nil => simp [delimit] at h
    | cons b' a' =>
      simp only [delimit, List.cons_append, List.cons.injEq, true_and] at h
      obtain ⟨rfl, h⟩ := h
      obtain ⟨rfl, rfl⟩ := ih h
      exact ⟨rfl, rfl⟩

theorem sealPrefix_append_inj {k k' : Bytes 32} {n n' : Bytes 24} {a a' m m' : List UInt8}
    (h : sealPrefix k n a ++ m = sealPrefix k' n' a' ++ m') :
    k' = k ∧ n' = n ∧ a' = a ∧ m' = m := by
  simp only [sealPrefix, List.append_assoc] at h
  obtain ⟨hk, h⟩ := List.append_inj h (by rw [k.2, k'.2])
  obtain ⟨hn, h⟩ := List.append_inj h (by rw [n.2, n'.2])
  obtain ⟨ha, hm⟩ := delimit_append_inj h
  exact ⟨Subtype.ext hk.symm, Subtype.ext hn.symm, ha.symm, hm.symm⟩

theorem isTokenChar_encodeByte (b : UInt8) : ∀ c ∈ encodeByte b, IsTokenChar c := by
  have h : ∀ i < 16, IsTokenChar (Char.ofNat (65 + i)) := by
    unfold IsTokenChar
    decide
  have hb := b.toNat_lt
  intro c hc
  simp only [encodeByte, List.mem_cons, List.not_mem_nil, or_false] at hc
  rcases hc with rfl | rfl
  · exact h _ (by omega)
  · exact h _ (Nat.mod_lt _ (by omega))

theorem isTokenChar_encodeBytes (l : List UInt8) : ∀ c ∈ encodeBytes l, IsTokenChar c := by
  intro c hc
  obtain ⟨b, -, hb⟩ := List.mem_flatMap.mp hc
  exact isTokenChar_encodeByte b c hb

theorem decodeChars_encodeBytes (l : List UInt8) : decodeChars (encodeBytes l) = .ok l := by
  have h : ∀ i < 16, (Char.ofNat (65 + i)).toNat - 65 = i := by decide
  induction l with
  | nil => rfl
  | cons b l ih =>
    have hb := b.toNat_lt
    show decodeChars (_ :: _ :: encodeBytes l) = _
    rw [decodeChars, ih, h _ (by omega), h _ (Nat.mod_lt _ (by omega)), Nat.mul_comm,
      Nat.div_add_mod]
    simp

theorem byteLen_encodeBytes (l : List UInt8) : Utf8.byteLen (encodeBytes l) = 2 * l.length := by
  have h : ∀ i < 16, (Char.ofNat (65 + i)).utf8Size = 1 := by decide
  induction l with
  | nil => rfl
  | cons b l ih =>
    have hb := b.toNat_lt
    show Utf8.byteLen (_ :: _ :: encodeBytes l) = _
    simp only [Utf8.byteLen, ih, List.length_cons]
    rw [h _ (by omega), h _ (Nat.mod_lt _ (by omega))]
    omega

end Sample

theorem sample_codecs : sample.Codecs where
  b64_decode := decodeChars_encodeBytes
  b64_token := isTokenChar_encodeBytes
  b64_url_decode := decodeChars_encodeBytes
  b64_url_token := isTokenChar_encodeBytes
  hex_decode := decodeChars_encodeBytes
  hex_token := isTokenChar_encodeBytes
  hex_length := byteLen_encodeBytes

theorem sample_idealAead : sample.IdealAead where
  opens_only_sealed := by
    intro k n a m c k' n' a' m' he hd
    simp only [sample, Except.ok.injEq] at he hd
    subst he
    cases hp : dropPrefix (sealPrefix k' n' a') (sealPrefix k n a ++ m) with
    | none => simp [hp] at hd
    | some r =>
      simp only [hp, Except.ok.injEq] at hd
      subst hd
      exact sealPrefix_append_inj ((dropPrefix_eq_some_iff).mp hp)

theorem sample_honest : sample.Honest where
  encrypt_ok _ _ _ _ := ⟨_, rfl⟩
  decrypt_encrypt := by
    intro k n a m c he
    simp only [sample, Except.ok.injEq] at he ⊢
    subst he
    rw [(dropPrefix_eq_some_iff).mpr rfl]
  decode_public _ := rfl
  verify_sign seed m := by simp [sample]
  dh_comm a b := by
    refine Subtype.ext ?_
    show List.zipWith (· + ·) a.1 b.1 = List.zipWith (· + ·) b.1 a.1
    exact List.zipWith_comm_of_comm (fun x y => UInt8.add_comm x y)
  montgomery_public _ := rfl

/-- Untroubled surroundings at a given time: storage works, the hash map keeps its order, and
the random values are numbered from `seed`. -/
def sampleEnv (now : Int) (seed : Nat) : Env where
  now := now
  instant := now.toNat * second
  random k n := Bytes.fill n (UInt8.ofNat (seed + k))
  fault _ := none
  shuffle := id
  shuffle_perm _ := List.Perm.refl _

theorem sampleEnv_healthy (now : Int) (seed : Nat) : (sampleEnv now seed).Healthy := fun _ => rfl

namespace Sample

/-- A signed KEYREQ of the identity `seed`. -/
def keyreq (seed : Bytes 32) (channel : Str) (eph : Bytes 32) (nonce : Bytes 16) : KeyReq where
  channel := channel
  pubkey := sample.edPublic seed
  ephX25519 := sample.xPublic eph
  nonce := nonce
  sig := sample.edSign seed
    (signedKeyreqPayload channel (sample.edPublic seed) (sample.xPublic eph) nonce)

/-- A key wrapped with a zero nonce. -/
def wrap (key : Bytes 32) (info : List UInt8) (sk : SessionKey) : List UInt8 :=
  sealPrefix key (Bytes.fill 24 0) info ++ sk.1

/-- A signed REKEY of the identity `seed` that delivers `sk` to the identity `peer`. -/
def rekey (seed peer : Bytes 32) (channel : Str) (eph : Bytes 32) (sk : SessionKey) :
    KeyRekey :=
  let info := Utf8.encode (rekeyInfo channel)
  let wrapCt := wrap (deriveWrapKey sample eph peer info) info sk
  { channel := channel, pubkey := sample.edPublic seed, ephPub := sample.xPublic eph,
    wrapNonce := Bytes.fill 24 0, wrapCt := wrapCt, nonce := Bytes.fill 16 0,
    sig := sample.edSign seed
      (signedKeyrekeyPayload channel (sample.edPublic seed) (sample.xPublic eph)
        (Bytes.fill 24 0) wrapCt (Bytes.fill 16 0)) }

end Sample

end Repartee
