import Repartee.E2e.Basic

/-!
# The cryptographic helpers

`crypto/{fingerprint,sig,aead,ecdh}.rs` and the key-wrap helpers of `manager.rs`, over the
third-party crates.
-/

set_option autoImplicit false

namespace Repartee

/-- 16-byte truncated SHA-256 of an Ed25519 public key. -/
abbrev Fingerprint := Bytes 16

abbrev SessionKey := Bytes 32

abbrev Nonce := Bytes 24

variable (cr : Crates)

def fingerprint (pubkey : Bytes 32) : Fingerprint :=
  let full := cr.sha256 (Utf8.encode (str "RPE2E01-FP:") ++ pubkey.1)
  ⟨full.1.take 16, by simp [full.2]⟩

namespace Sig

def verify (pubkey : Bytes 32) (message : List UInt8) (sig : Bytes 64) : Result Unit :=
  match cr.edDecode pubkey with
  | .error e => .error (.crypto (str "invalid verifying key: " ++ e))
  | .ok _ =>
    match cr.edVerify pubkey message sig with
    | .error e => .error (.crypto (str "signature verify: " ++ e))
    | .ok _ => .ok ()

end Sig

namespace Aead

/-- The nonce is drawn by the caller. -/
def encrypt (key : SessionKey) (nonce : Nonce) (aad plaintext : List UInt8) :
    Result (List UInt8) :=
  match cr.xchachaEncrypt key nonce aad plaintext with
  | .error e => .error (.crypto (str "aead encrypt: " ++ e))
  | .ok ct => .ok ct

def decrypt (key : SessionKey) (nonce : Nonce) (aad ciphertext : List UInt8) :
    Result (List UInt8) :=
  match cr.xchachaDecrypt key nonce aad ciphertext with
  | .error e => .error (.crypto (str "aead decrypt: " ++ e))
  | .ok pt => .ok pt

end Aead

namespace Ecdh

def ed25519PubToX25519 (edPub : Bytes 32) : Result (Bytes 32) :=
  match cr.edDecode edPub with
  | .error e => .error (.crypto (str "invalid ed25519 pub: " ++ e))
  | .ok _ => .ok (cr.edMontgomery edPub)

def ed25519SeedToX25519 (edSeed : Bytes 32) : Bytes 32 := cr.edScalar edSeed

end Ecdh

def wrapInfo (channel : Str) : Str := str "RPE2E01-WRAP:" ++ channel

def rekeyInfo (channel : Str) : Str := str "RPE2E01-REKEY:" ++ channel

/-- Derive the wrap key from our X25519 secret and the peer's public key. -/
def deriveWrapKey (secret peerPub : Bytes 32) (info : List UInt8) : Bytes 32 :=
  cr.hkdf (Utf8.encode (str "RPE2E01-WRAP")) (cr.diffieHellman secret peerPub) info

/-! ### What honest parties rely on -/

variable {cr}

theorem Aead.encrypt_eq_ok_iff {k : SessionKey} {n : Nonce} {a m c : List UInt8} :
    Aead.encrypt cr k n a m = .ok c ↔ cr.xchachaEncrypt k n a m = .ok c := by
  unfold Aead.encrypt
  cases cr.xchachaEncrypt k n a m <;> simp

theorem Aead.decrypt_eq_ok_iff {k : SessionKey} {n : Nonce} {a c m : List UInt8} :
    Aead.decrypt cr k n a c = .ok m ↔ cr.xchachaDecrypt k n a c = .ok m := by
  unfold Aead.decrypt
  cases cr.xchachaDecrypt k n a c <;> simp

theorem Crates.Honest.aead_encrypt (h : cr.Honest) (k : SessionKey) (n : Nonce)
    (a m : List UInt8) : ∃ c, Aead.encrypt cr k n a m = .ok c := by
  obtain ⟨c, hc⟩ := h.encrypt_ok k n a m
  exact ⟨c, Aead.encrypt_eq_ok_iff.mpr hc⟩

/-- A sealed message opens under the same key, nonce and associated data. -/
theorem Crates.Honest.aead_decrypt (h : cr.Honest) {k : SessionKey} {n : Nonce}
    {a m c : List UInt8} (hc : Aead.encrypt cr k n a m = .ok c) :
    Aead.decrypt cr k n a c = .ok m :=
  Aead.decrypt_eq_ok_iff.mpr (h.decrypt_encrypt (Aead.encrypt_eq_ok_iff.mp hc))

/-- A ciphertext that opens was sealed under the key, nonce and associated data it opens
under. -/
theorem Crates.IdealAead.aead_open (h : cr.IdealAead) {k k' : SessionKey} {n n' : Nonce}
    {a a' m m' c : List UInt8} (hc : Aead.encrypt cr k n a m = .ok c)
    (ho : Aead.decrypt cr k' n' a' c = .ok m') : k' = k ∧ n' = n ∧ a' = a ∧ m' = m :=
  h.opens_only_sealed (Aead.encrypt_eq_ok_iff.mp hc) (Aead.decrypt_eq_ok_iff.mp ho)

theorem Crates.Honest.verify_sign' (h : cr.Honest) (seed : Bytes 32) (m : List UInt8) :
    Sig.verify cr (cr.edPublic seed) m (cr.edSign seed m) = .ok () := by
  simp [Sig.verify, h.decode_public, h.verify_sign]

/-- Both ends of a handshake derive the same wrap key. -/
theorem Crates.Honest.wrapKey_comm (h : cr.Honest) (a b : Bytes 32) (info : List UInt8) :
    deriveWrapKey cr a (cr.xPublic b) info = deriveWrapKey cr b (cr.xPublic a) info := by
  rw [deriveWrapKey, deriveWrapKey, h.dh_comm]

end Repartee
