import Mathlib
import Repartee.Lib.Utf8
import Repartee.Lib.Text

/-!
# Ground types of the encryption core

Texts, fixed-size byte arrays, the error type of `e2e/error.rs`, and the two things the core is
parametric in: the third-party crates it calls (`Crates`) and what the operating system supplies
to one call (`Env`: clocks, randomness, storage failures and hash-map iteration order).

## Main definitions

- `Bytes n`: the Rust array `[u8; n]`
- `E2eError`, `E2eError.display`: the errors and their texts
- `Crates`: the cryptographic and codec crates
- `Crates.Codecs`, `Crates.IdealAead`, `Crates.Honest`: what is assumed of them
- `Env`: the surroundings of one operation
-/

set_option autoImplicit false

namespace Repartee

/-- A Rust `String` or `&str`. -/
abbrev Str := List Char

/-- Whether a text is in a list is decided by comparison. -/
instance : LawfulBEq Str := inferInstanceAs (LawfulBEq (List Char))

/-- The text of a literal. -/
abbrev str (s : String) : Str := s.toList

/-- `str::eq_ignore_ascii_case` -/
def eqIgnoreAsciiCase (a b : Str) : Bool := a.map Char.toLower = b.map Char.toLower

/-- A Rust array `[u8; n]`. -/
abbrev Bytes (n : Nat) := { l : List UInt8 // l.length = n }

namespace Bytes

/-- The array with every byte equal to `b`. -/
def fill (n : Nat) (b : UInt8) : Bytes n := ⟨List.replicate n b, List.length_replicate⟩

/-- A vector as an array, if it has the right length. -/
def ofList? (n : Nat) (l : List UInt8) : Option (Bytes n) :=
  if h : l.length = n then some ⟨l, h⟩ else none

@[simp] theorem ofList?_val {n : Nat} (b : Bytes n) : ofList? n b.1 = some b := by
  simp [ofList?, b.2]

end Bytes

/-- The text of an integer in `format!`. -/
def fmtInt (n : Int) : Str := Text.formatInt n

/-- The text of an unsigned number in `format!`. -/
def fmtNat (n : Nat) : Str := Text.formatInt n

/-! ### error.rs -/

/-- The error type of the module. Wrapped foreign errors are carried by their text. -/
inductive E2eError where
  | crypto (msg : Str)
  | wire (msg : Str)
  | keyring (msg : Str)
  | handshake (msg : Str)
  | peerNotTrusted (handle channel : Str)
  | handleMismatch (expected got : Str)
  | replayWindow (ts now : Int)
  | chunkLimit (n : UInt8)
  | rateLimit (peer : Str)
  | io (msg : Str)
  | sqlite (msg : Str)
  | base64 (msg : Str)
  | hex (msg : Str)
  deriving DecidableEq

/-- The text of an error (`thiserror`'s `Display`). -/
def E2eError.display : E2eError → Str
  | .crypto m => str "crypto error: " ++ m
  | .wire m => str "wire format parse error: " ++ m
  | .keyring m => str "keyring error: " ++ m
  | .handshake m => str "handshake error: " ++ m
  | .peerNotTrusted handle channel =>
    str "peer not trusted: handle=" ++ handle ++ str " channel=" ++ channel
  | .handleMismatch expected got =>
    str "handle mismatch: expected " ++ expected ++ str ", got " ++ got
  | .replayWindow ts now =>
    str "replay window violation: ts=" ++ fmtInt ts ++ str " now=" ++ fmtInt now
  | .chunkLimit n => str "chunk limit exceeded: " ++ fmtNat n.toNat ++ str " > 16"
  | .rateLimit peer => str "rate limit exceeded for peer " ++ peer
  | .io m => str "io error: " ++ m
  | .sqlite m => str "sqlite error: " ++ m
  | .base64 m => str "base64 error: " ++ m
  | .hex m => str "hex error: " ++ m

/-- The result type of the module. -/
abbrev Result (α : Type) := Except E2eError α

theorem except_bind_eq_ok_iff {α β : Type} {x : Result α} {f : α → Result β} {b : β} :
    x >>= f = .ok b ↔ ∃ a, x = .ok a ∧ f a = .ok b := by
  cases x with
  | error err => simp [bind, Except.bind]
  | ok a => simp [bind, Except.bind]

/-! ### Third-party crates -/

/-- The crates the protocol is built on: `ed25519-dalek`, `x25519-dalek`, `hkdf`, `sha2`,
`chacha20poly1305`, `base64` (its `STANDARD` and `URL_SAFE_NO_PAD` engines) and `hex`, and the
Unicode tables and error texts of `std`. Failures carry the text of the crate's error. -/
structure Crates where
  sha256 : List UInt8 → Bytes 32
  /-- `SigningKey::from_bytes(seed).verifying_key().to_bytes()` -/
  edPublic : Bytes 32 → Bytes 32
  edSign : Bytes 32 → List UInt8 → Bytes 64
  /-- `VerifyingKey::from_bytes` -/
  edDecode : Bytes 32 → Except Str Unit
  edVerify : Bytes 32 → List UInt8 → Bytes 64 → Except Str Unit
  /-- `VerifyingKey::to_montgomery` -/
  edMontgomery : Bytes 32 → Bytes 32
  /-- `SigningKey::to_scalar_bytes` -/
  edScalar : Bytes 32 → Bytes 32
  xPublic : Bytes 32 → Bytes 32
  diffieHellman : Bytes 32 → Bytes 32 → Bytes 32
  /-- HKDF-SHA256 with a salt, expanded to 32 bytes. -/
  hkdf : List UInt8 → Bytes 32 → List UInt8 → Bytes 32
  /-- XChaCha20-Poly1305: key, nonce, associated data, message. -/
  xchachaEncrypt : Bytes 32 → Bytes 24 → List UInt8 → List UInt8 → Except Str (List UInt8)
  xchachaDecrypt : Bytes 32 → Bytes 24 → List UInt8 → List UInt8 → Except Str (List UInt8)
  b64Encode : List UInt8 → Str
  b64Decode : Str → Except Str (List UInt8)
  b64UrlEncode : List UInt8 → Str
  b64UrlDecode : Str → Except Str (List UInt8)
  hexEncode : List UInt8 → Str
  hexDecode : Str → Except Str (List UInt8)
  /-- `char::to_lowercase` -/
  lowercase : Char → List Char
  /-- The text of `std::str::Utf8Error` for invalid bytes. -/
  utf8Error : List UInt8 → Str

/-- The alphabet of the encoders: neither whitespace nor the separators `:`, `/` of the wire
format (the `/` of standard base64 occurs only in the last field, which is not split at it). -/
def IsTokenChar (c : Char) : Prop := Text.isWhitespace c = false ∧ c ≠ ':'

/-- The codec crates are inverse pairs over printable alphabets. -/
structure Crates.Codecs (cr : Crates) : Prop where
  b64_decode : ∀ b, cr.b64Decode (cr.b64Encode b) = .ok b
  b64_token : ∀ b, ∀ c ∈ cr.b64Encode b, IsTokenChar c
  b64_url_decode : ∀ b, cr.b64UrlDecode (cr.b64UrlEncode b) = .ok b
  b64_url_token : ∀ b, ∀ c ∈ cr.b64UrlEncode b, IsTokenChar c
  hex_decode : ∀ b, cr.hexDecode (cr.hexEncode b) = .ok b
  hex_token : ∀ b, ∀ c ∈ cr.hexEncode b, IsTokenChar c
  hex_length : ∀ b, Utf8.byteLen (cr.hexEncode b) = 2 * b.length

/-- Authenticated encryption opens a ciphertext only under the key, nonce and associated data
that it was sealed with. -/
structure Crates.IdealAead (cr : Crates) : Prop where
  opens_only_sealed : ∀ {k n a m c k' n' a' m'}, cr.xchachaEncrypt k n a m = .ok c →
    cr.xchachaDecrypt k' n' a' c = .ok m' → k' = k ∧ n' = n ∧ a' = a ∧ m' = m

/-- What honest parties rely on: sealed messages open, signatures verify, and both ends of a
Diffie-Hellman exchange agree, for ephemeral keys and for keys derived from an identity. -/
structure Crates.Honest (cr : Crates) : Prop where
  encrypt_ok : ∀ k n a m, ∃ c, cr.xchachaEncrypt k n a m = .ok c
  decrypt_encrypt : ∀ {k n a m c}, cr.xchachaEncrypt k n a m = .ok c →
    cr.xchachaDecrypt k n a c = .ok m
  decode_public : ∀ seed, cr.edDecode (cr.edPublic seed) = .ok ()
  verify_sign : ∀ seed m, cr.edVerify (cr.edPublic seed) m (cr.edSign seed m) = .ok ()
  dh_comm : ∀ a b, cr.diffieHellman a (cr.xPublic b) = cr.diffieHellman b (cr.xPublic a)
  montgomery_public : ∀ seed, cr.edMontgomery (cr.edPublic seed) = cr.xPublic (cr.edScalar seed)

/-! ### Operating system -/

/-- The SQL statements of the keyring. `again s` is a second execution of `s` by one
operation. -/
inductive Stmt where
  | loadIdentity
  | saveIdentity
  | upsertPeer
  | getPeerByFingerprint (fp : Bytes 16)
  | getPeerByHandle
  | deletePeerByFingerprint
  | setOutgoingSession
  | getOutgoingSession
  | markOutgoingPendingRotation
  | installIncomingSession
  | getIncomingSession
  | updateIncomingStatus
  | deleteIncomingSession
  | deleteIncomingSessionsForHandle
  | setChannelConfig
  | getChannelConfig
  | addAutotrust
  | autotrustMatches
  | removeAutotrust
  | recordOutgoingRecipient
  | removeOutgoingRecipient
  | listOutgoingRecipients
  | deleteOutgoingRecipientsForHandle
  | replaceAllForImport
  | listAllPeers
  | listAllIncomingSessions
  | listAllOutgoingSessions
  | listAllChannelConfigs
  | listAutotrust
  | again (s : Stmt)
  deriving DecidableEq

/-- What the operating system supplies to one operation. -/
structure Env where
  /-- Seconds since the epoch. -/
  now : Int
  /-- The monotonic clock, in nanoseconds. -/
  instant : Nat
  /-- The `k`-th random value that is drawn. -/
  random : Nat → (n : Nat) → Bytes n
  /-- The failure of a storage statement (or of the at-rest encryption of the secret it
  carries), if it fails. -/
  fault : Stmt → Option E2eError
  /-- The iteration order of a hash map. -/
  shuffle : List (Str × Bytes 16) → List (Str × Bytes 16)
  shuffle_perm : ∀ l, (shuffle l).Perm l

namespace Env

/-- No storage statement fails. -/
def Healthy (e : Env) : Prop := ∀ s, e.fault s = none

/-- The surroundings of the second execution of a statement. -/
def again (e : Env) : Env := { e with fault := fun s => e.fault (.again s) }

theorem Healthy.again {e : Env} (h : e.Healthy) : e.again.Healthy := fun s => h (.again s)

/-- Execute a statement with the given outcome, unless it fails. -/
def exec {α : Type} (e : Env) (s : Stmt) (x : α) : Result α :=
  match e.fault s with
  | none => .ok x
  | some err => .error err

theorem exec_eq_ok_iff {α : Type} {e : Env} {s : Stmt} {x y : α} :
    e.exec s x = .ok y ↔ e.fault s = none ∧ x = y := by
  unfold exec
  cases e.fault s <;> simp

theorem Healthy.exec {α : Type} {e : Env} (h : e.Healthy) (s : Stmt) (x : α) :
    e.exec s x = .ok x := (exec_eq_ok_iff).mpr ⟨h s, rfl⟩

@[simp] theorem again_now (e : Env) : e.again.now = e.now := rfl

end Env

end Repartee
