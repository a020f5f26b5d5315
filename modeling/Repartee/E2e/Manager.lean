import Repartee.Lib.Exec
import Repartee.E2e.Keyring

/-!
# The manager's state

`manager.rs`: the state behind the mutexes of `E2eManager`, the trust classification of a peer,
and the queues that the application layer drains. An operation runs in `M`, which keeps the
writes made before an error, as the Rust code does.

## Main definitions

- `E2eManager`: the state of one client's encryption core
- `M`: an operation of the manager
- `classifyPeerChange`: the trust classification
-/

set_option autoImplicit false

namespace Repartee

/-- In-flight handshake state: the initiator's ephemeral X25519 secret. -/
structure PendingHandshake where
  channel : Str
  peerHandle : Option Str
  ephX25519Secret : Bytes 32
  deriving DecidableEq

/-- An outbound REKEY with the handle it must go to. Its `notice_text` is the CTCP encoding of
`rekey`, taken when it is shipped. -/
structure PendingRekeySend where
  targetHandle : Str
  rekey : KeyRekey
  deriving DecidableEq

/-- `notice_text` of a queued REKEY. -/
def PendingRekeySend.noticeText (cr : Crates) (s : PendingRekeySend) : Str :=
  (HandshakeMsg.rekey s.rekey).encodeCtcp cr

/-- A reciprocal KEYREQ queued by the symmetric handshake. -/
structure PendingOutboundKeyReq where
  peerHandle : Str
  channel : Str
  req : KeyReq
  deriving DecidableEq

/-- A prompt for a Normal-mode KEYREQ of a peer that is not trusted yet. -/
structure PendingAcceptRequest where
  nick : Option Str
  handle : Str
  channel : Str
  deriving DecidableEq

/-- How a freshly arrived identity compares with the keyring. -/
inductive TrustChange where
  | new
  | known
  | handleChanged (oldHandle newHandle : Str) (fingerprint : Fingerprint)
  | fingerprintChanged (handle : Str) (oldFp newFp : Fingerprint)
  | revoked (handle : Str) (fingerprint : Fingerprint)
  deriving DecidableEq

/-- A TOFU warning to be surfaced; `newPubkey` is set on `fingerprintChanged` only. -/
structure PendingTrustNotice where
  handle : Str
  channel : Str
  change : TrustChange
  newPubkey : Option (Bytes 32)
  deriving DecidableEq

inductive ReverifyOutcome where
  | applied (oldFp newFp : Fingerprint)
  | cleared (deleted : Nat)
  | notFound
  deriving DecidableEq

inductive DecryptOutcome where
  | plaintext (text : Str)
  | missingKey (handle channel : Str)
  | rejected (reason : Str)
  deriving DecidableEq

/-- The state of the encryption core of one client. `draws` counts the random values taken from
the operating system. -/
structure E2eManager where
  /-- The Ed25519 seed of `Identity`. -/
  identity : Bytes 32
  keyring : Keyring
  rateLimiter : RateLimiter
  tsToleranceSecs : Int
  pending : Dict (Str × Bytes 16) PendingHandshake
  pendingTrustChange : List PendingTrustNotice
  pendingRekeySends : List PendingRekeySend
  pendingOutboundKeyreqs : List PendingOutboundKeyReq
  pendingInbound : Dict (Str × Str) KeyReq
  pendingAcceptRequests : List PendingAcceptRequest
  draws : Nat
  deriving DecidableEq

/-- The replay window that `load_or_init` uses. -/
def defaultTsToleranceSecs : Int := 300

/-- A manager over a keyring, as `load_or_init_with_tolerance` builds it. -/
def E2eManager.init (identity : Bytes 32) (keyring : Keyring) (tsToleranceSecs : Int) :
    E2eManager where
  identity := identity
  keyring := keyring
  rateLimiter := RateLimiter.new
  tsToleranceSecs := tsToleranceSecs
  pending := Table.empty
  pendingTrustChange := []
  pendingRekeySends := []
  pendingOutboundKeyreqs := []
  pendingInbound := Table.empty
  pendingAcceptRequests := []
  draws := 0

/-- An operation of the manager. -/
abbrev M := EStateM E2eError E2eManager

namespace E2eManager

def publicBytes (cr : Crates) (m : E2eManager) : Bytes 32 := cr.edPublic m.identity

/-! ### Primitive operations -/

/-- A query of the keyring. -/
def ask {α : Type} (f : Keyring → Result α) : M α := Exec.query (fun m => f m.keyring)

/-- A statement on the keyring. -/
def tell (f : Keyring → Result Keyring) : M Unit :=
  Exec.update (fun m => (f m.keyring).map (fun k => { m with keyring := k }))

/-- A statement on the keyring that returns a number of rows. -/
def tellCount (f : Keyring → Result (Nat × Keyring)) : M Nat := do
  let (n, _) ← ask f
  tell (fun k => (f k).map Prod.snd)
  return n

/-- A pure computation that may fail. -/
def lift {α : Type} (r : Result α) : M α := Exec.query (fun _ => r)

/-- `rand::fill` -/
def draw (e : Env) (n : Nat) : M (Bytes n) :=
  modifyGet (fun m => (e.random m.draws n, { m with draws := m.draws + 1 }))

/-- `aead::encrypt` with its freshly drawn nonce. -/
def aeadEncrypt (cr : Crates) (e : Env) (key : SessionKey) (aad plaintext : List UInt8) :
    M (Nonce × List UInt8) := do
  let nonce ← draw e 24
  let ct ← lift (Aead.encrypt cr key nonce aad plaintext)
  return (nonce, ct)

def allowKeyreq (e : Env) (peerHandle : Str) : M Bool :=
  modifyGet (fun m =>
    let r := m.rateLimiter.allowOutgoing e.instant peerHandle
    (r.1, { m with rateLimiter := r.2 }))

def allowIncomingKeyreq (e : Env) (peerHandle : Str) : M Bool :=
  modifyGet (fun m =>
    let r := m.rateLimiter.allowIncoming e.instant peerHandle
    (r.1, { m with rateLimiter := r.2 }))

def recordTrustChange (notice : PendingTrustNotice) : M Unit :=
  modify (fun m => { m with pendingTrustChange := m.pendingTrustChange ++ [notice] })

/-! ### Queues -/

def takePendingTrustChanges : M (List PendingTrustNotice) :=
  modifyGet (fun m => (m.pendingTrustChange, { m with pendingTrustChange := [] }))

def takePendingRekeySends : M (List PendingRekeySend) :=
  modifyGet (fun m => (m.pendingRekeySends, { m with pendingRekeySends := [] }))

def takePendingOutboundKeyreqs : M (List PendingOutboundKeyReq) :=
  modifyGet (fun m => (m.pendingOutboundKeyreqs, { m with pendingOutboundKeyreqs := [] }))

def takePendingAcceptRequests : M (List PendingAcceptRequest) :=
  modifyGet (fun m => (m.pendingAcceptRequests, { m with pendingAcceptRequests := [] }))

end E2eManager

/-! ### Trust classification -/

/-- Classify an incoming `(fingerprint, handle)` against the keyring: by fingerprint first, then
by handle. -/
def classifyPeerChange (e : Env) (k : Keyring) (newFp : Fingerprint) (newHandle : Str) :
    Result TrustChange := do
  match ← k.getPeerByFingerprint e newFp with
  | some existing =>
    if existing.globalStatus = .revoked then return .revoked newHandle newFp
    else if existing.lastHandle ≠ some newHandle then
      return .handleChanged (existing.lastHandle.getD []) newHandle newFp
    else return .known
  | none =>
    match ← k.getPeerByHandle e newHandle with
    | some existing => return .fingerprintChanged newHandle existing.fingerprint newFp
    | none => return .new

/-- Whether a classification lets a handshake proceed. -/
def TrustChange.admits : TrustChange → Bool
  | .new | .known => true
  | _ => false

/-- The error of a rejected classification. -/
def handleMismatchFor (cr : Crates) (change : TrustChange) (gotHandle : Str) : E2eError :=
  let expected :=
    match change with
    | .handleChanged oldHandle _ _ => oldHandle
    | .fingerprintChanged handle oldFp _ =>
      handle ++ str " (fp=" ++ cr.hexEncode oldFp.1 ++ str ")"
    | .revoked handle fp => handle ++ str " (revoked, fp=" ++ cr.hexEncode fp.1 ++ str ")"
    | .new | .known => []
  .handleMismatch expected gotHandle

/-- The pubkey that a notice carries for `/e2e reverify`. -/
def TrustChange.noticePubkey (change : TrustChange) (pubkey : Bytes 32) : Option (Bytes 32) :=
  match change with
  | .fingerprintChanged _ _ _ => some pubkey
  | _ => none

namespace E2eManager

/-- Record the warning of a rejected classification and fail. -/
def rejectTrustChange {α : Type} (cr : Crates) (senderHandle channel : Str)
    (change : TrustChange) (pubkey : Bytes 32) : M α := do
  recordTrustChange ⟨senderHandle, channel, change, change.noticePubkey pubkey⟩
  throw (handleMismatchFor cr change senderHandle)

end E2eManager

end Repartee
