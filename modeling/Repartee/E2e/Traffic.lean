import Repartee.E2e.Manager

/-!
# Message traffic

The parts of `manager.rs` that keep and use session keys: the outgoing key of a channel with its
lazy rotation, encryption of outgoing and decryption of incoming messages, and the REKEY
distribution on both sides.

## Main definitions

- `getOrGenerateOutgoingKey`, `encryptOutgoing`, `decryptIncoming`
- `buildRekeyForPeer`, `handleRekey`
-/

set_option autoImplicit false

namespace Repartee.E2eManager

variable (cr : Crates) (e : Env)

/-! ### REKEY distribution -/

/-- Produce a REKEY that delivers `newSk` for `channel` to the given peer. -/
def buildRekeyForPeer (channel : Str) (peer : PeerRecord) (newSk : SessionKey) : M KeyRekey := do
  let ephSk ← draw e 32
  let ephPub := cr.xPublic ephSk
  let peerX25519Pub ← lift (Ecdh.ed25519PubToX25519 cr peer.pubkey)
  let info := Utf8.encode (rekeyInfo channel)
  let wrapKey := deriveWrapKey cr ephSk peerX25519Pub info
  let (wrapNonce, wrapCt) ← aeadEncrypt cr e wrapKey info newSk.1
  let nonce ← draw e 16
  let m ← get
  let pubkey := m.publicBytes cr
  let sigPayload := signedKeyrekeyPayload channel pubkey ephPub wrapNonce wrapCt nonce
  return { channel, pubkey, ephPub, wrapNonce, wrapCt, nonce,
           sig := cr.edSign m.identity sigPayload }

/-- One round of the distribution loop: a recipient without a peer row, or whose REKEY cannot be
built, is skipped. -/
def distributeTo (channel : Str) (fresh : SessionKey) (recipient : Str × Fingerprint) :
    M Unit := do
  match ← ask (fun k => k.getPeerByFingerprint e.again.again recipient.2) with
  | none => return ()
  | some peer =>
    match ← Exec.attempt (buildRekeyForPeer cr e channel peer fresh) with
    | .ok rk =>
      modify (fun m => { m with
        pendingRekeySends := m.pendingRekeySends ++ [⟨recipient.1, rk⟩] })
    | .error _ => return ()

/-- Queue the fresh key of a channel for every recorded recipient. -/
def distributeRekeys (channel : Str) (fresh : SessionKey) : M Unit := do
  let recipients ← ask (fun k => k.listOutgoingRecipients e channel)
  recipients.forM (distributeTo cr e channel fresh)

/-- Our outgoing session key of a channel. A missing key is generated; a key flagged
`pending_rotation` is replaced and the fresh key is queued for every recorded recipient. -/
def getOrGenerateOutgoingKey (channel : Str) : M SessionKey := do
  let sess ← ask (fun k => k.getOutgoingSession e channel)
  match sess.filter (fun s => !s.pendingRotation) with
  | some sess => return sess.sk
  | none =>
    let sess' ← ask (fun k => k.getOutgoingSession e.again channel)
    let hadPendingRotation := sess'.any (fun s => s.pendingRotation)
    let fresh ← draw e 32
    tell (fun k => k.setOutgoingSession e channel fresh e.now)
    Exec.runIf hadPendingRotation (distributeRekeys cr e channel fresh)
    return fresh

/-- The session key that a REKEY carries for our identity. -/
def unwrapRekey (identity : Bytes 32) (rekey : KeyRekey) : Result SessionKey := do
  let mySk := Ecdh.ed25519SeedToX25519 cr identity
  let info := Utf8.encode (rekeyInfo rekey.channel)
  let wrapKey := deriveWrapKey cr mySk rekey.ephPub info
  let newSkBytes ← Aead.decrypt cr wrapKey rekey.wrapNonce info rekey.wrapCt
  match Bytes.ofList? 32 newSkBytes with
  | some newSk => .ok newSk
  | none =>
    .error (.crypto (str "rekey sk has unexpected length " ++ fmtNat newSkBytes.length))

/-- The signature check of a REKEY. -/
def verifyRekey (rekey : KeyRekey) : Result Unit :=
  Sig.verify cr rekey.pubkey
    (signedKeyrekeyPayload rekey.channel rekey.pubkey rekey.ephPub rekey.wrapNonce rekey.wrapCt
      rekey.nonce) rekey.sig

/-- Consume an unsolicited REKEY from `senderHandle`. -/
def handleRekey (senderHandle : Str) (rekey : KeyRekey) : M Unit := do
  lift (verifyRekey cr rekey)
  let newFp := fingerprint cr rekey.pubkey
  let change ← ask (fun k => classifyPeerChange e k newFp senderHandle)
  match change with
  | .new => throw (.handshake (str "REKEY from unknown peer; ignoring"))
  | .known =>
    let m ← get
    let newSk ← lift (unwrapRekey cr m.identity rekey)
    tell (fun k => k.installIncomingSessionStrict e cr
      { handle := senderHandle, channel := rekey.channel, fingerprint := newFp, sk := newSk,
        status := .trusted, createdAt := e.now })
  | change => rejectTrustChange cr senderHandle rekey.channel change rekey.pubkey

/-! ### Encryption -/

/-- The loop of `encrypt_outgoing`; `part` is the number of the next chunk. -/
def encryptChunks (sk : SessionKey) (channel : Str) (msgid : Bytes 8) (total : UInt8) :
    (part : Nat) → List (List UInt8) → M (List Str)
  | _, [] => return []
  | part, plain :: rest => do
    let partByte := UInt8.ofNat part
    let aad := buildAad channel msgid e.now partByte total
    let (nonce, ct) ← aeadEncrypt cr e sk aad plain
    let line ← lift (WireChunk.encode cr
      { msgid, ts := e.now, part := partByte, total, nonce, ciphertext := ct })
    let lines ← encryptChunks sk channel msgid total (part + 1) rest
    return line :: lines

/-- Encrypt `plaintext` for `channel`: one wire-format line per chunk. -/
def encryptOutgoing (channel plaintext : Str) : M (List Str) := do
  let sk ← getOrGenerateOutgoingKey cr e channel
  let chunks ← lift (splitPlaintext plaintext)
  Exec.require (chunks.length ≤ 255) (.chunkLimit 255)
  Exec.require (0 < chunks.length) (.wire (str "chunker produced zero chunks"))
  let msgid ← draw e 8
  encryptChunks cr e sk channel msgid (UInt8.ofNat chunks.length) 1 chunks

/-! ### Decryption -/

/-- Wrapping arithmetic of `i64` in the release profile. -/
def i64Wrap (x : Int) : Int := x.bmod 18446744073709551616

/-- `(now - ts).abs()` -/
def skew (now ts : Int) : Int := i64Wrap (i64Wrap (now - ts)).natAbs

/-- Decrypt an incoming wire-format line. It only reads the state. -/
def decryptIncoming (m : E2eManager) (senderHandle channel wireLine : Str) :
    Result DecryptOutcome := do
  match ← WireChunk.parse cr wireLine with
  | none => return .plaintext wireLine
  | some wire =>
    let skew := skew e.now wire.ts
    if skew > m.tsToleranceSecs then
      return .rejected (str "ts outside tolerance window (" ++ fmtInt skew ++ str "s skew)")
    match ← m.keyring.getIncomingSession e senderHandle channel with
    | none => return .missingKey senderHandle channel
    | some sess =>
      if sess.status ≠ .trusted then
        return .rejected (str "peer not trusted (status=" ++ sess.status.debug ++ str ")")
      let aad := buildAad channel wire.msgid wire.ts wire.part wire.total
      match Aead.decrypt cr sess.sk wire.nonce aad wire.ciphertext with
      | .ok pt =>
        match Utf8.decode pt with
        | some s => return .plaintext s
        | none => return .rejected (str "utf8: " ++ cr.utf8Error pt)
      | .error err => return .rejected (str "aead failed: " ++ err.display)

end Repartee.E2eManager
