import Repartee.E2e.Traffic

/-!
# The handshake handlers

The KEYREQ and KEYRSP halves of `manager.rs`: building a KEYREQ, answering one under the channel's
policy, accepting a cached one, and consuming a KEYRSP.

## Main definitions

- `buildKeyreqForPeer`, `handleKeyreqWithNick`, `acceptPendingInbound`, `handleKeyrsp`
-/

set_option autoImplicit false

namespace Repartee.E2eManager

variable (cr : Crates) (e : Env)

/-! ### Initiator -/

/-- Build a signed KEYREQ, stashing a fresh ephemeral X25519 secret. -/
def buildKeyreqForPeer (channel : Str) (peerHandle : Option Str) : M KeyReq := do
  let nonce ← draw e 16
  let ephSecret ← draw e 32
  let ephPub := cr.xPublic ephSecret
  let m ← get
  let pubkey := m.publicBytes cr
  let sigPayload := signedKeyreqPayload channel pubkey ephPub nonce
  modify (fun m => { m with
    pending := m.pending.insert (channel, nonce) ⟨channel, peerHandle, ephSecret⟩ })
  return { channel, pubkey, ephX25519 := ephPub, nonce, sig := cr.edSign m.identity sigPayload }

def buildKeyreq (channel : Str) : M KeyReq := buildKeyreqForPeer cr e channel none

/-! ### Responder -/

/-- The mode of a channel with autotrust applied, or `none` if it is disabled. -/
def effectiveChannelMode (k : Keyring) (senderHandle channel : Str) :
    Result (Option ChannelMode) := do
  match ← k.getChannelConfig e channel with
  | none => return none
  | some chCfg =>
    if !chCfg.enabled then return none
    if ← k.autotrustMatches e cr senderHandle channel then return some .autoAccept
    return some chCfg.mode

/-- The status that a New or Known KEYREQ pins: an existing row keeps its own. -/
def statusOnKeyreq (change : TrustChange) (fp : Fingerprint) : M TrustStatus :=
  if change = .known then do
    let peer ← ask (fun k => k.getPeerByFingerprint e.again fp)
    return (peer.map PeerRecord.globalStatus).getD .pending
  else return .pending

/-- Upsert the peer row of a New or Known KEYREQ; record a warning and fail otherwise. -/
def tofuUpsertOnKeyreq (senderHandle : Str) (senderNick : Option Str) (req : KeyReq)
    (fp : Fingerprint) : M Unit := do
  let change ← ask (fun k => classifyPeerChange e k fp senderHandle)
  if change.admits then
    let globalStatus ← statusOnKeyreq e change fp
    tell (fun k => k.upsertPeer e
      { fingerprint := fp, pubkey := req.pubkey, lastHandle := some senderHandle,
        lastNick := senderNick, firstSeen := e.now, lastSeen := e.now, globalStatus })
  else rejectTrustChange cr senderHandle req.channel change req.pubkey

/-- Cache a Normal-mode KEYREQ for `/e2e accept`: a `Pending` session row (whose installation may
fail unnoticed), the request, and a prompt. -/
def cachePendingInboundNormalMode (senderHandle : Str) (senderNick : Option Str) (req : KeyReq)
    (fp : Fingerprint) : M Unit := do
  let _ ← Exec.attempt (tell (fun k => k.installIncomingSessionStrict e cr
    { handle := senderHandle, channel := req.channel, fingerprint := fp, sk := Bytes.fill 32 0,
      status := .pending, createdAt := e.now }))
  modify (fun m => { m with
    pendingInbound := m.pendingInbound.insert (senderHandle, req.channel) req
    pendingAcceptRequests :=
      m.pendingAcceptRequests ++ [⟨senderNick, senderHandle, req.channel⟩] })

/-- Whether we hold a trusted incoming session of the sender. -/
def isTrusted (e : Env) (senderHandle channel : Str) : M Bool := do
  let sess ← ask (fun k => k.getIncomingSession e senderHandle channel)
  return sess.any (fun s => s.status = .trusted)

/-- Queue a reciprocal KEYREQ to the peer we have just served. -/
def queueReciprocal (senderHandle channel : Str) : M Unit := do
  let reciprocal ← buildKeyreqForPeer cr e channel (some senderHandle)
  modify (fun m => { m with
    pendingOutboundKeyreqs := m.pendingOutboundKeyreqs ++ [⟨senderHandle, channel, reciprocal⟩] })

/-- The common tail of `handle_keyreq_with_nick` and `build_keyrsp_for_accepted_request`: wrap
our outgoing key for the initiator, record it as a recipient, and queue a reciprocal KEYREQ. -/
def serveKeyrsp (senderHandle : Str) (req : KeyReq) : M KeyRsp := do
  let ourSk ← getOrGenerateOutgoingKey cr e req.channel
  tell (fun k => k.recordOutgoingRecipient e req.channel senderHandle
    (fingerprint cr req.pubkey) e.now)
  let ourEphSecret ← draw e 32
  let ourEphPub := cr.xPublic ourEphSecret
  let info := Utf8.encode (wrapInfo req.channel)
  let wrapKey := deriveWrapKey cr ourEphSecret req.ephX25519 info
  let (wrapNonce, wrapCt) ← aeadEncrypt cr e wrapKey info ourSk.1
  let m ← get
  let ourPubkey := m.publicBytes cr
  let rspNonce ← draw e 16
  let sigPayload :=
    signedKeyrspPayload req.channel ourPubkey ourEphPub wrapNonce wrapCt rspNonce
  let alreadyIncoming ← isTrusted e.again senderHandle req.channel
  let allowOut ← allowKeyreq e senderHandle
  Exec.runIf (!alreadyIncoming && allowOut) (queueReciprocal cr e senderHandle req.channel)
  return { channel := req.channel, pubkey := ourPubkey, ephemeralPub := ourEphPub, wrapNonce,
           wrapCt, nonce := rspNonce, sig := cr.edSign m.identity sigPayload }

/-- The signature check of a KEYREQ. -/
def verifyKeyreq (req : KeyReq) : Result Unit :=
  Sig.verify cr req.pubkey (signedKeyreqPayload req.channel req.pubkey req.ephX25519 req.nonce)
    req.sig

/-- Handle an incoming KEYREQ: `some` KEYRSP if policy allows, `none` if the request is ignored
or cached. -/
def handleKeyreqWithNick (senderHandle : Str) (senderNick : Option Str) (req : KeyReq) :
    M (Option KeyRsp) := do
  let allowed ← allowIncomingKeyreq e senderHandle
  Exec.require allowed (.rateLimit senderHandle)
  lift (verifyKeyreq cr req)
  match ← ask (fun k => effectiveChannelMode cr e k senderHandle req.channel) with
  | none => return none
  | some effectiveMode =>
    let fp := fingerprint cr req.pubkey
    tofuUpsertOnKeyreq cr e senderHandle senderNick req fp
    let alreadyTrusted ← isTrusted e senderHandle req.channel
    match effectiveMode with
    | .autoAccept => return some (← serveKeyrsp cr e senderHandle req)
    | .normal =>
      if alreadyTrusted then return some (← serveKeyrsp cr e senderHandle req)
      else
        cachePendingInboundNormalMode cr e senderHandle senderNick req fp
        return none
    | .quiet =>
      if alreadyTrusted then return some (← serveKeyrsp cr e senderHandle req)
      else return none

/-- Build a KEYRSP for an already vetted KEYREQ: the peer row becomes trusted first. -/
def buildKeyrspForAcceptedRequest (senderHandle : Str) (req : KeyReq) : M KeyRsp := do
  let fp := fingerprint cr req.pubkey
  let existingPeer ← ask (fun k => k.getPeerByFingerprint e fp)
  tell (fun k => k.upsertPeer e
    { fingerprint := fp, pubkey := req.pubkey, lastHandle := some senderHandle,
      lastNick := existingPeer.bind PeerRecord.lastNick,
      firstSeen := (existingPeer.map PeerRecord.firstSeen).getD e.now,
      lastSeen := e.now, globalStatus := .trusted })
  serveKeyrsp cr e senderHandle req

/-- Complete a cached KEYREQ; `none` if there is none for this handle and channel. -/
def acceptPendingInbound (senderHandle channel : Str) : M (Option KeyRsp) := do
  let m ← get
  match m.pendingInbound.lookup (senderHandle, channel) with
  | none => return none
  | some req =>
    set { m with pendingInbound := m.pendingInbound.erase (senderHandle, channel) }
    return some (← buildKeyrspForAcceptedRequest cr e senderHandle req)

/-! ### KEYRSP consumer -/

/-- The session key that a KEYRSP carries for one of our ephemeral secrets. -/
def unwrapKeyrsp (rsp : KeyRsp) (ephSecret : Bytes 32) : Option SessionKey :=
  let info := Utf8.encode (wrapInfo rsp.channel)
  let wrapKey := deriveWrapKey cr ephSecret rsp.ephemeralPub info
  match Aead.decrypt cr wrapKey rsp.wrapNonce info rsp.wrapCt with
  | .ok skBytes => Bytes.ofList? 32 skBytes
  | .error _ => none

/-- The keys of the in-flight handshakes of a channel, in the map's iteration order. -/
def candidateKeys (pending : Dict (Str × Bytes 16) PendingHandshake) (channel : Str) :
    List (Str × Bytes 16) :=
  e.shuffle ((pending.rows.map Prod.fst).filter (fun k => k.1 = channel))

/-- The first in-flight handshake that unwraps a KEYRSP. -/
def matchKeyrsp (pending : Dict (Str × Bytes 16) PendingHandshake) (rsp : KeyRsp) :
    Option (SessionKey × (Str × Bytes 16)) :=
  (candidateKeys e pending rsp.channel).findSome? (fun key =>
    (pending.lookup key).bind (fun ph =>
      (unwrapKeyrsp cr rsp ph.ephX25519Secret).map (fun sk => (sk, key))))

/-- Consume the in-flight handshake that unwraps a KEYRSP. -/
def consumeMatchingPendingForKeyrsp (rsp : KeyRsp) : M SessionKey := do
  let m ← get
  Exec.require (!(candidateKeys e m.pending rsp.channel).isEmpty)
    (.handshake (str "no pending handshake for channel"))
  match matchKeyrsp cr e m.pending rsp with
  | none => throw (.crypto (str "KEYRSP did not match any pending handshake for channel"))
  | some (sk, key) =>
    set { m with pending := m.pending.erase key }
    return sk

/-- The signature check of a KEYRSP. -/
def verifyKeyrsp (rsp : KeyRsp) : Result Unit :=
  Sig.verify cr rsp.pubkey
    (signedKeyrspPayload rsp.channel rsp.pubkey rsp.ephemeralPub rsp.wrapNonce rsp.wrapCt
      rsp.nonce) rsp.sig

/-- Install the session of a KEYRSP; a row with another fingerprint is surfaced as a warning. -/
def installKeyrspSession (senderHandle : Str) (rsp : KeyRsp) (fp : Fingerprint)
    (sk : SessionKey) : M Unit := do
  let installed ← Exec.attempt (tell (fun k => k.installIncomingSessionStrict e cr
    { handle := senderHandle, channel := rsp.channel, fingerprint := fp, sk,
      status := .trusted, createdAt := e.now }))
  match installed with
  | .ok _ => return ()
  | .error (.handleMismatch expected got) =>
    let existing ← ask (fun k => k.getIncomingSession e senderHandle rsp.channel)
    let existingFp := (existing.map IncomingSession.fingerprint).getD (Bytes.fill 16 0)
    recordTrustChange ⟨senderHandle, rsp.channel,
      .fingerprintChanged senderHandle existingFp fp, some rsp.pubkey⟩
    throw (.handleMismatch expected got)
  | .error err => throw err

/-- Consume an incoming KEYRSP: match it with an in-flight handshake, pin the responder and
install its session as trusted. -/
def handleKeyrsp (senderHandle : Str) (rsp : KeyRsp) : M Unit := do
  lift (verifyKeyrsp cr rsp)
  let sk ← consumeMatchingPendingForKeyrsp cr e rsp
  let fp := fingerprint cr rsp.pubkey
  let change ← ask (fun k => classifyPeerChange e k fp senderHandle)
  if change.admits then
    tell (fun k => k.upsertPeer e
      { fingerprint := fp, pubkey := rsp.pubkey, lastHandle := some senderHandle,
        lastNick := none, firstSeen := e.now, lastSeen := e.now, globalStatus := .trusted })
    installKeyrspSession cr e senderHandle rsp fp sk
  else rejectTrustChange cr senderHandle rsp.channel change rsp.pubkey

/-! ### Reverify and forget -/

/-- Drop the in-memory state of a handle; returns how many entries. -/
def clearPendingStateForHandle (handle : Str) : M Nat :=
  modifyGet (fun m =>
    let m' := { m with
      pending := m.pending.retain (fun _ ph => ph.peerHandle ≠ some handle)
      pendingInbound := m.pendingInbound.retain (fun k _ => k.1 ≠ handle)
      pendingAcceptRequests := m.pendingAcceptRequests.filter (fun r => r.handle ≠ handle)
      pendingTrustChange := m.pendingTrustChange.filter (fun n => n.handle ≠ handle)
      pendingOutboundKeyreqs :=
        m.pendingOutboundKeyreqs.filter (fun r => r.peerHandle ≠ handle) }
    ((m.pending.rows.length - m'.pending.rows.length) +
      (m.pendingInbound.rows.length - m'.pendingInbound.rows.length) +
      (m.pendingAcceptRequests.length - m'.pendingAcceptRequests.length) +
      (m.pendingTrustChange.length - m'.pendingTrustChange.length) +
      (m.pendingOutboundKeyreqs.length - m'.pendingOutboundKeyreqs.length), m'))

/-- The first notice of a handle that carries a new identity: `(old_fp, new_fp, new_pubkey)`. -/
def appliedNotice (notices : List PendingTrustNotice) (handle : Str) :
    Option (Fingerprint × Fingerprint × Bytes 32) :=
  notices.findSome? (fun n =>
    if n.handle = handle then
      match n.change, n.newPubkey with
      | .fingerprintChanged _ oldFp newFp, some pk => some (oldFp, newFp, pk)
      | _, _ => none
    else none)

/-- Delete the peer row that a handle resolves to; returns how many rows. -/
def deletePeerAt (handle : Str) : M Nat := do
  match ← ask (fun k => k.getPeerByHandle e handle) with
  | some peer =>
    tell (fun k => k.deletePeerByFingerprint e peer.fingerprint)
    return 1
  | none => return 0

/-- Delete everything the keyring has about a handle; returns how many rows and entries. -/
def purgeHandle (handle : Str) : M Nat := do
  let purged ← deletePeerAt e handle
  let sessions ← tellCount (fun k => k.deleteIncomingSessionsForHandle e handle)
  let recipients ← tellCount (fun k => k.deleteOutgoingRecipientsForHandle e handle)
  let entries ← clearPendingStateForHandle handle
  return purged + sessions + recipients + entries

/-- Reverify a peer: apply the queued identity change of the handle, or purge the handle. -/
def reverifyPeer (handle : Str) : M ReverifyOutcome := do
  let m ← get
  let applied := appliedNotice m.pendingTrustChange handle
  set { m with pendingTrustChange := m.pendingTrustChange.filter (fun n => n.handle ≠ handle) }
  match applied with
  | some (oldFp, newFp, newPubkey) =>
    tell (fun k => k.deletePeerByFingerprint e oldFp)
    let _ ← tellCount (fun k => k.deleteIncomingSessionsForHandle e handle)
    let _ ← tellCount (fun k => k.deleteOutgoingRecipientsForHandle e handle)
    let _ ← clearPendingStateForHandle handle
    tell (fun k => k.upsertPeer e
      { fingerprint := newFp, pubkey := newPubkey, lastHandle := some handle, lastNick := none,
        firstSeen := e.now, lastSeen := e.now, globalStatus := .trusted })
    return .applied oldFp newFp
  | none =>
    let deleted ← purgeHandle e handle
    if deleted = 0 then return .notFound else return .cleared deleted

def forgetPeerOnChannel (handle channel : Str) : M Nat := do
  let sess ← ask (fun k => k.getIncomingSession e handle channel)
  Exec.runIf sess.isSome (tell (fun k => k.deleteIncomingSession e handle channel))
  let entries ← modifyGet (fun m =>
    let m' := { m with
      pendingInbound := m.pendingInbound.erase (handle, channel)
      pendingAcceptRequests := m.pendingAcceptRequests.filter (fun r =>
        !(r.handle = handle && r.channel = channel))
      pending := m.pending.retain (fun k ph => !(k.1 = channel && ph.peerHandle = some handle))
      pendingOutboundKeyreqs := m.pendingOutboundKeyreqs.filter (fun r =>
        !(r.peerHandle = handle && r.channel = channel)) }
    ((m.pendingInbound.rows.length - m'.pendingInbound.rows.length) +
      (m.pendingAcceptRequests.length - m'.pendingAcceptRequests.length) +
      (m.pending.rows.length - m'.pending.rows.length) +
      (m.pendingOutboundKeyreqs.length - m'.pendingOutboundKeyreqs.length), m'))
  return (if sess.isSome then 1 else 0) + entries

def forgetPeerEverywhere (handle : Str) : M Nat := purgeHandle e handle

end Repartee.E2eManager
