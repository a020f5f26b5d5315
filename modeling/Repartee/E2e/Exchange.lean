import Mathlib.Logic.Function.Basic
import Repartee.E2e.Rejection
import Repartee.E2e.Consent
import Repartee.Irc.Dispatch

/-!
# Two clients that shake hands

Two clients on one channel, each with the messages in flight to it in a queue. A step is a KEYREQ
that a user initiates, or the delivery of the oldest message to a client, whose answers join the
other client's queue.

## Main definitions

- `receive`: what a client answers to a message, in the order of the dispatcher
- `Exchange`, `Exchange.step`: the system
- `Undisturbed`: the surroundings of a step

## Main results

- `dispatchMsg_eq`: the dispatcher sends what `receive` answers
- `run_sendKeyrsp`: a client without storage failures answers with a KEYRSP
-/

set_option autoImplicit false

namespace Repartee

open Exec E2eManager

variable (cr : Crates)

/-! ### The system -/

/-- What a client answers to a handshake message of `senderHandle`. -/
def receive (e : Env) (nick senderHandle : Str) : HandshakeMsg → M (List HandshakeMsg)
  | .req req => do
    let result ← Exec.attempt (handleKeyreqWithNick cr e senderHandle (some nick) req)
    let _ ← takePendingTrustChanges
    let _ ← takePendingAcceptRequests
    match result with
    | .ok (some rsp) =>
      let outs ← takePendingOutboundKeyreqs
      return .rsp rsp :: outs.map (fun out => .req out.req)
    | .ok none => return []
    | .error _ => return []
  | .rsp rsp => do
    let _ ← Exec.attempt (handleKeyrsp cr e senderHandle rsp)
    let _ ← takePendingTrustChanges
    return []
  | .rekey rekey => do
    let _ ← Exec.attempt (handleRekey cr e senderHandle rekey)
    let _ ← takePendingTrustChanges
    return []

/-- The dispatcher sends the answers as NOTICEs to the sender's nick. -/
theorem dispatchMsg_eq (e : Env) (connId nick senderHandle : Str) (msg : HandshakeMsg) :
    dispatchMsg cr e connId nick senderHandle msg = (do
      let answers ← receive cr e nick senderHandle msg
      return answers.map (fun answer => ⟨connId, nick, answer.encodeCtcp cr⟩)) := by
  cases msg with
  | req req =>
    simp only [dispatchMsg, receive, bind_assoc]
    congr 1
    funext result
    congr 1
    funext _
    congr 1
    funext _
    rcases result with err | (_ | rsp)
    · simp
    · simp
    · simp [Function.comp_def]
  | rsp rsp => simp [dispatchMsg, receive]
  | rekey rekey => simp [dispatchMsg, receive]

variable {cr} in
/-- The framing of a message is taken off again. -/
theorem unframe_encodeCtcp (msg : HandshakeMsg) : unframe (msg.encodeCtcp cr) = msg.encode cr := by
  have hprefix : Text.stripPrefix [Char.ofNat 1] (msg.encodeCtcp cr) =
      some (msg.encode cr ++ [Char.ofNat 1]) :=
    Text.stripPrefix_append [Char.ofNat 1] (msg.encode cr ++ [Char.ofNat 1])
  rw [unframe, hprefix]
  show (Text.stripSuffix [Char.ofNat 1] (msg.encode cr ++ [Char.ofNat 1])).getD _ = _
  rw [Text.stripSuffix_append]
  rfl

variable {cr} in
theorem startsWith_encode (msg : HandshakeMsg) :
    Text.startsWith (msg.encode cr) ctcpTag = true := by
  rw [Text.startsWith_iff]
  cases msg <;> exact ⟨_, rfl⟩

variable {cr} in
/-- **The wire**: the NOTICE of a message is dispatched as the message. -/
theorem tryDispatch_encodeCtcp (h : cr.Codecs) (e : Env) (connId nick user host : Str)
    {msg : HandshakeMsg} (hc : ∀ c ∈ msg.channel, Text.isWhitespace c = false) :
    tryDispatchRpe2eCtcp cr e connId (some (.nickname nick user host)) (msg.encodeCtcp cr) = (do
      return (.handled, ← dispatchMsg cr e connId nick (userhost user host) msg)) := by
  rw [tryDispatchRpe2eCtcp, unframe_encodeCtcp, startsWith_encode]
  simp only [extractNickUserhost, HandshakeMsg.parse_encode h msg hc]
  rfl

/-- One of the two clients. -/
inductive Party where
  | alice
  | bob
  deriving DecidableEq

def Party.other : Party → Party
  | .alice => .bob
  | .bob => .alice

/-- The channel, and the handle and the nick that each client is seen under by the other. -/
structure Setting where
  channel : Str
  handle : Party → Str
  nick : Party → Str

/-- The two clients, and the messages in flight to each, oldest first. `initiated` counts the
KEYREQs that the users have initiated, `sent` all the messages. -/
structure Exchange where
  client : Party → E2eManager
  inbox : Party → List HandshakeMsg
  initiated : Nat
  sent : Nat

namespace Exchange

inductive Event where
  | initiate (party : Party) (peerHandle : Option Str)
  | deliver (party : Party)
  deriving DecidableEq

/-- The client that acts. -/
def Event.party : Event → Party
  | .initiate p _ => p
  | .deliver p => p

variable (s : Setting)

/-- The user of a client initiates a KEYREQ. -/
def initiate (x : Exchange) (e : Env) (p : Party) (peerHandle : Option Str) : Exchange :=
  match (buildKeyreqForPeer cr e s.channel peerHandle).run (x.client p) with
  | .ok req m =>
    { client := Function.update x.client p m
      inbox := Function.update x.inbox p.other (x.inbox p.other ++ [.req req])
      initiated := x.initiated + 1
      sent := x.sent + 1 }
  | .error _ m => { x with client := Function.update x.client p m }

/-- The oldest message to a client arrives. -/
def deliver (x : Exchange) (e : Env) (p : Party) : Exchange :=
  match x.inbox p with
  | [] => x
  | msg :: rest =>
    match (receive cr e (s.nick p.other) (s.handle p.other) msg).run (x.client p) with
    | .ok answers m =>
      { x with
        client := Function.update x.client p m
        inbox := Function.update (Function.update x.inbox p rest) p.other
          (x.inbox p.other ++ answers)
        sent := x.sent + answers.length }
    | .error _ m =>
      { x with
        client := Function.update x.client p m
        inbox := Function.update x.inbox p rest }

/-- The transition of the system. -/
def step (x : Exchange) : Env × Event → Exchange
  | (e, .initiate p peerHandle) => x.initiate cr s e p peerHandle
  | (e, .deliver p) => x.deliver cr s e p

/-- What the surroundings of a step owe it: no storage failure, nonces that no handshake in
flight has, and rate limiters that permit. -/
structure Undisturbed (x : Exchange) (i : Env × Event) : Prop where
  healthy : i.1.Healthy
  fresh : ∀ k, (x.client i.2.party).draws ≤ k →
    pendingOf s.channel (x.client i.2.party) (i.1.random k 16) = none
  permits : ∀ p, i.2 = .deliver p →
    ((x.client p).rateLimiter.allowIncoming i.1.instant (s.handle p.other)).1 = true ∧
      ((x.client p).rateLimiter.allowOutgoing i.1.instant (s.handle p.other)).1 = true

end Exchange

/-! ### Messages -/

/-- The KEYREQ that an identity builds. -/
def keyreqOf (identity : Bytes 32) (channel : Str) (nonce : Bytes 16) (secret : Bytes 32) :
    KeyReq :=
  { channel, pubkey := cr.edPublic identity, ephX25519 := cr.xPublic secret, nonce,
    sig := cr.edSign identity
      (signedKeyreqPayload channel (cr.edPublic identity) (cr.xPublic secret) nonce) }

/-- A KEYREQ of an identity for a channel, authentic and built from an ephemeral secret. -/
structure IsKeyreq (identity : Bytes 32) (c : Str) (secret : Bytes 32) (req : KeyReq) :
    Prop where
  channel : req.channel = c
  pubkey : req.pubkey = cr.edPublic identity
  signed : verifyKeyreq cr req = .ok ()
  ephemeral : req.ephX25519 = cr.xPublic secret

/-- A KEYRSP of an identity for a channel, authentic and wrapping a key for an ephemeral one. -/
structure IsKeyrsp (identity : Bytes 32) (c : Str) (ephPub : Bytes 32) (sk : SessionKey)
    (rsp : KeyRsp) : Prop where
  channel : rsp.channel = c
  pubkey : rsp.pubkey = cr.edPublic identity
  signed : verifyKeyrsp cr rsp = .ok ()
  wrapped : ∃ secret, rsp.ephemeralPub = cr.xPublic secret ∧
    Aead.encrypt cr (deriveWrapKey cr secret ephPub (Utf8.encode (wrapInfo c)))
      rsp.wrapNonce (Utf8.encode (wrapInfo c)) sk.1 = .ok rsp.wrapCt

/-- The state in which a KEYREQ has been built. -/
def stashed (e : Env) (m : E2eManager) (channel : Str) (peerHandle : Option Str) : E2eManager :=
  { m with
    draws := m.draws + 2
    pending := m.pending.insert (channel, e.random m.draws 16)
      ⟨channel, peerHandle, e.random (m.draws + 1) 32⟩ }

variable {cr} {e : Env}

theorem isKeyreq_keyreqOf (h : cr.Honest) (identity : Bytes 32) (channel : Str)
    (nonce : Bytes 16) (secret : Bytes 32) :
    IsKeyreq cr identity channel secret (keyreqOf cr identity channel nonce secret) where
  channel := rfl
  pubkey := rfl
  signed := h.verify_sign' identity _
  ephemeral := rfl

theorem run_buildKeyreqForPeer (m : E2eManager) (channel : Str) (peerHandle : Option Str) :
    (buildKeyreqForPeer cr e channel peerHandle).run m =
      .ok (keyreqOf cr m.identity channel (e.random m.draws 16) (e.random (m.draws + 1) 32))
        (stashed e m channel peerHandle) := rfl

/-- The state in which a KEYRSP has been wrapped, before the reciprocal KEYREQ. -/
def wrapping (e : Env) (m : E2eManager) (handle : Str) : E2eManager :=
  { m with
    draws := m.draws + 3
    rateLimiter := (m.rateLimiter.allowOutgoing e.instant handle).2 }

/-- The state in which the reciprocal KEYREQ has been queued. -/
def reciprocated (cr : Crates) (e : Env) (m : E2eManager) (handle channel : Str) : E2eManager :=
  { stashed e (wrapping e m handle) channel (some handle) with
    pendingOutboundKeyreqs := m.pendingOutboundKeyreqs ++ [⟨handle, channel,
      keyreqOf cr m.identity channel (e.random (m.draws + 3) 16) (e.random (m.draws + 4) 32)⟩] }

/-- A KEYRSP is wrapped, and a reciprocal KEYREQ is queued without a trusted session. -/
theorem run_sendKeyrsp (hon : cr.Honest) (hh : e.Healthy) {m : E2eManager} {handle : Str}
    {req : KeyReq} {sk : SessionKey}
    (hallow : (m.rateLimiter.allowOutgoing e.instant handle).1 = true) :
    ∃ rsp, (sendKeyrsp cr e handle req sk).run m = .ok rsp
        (if trustedRow (m.keyring.incoming.get? (handle, req.channel)) then wrapping e m handle
        else reciprocated cr e m handle req.channel) ∧
      IsKeyrsp cr m.identity req.channel req.ephX25519 sk rsp := by
  let info := Utf8.encode (wrapInfo req.channel)
  obtain ⟨ct, hct⟩ := hon.aead_encrypt
    (deriveWrapKey cr (e.random m.draws 32) req.ephX25519 info) (e.random (m.draws + 1) 24) info sk.1
  have haead : (aeadEncrypt cr e (deriveWrapKey cr (e.random m.draws 32) req.ephX25519 info) info
      sk.1).run { m with draws := m.draws + 1 } =
      .ok (e.random (m.draws + 1) 24, ct) { m with draws := m.draws + 2 } :=
    run_aeadEncrypt_eq_ok_iff.mpr ⟨hct, rfl, rfl⟩
  have htrusted : (isTrusted e.again handle req.channel).run { m with draws := m.draws + 3 } =
      .ok (trustedRow (m.keyring.incoming.get? (handle, req.channel)))
        { m with draws := m.draws + 3 } :=
    run_isTrusted _ _ _ (hh.again _)
  have hout : (allowKeyreq e handle).run { m with draws := m.draws + 3 } =
      .ok true (wrapping e m handle) := hallow ▸ rfl
  unfold sendKeyrsp
  rw [bind_of_ok
    (rfl : (draw e 32).run m = .ok (e.random m.draws 32) { m with draws := m.draws + 1 })]
  dsimp only
  rw [bind_of_ok haead]
  dsimp only
  rw [bind_of_ok (rfl : (get : M E2eManager).run { m with draws := m.draws + 2 } = .ok _ _),
    bind_of_ok (rfl : (draw e 16).run { m with draws := m.draws + 2 } =
      .ok (e.random (m.draws + 2) 16) { m with draws := m.draws + 3 }),
    bind_of_ok htrusted, bind_of_ok hout]
  have hwrapped := fun rspNonce => (⟨rfl, rfl, hon.verify_sign' m.identity _, _, rfl, hct⟩ :
    IsKeyrsp cr m.identity req.channel req.ephX25519 sk
      { channel := req.channel, pubkey := m.publicBytes cr
        ephemeralPub := cr.xPublic (e.random m.draws 32), wrapNonce := e.random (m.draws + 1) 24
        wrapCt := ct, nonce := rspNonce
        sig := cr.edSign m.identity (signedKeyrspPayload req.channel (m.publicBytes cr)
          (cr.xPublic (e.random m.draws 32)) (e.random (m.draws + 1) 24) ct rspNonce) })
  cases trustedRow (m.keyring.incoming.get? (handle, req.channel)) with
  | true => exact ⟨_, rfl, hwrapped _⟩
  | false => exact ⟨_, rfl, hwrapped _⟩

end Repartee
