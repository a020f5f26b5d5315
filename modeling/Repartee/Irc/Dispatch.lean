import Repartee.E2e.Steps

/-!
# The handshake dispatcher

The part of `irc/events.rs` that hands an incoming RPE2E CTCP body to the manager, shows the
warnings it has queued, and queues the answers for the sender.

## Main definitions

- `dispatchMsg`: a parsed handshake message
- `tryDispatchRpe2eCtcp`: the body of a NOTICE or PRIVMSG
-/

set_option autoImplicit false

namespace Repartee

/-- `irc::proto::Prefix` -/
inductive Prefix where
  | serverName (name : Str)
  | nickname (nick user host : Str)
  deriving DecidableEq

/-- Nick, ident and host of a prefix. -/
def extractNickUserhost : Option Prefix → Str × Str × Str
  | some (.nickname nick user host) => (nick, user, host)
  | some (.serverName name) => (name, [], [])
  | none => ([], [], [])

/-- The `ident@host` of a sender. -/
def userhost (ident host : Str) : Str := ident ++ '@' :: host

/-- A NOTICE that waits to be sent on a connection. -/
structure PendingE2eSend where
  connectionId : Str
  target : Str
  noticeText : Str
  deriving DecidableEq

/-- Whether a body was handled as RPE2E traffic. -/
inductive RpEe2eOutcome where
  | handled
  | notE2e
  deriving DecidableEq

open E2eManager

variable (cr : Crates) (e : Env)

/-- Dispatch a parsed handshake message of a sender; returns the NOTICEs queued for it. The
warnings are drained to be shown. -/
def dispatchMsg (connId nick senderHandle : Str) : HandshakeMsg → M (List PendingE2eSend)
  | .req req => do
    let result ← Exec.attempt (handleKeyreqWithNick cr e senderHandle (some nick) req)
    let _ ← takePendingTrustChanges
    let _ ← takePendingAcceptRequests
    match result with
    | .ok (some rsp) =>
      let outs ← takePendingOutboundKeyreqs
      return ⟨connId, nick, (HandshakeMsg.rsp rsp).encodeCtcp cr⟩ ::
        outs.map (fun out => ⟨connId, nick, (HandshakeMsg.req out.req).encodeCtcp cr⟩)
    | .ok none => return []
    | .error _ => return []
  | .rsp rsp => do
    let _ ← Exec.attempt (handleKeyrsp cr e senderHandle rsp)
    let _ ← takePendingTrustChanges
    return []
  | .rekey rekey => do
    let _ ← Exec.attempt (handleRekey cr e senderHandle rekey)
    let _ ← takePendingTrustChanges
    return []

/-- The operation of the manager that a handshake message of a sender calls. -/
def handshakeOp (handle nick : Str) : HandshakeMsg → Op
  | .req req => .keyreq handle (some nick) req
  | .rsp rsp => .keyrsp handle rsp
  | .rekey rekey => .rekey handle rekey

/-- A dispatched message is a step of the manager, and the warnings are drained. -/
theorem final_dispatchMsg (m : E2eManager) (connId nick handle : Str) (msg : HandshakeMsg) :
    ∃ outbound accepts, Exec.final (dispatchMsg cr e connId nick handle msg) m =
      { step cr m (e, handshakeOp handle nick msg) with
        pendingTrustChange := []
        pendingOutboundKeyreqs := outbound
        pendingAcceptRequests := accepts } := by
  cases msg with
  | req req =>
    rw [handshakeOp, step, Op.exec, final_discard, dispatchMsg]
    obtain ⟨r, hr⟩ := Exec.exists_run_attempt
      (handleKeyreqWithNick cr e handle (some nick) req) m
    rw [Exec.final_bind_of_ok hr]
    rcases r with err | (_ | rsp)
    · exact ⟨_, _, rfl⟩
    · exact ⟨_, _, rfl⟩
    · exact ⟨_, _, rfl⟩
  | rsp rsp =>
    obtain ⟨r, hr⟩ := Exec.exists_run_attempt (handleKeyrsp cr e handle rsp) m
    rw [dispatchMsg, Exec.final_bind_of_ok hr]
    exact ⟨_, _, rfl⟩
  | rekey rekey =>
    obtain ⟨r, hr⟩ := Exec.exists_run_attempt (handleRekey cr e handle rekey) m
    rw [dispatchMsg, Exec.final_bind_of_ok hr]
    exact ⟨_, _, rfl⟩

/-- The body without its CTCP framing, of which the closing byte may be missing. -/
def unframe (text : Str) : Str :=
  let trimmed := (Text.stripPrefix [Char.ofNat 1] text).getD text
  (Text.stripSuffix [Char.ofNat 1] trimmed).getD trimmed

/-- Try to dispatch an incoming body as an RPE2E handshake. -/
def tryDispatchRpe2eCtcp (connId : Str) (pfx : Option Prefix) (text : Str) :
    M (RpEe2eOutcome × List PendingE2eSend) := do
  let inner := unframe text
  if !Text.startsWith inner ctcpTag then return (.notE2e, [])
  let (nick, ident, host) := extractNickUserhost pfx
  match HandshakeMsg.parse cr inner with
  | .ok (some msg) => return (.handled, ← dispatchMsg cr e connId nick (userhost ident host) msg)
  | .ok none => return (.notE2e, [])
  | .error _ => return (.handled, [])

end Repartee
