import Repartee.App.Input

/-!
# The `/e2e` commands of a conversation

The handlers of `commands/handlers_e2e.rs` that configure the active conversation or change the
trust in a peer of it, and the decision of `irc/events.rs` which buffer and which context an
incoming PRIVMSG belongs to.

## Main definitions

- `App.currentChannel`: the name that the commands use the keyring under
- `App.e2eOn`, `App.e2eOff`, `App.e2eMode`, `App.e2eAccept`, `App.e2eRevoke`, `App.e2eRotate`,
  `App.e2eHandshake`
- `privmsgBuffer`, `decryptContext`: where an incoming PRIVMSG goes
-/

set_option autoImplicit false

namespace Repartee

open E2eManager

/-- Parsed `/e2e` subcommands. -/
inductive E2eSub where
  | on
  | off
  | mode (mode : Str)
  | accept (nick : Str)
  | revoke (nick : Str)
  | rotate
  | handshake (nick : Str)
  deriving DecidableEq

/-- The handle that was seen last; of two seen at one time, the later in the list. -/
def latestHandle : List (Int × Str) → Option (Int × Str)
  | [] => none
  | p :: rest =>
    match latestHandle rest with
    | some q => if q.1 < p.1 then some p else some q
    | none => some p

variable (w : World) (cr : Crates)

/-- The channel mode that a token names. -/
def parseMode (s : Str) : Option ChannelMode :=
  let s := w.toLowercase s
  if s = str "auto-accept" || s = str "auto" then some .autoAccept
  else if s = str "normal" then some .normal
  else if s = str "quiet" then some .quiet
  else none

namespace App

/-- The name of the active conversation. -/
def currentChannel (app : App) : Option Str :=
  app.state.activeBuffer.bind (fun buf =>
    if buf.bufferType = .channel || buf.bufferType = .query then some buf.name else none)

/-- Run a call of the core; a client without a manager makes none. -/
def withCore {α : Type} (app : App) (x : Env → M α) : Option (Except E2eError α) × App :=
  match app.state.e2eManager with
  | none => (none, app)
  | some mgr =>
    match (x (w.env app.clock)).run mgr with
    | .ok a mgr' =>
      (some (.ok a), { app.tick with state := { app.state with e2eManager := some mgr' } })
    | .error err mgr' =>
      (some (.error err), { app.tick with state := { app.state with e2eManager := some mgr' } })

/-- The `ident@host` of a member of a channel. -/
def resolveHandleByNick (app : App) (channel nick : Str) : Option Str := do
  let active ← app.state.activeBuffer
  let buf ← app.state.buffers.get? (makeBufferId w active.connectionId channel)
  let entry ← buf.users.lookup (w.toLowercase nick)
  if (entry.ident.getD []).isEmpty && (entry.host.getD []).isEmpty then none
  else some entry.handle

/-- The handle that a nick was last seen with; `none` also if the peers cannot be read. -/
def resolveCachedHandleByNick (app : App) (nick : Str) : Option Str :=
  match app.state.e2eManager with
  | none => none
  | some mgr =>
    match mgr.keyring.listAllPeers (w.env app.clock) with
    | .error _ => none
    | .ok peers =>
      (latestHandle (peers.filterMap (fun peer =>
        match peer.lastNick, peer.lastHandle with
        | some lastNick, some lastHandle =>
          if eqIgnoreAsciiCase lastNick nick then some (peer.lastSeen, lastHandle) else none
        | _, _ => none))).map Prod.snd

/-- Every command that names a nick needs its handle. -/
def requireHandleForNick (app : App) (channel nick : Str) : Option Str :=
  match app.resolveHandleByNick w channel nick with
  | some handle => some handle
  | none => app.resolveCachedHandleByNick w nick

/-- Queue a NOTICE for the sender. -/
def queueSend (app : App) (send : PendingE2eSend) : App :=
  { app with state := { app.state with pendingE2eSends := app.state.pendingE2eSends ++ [send] } }

/-- Write a configuration of a context. -/
def configure (app : App) (cfg : ChannelConfig) : App :=
  (app.withCore w (fun e => tell (fun k => k.setChannelConfig e cfg))).2

def e2eOn (app : App) : App :=
  match app.currentChannel with
  | none => app
  | some chan => app.configure w ⟨chan, true, .normal⟩

def e2eOff (app : App) : App :=
  match app.currentChannel with
  | none => app
  | some chan => app.configure w ⟨chan, false, .normal⟩

def e2eMode (app : App) (modeStr : Str) : App :=
  match app.currentChannel with
  | none => app
  | some chan =>
    match parseMode w modeStr with
    | none => app
    | some mode => app.configure w ⟨chan, true, mode⟩

/-- The KEYRSP of an accepted request goes out with the KEYREQs that it has queued. -/
def sendAccepted (app : App) (connId nick : Str) (rsp : KeyRsp) : App :=
  let app := app.queueSend ⟨connId, nick, (HandshakeMsg.rsp rsp).encodeCtcp cr⟩
  match app.withCore w (fun _ => takePendingOutboundKeyreqs) with
  | (some (.ok outs), app) =>
    outs.foldl (fun app out => app.queueSend ⟨connId, nick, (HandshakeMsg.req out.req).encodeCtcp cr⟩)
      app
  | (_, app) => app

def e2eAccept (app : App) (nick : Str) : App :=
  match app.currentChannel with
  | none => app
  | some chan =>
    match app.requireHandleForNick w chan nick with
    | none => app
    | some handle =>
      let connIdOpt := app.state.activeBuffer.map Buffer.connectionId
      match app.withCore w (fun e => acceptPendingInbound cr e handle chan) with
      | (some (.ok (some rsp)), app) =>
        match connIdOpt with
        | some connId => app.sendAccepted w cr connId nick rsp
        | none => app
      | (some (.ok none), app) =>
        (app.withCore w (fun e => tell (fun k => k.updateIncomingStatus e handle chan .trusted))).2
      | (_, app) => app

def e2eRevoke (app : App) (nick : Str) : App :=
  match app.currentChannel with
  | none => app
  | some chan =>
    match app.requireHandleForNick w chan nick with
    | none => app
    | some handle =>
      (app.withCore w (fun e => do
        tell (fun k => k.updateIncomingStatus e handle chan .revoked)
        tell (fun k => k.removeOutgoingRecipient e chan handle)
        tell (fun k => k.markOutgoingPendingRotation e chan))).2

def e2eHandshake (app : App) (nick : Str) : App :=
  match app.currentChannel with
  | none => app
  | some chan =>
    match app.state.activeBuffer with
    | none => app
    | some buf =>
      match app.withCore w (fun e => buildKeyreq cr e chan) with
      | (some (.ok req), app) =>
        app.queueSend ⟨buf.connectionId, nick, (HandshakeMsg.req req).encodeCtcp cr⟩
      | (_, app) => app

def e2eRotate (app : App) : App :=
  match app.currentChannel with
  | none => app
  | some chan => (app.withCore w (fun e => tell (fun k => k.markOutgoingPendingRotation e chan))).2

def runE2eSub (app : App) : E2eSub → App
  | .on => app.e2eOn w
  | .off => app.e2eOff w
  | .mode m => app.e2eMode w m
  | .accept nick => app.e2eAccept w cr nick
  | .revoke nick => app.e2eRevoke w nick
  | .rotate => app.e2eRotate w
  | .handshake nick => app.e2eHandshake w cr nick

/-- `cmd_e2e` on a parsed subcommand: what it has queued for the sender is shipped at once. -/
def cmdE2e (app : App) (sub : E2eSub) : App :=
  let app := app.runE2eSub w cr sub
  if app.state.pendingE2eSends.isEmpty then app else app.drainPendingE2eSends w

end App

/-! ### Incoming messages -/

/-- The id of the buffer that an incoming PRIVMSG belongs to: its target, or for a private
message of another user the sender. -/
def privmsgBuffer (connId ourNick nick target : Str) : Str :=
  makeBufferId w connId (if isChannel target || nick = ourNick then target else nick)

/-- The context that an incoming PRIVMSG is decrypted in. -/
def decryptContext (ident host target : Str) : Str := contextKey target (userhost ident host)

end Repartee
