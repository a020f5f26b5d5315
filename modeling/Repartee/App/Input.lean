import Repartee.App.State

/-!
# Typed messages

The parts of `app/input.rs` and `app/shrink.rs` that send what the user types into a
conversation: encryption or passthrough, the inline path, and the path that was deferred by the
link shortener.

## Main definitions

- `e2eEncryptOrPassthrough`: what goes out for a text
- `handlePlainMessage`: the inline path
- `sendOutgoingSubstituted`: the deferred path
-/

set_option autoImplicit false

namespace Repartee

open E2eManager

/-! ### Encryption or passthrough -/

/-- The member of a buffer with a given `ident@host`. -/
def Buffer.nickOfHandle (b : Buffer) (handle : Str) : Option Str :=
  ((b.users.rows.map Prod.snd).find? (fun u => u.handle = handle)).map NickEntry.nick

namespace AppState

variable (st : AppState)

/-- The connection of a buffer, which a closed buffer's id still names. -/
def connOfBuffer (bufferId : Str) : Option Str :=
  match st.buffers.get? bufferId with
  | some b => some b.connectionId
  | none => (Text.splitOnce '/' bufferId).map Prod.fst

/-- The NOTICE of a queued REKEY, if its target is a member of the buffer. -/
def resolveRekey (cr : Crates) (connId bufferId : Str) (rk : PendingRekeySend) :
    Option PendingE2eSend :=
  ((st.buffers.get? bufferId).bind (fun b => b.nickOfHandle rk.targetHandle)).map
    (fun nick => ⟨connId, nick, rk.noticeText cr⟩)

/-- Queue the NOTICEs of REKEYs that an encryption has drained; one whose target is not a member
of the buffer is dropped. -/
def distributeRekeySends (cr : Crates) (bufferId : Str) (rekeySends : List PendingRekeySend) :
    AppState :=
  match st.connOfBuffer bufferId with
  | some connId =>
    { st with pendingE2eSends :=
      st.pendingE2eSends ++ rekeySends.filterMap (st.resolveRekey cr connId bufferId) }
  | none => st

end AppState

/-- The lines and the local echo of an unencrypted message. -/
def plainPassthrough (text : Str) : Option (List Str × Str) :=
  some (splitIrcMessage text messageMaxBytes, text)

/-- Whether a text is never encrypted. -/
def bypassesE2e : Str → Bool
  | c :: _ => c = '.' || c = '!'
  | [] => false

/-- Whether encryption is enabled for a context; a failing query counts as disabled. -/
def e2eEnabled (e : Env) (k : Keyring) (context : Str) : Bool :=
  match k.getChannelConfig e context with
  | .ok cfg => cfg.any ChannelConfig.enabled
  | .error _ => false

variable (cr : Crates) (e : Env)

/-- Drain the REKEYs that an encryption has queued. -/
def AppState.afterEncryption (st : AppState) (bufferId : Str) (mgr : E2eManager) : AppState :=
  { st.distributeRekeySends cr bufferId mgr.pendingRekeySends with
    e2eManager := some { mgr with pendingRekeySends := [] } }

/-- Encrypt for a context if it is enabled. A text whose encryption fails is sent in the
clear. -/
def encryptInContext (st : AppState) (mgr : E2eManager) (bufferId context text : Str) :
    Option (List Str × Str) × AppState :=
  if e2eEnabled e mgr.keyring context then
    match (encryptOutgoing cr e context text).run mgr with
    | .ok wires mgr' => (some (wires, text), st.afterEncryption cr bufferId mgr')
    | .error _ mgr' => (plainPassthrough text, st.afterEncryption cr bufferId mgr')
  else (plainPassthrough text, st)

/-- The handle of a query's peer: the one that was captured, else the buffer's. -/
def AppState.peerHandleOf (st : AppState) (bufferId : Str) (captured : Option Str) : Option Str :=
  match captured with
  | some handle => some handle
  | none => (st.buffers.get? bufferId).bind Buffer.peerHandle

/-- The lines of a message and its local echo, or `none` for a refusal. -/
def e2eEncryptOrPassthrough (st : AppState) (bufferId bufferName : Str) (bufferType : BufferType)
    (text : Str) (capturedPeerHandle : Option Str) : Option (List Str × Str) × AppState :=
  if bypassesE2e text then (plainPassthrough text, st)
  else
    match st.e2eManager with
    | none => (plainPassthrough text, st)
    | some mgr =>
      match bufferType with
      | .channel => encryptInContext cr e st mgr bufferId bufferName text
      | .query =>
        match st.peerHandleOf bufferId capturedPeerHandle with
        | some peerHandle =>
          encryptInContext cr e st mgr bufferId (contextKey bufferName peerHandle) text
        | none =>
          -- a row under the bare nick is one of an earlier version
          if e2eEnabled e mgr.keyring bufferName then (none, st)
          else (plainPassthrough text, st)
      | _ => (plainPassthrough text, st)

/-! ### The inline path -/

/-- The chunks of a local echo. -/
def localChunks (plainEcho : Str) : List Str :=
  if Utf8.byteLen plainEcho ≤ messageMaxBytes then [plainEcho]
  else splitIrcMessage plainEcho messageMaxBytes

/-- Show what the user has sent. -/
def AppState.echo (st : AppState) (bufferId nick : Str) (messageType : MessageType)
    (chunks : List Str) : AppState :=
  chunks.foldl (fun st chunk => st.addMessage bufferId ⟨messageType, some nick, chunk⟩) st

/-- Whether lines are ciphertext, as the local echo tells. -/
def isE2eEncrypted (wires : List Str) : Bool :=
  match wires with
  | wire :: _ => Text.startsWith wire wirePrefix
  | [] => false

namespace App

variable (w : World)

/-- Send a message over a connected DCC session and show it. -/
def sayDcc (app : App) (dccNick bufferId : Str) (messageType : MessageType) (wire text : Str) :
    App :=
  match app.findConnected w dccNick with
  | none => app
  | some record =>
    match app.sendChatLine w record.id wire with
    | (true, app) =>
      let ourNick := (app.state.connections.rows.head?.map Connection.nick).getD []
      { app with state := app.state.addMessage bufferId ⟨messageType, some ourNick, text⟩ }
    | (false, app) => app

/-- Whether a message qualifies for the link shortener. -/
def qualifiesForShrink (app : App) (text : Str) : Bool :=
  app.shrink.enabled && app.shrink.outgoingEnabled && app.shrink.client &&
    decide (Utf8.byteLen text ≤ messageMaxBytes) &&
    !(w.findLongUrls text app.state.shrinkMinUrlLength).isEmpty

/-- What `handle_plain_message` captures of a message for the link shortener. -/
def pendingOutgoing (app : App) (buf : Buffer) (text : Str) : PendingOutgoing where
  connId := buf.connectionId
  bufferId := buf.id
  bufferName := buf.name
  bufferType := buf.bufferType
  originalText := text
  urls := w.findLongUrls text app.state.shrinkMinUrlLength
  nick := app.state.nickOf buf.connectionId
  peerHandle := if buf.bufferType = .query then buf.peerHandle else none

/-- Hand the lines of a message over, then the REKEY NOTICEs, then show the message; a line that
is refused ends it. -/
def sendAndEcho (app : App) (connId bufferId bufferName nick : Str) (wires : List Str)
    (plainEcho : Str) : App :=
  let echoMessageEnabled := app.state.hasCap connId (str "echo-message")
  match sendWires w connId bufferName wires app with
  | (false, app) => app
  | (true, app) =>
    let app := app.drainPendingE2eSends w
    if !echoMessageEnabled || isE2eEncrypted wires then
      { app with state := app.state.echo bufferId nick .message (localChunks plainEcho) }
    else app

/-- Send what the encryption or passthrough of a message has returned; a refusal ends it. -/
def deliver (app : App) (connId bufferId bufferName nick : Str) :
    Option (List Str × Str) × AppState → App
  | (none, st) => { app.tick with state := st }
  | (some (wires, plainEcho), st) =>
    sendAndEcho w { app.tick with state := st } connId bufferId bufferName nick wires plainEcho

/-- Encrypt and send a message inline. -/
def sendInline (app : App) (buf : Buffer) (text : Str) : App :=
  deliver w app buf.connectionId buf.id buf.name (app.state.nickOf buf.connectionId)
    (e2eEncryptOrPassthrough cr (w.env app.clock) app.state buf.id buf.name buf.bufferType text
      none)

/-- A message typed into the active buffer. -/
def handlePlainMessage (app : App) (text : Str) : App :=
  match app.state.activeBuffer with
  | none => app
  | some buf =>
    match buf.bufferType with
    | .dccChat =>
      sayDcc w app ((Text.stripPrefix ['='] buf.name).getD buf.name) buf.id .message text text
    | .channel | .query =>
      if app.qualifiesForShrink w text then
        if w.enqueues app.clock then
          { app.tick with shrinkOutgoing := app.shrinkOutgoing ++ [app.pendingOutgoing w buf text] }
        else sendInline cr w app.tick buf text
      else sendInline cr w app buf text
    | _ => app

/-! ### The deferred path -/

/-- Send a message whose links have been shortened, with what was captured of it. -/
def sendOutgoingSubstituted (app : App) (out : PendingOutgoing) (substitutedText : Str) : App :=
  if !app.ircHandles.contains out.connId then app
  else
    deliver w app out.connId out.bufferId out.bufferName out.nick
      (e2eEncryptOrPassthrough cr (w.env app.clock) app.state out.bufferId out.bufferName
        out.bufferType substitutedText out.peerHandle)

end App

end Repartee
