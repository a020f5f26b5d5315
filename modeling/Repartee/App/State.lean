import Repartee.Irc.Dispatch
import Repartee.Irc.Formatting

/-!
# The application's state

The parts of `state/mod.rs`, `state/buffer.rs` and `app/mod.rs` that sending and receiving
messages reads and writes: connections, buffers with their members, the encryption core, and the
lines that have been handed to the network.

## Main definitions

- `Buffer`, `AppState`: the conversations and the shared state
- `World`: what a running client takes from its surroundings
- `App`: one client
- `App.hand`: hand a line to the IRC sender of a connection
-/

set_option autoImplicit false

namespace Repartee

inductive BufferType where
  | mentions
  | server
  | channel
  | query
  | dccChat
  | special
  | shell
  | log
  deriving DecidableEq

/-- How a message is shown. -/
inductive MessageType where
  | message
  | action
  | event
  | notice
  | mentionLog
  deriving DecidableEq

/-- `as_str` -/
def MessageType.asStr : MessageType → Str
  | .message => str "message"
  | .action => str "action"
  | .event => str "event"
  | .notice => str "notice"
  | .mentionLog => str "mention_log"

/-- A message of a buffer. -/
structure Message where
  messageType : MessageType
  nick : Option Str
  text : Str
  deriving DecidableEq

/-- A member of a channel. -/
structure NickEntry where
  nick : Str
  ident : Option Str
  host : Option Str
  deriving DecidableEq

/-- The `ident@host` of a member, whose missing parts are empty. -/
def NickEntry.handle (u : NickEntry) : Str := userhost (u.ident.getD []) (u.host.getD [])

/-- A conversation. `users` are the members in the iteration order of the map. -/
structure Buffer where
  id : Str
  connectionId : Str
  bufferType : BufferType
  name : Str
  messages : List Message
  users : Dict Str NickEntry
  /-- The server-stamped `ident@host` of a query's peer, once it has spoken. -/
  peerHandle : Option Str
  deriving DecidableEq

/-- A connection to a server. -/
structure Connection where
  id : Str
  label : Str
  nick : Str
  enabledCaps : List Str
  deriving DecidableEq

structure AppState where
  connections : Table Connection Connection.id
  buffers : Table Buffer Buffer.id
  activeBufferId : Option Str
  /-- Maximum messages per buffer; 0 means unlimited. -/
  scrollbackLimit : Nat
  shrinkMinUrlLength : Nat
  pendingE2eSends : List PendingE2eSend
  e2eManager : Option E2eManager
  deriving DecidableEq

namespace AppState

variable (st : AppState)

def activeBuffer : Option Buffer := st.activeBufferId.bind st.buffers.get?

/-- Write a buffer that exists. -/
def modifyBuffer (id : Str) (f : Buffer → Buffer) (hf : ∀ b, (f b).id = b.id) : AppState :=
  { st with buffers := st.buffers.updateWhere (fun b => b.id = id) f hf }

/-- The newest messages within the scrollback limit. -/
def enforceScrollback (limit : Nat) (messages : List Message) : List Message :=
  if limit = 0 then messages else messages.drop (messages.length - limit)

/-- Append a message to a buffer, if the buffer exists. -/
def addMessage (id : Str) (message : Message) : AppState :=
  st.modifyBuffer id
    (fun b => { b with messages :=
      enforceScrollback st.scrollbackLimit (b.messages ++ [message]) }) (fun _ => rfl)

/-- The nick of a connection, empty if there is none. -/
def nickOf (connId : Str) : Str := ((st.connections.get? connId).map Connection.nick).getD []

/-- Whether a capability has been negotiated. -/
def hasCap (connId cap : Str) : Bool :=
  (st.connections.get? connId).any (fun c => c.enabledCaps.contains cap)

@[simp] theorem addMessage_e2eManager (id : Str) (message : Message) :
    (st.addMessage id message).e2eManager = st.e2eManager := rfl

@[simp] theorem addMessage_pendingE2eSends (id : Str) (message : Message) :
    (st.addMessage id message).pendingE2eSends = st.pendingE2eSends := rfl

end AppState

/-! ### The client -/

/-- What a client takes from its surroundings: the text functions of `std` and of the URL
extractor, and at each tick of its clock the surroundings of a call of the core, whether a
sender takes a line, whether the queue of the link shortener takes a message, and whether a
script suppresses a command. -/
structure World where
  toLowercase : Str → Str
  findLongUrls : Str → (minLength : Nat) → List Str
  env : Nat → Env
  sends : Nat → Bool
  enqueues : Nat → Bool
  suppresses : Nat → Bool

/-- `make_buffer_id` -/
def makeBufferId (w : World) (connectionId name : Str) : Str :=
  connectionId ++ '/' :: w.toLowercase name

inductive IrcCommand where
  | privmsg
  | notice
  deriving DecidableEq

/-- A line that the sender of a connection has taken. -/
structure Handed where
  connectionId : Str
  command : IrcCommand
  target : Str
  text : Str
  deriving DecidableEq

/-- A DCC session. -/
structure DccRecord where
  id : Str
  nick : Str
  connId : Str
  connected : Bool
  deriving DecidableEq

/-- The settings of the link shortener; `client` says that it is configured. -/
structure ShrinkConfig where
  enabled : Bool
  outgoingEnabled : Bool
  client : Bool
  deriving DecidableEq

/-- A message that waits for its links to be shortened. -/
structure PendingOutgoing where
  connId : Str
  bufferId : Str
  bufferName : Str
  bufferType : BufferType
  originalText : Str
  urls : List Str
  nick : Str
  peerHandle : Option Str
  deriving DecidableEq

/-- One client. `handed` are the lines that IRC senders have taken and `dccLines` the ones of
DCC sessions, both in order; `clock` counts the interactions with the surroundings. -/
structure App where
  state : AppState
  aliases : Dict Str Str
  shrink : ShrinkConfig
  logBrowserMode : Bool
  /-- The connections that have an IRC handle. -/
  ircHandles : List Str
  dcc : List DccRecord
  shrinkOutgoing : List PendingOutgoing
  handed : List Handed
  dccLines : List (Str × Str)
  clock : Nat
  deriving DecidableEq

namespace App

variable (w : World) (app : App)

def tick : App := { app with clock := app.clock + 1 }

/-- Hand a line to the sender of a connection that has a handle. -/
def hand (line : Handed) : App := { app with handed := app.handed ++ [line], clock := app.clock + 1 }

def activeConnId : Option Str := app.state.activeBuffer.map Buffer.connectionId

/-- `send_privmsg` or `send_notice` of an IRC handle; returns whether the sender took it. -/
def send (line : Handed) : Bool × App :=
  if w.sends app.clock then (true, app.hand line) else (false, app.tick)

/-- Hand the lines of a message to a connection, if it has a handle, until one is refused;
returns whether none was. -/
def sendWires (connId target : Str) : List Str → App → Bool × App
  | [], app => (true, app)
  | wire :: rest, app =>
    if app.ircHandles.contains connId then
      match app.send w ⟨connId, .privmsg, target, wire⟩ with
      | (true, app) => sendWires connId target rest app
      | (false, app) => (false, app)
    else sendWires connId target rest app

/-- The connected DCC session with a nick. -/
def findConnected (nick : Str) : Option DccRecord :=
  app.dcc.find? (fun r => w.toLowercase r.nick = w.toLowercase nick && r.connected)

/-- `send_chat_line` -/
def sendChatLine (id text : Str) : Bool × App :=
  if w.sends app.clock then (true, { app.tick with dccLines := app.dccLines ++ [(id, text)] })
  else (false, app.tick)

/-- Ship the queued NOTICEs; one whose connection is gone, or that is refused, is dropped. -/
def shipAll : List PendingE2eSend → App → App
  | [], app => app
  | s :: rest, app =>
    if app.ircHandles.contains s.connectionId then
      shipAll rest (app.send w ⟨s.connectionId, .notice, s.target, s.noticeText⟩).2
    else shipAll rest app

def drainPendingE2eSends : App :=
  shipAll w app.state.pendingE2eSends
    { app with state := { app.state with pendingE2eSends := [] } }

end App

end Repartee
