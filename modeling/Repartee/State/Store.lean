import Repartee.App.State
import Repartee.Irc.Flood
import Repartee.Irc.Ignore
import Repartee.Irc.Netsplit
import Mathlib.Data.List.Sort

/-!
# The buffer store

`state/buffer.rs`, `state/events.rs` and `state/sorting.rs`: the buffers with their messages and
users, the active buffer, and the operations of `AppState` on them. A modified copy of a buffer
keeps its place in the map; one that is inserted again moves to the end, which only the order of
equally sorted buffers can tell.

## Main definitions

- `Store.Buffer`, `Store.State`: the state
- `Store.Host`: what the store takes from its surroundings
- `State.addMessage`, `State.addNick`, `State.addBuffer`, `State.removeBuffer`,
  `State.setActiveBuffer`, `State.nextBuffer`: the operations
-/

set_option autoImplicit false

namespace Repartee

namespace Store

/-- A line that a numeric shows, in the active buffer if there is one, or in the server's. -/
structure ReplyLine where
  inActive : Bool
  text : Str
  key : Option Str
  params : Option (List Str)
  deriving DecidableEq

/-- What the store takes from its surroundings: lowercasing and hashing of `std`, the wildcard
masks as the regex crate matches them, the line of the mentions buffer, and the lines of the
numerics that only show something. -/
structure Host where
  toLowercase : Str → Str
  hashText : Str → Nat
  isMatch : (mask text : Str) → Bool
  mentionLine : (label target nick body : Str) → Str
  replyLines : (code : Nat) → (args : List Str) → List ReplyLine

/-! ### Buffers -/

structure Message where
  id : Nat
  messageType : MessageType
  nick : Option Str
  nickMode : Option Str
  text : Str
  highlight : Bool
  eventKey : Option Str
  eventParams : Option (List Str)
  deriving DecidableEq

structure NickEntry where
  nick : Str
  nickPrefix : Str
  modes : Str
  away : Bool
  account : Option Str
  ident : Option Str
  host : Option Str
  deriving DecidableEq

structure Buffer where
  id : Str
  connectionId : Str
  bufferType : BufferType
  name : Str
  messages : List Message
  topic : Option Str
  users : Dict Str NickEntry
  /-- Recent speakers, most recent first. -/
  lastSpeakers : List Str
  peerHandle : Option Str
  deriving DecidableEq

variable (h : Host)

/-- `make_buffer_id` -/
def makeBufferId (connectionId name : Str) : Str := connectionId ++ '/' :: h.toLowercase name

/-- A buffer that has just been opened. -/
def freshBuffer (connectionId : Str) (bufferType : BufferType) (name : Str) : Buffer where
  id := makeBufferId h connectionId name
  connectionId := connectionId
  bufferType := bufferType
  name := name
  messages := []
  topic := none
  users := Table.empty
  lastSpeakers := []
  peerHandle := none

def lastSpeakersCap : Nat := 50

/-- The newest messages within a limit; 0 means unlimited. -/
def enforceScrollback (limit : Nat) (messages : List Message) : List Message :=
  if limit = 0 then messages else messages.drop (messages.length - limit)

namespace Buffer

variable (b : Buffer)

/-- `touch_speaker` -/
def touchSpeaker (nick : Str) : Buffer :=
  let others := b.lastSpeakers.filter (fun n => h.toLowercase n ≠ h.toLowercase nick)
  { b with lastSpeakers := (nick :: others).take lastSpeakersCap }

/-- `track_speaker` -/
def trackSpeaker (m : Message) : Buffer :=
  match m.nick with
  | none => b
  | some nick =>
    match m.messageType with
    | .message | .action | .notice => b.touchSpeaker h nick
    | .event | .mentionLog => b

/-- Store a message, within the scrollback limit. -/
def receive (limit : Nat) (m : Message) : Buffer :=
  { b.trackSpeaker h m with
    messages := enforceScrollback limit (b.messages ++ [m]) }

/-- `add_nick` -/
def addNick (entry : NickEntry) : Buffer :=
  { b with users := b.users.insert (h.toLowercase entry.nick) entry }

/-- `remove_nick` -/
def removeNick (nick : Str) : Buffer := { b with users := b.users.erase (h.toLowercase nick) }

/-- `update_nick` -/
def updateNick (oldNick newNick : Str) : Buffer :=
  match b.users.lookup (h.toLowercase oldNick) with
  | none => b
  | some entry =>
    let users := b.users.erase (h.toLowercase oldNick)
    { b with users := users.insert (h.toLowercase newNick) { entry with nick := newNick } }

/-- Write the entry of a nick, given in lowercase. -/
def updateEntry (key : Str) (f : NickEntry → NickEntry) : Buffer :=
  { b with users := b.users.modify key f }

/-- Whether a nick, given in lowercase, is in the buffer. -/
def hasNick (key : Str) : Bool := (b.users.lookup key).isSome

end Buffer

/-! ### The state -/

/-- What a server has announced. -/
abbrev Isupport := Dict Str Str

namespace Isupport

/-- `parse_tokens` -/
def parseToken (tokens : Isupport) (token : Str) : Isupport :=
  match Text.stripPrefix ['-'] token with
  | some negated => tokens.erase negated
  | none =>
    match Text.splitOnce '=' token with
    | some (key, value) => tokens.insert key value
    | none => tokens.insert token []

def network (tokens : Isupport) : Option Str := tokens.lookup (str "NETWORK")

/-- The modes and their prefixes, `(modes)prefixes`. -/
def prefixMap (tokens : Isupport) : List (Char × Char) :=
  let parsed : Option (List (Char × Char)) := do
    let value ← tokens.lookup (str "PREFIX")
    let rest ← Text.stripPrefix ['('] value
    let (modes, prefixes) ← Text.splitOnce ')' rest
    return modes.zip prefixes
  parsed.getD [('o', '@'), ('v', '+')]

end Isupport

structure Connection where
  label : Str
  nick : Str
  isupport : Isupport
  enabledCaps : List Str
  silentWhoChannels : List Str
  silentBanlistChannels : List Str
  deriving DecidableEq

structure State where
  connections : Dict Str Connection
  buffers : Dict Str Buffer
  activeBufferId : Option Str
  previousBufferId : Option Str
  messageCounter : Nat
  floodState : FloodState
  netsplitState : NetsplitState
  floodProtection : Bool
  floodExemptions : List Str
  ignores : List IgnoreEntry
  /-- Maximum messages per buffer; 0 means unlimited. -/
  scrollbackLimit : Nat
  /-- A script hides the event lines of the message that is being handled. -/
  suppressEventDisplay : Bool

/-- The buffer of the mentions, which is capped on its own. -/
def mentionsId : Str := str "_mentions"

def mentionsCap : Nat := 1000

namespace State

variable (s : State)

/-- No connections and no buffers. -/
def init (floodProtection : Bool) (floodExemptions : List Str) (ignores : List IgnoreEntry)
    (scrollbackLimit : Nat) : State where
  connections := Table.empty
  buffers := Table.empty
  activeBufferId := none
  previousBufferId := none
  messageCounter := 0
  floodState := FloodState.new
  netsplitState := NetsplitState.new
  floodProtection := floodProtection
  floodExemptions := floodExemptions
  ignores := ignores
  scrollbackLimit := scrollbackLimit
  suppressEventDisplay := false

def buffer? (id : Str) : Option Buffer := s.buffers.lookup id

def hasBuffer (id : Str) : Bool := (s.buffer? id).isSome

/-- Write a buffer that exists. -/
def modifyBuffer (id : Str) (f : Buffer → Buffer) : State :=
  { s with buffers := s.buffers.modify id f }

/-- Write the buffers of a connection. -/
def modifyBuffersOf (connId : Str) (f : Buffer → Buffer) : State :=
  { s with buffers := s.buffers.mapValues (fun b => if b.connectionId = connId then f b else b) }

def modifyConnection (connId : Str) (f : Connection → Connection) : State :=
  { s with connections := s.connections.modify connId f }

def connection? (connId : Str) : Option Connection := s.connections.lookup connId

/-- The nick of a connection, empty if there is none. -/
def ourNick (connId : Str) : Str := ((s.connection? connId).map Connection.nick).getD []

/-- The buffers that satisfy a predicate, in the order of the map. -/
def bufferIdsWhere (p : Buffer → Bool) : List Str :=
  (s.buffers.rows.filter (fun e => p e.2)).map Prod.fst

/-! #### Messages -/

/-- `add_message_unshrunk`, and `add_message_with_activity_unshrunk` without the activity. -/
def addMessageUnshrunk (bufferId : Str) (m : Message) : State :=
  s.modifyBuffer bufferId (fun b => b.receive h s.scrollbackLimit m)

/-- `add_message` of a message that the link shortener does not take. -/
def addMessage (bufferId : Str) (m : Message) : State :=
  if s.suppressEventDisplay && decide (m.messageType = .event) then s
  else s.addMessageUnshrunk h bufferId m

/-- Store the message that is made of the next id. -/
def post (bufferId : Str) (m : Nat → Message) : State :=
  { s with messageCounter := s.messageCounter + 1 }.addMessage h bufferId (m (s.messageCounter + 1))

/-- An event line. -/
structure Event where
  text : Str
  highlight : Bool
  key : Option Str
  params : Option (List Str)
  deriving DecidableEq

/-- Show an event line. -/
def event (bufferId : Str) (e : Event) : State :=
  s.post h bufferId (fun id => ⟨id, .event, none, none, e.text, e.highlight, e.key, e.params⟩)

/-- Store a line of the mentions buffer. -/
def addMentionToBuffer (m : Message) : State :=
  s.modifyBuffer mentionsId (fun b =>
    { b with messages := enforceScrollback mentionsCap (b.messages ++ [m]) })

/-! #### Topics and nicks -/

def setTopic (bufferId topic : Str) : State :=
  s.modifyBuffer bufferId (fun b => { b with topic := some topic })

def addNick (bufferId : Str) (entry : NickEntry) : State :=
  s.modifyBuffer bufferId (fun b => b.addNick h entry)

def removeNick (bufferId nick : Str) : State := s.modifyBuffer bufferId (fun b => b.removeNick h nick)

def updateNick (bufferId oldNick newNick : Str) : State :=
  s.modifyBuffer bufferId (fun b => b.updateNick h oldNick newNick)

/-- `nick_prefix` -/
def nickPrefix (bufferId nick : Str) : Option Str := do
  let b ← s.buffer? bufferId
  let entry ← b.users.lookup (h.toLowercase nick)
  return [← entry.nickPrefix.head?]

/-! #### Buffers -/

def addBuffer (b : Buffer) : State := { s with buffers := s.buffers.insert b.id b }

/-- The label that a connection is sorted by. -/
def labelOf (connId : Str) : Str := ((s.connection? connId).map Connection.label).getD connId

def sortGroup : BufferType → Nat
  | .mentions => 0
  | .server => 1
  | .channel | .log => 2
  | .query => 3
  | .dccChat => 4
  | .special => 5
  | .shell => 6

/-- The order of `sort_buffers`: the mentions first, then label, kind and name. -/
def sortsBefore (a b : Buffer) : Bool :=
  let (la, lb) := (h.toLowercase (s.labelOf a.connectionId), h.toLowercase (s.labelOf b.connectionId))
  let (na, nb) := (h.toLowercase a.name, h.toLowercase b.name)
  if decide (a.bufferType = .mentions) ≠ decide (b.bufferType = .mentions) then
    decide (a.bufferType = .mentions)
  else if la ≠ lb then Text.le la lb
  else if sortGroup a.bufferType ≠ sortGroup b.bufferType then
    decide (sortGroup a.bufferType < sortGroup b.bufferType)
  else Text.le na nb

def sortedBufferIds : List Str :=
  (s.buffers.values.insertionSort (fun a b => s.sortsBefore h a b = true)).map Buffer.id

/-- Where the view goes when the active buffer is closed. -/
def fallBack : State :=
  match s.previousBufferId with
  | some previous =>
    if s.hasBuffer previous then
      { s with activeBufferId := some previous, previousBufferId := none }
    else { s with activeBufferId := (s.sortedBufferIds h).head?, previousBufferId := none }
  | none => { s with activeBufferId := (s.sortedBufferIds h).head?, previousBufferId := none }

def removeBuffer (id : Str) : State :=
  if !s.hasBuffer id then s
  else
    let removed :=
      { s with buffers := s.buffers.erase id, floodState := s.floodState.removeBuffer id }
    if s.activeBufferId = some id then removed.fallBack h else removed

def setActiveBuffer (id : Str) : State :=
  if !s.hasBuffer id then s
  else
    { s with
      previousBufferId := if s.activeBufferId = some id then s.previousBufferId
        else s.activeBufferId
      activeBufferId := some id }

/-- The place of the active buffer in the sorted list. -/
def activeIndex (sorted : List Str) : Option Nat :=
  s.activeBufferId.bind (fun id => sorted.findIdx? (· = id))

def nextBuffer : State :=
  let sorted := s.sortedBufferIds h
  let index := ((s.activeIndex sorted).map (fun i => (i + 1) % sorted.length)).getD 0
  ((sorted[index]?).map s.setActiveBuffer).getD s

def prevBuffer : State :=
  let sorted := s.sortedBufferIds h
  let index := ((s.activeIndex sorted).map
    (fun i => if i = 0 then sorted.length - 1 else i - 1)).getD 0
  ((sorted[index]?).map s.setActiveBuffer).getD s

/-- The server's buffer. -/
def serverBuffer (connId : Str) : Str :=
  makeBufferId h connId (((s.connection? connId).map Connection.label).getD (str "Status"))

/-- The active buffer, or else the server's. -/
def activeOrServerBuffer (connId : Str) : Str := s.activeBufferId.getD (s.serverBuffer h connId)

end State

end Store

end Repartee
