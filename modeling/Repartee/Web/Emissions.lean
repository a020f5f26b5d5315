import Repartee.State.Consistency
import Repartee.State.Nicklist
import Repartee.Web.Replica

/-!
# The web events of a session

The events that `state/events.rs` and `irc/events.rs` queue for the web clients, as far as they
write buffers or nick lists, and the snapshot of `web/snapshot.rs`. A batch of `irc/batch.rs`
queues none of them. The events that tell of messages, activity and mentions are left out: they
write neither buffers nor nick lists.

## Main definitions

- `State.snapshot`: what a client gets that connects
- `State.webEvents`, `Store.emitted`: the events of a message, and of a session
- `State.faces`: what the buffers show
- `Store.Told`: a step changes nothing that its events do not tell
-/

set_option autoImplicit false

namespace Repartee

namespace Store

open Web (BufferMeta BufferEvent NickEvent NickEventKind WireNick Face Faces paint)

/-- `buffer_type_str` -/
def bufferTypeStr : BufferType → Str
  | .mentions => str "mentions"
  | .server => str "server"
  | .channel => str "channel"
  | .query => str "query"
  | .dccChat => str "dcc_chat"
  | .special => str "special"
  | .shell => str "shell"
  | .log => str "log"

def Buffer.toMeta (b : Buffer) : BufferMeta where
  id := b.id
  connectionId := b.connectionId
  name := b.name
  bufferType := bufferTypeStr b.bufferType
  topic := b.topic
  nickCount := b.users.rows.length

def NickEntry.toWire (entry : NickEntry) : WireNick :=
  ⟨entry.nick, entry.nickPrefix, entry.modes, entry.away⟩

/-- `build_nick_list` -/
def Buffer.nickList (b : Buffer) : List WireNick := b.users.values.map NickEntry.toWire

def Buffer.face (b : Buffer) : Face where
  topic := b.topic
  nickCount := b.users.rows.length
  nicks := fun key => (b.users.lookup key).map NickEntry.toWire

/-- An event about a nick, apart from what is to be written. -/
def aboutNick (kind : NickEventKind) (nick bufferId : Str) : NickEvent :=
  ⟨bufferId, kind, nick, none, none, none, none⟩

variable (h : Host)

namespace State

variable (s : State)

def faces : Faces := fun id => (s.buffer? id).map Buffer.face

/-! ### The snapshot -/

/-- `build_sync_init`, as far as it lists the buffers. -/
def buildSyncInit : List BufferMeta :=
  (s.buffers.values.insertionSort (fun a b => s.sortsBefore h a b = true)).map Buffer.toMeta

/-- A client connects and fetches the nick list of each buffer. -/
def snapshot : List BufferEvent :=
  .syncInit (s.buildSyncInit h) :: s.buffers.rows.map (fun e => .nickList e.1 e.2.nickList)

/-! ### The events of a message -/

/-- The event of `remove_buffer`. -/
def closedEvents (id : Str) : List BufferEvent :=
  if s.hasBuffer id then [.bufferClosed id] else []

/-- `handle_privmsg` may open a query. -/
def privmsgEvents (connId ourNick : Str) (msg : IrcMessage) (target text : Str) (a : Arrival) :
    List BufferEvent :=
  let (nick, ident, host) := extractNickUserhost msg.sender
  let bufferId := chatBuffer h connId ourNick nick target
  if a.decrypted = some [] then []
  else if s.ignored h nick ident host (chatLevel target (a.decrypted.getD text))
      (if isChannel target then some target else none) then []
  else if !isChannel target && !s.hasBuffer bufferId then
    [.bufferCreated { freshBuffer h connId .query nick with id := bufferId }.toMeta]
  else []

/-- `handle_join` of an ignored nick queues nothing. -/
def joinEvents (connId ourNick : Str) (msg : IrcMessage) (channel : Str) : List BufferEvent :=
  let (nick, ident, host) := extractNickUserhost msg.sender
  let bufferId := makeBufferId h connId channel
  if nick ≠ ourNick ∧ s.ignored h nick ident host .joins (some channel) = true then []
  else if nick = ourNick then
    if s.hasBuffer bufferId then []
    else [.bufferCreated (freshBuffer h connId .channel channel).toMeta]
  else
    [.nickEvent { aboutNick .join nick bufferId with
      nickPrefix := some [], modes := some [], away := some false }]

def partEvents (connId ourNick : Str) (msg : IrcMessage) (channel : Str) : List BufferEvent :=
  if senderNick msg = ourNick then s.closedEvents (makeBufferId h connId channel)
  else [.nickEvent (aboutNick .part (senderNick msg) (makeBufferId h connId channel))]

def quitEvents (connId : Str) (msg : IrcMessage) : List BufferEvent :=
  (s.buffersWith h connId (senderNick msg)).map
    (fun id => .nickEvent (aboutNick .quit (senderNick msg) id))

/-- Whether a nick change is ignored. -/
def ignoresNick (ourNick : Str) (msg : IrcMessage) : Bool :=
  let (_, ident, host) := extractNickUserhost msg.sender
  decide (senderNick msg ≠ ourNick) && s.ignored h (senderNick msg) ident host .nicks none

/-- `handle_nick_change` tells of a nick, and not of the queries that are renamed. -/
def nickChangeEvents (connId ourNick : Str) (msg : IrcMessage) (newNick : Str) :
    List BufferEvent :=
  if s.ignoresNick h ourNick msg then []
  else
    (s.buffersOfNick h connId (senderNick msg)).map (fun id =>
      .nickEvent { aboutNick .nickChange (senderNick msg) id with newNick := some newNick })

/-- `handle_kick` tells only of the channel that is closed when we are kicked. -/
def kickEvents (connId ourNick channel kickedUser : Str) : List BufferEvent :=
  if kickedUser = ourNick then s.closedEvents (makeBufferId h connId channel) else []

def topicEvents (connId channel : Str) : Option Str → List BufferEvent
  | none => []
  | some topic => [.topicChanged (makeBufferId h connId channel) (some topic)]

/-- `apply_channel_mode` tells what a nick has got. -/
def modeEvents (bufferId : Str) (mode : ModeChange) : List BufferEvent :=
  match mode.adding, mode.param with
  | some adding, some target =>
    if isNickMode mode.letter then
      match (s.buffer? bufferId).bind (fun b => b.users.lookup (h.toLowercase target)) with
      | none => []
      | some entry =>
        [.nickEvent { aboutNick .modeChange target bufferId with
          nickPrefix := some (NickEntry.setMode adding mode.letter entry).nickPrefix
          modes := some (NickEntry.setMode adding mode.letter entry).modes }]
    else []
  | _, _ => []

def channelModeEvents (bufferId : Str) : State → List ModeChange → List BufferEvent
  | _, [] => []
  | s, m :: ms =>
    s.modeEvents h bufferId m ++ channelModeEvents bufferId (s.applyChannelMode h bufferId m) ms

def awayEvents (connId : Str) (msg : IrcMessage) (reason : Option Str) : List BufferEvent :=
  match extractNick msg.sender with
  | none => []
  | some nick =>
    (s.buffersWith h connId nick).map (fun id =>
      .nickEvent { aboutNick .awayChange nick id with away := some reason.isSome })

def joinFailureEvents (connId : Str) (args : List Str) : List BufferEvent :=
  let bufferId := makeBufferId h connId (failedChannel args)
  if (s.buffer? bufferId).any (fun b => b.users.rows.isEmpty) then [.bufferClosed bufferId] else []

/-- The events of `handle_irc_message`. -/
def webEvents (connId : Str) (msg : IrcMessage) (a : Arrival) : List BufferEvent :=
  let ourNick := s.ourNick connId
  match msg.command with
  | .privmsg target text => s.privmsgEvents h connId ourNick msg target text a
  | .join channel _ _ => s.joinEvents h connId ourNick msg channel
  | .part channel _ => s.partEvents h connId ourNick msg channel
  | .quit _ => s.quitEvents h connId msg
  | .nick newNick => s.nickChangeEvents h connId ourNick msg newNick
  | .kick channel kickedUser _ => s.kickEvents h connId ourNick channel kickedUser
  | .topic channel topic => topicEvents h connId channel topic
  | .channelMode target modes => channelModeEvents h (makeBufferId h connId target) s modes
  | .away reason => s.awayEvents h connId msg reason
  | .numeric code args => if code ∈ joinFailures then s.joinFailureEvents h connId args else []
  | _ => []

end State

/-! ### The events of a session -/

/-- The events of a step. -/
def opEvents (s : State) : Op → List BufferEvent
  | .irc connId msg hidden a => { s with suppressEventDisplay := hidden }.webEvents h connId msg a
  | .addBuffer connId bufferType name =>
    [.bufferCreated (freshBuffer h connId bufferType name).toMeta]
  | .createMentionsBuffer _ =>
    if s.hasBuffer mentionsId then []
    else [.bufferCreated { freshBuffer h [] .mentions (str "Mentions") with id := mentionsId }.toMeta]
  | .removeBuffer id => s.closedEvents id
  | _ => []

/-- The events of a session. -/
def emitted (s : State) : List Op → List BufferEvent
  | [] => []
  | op :: ops =>
    opEvents h s op ++ ((step h s op).map (fun s' => emitted s' ops)).getD []

/-! ### Steps that tell everything -/

section Told

variable (v : Faces)

/-- Nobody of this name is in a buffer. -/
def Absent (bufferId nick : Str) : Prop :=
  ∀ f, v bufferId = some f → f.nicks (h.toLowercase nick) = none

/-- A nick is spelt as it is listed. -/
def Spelt (bufferId nick : Str) : Prop :=
  ∀ f n, v bufferId = some f → f.nicks (h.toLowercase nick) = some n → n.nick = nick

/-- An entry is shown already. -/
def Known (bufferId : Str) (n : WireNick) : Prop :=
  ∀ f, v bufferId = some f → f.nicks (h.toLowercase n.nick) = some n

end Told

variable (s : State)

/-- A nick change is told: the nick is spelt as it is listed, and the new one is not taken; if it
is ignored, it changes nothing. The queries of the nick keep their ids. -/
structure ToldNick (connId ourNick : Str) (msg : IrcMessage) (newNick : Str) : Prop where
  queries : ∀ id ∈ s.buffersOfNick h connId (senderNick msg), ∀ b, s.buffer? id = some b →
    b.bufferType = .query → makeBufferId h connId newNick = id
  ignored : s.ignoresNick h ourNick msg = true →
    ∀ id ∈ s.buffersOfNick h connId (senderNick msg), ∀ f n, s.faces id = some f →
      f.nicks (h.toLowercase (senderNick msg)) = some n → n.nick = newNick
  spelt : s.ignoresNick h ourNick msg = false →
    ∀ id ∈ s.buffersOfNick h connId (senderNick msg), Spelt h s.faces id (senderNick msg)
  free : s.ignoresNick h ourNick msg = false →
    ∀ id ∈ s.buffersOfNick h connId (senderNick msg), ∀ f, s.faces id = some f →
      f.nicks (h.toLowercase (senderNick msg)) ≠ none →
      h.toLowercase newNick = h.toLowercase (senderNick msg) ∨
        f.nicks (h.toLowercase newNick) = none

/-- A join is told: somebody else joins a buffer that is there and is not in it yet, or is ignored
and shown there already; our own join resets no topic. -/
def ToldJoin (connId ourNick : Str) (msg : IrcMessage) (channel : Str) : Prop :=
  let (nick, ident, host) := extractNickUserhost msg.sender
  let bufferId := makeBufferId h connId channel
  if nick ≠ ourNick ∧ s.ignored h nick ident host .joins (some channel) = true then
    Known h s.faces bufferId (joinedEntry nick none).toWire
  else if nick = ourNick then
    ∀ f, s.faces bufferId = some f → f.nickCount = 0 → f.topic = none
  else s.faces bufferId ≠ none ∧ Absent h s.faces bufferId nick

/-- A part is told: the nick is listed with this spelling, or nobody is. -/
def ToldPart (connId ourNick : Str) (msg : IrcMessage) (channel : Str) : Prop :=
  let bufferId := makeBufferId h connId channel
  senderNick msg ≠ ourNick → Spelt h s.faces bufferId (senderNick msg) ∧
    ∀ f, s.faces bufferId = some f → f.nicks (h.toLowercase (senderNick msg)) = none →
      f.nickCount = 0

/-- A numeric is told: it renames no server's buffer, and brings only the topic, the names and the
away states that are shown already. -/
def ToldNumeric (connId : Str) : (code : Nat) → (args : List Str) → Prop
  | 5, args => 2 ≤ args.length → ∀ id newId network,
      s.networkRename h connId args.tail.dropLast = some (id, newId, network) →
      s.hasBuffer id = true → newId = id
  | 332, _ :: channel :: topic :: _ =>
      ∀ f, s.faces (makeBufferId h connId channel) = some f → f.topic = some topic
  | 353, _ :: _ :: channel :: names :: _ => ∀ raw ∈ Text.splitWhitespace names,
      Known h s.faces (makeBufferId h connId channel)
        (State.parseNamesEntry (namesFormat s connId).1 (namesFormat s connId).2 raw).toWire
  | 354, _ :: _ :: channel :: _ :: _ :: _ :: nick :: flags :: _ :: _ :: _ =>
      ∀ f n, s.faces (makeBufferId h connId channel) = some f →
        f.nicks (h.toLowercase nick) = some n → n.away = Text.startsWith flags ['G']
  | _, _ => True

/-- A message is told. -/
def ToldMessage (connId : Str) (msg : IrcMessage) : Prop :=
  let ourNick := s.ourNick connId
  match msg.command with
  | .join channel _ _ => ToldJoin h s connId ourNick msg channel
  | .part channel _ => ToldPart h s connId ourNick msg channel
  | .quit _ => ∀ id ∈ s.buffersWith h connId (senderNick msg),
      Spelt h s.faces id (senderNick msg)
  | .nick newNick => ToldNick h s connId ourNick msg newNick
  | .kick channel kickedUser _ =>
      kickedUser ≠ ourNick → Absent h s.faces (makeBufferId h connId channel) kickedUser
  | .channelMode target modes => ∀ m ∈ modes, ∀ nick, m.param = some nick →
      Spelt h s.faces (makeBufferId h connId target) nick
  | .away _ => ∀ nick, extractNick msg.sender = some nick →
      ∀ id ∈ s.buffersWith h connId nick, Spelt h s.faces id nick
  | .numeric code args => ToldNumeric h s connId code args
  | _ => True

/-- A step changes nothing that its events do not tell: a message is told, a batch brings nothing
new, a buffer that is added is new, and who loses the connection was in no channel. -/
def Told : Op → Prop
  | .irc connId msg _ _ => ToldMessage h s connId msg
  | .netsplitBatch connId batch => ∀ msg ∈ batch.messages, ∀ reason nick,
      msg.command = .quit reason → extractNick msg.sender = some nick →
      s.buffersWith h connId nick = []
  | .netjoinBatch connId batch => ∀ msg ∈ batch.messages, ∀ channel account realname,
      msg.command = .join channel account realname →
      Known h s.faces (makeBufferId h connId channel) (joinedEntry (senderNick msg) none).toWire
  | .addBuffer connId _ name => s.hasBuffer (makeBufferId h connId name) = false
  | .disconnected connId _ _ => ∀ id b, s.buffer? id = some b → b.connectionId = connId →
      b.bufferType = .channel → b.users.rows = []
  | _ => True

end Store

end Repartee
