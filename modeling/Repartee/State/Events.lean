import Repartee.Irc.Batch
import Repartee.Irc.Formatting
import Repartee.State.Store

/-!
# Incoming messages in the buffer store

`handle_irc_message` of `irc/events.rs` and its handlers, as far as they touch the buffers, their
messages and users, the active buffer, and the flood and netsplit detectors. What the encryption
core and the link shortener do with a message is given with its arrival.

## Main definitions

- `Store.Arrival`: the surroundings of one message
- `State.handlePrivmsg`, `State.handleJoin`, `State.handleNickChange`, …: the handlers
- `State.handleIrcMessage`: the dispatcher
-/

set_option autoImplicit false

namespace Repartee

namespace Store

/-- A line that the encryption core shows. -/
structure E2eLine where
  bufferId : Str
  key : Str
  highlight : Bool
  text : Str

/-- The surroundings of one message: the time, what `try_decrypt_e2e` makes of the text, the lines
that are shown if the message has been handled as a handshake or as the answer to a pending
question of the encryption core, and whether the link shortener takes the message in order to
deliver it later. -/
structure Arrival where
  now : Nat
  decrypted : Option Str
  dispatched : Option (List E2eLine)
  shrunk : Bool

/-- The value of a tag; tags without a value are omitted. -/
def tagValue (msg : IrcMessage) (name : Str) : Option Str :=
  (msg.tags.getD []).reverse.findSome? (fun t => if t.1 = name then t.2 else none)

/-- A name of an account, where `*` stands for none. -/
def loggedIn (account : Str) : Option Str := if account = ['*'] then none else some account

/-- `extract_nick` -/
def extractNick (sender : Option Prefix) : Option Str :=
  sender.map (fun p => match p with
    | .nickname nick _ _ => nick
    | .serverName name => name)

/-- `is_server_prefix` -/
def isServerPrefix : Option Prefix → Bool
  | some (.serverName _) | none => true
  | some (.nickname _ user _) => user.isEmpty

/-- The entry of a nick that has just joined. -/
def joinedEntry (nick : Str) (account : Option Str) : NickEntry :=
  ⟨nick, [], [], false, account, none, none⟩

/-- An event line without a theme key. -/
def plainEvent (text : Str) : State.Event := ⟨text, false, none, none⟩

/-- An event line with its theme key and parameters. -/
def keyedEvent (key : Str) (text : Str) (params : List Str) : State.Event :=
  ⟨text, false, some key, some params⟩

/-- Whether a text mentions a nick. -/
def mentions (h : Host) (text nick : Str) : Bool :=
  decide (h.toLowercase nick <:+: h.toLowercase (stripIrcFormatting text))

namespace State

variable (h : Host) (s : State)

/-- Show the lines of the encryption core. -/
def showE2eLines (lines : List E2eLine) : State :=
  lines.foldl
    (fun s line => s.event h line.bufferId ⟨line.text, line.highlight, some line.key, some [line.text]⟩)
    s

/-- Show the lines of a numeric. -/
def showReplies (connId : Str) (code : Nat) (args : List Str) : State :=
  (h.replyLines code args).foldl
    (fun s line => s.event h
      (if line.inActive then s.activeOrServerBuffer h connId else s.serverBuffer h connId)
      ⟨line.text, false, line.key, line.params⟩)
    s

def ignored (nick ident host : Str) (level : IgnoreLevel) (channel : Option Str) : Bool :=
  shouldIgnore h.toLowercase h.isMatch s.ignores nick ident host level channel

/-! ### PRIVMSG -/

/-- Store a chat message, unless the link shortener takes it. -/
def postChat (shrunk : Bool) (bufferId : Str) (m : Nat → Message) : State :=
  let next := { s with messageCounter := s.messageCounter + 1 }
  if shrunk then next else next.addMessageUnshrunk h bufferId (m (s.messageCounter + 1))

/-- What a check makes of a message: nothing, or its suppression with or without a notice. -/
def judge (result : FloodResult) (notice : Str) : Option (Option Str) :=
  match result with
  | .allow => none
  | .triggered => some (some notice)
  | .blocked => some none

def tildeNotice (nick : Str) : Str :=
  str "Flood from " ++ nick ++ str " detected " ++ [Char.ofNat 0x2014] ++ str " suppressing"

def stormNotice : Str :=
  str "PM flood storm detected " ++ [Char.ofNat 0x2014] ++ str " suppressing all ~ PMs"

def duplicateNotice : Str :=
  str "Duplicate text flood detected " ++ [Char.ofNat 0x2014] ++ str " suppressing"

def ctcpNotice : Str :=
  str "CTCP flood detected " ++ [Char.ofNat 0x2014] ++ str " suppressing"

/-- The flood checks of a message, one after the other. -/
def messageVerdict (f : FloodState) (nick ident target text : Str) (now : Nat) :
    Option (Option Str) × FloodState :=
  let tilde := Text.startsWith ident ['~']
  let (r₁, f) := if tilde then f.checkTildeNickFlood h.hashText nick now else (.allow, f)
  match judge r₁ (tildeNotice nick) with
  | some verdict => (some verdict, f)
  | none =>
    let (r₂, f) := if tilde && !isChannel target then f.checkPmTildeStorm h.hashText nick now
      else (.allow, f)
    match judge r₂ stormNotice with
    | some verdict => (some verdict, f)
    | none =>
      let (r₃, f) := f.checkDuplicateFlood h.hashText text (isChannel target) now
      (judge r₃ duplicateNotice, f)

/-- The flood check of a CTCP. -/
def ctcpVerdict (f : FloodState) (now : Nat) : Option (Option Str) × FloodState :=
  let (r, f) := f.checkCtcpFlood now
  (judge r ctcpNotice, f)

/-- Suppress a message: all that is shown is the notice. -/
def suppress (bufferId : Str) : Option Str → State
  | none => s
  | some notice => s.event h bufferId (plainEvent notice)

/-- Open the query of a private message. -/
def openQuery (connId bufferId target nick handle : Str) (isOwn : Bool) : State :=
  if !isChannel target && !s.hasBuffer bufferId then
    s.addBuffer { freshBuffer h connId .query nick with
      id := bufferId
      peerHandle := if isOwn then none else some handle }
  else s

/-- Keep the handle of a query's peer in sync. -/
def notePeerHandle (bufferId target handle : Str) (isOwn : Bool) : State :=
  if !isChannel target && !isOwn then
    s.modifyBuffer bufferId (fun b => { b with peerHandle := some handle })
  else s

/-- Note the account tag of a channel message. -/
def noteAccountTag (bufferId target nick : Str) : Option Str → State
  | none => s
  | some account =>
    if isChannel target then
      s.modifyBuffer bufferId (fun b => b.updateEntry (h.toLowercase nick)
        (fun entry => { entry with account := loggedIn account }))
    else s

/-- Copy a mention to the mentions buffer. -/
def copyMention (connId target nick body : Str) : State :=
  let label := ((s.connection? connId).map Connection.label).getD connId
  { s with messageCounter := s.messageCounter + 1 }.addMentionToBuffer
    ⟨s.messageCounter + 1, .mentionLog, none, none, h.mentionLine label target nick body, true, none,
      none⟩

/-- Show a chat message; `body` is how the mentions buffer shows its text. -/
def showChat (connId bufferId ourNick nick target text body : Str) (messageType : MessageType)
    (shrunk : Bool) : State :=
  let isMention := decide (nick ≠ ourNick) && mentions h text ourNick
  let shown := s.postChat h shrunk bufferId (fun id =>
    ⟨id, messageType, some nick, s.nickPrefix h bufferId nick, text, isMention, none, none⟩)
  if isMention && isChannel target && shown.hasBuffer mentionsId then
    shown.copyMention h connId target nick body
  else shown

/-- A framed message other than an action. -/
def handleCtcp (bufferId : Str) (floodExempt : Bool) (a : Arrival) : State :=
  let (verdict, f) := if s.floodProtection && !floodExempt then ctcpVerdict s.floodState a.now
    else (none, s.floodState)
  let s := { s with floodState := f }
  match verdict with
  | some notice => s.suppress h bufferId notice
  | none =>
    match a.dispatched with
    | some lines => s.showE2eLines h lines
    | none => s

/-- A message that is not framed. -/
def handleText (connId bufferId ourNick nick ident target text : Str) (floodExempt : Bool)
    (a : Arrival) : State :=
  let (verdict, f) := if s.floodProtection && decide (nick ≠ ourNick) && !floodExempt then
      messageVerdict h s.floodState nick ident target text a.now
    else (none, s.floodState)
  let s := { s with floodState := f }
  match verdict with
  | some notice => s.suppress h bufferId notice
  | none => s.showChat h connId bufferId ourNick nick target text text .message a.shrunk

def ctcpByte : Char := Char.ofNat 1

/-- `text.starts_with('\x01') && text.ends_with('\x01')` -/
def isCtcp (text : Str) : Bool :=
  Text.startsWith text [ctcpByte] && Text.endsWith text [ctcpByte]

/-- `&text[1..text.len() - 1]`, which is out of bounds for a single byte. -/
def ctcpBody (text : Str) : Option Str := Utf8.slice text 1 (Utf8.byteLen text - 1)

/-- The text behind `ACTION `. -/
def actionText (body : Str) : Option Str := Text.stripPrefix (str "ACTION ") body

/-- The level that a message is ignored at. -/
def chatLevel (target text : Str) : IgnoreLevel :=
  if isCtcp text then
    if ((ctcpBody text).bind actionText).isSome then .actions else .ctcps
  else if isChannel target then .publics
  else .msgs

/-- The buffer of a message: the target's, or the sender's for a private message. -/
def chatBuffer (connId ourNick nick target : Str) : Str :=
  makeBufferId h connId (if isChannel target || nick = ourNick then target else nick)

/-- `handle_privmsg`; none where a slice is out of bounds. -/
def handlePrivmsg (connId ourNick : Str) (msg : IrcMessage) (target text : Str) (a : Arrival) :
    Option State :=
  let (nick, ident, host) := extractNickUserhost msg.sender
  let isOwn := decide (nick = ourNick)
  let floodExempt := !isOwn && matchesMaskPatterns h.isMatch s.floodExemptions nick ident host
  let bufferId := chatBuffer h connId ourNick nick target
  if a.decrypted = some [] then some s
  else
    let text := a.decrypted.getD text
    if s.ignored h nick ident host (chatLevel target text)
        (if isChannel target then some target else none) then some s
    else
      let s := s.openQuery h connId bufferId target nick (userhost ident host) isOwn
      let s := s.notePeerHandle bufferId target (userhost ident host) isOwn
      let s := s.noteAccountTag h bufferId target nick (tagValue msg (str "account"))
      if isCtcp text then
        (ctcpBody text).map (fun body =>
          match actionText body with
          | some action =>
            s.showChat h connId bufferId ourNick nick target action
              (str "* " ++ nick ++ ' ' :: action) .action a.shrunk
          | none => s.handleCtcp h bufferId floodExempt a)
      else some (s.handleText h connId bufferId ourNick nick ident target text floodExempt a)

/-! ### NOTICE -/

/-- The buffer of a notice, or the server's if there is none. -/
def noticeBuffer (connId ourNick : Str) (sender : Option Prefix) (target : Str) : Str :=
  let nick := extractNick sender
  let bufferId :=
    if nick.isNone || isServerPrefix sender then s.serverBuffer h connId
    else if isChannel target || nick = some ourNick then makeBufferId h connId target
    else makeBufferId h connId (nick.getD (str "Status"))
  if s.hasBuffer bufferId then bufferId else s.serverBuffer h connId

/-- `handle_notice` -/
def handleNotice (connId ourNick : Str) (msg : IrcMessage) (target text : Str) (a : Arrival) :
    State :=
  let (nick, ident, host) := extractNickUserhost msg.sender
  let isServerNotice := (extractNick msg.sender).isNone || isServerPrefix msg.sender
  if !isServerNotice && s.ignored h nick ident host .notices
      (if isChannel target then some target else none) then s
  else
    match a.dispatched with
    | some lines => s.showE2eLines h lines
    | none =>
      let bufferId := s.noticeBuffer h connId ourNick msg.sender target
      s.postChat h a.shrunk bufferId (fun id =>
        ⟨id, .notice, extractNick msg.sender,
          (extractNick msg.sender).bind (s.nickPrefix h bufferId), text, false, none, none⟩)

/-! ### JOIN, PART, QUIT -/

/-- The account of a joining nick: of the extended JOIN, or else of the account tag. -/
def joinAccount (extended tag : Option Str) : Option Str :=
  (extended.bind loggedIn).or (tag.bind loggedIn)

/-- The JOIN line. -/
def joinEvent (nick ident host channel : Str) (account realname : Option Str) : Event :=
  let account := (account.map (fun a => '[' :: a ++ [']'])).getD []
  let realname := realname.getD []
  keyedEvent (str "join")
    (nick ++ str " (" ++ userhost ident host ++ str ") has joined " ++ channel ++ ' ' :: account ++
      ' ' :: realname)
    [nick, ident, host, channel, account, realname]

/-- Forget the session of a channel that is joined again. -/
def Buffer.reset (b : Buffer) : Buffer :=
  { b with users := Table.empty, lastSpeakers := [], topic := none }

/-- Open the buffer of a channel that we have joined, or reuse it. -/
def openChannel (connId channel : Str) : State :=
  let bufferId := makeBufferId h connId channel
  let s := if s.hasBuffer bufferId then s.modifyBuffer bufferId Buffer.reset
    else s.addBuffer (freshBuffer h connId .channel channel)
  s.setActiveBuffer bufferId

/-- `handle_join` -/
def handleJoin (connId ourNick : Str) (msg : IrcMessage) (channel : Str)
    (extended realname : Option Str) (now : Nat) : State :=
  let (nick, ident, host) := extractNickUserhost msg.sender
  let bufferId := makeBufferId h connId channel
  let account := joinAccount extended (tagValue msg (str "account"))
  let line := joinEvent nick ident host channel account realname
  if nick ≠ ourNick ∧ s.ignored h nick ident host .joins (some channel) = true then
    s.addNick h bufferId (joinedEntry nick account)
  else if nick = ourNick then
    if (s.buffer? bufferId).any (fun b => !b.users.rows.isEmpty) then s
    else (s.openChannel h connId channel).event h bufferId line
  else
    let s := s.addNick h bufferId (joinedEntry nick account)
    let (rejoined, netsplit) := s.netsplitState.handleJoin h.toLowercase now nick bufferId
    let s := { s with netsplitState := netsplit }
    if rejoined then s else s.event h bufferId line

/-- Drop a channel from a set of channels, whatever its case. -/
def removeCaseInsensitive (channels : List Str) (channel : Str) : List Str :=
  if channels.contains channel then channels.filter (· ≠ channel)
  else
    match channels.find? (eqIgnoreAsciiCase · channel) with
    | none => channels
    | some existing => channels.filter (· ≠ existing)

/-- Forget the silent queries of a channel that we have left. -/
def forgetQueries (connId channel : Str) : State :=
  s.modifyConnection connId (fun c =>
    { c with
      silentWhoChannels := removeCaseInsensitive c.silentWhoChannels channel
      silentBanlistChannels := removeCaseInsensitive c.silentBanlistChannels channel })

/-- `handle_part` -/
def handlePart (connId ourNick : Str) (msg : IrcMessage) (channel : Str) (reason : Option Str) :
    State :=
  let (nick, ident, host) := extractNickUserhost msg.sender
  let bufferId := makeBufferId h connId channel
  if nick = ourNick then (s.removeBuffer h bufferId).forgetQueries connId channel
  else
    let s := s.removeNick h bufferId nick
    if s.ignored h nick ident host .parts (some channel) then s
    else
      let reason := reason.getD []
      s.event h bufferId (keyedEvent (str "part")
        (nick ++ str " (" ++ userhost ident host ++ str ") has left " ++ channel ++ str " (" ++
          reason ++ [')'])
        [nick, ident, host, channel, reason])

/-- The buffers of a connection that a nick is in. -/
def buffersWith (connId nick : Str) : List Str :=
  s.bufferIdsWhere (fun b => decide (b.connectionId = connId) && b.hasNick (h.toLowercase nick))

/-- The same event line in several buffers. -/
def eventIn (bufferIds : List Str) (e : Event) : State :=
  bufferIds.foldl (fun s id => s.event h id e) s

/-- Remove a nick from several buffers. -/
def removeNickFrom (bufferIds : List Str) (nick : Str) : State :=
  bufferIds.foldl (fun s id => s.removeNick h id nick) s

/-- `handle_quit` -/
def handleQuit (connId : Str) (msg : IrcMessage) (reason : Option Str) (now : Nat) : State :=
  let (nick, ident, host) := extractNickUserhost msg.sender
  let reason := reason.getD []
  let affected := s.buffersWith h connId nick
  let s := s.removeNickFrom h affected nick
  if s.ignored h nick ident host .quits none then s
  else
    let (split, netsplit) := s.netsplitState.handleQuit h.toLowercase now nick reason affected
    let s := { s with netsplitState := netsplit }
    if split then s
    else
      s.eventIn h affected (keyedEvent (str "quit")
        (nick ++ str " (" ++ userhost ident host ++ str ") has quit (" ++ reason ++ [')'])
        [nick, ident, host, reason])

/-! ### NICK and KICK -/

/-- Store a buffer under a new id and name; the active buffer follows. -/
def rekeyBuffer (id newId newName : Str) : State :=
  match s.buffer? id with
  | none => s
  | some b =>
    { s with
      buffers := (s.buffers.erase id).insert newId { b with id := newId, name := newName }
      activeBufferId := if s.activeBufferId = some id then some newId else s.activeBufferId }

/-- Rename a buffer if it is a query. -/
def renameQuery (connId newNick : Str) (id : Str) : State :=
  if (s.buffer? id).any (fun b => b.bufferType = .query) then
    s.rekeyBuffer id (makeBufferId h connId newNick) newNick
  else s

/-- `rename_query_buffers` -/
def renameQueryBuffers (connId newNick : Str) (affected : List Str) : State :=
  affected.foldl (fun s id => s.renameQuery h connId newNick id) s

/-- The buffers that a nick change concerns: the ones that the nick is in, and its queries. -/
def buffersOfNick (connId oldNick : Str) : List Str :=
  s.bufferIdsWhere (fun b => decide (b.connectionId = connId) &&
    (b.hasNick (h.toLowercase oldNick) ||
      (decide (b.bufferType = .query) && decide (h.toLowercase b.name = h.toLowercase oldNick))))

/-- A nick changes in one buffer. -/
def changeNickIn (ourNick oldNick newNick : Str) (now : Nat) (bufferId : Str) : State :=
  let s := s.updateNick h bufferId oldNick newNick
  let (flooding, f) := if s.floodProtection && decide (oldNick ≠ ourNick) then
      s.floodState.shouldSuppressNickFlood bufferId now
    else (false, s.floodState)
  let s := { s with floodState := f }
  if flooding then s
  else
    s.event h bufferId (keyedEvent (str "nick_change")
      (oldNick ++ str " is now known as " ++ newNick) [oldNick, newNick])

/-- `handle_nick_change` -/
def handleNickChange (connId ourNick : Str) (msg : IrcMessage) (newNick : Str) (now : Nat) : State :=
  let (_, ident, host) := extractNickUserhost msg.sender
  let oldNick := (extractNick msg.sender).getD []
  if oldNick ≠ ourNick ∧ s.ignored h oldNick ident host .nicks none = true then
    let affected := s.buffersOfNick h connId oldNick
    let s := affected.foldl (fun s id => s.updateNick h id oldNick newNick) s
    s.renameQueryBuffers h connId newNick affected
  else
    let s := if oldNick = ourNick then s.modifyConnection connId (fun c => { c with nick := newNick })
      else s
    let affected := s.buffersOfNick h connId oldNick
    let s := affected.foldl (fun s id => s.changeNickIn h ourNick oldNick newNick now id) s
    s.renameQueryBuffers h connId newNick affected

/-- We have been kicked: tell so in the server's buffer, and where the view goes. -/
def kicked (connId ourNick kicker channel reason : Str) : State :=
  let bufferId := makeBufferId h connId channel
  let serverId := makeBufferId h connId (((s.connection? connId).map Connection.label).getD connId)
  let line : Event :=
    ⟨str "You were kicked from " ++ channel ++ str " by " ++ kicker ++ str " (" ++ reason ++ [')'],
      true, some (str "kicked"), some [ourNick, kicker, channel, reason]⟩
  let s := (s.event h serverId line).event h bufferId line
  let s := s.removeBuffer h bufferId
  let landing := s.activeBufferId.getD serverId
  let s := if landing ≠ serverId then s.event h landing line else s
  s.forgetQueries connId channel

/-- `handle_kick` -/
def handleKick (connId ourNick : Str) (msg : IrcMessage) (channel kickedUser : Str)
    (reason : Option Str) : State :=
  let (kicker, ident, host) := extractNickUserhost msg.sender
  let bufferId := makeBufferId h connId channel
  let reason := reason.getD []
  if kickedUser ≠ ourNick ∧ s.ignored h kicker ident host .kicks (some channel) = true then
    s.removeNick h bufferId kickedUser
  else if kickedUser = ourNick then s.kicked h connId ourNick kicker channel reason
  else
    (s.removeNick h bufferId kickedUser).event h bufferId (keyedEvent (str "kick")
      (kickedUser ++ str " was kicked by " ++ kicker ++ str " (" ++ reason ++ [')'])
      [kickedUser, kicker, channel, reason])

/-! ### Topics and modes -/

/-- `handle_topic` -/
def handleTopic (connId : Str) (msg : IrcMessage) (channel : Str) : Option Str → State
  | none => s
  | some topic =>
    let setter := (extractNick msg.sender).getD []
    let bufferId := makeBufferId h connId channel
    (s.setTopic bufferId topic).event h bufferId (keyedEvent (str "topic_changed")
      (setter ++ str " changed the topic to: " ++ topic) [setter, topic])

/-- The mode letters of nicks. -/
def isNickMode (letter : Char) : Bool := ['q', 'a', 'o', 'h', 'v'].contains letter

/-- `modes_to_prefix` for the usual prefixes. -/
def modesToPrefix (modes : Str) : Str :=
  [('~', 'q'), ('&', 'a'), ('@', 'o'), ('%', 'h'), ('+', 'v')].filterMap
    (fun e => if modes.contains e.2 then some e.1 else none)

/-- Set or take a mode of a nick. -/
def NickEntry.setMode (adding : Bool) (letter : Char) (entry : NickEntry) : NickEntry :=
  let modes :=
    if adding then if entry.modes.contains letter then entry.modes else entry.modes ++ [letter]
    else entry.modes.filter (· ≠ letter)
  { entry with modes := modes, nickPrefix := modesToPrefix modes }

/-- `apply_channel_mode`, as far as it concerns a nick. -/
def applyChannelMode (bufferId : Str) (mode : ModeChange) : State :=
  match mode.adding, mode.param with
  | some adding, some target =>
    if isNickMode mode.letter then
      s.modifyBuffer bufferId (fun b =>
        b.updateEntry (h.toLowercase target) (NickEntry.setMode adding mode.letter))
    else s
  | _, _ => s

/-- The sign of a mode, where a mode that is just named has none. -/
def modeSign : Option Bool → Char
  | some true => '+'
  | some false => '-'
  | none => ' '

/-- The letters of some modes behind their signs. -/
def modeLetters : (last : Char) → List ModeChange → Str
  | _, [] => []
  | last, m :: ms =>
    let sign := modeSign m.adding
    if sign ≠ last ∧ sign ≠ ' ' then sign :: m.letter :: modeLetters sign ms
    else m.letter :: modeLetters last ms

/-- The parameters of the modes that are set or taken. -/
def modeParams (modes : List ModeChange) : List Str :=
  modes.filterMap (fun m => if m.adding.isSome then m.param else none)

/-- `build_channel_mode_string` -/
def channelModeString (modes : List ModeChange) : Str :=
  modeLetters ' ' modes ++
    if modeParams modes = [] then [] else ' ' :: [' '].intercalate (modeParams modes)

/-- `build_user_mode_string` -/
def userModeString (modes : List ModeChange) : Str := modeLetters ' ' modes

/-- The MODE line, in the channel or in the server's buffer. -/
def modeEvent (connId : Str) (msg : IrcMessage) (target display : Str) : State :=
  let nick := (extractNick msg.sender).getD (str "server")
  s.event h (if isChannel target then makeBufferId h connId target else s.serverBuffer h connId)
    (keyedEvent (str "mode") (nick ++ str " sets mode " ++ display ++ str " on " ++ target)
      [nick, display, target])

/-- `handle_mode` of a channel mode. -/
def handleChannelMode (connId : Str) (msg : IrcMessage) (target : Str) (modes : List ModeChange) :
    State :=
  let s := modes.foldl (fun s m => s.applyChannelMode h (makeBufferId h connId target) m) s
  s.modeEvent h connId msg target (channelModeString modes)

/-- `handle_mode` of a user mode. -/
def handleUserMode (connId : Str) (msg : IrcMessage) (target : Str) (modes : List ModeChange) :
    State :=
  s.modeEvent h connId msg target (userModeString modes)

/-! ### Other commands -/

/-- `handle_invite` -/
def handleInvite (connId ourNick : Str) (msg : IrcMessage) (nick channel : Str) : State :=
  let inviter := (extractNick msg.sender).getD []
  if eqIgnoreAsciiCase nick ourNick then
    s.event h (s.activeOrServerBuffer h connId)
      ⟨inviter ++ str " invites you to " ++ channel, true, none, none⟩
  else if s.hasBuffer (makeBufferId h connId channel) then
    s.event h (makeBufferId h connId channel)
      (plainEvent (inviter ++ str " invited " ++ nick ++ str " to " ++ channel))
  else s

/-- `handle_wallops` -/
def handleWallops (connId : Str) (msg : IrcMessage) (text : Str) : State :=
  s.event h (s.serverBuffer h connId) (plainEvent (str "%Ze0af68[Wallops/" ++
    (extractNick msg.sender).getD (str "server") ++ str "]%N " ++ text))

/-- `handle_error` -/
def handleError (connId message : Str) : State :=
  s.event h (s.serverBuffer h connId) (plainEvent (str "%Zff4444ERROR: " ++ message ++ str "%N"))

/-- The channels of a connection that a nick is in. -/
def channelsWith (connId nick : Str) : List Str :=
  s.bufferIdsWhere (fun b => decide (b.connectionId = connId) &&
    decide (b.bufferType = .channel) && b.hasNick (h.toLowercase nick))

/-- Write the entries of a nick in the buffers of a connection. -/
def updateEntries (connId nick : Str) (f : NickEntry → NickEntry) : State :=
  s.modifyBuffersOf connId (fun b => b.updateEntry (h.toLowercase nick) f)

/-- `handle_account` -/
def handleAccount (connId : Str) (msg : IrcMessage) (account : Str) : State :=
  match extractNick msg.sender with
  | none => s
  | some nick =>
    let s := s.updateEntries h connId nick (fun e => { e with account := loggedIn account })
    let description := match loggedIn account with
      | none => str "has logged out"
      | some account => str "is now logged in as " ++ account
    s.eventIn h (s.channelsWith h connId nick)
      (keyedEvent (str "account") (nick ++ ' ' :: description) [nick, description])

/-- `handle_away` -/
def handleAway (connId : Str) (msg : IrcMessage) (reason : Option Str) : State :=
  match extractNick msg.sender with
  | none => s
  | some nick => s.updateEntries h connId nick (fun e => { e with away := reason.isSome })

/-- `handle_chghost` -/
def handleChghost (connId : Str) (msg : IrcMessage) (newUser newHost : Str) : State :=
  match extractNick msg.sender with
  | none => s
  | some nick =>
    let s := s.updateEntries h connId nick
      (fun e => { e with ident := some newUser, host := some newHost })
    s.eventIn h (s.channelsWith h connId nick) (keyedEvent (str "chghost")
      (nick ++ str " changed host to " ++ userhost newUser newHost) [nick, newUser, newHost])

/-! ### Numerics -/

/-- `parse_userhost` -/
def parseUserhost (input : Str) : Str × Option Str × Option Str :=
  match Text.splitOnce '!' input with
  | none => (input, none, none)
  | some (nick, rest) =>
    match Text.splitOnce '@' rest with
    | none => (input, none, none)
    | some (ident, host) => (nick, some ident, some host)

/-- The leading prefixes of a name, with their modes. -/
def splitPrefixes (prefixMap : List (Char × Char)) : Str → Str × Str × Str
  | [] => ([], [], [])
  | c :: rest =>
    match prefixMap.find? (fun e => e.2 = c) with
    | none => ([], [], c :: rest)
    | some (mode, _) =>
      let (prefixes, modes, nick) := splitPrefixes prefixMap rest
      (c :: prefixes, mode :: modes, nick)

/-- `parse_names_entry` -/
def parseNamesEntry (prefixMap : List (Char × Char)) (hasUserhost : Bool) (raw : Str) : NickEntry :=
  let (prefixes, modes, rest) := splitPrefixes prefixMap raw
  let (nick, ident, host) := if hasUserhost then parseUserhost rest else (rest, none, none)
  ⟨nick, prefixes, modes, false, none, ident, host⟩

/-- RPL_NAMREPLY: the names of a channel. -/
def handleNames (connId channel names : Str) : State :=
  let (prefixMap, hasUserhost) :=
    match s.connection? connId with
    | none => ([('o', '@'), ('v', '+')], false)
    | some c => (Isupport.prefixMap c.isupport, c.enabledCaps.contains (str "userhost-in-names"))
  (Text.splitWhitespace names).foldl (fun s raw =>
    s.addNick h (makeBufferId h connId channel) (parseNamesEntry prefixMap hasUserhost raw)) s

/-- `update_label_from_network` -/
def updateLabelFromNetwork (connId network : Str) : State :=
  match s.connection? connId with
  | none => s
  | some c =>
    if !c.label.contains '.' then s
    else
      (s.modifyConnection connId (fun c => { c with label := network })).rekeyBuffer
        (makeBufferId h connId c.label) (makeBufferId h connId network) network

/-- RPL_ISUPPORT: the tokens of a server, which may name its network. -/
def handleIsupport (connId : Str) (tokens : List Str) : State :=
  let s := s.modifyConnection connId (fun c =>
    { c with isupport := tokens.foldl Isupport.parseToken c.isupport })
  match (s.connection? connId).bind (fun c => Isupport.network c.isupport) with
  | none => s
  | some network => s.updateLabelFromNetwork h connId network

/-- A channel cannot be joined: its buffer is closed if it has no users. -/
def handleJoinFailure (connId : Str) (args : List Str) : State :=
  let channel := (args[1]?).getD ['?']
  let reason := (args[2]?).getD (str "Cannot join channel")
  let bufferId := makeBufferId h connId channel
  let s := s.event h (s.serverBuffer h connId)
    (plainEvent (str "%Zff6b6bCannot join " ++ channel ++ str ": " ++ reason ++ str "%N"))
  if (s.buffer? bufferId).any (fun b => b.users.rows.isEmpty) then s.removeBuffer h bufferId else s

/-- Whether a set of channels contains a channel, whatever its case. -/
def containsCaseInsensitive (channels : List Str) (channel : Str) : Bool :=
  channels.contains channel || channels.any (eqIgnoreAsciiCase · channel)

/-- Whether a reply about a channel belongs to a silent query. -/
def isSilent (connId : Str) (channels : Connection → List Str) (channel : Str) : Bool :=
  (s.connection? connId).any (fun c => containsCaseInsensitive (channels c) channel)

/-- The end of the ban list of a channel, or the failure to get it. -/
def endBanlistQuery (connId channel : Str) : State :=
  s.modifyConnection connId (fun c =>
    { c with silentBanlistChannels := removeCaseInsensitive c.silentBanlistChannels channel })

/-- The end of a WHO, which may name several channels. -/
def endWhoQuery (connId : Str) (channels : List Str) : State :=
  s.modifyConnection connId (fun c =>
    { c with silentWhoChannels := channels.foldl removeCaseInsensitive c.silentWhoChannels })

/-- Note what a WHOX reply says of a nick. -/
def NickEntry.noteWhox (user host flags account : Str) (entry : NickEntry) : NickEntry :=
  { entry with
    ident := some user
    host := some host
    account := if account = ['0'] then none else some account
    away := Text.startsWith flags ['G'] }

/-- `handle_whox_reply`: the reply updates a nick. -/
def handleWhoxReply (connId : Str) (args : List Str) : State :=
  match args with
  | _ :: _ :: channel :: user :: _ :: host :: nick :: flags :: account :: _ :: _ =>
    let s := s.modifyBuffer (makeBufferId h connId channel) (fun b =>
      b.updateEntry (h.toLowercase nick) (NickEntry.noteWhox user host flags account))
    if s.isSilent connId Connection.silentWhoChannels channel then s
    else s.showReplies h connId 354 args
  | _ => s

/-- `handle_response`, with the numerics that the parser leaves raw. Numerics that are not listed
here only show their lines. -/
def handleResponse (connId : Str) (code : Nat) (args : List Str) (a : Arrival) : State :=
  let channel := (args[1]?).getD []
  match code with
  | 5 =>
    if 2 ≤ args.length then s.handleIsupport h connId (args.tail.dropLast) else s
  | 332 =>
    match args with
    | _ :: channel :: topic :: _ => s.setTopic (makeBufferId h connId channel) topic
    | _ => s
  | 353 =>
    match args with
    | _ :: _ :: channel :: names :: _ => s.handleNames h connId channel names
    | _ => s
  | 471 | 473 | 474 | 475 | 405 => s.handleJoinFailure h connId args
  | 315 =>
    let silent := s.isSilent connId Connection.silentWhoChannels
    let channels := if channel.contains ',' then channel.splitOn ',' else [channel]
    let ended := s.endWhoQuery connId channels
    if channels.any silent then ended else ended.showReplies h connId code args
  | 368 | 482 | 403 | 442 =>
    let ended := s.endBanlistQuery connId channel
    if s.isSilent connId Connection.silentBanlistChannels channel then ended
    else ended.showReplies h connId code args
  | 367 | 329 =>
    if s.isSilent connId Connection.silentBanlistChannels channel then s
    else s.showReplies h connId code args
  | 352 =>
    if s.isSilent connId Connection.silentWhoChannels channel then s
    else s.showReplies h connId code args
  | 354 => s.handleWhoxReply h connId args
  | 302 => (a.dispatched.map (s.showE2eLines h)).getD s
  | _ => s.showReplies h connId code args

/-- `handle_irc_message`; none where a slice is out of bounds. -/
def handleIrcMessage (connId : Str) (msg : IrcMessage) (a : Arrival) : Option State :=
  let ourNick := s.ourNick connId
  match msg.command with
  | .privmsg target text => s.handlePrivmsg h connId ourNick msg target text a
  | .notice target text => some (s.handleNotice h connId ourNick msg target text a)
  | .join channel account realname =>
    some (s.handleJoin h connId ourNick msg channel account realname a.now)
  | .part channel reason => some (s.handlePart h connId ourNick msg channel reason)
  | .quit reason => some (s.handleQuit h connId msg reason a.now)
  | .nick newNick => some (s.handleNickChange h connId ourNick msg newNick a.now)
  | .kick channel kickedUser reason =>
    some (s.handleKick h connId ourNick msg channel kickedUser reason)
  | .topic channel topic => some (s.handleTopic h connId msg channel topic)
  | .channelMode target modes => some (s.handleChannelMode h connId msg target modes)
  | .userMode target modes => some (s.handleUserMode h connId msg target modes)
  | .invite nick channel => some (s.handleInvite h connId ourNick msg nick channel)
  | .wallops text => some (s.handleWallops h connId msg text)
  | .account account => some (s.handleAccount h connId msg account)
  | .away reason => some (s.handleAway h connId msg reason)
  | .chghost newUser newHost => some (s.handleChghost h connId msg newUser newHost)
  | .error message => some (s.handleError h connId message)
  | .numeric code args => some (s.handleResponse h connId code args a)
  | .raw _ _ => some s

end State

end Store

end Repartee
