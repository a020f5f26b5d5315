import Repartee.Dcc.Manager
import Repartee.State.Changes

/-!
# DCC chats and their buffers

A chat is known by three names: its task reports under the id that its record had when the task was
started, its buffer is called `=nick`, and typed lines look for a record by that nick. A change of
nick (`app/irc.rs`) writes records and buffers, but not the tasks.

## Main definitions

- `Chats`, `Chats.step`: the records, the buffers and the tasks, and what happens to them
- `World`: the chats, and who the peer of each session is
- `InSync`: the three names lead to the same session
- `World.Follows`: what a step owes to the peers
- `Harmless`: a change of nick that no task, buffer or network notices

## Main results

- `follows_run`: chats follow their peers through every run of harmless steps
- `renamed_peer_is_lost`: after a change of nick the lines of a peer are dropped
-/

set_option autoImplicit false

namespace Repartee.Dcc

open Store (Host State)

/-! ### Records that keep their ids -/

namespace DccManager

variable {h : Host} {m : DccManager}

/-- The id that a record would get if it were renamed. -/
def idAfter (h : Host) (m : DccManager) (id newNick : Str) : Str :=
  { m with records := m.records.erase id }.generateId h newNick

/-- A record of a nick under its new nick. -/
def follow (h : Host) (oldNick newNick : Str) (r : DccRecord) : DccRecord :=
  if ofNick h oldNick r then { r with nick := newNick } else r

/-- What a loop of renamings has done so far: nothing to ids, channels and records that are still to
come. -/
structure Followed (h : Host) (m : DccManager) (oldNick newNick : Str) (rest : List Str)
    (p : DccManager × List Rename) : Prop where
  records : ∀ id, p.1.records.lookup id =
    (m.records.lookup id).map (fun r => if id ∈ rest then r else follow h oldNick newNick r)
  length : p.1.records.rows.length = m.records.rows.length
  senders : ∀ id, p.1.chatSenders.lookup id = m.chatSenders.lookup id
  renames : ∀ e ∈ p.2, e.oldId = e.newId ∧
    ∃ r, m.records.lookup e.oldId = some r ∧ ofNick h oldNick r = true

/-- A record that gets its own id back is renamed in place. -/
theorem Followed.renameRecord {oldNick newNick oldId : Str} {rest : List Str}
    {p : DccManager × List Rename} (hp : Followed h m oldNick newNick (oldId :: rest) p)
    (hfresh : oldId ∉ rest) {r : DccRecord} (hr : m.records.lookup oldId = some r)
    (hnick : ofNick h oldNick r = true) (hkeyed : r.id = oldId)
    (hkeeps : m.idAfter h oldId newNick = oldId) :
    Followed h m oldNick newNick rest (DccManager.renameRecord h newNick p oldId) := by
  have hold : p.1.records.lookup oldId = some r := by
    rw [hp.records, hr, Option.map_some, if_pos List.mem_cons_self]
  have hisSome : (p.1.records.lookup oldId).isSome = (m.records.lookup oldId).isSome := by
    rw [hold, hr]
  have hlength : (p.1.records.erase oldId).rows.length = (m.records.erase oldId).rows.length := by
    rw [Dict.length_erase, Dict.length_erase, hisSome, hp.length]
  -- the search for a free id sees the same ids as before the loop
  have hid : generateId h { p.1 with records := p.1.records.erase oldId } newNick = oldId := by
    refine Eq.trans ?_ hkeeps
    have hsame : ∀ id, ((p.1.records.erase oldId).lookup id).isNone =
        ((m.records.erase oldId).lookup id).isNone := by
      intro id
      rw [Dict.lookup_erase, Dict.lookup_erase, hp.records]
      by_cases hid : oldId = id
      · rw [if_pos hid, if_pos hid]
      · rw [if_neg hid, if_neg hid, Option.isNone_map]
    simp only [idAfter, generateId, Dict.freeKey, hlength, hsame]
  rw [DccManager.renameRecord, hold]
  simp only [hid]
  have hfollow : follow h oldNick newNick r = { r with nick := newNick } := if_pos hnick
  refine ⟨?_, ?_, ?_, ?_⟩
  · intro id
    rw [Dict.lookup_insert]
    by_cases hsame : oldId = id
    · rw [if_pos hsame, ← hsame, hr, Option.map_some, if_neg hfresh, hfollow, ← hkeyed]
    · rw [if_neg hsame, Dict.lookup_erase, if_neg hsame, hp.records]
      congr 1
      funext r'
      by_cases hin : id ∈ rest
      · rw [if_pos hin, if_pos (List.mem_cons_of_mem _ hin)]
      · rw [if_neg hin, if_neg]
        exact fun hcons => (List.mem_cons.mp hcons).elim (fun heq => hsame heq.symm) hin
  · rw [Dict.length_insert, Dict.length_erase, Dict.lookup_erase, if_pos rfl, hlength,
      Dict.length_erase, hr]
    have hpos := Dict.length_pos_of_lookup hr
    simp only [Option.isSome_none, Bool.false_eq_true, if_false, Option.isSome_some, if_true]
    omega
  · intro id
    rw [moveSender]
    cases hsender : p.1.chatSenders.lookup oldId with
    | none => exact hp.senders id
    | some n =>
      simp only
      rw [Dict.lookup_insert, ← hp.senders]
      split_ifs with hsame
      · rw [← hsame, hsender]
      · rw [Dict.lookup_erase, if_neg hsame]
  · intro e he
    rcases List.mem_append.mp he with he | he
    · exact hp.renames e he
    · rw [List.mem_singleton.mp he]
      exact ⟨rfl, r, hr, hnick⟩

/-- If every record of a nick keeps its id, they are renamed in place. -/
theorem followed_updateNick {oldNick newNick : Str} (order : Order)
    (hkeyed : ∀ id r, m.records.lookup id = some r → r.id = id)
    (hkeeps : ∀ id r, m.records.lookup id = some r → ofNick h oldNick r = true →
      m.idAfter h id newNick = id) :
    Followed h m oldNick newNick [] (m.updateNick h order oldNick newNick) := by
  have hperm := order.perm m.records.rows
  simp only [updateNick]
  generalize hids :
    ((order.of m.records.rows).filter (fun e => ofNick h oldNick e.2)).map Prod.fst =
    oldIds
  have hmem : ∀ id, id ∈ oldIds ↔
      ∃ r, m.records.lookup id = some r ∧ ofNick h oldNick r = true := by
    intro id
    rw [← hids, List.mem_map]
    constructor
    · rintro ⟨⟨_, r⟩, he, rfl⟩
      rw [List.mem_filter, hperm.mem_iff, Dict.mem_rows_iff_lookup] at he
      exact ⟨r, he⟩
    · rintro ⟨r, hr⟩
      refine ⟨(id, r), ?_, rfl⟩
      rw [List.mem_filter, hperm.mem_iff, Dict.mem_rows_iff_lookup]
      exact hr
  have hnodup : oldIds.Nodup := by
    rw [← hids]
    exact ((hperm.map Prod.fst).nodup_iff.mpr m.records.nodup).sublist
      (List.filter_sublist.map Prod.fst)
  have hstart : Followed h m oldNick newNick oldIds (m, []) := by
    refine ⟨fun id => ?_, rfl, fun _ => rfl, by rintro e ⟨⟩⟩
    cases hr : m.records.lookup id with
    | none => rfl
    | some r =>
      rw [Option.map_some]
      split_ifs with hin
      · rfl
      · rw [follow, if_neg (fun hnick => hin ((hmem id).mpr ⟨r, hr, hnick⟩))]
  have hloop : ∀ (rest : List Str) (p : DccManager × List Rename), rest.Nodup →
      (∀ id ∈ rest, id ∈ oldIds) → Followed h m oldNick newNick rest p →
      Followed h m oldNick newNick [] (rest.foldl (DccManager.renameRecord h newNick) p) := by
    intro rest
    induction rest with
    | nil => exact fun p _ _ hp => hp
    | cons oldId rest ih =>
      intro p hrest hin hp
      obtain ⟨hfresh, hrest⟩ := List.nodup_cons.mp hrest
      obtain ⟨r, hr, hnick⟩ := (hmem oldId).mp (hin oldId List.mem_cons_self)
      exact ih _ hrest (fun id hid => hin id (List.mem_cons_of_mem _ hid))
        (hp.renameRecord hfresh hr hnick (hkeyed oldId r hr) (hkeeps oldId r hr hnick))
  exact hloop oldIds (m, []) hnodup (fun _ hid => hid) hstart

end DccManager

/-! ### Chats -/

/-- The records, the buffers, and the id that the task of each session reports under. -/
structure Chats where
  dcc : DccManager
  state : State
  tasks : Nat → Option Str

namespace Chats

variable (h : Host) (c : Chats)

/-- The name of the buffer of a chat. -/
def bufferName (nick : Str) : Str := '=' :: nick

/-- The nick that a buffer is named after. -/
def dccNick (name : Str) : Str := (Text.stripPrefix ['='] name).getD name

/-- A line of a chat. -/
def chatLine (messageType : MessageType) (nick text : Str) (id : Nat) : Store.Message :=
  ⟨id, messageType, some nick, none, text, false, none, none⟩

/-- Append a line to a buffer, without the link shortener. -/
def post (id : Str) (messageType : MessageType) (nick text : Str) : Chats :=
  let next := { c.state with messageCounter := c.state.messageCounter + 1 }
  { c with state :=
      next.addMessageUnshrunk h id (chatLine messageType nick text (c.state.messageCounter + 1)) }

/-- The record that the report of a task finds. -/
def reported (session : Nat) : Option DccRecord :=
  (c.tasks session).bind c.dcc.records.lookup

/-- `ChatMessage` and `ChatAction` of `handle_dcc_event` -/
def handleLine (session : Nat) (messageType : MessageType) (text : Str) : Chats :=
  match c.reported session with
  | none => c
  | some r => c.post h (Store.makeBufferId h r.connId (bufferName r.nick)) messageType r.nick text

/-- The session that a line typed in a buffer is handed to. -/
def handed (order : Order) (bufferId : Str) : Option Nat :=
  (c.state.buffer? bufferId).bind (fun b =>
    if b.bufferType = .dccChat then
      (c.dcc.findConnected h order (dccNick b.name)).bind (fun r => c.dcc.sendChatLine r.id)
    else none)

/-- The part of `handle_plain_message` about chats. -/
def handleTyped (order : Order) (bufferId text : Str) : Chats :=
  match c.handed h order bufferId with
  | none => c
  | some _ =>
    let ourNick := ((c.state.connections.values.head?).map Store.Connection.nick).getD []
    c.post h bufferId .message ourNick text

/-- The buffer of a renamed record. -/
def renameBuffer (connId newNick : Str) (s : State) (e : Rename) : State :=
  s.rekeyBuffer (Store.makeBufferId h connId (bufferName e.oldId))
    (Store.makeBufferId h connId (bufferName e.newId)) (bufferName newNick)

/-- The part of `handle_irc_event` about a NICK. -/
def handleNick (order : Order) (connId oldNick newNick : Str) : Chats :=
  let (dcc, renames) := c.dcc.updateNick h order oldNick newNick
  { c with dcc := dcc, state := renames.foldl (renameBuffer h connId newNick) c.state }

inductive Act where
  | nick (order : Order) (connId oldNick newNick : Str)
  /-- The task of a session reports a line. -/
  | line (session : Nat) (messageType : MessageType) (text : Str)
  /-- The user types in a buffer. -/
  | typed (order : Order) (bufferId text : Str)

def step : Act → Chats
  | .nick order connId oldNick newNick => c.handleNick h order connId oldNick newNick
  | .line session messageType text => c.handleLine h session messageType text
  | .typed order bufferId text => c.handleTyped h order bufferId text

end Chats

/-! ### Peers -/

/-- A peer: a connection, and a nick on it. -/
structure Peer where
  connId : Str
  nick : Str

/-- The chats, and the peer of each live session. -/
structure World where
  chats : Chats
  peers : Nat → Option Peer

namespace World

variable (h : Host) (w : World)

/-- A peer under the nick that is its own after a change of nick. -/
def follow (connId oldNick newNick : Str) (p : Peer) : Peer :=
  if p.connId = connId ∧ h.toLowercase p.nick = h.toLowercase oldNick then
    { p with nick := newNick }
  else p

def step (act : Chats.Act) : World where
  chats := w.chats.step h act
  peers :=
    match act with
    | .nick _ connId oldNick newNick =>
      fun n => (w.peers n).map (follow h connId oldNick newNick)
    | _ => w.peers

/-- The buffer of a peer. -/
def bufferOf (p : Peer) : Str := Store.makeBufferId h p.connId (Chats.bufferName p.nick)

/-- What a step owes to the peers: a line of a session is appended to the buffer of its peer, a line
typed in the buffer of a peer is handed to a session of that peer, and a change of nick leaves other
connections alone. -/
def Follows : Chats.Act → Prop
  | .line session messageType text => ∀ p, w.peers session = some p →
    (∃ b, w.chats.state.buffer? (bufferOf h p) = some b ∧ b.bufferType = .dccChat ∧
      b.connectionId = p.connId) ∧
    w.chats.handleLine h session messageType text =
      w.chats.post h (bufferOf h p) messageType p.nick text
  | .typed order bufferId _ => ∀ n p, w.peers n = some p → bufferId = bufferOf h p →
    ∃ n' p', w.chats.handed h order bufferId = some n' ∧ w.peers n' = some p' ∧
      p'.connId = p.connId ∧ h.toLowercase p'.nick = h.toLowercase p.nick
  | .nick order connId oldNick newNick =>
    (∀ id r, w.chats.dcc.records.lookup id = some r → r.connId ≠ connId →
      (w.chats.handleNick h order connId oldNick newNick).dcc.records.lookup id = some r) ∧
    ∀ id b, w.chats.state.buffer? id = some b → b.connectionId ≠ connId →
      (w.chats.handleNick h order connId oldNick newNick).state.buffer? id = some b

end World

/-- The three names of a chat lead to the same session. -/
structure InSync (h : Host) (w : World) : Prop where
  keyed : ∀ id r, w.chats.dcc.records.lookup id = some r → r.id = id
  task : ∀ n p, w.peers n = some p → ∃ id r, w.chats.tasks n = some id ∧
    w.chats.dcc.records.lookup id = some r ∧ r.state = .connected ∧ r.session = n
  record : ∀ id r, w.chats.dcc.records.lookup id = some r → r.state = .connected →
    w.chats.dcc.chatSenders.lookup id = some r.session ∧ w.peers r.session = some ⟨r.connId, r.nick⟩
  buffer : ∀ n p, w.peers n = some p → ∃ b nick,
    w.chats.state.buffer? (World.bufferOf h p) = some b ∧ b.bufferType = .dccChat ∧
      b.connectionId = p.connId ∧ b.name = Chats.bufferName nick ∧
        h.toLowercase nick = h.toLowercase p.nick

/-- A step in which no name goes astray. A NICK that meets a record of the nick is on its connection
and changes the case only, the record gets its own id back, and a buffer that is called after the id
is the buffer of the nick; a line is typed in the buffer of a peer whose nick has no chat on another
connection. -/
def Harmless (h : Host) (w : World) : Chats.Act → Prop
  | .nick _ connId oldNick newNick =>
    ∀ id r, w.chats.dcc.records.lookup id = some r → DccManager.ofNick h oldNick r = true →
      r.connId = connId ∧ h.toLowercase newNick = h.toLowercase oldNick ∧
      w.chats.dcc.idAfter h id newNick = id ∧
      ∀ b, w.chats.state.buffer? (Store.makeBufferId h connId (Chats.bufferName id)) = some b →
        b.connectionId = connId ∧ Store.makeBufferId h connId (Chats.bufferName id) =
          Store.makeBufferId h connId (Chats.bufferName newNick)
  | .typed _ bufferId _ =>
    ∀ n p, w.peers n = some p → bufferId = World.bufferOf h p →
      ∀ id r, w.chats.dcc.records.lookup id = some r → r.state = .connected →
        h.toLowercase r.nick = h.toLowercase p.nick → r.connId = p.connId
  | .line _ _ _ => True

section Steps

variable {h : Host} {w : World}

/-! ### Lines -/

/-- A line changes neither name, kind nor connection of a buffer. -/
theorem buffer?_post (c : Chats) (id : Str) (messageType : MessageType) (nick text : Str)
    {key : Str} {b : Store.Buffer} (hb : c.state.buffer? key = some b) :
    ∃ b', (c.post h id messageType nick text).state.buffer? key = some b' ∧
      b'.bufferType = b.bufferType ∧ b'.connectionId = b.connectionId ∧ b'.name = b.name := by
  have hreceive : ∀ limit m, (b.receive h limit m).bufferType = b.bufferType ∧
      (b.receive h limit m).connectionId = b.connectionId ∧
      (b.receive h limit m).name = b.name := by
    intro limit m
    have hcontinues := Store.continues_receive h limit key b m
    exact ⟨hcontinues.bufferType, hcontinues.connectionId, hcontinues.name⟩
  rw [Chats.post]
  simp only [State.addMessageUnshrunk]
  rw [State.buffer?_modifyBuffer, State.buffer?]
  rw [State.buffer?] at hb
  simp only [hb]
  split_ifs
  · exact ⟨_, rfl, hreceive _ _⟩
  · exact ⟨b, rfl, rfl, rfl, rfl⟩

theorem InSync.post (hw : InSync h w) (id : Str) (messageType : MessageType) (nick text : Str) :
    InSync h { w with chats := w.chats.post h id messageType nick text } := by
  refine ⟨hw.keyed, hw.task, hw.record, fun n p hp => ?_⟩
  obtain ⟨b, nick', hb, htype, hconn, hname, hnick⟩ := hw.buffer n p hp
  obtain ⟨b', hb', htype', hconn', hname'⟩ := buffer?_post w.chats id messageType nick text hb
  exact ⟨b', nick', hb', htype'.trans htype, hconn'.trans hconn, hname'.trans hname, hnick⟩

/-- The report of a task finds the record of its session, under the nick of the peer. -/
theorem InSync.reported (hw : InSync h w) {n : Nat} {p : Peer} (hp : w.peers n = some p) :
    ∃ r, w.chats.reported n = some r ∧ r.connId = p.connId ∧ r.nick = p.nick := by
  obtain ⟨id, r, htask, hr, hstate, hsession⟩ := hw.task n p hp
  have hpeer := (hw.record id r hr hstate).2
  rw [hsession, hp] at hpeer
  cases hpeer
  refine ⟨r, ?_, rfl, rfl⟩
  rw [Chats.reported, htask]
  exact hr

theorem follows_line (hw : InSync h w) (n : Nat) (messageType : MessageType) (text : Str) :
    w.Follows h (.line n messageType text) := by
  intro p hp
  obtain ⟨b, nick, hb, htype, hconn, -, -⟩ := hw.buffer n p hp
  refine ⟨⟨b, hb, htype, hconn⟩, ?_⟩
  obtain ⟨r, hr, hrconn, hrnick⟩ := hw.reported hp
  rw [Chats.handleLine, hr]
  simp only
  rw [hrconn, hrnick]
  rfl

theorem follows_typed (hw : InSync h w) {order : Order} {bufferId text : Str}
    (hharmless : Harmless h w (.typed order bufferId text)) :
    w.Follows h (.typed order bufferId text) := by
  rintro n p hp rfl
  obtain ⟨b, nick, hb, htype, hconn, hname, hnick⟩ := hw.buffer n p hp
  obtain ⟨id, r, -, hr, hstate, hsession⟩ := hw.task n p hp
  have hpeer := (hw.record id r hr hstate).2
  rw [hsession, hp] at hpeer
  cases hpeer
  -- there is a connected record of the nick, and whichever is found is on the connection
  obtain ⟨e, hfind⟩ := DccManager.find?_of_lookup order
    (p := fun r => DccManager.ofNick h nick r && decide (r.state = .connected)) hr
    (by simp [DccManager.ofNick, hnick, hstate])
  obtain ⟨hfound, hof⟩ := DccManager.lookup_of_find? hfind
  rw [Bool.and_eq_true, DccManager.ofNick, decide_eq_true_eq, decide_eq_true_eq] at hof
  obtain ⟨hsender, hpeer⟩ := hw.record e.1 e.2 hfound hof.2
  refine ⟨e.2.session, _, ?_, hpeer, ?_, hof.1.trans hnick⟩
  · have hdccNick : Chats.dccNick b.name = nick := by
      rw [hname]
      rfl
    rw [Chats.handed, hb, Option.bind_some, if_pos htype, hdccNick, DccManager.findConnected, hfind]
    rw [Option.map_some, Option.bind_some, hw.keyed e.1 e.2 hfound]
    exact hsender
  · exact hharmless n _ hp rfl e.1 e.2 hfound hof.2 (hof.1.trans hnick)

/-! ### Changes of nick -/

/-- A buffer is only called after another nick if a renamed record names it. -/
theorem buffer?_renames (connId newNick : Str) {renames : List Rename}
    (hsame : ∀ e ∈ renames, e.oldId = e.newId) {s : State} {key : Str} {b : Store.Buffer}
    (hb : s.buffer? key = some b) :
    (renames.foldl (Chats.renameBuffer h connId newNick) s).buffer? key = some b ∨
    (renames.foldl (Chats.renameBuffer h connId newNick) s).buffer? key =
        some { b with id := key, name := Chats.bufferName newNick } ∧
      ∃ e ∈ renames, key = Store.makeBufferId h connId (Chats.bufferName e.oldId) := by
  induction renames generalizing s b with
  | nil => exact .inl hb
  | cons e renames ih =>
    have hrest := fun e he => hsame e (List.mem_cons_of_mem _ he)
    rw [List.foldl_cons]
    have hid := hsame e List.mem_cons_self
    by_cases hkey : Store.makeBufferId h connId (Chats.bufferName e.oldId) = key
    · -- the buffer is stored again, under its id
      have hstep : (Chats.renameBuffer h connId newNick s e).buffer? key =
          some { b with id := key, name := Chats.bufferName newNick } := by
        rw [Chats.renameBuffer, ← hid, hkey, State.buffer?_rekeyBuffer s hb, if_pos rfl]
      refine .inr ⟨?_, e, List.mem_cons_self, hkey.symm⟩
      rcases ih hrest hstep with hkept | ⟨hagain, -⟩
      · exact hkept
      · exact hagain
    · have hstep : (Chats.renameBuffer h connId newNick s e).buffer? key = some b := by
        rw [Chats.renameBuffer, ← hid]
        cases hold : s.buffer? (Store.makeBufferId h connId (Chats.bufferName e.oldId)) with
        | none => rw [State.rekeyBuffer_of_none s hold, hb]
        | some b₀ => rw [State.buffer?_rekeyBuffer s hold, if_neg hkey, if_neg hkey, hb]
      rcases ih hrest hstep with hkept | ⟨hrenamed, e', he', hkey'⟩
      · exact .inl hkept
      · exact .inr ⟨hrenamed, e', List.mem_cons_of_mem _ he', hkey'⟩

/-- What a harmless change of nick does to records and buffers. -/
theorem handleNick_spec (hw : InSync h w) {order : Order} {connId oldNick newNick : Str}
    (hharmless : Harmless h w (.nick order connId oldNick newNick)) :
    (∀ id, (w.chats.handleNick h order connId oldNick newNick).dcc.records.lookup id =
      (w.chats.dcc.records.lookup id).map (DccManager.follow h oldNick newNick)) ∧
    (∀ id, (w.chats.handleNick h order connId oldNick newNick).dcc.chatSenders.lookup id =
      w.chats.dcc.chatSenders.lookup id) ∧
    ∀ key b, w.chats.state.buffer? key = some b →
      (w.chats.handleNick h order connId oldNick newNick).state.buffer? key = some b ∨
      (w.chats.handleNick h order connId oldNick newNick).state.buffer? key =
          some { b with id := key, name := Chats.bufferName newNick } ∧
        b.connectionId = connId ∧
        key = Store.makeBufferId h connId (Chats.bufferName newNick) := by
  have hfollowed := DccManager.followed_updateNick (h := h) (m := w.chats.dcc) order hw.keyed
    (fun id r hr hnick => (hharmless id r hr hnick).2.2.1)
  rw [Chats.handleNick]
  generalize w.chats.dcc.updateNick h order oldNick newNick = p at hfollowed ⊢
  obtain ⟨dcc, renames⟩ := p
  refine ⟨fun id => ?_, hfollowed.senders, fun key b hb => ?_⟩
  · have hrecord := hfollowed.records id
    simp only [List.not_mem_nil, if_false] at hrecord
    exact hrecord
  · rcases buffer?_renames (h := h) connId newNick (fun e he => (hfollowed.renames e he).1) hb with
      hkept | ⟨hrenamed, e, he, rfl⟩
    · exact .inl hkept
    · obtain ⟨-, r, hr, hnick⟩ := hfollowed.renames e he
      exact .inr ⟨hrenamed, (hharmless e.oldId r hr hnick).2.2.2 b hb⟩

theorem follows_nick (hw : InSync h w) {order : Order} {connId oldNick newNick : Str}
    (hharmless : Harmless h w (.nick order connId oldNick newNick)) :
    w.Follows h (.nick order connId oldNick newNick) := by
  obtain ⟨hrecords, -, hbuffers⟩ := handleNick_spec hw hharmless
  refine ⟨fun id r hr hconn => ?_, fun key b hb hconn => ?_⟩
  · rw [hrecords, hr, Option.map_some, DccManager.follow, if_neg]
    exact fun hnick => hconn (hharmless id r hr hnick).1
  · rcases hbuffers key b hb with hkept | ⟨-, hother, -⟩
    · exact hkept
    · exact absurd hother hconn

theorem InSync.nick (hname : ∀ s, h.toLowercase ('=' :: s) = '=' :: h.toLowercase s)
    (hw : InSync h w) {order : Order} {connId oldNick newNick : Str}
    (hharmless : Harmless h w (.nick order connId oldNick newNick)) :
    InSync h (w.step h (.nick order connId oldNick newNick)) := by
  obtain ⟨hrecords, hsenders, hbuffers⟩ := handleNick_spec hw hharmless
  have hof : ∀ r, DccManager.ofNick h oldNick r = true ↔
      h.toLowercase r.nick = h.toLowercase oldNick := fun r => decide_eq_true_iff
  -- a record and its peer are renamed together
  have hpeer : ∀ id r, w.chats.dcc.records.lookup id = some r →
      World.follow h connId oldNick newNick ⟨r.connId, r.nick⟩ =
        ⟨r.connId, (DccManager.follow h oldNick newNick r).nick⟩ := by
    intro id r hr
    rw [World.follow, DccManager.follow]
    by_cases hnick : DccManager.ofNick h oldNick r = true
    · rw [if_pos hnick, if_pos ⟨(hharmless id r hr hnick).1, (hof r).mp hnick⟩]
    · rw [if_neg hnick, if_neg (fun hboth => hnick ((hof r).mpr hboth.2))]
  have hfollow : ∀ r, (DccManager.follow h oldNick newNick r).id = r.id ∧
      (DccManager.follow h oldNick newNick r).state = r.state ∧
      (DccManager.follow h oldNick newNick r).session = r.session ∧
      (DccManager.follow h oldNick newNick r).connId = r.connId := by
    intro r
    rw [DccManager.follow]
    split_ifs <;> exact ⟨rfl, rfl, rfl, rfl⟩
  -- no peer gets a nick that is not the old one in another case
  have hcase : ∀ n p, w.peers n = some p →
      (World.follow h connId oldNick newNick p).connId = p.connId ∧
      h.toLowercase (World.follow h connId oldNick newNick p).nick = h.toLowercase p.nick := by
    intro n p hp
    rw [World.follow]
    split_ifs with hboth
    · obtain ⟨id, r, -, hr, hstate, hsession⟩ := hw.task n p hp
      have hown := (hw.record id r hr hstate).2
      rw [hsession, hp] at hown
      cases hown
      exact ⟨rfl, (hharmless id r hr ((hof r).mpr hboth.2)).2.1.trans hboth.2.symm⟩
    · exact ⟨rfl, rfl⟩
  refine ⟨fun id r' hr' => ?_, fun n p' hp' => ?_, fun id r' hr' hstate => ?_, fun n p' hp' => ?_⟩
  · obtain ⟨r, hr, rfl⟩ := Option.map_eq_some_iff.mp ((hrecords id).symm.trans hr')
    exact (hfollow r).1.trans (hw.keyed id r hr)
  · obtain ⟨p, hp, rfl⟩ := Option.map_eq_some_iff.mp hp'
    obtain ⟨id, r, htask, hr, hstate, hsession⟩ := hw.task n p hp
    refine ⟨id, DccManager.follow h oldNick newNick r, htask, ?_, (hfollow r).2.1.trans hstate,
      (hfollow r).2.2.1.trans hsession⟩
    exact (hrecords id).trans (by rw [hr]; rfl)
  · obtain ⟨r, hr, rfl⟩ := Option.map_eq_some_iff.mp ((hrecords id).symm.trans hr')
    obtain ⟨-, hsame, hsession, hconn⟩ := hfollow r
    obtain ⟨hsender, hown⟩ := hw.record id r hr (hsame.symm.trans hstate)
    rw [hsession, hconn]
    refine ⟨(hsenders id).trans hsender, ?_⟩
    rw [← hpeer id r hr]
    exact congrArg (Option.map (World.follow h connId oldNick newNick)) hown
  · obtain ⟨p, hp, rfl⟩ := Option.map_eq_some_iff.mp hp'
    obtain ⟨b, nick, hb, htype, hconn, hbname, hnick⟩ := hw.buffer n p hp
    obtain ⟨hpconn, hpnick⟩ := hcase n p hp
    have hkey : World.bufferOf h (World.follow h connId oldNick newNick p) =
        World.bufferOf h p := by
      rw [World.bufferOf, World.bufferOf, Store.makeBufferId, Store.makeBufferId, hpconn,
        Chats.bufferName, Chats.bufferName, hname, hname, hpnick]
    rw [hkey, hpconn, hpnick]
    rcases hbuffers _ b hb with hkept | ⟨hrenamed, hother, hid⟩
    · exact ⟨b, nick, hkept, htype, hconn, hbname, hnick⟩
    · refine ⟨_, newNick, hrenamed, htype, hconn, rfl, ?_⟩
      rw [World.bufferOf, Store.makeBufferId, Store.makeBufferId, ← hconn, hother,
        Chats.bufferName, Chats.bufferName, hname, hname] at hid
      have hcancel := List.append_cancel_left hid
      simp only [List.cons.injEq, true_and] at hcancel
      exact hcancel.symm

/-! ### Runs -/

theorem inSync_step (hname : ∀ s, h.toLowercase ('=' :: s) = '=' :: h.toLowercase s)
    (hw : InSync h w) {act : Chats.Act} (hharmless : Harmless h w act) :
    InSync h (w.step h act) := by
  cases act with
  | nick order connId oldNick newNick => exact hw.nick hname hharmless
  | line n messageType text =>
    simp only [World.step, Chats.step, Chats.handleLine]
    cases w.chats.reported n with
    | none => exact hw
    | some r => exact hw.post _ _ _ _
  | typed order bufferId text =>
    simp only [World.step, Chats.step, Chats.handleTyped]
    cases w.chats.handed h order bufferId with
    | none => exact hw
    | some n => exact hw.post _ _ _ _

theorem follows_step (hw : InSync h w) {act : Chats.Act} (hharmless : Harmless h w act) :
    w.Follows h act := by
  cases act with
  | nick order connId oldNick newNick => exact follows_nick hw hharmless
  | line n messageType text => exact follows_line hw n messageType text
  | typed order bufferId text => exact follows_typed hw hharmless

/-- **Chats follow their peers** through every run of harmless steps, from any set of sessions whose
names lead to the same session. -/
theorem follows_run (hname : ∀ s, h.toLowercase ('=' :: s) = '=' :: h.toLowercase s)
    (hw : InSync h w) (pre : List Chats.Act) (act : Chats.Act) (post : List Chats.Act)
    (hharmless : Run.Guarded (World.step h) (Harmless h) w (pre ++ act :: post)) :
    (Run.run (World.step h) w pre).Follows h act := by
  rw [Run.guarded_append] at hharmless
  have hsync : InSync h (Run.run (World.step h) w pre) :=
    Run.Guarded.invariant (P := InSync h) (fun w act hw hg => inSync_step hname hw hg) hw
      hharmless.1
  exact follows_step hsync hharmless.2.1

end Steps

/-! ### Samples -/

/-- A chat with `alice`. -/
def aliceChat : World where
  chats :=
    { dcc := Run.run (Dcc.step Store.sampleHost) DccManager.new
        [.register aliceOffers, .connect (str "alice") .connecting, .connected (str "alice")]
      state := Store.sampleStart.addBuffer
        (Store.freshBuffer Store.sampleHost (str "net") .dccChat (Chats.bufferName (str "alice")))
      tasks := fun n => if n = 0 then some (str "alice") else none }
  peers := fun n => if n = 0 then some ⟨str "net", str "alice"⟩ else none

theorem inSync_aliceChat : InSync Store.sampleHost aliceChat := by
  have hrow : ∀ id r, aliceChat.chats.dcc.records.lookup id = some r →
      id = str "alice" ∧
        r = { aliceOffers with id := str "alice", state := .connected } := by
    intro id r hr
    have hmem := Dict.mem_rows_iff_lookup.mpr hr
    cases List.mem_singleton.mp
      (show (id, r) ∈ [(str "alice",
        { aliceOffers with id := str "alice", state := .connected })] from hmem)
    exact ⟨rfl, rfl⟩
  have hpeer : ∀ n p, aliceChat.peers n = some p → n = 0 ∧ p = ⟨str "net", str "alice"⟩ := by
    intro n p hp
    simp only [aliceChat] at hp
    split_ifs at hp with hn
    exact ⟨hn, (Option.some.inj hp).symm⟩
  refine ⟨fun id r hr => ?_, fun n p hp => ?_, fun id r hr _ => ?_, fun n p hp => ?_⟩
  · obtain ⟨rfl, rfl⟩ := hrow id r hr
    rfl
  · obtain ⟨rfl, rfl⟩ := hpeer n p hp
    exact ⟨str "alice", _, rfl, rfl, rfl, rfl⟩
  · obtain ⟨rfl, rfl⟩ := hrow id r hr
    exact ⟨by decide, rfl⟩
  · obtain ⟨rfl, rfl⟩ := hpeer n p hp
    exact ⟨_, str "alice", rfl, rfl, rfl, rfl, rfl⟩

theorem sampleHost_toLowercase (s : Str) :
    Store.sampleHost.toLowercase ('=' :: s) = '=' :: Store.sampleHost.toLowercase s := rfl

/-- Only the case of the nick changes. -/
theorem follows_run_aliceChat :
    (Run.run (World.step Store.sampleHost) aliceChat
        [.nick insertionOrder (str "net") (str "alice") (str "Alice")]).Follows Store.sampleHost
      (.line 0 .message (str "hi")) := by
  refine follows_run sampleHost_toLowercase inSync_aliceChat
    [.nick insertionOrder (str "net") (str "alice") (str "Alice")] _ [] ⟨?_, trivial, trivial⟩
  intro id r hr _
  have hmem := Dict.mem_rows_iff_lookup.mpr hr
  cases List.mem_singleton.mp
    (show (id, r) ∈ [(str "alice",
      { aliceOffers with id := str "alice", state := .connected })] from hmem)
  refine ⟨rfl, by decide, by decide, fun b hb => ?_⟩
  cases show some (Store.freshBuffer Store.sampleHost (str "net") .dccChat
    (Chats.bufferName (str "alice"))) = some b from hb
  exact ⟨rfl, by decide⟩

/-- Once `alice` is called `bob`, what she says is dropped: her task goes by the old name. -/
theorem renamed_peer_is_lost : InSync Store.sampleHost aliceChat ∧
    ¬(Run.run (World.step Store.sampleHost) aliceChat
        [.nick insertionOrder (str "net") (str "alice") (str "bob")]).Follows Store.sampleHost
      (.line 0 .message (str "hi")) := by
  refine ⟨inSync_aliceChat, fun hfollows => ?_⟩
  obtain ⟨-, hline⟩ := hfollows ⟨str "net", str "bob"⟩ (by rfl)
  have hcount := congrArg (fun c => c.state.messageCounter) hline
  revert hcount
  decide

end Repartee.Dcc
