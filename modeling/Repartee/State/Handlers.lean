import Repartee.State.Writes

/-!
# The writes of the handlers

In two states that a connection cannot tell apart, a message of the connection makes the same
writes. What the handlers show, and where, is not compared.

## Main results

- `alike_modifyBuffer`, `alike_removeBuffer`, `alike_rekeyBuffer`, …: the operations
- `alike_handlePart`, `alike_handleKick`, `alike_handleNickChange`, …: the handlers
-/

set_option autoImplicit false

namespace Repartee

namespace Store

variable {h : Host} {connId : Str} {s t : State}

/-! ### Steps that only show something -/

theorem unseen_modifyBuffer (s : State) (id : Str) {f : Buffer → Buffer}
    (hf : ∀ b, (f b).roster = b.roster) : Unseen s (s.modifyBuffer id f) := by
  refine ⟨rfl, ?_, rfl⟩
  rw [State.rosters, State.rosters, State.modifyBuffer, Dict.modify, Table.updateWhere]
  simp only [List.map_map]
  refine List.map_congr_left (fun e _ => ?_)
  simp only [Function.comp]
  split_ifs
  · rw [hf]
  · rfl

theorem unseen_addMessageUnshrunk (s : State) (id : Str) (m : Message) :
    Unseen s (s.addMessageUnshrunk h id m) :=
  unseen_modifyBuffer s id (fun b => State.roster_receive h _ b m)

theorem unseen_setTopic (s : State) (id topic : Str) : Unseen s (s.setTopic id topic) :=
  unseen_modifyBuffer s id (fun _ => rfl)

theorem unseen_event (s : State) (id : Str) (e : State.Event) : Unseen s (s.event h id e) := by
  have hcounted : Unseen s { s with messageCounter := s.messageCounter + 1 } := ⟨rfl, rfl, rfl⟩
  exact hcounted.trans (unseen_ite (Unseen.refl _) (unseen_addMessageUnshrunk _ id _))

theorem unseen_eventIn (s : State) (ids : List Str) (e : State.Event) :
    Unseen s (s.eventIn h ids e) :=
  unseen_foldl (fun s id => unseen_event s id e) ids s

theorem unseen_showE2eLines (s : State) (lines : List E2eLine) :
    Unseen s (s.showE2eLines h lines) :=
  unseen_foldl (fun s _ => unseen_event s _ _) lines s

theorem unseen_showReplies (s : State) (code : Nat) (args : List Str) :
    Unseen s (s.showReplies h connId code args) :=
  unseen_foldl (fun s _ => unseen_event s _ _) (h.replyLines code args) s

theorem unseen_postChat (s : State) (shrunk : Bool) (id : Str) (m : Nat → Message) :
    Unseen s (s.postChat h shrunk id m) := by
  have hcounted : Unseen s { s with messageCounter := s.messageCounter + 1 } := ⟨rfl, rfl, rfl⟩
  exact unseen_ite hcounted (hcounted.trans (unseen_addMessageUnshrunk _ id _))

theorem unseen_copyMention (s : State) (target nick body : Str) :
    Unseen s (s.copyMention h connId target nick body) := by
  have hcounted : Unseen s { s with messageCounter := s.messageCounter + 1 } := ⟨rfl, rfl, rfl⟩
  rw [State.copyMention, State.addMentionToBuffer]
  apply hcounted.trans
  apply unseen_modifyBuffer
  intro b
  simp only [Buffer.roster]

theorem unseen_showChat (s : State) (bufferId ourNick nick target text body : Str)
    (messageType : MessageType) (shrunk : Bool) :
    Unseen s (s.showChat h connId bufferId ourNick nick target text body messageType shrunk) := by
  rw [State.showChat]
  have hposted := unseen_postChat (h := h) s shrunk bufferId (fun id =>
    ⟨id, messageType, some nick, s.nickPrefix h bufferId nick, text,
      decide (nick ≠ ourNick) && mentions h text ourNick, none, none⟩)
  exact unseen_ite (hposted.trans (unseen_copyMention _ target nick body)) hposted

theorem unseen_suppress (s : State) (bufferId : Str) (notice : Option Str) :
    Unseen s (s.suppress h bufferId notice) := by
  cases notice with
  | none => exact Unseen.refl s
  | some notice => exact unseen_event s bufferId _

theorem unseen_setActiveBuffer (s : State) (id : Str) : Unseen s (s.setActiveBuffer id) := by
  rw [State.setActiveBuffer]
  exact unseen_ite (Unseen.refl s) ⟨rfl, rfl, rfl⟩

theorem unseen_fallBack (s : State) : Unseen s (s.fallBack h) := by
  rw [State.fallBack]
  cases s.previousBufferId with
  | none => exact ⟨rfl, rfl, rfl⟩
  | some previous => exact unseen_ite ⟨rfl, rfl, rfl⟩ ⟨rfl, rfl, rfl⟩

/-! ### Operations -/

theorem writes_modifyBuffer {id : Str} {f : Buffer → Buffer}
    {g : Dict Str NickEntry → Dict Str NickEntry}
    (hf : ∀ b, (f b).roster = State.onUsers g b.roster)
    (hlocal : Local connId s.rosters id) :
    Edits h connId [.users (fun key r => if key = id then g r.users else r.users)] s
      (s.modifyBuffer id f) := by
  refine ⟨rfl, ?_, rfl⟩
  rw [List.foldl_cons, List.foldl_nil, Edit.rosters, State.rosters, State.modifyBuffer,
    Dict.modify, Table.updateWhere]
  simp only [State.rosters, List.map_map]
  refine List.map_congr_left (fun e he => ?_)
  simp only [Function.comp, decide_eq_true_eq]
  by_cases hid : e.1 = id
  · have hconn : e.2.roster.connectionId = connId := by
      apply hlocal
      rw [← hid]
      exact List.mem_map.mpr ⟨e, he, rfl⟩
    rw [if_pos hid, if_pos hconn, if_pos hid, hf]
    rfl
  · rw [if_neg hid, if_neg hid]
    split_ifs <;> rfl

theorem alike_modifyBuffer {id : Str} {f f' : Buffer → Buffer}
    {g : Dict Str NickEntry → Dict Str NickEntry}
    (hf : ∀ b, (f b).roster = State.onUsers g b.roster)
    (hf' : ∀ b, (f' b).roster = State.onUsers g b.roster) (hs : Local connId s.rosters id)
    (ht : Local connId t.rosters id) :
    Alike h connId s t (s.modifyBuffer id f) (t.modifyBuffer id f') :=
  ⟨_, writes_modifyBuffer hf hs, writes_modifyBuffer hf' ht⟩

theorem alike_addNick {id : Str} (hs : Local connId s.rosters id) (ht : Local connId t.rosters id)
    (entry : NickEntry) : Alike h connId s t (s.addNick h id entry) (t.addNick h id entry) :=
  alike_modifyBuffer (g := fun users => users.insert (h.toLowercase entry.nick) entry)
    (fun _ => rfl) (fun _ => rfl) hs ht

theorem alike_removeNick {id : Str} (hs : Local connId s.rosters id)
    (ht : Local connId t.rosters id) (nick : Str) :
    Alike h connId s t (s.removeNick h id nick) (t.removeNick h id nick) :=
  alike_modifyBuffer (g := fun users => users.erase (h.toLowercase nick))
    (fun _ => rfl) (fun _ => rfl) hs ht

theorem roster_updateNick_eq (b : Buffer) (oldNick newNick : Str) :
    (b.updateNick h oldNick newNick).roster =
      State.onUsers (State.renameUser h oldNick newNick) b.roster := by
  rw [Buffer.updateNick]
  simp only [State.onUsers, State.renameUser, Buffer.roster]
  cases b.users.lookup (h.toLowercase oldNick) <;> rfl

theorem alike_updateNick {id : Str} (hs : Local connId s.rosters id)
    (ht : Local connId t.rosters id) (oldNick newNick : Str) :
    Alike h connId s t (s.updateNick h id oldNick newNick) (t.updateNick h id oldNick newNick) :=
  alike_modifyBuffer (fun b => roster_updateNick_eq b oldNick newNick)
    (fun b => roster_updateNick_eq b oldNick newNick) hs ht

theorem alike_updateEntry {id : Str} (hs : Local connId s.rosters id)
    (ht : Local connId t.rosters id) (key : Str) (f : NickEntry → NickEntry) :
    Alike h connId s t (s.modifyBuffer id (fun b => b.updateEntry key f))
      (t.modifyBuffer id (fun b => b.updateEntry key f)) :=
  alike_modifyBuffer (g := fun users => users.modify key f) (fun _ => rfl) (fun _ => rfl) hs ht

theorem alike_removeNickFrom (hagree : Agree h connId s t) {ids : List Str}
    (hs : ∀ id ∈ ids, Local connId s.rosters id) (ht : ∀ id ∈ ids, Local connId t.rosters id)
    (nick : Str) :
    Alike h connId s t (s.removeNickFrom h ids nick) (t.removeNickFrom h ids nick) :=
  alike_foldl_local (fun _ _ hs ht => alike_removeNick hs ht nick) hagree hs ht

theorem writes_modifyBuffersOf (s : State) {f : Buffer → Buffer}
    {g : Roster → Dict Str NickEntry}
    (hf : ∀ b, (f b).roster = { b.roster with users := g b.roster }) :
    Edits h connId [.users (fun _ r => g r)] s (s.modifyBuffersOf connId f) := by
  refine ⟨rfl, ?_, rfl⟩
  rw [List.foldl_cons, List.foldl_nil, Edit.rosters, State.rosters, State.modifyBuffersOf,
    Dict.mapValues, Table.updateWhere]
  simp only [State.rosters, List.map_map]
  refine List.map_congr_left (fun e _ => ?_)
  simp only [Function.comp]
  by_cases hconn : e.2.connectionId = connId
  · rw [if_pos (show e.2.roster.connectionId = connId from hconn)]
    simp only [if_pos hconn, if_true, hf]
  · rw [if_neg (show e.2.roster.connectionId ≠ connId from hconn)]
    simp only [if_neg hconn, if_true]

theorem alike_modifyBuffersOf (s t : State) {f : Buffer → Buffer} {g : Roster → Dict Str NickEntry}
    (hf : ∀ b, (f b).roster = { b.roster with users := g b.roster }) :
    Alike h connId s t (s.modifyBuffersOf connId f) (t.modifyBuffersOf connId f) :=
  ⟨_, writes_modifyBuffersOf s hf, writes_modifyBuffersOf t hf⟩

theorem alike_modifyConnection (s t : State) (f : Connection → Connection) :
    Alike h connId s t (s.modifyConnection connId f) (t.modifyConnection connId f) :=
  ⟨[.connection f], ⟨rfl, rfl, rfl⟩, ⟨rfl, rfl, rfl⟩⟩

/-- Where the buffers are in their places, the row with an id is the one of the connection. -/
theorem filter_isOf {rows : Rosters} {id : Str} (hlocal : Local connId rows id) :
    rows.filter (fun e => !isOf connId id e) = rows.filter (fun e => !decide (e.1 = id)) := by
  refine List.filter_congr (fun e he => ?_)
  rw [isOf]
  by_cases hid : e.1 = id
  · have hconn : e.2.connectionId = connId := hlocal e.2 (hid ▸ he)
    rw [decide_eq_true hid, decide_eq_true hconn]
    rfl
  · rw [decide_eq_false hid, Bool.and_false]

theorem rosters_insert (d : Dict Str Buffer) (id : Str) (b : Buffer) :
    ((d.insert id b).rows.map (fun e => (e.1, e.2.roster)) : Rosters) =
      (d.rows.map (fun e => (e.1, e.2.roster))).filter (fun e => !decide (e.1 = id)) ++
        [(id, b.roster)] := by
  rw [Dict.insert, Table.replace, List.filter_map]
  simp only [List.map_append, List.map_cons, List.map_nil]
  rfl

theorem rosters_erase (d : Dict Str Buffer) (id : Str) :
    ((d.erase id).rows.map (fun e => (e.1, e.2.roster)) : Rosters) =
      (d.rows.map (fun e => (e.1, e.2.roster))).filter (fun e => !decide (e.1 = id)) := by
  rw [Dict.erase, Table.deleteWhere, List.filter_map]
  rfl

theorem writes_addBuffer {b : Buffer} {key : Str} (hconn : b.connectionId = connId)
    (hid : b.id = makeBufferId h connId key)
    (hlocal : Local connId s.rosters (makeBufferId h connId key)) :
    Edits h connId [.opens key b.bufferType b.name b.users] s (s.addBuffer b) := by
  refine ⟨rfl, ?_, rfl⟩
  rw [List.foldl_cons, List.foldl_nil, Edit.rosters, filter_isOf hlocal, State.rosters,
    State.addBuffer, rosters_insert, hid, Buffer.roster, hconn]
  rfl

theorem alike_addBuffer (hagree : Agree h connId s t) {b : Buffer} {key : Str}
    (hconn : b.connectionId = connId) (hid : b.id = makeBufferId h connId key) :
    Alike h connId s t (s.addBuffer b) (t.addBuffer b) :=
  ⟨_, writes_addBuffer hconn hid (hagree.left key), writes_addBuffer hconn hid (hagree.right key)⟩

theorem rosters_removeBuffer (s : State) (id : Str) :
    (s.removeBuffer h id).rosters = s.rosters.filter (fun e => !decide (e.1 = id)) := by
  rw [State.removeBuffer]
  by_cases hmissing : s.hasBuffer id = true
  · rw [if_neg (by rw [hmissing]; decide)]
    simp only
    have herased := rosters_erase s.buffers id
    by_cases hactive : s.activeBufferId = some id
    · rw [if_pos hactive, (unseen_fallBack _).rosters]
      exact herased
    · rw [if_neg hactive]
      exact herased
  · rw [if_pos (by simpa using hmissing)]
    -- there is no such row
    refine (List.filter_eq_self.mpr (fun e he => ?_)).symm
    by_contra hid
    have hkey : e.1 = id := by simpa using hid
    apply hmissing
    have hroster : s.roster id = some e.2 := s.mem_rosters.mp (hkey ▸ he)
    rw [State.hasBuffer, ← Option.isSome_map (f := Buffer.roster)]
    exact Option.isSome_iff_exists.mpr ⟨e.2, hroster⟩

theorem connections_removeBuffer (s : State) (id : Str) :
    (s.removeBuffer h id).connections = s.connections := by
  rw [State.removeBuffer]
  split_ifs
  · rfl
  · exact (unseen_fallBack _).connections
  · rfl

theorem gates_removeBuffer (s : State) (id : Str) : (s.removeBuffer h id).gates = s.gates := by
  rw [State.removeBuffer]
  split_ifs
  · rfl
  · exact (unseen_fallBack _).gates
  · rfl

theorem writes_removeBuffer {id : Str} (hlocal : Local connId s.rosters id) :
    Edits h connId [.closes id] s (s.removeBuffer h id) := by
  refine ⟨connections_removeBuffer s id, ?_, gates_removeBuffer s id⟩
  rw [List.foldl_cons, List.foldl_nil, Edit.rosters, filter_isOf hlocal, rosters_removeBuffer]

theorem alike_removeBuffer {id : Str} (hs : Local connId s.rosters id)
    (ht : Local connId t.rosters id) :
    Alike h connId s t (s.removeBuffer h id) (t.removeBuffer h id) :=
  ⟨_, writes_removeBuffer hs, writes_removeBuffer ht⟩

theorem writes_rekeyBuffer {id : Str} {b : Buffer} (hb : s.buffer? id = some b)
    (hlocal : Local connId s.rosters id) {newKey : Str}
    (hnew : Local connId s.rosters (makeBufferId h connId newKey)) (newName : Str) :
    Edits h connId [.closes id, .opens newKey b.bufferType newName b.users] s
      (s.rekeyBuffer id (makeBufferId h connId newKey) newName) := by
  have hconn : b.connectionId = connId :=
    hlocal b.roster (s.mem_rosters.mpr (by rw [State.roster, hb]; rfl))
  rw [State.rekeyBuffer, hb]
  refine ⟨rfl, ?_, rfl⟩
  rw [List.foldl_cons, List.foldl_cons, List.foldl_nil]
  have hclosed := hnew.write (h := h) (.closes id)
  rw [Edit.rosters, filter_isOf hclosed, Edit.rosters, filter_isOf hlocal]
  rw [State.rosters]
  simp only
  rw [rosters_insert, rosters_erase, Buffer.roster, hconn]
  rfl

theorem alike_rekeyBuffer (hagree : Agree h connId s t) {id : Str} (hs : Local connId s.rosters id)
    (ht : Local connId t.rosters id) (newKey newName : Str) :
    Alike h connId s t (s.rekeyBuffer id (makeBufferId h connId newKey) newName)
      (t.rekeyBuffer id (makeBufferId h connId newKey) newName) := by
  have hroster := hagree.roster hs ht
  rw [State.roster, State.roster] at hroster
  cases hb : s.buffer? id with
  | none =>
    rw [hb, Option.map_none, eq_comm, Option.map_eq_none_iff] at hroster
    rw [s.rekeyBuffer_of_none hb, t.rekeyBuffer_of_none hroster]
    exact Alike.refl s t
  | some b =>
    rw [hb, Option.map_some, eq_comm, Option.map_eq_some_iff] at hroster
    obtain ⟨b', hb', heq⟩ := hroster
    have hwt := writes_rekeyBuffer (h := h) hb' ht (hagree.right newKey) newName
    have htype : b'.bufferType = b.bufferType := congrArg Roster.bufferType heq
    have husers : b'.users = b.users := congrArg Roster.users heq
    rw [htype, husers] at hwt
    exact ⟨_, writes_rekeyBuffer hb hs (hagree.left newKey) newName, hwt⟩

/-! ### Handlers -/

theorem unseen_handleNotice (s : State) (ourNick : Str) (msg : IrcMessage) (target text : Str)
    (a : Arrival) : Unseen s (s.handleNotice h connId ourNick msg target text a) := by
  rw [State.handleNotice]
  refine unseen_ite (Unseen.refl s) ?_
  cases a.dispatched with
  | some lines => exact unseen_showE2eLines s lines
  | none => exact unseen_postChat s _ _ _

theorem unseen_handleTopic (s : State) (msg : IrcMessage) (channel : Str) (topic : Option Str) :
    Unseen s (s.handleTopic h connId msg channel topic) := by
  cases topic with
  | none => exact Unseen.refl s
  | some topic => exact (unseen_setTopic s _ topic).trans (unseen_event _ _ _)

theorem unseen_handleInvite (s : State) (ourNick : Str) (msg : IrcMessage) (nick channel : Str) :
    Unseen s (s.handleInvite h connId ourNick msg nick channel) :=
  unseen_ite (unseen_event s _ _) (unseen_ite (unseen_event s _ _) (Unseen.refl s))

theorem alike_openChannel (hagree : Agree h connId s t) (channel : Str) :
    Alike h connId s t (s.openChannel h connId channel) (t.openChannel h connId channel) := by
  have hs := hagree.left channel
  have ht := hagree.right channel
  rw [State.openChannel, State.openChannel, hagree.hasBuffer hs ht]
  refine Alike.unseen ?_ (unseen_setActiveBuffer _ _) (unseen_setActiveBuffer _ _)
  split_ifs
  · exact alike_modifyBuffer (g := fun _ => Table.empty) (fun _ => rfl) (fun _ => rfl) hs ht
  · exact alike_addBuffer hagree rfl (rfl : _ = makeBufferId h connId channel)

theorem alike_forgetQueries (s t : State) (channel : Str) :
    Alike h connId s t (s.forgetQueries connId channel) (t.forgetQueries connId channel) :=
  alike_modifyConnection s t _

theorem alike_handlePart (hagree : Agree h connId s t) (ourNick : Str) (msg : IrcMessage)
    (channel : Str) (reason : Option Str) :
    Alike h connId s t (s.handlePart h connId ourNick msg channel reason)
      (t.handlePart h connId ourNick msg channel reason) := by
  have hs := hagree.left channel
  have ht := hagree.right channel
  rw [State.handlePart, State.handlePart]
  generalize extractNickUserhost msg.sender = sender
  obtain ⟨nick, ident, host⟩ := sender
  simp only
  by_cases hown : nick = ourNick
  · rw [if_pos hown, if_pos hown]
    exact (alike_removeBuffer hs ht).trans (alike_forgetQueries _ _ channel)
  · rw [if_neg hown, if_neg hown]
    exact (alike_removeNick hs ht nick).unseen (unseen_ite (Unseen.refl _) (unseen_event _ _ _))
      (unseen_ite (Unseen.refl _) (unseen_event _ _ _))

/-- A channel is closed after something has been shown. -/
theorem alike_closeChannel (hagree : Agree h connId s t) {s₁ t₁ : State} (hs : Unseen s s₁)
    (ht : Unseen t t₁) (channel : Str) :
    Alike h connId s t (s₁.removeBuffer h (makeBufferId h connId channel))
      (t₁.removeBuffer h (makeBufferId h connId channel)) := by
  have hagree₁ := hagree.unseen hs ht
  exact (alike_of_unseen hs ht).trans
    (alike_removeBuffer (hagree₁.left channel) (hagree₁.right channel))

/-- The lines about a kick, and where they are shown, are not compared. -/
theorem alike_kicked (hagree : Agree h connId s t) (ourNick kicker channel reason : Str) :
    Alike h connId s t (s.kicked h connId ourNick kicker channel reason)
      (t.kicked h connId ourNick kicker channel reason) := by
  have htold : ∀ u : State, ∀ id id' e, Unseen u ((u.event h id e).event h id' e) :=
    fun u id id' e => (unseen_event u id e).trans (unseen_event _ id' e)
  have hlanded : ∀ u : State, ∀ (p : Prop) [Decidable p] id e,
      Unseen u (if p then u.event h id e else u) :=
    fun u p _ id e => unseen_ite (unseen_event u id e) (Unseen.refl u)
  rw [State.kicked, State.kicked]
  exact ((alike_closeChannel hagree (htold s _ _ _) (htold t _ _ _) channel).unseen
    (hlanded _ _ _ _) (hlanded _ _ _ _)).trans (alike_forgetQueries _ _ channel)

theorem alike_handleKick (hagree : Agree h connId s t) (ourNick : Str) (msg : IrcMessage)
    (channel kickedUser : Str) (reason : Option Str) :
    Alike h connId s t (s.handleKick h connId ourNick msg channel kickedUser reason)
      (t.handleKick h connId ourNick msg channel kickedUser reason) := by
  have hs := hagree.left channel
  have ht := hagree.right channel
  rw [State.handleKick, State.handleKick]
  generalize extractNickUserhost msg.sender = sender
  obtain ⟨kicker, ident, host⟩ := sender
  simp only [hagree.ignored]
  have hremoved := alike_removeNick (h := h) hs ht kickedUser
  split_ifs with hignored hown
  · exact hremoved
  · exact alike_kicked hagree ourNick kicker channel _
  · exact hremoved.unseen (unseen_event _ _ _) (unseen_event _ _ _)

theorem unseen_changeNickIn (s : State) (ourNick oldNick newNick : Str) (now : Nat) (id : Str) :
    Unseen (s.updateNick h id oldNick newNick)
      (s.changeNickIn h ourNick oldNick newNick now id) := by
  rw [State.changeNickIn]
  -- the windows of the nick changes are not compared
  have hflood : ∀ u : State, ∀ f, f.shared = u.floodState.shared →
      Unseen u { u with floodState := f } := by
    intro u f hf
    refine ⟨rfl, rfl, ?_⟩
    rw [State.gates, State.gates, hf]
  have hshared : ∀ u : State,
      (if u.floodProtection && decide (oldNick ≠ ourNick) then
        u.floodState.shouldSuppressNickFlood id now else (false, u.floodState)).2.shared =
        u.floodState.shared := by
    intro u
    split_ifs <;> rfl
  exact (hflood _ _ (hshared _)).trans (unseen_ite (Unseen.refl _) (unseen_event _ _ _))

theorem alike_changeNickIn {id : Str} (hs : Local connId s.rosters id)
    (ht : Local connId t.rosters id) (ourNick oldNick newNick : Str) (now : Nat) :
    Alike h connId s t (s.changeNickIn h ourNick oldNick newNick now id)
      (t.changeNickIn h ourNick oldNick newNick now id) :=
  (alike_updateNick hs ht oldNick newNick).unseen (unseen_changeNickIn s _ _ _ now id)
    (unseen_changeNickIn t _ _ _ now id)

theorem alike_renameQuery (hagree : Agree h connId s t) {id : Str} (hs : Local connId s.rosters id)
    (ht : Local connId t.rosters id) (newNick : Str) :
    Alike h connId s t (s.renameQuery h connId newNick id) (t.renameQuery h connId newNick id) := by
  have hquery : ∀ u : State, (u.buffer? id).any (fun b => b.bufferType = .query) =
      (u.roster id).any (fun r => r.bufferType = .query) := by
    intro u
    rw [State.roster, Option.any_map]
    rfl
  rw [State.renameQuery, State.renameQuery, hquery, hquery, hagree.roster hs ht]
  split_ifs
  · exact alike_rekeyBuffer hagree hs ht newNick newNick
  · exact Alike.refl s t

/-- The buffers of a nick are written one after the other, and then its queries are renamed. -/
theorem alike_changeNicks (hagree : Agree h connId s t) {f : State → Str → State}
    (hf : ∀ {s t} id, Agree h connId s t → Local connId s.rosters id →
      Local connId t.rosters id → Alike h connId s t (f s id) (f t id))
    {ids : List Str} (hs : ∀ id ∈ ids, Local connId s.rosters id)
    (ht : ∀ id ∈ ids, Local connId t.rosters id) (newNick : Str) :
    Alike h connId s t ((ids.foldl f s).renameQueryBuffers h connId newNick ids)
      ((ids.foldl f t).renameQueryBuffers h connId newNick ids) := by
  have hchanged := alike_foldl_local hf hagree hs ht
  have hagree' := hagree.step hchanged
  obtain ⟨ws, hws, hwt⟩ := hchanged
  refine Alike.trans ⟨ws, hws, hwt⟩ (alike_foldl_local
    (fun id hagree hs ht => alike_renameQuery hagree hs ht newNick) hagree' ?_ ?_)
  · exact fun id hid => hws.local (hs id hid)
  · exact fun id hid => hwt.local (ht id hid)

theorem alike_handleNickChange (hagree : Agree h connId s t) (ourNick : Str) (msg : IrcMessage)
    (newNick : Str) (now : Nat) :
    Alike h connId s t (s.handleNickChange h connId ourNick msg newNick now)
      (t.handleNickChange h connId ourNick msg newNick now) := by
  rw [State.handleNickChange, State.handleNickChange]
  generalize extractNickUserhost msg.sender = sender
  obtain ⟨_, ident, host⟩ := sender
  generalize (extractNick msg.sender).getD [] = oldNick
  simp only [hagree.ignored]
  by_cases hignored : oldNick ≠ ourNick ∧ t.ignored h oldNick ident host .nicks none = true
  · rw [if_pos hignored, if_pos hignored, hagree.buffersOfNick]
    refine alike_changeNicks hagree
      (fun id _ hs ht => alike_updateNick hs ht oldNick newNick) (fun id hid => ?_)
      (fun id hid => local_of_mem_buffersOfNick hid) newNick
    exact local_of_mem_buffersOfNick (by rwa [hagree.buffersOfNick])
  · rw [if_neg hignored, if_neg hignored]
    have hrenamed : Alike h connId s t
        (if oldNick = ourNick then s.modifyConnection connId (fun c => { c with nick := newNick })
          else s)
        (if oldNick = ourNick then t.modifyConnection connId (fun c => { c with nick := newNick })
          else t) := by
      split_ifs
      · exact alike_modifyConnection s t _
      · exact Alike.refl s t
    refine hrenamed.trans ?_
    have hagree' := hagree.step hrenamed
    rw [hagree'.buffersOfNick]
    refine alike_changeNicks hagree'
      (fun id _ hs ht => alike_changeNickIn hs ht ourNick oldNick newNick now)
      (fun id hid => ?_) (fun id hid => local_of_mem_buffersOfNick hid) newNick
    exact local_of_mem_buffersOfNick (by rwa [hagree'.buffersOfNick])

theorem alike_handleChannelMode (hagree : Agree h connId s t) (msg : IrcMessage) (target : Str)
    (modes : List ModeChange) :
    Alike h connId s t (s.handleChannelMode h connId msg target modes)
      (t.handleChannelMode h connId msg target modes) := by
  have happlied := @alike_foldl h connId s t ModeChange
    (fun s m => s.applyChannelMode h (makeBufferId h connId target) m)
    (fun s m => s.applyChannelMode h (makeBufferId h connId target) m)
    (fun {s t} m hagree => ?_) modes hagree
  · exact happlied.unseen (unseen_event _ _ _) (unseen_event _ _ _)
  · rw [State.applyChannelMode, State.applyChannelMode]
    cases m.adding with
    | none => exact Alike.refl s t
    | some adding =>
      cases m.param with
      | none => exact Alike.refl s t
      | some nick =>
        simp only
        split_ifs
        · exact alike_updateEntry (hagree.left target) (hagree.right target) _ _
        · exact Alike.refl s t

theorem alike_updateEntries (s t : State) (nick : Str) (f : NickEntry → NickEntry) :
    Alike h connId s t (s.updateEntries h connId nick f) (t.updateEntries h connId nick f) :=
  alike_modifyBuffersOf s t (g := fun r => r.users.modify (h.toLowercase nick) f) (fun _ => rfl)

theorem alike_handleAccount (s t : State) (msg : IrcMessage) (account : Str) :
    Alike h connId s t (s.handleAccount h connId msg account)
      (t.handleAccount h connId msg account) := by
  rw [State.handleAccount, State.handleAccount]
  cases extractNick msg.sender with
  | none => exact Alike.refl s t
  | some nick =>
    exact (alike_updateEntries s t nick _).unseen (unseen_eventIn _ _ _) (unseen_eventIn _ _ _)

theorem alike_handleAway (s t : State) (msg : IrcMessage) (reason : Option Str) :
    Alike h connId s t (s.handleAway h connId msg reason)
      (t.handleAway h connId msg reason) := by
  rw [State.handleAway, State.handleAway]
  cases extractNick msg.sender with
  | none => exact Alike.refl s t
  | some nick => exact alike_updateEntries s t nick _

theorem alike_handleChghost (s t : State) (msg : IrcMessage) (newUser newHost : Str) :
    Alike h connId s t (s.handleChghost h connId msg newUser newHost)
      (t.handleChghost h connId msg newUser newHost) := by
  rw [State.handleChghost, State.handleChghost]
  cases extractNick msg.sender with
  | none => exact Alike.refl s t
  | some nick =>
    exact (alike_updateEntries s t nick _).unseen (unseen_eventIn _ _ _) (unseen_eventIn _ _ _)

/-! ### Numerics -/

theorem alike_addNicks (hagree : Agree h connId s t) {α : Type} (channel : Str)
    (entry : α → NickEntry) (l : List α) :
    Alike h connId s t
      (l.foldl (fun s a => s.addNick h (makeBufferId h connId channel) (entry a)) s)
      (l.foldl (fun s a => s.addNick h (makeBufferId h connId channel) (entry a)) t) :=
  alike_foldl (fun a hagree => alike_addNick (hagree.left channel) (hagree.right channel) (entry a))
    l hagree

theorem alike_handleNames (hagree : Agree h connId s t) (channel names : Str) :
    Alike h connId s t (s.handleNames h connId channel names)
      (t.handleNames h connId channel names) := by
  rw [State.handleNames, State.handleNames, hagree.connection]
  exact alike_addNicks hagree channel _ (Text.splitWhitespace names)

theorem alike_updateLabelFromNetwork (hagree : Agree h connId s t) (network : Str) :
    Alike h connId s t (s.updateLabelFromNetwork h connId network)
      (t.updateLabelFromNetwork h connId network) := by
  rw [State.updateLabelFromNetwork, State.updateLabelFromNetwork, hagree.connection]
  cases t.connection? connId with
  | none => exact Alike.refl s t
  | some c =>
    simp only
    split_ifs
    · exact Alike.refl s t
    · have hlabelled := @alike_modifyConnection h connId s t
        (fun c => { c with label := network })
      have hagree' := hagree.step hlabelled
      exact hlabelled.trans (alike_rekeyBuffer hagree' (hagree'.left c.label)
        (hagree'.right c.label) network network)

theorem alike_handleIsupport (hagree : Agree h connId s t) (tokens : List Str) :
    Alike h connId s t (s.handleIsupport h connId tokens) (t.handleIsupport h connId tokens) := by
  have hparsed := @alike_modifyConnection h connId s t
    (fun c => { c with isupport := tokens.foldl Isupport.parseToken c.isupport })
  have hagree' := hagree.step hparsed
  rw [State.handleIsupport, State.handleIsupport]
  simp only [hagree'.connection]
  refine hparsed.trans ?_
  split
  · exact Alike.refl _ _
  next network _ => exact alike_updateLabelFromNetwork hagree' network

theorem alike_handleJoinFailure (hagree : Agree h connId s t) (args : List Str) :
    Alike h connId s t (s.handleJoinFailure h connId args)
      (t.handleJoinFailure h connId args) := by
  rw [State.handleJoinFailure, State.handleJoinFailure]
  generalize (args[1]?).getD ['?'] = channel
  generalize (args[2]?).getD (str "Cannot join channel") = reason
  have htold : Alike h connId s t _ _ := alike_of_unseen
    (unseen_event (h := h) s (s.serverBuffer h connId)
      (plainEvent (str "%Zff6b6bCannot join " ++ channel ++ str ": " ++ reason ++ str "%N")))
    (unseen_event (h := h) t (t.serverBuffer h connId)
      (plainEvent (str "%Zff6b6bCannot join " ++ channel ++ str ": " ++ reason ++ str "%N")))
  have hagree' := hagree.step htold
  have hs := hagree'.left channel
  have ht := hagree'.right channel
  have hvacant : ∀ u : State, ∀ id, (u.buffer? id).any (fun b => b.users.rows.isEmpty) =
      (u.roster id).any (fun r => r.users.rows.isEmpty) := by
    intro u id
    rw [State.roster, Option.any_map]
    rfl
  rw [hvacant, hvacant, hagree'.roster hs ht]
  split_ifs
  · exact htold.trans (alike_removeBuffer hs ht)
  · exact htold

theorem alike_handleWhoxReply (hagree : Agree h connId s t) (args : List Str) :
    Alike h connId s t (s.handleWhoxReply h connId args) (t.handleWhoxReply h connId args) := by
  rw [State.handleWhoxReply.eq_def, State.handleWhoxReply.eq_def]
  split
  next channel user _ host nick flags account _ _ =>
    have hupdated := alike_updateEntry (h := h) (hagree.left channel) (hagree.right channel)
      (h.toLowercase nick) (State.NickEntry.noteWhox user host flags account)
    refine hupdated.unseen ?_ ?_
    · exact unseen_ite (Unseen.refl _) (unseen_showReplies _ _ _)
    · exact unseen_ite (Unseen.refl _) (unseen_showReplies _ _ _)
  · exact Alike.refl s t

theorem alike_handleResponse (hagree : Agree h connId s t) (code : Nat) (args : List Str)
    (a : Arrival) :
    Alike h connId s t (s.handleResponse h connId code args a)
      (t.handleResponse h connId code args a) := by
  have hshown : ∀ u : State, ∀ silent : Bool,
      Unseen u (if silent = true then u else u.showReplies h connId code args) :=
    fun u silent => unseen_ite (Unseen.refl u) (unseen_showReplies u code args)
  rw [State.handleResponse.eq_def, State.handleResponse.eq_def]
  split
  · split_ifs
    · exact alike_handleIsupport hagree _
    · exact Alike.refl s t
  · split
    · exact alike_of_unseen (unseen_setTopic s _ _) (unseen_setTopic t _ _)
    · exact Alike.refl s t
  · split
    · exact alike_handleNames hagree _ _
    · exact Alike.refl s t
  iterate 5 exact alike_handleJoinFailure hagree args
  · exact (alike_modifyConnection s t _).unseen (hshown _ _) (hshown _ _)
  iterate 4 exact (alike_modifyConnection s t _).unseen (hshown _ _) (hshown _ _)
  iterate 3 exact alike_of_unseen (hshown s _) (hshown t _)
  · exact alike_handleWhoxReply hagree args
  · cases a.dispatched with
    | none => exact Alike.refl s t
    | some lines =>
      exact alike_of_unseen (unseen_showE2eLines s lines) (unseen_showE2eLines t lines)
  · exact alike_of_unseen (unseen_showReplies s code args) (unseen_showReplies t code args)

/-! ### Batches and connections -/

/-- The state, the nicks and the buffers of a batch in two runs. -/
def AlikeBatch (h : Host) (connId : Str) (s t : State) (p q : State.BatchProgress) : Prop :=
  Alike h connId s t p.1 q.1 ∧ p.2 = q.2

/-- A loop over a batch whose steps make the same writes. -/
theorem alikeBatch_foldl (hagree : Agree h connId s t)
    {f : State.BatchProgress → IrcMessage → State.BatchProgress}
    (hf : ∀ {s t} l msg, Agree h connId s t → AlikeBatch h connId s t (f (s, l) msg) (f (t, l) msg))
    (msgs : List IrcMessage) (l : List Str × List Str) :
    AlikeBatch h connId s t (msgs.foldl f (s, l)) (msgs.foldl f (t, l)) := by
  induction msgs generalizing s t l with
  | nil => exact ⟨Alike.refl s t, rfl⟩
  | cons msg msgs ih =>
    obtain ⟨hfirst, heq⟩ := hf l msg hagree
    rw [List.foldl_cons, List.foldl_cons]
    generalize f (s, l) msg = p at hfirst heq ⊢
    generalize f (t, l) msg = q at hfirst heq ⊢
    obtain ⟨s₁, l₁⟩ := p
    obtain ⟨t₁, l₂⟩ := q
    cases heq
    obtain ⟨hrest, heq⟩ := ih (hagree.step hfirst) l₁
    exact ⟨hfirst.trans hrest, heq⟩

theorem alike_postSummary {p q : State.BatchProgress} (hbatch : AlikeBatch h connId s t p q)
    (key title verb : Str) (batch : BatchInfo) :
    Alike h connId s t (State.postSummary h key title verb batch p)
      (State.postSummary h key title verb batch q) := by
  have hposted : ∀ p : State.BatchProgress,
      Unseen p.1 (State.postSummary h key title verb batch p) :=
    fun p => unseen_ite (Unseen.refl p.1) (unseen_eventIn _ _ _)
  exact hbatch.1.unseen (hposted p) (hposted q)

theorem alike_processNetsplitBatch (hagree : Agree h connId s t) (batch : BatchInfo) :
    Alike h connId s t (s.processNetsplitBatch h connId batch)
      (t.processNetsplitBatch h connId batch) := by
  refine alike_postSummary (alikeBatch_foldl hagree (fun {s t} l msg hagree => ?_) _ _) _ _ _ batch
  rw [State.splitQuit, State.splitQuit]
  split
  next nick _ _ =>
    simp only [hagree.buffersWith]
    refine ⟨alike_removeNickFrom hagree (fun id hid => ?_)
      (fun id hid => local_of_mem_buffersWith hid) _, rfl⟩
    exact local_of_mem_buffersWith (by rwa [hagree.buffersWith])
  · exact ⟨Alike.refl s t, rfl⟩

theorem alike_processNetjoinBatch (hagree : Agree h connId s t) (batch : BatchInfo) :
    Alike h connId s t (s.processNetjoinBatch h connId batch)
      (t.processNetjoinBatch h connId batch) := by
  refine alike_postSummary (alikeBatch_foldl hagree (fun {s t} l msg hagree => ?_) _ _) _ _ _ batch
  rw [State.splitJoin, State.splitJoin]
  split
  next channel account _ _ =>
    exact ⟨alike_addNick (hagree.left channel) (hagree.right channel) _, rfl⟩
  · exact ⟨Alike.refl s t, rfl⟩

theorem alike_handleConnected (s t : State) :
    Alike h connId s t (s.handleConnected h connId) (t.handleConnected h connId) :=
  (alike_modifyConnection s t _).unseen (unseen_event _ _ _) (unseen_event _ _ _)

theorem alike_handleDisconnected (s t : State) (error : Option Str) (reconnect : Str) :
    Alike h connId s t (s.handleDisconnected h connId error reconnect)
      (t.handleDisconnected h connId error reconnect) := by
  refine (alike_modifyBuffersOf s t
    (g := fun r => if r.bufferType = .channel then Table.empty else r.users) (fun b => ?_)).unseen
    (unseen_event _ _ _) (unseen_event _ _ _)
  by_cases hchannel : b.bufferType = .channel
  · rw [if_pos hchannel, if_pos (show b.roster.bufferType = .channel from hchannel)]
    rfl
  · rw [if_neg hchannel, if_neg (show b.roster.bufferType ≠ .channel from hchannel)]

end Store

end Repartee
