import Repartee.State.Quiet
import Repartee.State.Session

/-!
# What a message changes

An incoming message makes at most one change to the set of buffers, between quiet steps.

## Main definitions

- `Store.Change`, `State.change`: the changes
- `Store.Causes`: which message causes which change, in which state

## Main results

- `dispatch_cases`: every message does quiet steps around a change that it causes
-/

set_option autoImplicit false

namespace Repartee

namespace Store

inductive Change where
  | nothing
  | openQuery (b : Buffer)
  | openChannel (connId channel : Str)
  | close (id : Str)
  | renameQueries (connId newNick : Str) (affected : List Str)
  | rekey (id newId newName : Str)

variable (h : Host)

def State.change (s : State) : Change → State
  | .nothing => s
  | .openQuery b => s.addBuffer b
  | .openChannel connId channel => s.openChannel h connId channel
  | .close id => s.removeBuffer h id
  | .renameQueries connId newNick affected => s.renameQueryBuffers h connId newNick affected
  | .rekey id newId newName => s.rekeyBuffer id newId newName

/-- The nick that a message comes from. -/
def senderNick (msg : IrcMessage) : Str := (extractNickUserhost msg.sender).1

/-- The query that a private message opens. -/
def openedQuery (connId ourNick target : Str) (msg : IrcMessage) : Buffer :=
  { freshBuffer h connId .query (senderNick msg) with
    id := State.chatBuffer h connId ourNick (senderNick msg) target
    peerHandle := if senderNick msg = ourNick then none
      else some (userhost (extractNickUserhost msg.sender).2.1 (extractNickUserhost msg.sender).2.2) }

/-- The ids of a server's buffer before and after the server tells the name of its network, and
the name, unless the server has been given a name by the user. -/
def State.networkRename (s : State) (connId : Str) (tokens : List Str) : Option (Str × Str × Str) :=
  (s.connection? connId).bind (fun c =>
    (Isupport.network (tokens.foldl Isupport.parseToken c.isupport)).bind (fun network =>
      if c.label.contains '.' then
        some (makeBufferId h connId c.label, makeBufferId h connId network, network)
      else none))

/-- The numerics that say that a channel cannot be joined. -/
def joinFailures : List Nat := [471, 473, 474, 475, 405]

/-- The channel of a join failure. -/
def failedChannel (args : List Str) : Str := (args[1]?).getD ['?']

/-- Which message causes which change. -/
inductive Causes (s : State) (connId : Str) (msg : IrcMessage) : Change → Prop
  | nothing : Causes s connId msg .nothing
  | privmsg {target text : Str} (hcmd : msg.command = .privmsg target text)
      (hprivate : isChannel target = false)
      (hnew : s.hasBuffer (State.chatBuffer h connId (s.ourNick connId) (senderNick msg) target)
        = false) :
      Causes s connId msg (.openQuery (openedQuery h connId (s.ourNick connId) target msg))
  | join {channel : Str} {account realname : Option Str}
      (hcmd : msg.command = .join channel account realname)
      (hown : senderNick msg = s.ourNick connId) :
      Causes s connId msg (.openChannel connId channel)
  | part {channel : Str} {reason : Option Str} (hcmd : msg.command = .part channel reason)
      (hown : senderNick msg = s.ourNick connId) :
      Causes s connId msg (.close (makeBufferId h connId channel))
  | kick {channel kickedUser : Str} {reason : Option Str}
      (hcmd : msg.command = .kick channel kickedUser reason)
      (hown : kickedUser = s.ourNick connId) :
      Causes s connId msg (.close (makeBufferId h connId channel))
  | failure {code : Nat} {args : List Str} (hcmd : msg.command = .numeric code args)
      (hcode : code ∈ joinFailures)
      (hempty : (s.buffer? (makeBufferId h connId (failedChannel args))).any
        (fun b => b.users.rows.isEmpty) = true) :
      Causes s connId msg (.close (makeBufferId h connId (failedChannel args)))
  | nick {newNick : Str} (hcmd : msg.command = .nick newNick) :
      Causes s connId msg (.renameQueries connId newNick
        (s.buffersOfNick h connId ((extractNick msg.sender).getD [])))
  | network {args : List Str} {id newId newName : Str} (hcmd : msg.command = .numeric 5 args)
      (hargs : 2 ≤ args.length)
      (hrename : s.networkRename h connId args.tail.dropLast = some (id, newId, newName)) :
      Causes s connId msg (.rekey id newId newName)

/-- Quiet steps around a change that the message causes. -/
def Changes (s : State) (connId : Str) (msg : IrcMessage) (s' : State) : Prop :=
  ∃ c s₁, Causes h s connId msg c ∧ Quiet h s s₁ ∧ Quiet h (s₁.change h c) s'

variable {h}

theorem Quiet.changes {s s' : State} {connId : Str} {msg : IrcMessage} (hq : Quiet h s s') :
    Changes h s connId msg s' :=
  ⟨.nothing, s, .nothing, Quiet.refl s, hq⟩

theorem Changes.quiet {s s' s'' : State} {connId : Str} {msg : IrcMessage}
    (hc : Changes h s connId msg s') (hq : Quiet h s' s'') : Changes h s connId msg s'' := by
  obtain ⟨c, s₁, hcause, hbefore, hafter⟩ := hc
  exact ⟨c, s₁, hcause, hbefore, hafter.trans hq⟩

variable (h)

namespace State

variable (s : State)

/-! ### Lookups after a change -/

theorem buffer?_addBuffer (b : Buffer) (key : Str) :
    (s.addBuffer b).buffer? key = if b.id = key then some b else s.buffer? key :=
  Dict.lookup_insert _ _ _ _

theorem buffers_setActiveBuffer (id : Str) : (s.setActiveBuffer id).buffers = s.buffers := by
  rw [setActiveBuffer]
  split_ifs <;> rfl

theorem buffers_fallBack : (s.fallBack h).buffers = s.buffers := by
  rw [fallBack]
  cases s.previousBufferId with
  | none => rfl
  | some previous =>
    simp only
    split_ifs <;> rfl

theorem buffer?_removeBuffer (id key : Str) :
    (s.removeBuffer h id).buffer? key = if id = key then none else s.buffer? key := by
  rw [removeBuffer]
  by_cases hmissing : s.hasBuffer id = true
  · rw [if_neg (by rw [hmissing]; decide)]
    simp only
    by_cases hactive : s.activeBufferId = some id
    · rw [if_pos hactive, buffer?, buffers_fallBack]
      exact Dict.lookup_erase _ _ _
    · rw [if_neg hactive]
      exact Dict.lookup_erase _ _ _
  · rw [if_pos (by simpa using hmissing)]
    by_cases hkey : id = key
    · rw [if_pos hkey, ← hkey]
      simpa [hasBuffer] using hmissing
    · rw [if_neg hkey]

theorem buffer?_rekeyBuffer {id : Str} {b : Buffer} (hb : s.buffer? id = some b)
    (newId newName key : Str) :
    (s.rekeyBuffer id newId newName).buffer? key =
      if newId = key then some { b with id := newId, name := newName }
      else if id = key then none else s.buffer? key := by
  rw [rekeyBuffer, hb, buffer?, Dict.lookup_insert, Dict.lookup_erase]
  rfl

theorem rekeyBuffer_of_none {id : Str} (hb : s.buffer? id = none) (newId newName : Str) :
    s.rekeyBuffer id newId newName = s := by
  rw [rekeyBuffer, hb]

/-- The buffer of a channel that we have joined has kept its messages. -/
theorem buffer?_openChannel (connId channel key : Str) :
    (s.openChannel h connId channel).buffer? key =
      if makeBufferId h connId channel = key then
        some ((s.buffer? key).elim (freshBuffer h connId .channel channel) Buffer.reset)
      else s.buffer? key := by
  rw [openChannel, buffer?, buffers_setActiveBuffer]
  by_cases hexists : s.hasBuffer (makeBufferId h connId channel) = true
  · rw [if_pos hexists]
    refine (s.buffer?_modifyBuffer _ _ _).trans ?_
    by_cases hkey : makeBufferId h connId channel = key
    · rw [if_pos hkey, if_pos hkey]
      rw [hkey, hasBuffer, Option.isSome_iff_exists] at hexists
      obtain ⟨b, hb⟩ := hexists
      rw [hb]
      rfl
    · rw [if_neg hkey, if_neg hkey]
  · rw [if_neg hexists]
    refine (s.buffer?_addBuffer _ _).trans ?_
    by_cases hkey : makeBufferId h connId channel = key
    · rw [if_pos hkey, if_pos (show (freshBuffer h connId .channel channel).id = key from hkey)]
      rw [hkey, hasBuffer, Bool.not_eq_true, Option.isSome_eq_false_iff, Option.isNone_iff_eq_none]
        at hexists
      rw [hexists]
      rfl
    · rw [if_neg hkey, if_neg (show (freshBuffer h connId .channel channel).id ≠ key from hkey)]

theorem limit_setActiveBuffer (id : Str) :
    (s.setActiveBuffer id).scrollbackLimit = s.scrollbackLimit := by
  rw [setActiveBuffer]
  split_ifs <;> rfl

theorem limit_removeBuffer (id : Str) :
    (s.removeBuffer h id).scrollbackLimit = s.scrollbackLimit := by
  have hfall : ∀ t : State, (t.fallBack h).scrollbackLimit = t.scrollbackLimit := by
    intro t
    rw [fallBack]
    cases t.previousBufferId with
    | none => rfl
    | some previous =>
      simp only
      split_ifs <;> rfl
  rw [removeBuffer]
  split_ifs
  · rfl
  · exact hfall _
  · rfl

theorem limit_rekeyBuffer (id newId newName : Str) :
    (s.rekeyBuffer id newId newName).scrollbackLimit = s.scrollbackLimit := by
  rw [rekeyBuffer]
  cases s.buffer? id <;> rfl

theorem limit_renameQueryBuffers (connId newNick : Str) (affected : List Str) :
    (s.renameQueryBuffers h connId newNick affected).scrollbackLimit = s.scrollbackLimit := by
  rw [renameQueryBuffers]
  induction affected generalizing s with
  | nil => rfl
  | cons id affected ih =>
    rw [List.foldl_cons, ih, renameQuery]
    split_ifs
    · exact s.limit_rekeyBuffer _ _ _
    · rfl

theorem limit_change (c : Change) : (s.change h c).scrollbackLimit = s.scrollbackLimit := by
  cases c with
  | nothing => rfl
  | openQuery b => rfl
  | openChannel connId channel =>
    rw [change, openChannel, limit_setActiveBuffer]
    split_ifs <;> rfl
  | close id => exact s.limit_removeBuffer h id
  | renameQueries connId newNick affected => exact s.limit_renameQueryBuffers h _ _ affected
  | rekey id newId newName => exact s.limit_rekeyBuffer id newId newName

/-- The name of a network renames the buffer of the server's label. -/
theorem networkRename_eq_some {connId : Str} {tokens : List Str} {id newId newName : Str}
    (hrename : s.networkRename h connId tokens = some (id, newId, newName)) :
    ∃ c, s.connection? connId = some c ∧ id = makeBufferId h connId c.label ∧
      newId = makeBufferId h connId newName := by
  obtain ⟨c, hc, hrest⟩ := Option.bind_eq_some_iff.mp hrename
  obtain ⟨network, -, hdot⟩ := Option.bind_eq_some_iff.mp hrest
  split_ifs at hdot
  simp only [Option.some.injEq, Prod.mk.injEq] at hdot
  obtain ⟨rfl, rfl, rfl⟩ := hdot
  exact ⟨c, hc, rfl, rfl⟩

theorem nodup_bufferIdsWhere (p : Buffer → Bool) : (s.bufferIdsWhere p).Nodup :=
  s.buffers.nodup.sublist (List.filter_sublist.map Prod.fst)

/-! ### The handlers -/

theorem senderNick_eq (msg : IrcMessage) : (extractNick msg.sender).getD [] = senderNick msg := by
  rw [extractNick, senderNick]
  cases msg.sender with
  | none => rfl
  | some p => cases p <;> rfl

/-- A private message opens the query of its sender if there is none. -/
theorem changes_openQuery (connId : Str) {target text : Str} {msg : IrcMessage}
    (hcmd : msg.command = .privmsg target text) :
    Changes h s connId msg
      (s.openQuery h connId (chatBuffer h connId (s.ourNick connId) (senderNick msg) target) target
        (senderNick msg)
        (userhost (extractNickUserhost msg.sender).2.1 (extractNickUserhost msg.sender).2.2)
        (decide (senderNick msg = s.ourNick connId))) := by
  rw [openQuery]
  by_cases hopens : (!isChannel target &&
      !s.hasBuffer (chatBuffer h connId (s.ourNick connId) (senderNick msg) target)) = true
  · rw [if_pos hopens]
    simp only [Bool.and_eq_true, Bool.not_eq_true'] at hopens
    refine ⟨_, s, .privmsg hcmd hopens.1 hopens.2, Quiet.refl s, ?_⟩
    simp only [change, openedQuery, decide_eq_true_eq]
    exact Quiet.refl _
  · rw [if_neg hopens]
    exact (Quiet.refl s).changes

theorem changes_handlePrivmsg {connId target text : Str} {msg : IrcMessage} {a : Arrival}
    {s' : State} (hcmd : msg.command = .privmsg target text)
    (hstep : s.handlePrivmsg h connId (s.ourNick connId) msg target text a = some s') :
    Changes h s connId msg s' := by
  have hopened := s.changes_openQuery h connId hcmd
  rw [senderNick] at hopened
  rw [handlePrivmsg] at hstep
  generalize extractNickUserhost msg.sender = sender at hstep hopened
  obtain ⟨nick, ident, host⟩ := sender
  simp only at hstep hopened
  by_cases hempty : a.decrypted = some []
  · rw [if_pos hempty] at hstep
    cases hstep
    exact (Quiet.refl s).changes
  · rw [if_neg hempty] at hstep
    generalize a.decrypted.getD text = body at hstep
    generalize s.ignored h nick ident host (chatLevel target body)
      (if isChannel target = true then some target else none) = ignored at hstep
    cases ignored with
    | true =>
      cases hstep
      exact (Quiet.refl s).changes
    | false =>
      have hnoted := hopened.quiet ((quiet_notePeerHandle h _
        (chatBuffer h connId (s.ourNick connId) nick target) target (userhost ident host)
        (decide (nick = s.ourNick connId))).trans (quiet_noteAccountTag h _
        (chatBuffer h connId (s.ourNick connId) nick target) target nick
        (tagValue msg (str "account"))))
      by_cases hctcp : isCtcp body = true
      · rw [if_neg (by decide), if_pos hctcp] at hstep
        obtain ⟨framed, -, rfl⟩ := Option.map_eq_some_iff.mp hstep
        cases actionText framed with
        | some action => exact hnoted.quiet (quiet_showChat h _ _ _ _ _ _ _ _ _ _)
        | none => exact hnoted.quiet (quiet_handleCtcp h _ _ _ _)
      · rw [if_neg (by decide), if_neg hctcp] at hstep
        cases hstep
        exact hnoted.quiet (quiet_handleText h _ _ _ _ _ _ _ _ _ _)

theorem changes_handleJoin {connId channel : Str} {msg : IrcMessage}
    {account realname : Option Str} (hcmd : msg.command = .join channel account realname)
    (now : Nat) :
    Changes h s connId msg
      (s.handleJoin h connId (s.ourNick connId) msg channel account realname now) := by
  have hown : senderNick msg = s.ourNick connId →
      Causes h s connId msg (.openChannel connId channel) :=
    fun hown => .join hcmd hown
  rw [senderNick] at hown
  rw [handleJoin]
  generalize extractNickUserhost msg.sender = sender at hown ⊢
  obtain ⟨nick, ident, host⟩ := sender
  simp only at hown ⊢
  have hjoined := fun account => s.quiet_addNick h (makeBufferId h connId channel)
    (joinedEntry nick account)
  split_ifs with hignored hself hpresent
  · exact (hjoined _).changes
  · exact (Quiet.refl s).changes
  · exact ⟨_, s, hown hself, Quiet.refl s, quiet_event h _ _ _⟩
  · exact ((hjoined _).trans (quiet_netsplitState h _ _)).changes
  · exact (((hjoined _).trans (quiet_netsplitState h _ _)).trans (quiet_event h _ _ _)).changes

theorem changes_handlePart {connId channel : Str} {msg : IrcMessage} {reason : Option Str}
    (hcmd : msg.command = .part channel reason) :
    Changes h s connId msg (s.handlePart h connId (s.ourNick connId) msg channel reason) := by
  have hown : senderNick msg = s.ourNick connId →
      Causes h s connId msg (.close (makeBufferId h connId channel)) := fun hown => .part hcmd hown
  rw [senderNick] at hown
  rw [handlePart]
  generalize extractNickUserhost msg.sender = sender at hown ⊢
  obtain ⟨nick, ident, host⟩ := sender
  simp only at hown ⊢
  by_cases hself : nick = s.ourNick connId
  · rw [if_pos hself]
    exact ⟨_, s, hown hself, Quiet.refl s, quiet_forgetQueries h _ _ _⟩
  · rw [if_neg hself]
    have hremoved := s.quiet_removeNick h (makeBufferId h connId channel) nick
    exact Quiet.changes (quiet_ite h hremoved (hremoved.trans (quiet_event h _ _ _)))

/-- A kick of ourselves shows one line in the server's buffer, in the channel before it is closed,
and where the view goes. -/
theorem kicked_eq (connId ourNick kicker channel reason : Str) :
    ∃ serverId line, s.kicked h connId ourNick kicker channel reason =
      (let closed := ((s.event h serverId line).event h (makeBufferId h connId channel)
          line).removeBuffer h (makeBufferId h connId channel)
        if closed.activeBufferId.getD serverId ≠ serverId then
          closed.event h (closed.activeBufferId.getD serverId) line
        else closed).forgetQueries connId channel :=
  ⟨_, _, rfl⟩

theorem changes_handleKick {connId channel kickedUser : Str} {msg : IrcMessage}
    {reason : Option Str} (hcmd : msg.command = .kick channel kickedUser reason) :
    Changes h s connId msg
      (s.handleKick h connId (s.ourNick connId) msg channel kickedUser reason) := by
  rw [handleKick]
  generalize extractNickUserhost msg.sender = sender
  obtain ⟨kicker, ident, host⟩ := sender
  simp only
  have hremoved := s.quiet_removeNick h (makeBufferId h connId channel) kickedUser
  split_ifs with hignored hself
  · exact hremoved.changes
  · obtain ⟨serverId, line, hkicked⟩ := s.kicked_eq h connId (s.ourNick connId) kicker channel
      (reason.getD [])
    rw [hkicked]
    refine ⟨_, _, .kick hcmd hself, (s.quiet_event h serverId line).trans
      (quiet_event h _ (makeBufferId h connId channel) line), ?_⟩
    exact (quiet_ite h (quiet_event h _ _ _) (Quiet.refl _)).trans (quiet_forgetQueries h _ _ _)
  · exact (hremoved.trans (quiet_event h _ _ _)).changes

theorem changes_handleNickChange {connId newNick : Str} {msg : IrcMessage}
    (hcmd : msg.command = .nick newNick) (now : Nat) :
    Changes h s connId msg (s.handleNickChange h connId (s.ourNick connId) msg newNick now) := by
  have hcause : Causes h s connId msg (.renameQueries connId newNick
      (s.buffersOfNick h connId ((extractNick msg.sender).getD []))) := .nick hcmd
  rw [handleNickChange]
  generalize extractNickUserhost msg.sender = sender
  obtain ⟨_, ident, host⟩ := sender
  simp only
  generalize (extractNick msg.sender).getD [] = oldNick at hcause ⊢
  split_ifs with hignored hself
  · exact ⟨_, _, hcause, quiet_foldl (fun s id => s.quiet_updateNick h id oldNick newNick) _ s,
      Quiet.refl _⟩
  · exact ⟨_, _, hcause, (s.quiet_modifyConnection h connId _).trans
      (quiet_foldl (fun s id => s.quiet_changeNickIn h _ oldNick newNick now id) _ _), Quiet.refl _⟩
  · exact ⟨_, _, hcause,
      quiet_foldl (fun s id => s.quiet_changeNickIn h _ oldNick newNick now id) _ s, Quiet.refl _⟩

theorem changes_handleIsupport {connId : Str} {msg : IrcMessage} {args : List Str}
    (hcmd : msg.command = .numeric 5 args) (hargs : 2 ≤ args.length) :
    Changes h s connId msg (s.handleIsupport h connId args.tail.dropLast) := by
  have hcause : ∀ id newId newName,
      s.networkRename h connId args.tail.dropLast = some (id, newId, newName) →
      Causes h s connId msg (.rekey id newId newName) :=
    fun _ _ _ hrename => .network hcmd hargs hrename
  have hconn : ∀ f : Connection → Connection,
      (s.modifyConnection connId f).connection? connId = (s.connection? connId).map f := by
    intro f
    rw [connection?, modifyConnection, Dict.lookup_modify, if_pos rfl]
    rfl
  have hnoted := s.quiet_modifyConnection h connId (fun c =>
    { c with isupport := args.tail.dropLast.foldl Isupport.parseToken c.isupport })
  rw [networkRename] at hcause
  rw [handleIsupport]
  simp only [hconn] at hcause ⊢
  cases hc : s.connection? connId with
  | none => exact hnoted.changes
  | some c =>
    simp only [hc, Option.map_some, Option.bind_some] at hcause ⊢
    cases hn : Isupport.network (args.tail.dropLast.foldl Isupport.parseToken c.isupport) with
    | none => exact hnoted.changes
    | some network =>
      simp only [hn, Option.bind_some] at hcause ⊢
      rw [updateLabelFromNetwork, hconn, hc]
      simp only [Option.map_some]
      by_cases hdot : c.label.contains '.' = true
      · rw [if_neg (by rw [hdot]; decide)]
        exact ⟨_, _, hcause _ _ _ (if_pos hdot), hnoted.trans (quiet_modifyConnection h _ _ _),
          Quiet.refl _⟩
      · rw [if_pos (by simpa using hdot)]
        exact hnoted.changes

/-- An event line does not touch the users of a buffer. -/
theorem users_event (id : Str) (e : Event) (key : Str) (p : Dict Str NickEntry → Bool) :
    (((s.event h id e).buffer? key).any (fun b => p b.users)) =
      (s.buffer? key).any (fun b => p b.users) := by
  have hreceive : ∀ (b : Buffer) m, (b.receive h s.scrollbackLimit m).users = b.users := by
    intro b m
    rw [Buffer.receive, Buffer.trackSpeaker]
    cases m.nick with
    | none => rfl
    | some nick => cases m.messageType <;> rfl
  rw [event, post, addMessage]
  split_ifs
  · rfl
  · rw [addMessageUnshrunk, buffer?_modifyBuffer]
    by_cases hkey : id = key
    · rw [if_pos hkey, Option.any_map]
      refine congrArg (fun q => (s.buffer? key).any q) ?_
      funext b
      exact congrArg p (hreceive b _)
    · rw [if_neg hkey]
      rfl

theorem changes_handleJoinFailure {connId : Str} {msg : IrcMessage} {code : Nat} {args : List Str}
    (hcmd : msg.command = .numeric code args) (hcode : code ∈ joinFailures) :
    Changes h s connId msg (s.handleJoinFailure h connId args) := by
  rw [handleJoinFailure]
  generalize plainEvent (str "%Zff6b6bCannot join " ++ (args[1]?).getD ['?'] ++ str ": " ++
    (args[2]?).getD (str "Cannot join channel") ++ str "%N") = e
  have hq := s.quiet_event h (s.serverBuffer h connId) e
  by_cases hempty : ((s.event h (s.serverBuffer h connId) e).buffer?
      (makeBufferId h connId ((args[1]?).getD ['?']))).any (fun b => b.users.rows.isEmpty) = true
  · rw [if_pos hempty]
    refine ⟨_, _, .failure hcmd hcode ?_, hq, Quiet.refl _⟩
    rw [← hempty]
    exact (s.users_event h _ e _ (fun users => users.rows.isEmpty)).symm
  · rw [if_neg hempty]
    exact hq.changes

/-- Numerics other than RPL_ISUPPORT and the join failures are quiet. -/
theorem changes_handleResponse {connId : Str} {msg : IrcMessage} {code : Nat} {args : List Str}
    (hcmd : msg.command = .numeric code args) (a : Arrival) :
    Changes h s connId msg (s.handleResponse h connId code args a) := by
  have hreplies : ∀ t : State, Quiet h s t →
      Changes h s connId msg (t.showReplies h connId code args) :=
    fun t ht => (ht.trans (t.quiet_showReplies h connId code args)).changes
  have hended := fun f => s.quiet_modifyConnection h connId f
  unfold handleResponse
  split
  · by_cases hargs : 2 ≤ args.length
    · rw [if_pos hargs]
      exact s.changes_handleIsupport h hcmd hargs
    · rw [if_neg hargs]
      exact (Quiet.refl s).changes
  · split
    · exact (s.quiet_setTopic h _ _).changes
    · exact (Quiet.refl s).changes
  · split
    · exact (s.quiet_handleNames h connId _ _).changes
    · exact (Quiet.refl s).changes
  iterate 5 exact s.changes_handleJoinFailure h hcmd (by decide)
  · simp only
    split_ifs
    · exact (hended _).changes
    · exact hreplies _ (hended _)
    · exact (hended _).changes
    · exact hreplies _ (hended _)
  iterate 4
    simp only
    split_ifs
    · exact (hended _).changes
    · exact hreplies _ (hended _)
  iterate 3
    simp only
    split_ifs
    · exact (Quiet.refl s).changes
    · exact hreplies _ (Quiet.refl s)
  · exact (s.quiet_handleWhoxReply h connId args).changes
  · cases a.dispatched with
    | none => exact (Quiet.refl s).changes
    | some lines => exact (s.quiet_showE2eLines h lines).changes
  · exact hreplies _ (Quiet.refl s)

/-- Every message does quiet steps around a change that it causes. -/
theorem changes_handleIrcMessage {connId : Str} {msg : IrcMessage} {a : Arrival} {s' : State}
    (hstep : s.handleIrcMessage h connId msg a = some s') : Changes h s connId msg s' := by
  rw [handleIrcMessage] at hstep
  generalize hcmd : msg.command = command at hstep
  cases command with
  | privmsg target text => exact s.changes_handlePrivmsg h hcmd hstep
  | notice target text =>
    cases hstep
    exact (s.quiet_handleNotice h connId _ msg target text a).changes
  | join channel account realname =>
    cases hstep
    exact s.changes_handleJoin h hcmd a.now
  | part channel reason =>
    cases hstep
    exact s.changes_handlePart h hcmd
  | quit reason =>
    cases hstep
    exact (s.quiet_handleQuit h connId msg reason a.now).changes
  | nick newNick =>
    cases hstep
    exact s.changes_handleNickChange h hcmd a.now
  | kick channel kickedUser reason =>
    cases hstep
    exact s.changes_handleKick h hcmd
  | topic channel topic =>
    cases hstep
    exact (s.quiet_handleTopic h connId msg channel topic).changes
  | channelMode target modes =>
    cases hstep
    exact (s.quiet_handleChannelMode h connId msg target modes).changes
  | userMode target modes =>
    cases hstep
    exact (s.quiet_handleUserMode h connId msg target modes).changes
  | invite nick channel =>
    cases hstep
    exact (s.quiet_handleInvite h connId _ msg nick channel).changes
  | wallops text =>
    cases hstep
    exact (s.quiet_event h _ _).changes
  | account account =>
    cases hstep
    exact (s.quiet_handleAccount h connId msg account).changes
  | away reason =>
    cases hstep
    exact (s.quiet_handleAway h connId msg reason).changes
  | chghost newUser newHost =>
    cases hstep
    exact (s.quiet_handleChghost h connId msg newUser newHost).changes
  | error message =>
    cases hstep
    exact (s.quiet_event h _ _).changes
  | numeric code args =>
    cases hstep
    exact s.changes_handleResponse h hcmd a
  | raw _ _ =>
    cases hstep
    exact (Quiet.refl s).changes

end State

/-- What a message causes does not depend on what a script hides. -/
theorem Causes.of_suppressed {s : State} {hidden : Bool} {connId : Str} {msg : IrcMessage}
    {c : Change} (hc : Causes h { s with suppressEventDisplay := hidden } connId msg c) :
    Causes h s connId msg c := by
  cases hc with
  | nothing => exact .nothing
  | privmsg hcmd hprivate hnew => exact .privmsg hcmd hprivate hnew
  | join hcmd hown => exact .join hcmd hown
  | part hcmd hown => exact .part hcmd hown
  | kick hcmd hown => exact .kick hcmd hown
  | failure hcmd hcode hempty => exact .failure hcmd hcode hempty
  | nick hcmd => exact .nick hcmd
  | network hcmd hargs hrename => exact .network hcmd hargs hrename

/-- What a message can do. -/
theorem dispatch_cases {s s' : State} {connId : Str} {msg : IrcMessage} {hidden : Bool}
    {a : Arrival} (hstep : dispatch h s connId msg hidden a = some s') :
    Changes h s connId msg s' := by
  obtain ⟨s₂, hhandled, rfl⟩ := Option.map_eq_some_iff.mp hstep
  obtain ⟨c, s₁, hcause, hbefore, hafter⟩ := State.changes_handleIrcMessage h _ hhandled
  have hset : ∀ (s : State) hide, Quiet h s { s with suppressEventDisplay := hide } :=
    fun s hide => quiet_of_buffers_eq rfl rfl rfl rfl
  exact ⟨c, s₁, hcause.of_suppressed h, (hset s hidden).trans hbefore,
    hafter.trans (hset s₂ false)⟩

end Store

end Repartee
