import Repartee.State.Session

/-!
# The ignore list of a session

The state of the event handlers holds a copy of the ignore list. Every handler reads it, and no step
of a session writes it.

## Main results

- `ignores_step`, `ignores_run`: the copy outlives every step and every session
-/

set_option autoImplicit false

namespace Repartee

namespace Store

namespace State

variable (h : Host) (s : State)

theorem ignores_foldl {α : Type} {f : State → α → State}
    (hf : ∀ s a, (f s a).ignores = s.ignores) (l : List α) :
    (l.foldl f s).ignores = s.ignores := by
  induction l generalizing s with
  | nil => rfl
  | cons a l ih => exact (ih (f s a)).trans (hf s a)

/-! ### Messages -/

@[simp] theorem ignores_modifyBuffer (id : Str) (f : Buffer → Buffer) :
    (s.modifyBuffer id f).ignores = s.ignores := rfl

@[simp] theorem ignores_modifyBuffersOf (connId : Str) (f : Buffer → Buffer) :
    (s.modifyBuffersOf connId f).ignores = s.ignores := rfl

@[simp] theorem ignores_modifyConnection (connId : Str) (f : Connection → Connection) :
    (s.modifyConnection connId f).ignores = s.ignores := rfl

@[simp] theorem ignores_addBuffer (b : Buffer) : (s.addBuffer b).ignores = s.ignores := rfl

@[simp] theorem ignores_addNick (id : Str) (entry : NickEntry) :
    (s.addNick h id entry).ignores = s.ignores := rfl

@[simp] theorem ignores_removeNick (id nick : Str) :
    (s.removeNick h id nick).ignores = s.ignores := rfl

@[simp] theorem ignores_updateNick (id oldNick newNick : Str) :
    (s.updateNick h id oldNick newNick).ignores = s.ignores := rfl

@[simp] theorem ignores_addMessageUnshrunk (id : Str) (m : Message) :
    (s.addMessageUnshrunk h id m).ignores = s.ignores := rfl

@[simp] theorem ignores_event (id : Str) (e : Event) : (s.event h id e).ignores = s.ignores := by
  rw [event, post, addMessage]
  split_ifs <;> rfl

@[simp] theorem ignores_eventIn (ids : List Str) (e : Event) :
    (s.eventIn h ids e).ignores = s.ignores := by
  apply ignores_foldl
  exact fun s id => s.ignores_event h id e

@[simp] theorem ignores_showE2eLines (lines : List E2eLine) :
    (s.showE2eLines h lines).ignores = s.ignores := by
  apply ignores_foldl
  exact fun s line => s.ignores_event h _ _

@[simp] theorem ignores_showReplies (connId : Str) (code : Nat) (args : List Str) :
    (s.showReplies h connId code args).ignores = s.ignores := by
  apply ignores_foldl
  exact fun s line => s.ignores_event h _ _

@[simp] theorem ignores_postChat (shrunk : Bool) (id : Str) (m : Nat → Message) :
    (s.postChat h shrunk id m).ignores = s.ignores := by
  cases shrunk <;> rfl

@[simp] theorem ignores_suppress (id : Str) (notice : Option Str) :
    (s.suppress h id notice).ignores = s.ignores := by
  cases notice with
  | none => rfl
  | some notice => exact s.ignores_event h id _

@[simp] theorem ignores_showChat (connId id ourNick nick target text body : Str)
    (messageType : MessageType) (shrunk : Bool) :
    (s.showChat h connId id ourNick nick target text body messageType shrunk).ignores =
      s.ignores := by
  rw [showChat]
  split_ifs
  · exact s.ignores_postChat h shrunk id _
  · exact s.ignores_postChat h shrunk id _

/-! ### Buffers -/

@[simp] theorem ignores_setActiveBuffer (id : Str) :
    (s.setActiveBuffer id).ignores = s.ignores := by
  rw [setActiveBuffer]
  split_ifs <;> rfl

@[simp] theorem ignores_fallBack : (s.fallBack h).ignores = s.ignores := by
  rw [fallBack]
  cases s.previousBufferId with
  | none => rfl
  | some previous =>
    simp only
    split_ifs <;> rfl

@[simp] theorem ignores_removeBuffer (id : Str) : (s.removeBuffer h id).ignores = s.ignores := by
  rw [removeBuffer]
  split_ifs
  · rfl
  · exact ignores_fallBack h _
  · rfl

@[simp] theorem ignores_rekeyBuffer (id newId newName : Str) :
    (s.rekeyBuffer id newId newName).ignores = s.ignores := by
  rw [rekeyBuffer]
  cases s.buffer? id <;> rfl

@[simp] theorem ignores_renameQueryBuffers (connId newNick : Str) (affected : List Str) :
    (s.renameQueryBuffers h connId newNick affected).ignores = s.ignores := by
  apply ignores_foldl
  intro s id
  rw [renameQuery]
  split_ifs
  · exact s.ignores_rekeyBuffer id _ _
  · rfl

@[simp] theorem ignores_openChannel (connId channel : Str) :
    (s.openChannel h connId channel).ignores = s.ignores := by
  rw [openChannel, ignores_setActiveBuffer]
  split_ifs <;> rfl

@[simp] theorem ignores_removeNickFrom (ids : List Str) (nick : Str) :
    (s.removeNickFrom h ids nick).ignores = s.ignores := by
  apply ignores_foldl
  exact fun s id => rfl

/-! ### The handlers -/

theorem ignores_handlePrivmsg {connId ourNick target text : Str} {msg : IrcMessage} {a : Arrival}
    {s' : State} (hstep : s.handlePrivmsg h connId ourNick msg target text a = some s') :
    s'.ignores = s.ignores := by
  have hopened : ∀ (id nick handle : Str) (isOwn : Bool),
      (s.openQuery h connId id target nick handle isOwn).ignores = s.ignores := by
    intro id nick handle isOwn
    rw [openQuery]
    split_ifs <;> rfl
  have hhandle : ∀ (u : State) (id handle : Str) (isOwn : Bool),
      (u.notePeerHandle id target handle isOwn).ignores = u.ignores := by
    intro u id handle isOwn
    rw [notePeerHandle]
    split_ifs <;> rfl
  have haccount : ∀ (u : State) (id nick : Str) (account : Option Str),
      (u.noteAccountTag h id target nick account).ignores = u.ignores := by
    intro u id nick account
    cases account with
    | none => rfl
    | some account =>
      rw [noteAccountTag]
      split_ifs <;> rfl
  rw [handlePrivmsg] at hstep
  generalize extractNickUserhost msg.sender = sender at hstep
  obtain ⟨nick, ident, host⟩ := sender
  simp only at hstep
  generalize (if isChannel target = true then some target else none) = place at hstep
  split_ifs at hstep with hempty hignored hctcp
  · cases hstep
    rfl
  · cases hstep
    rfl
  · obtain ⟨body, -, rfl⟩ := Option.map_eq_some_iff.mp hstep
    cases actionText body with
    | some action => simp only [ignores_showChat, haccount, hhandle, hopened]
    | none =>
      simp only [handleCtcp]
      split
      · simp only [ignores_suppress, haccount, hhandle, hopened]
      · cases a.dispatched with
        | none => simp only [haccount, hhandle, hopened]
        | some lines => simp only [ignores_showE2eLines, haccount, hhandle, hopened]
  · cases hstep
    simp only [handleText]
    split
    · simp only [ignores_suppress, haccount, hhandle, hopened]
    · simp only [ignores_showChat, haccount, hhandle, hopened]

theorem ignores_handleNotice (connId ourNick : Str) (msg : IrcMessage) (target text : Str)
    (a : Arrival) : (s.handleNotice h connId ourNick msg target text a).ignores = s.ignores := by
  simp only [handleNotice]
  generalize (if isChannel target = true then some target else none) = place
  split_ifs
  · rfl
  · cases a.dispatched with
    | some lines => exact s.ignores_showE2eLines h lines
    | none => exact s.ignores_postChat h _ _ _

theorem ignores_handleJoin (connId ourNick : Str) (msg : IrcMessage) (channel : Str)
    (extended realname : Option Str) (now : Nat) :
    (s.handleJoin h connId ourNick msg channel extended realname now).ignores = s.ignores := by
  simp only [handleJoin]
  split_ifs <;> simp

theorem ignores_handlePart (connId ourNick : Str) (msg : IrcMessage) (channel : Str)
    (reason : Option Str) :
    (s.handlePart h connId ourNick msg channel reason).ignores = s.ignores := by
  simp only [handlePart, forgetQueries]
  split_ifs <;> simp

theorem ignores_handleQuit (connId : Str) (msg : IrcMessage) (reason : Option Str) (now : Nat) :
    (s.handleQuit h connId msg reason now).ignores = s.ignores := by
  simp only [handleQuit]
  split_ifs <;> simp

theorem ignores_handleNickChange (connId ourNick : Str) (msg : IrcMessage) (newNick : Str)
    (now : Nat) : (s.handleNickChange h connId ourNick msg newNick now).ignores = s.ignores := by
  have hchange : ∀ (u : State) (oldNick id : Str),
      (u.changeNickIn h ourNick oldNick newNick now id).ignores = u.ignores := by
    intro u oldNick id
    simp only [changeNickIn]
    split_ifs <;> simp
  simp only [handleNickChange]
  split_ifs
  · rw [ignores_renameQueryBuffers, ignores_foldl]
    exact fun u id => rfl
  · rw [ignores_renameQueryBuffers, ignores_foldl]
    · rfl
    · exact fun u id => hchange u _ id
  · rw [ignores_renameQueryBuffers, ignores_foldl]
    exact fun u id => hchange u _ id

theorem ignores_handleKick (connId ourNick : Str) (msg : IrcMessage) (channel kickedUser : Str)
    (reason : Option Str) :
    (s.handleKick h connId ourNick msg channel kickedUser reason).ignores = s.ignores := by
  simp only [handleKick, kicked, forgetQueries]
  split_ifs <;> simp

theorem ignores_handleChannelMode (connId : Str) (msg : IrcMessage) (target : Str)
    (modes : List ModeChange) :
    (s.handleChannelMode h connId msg target modes).ignores = s.ignores := by
  have happly : ∀ (u : State) (m : ModeChange),
      (u.applyChannelMode h (makeBufferId h connId target) m).ignores = u.ignores := by
    intro u m
    rw [applyChannelMode]
    split
    · split_ifs <;> rfl
    · rfl
  simp only [handleChannelMode, modeEvent, ignores_event]
  exact s.ignores_foldl happly modes

theorem ignores_handleInvite (connId ourNick : Str) (msg : IrcMessage) (nick channel : Str) :
    (s.handleInvite h connId ourNick msg nick channel).ignores = s.ignores := by
  simp only [handleInvite]
  split_ifs <;> simp

theorem ignores_handleTopic (connId : Str) (msg : IrcMessage) (channel : Str)
    (topic : Option Str) : (s.handleTopic h connId msg channel topic).ignores = s.ignores := by
  cases topic with
  | none => rfl
  | some topic =>
    rw [handleTopic, ignores_event]
    rfl

theorem ignores_handleAccount (connId : Str) (msg : IrcMessage) (account : Str) :
    (s.handleAccount h connId msg account).ignores = s.ignores := by
  rw [handleAccount]
  cases extractNick msg.sender with
  | none => rfl
  | some nick => exact ignores_eventIn h _ _ _

theorem ignores_handleAway (connId : Str) (msg : IrcMessage) (reason : Option Str) :
    (s.handleAway h connId msg reason).ignores = s.ignores := by
  rw [handleAway]
  cases extractNick msg.sender <;> rfl

theorem ignores_handleChghost (connId : Str) (msg : IrcMessage) (newUser newHost : Str) :
    (s.handleChghost h connId msg newUser newHost).ignores = s.ignores := by
  rw [handleChghost]
  cases extractNick msg.sender with
  | none => rfl
  | some nick => exact ignores_eventIn h _ _ _

theorem ignores_handleIsupport (connId : Str) (tokens : List Str) :
    (s.handleIsupport h connId tokens).ignores = s.ignores := by
  have hlabel : ∀ (u : State) (network : Str),
      (u.updateLabelFromNetwork h connId network).ignores = u.ignores := by
    intro u network
    rw [updateLabelFromNetwork]
    cases u.connection? connId with
    | none => rfl
    | some c =>
      simp only
      split_ifs
      · rfl
      · exact ignores_rekeyBuffer _ _ _ _
  simp only [handleIsupport]
  split
  · rfl
  · exact hlabel _ _

theorem ignores_handleJoinFailure (connId : Str) (args : List Str) :
    (s.handleJoinFailure h connId args).ignores = s.ignores := by
  rw [handleJoinFailure]
  generalize (args[1]?).getD ['?'] = channel
  split_ifs
  · rw [ignores_removeBuffer, ignores_event]
  · exact s.ignores_event h _ _

theorem ignores_handleNames (connId channel names : Str) :
    (s.handleNames h connId channel names).ignores = s.ignores := by
  simp only [handleNames]
  apply ignores_foldl
  exact fun u raw => rfl

/-- What is shown unless a query is silent. -/
theorem ignores_reply (silent : Bool) (connId : Str) (code : Nat) (args : List Str) :
    (if silent = true then s else s.showReplies h connId code args).ignores = s.ignores := by
  cases silent with
  | true => rfl
  | false => exact s.ignores_showReplies h connId code args

theorem ignores_handleWhoxReply (connId : Str) (args : List Str) :
    (s.handleWhoxReply h connId args).ignores = s.ignores := by
  rw [handleWhoxReply.eq_def]
  split
  · exact ignores_reply h _ _ connId 354 _
  · rfl

theorem ignores_handleResponse (connId : Str) (code : Nat) (args : List Str) (a : Arrival) :
    (s.handleResponse h connId code args a).ignores = s.ignores := by
  rw [handleResponse.eq_def]
  split
  · split_ifs
    · exact s.ignores_handleIsupport h connId _
    · rfl
  · split <;> rfl
  · split
    · exact s.ignores_handleNames h connId _ _
    · rfl
  iterate 5 exact s.ignores_handleJoinFailure h connId args
  iterate 5 exact ignores_reply h _ _ connId _ args
  iterate 3 exact s.ignores_reply h _ connId _ args
  · exact s.ignores_handleWhoxReply h connId args
  · cases a.dispatched with
    | none => rfl
    | some lines => exact s.ignores_showE2eLines h lines
  · exact s.ignores_showReplies h connId _ args

theorem ignores_handleIrcMessage {connId : Str} {msg : IrcMessage} {a : Arrival} {s' : State}
    (hstep : s.handleIrcMessage h connId msg a = some s') : s'.ignores = s.ignores := by
  rw [handleIrcMessage] at hstep
  cases hcmd : msg.command with
  | privmsg target text =>
    rw [hcmd] at hstep
    exact s.ignores_handlePrivmsg h hstep
  | notice target text =>
    rw [hcmd] at hstep
    cases hstep
    exact s.ignores_handleNotice h connId _ msg target text a
  | join channel account realname =>
    rw [hcmd] at hstep
    cases hstep
    exact s.ignores_handleJoin h connId _ msg channel account realname a.now
  | part channel reason =>
    rw [hcmd] at hstep
    cases hstep
    exact s.ignores_handlePart h connId _ msg channel reason
  | quit reason =>
    rw [hcmd] at hstep
    cases hstep
    exact s.ignores_handleQuit h connId msg reason a.now
  | nick newNick =>
    rw [hcmd] at hstep
    cases hstep
    exact s.ignores_handleNickChange h connId _ msg newNick a.now
  | kick channel kickedUser reason =>
    rw [hcmd] at hstep
    cases hstep
    exact s.ignores_handleKick h connId _ msg channel kickedUser reason
  | topic channel topic =>
    rw [hcmd] at hstep
    cases hstep
    exact s.ignores_handleTopic h connId msg channel topic
  | channelMode target modes =>
    rw [hcmd] at hstep
    cases hstep
    exact s.ignores_handleChannelMode h connId msg target modes
  | userMode target modes =>
    rw [hcmd] at hstep
    cases hstep
    exact s.ignores_event h _ _
  | invite nick channel =>
    rw [hcmd] at hstep
    cases hstep
    exact s.ignores_handleInvite h connId _ msg nick channel
  | wallops text =>
    rw [hcmd] at hstep
    cases hstep
    exact s.ignores_event h _ _
  | account account =>
    rw [hcmd] at hstep
    cases hstep
    exact s.ignores_handleAccount h connId msg account
  | away reason =>
    rw [hcmd] at hstep
    cases hstep
    exact s.ignores_handleAway h connId msg reason
  | chghost newUser newHost =>
    rw [hcmd] at hstep
    cases hstep
    exact s.ignores_handleChghost h connId msg newUser newHost
  | error message =>
    rw [hcmd] at hstep
    cases hstep
    exact s.ignores_event h _ _
  | numeric code args =>
    rw [hcmd] at hstep
    cases hstep
    exact s.ignores_handleResponse h connId code args a
  | raw _ _ =>
    rw [hcmd] at hstep
    cases hstep
    exact rfl

/-! ### Batches -/

theorem ignores_postSummary (key title verb : Str) (batch : BatchInfo) (p : BatchProgress) :
    (postSummary h key title verb batch p).ignores = p.1.ignores := by
  rw [postSummary]
  split_ifs
  · rfl
  · exact ignores_eventIn h _ _ _

/-- A loop over a batch that keeps the list. -/
theorem ignores_batch {f : BatchProgress → IrcMessage → BatchProgress}
    (hf : ∀ p msg, (f p msg).1.ignores = p.1.ignores) (msgs : List IrcMessage)
    (p : BatchProgress) : (msgs.foldl f p).1.ignores = p.1.ignores := by
  induction msgs generalizing p with
  | nil => rfl
  | cons msg msgs ih => exact (ih (f p msg)).trans (hf p msg)

theorem ignores_processNetsplitBatch (connId : Str) (batch : BatchInfo) :
    (s.processNetsplitBatch h connId batch).ignores = s.ignores := by
  rw [processNetsplitBatch, ignores_postSummary, ignores_batch]
  intro p msg
  rw [splitQuit.eq_def]
  split
  · exact ignores_removeNickFrom h _ _ _
  · rfl

theorem ignores_processNetjoinBatch (connId : Str) (batch : BatchInfo) :
    (s.processNetjoinBatch h connId batch).ignores = s.ignores := by
  rw [processNetjoinBatch, ignores_postSummary, ignores_batch]
  intro p msg
  rw [splitJoin.eq_def]
  split <;> rfl

theorem ignores_netsplitTick (now : Nat) : (s.netsplitTick h now).ignores = s.ignores := by
  rw [netsplitTick]
  apply ignores_foldl
  exact fun u m => u.ignores_eventIn h _ _

end State

/-! ### Sessions -/

variable {h : Host}

/-- No step writes the ignore list. -/
theorem ignores_step {s s' : State} {op : Op} (hstep : step h s op = some s') :
    s'.ignores = s.ignores := by
  have hgoTo : ∀ id : Option Str,
      ((id.map s.setActiveBuffer).getD s).ignores = s.ignores := by
    intro id
    cases id with
    | none => rfl
    | some id => exact s.ignores_setActiveBuffer id
  cases op with
  | irc connId msg hidden a =>
    obtain ⟨s₁, hhandled, rfl⟩ := Option.map_eq_some_iff.mp hstep
    have hkept := State.ignores_handleIrcMessage h _ hhandled
    exact hkept
  | createMentionsBuffer loaded =>
    cases hstep
    rw [State.createMentionsBuffer]
    split_ifs <;> rfl
  | _ =>
    cases hstep
    first
    | rfl
    | exact s.ignores_removeBuffer h _
    | exact s.ignores_setActiveBuffer _
    | exact hgoTo _
    | exact s.ignores_processNetsplitBatch h _ _
    | exact s.ignores_processNetjoinBatch h _ _
    | exact State.ignores_event h _ _ _
    | exact s.ignores_netsplitTick h _

theorem ignores_run {s s' : State} {ops : List Op} (hrun : run h s ops = some s') :
    s'.ignores = s.ignores := by
  induction ops generalizing s with
  | nil =>
    cases hrun
    rfl
  | cons op ops ih =>
    obtain ⟨s₁, hstep, hrun⟩ := Option.bind_eq_some_iff.mp hrun
    rw [ih hrun, ignores_step hstep]

end Store

end Repartee
