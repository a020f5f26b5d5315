import Repartee.App.Frames
import Repartee.Lib.Lanes

/-!
# The link shortener

`app/shrink.rs`, and the dispatch to it in `app/input.rs` and `state/events.rs`. A message with
long links waits in a queue for a worker and comes back through a channel that the main loop
drains; every other message is handled at once. What a worker makes of a text is a parameter of
its step, and so is whether a queue takes a message. The activity of buffers is not modelled.

## Main definitions

- `Chat`, `Chat.step`: a client with its workers, and what can happen next
- `Chat.InOrder`: each conversation is in order
- `Chat.InTurn`: nothing overtakes a message of its buffer

## Main results

- `Chat.inOrder_run`: the order of every run in which nothing overtakes
- `Chat.hello_overtakes`: a short message overtakes one with a link
-/

set_option autoImplicit false

namespace Repartee

/-- A message with the number it got when it was submitted or received. -/
structure Numbered (α : Type) where
  number : Nat
  item : α

/-- A received message that waits for its links to be shortened. -/
structure PendingIncoming where
  bufferId : Str
  message : Message
  urls : List Str

/-- What the workers leave to the main loop. -/
inductive ShrinkDeliver where
  | outgoing (out : Numbered PendingOutgoing) (substitutedText : Str)
  | incoming (inc : Numbered PendingIncoming)
  | manual (bufferId display : Str)

/-- A submitted message, with the lines that were handed over for it; `bufferId` is the buffer it
was submitted in. -/
structure Sent where
  number : Nat
  bufferId : Option Str
  lines : List Handed

/-- A received message that was appended to its buffer. -/
structure Shown where
  number : Nat
  bufferId : Str
  message : Message

/-- A client with its queues and workers. `submitted` and `received` count the messages; `sent`
and `shown` are the ones that are through, in order. -/
structure Chat where
  app : App
  shrinkIncomingActive : Bool
  outgoing : List (Numbered PendingOutgoing)
  outgoingWorker : Option (Numbered PendingOutgoing)
  incoming : List (Numbered PendingIncoming)
  incomingWorker : Option (Numbered PendingIncoming)
  deliver : List ShrinkDeliver
  submitted : Nat
  received : Nat
  sent : List Sent
  shown : List Shown

/-- What a user submits; a message that comes back from the shortener is not submitted. -/
def Talk.isSubmitted : Talk → Bool
  | .substituted _ _ => false
  | _ => true

/-- What can happen to a client. -/
inductive ChatAct where
  | submit (t : Talk) (submitted : t.isSubmitted = true)
  /-- A message or an action arrives. -/
  | receive (bufferId : Str) (message : Message) (enqueues : Bool)
  /-- A notice, or an event of a buffer, arrives. -/
  | receiveNotice (bufferId : Str) (message : Message) (enqueues : Bool)
  | takeOutgoing
  | postOutgoing (substitutedText : Str)
  | panicOutgoing
  | takeIncoming
  | postIncoming (substitutedText : Str)
  | panicIncoming
  | postManual (bufferId display : Str)
  /-- The main loop takes the next delivery. -/
  | applyDeliver
  /-- The client is changed by something else. -/
  | other (app : App) (shrinkIncomingActive : Bool)

namespace Chat

/-- The capacity of the channel to the main loop. -/
def deliverCapacity : Nat := 1024

variable (w : World) (cr : Crates)

/-- `add_message_with_activity_unshrunk` -/
def addUnshrunk (s : Chat) (number : Nat) (bufferId : Str) (message : Message) : Chat :=
  if (s.app.state.buffers.get? bufferId).isSome then
    { s with
      app := { s.app with state := s.app.state.addMessage bufferId message }
      shown := s.shown ++ [⟨number, bufferId, message⟩] }
  else s

/-- Whether a received message goes to the shortener. -/
def defers (s : Chat) (offered : Bool) (message : Message) (enqueues : Bool) : Bool :=
  offered && !(w.findLongUrls message.text s.app.state.shrinkMinUrlLength).isEmpty && enqueues

/-- Offer a received message to the shortener. -/
def offer (s : Chat) (offered : Bool) (bufferId : Str) (message : Message) (enqueues : Bool) :
    Chat :=
  let urls := w.findLongUrls message.text s.app.state.shrinkMinUrlLength
  if s.defers w offered message enqueues then
    { s with
      received := s.received + 1
      incoming := s.incoming ++ [⟨s.received, ⟨bufferId, message, urls⟩⟩] }
  else
    { s with received := s.received + 1 }.addUnshrunk s.received bufferId message

/-- `add_message_with_activity` -/
def addMessageWithActivity (s : Chat) (bufferId : Str) (message : Message) (enqueues : Bool) :
    Chat :=
  s.offer w s.shrinkIncomingActive bufferId message enqueues

/-- Whether a message is by the user of the buffer's connection. -/
def isOwn (st : AppState) (bufferId : Str) (message : Message) : Bool :=
  match (st.buffers.get? bufferId).bind (fun b => st.connections.get? b.connectionId),
      message.nick with
  | some c, some nick => eqIgnoreAsciiCase c.nick nick
  | _, _ => false

/-- Whether `add_message` offers a message: only the notices of others. -/
def offersNotice (s : Chat) (bufferId : Str) (message : Message) : Bool :=
  s.shrinkIncomingActive && decide (message.messageType = .notice) &&
    message.nick.any (fun nick => !nick.isEmpty) && !isOwn s.app.state bufferId message

/-- `add_message` -/
def addMessage (s : Chat) (bufferId : Str) (message : Message) (enqueues : Bool) : Chat :=
  s.offer w (s.offersNotice bufferId message) bufferId message enqueues

/-- A piece of talking of the user, which goes to the shortener or is handled at once. -/
def submit (s : Chat) (t : Talk) : Chat :=
  let app := t.run w cr s.app
  match app.shrinkOutgoing.drop s.app.shrinkOutgoing.length with
  | p :: _ =>
    { s with
      app := app
      submitted := s.submitted + 1
      outgoing := s.outgoing ++ [⟨s.submitted, p⟩] }
  | [] =>
    { s with
      app := app
      submitted := s.submitted + 1
      sent := s.sent ++ [⟨s.submitted, s.app.state.activeBufferId,
        app.handed.drop s.app.handed.length⟩] }

/-- `apply_shrink_deliver` -/
def applyShrinkDeliver (s : Chat) : ShrinkDeliver → Chat
  | .outgoing out substitutedText =>
    let app := s.app.sendOutgoingSubstituted cr w out.item substitutedText
    { s with
      app := app
      sent := s.sent ++ [⟨out.number, some out.item.bufferId,
        app.handed.drop s.app.handed.length⟩] }
  | .incoming inc => s.addUnshrunk inc.number inc.item.bufferId inc.item.message
  | .manual bufferId display =>
    { s with app := { s.app with
        state := s.app.state.addMessage bufferId ⟨.event, none, display⟩ } }

/-- One step. A worker that finds the channel full waits. -/
def step (s : Chat) : ChatAct → Chat
  | .submit t _ => s.submit w cr t
  | .receive bufferId message enqueues => s.addMessageWithActivity w bufferId message enqueues
  | .receiveNotice bufferId message enqueues => s.addMessage w bufferId message enqueues
  | .takeOutgoing =>
    match s.outgoingWorker, s.outgoing with
    | none, p :: rest => { s with outgoingWorker := some p, outgoing := rest }
    | _, _ => s
  | .postOutgoing substitutedText =>
    match s.outgoingWorker with
    | some p =>
      if s.deliver.length < deliverCapacity then
        { s with outgoingWorker := none, deliver := s.deliver ++ [.outgoing p substitutedText] }
      else s
    | none => s
  | .panicOutgoing => { s with outgoingWorker := none }
  | .takeIncoming =>
    match s.incomingWorker, s.incoming with
    | none, p :: rest => { s with incomingWorker := some p, incoming := rest }
    | _, _ => s
  | .postIncoming substitutedText =>
    match s.incomingWorker with
    | some ⟨number, p⟩ =>
      if s.deliver.length < deliverCapacity then
        { s with
          incomingWorker := none
          deliver := s.deliver ++
            [.incoming ⟨number, { p with message := { p.message with text := substitutedText } }⟩] }
      else s
    | none => s
  | .panicIncoming => { s with incomingWorker := none }
  | .postManual bufferId display =>
    if s.deliver.length < deliverCapacity then
      { s with deliver := s.deliver ++ [.manual bufferId display] }
    else s
  | .applyDeliver =>
    match s.deliver with
    | d :: rest => { s with deliver := rest }.applyShrinkDeliver w cr d
    | [] => s
  | .other app shrinkIncomingActive =>
    { s with app := app, shrinkIncomingActive := shrinkIncomingActive }

/-- A client that has just started. -/
def start (app : App) (shrinkIncomingActive : Bool) : Chat where
  app := app
  shrinkIncomingActive := shrinkIncomingActive
  outgoing := []
  outgoingWorker := none
  incoming := []
  incomingWorker := none
  deliver := []
  submitted := 0
  received := 0
  sent := []
  shown := []

/-! ### Order -/

end Chat

def Sent.tag (m : Sent) : Nat × Option Str := (m.number, m.bufferId)

def Shown.tag (m : Shown) : Nat × Str := (m.number, m.bufferId)

def outgoingTag (p : Numbered PendingOutgoing) : Nat × Option Str :=
  (p.number, some p.item.bufferId)

def incomingTag (p : Numbered PendingIncoming) : Nat × Str := (p.number, p.item.bufferId)

def ShrinkDeliver.outgoingTag? : ShrinkDeliver → Option (Nat × Option Str)
  | .outgoing out _ => some (outgoingTag out)
  | _ => none

def ShrinkDeliver.incomingTag? : ShrinkDeliver → Option (Nat × Str)
  | .incoming inc => some (incomingTag inc)
  | _ => none

/-- What a talk leaves to the shortener. -/
def App.posts (w : World) (app : App) : Talk → Option PendingOutgoing
  | .plain text =>
    match app.state.activeBuffer with
    | some buf =>
      if (buf.bufferType = .channel || buf.bufferType = .query) &&
          (app.qualifiesForShrink w text && w.enqueues app.clock) then
        some (app.pendingOutgoing w buf text)
      else none
    | none => none
  | _ => none

/-! ### What talking leaves to the shortener -/

section Posts

variable {w : World} {cr : Crates}

theorem App.send_shrinkOutgoing (app : App) (line : Handed) :
    (app.send w line).2.shrinkOutgoing = app.shrinkOutgoing := by
  rw [App.send]
  split_ifs
  · rfl
  · rfl

theorem App.sayDcc_shrinkOutgoing (app : App) (dccNick bufferId : Str) (messageType : MessageType)
    (wire text : Str) :
    (app.sayDcc w dccNick bufferId messageType wire text).shrinkOutgoing = app.shrinkOutgoing := by
  rw [App.sayDcc]
  cases app.findConnected w dccNick with
  | none => rfl
  | some record =>
    simp only [App.sendChatLine]
    by_cases hsends : w.sends app.clock = true
    · simp only [if_pos hsends]
      rfl
    · simp only [if_neg hsends]
      rfl

theorem App.msgChunks_shrinkOutgoing (connId target bufferId nick : Str) (echo : Bool)
    (chunks : List Str) (app : App) :
    (App.msgChunks w connId target bufferId nick echo chunks app).shrinkOutgoing =
      app.shrinkOutgoing := by
  induction chunks generalizing app with
  | nil => rfl
  | cons chunk rest ih =>
    have hsend := @App.send_shrinkOutgoing w app ⟨connId, .privmsg, target, chunk⟩
    rw [App.msgChunks]
    split_ifs
    · exact (ih _).trans hsend
    · exact (ih _).trans hsend
    · exact hsend
    · exact ih _
    · exact ih _
    · rfl

theorem App.sendAndShow_shrinkOutgoing (app : App) (connId target bufferId : Str)
    (messageType : MessageType) (wire text : Str) :
    (app.sendAndShow w connId target bufferId messageType wire text).shrinkOutgoing =
      app.shrinkOutgoing := by
  have hsend := @App.send_shrinkOutgoing w app ⟨connId, .privmsg, target, wire⟩
  rw [App.sendAndShow]
  split_ifs
  · exact hsend
  · exact hsend
  · rfl
  · rfl

theorem App.sendInline_shrinkOutgoing (app : App) (buf : Buffer) (text : Str) :
    (app.sendInline cr w buf text).shrinkOutgoing = app.shrinkOutgoing := by
  rw [App.sendInline]
  exact (handsOnly_deliver app _ _ _ _ _
    (samePlaces_e2eEncryptOrPassthrough cr _ app.state buf.id buf.name buf.bufferType text
      none)).shrinkOutgoing

theorem handlePlainMessage_shrinkOutgoing (app : App) (text : Str) :
    (app.handlePlainMessage cr w text).shrinkOutgoing =
      app.shrinkOutgoing ++ (app.posts w (.plain text)).toList := by
  rw [App.handlePlainMessage, App.posts]
  cases app.state.activeBuffer with
  | none => exact (List.append_nil _).symm
  | some buf =>
    have hsend : (if app.qualifiesForShrink w text then
          if w.enqueues app.clock then { app.tick with
            shrinkOutgoing := app.shrinkOutgoing ++ [app.pendingOutgoing w buf text] }
          else App.sendInline cr w app.tick buf text
        else App.sendInline cr w app buf text).shrinkOutgoing =
        app.shrinkOutgoing ++ (if app.qualifiesForShrink w text && w.enqueues app.clock then
          some (app.pendingOutgoing w buf text) else none).toList := by
      by_cases hq : app.qualifiesForShrink w text = true
      · by_cases he : w.enqueues app.clock = true
        · simp only [hq, he, if_true, Bool.and_self, Option.toList_some]
        · rw [if_pos hq, if_neg he, App.sendInline_shrinkOutgoing]
          simp [hq, he, App.tick]
      · rw [if_neg hq, App.sendInline_shrinkOutgoing]
        simp [hq]
    cases htype : buf.bufferType with
    | channel => simpa [htype] using hsend
    | query => simpa [htype] using hsend
    | dccChat => simp [htype, App.sayDcc_shrinkOutgoing]
    | mentions => simp [htype]
    | server => simp [htype]
    | special => simp [htype]
    | shell => simp [htype]
    | log => simp [htype]

theorem App.cmdMsg_shrinkOutgoing (app : App) (args : List Str) :
    (app.cmdMsg w args).shrinkOutgoing = app.shrinkOutgoing := by
  rcases args with _ | ⟨target, _ | ⟨text, rest⟩⟩
  · rfl
  · rfl
  · simp only [App.cmdMsg]
    cases Text.stripPrefix ['='] target with
    | some dccNick => exact App.sayDcc_shrinkOutgoing _ _ _ _ _ _
    | none =>
      cases app.activeConnId with
      | none => rfl
      | some connId => exact App.msgChunks_shrinkOutgoing _ _ _ _ _ _ _

theorem App.cmdQuery_shrinkOutgoing (app : App) (args : List Str) :
    (app.cmdQuery w args).shrinkOutgoing = app.shrinkOutgoing := by
  rcases args with _ | ⟨target, rest⟩
  · rfl
  · simp only [App.cmdQuery]
    cases app.activeConnId with
    | none => rfl
    | some connId =>
      cases rest with
      | nil => rfl
      | cons text rest => exact App.sendAndShow_shrinkOutgoing _ _ _ _ _ _ _

theorem App.cmdMe_shrinkOutgoing (app : App) (args : List Str) :
    (app.cmdMe w args).shrinkOutgoing = app.shrinkOutgoing := by
  rcases args with _ | ⟨actionText, rest⟩
  · rfl
  · simp only [App.cmdMe]
    cases app.state.activeBuffer with
    | none => rfl
    | some buf =>
      simp only
      split_ifs
      · exact App.sayDcc_shrinkOutgoing _ _ _ _ _ _
      · exact App.sendAndShow_shrinkOutgoing _ _ _ _ _ _ _
      · rfl

/-- A talk leaves to the shortener what it posts, and nothing else. -/
theorem Talk.run_shrinkOutgoing (app : App) {t : Talk} (ht : t.isSubmitted = true) :
    (t.run w cr app).shrinkOutgoing = app.shrinkOutgoing ++ (app.posts w t).toList := by
  cases t with
  | plain text => exact handlePlainMessage_shrinkOutgoing app text
  | substituted out text => cases ht
  | msg args => exact (App.cmdMsg_shrinkOutgoing app args).trans (List.append_nil _).symm
  | query args => exact (App.cmdQuery_shrinkOutgoing app args).trans (List.append_nil _).symm
  | me args => exact (App.cmdMe_shrinkOutgoing app args).trans (List.append_nil _).symm

end Posts

namespace Chat

variable (w : World) (cr : Crates)

/-- The submitted messages, by the buffer they were submitted in: those with the shortener, and
those that were handed over. -/
def outgoingLanes (s : Chat) : Lanes (Option Str) where
  count := s.submitted
  queue := s.deliver.filterMap ShrinkDeliver.outgoingTag? ++
    (s.outgoingWorker.toList ++ s.outgoing).map outgoingTag
  arrived := s.sent.map Sent.tag

/-- The received messages by their buffer: those with the shortener, and those in the buffer. -/
def incomingLanes (s : Chat) : Lanes Str where
  count := s.received
  queue := s.deliver.filterMap ShrinkDeliver.incomingTag? ++
    (s.incomingWorker.toList ++ s.incoming).map incomingTag
  arrived := s.shown.map Shown.tag

/-- In each buffer, messages are handed over in the order in which they were submitted, and
appended in the order in which they were received. -/
def InOrder (s : Chat) : Prop :=
  Lanes.InOrder (s.sent.map Sent.tag) ∧ Lanes.InOrder (s.shown.map Shown.tag)

/-- A message that does not go to the shortener finds no other of its buffer there. -/
def InTurn (s : Chat) : ChatAct → Prop
  | .submit t _ => s.app.posts w t = none →
      ∀ a ∈ s.outgoingLanes.queue, a.2 ≠ s.app.state.activeBufferId
  | .receive bufferId message enqueues =>
      s.defers w s.shrinkIncomingActive message enqueues = false →
      ∀ a ∈ s.incomingLanes.queue, a.2 ≠ bufferId
  | .receiveNotice bufferId message enqueues =>
      s.defers w (s.offersNotice bufferId message) message enqueues = false →
      ∀ a ∈ s.incomingLanes.queue, a.2 ≠ bufferId
  | _ => True

variable {w : World} {cr : Crates} {s : Chat}

/-! ### What the steps do to the lanes -/

theorem outgoingLanes_addUnshrunk (s : Chat) (number : Nat) (bufferId : Str) (message : Message) :
    (s.addUnshrunk number bufferId message).outgoingLanes = s.outgoingLanes := by
  rw [addUnshrunk]
  split_ifs
  · rfl
  · rfl

theorem incomingLanes_addUnshrunk (s : Chat) (number : Nat) (bufferId : Str) (message : Message) :
    (s.addUnshrunk number bufferId message).incomingLanes =
      { s.incomingLanes with arrived := s.incomingLanes.arrived ++
        if (s.app.state.buffers.get? bufferId).isSome then [(number, bufferId)] else [] } := by
  rw [addUnshrunk]
  by_cases h : (s.app.state.buffers.get? bufferId).isSome = true
  · simp only [if_pos h, incomingLanes, List.map_append, List.map_cons, List.map_nil, Shown.tag]
  · simp only [if_neg h, List.append_nil]

theorem outgoingLanes_offer (s : Chat) (offered : Bool) (bufferId : Str) (message : Message)
    (enqueues : Bool) :
    (s.offer w offered bufferId message enqueues).outgoingLanes = s.outgoingLanes := by
  rw [offer]
  split_ifs
  · rfl
  · exact outgoingLanes_addUnshrunk _ _ _ _

/-- What one step does to a lane: one step of it, or none. -/
def LaneStep {κ : Type} (inTurn : Prop) (l l' : Lanes κ) : Prop :=
  l' = l ∨ ∃ a, l' = l.step a ∧ (inTurn → l.InTurn a)

theorem incomingLanes_offer (s : Chat) (offered : Bool) (bufferId : Str) (message : Message)
    (enqueues : Bool) :
    LaneStep (s.defers w offered message enqueues = false →
        ∀ a ∈ s.incomingLanes.queue, a.2 ≠ bufferId)
      s.incomingLanes (s.offer w offered bufferId message enqueues).incomingLanes := by
  right
  rw [offer]
  by_cases hdefers : s.defers w offered message enqueues = true
  · refine ⟨.enter bufferId, ?_, fun _ => trivial⟩
    rw [if_pos hdefers, incomingLanes, Lanes.step]
    simp only [incomingLanes, List.append_assoc, List.map_append]
    rfl
  · rw [if_neg hdefers, incomingLanes_addUnshrunk]
    split_ifs
    · exact ⟨.direct bufferId, rfl, fun hturn => hturn (Bool.eq_false_iff.mpr hdefers)⟩
    · refine ⟨.vanish, ?_, fun _ => trivial⟩
      rw [List.append_nil]
      rfl

theorem outgoingLanes_submit (s : Chat) {t : Talk} (ht : t.isSubmitted = true) :
    LaneStep (s.app.posts w t = none →
        ∀ a ∈ s.outgoingLanes.queue, a.2 ≠ s.app.state.activeBufferId)
      s.outgoingLanes (s.submit w cr t).outgoingLanes := by
  right
  have hdrop : (t.run w cr s.app).shrinkOutgoing.drop s.app.shrinkOutgoing.length =
      (s.app.posts w t).toList := by
    rw [Talk.run_shrinkOutgoing s.app ht, List.drop_left]
  simp only [submit, hdrop]
  cases hposts : s.app.posts w t with
  | none =>
    refine ⟨.direct s.app.state.activeBufferId, ?_, fun hturn => hturn rfl⟩
    simp only [Option.toList_none, outgoingLanes, Lanes.step, List.map_append, List.map_cons,
      List.map_nil, Sent.tag]
  | some p =>
    refine ⟨.enter (some p.bufferId), ?_, fun _ => trivial⟩
    simp only [Option.toList_some, outgoingLanes, Lanes.step, List.map_append, List.map_cons,
      List.map_nil, List.append_assoc, outgoingTag]

/-- The main loop takes the head of the queue, if it is an outgoing message. -/
theorem outgoingLanes_applyDeliver (s : Chat) (d : ShrinkDeliver) (rest : List ShrinkDeliver)
    (hdeliver : s.deliver = d :: rest) (inTurn : Prop) :
    LaneStep inTurn s.outgoingLanes
      ({ s with deliver := rest }.applyShrinkDeliver w cr d).outgoingLanes := by
  cases d with
  | outgoing out substitutedText =>
    refine .inr ⟨.leave, ?_, fun _ => trivial⟩
    simp only [applyShrinkDeliver, outgoingLanes, Lanes.step, hdeliver, List.map_append]
    rfl
  | incoming inc =>
    left
    rw [applyShrinkDeliver, outgoingLanes_addUnshrunk]
    simp only [outgoingLanes, hdeliver]
    rfl
  | manual bufferId display =>
    left
    simp only [applyShrinkDeliver, outgoingLanes, hdeliver]
    rfl

theorem incomingLanes_applyDeliver (s : Chat) (d : ShrinkDeliver) (rest : List ShrinkDeliver)
    (hdeliver : s.deliver = d :: rest) (inTurn : Prop) :
    LaneStep inTurn s.incomingLanes
      ({ s with deliver := rest }.applyShrinkDeliver w cr d).incomingLanes := by
  cases d with
  | outgoing out substitutedText =>
    left
    simp only [applyShrinkDeliver, incomingLanes, hdeliver]
    rfl
  | incoming inc =>
    right
    rw [applyShrinkDeliver, incomingLanes_addUnshrunk]
    by_cases hexists : (s.app.state.buffers.get? inc.item.bufferId).isSome = true
    · refine ⟨.leave, ?_, fun _ => trivial⟩
      simp only [incomingLanes, Lanes.step, hdeliver, if_pos hexists]
      rfl
    · -- the buffer was closed while the message waited
      refine ⟨.lose 0, ?_, fun _ => trivial⟩
      simp only [incomingLanes, Lanes.step, hdeliver, if_neg hexists, List.append_nil]
      rfl
  | manual bufferId display =>
    left
    simp only [applyShrinkDeliver, incomingLanes, hdeliver]
    rfl

/-- The message of a worker stands behind what has been delivered. -/
theorem eraseIdx_worker {α : Type} (front back : List α) (worker : Option α) :
    (front ++ (worker.toList ++ back)).eraseIdx front.length = front ++ back ∨ worker = none := by
  cases worker with
  | none => exact .inr rfl
  | some p =>
    left
    rw [List.eraseIdx_append_of_length_le (Nat.le_refl _), Nat.sub_self]
    rfl

/-- **Refinement**: each step does one step of the lane of submitted messages, or none. -/
theorem outgoingLanes_step (s : Chat) (a : ChatAct) :
    LaneStep (s.InTurn w a) s.outgoingLanes (s.step w cr a).outgoingLanes := by
  cases a with
  | submit t ht => exact outgoingLanes_submit s ht
  | receive bufferId message enqueues => exact .inl (outgoingLanes_offer _ _ _ _ _)
  | receiveNotice bufferId message enqueues => exact .inl (outgoingLanes_offer _ _ _ _ _)
  | takeOutgoing =>
    left
    rw [step]
    cases hworker : s.outgoingWorker with
    | some p => rfl
    | none =>
      cases hqueue : s.outgoing with
      | nil => rfl
      | cons p rest =>
        simp only [outgoingLanes, hworker, hqueue]
        rfl
  | postOutgoing substitutedText =>
    left
    rw [step]
    cases hworker : s.outgoingWorker with
    | none => rfl
    | some p =>
      simp only
      split_ifs
      · simp only [outgoingLanes, hworker, List.filterMap_append, List.append_assoc]
        rfl
      · rfl
  | panicOutgoing =>
    rw [step]
    rcases eraseIdx_worker (s.deliver.filterMap ShrinkDeliver.outgoingTag?)
      (s.outgoing.map outgoingTag) (s.outgoingWorker.map outgoingTag) with herase | hnone
    · refine .inr ⟨.lose (s.deliver.filterMap ShrinkDeliver.outgoingTag?).length, ?_,
        fun _ => trivial⟩
      simp only [outgoingLanes, Lanes.step, List.map_append, ← Option.toList_map, herase]
      rfl
    · left
      rw [Option.map_eq_none_iff] at hnone
      simp only [outgoingLanes, hnone]
  | takeIncoming =>
    left
    rw [step]
    cases s.incomingWorker with
    | some p => rfl
    | none =>
      cases s.incoming with
      | nil => rfl
      | cons p rest => rfl
  | postIncoming substitutedText =>
    left
    rw [step]
    cases s.incomingWorker with
    | none => rfl
    | some p =>
      simp only
      split_ifs
      · simp only [outgoingLanes, List.filterMap_append]
        rw [List.filterMap_cons_none rfl, List.filterMap_nil, List.append_nil]
      · rfl
  | panicIncoming => exact .inl rfl
  | postManual bufferId display =>
    left
    rw [step]
    split_ifs
    · simp only [outgoingLanes, List.filterMap_append]
      rw [List.filterMap_cons_none rfl, List.filterMap_nil, List.append_nil]
    · rfl
  | applyDeliver =>
    rw [step]
    cases hdeliver : s.deliver with
    | nil => exact .inl rfl
    | cons d rest => exact outgoingLanes_applyDeliver s d rest hdeliver _
  | other app active => exact .inl rfl

/-- **Refinement**: each step does one step of the lane of received messages, or none. -/
theorem incomingLanes_step (s : Chat) (a : ChatAct) :
    LaneStep (s.InTurn w a) s.incomingLanes (s.step w cr a).incomingLanes := by
  cases a with
  | submit t ht =>
    left
    rw [step, submit]
    split
    · rfl
    · rfl
  | receive bufferId message enqueues => exact incomingLanes_offer _ _ _ _ _
  | receiveNotice bufferId message enqueues => exact incomingLanes_offer _ _ _ _ _
  | takeOutgoing =>
    left
    rw [step]
    cases s.outgoingWorker with
    | some p => rfl
    | none =>
      cases s.outgoing with
      | nil => rfl
      | cons p rest => rfl
  | postOutgoing substitutedText =>
    left
    rw [step]
    cases s.outgoingWorker with
    | none => rfl
    | some p =>
      simp only
      split_ifs
      · simp only [incomingLanes, List.filterMap_append]
        rw [List.filterMap_cons_none rfl, List.filterMap_nil, List.append_nil]
      · rfl
  | panicOutgoing => exact .inl rfl
  | takeIncoming =>
    left
    rw [step]
    cases hworker : s.incomingWorker with
    | some p => rfl
    | none =>
      cases hqueue : s.incoming with
      | nil => rfl
      | cons p rest =>
        simp only [incomingLanes, hworker, hqueue]
        rfl
  | postIncoming substitutedText =>
    left
    rw [step]
    cases hworker : s.incomingWorker with
    | none => rfl
    | some p =>
      simp only
      split_ifs
      · simp only [incomingLanes, hworker, List.filterMap_append, List.append_assoc]
        rfl
      · rfl
  | panicIncoming =>
    rw [step]
    rcases eraseIdx_worker (s.deliver.filterMap ShrinkDeliver.incomingTag?)
      (s.incoming.map incomingTag) (s.incomingWorker.map incomingTag) with herase | hnone
    · refine .inr ⟨.lose (s.deliver.filterMap ShrinkDeliver.incomingTag?).length, ?_,
        fun _ => trivial⟩
      simp only [incomingLanes, Lanes.step, List.map_append, ← Option.toList_map, herase]
      rfl
    · left
      rw [Option.map_eq_none_iff] at hnone
      simp only [incomingLanes, hnone]
  | postManual bufferId display =>
    left
    rw [step]
    split_ifs
    · simp only [incomingLanes, List.filterMap_append]
      rw [List.filterMap_cons_none rfl, List.filterMap_nil, List.append_nil]
    · rfl
  | applyDeliver =>
    rw [step]
    cases hdeliver : s.deliver with
    | nil => exact .inl rfl
    | cons d rest => exact incomingLanes_applyDeliver s d rest hdeliver _
  | other app active => exact .inl rfl

/-! ### Runs -/

theorem LaneStep.sound {κ : Type} {inTurn : Prop} {l l' : Lanes κ} (h : LaneStep inTurn l l')
    (hsound : l.Sound) (hturn : inTurn) : l'.Sound := by
  rcases h with rfl | ⟨a, rfl, hact⟩
  · exact hsound
  · exact Lanes.sound_step hsound (hact hturn)

/-- The messages of both directions that are through, and those to come, are in order. -/
def Sound (s : Chat) : Prop := s.outgoingLanes.Sound ∧ s.incomingLanes.Sound

theorem sound_step {a : ChatAct} (h : s.Sound) (hturn : s.InTurn w a) :
    (s.step w cr a).Sound :=
  ⟨(outgoingLanes_step s a).sound h.1 hturn, (incomingLanes_step s a).sound h.2 hturn⟩

theorem sound_start (app : App) (active : Bool) : (start app active).Sound :=
  ⟨⟨nofun, List.Pairwise.nil⟩, ⟨nofun, List.Pairwise.nil⟩⟩

/-- Whatever is submitted, received, shortened and delivered, each conversation is in order as long
as no message overtakes another of its buffer that is with the shortener. -/
theorem inOrder_run (app : App) (active : Bool) {acts : List ChatAct}
    (h : Run.Guarded (step w cr) (InTurn w) (start app active) acts) :
    (Run.run (step w cr) (start app active) acts).InOrder := by
  have hsound : (Run.run (step w cr) (start app active) acts).Sound :=
    Run.Guarded.invariant (P := Sound) (fun _ _ hs hturn => sound_step hs hturn)
      (sound_start app active) h
  exact ⟨hsound.1.arrived_inOrder, hsound.2.arrived_inOrder⟩

end Chat

/-! ### A short message and a link -/

namespace Sample

/-- Surroundings in which a message that is a link is shortened. -/
def linkWorld : World :=
  { world with
    findLongUrls := fun text _ => if Text.startsWith text (str "https://") then [text] else []
    enqueues := fun _ => true }

/-- A client in the channel `#rust` that shortens links and encrypts nothing. -/
def linkClient : App :=
  { inRust with
    shrink := ⟨true, true, true⟩
    state := { inRust.state with e2eManager := none } }

/-- A link is submitted and comes back shortened, and then a short message is submitted; meanwhile
alice says a link and bob greets her after it has come back. -/
def linkHelloInTurn : List ChatAct :=
  [.submit (.plain (str "https://example.org")) rfl, .takeOutgoing,
    .receive (str "libera/#rust") ⟨.message, some (str "alice"), str "https://docs.rs"⟩ true,
    .takeIncoming, .postOutgoing (str "shr.al/x"), .applyDeliver,
    .submit (.plain (str "hello")) rfl, .postIncoming (str "shr.al/y"), .applyDeliver,
    .receive (str "libera/#rust") ⟨.message, some (str "bob"), str "hi alice"⟩ true]

/-- A link is submitted, and a short message before it comes back. -/
def linkThenHello : List ChatAct :=
  [.submit (.plain (str "https://example.org")) rfl, .submit (.plain (str "hello")) rfl,
    .takeOutgoing, .postOutgoing (str "shr.al/x"), .applyDeliver]

end Sample

namespace Chat

open Sample

theorem inOrder_run_link :
    (Run.run (step linkWorld sample) (start linkClient true) linkHelloInTurn).sent.map Sent.tag =
        [(0, some (str "libera/#rust")), (1, some (str "libera/#rust"))] ∧
      (Run.run (step linkWorld sample) (start linkClient true) linkHelloInTurn).shown.map
        Shown.message =
        [⟨.message, some (str "alice"), str "shr.al/y"⟩,
          ⟨.message, some (str "bob"), str "hi alice"⟩] ∧
      (Run.run (step linkWorld sample) (start linkClient true) linkHelloInTurn).InOrder := by
  have hnone {κ : Type} (k : κ) : ∀ a ∈ ([] : List (Nat × κ)), a.2 ≠ k :=
    fun a ha => absurd ha List.not_mem_nil
  exact ⟨by rfl, by rfl, inOrder_run linkClient true
    ⟨fun _ => hnone _, trivial, fun _ => hnone _, trivial, trivial, trivial, fun _ => hnone _,
      trivial, trivial, fun _ => hnone _, trivial⟩⟩

/-- The short message is handed over before the link. -/
theorem hello_overtakes :
    (Run.run (step linkWorld sample) (start linkClient false) linkThenHello).sent =
      [⟨1, some (str "libera/#rust"), [⟨str "libera", .privmsg, str "#rust", str "hello"⟩]⟩,
        ⟨0, some (str "libera/#rust"), [⟨str "libera", .privmsg, str "#rust", str "shr.al/x"⟩]⟩] ∧
    ¬ (Run.run (step linkWorld sample) (start linkClient false) linkThenHello).InOrder := by
  have hsent : (Run.run (step linkWorld sample) (start linkClient false) linkThenHello).sent =
      [⟨1, some (str "libera/#rust"), [⟨str "libera", .privmsg, str "#rust", str "hello"⟩]⟩,
        ⟨0, some (str "libera/#rust"),
          [⟨str "libera", .privmsg, str "#rust", str "shr.al/x"⟩]⟩] := by
    rfl
  refine ⟨hsent, fun hinOrder => ?_⟩
  have hout := hinOrder.1
  rw [hsent] at hout
  have hlt := (List.pairwise_cons.mp hout).1 _ (List.mem_singleton_self _) rfl
  exact absurd hlt (by decide)

end Chat

end Repartee
