import Repartee.Lib.Run
import Repartee.Ui.ChatView

/-!
# Terminal output of an attached shim

The terminal writes into a `SocketWriter` (`session/writer.rs`), a flush sends what is in its
buffer through a channel, and the output task of `handle_shim_connect` (`app/session.rs`) writes the
messages to the socket. A counter, which both sides change, bounds what is under way. Calls and the
task run at the same time, and each access to the counter, the channel and the socket is a step.

## Main definitions

- `Link`, `Link.perform`: the state of a connection, and one step of the writer or of the task
- `Link.Accounts`: where the accepted bytes are, and what the counter counts

## Main results

- `accounts_run`: the accounts are right after any steps
- `faithful_run`: the output is lossless and bounded
-/

set_option autoImplicit false

namespace Repartee

namespace SocketOutput

open ChatView (usizeMax)

/-! ### The code -/

/-- Main → Shim (downstream) messages. -/
inductive MainMessage where
  | output (data : List UInt8)
  | detached
  | quit

/-- `output_len` -/
def MainMessage.outputLen : MainMessage → Nat
  | .output data => data.length
  | .detached | .quit => 0

inductive ErrorKind where
  | wouldBlock
  | brokenPipe

/-- Where a call of `flush` is, with the bytes that it has taken out of the buffer. -/
inductive Flush where
  | idle
  /-- In the loop of `reserve_queued_bytes`, with `current`. -/
  | reserving (data : List UInt8) (current : Nat)
  | sending (data : List UInt8)
  /-- `send` has failed, and the reservation is not yet given back. -/
  | refused (data : List UInt8)

/-- Where the output task is. -/
inductive Task where
  | receiving
  | writing (msg : MainMessage)
  /-- The message is written, or was not, and the counter still counts it. -/
  | written (msg : MainMessage) (ok : Bool)
  /-- The task has ended, and with it the receiver of the channel. -/
  | closed

/-- A connection: the writer, the channel, the task and the counter. The last three fields are what
an observer knows. -/
structure Link where
  buffer : List UInt8
  flush : Flush
  queue : List MainMessage
  task : Task
  queuedBytes : Nat
  /-- The last value of the counter that the writer has seen. -/
  seen : Nat
  delivered : List MainMessage
  /-- The bytes that `write` has accepted. -/
  accepted : List UInt8

/-- One step. A relaxed load comes with the value that it yields. -/
inductive Action where
  | write (buf : List UInt8) (loaded : Nat)
  | flush (loaded : Nat)
  /-- `compare_exchange_weak`: it succeeds, or fails and yields a value. -/
  | exchange (actual : Option Nat)
  | send
  | giveBack
  /-- `send_shim_control`, for `Detached` and for `Quit` -/
  | control (quit : Bool)
  | receive
  /-- `write_message`, which may fail. -/
  | deliver (ok : Bool)
  | subtract

/-- What a call returns. -/
inductive Reply where
  | wrote (result : Except ErrorKind Nat)
  | flushed (result : Except ErrorKind Unit)

def saturatingAdd (a b : Nat) : Nat := min (a + b) usizeMax

def checkedAdd (a b : Nat) : Option Nat := if a + b ≤ usizeMax then some (a + b) else none

/-- `fetch_sub`, which wraps around. -/
def wrappingSub (a b : Nat) : Nat := (a + (usizeMax + 1) - b) % (usizeMax + 1)

namespace Link

/-- `SocketWriter::new`, on a new channel and a counter at zero. -/
def new : Link where
  buffer := []
  flush := .idle
  queue := []
  task := .receiving
  queuedBytes := 0
  seen := 0
  delivered := []
  accepted := []

variable (max : Nat) (l : Link)

/-- A relaxed load by the writer yields a value that the counter has had since the writer last saw
it, and since then it has only been lowered. -/
abbrev MayLoad (v : Nat) : Prop := l.queuedBytes ≤ v ∧ v ≤ l.seen

/-- `SocketWriter::write` -/
def write (buf : List UInt8) (loaded : Nat) : Link × Option Reply :=
  match l.flush with
  | .idle =>
    let pending := saturatingAdd (saturatingAdd loaded l.buffer.length) buf.length
    if ¬ l.MayLoad loaded then (l, none)
    else if max < pending then
      ({ l with seen := loaded }, some (.wrote (.error .wouldBlock)))
    else
      ({ l with
          seen := loaded
          buffer := l.buffer ++ buf
          accepted := l.accepted ++ buf }, some (.wrote (.ok buf.length)))
  | _ => (l, none)

/-- `SocketWriter::flush`, up to the load of `reserve_queued_bytes`. -/
def takeBuffer (loaded : Nat) : Link × Option Reply :=
  match l.flush with
  | .idle =>
    if l.buffer = [] then (l, some (.flushed (.ok ())))
    else if ¬ l.MayLoad loaded then (l, none)
    else ({ l with seen := loaded, buffer := [], flush := .reserving l.buffer loaded }, none)
  | _ => (l, none)

/-- A round of the loop in `SocketWriter::reserve_queued_bytes`. -/
def reserveQueuedBytes (actual : Option Nat) : Link × Option Reply :=
  match l.flush with
  | .reserving data current =>
    match (checkedAdd current data.length).filter (fun next => next ≤ max) with
    | none => ({ l with flush := .idle }, some (.flushed (.error .wouldBlock)))
    | some next =>
      match actual with
      | none =>
        if l.queuedBytes ≠ current then (l, none)
        else ({ l with queuedBytes := next, seen := next, flush := .sending data }, none)
      | some actual =>
        if ¬ l.MayLoad actual then (l, none)
        else ({ l with seen := actual, flush := .reserving data actual }, none)
  | _ => (l, none)

/-- `tx.send` of `SocketWriter::flush` -/
def sendOutput : Link × Option Reply :=
  match l.flush with
  | .sending data =>
    match l.task with
    | .closed => ({ l with flush := .refused data }, none)
    | _ =>
      ({ l with flush := .idle, queue := l.queue ++ [.output data] }, some (.flushed (.ok ())))
  | _ => (l, none)

/-- The way out of `SocketWriter::flush` when the channel is closed. -/
def giveBack : Link × Option Reply :=
  match l.flush with
  | .refused data =>
    let value := wrappingSub l.queuedBytes data.length
    ({ l with flush := .idle, queuedBytes := value, seen := value },
      some (.flushed (.error .brokenPipe)))
  | _ => (l, none)

/-- `send_shim_control` -/
def sendShimControl (quit : Bool) : Link :=
  match l.task with
  | .closed => l
  | _ => { l with queue := l.queue ++ [if quit then .quit else .detached] }

/-- `output_rx.recv` -/
def receive : Link :=
  match l.task, l.queue with
  | .receiving, msg :: queue => { l with queue := queue, task := .writing msg }
  | _, _ => l

/-- `write_message` -/
def deliver (ok : Bool) : Link :=
  match l.task with
  | .writing msg =>
    { l with
      task := .written msg ok
      delivered := if ok then l.delivered ++ [msg] else l.delivered }
  | _ => l

/-- The end of a round of the output task. -/
def subtract : Link :=
  match l.task with
  | .written msg ok =>
    { l with
      queuedBytes :=
        if 0 < msg.outputLen then wrappingSub l.queuedBytes msg.outputLen else l.queuedBytes
      task := if ok then .receiving else .closed }
  | _ => l

/-- One step: what is not possible in the state does nothing. -/
def perform : Action → Link × Option Reply
  | .write buf loaded => l.write max buf loaded
  | .flush loaded => l.takeBuffer loaded
  | .exchange actual => l.reserveQueuedBytes max actual
  | .send => l.sendOutput
  | .giveBack => l.giveBack
  | .control quit => (l.sendShimControl quit, none)
  | .receive => (l.receive, none)
  | .deliver ok => (l.deliver ok, none)
  | .subtract => (l.subtract, none)

def step (l : Link) (action : Action) : Link := (l.perform max action).1

end Link

/-! ### Accounts -/

/-- The bytes of the chunks among some messages. -/
def chunks (msgs : List MainMessage) : List UInt8 :=
  msgs.flatMap fun
    | .output data => data
    | .detached | .quit => []

/-- The bytes that a flush has taken and not yet reserved. -/
def Flush.unreserved : Flush → List UInt8
  | .reserving data _ => data
  | _ => []

/-- The bytes that a flush has reserved and not yet sent. -/
def Flush.reserved : Flush → List UInt8
  | .sending data | .refused data => data
  | _ => []

/-- The message that the task is about to write. -/
def Task.held : Task → List MainMessage
  | .writing msg => [msg]
  | _ => []

/-- What the counter still counts of the message that the task has written. -/
def Task.uncounted : Task → Nat
  | .written msg _ => msg.outputLen
  | _ => 0

/-- The socket has taken every message so far. -/
def Task.Works : Task → Prop
  | .written _ ok => ok = true
  | .closed => False
  | _ => True

namespace Link

/-- The messages that are sent and not yet written. -/
def unwritten (l : Link) : List MainMessage := l.task.held ++ l.queue

/-- Where the accepted bytes are, and what the counter counts. -/
structure Accounts (max : Nat) (l : Link) : Prop where
  known : l.queuedBytes ≤ l.seen
  /-- There is room for what has been written, also where the writer has an old value. -/
  room : l.seen + l.flush.unreserved.length + l.buffer.length ≤ max
  counted : l.queuedBytes =
    l.flush.reserved.length + (chunks l.unwritten).length + l.task.uncounted
  current : ∀ data current, l.flush = .reserving data current → current ≤ l.seen
  closed : ∀ data, l.flush = .refused data → l.task = .closed
  lossless : l.task.Works →
    chunks l.delivered ++ chunks l.unwritten ++ l.flush.reserved ++ l.flush.unreserved ++ l.buffer =
      l.accepted

end Link

/-- The state after some steps of the writer and the task, in any order. -/
def after (max : Nat) (actions : List Action) : Link := Run.run (Link.step max) .new actions

/-- The output after some steps is lossless and bounded. -/
structure Faithful (max : Nat) (actions : List Action) : Prop where
  /-- Between calls, what is delivered, what is queued and the buffer are the accepted bytes. -/
  lossless : (after max actions).task.Works → (after max actions).flush = .idle →
    chunks (after max actions).delivered ++ chunks (after max actions).unwritten ++
      (after max actions).buffer = (after max actions).accepted
  /-- The counter counts the bytes that are sent and not yet written, and besides those that a flush
  has reserved and is about to send, and those that the task has just written. -/
  counted : (after max actions).queuedBytes = (after max actions).flush.reserved.length +
    (chunks (after max actions).unwritten).length + (after max actions).task.uncounted
  bounded : (after max actions).queuedBytes ≤ max
  /-- What is taken off the counter is on it. -/
  noUnderflow : (after max actions).task.uncounted ≤ (after max actions).queuedBytes ∧
    ∀ data, (after max actions).flush = .refused data →
      data.length ≤ (after max actions).queuedBytes
  neverFull : ∀ action, ((after max actions).perform max action).2 ≠
    some (.flushed (.error .wouldBlock))

/-! ### Steps -/

theorem chunks_append (msgs msgs' : List MainMessage) :
    chunks (msgs ++ msgs') = chunks msgs ++ chunks msgs' := List.flatMap_append

theorem length_chunks_singleton (msg : MainMessage) : (chunks [msg]).length = msg.outputLen := by
  cases msg with
  | output data => exact congrArg List.length (List.append_nil data)
  | detached => rfl
  | quit => rfl

theorem wrappingSub_of_le {a b : Nat} (ha : a ≤ usizeMax) (hb : b ≤ a) :
    wrappingSub a b = a - b := by
  have hsub : a + (usizeMax + 1) - b = (a - b) + (usizeMax + 1) := by omega
  rw [wrappingSub, hsub, Nat.add_mod_right, Nat.mod_eq_of_lt (by omega)]

/-- Below the largest number, a saturating sum that is small enough is the sum. -/
theorem add_le_of_saturatingAdd_le {a b c max : Nat} (hmax : max < usizeMax)
    (h : saturatingAdd (saturatingAdd a b) c ≤ max) : a + b + c ≤ max := by
  rw [saturatingAdd, saturatingAdd] at h
  omega

namespace Link

variable {max : Nat} {l : Link}

theorem accounts_new (max : Nat) : Accounts max .new where
  known := Nat.le_refl 0
  room := Nat.zero_le max
  counted := rfl
  current _ _ h := nomatch h
  closed _ h := nomatch h
  lossless _ := rfl

namespace Accounts

theorem write (h : Accounts max l) (hmax : max < usizeMax) (buf : List UInt8) (loaded : Nat) :
    Accounts max (l.write max buf loaded).1 := by
  have hsame := h
  obtain ⟨buffer, flush, queue, task, queuedBytes, seen, delivered, accepted⟩ := l
  obtain ⟨hknown, hroom, hcounted, hcurrent, hclosed, hlossless⟩ := h
  cases flush with
  | idle =>
    dsimp only [Link.write]
    split_ifs with hload hfull
    · have hle := hload.2
      refine ⟨hload.1, ?_, hcounted, (fun _ _ heq => nomatch heq), hclosed, hlossless⟩
      dsimp only at hle hroom ⊢
      omega
    · have hsum := add_le_of_saturatingAdd_le hmax (Nat.not_lt.mp hfull)
      refine ⟨hload.1, ?_, hcounted, (fun _ _ heq => nomatch heq), hclosed, fun hworks => ?_⟩
      · dsimp only [Flush.unreserved] at hsum ⊢
        rw [List.length_append, List.length_nil]
        omega
      · have hbefore := hlossless hworks
        dsimp only at hbefore ⊢
        rw [← hbefore, List.append_assoc _ buffer buf]
        rfl
    · exact hsame
  | reserving | sending | refused => exact hsame

theorem takeBuffer (h : Accounts max l) (loaded : Nat) :
    Accounts max (l.takeBuffer loaded).1 := by
  have hsame := h
  obtain ⟨buffer, flush, queue, task, queuedBytes, seen, delivered, accepted⟩ := l
  obtain ⟨hknown, hroom, hcounted, hcurrent, hclosed, hlossless⟩ := h
  cases flush with
  | idle =>
    dsimp only [Link.takeBuffer]
    split_ifs with hbuffer hload
    · exact hsame
    · -- the bytes go from the buffer into the flush
      have hle := hload.2
      refine ⟨hload.1, ?_, hcounted, ?_, (fun _ heq => nomatch heq), fun hworks => ?_⟩
      · dsimp only [Flush.unreserved, List.length_nil] at hle hroom ⊢
        omega
      · rintro _ _ ⟨⟩
        exact Nat.le_refl loaded
      · have hbefore := hlossless hworks
        dsimp only [Flush.reserved, Flush.unreserved] at hbefore ⊢
        rw [← hbefore]
        simp only [List.append_nil]
        rfl
    · exact hsame
  | reserving | sending | refused => exact hsame

/-- A flush has room for its bytes. -/
theorem next_le (h : Accounts max l) {data : List UInt8} {current : Nat}
    (hflush : l.flush = .reserving data current) : current + data.length ≤ max := by
  have hroom := h.room
  have hcurrent := h.current data current hflush
  rw [hflush, Flush.unreserved] at hroom
  omega

/-- The check of a reservation never fails. -/
theorem checkedAdd_filter (h : Accounts max l) (hmax : max < usizeMax) {data : List UInt8}
    {current : Nat} (hflush : l.flush = .reserving data current) :
    (checkedAdd current data.length).filter (fun next => next ≤ max) =
      some (current + data.length) := by
  have hnext := h.next_le hflush
  rw [checkedAdd, if_pos (by omega), Option.filter_some, if_pos (decide_eq_true hnext)]

theorem reserveQueuedBytes (h : Accounts max l) (hmax : max < usizeMax) (actual : Option Nat) :
    Accounts max (l.reserveQueuedBytes max actual).1 := by
  have hsame := h
  rw [Link.reserveQueuedBytes]
  cases hflush : l.flush with
  | reserving data current =>
    dsimp only
    rw [h.checkedAdd_filter hmax hflush]
    obtain ⟨buffer, flush, queue, task, queuedBytes, seen, delivered, accepted⟩ := l
    obtain rfl : flush = .reserving data current := hflush
    obtain ⟨hknown, hroom, hcounted, hcurrent, hclosed, hlossless⟩ := h
    cases actual with
    | none =>
      dsimp only
      split_ifs with hne
      · exact hsame
      · obtain rfl : queuedBytes = current := Decidable.not_not.mp hne
        refine ⟨Nat.le_refl _, ?_, ?_, (fun _ _ heq => nomatch heq), (fun _ heq => nomatch heq),
          fun hworks => ?_⟩
        · dsimp only [Flush.unreserved, List.length_nil] at hknown hroom ⊢
          omega
        · dsimp only [unwritten, Flush.reserved, List.length_nil] at hcounted ⊢
          omega
        · have hbefore := hlossless hworks
          dsimp only [Flush.reserved, Flush.unreserved] at hbefore ⊢
          rw [← hbefore, List.append_nil, List.append_nil]
          rfl
    | some actual =>
      dsimp only
      split_ifs with hload
      · have hle := hload.2
        refine ⟨hload.1, ?_, hcounted, ?_, (fun _ heq => nomatch heq), hlossless⟩
        · dsimp only [Flush.unreserved] at hle hroom ⊢
          omega
        · rintro _ _ ⟨⟩
          exact Nat.le_refl actual
      · exact hsame
  | idle | sending | refused => exact hsame

theorem sendOutput (h : Accounts max l) : Accounts max l.sendOutput.1 := by
  have hsame := h
  rw [Link.sendOutput]
  cases hflush : l.flush with
  | sending data =>
    obtain ⟨buffer, flush, queue, task, queuedBytes, seen, delivered, accepted⟩ := l
    obtain rfl : flush = .sending data := hflush
    obtain ⟨hknown, hroom, hcounted, hcurrent, hclosed, hlossless⟩ := h
    -- on an open channel the chunk comes behind the messages that are queued
    have hsend : Accounts max
        ⟨buffer, .idle, queue ++ [.output data], task, queuedBytes, seen, delivered, accepted⟩ := by
      have hchunk : chunks [.output data] = data := List.append_nil data
      refine ⟨hknown, hroom, ?_, (fun _ _ heq => nomatch heq), (fun _ heq => nomatch heq),
        fun hworks => ?_⟩
      · dsimp only [unwritten, Flush.reserved, List.length_nil] at hcounted ⊢
        rw [← List.append_assoc, chunks_append _ [.output data], hchunk, List.length_append]
        omega
      · have hbefore := hlossless hworks
        dsimp only [unwritten, Flush.reserved, Flush.unreserved] at hbefore ⊢
        rw [← hbefore, ← List.append_assoc task.held, chunks_append _ [.output data], hchunk]
        simp only [List.append_nil, List.append_assoc]
    cases task with
    | closed =>
      refine ⟨hknown, hroom, hcounted, (fun _ _ heq => nomatch heq), fun _ _ => rfl, ?_⟩
      exact fun hworks => hworks.elim
    | receiving | writing | written => exact hsend
  | idle | reserving | refused => exact hsame

theorem giveBack (h : Accounts max l) (hmax : max < usizeMax) : Accounts max l.giveBack.1 := by
  have hsame := h
  rw [Link.giveBack]
  cases hflush : l.flush with
  | refused data =>
    obtain ⟨buffer, flush, queue, task, queuedBytes, seen, delivered, accepted⟩ := l
    obtain rfl : flush = .refused data := hflush
    obtain ⟨hknown, hroom, hcounted, hcurrent, hclosed, hlossless⟩ := h
    obtain rfl : task = .closed := hclosed data rfl
    dsimp only [unwritten, Flush.reserved, Flush.unreserved, List.length_nil] at *
    have hvalue : wrappingSub queuedBytes data.length = queuedBytes - data.length :=
      wrappingSub_of_le (by omega) (by omega)
    rw [hvalue]
    refine ⟨Nat.le_refl _, ?_, ?_, (fun _ _ heq => nomatch heq), (fun _ heq => nomatch heq),
      fun hworks => hworks.elim⟩
    · dsimp only [Flush.unreserved, List.length_nil]
      omega
    · dsimp only [unwritten, Flush.reserved, List.length_nil]
      omega
  | idle | reserving | sending => exact hsame

theorem sendShimControl (h : Accounts max l) (quit : Bool) :
    Accounts max (l.sendShimControl quit) := by
  have hsame := h
  obtain ⟨buffer, flush, queue, task, queuedBytes, seen, delivered, accepted⟩ := l
  obtain ⟨hknown, hroom, hcounted, hcurrent, hclosed, hlossless⟩ := h
  -- the message has no bytes
  have hsend : Accounts max ⟨buffer, flush, queue ++ [if quit then .quit else .detached], task,
      queuedBytes, seen, delivered, accepted⟩ := by
    have hchunks : chunks (task.held ++ (queue ++ [if quit then .quit else .detached])) =
        chunks (task.held ++ queue) := by
      rw [← List.append_assoc, chunks_append _ [_]]
      cases quit <;> exact List.append_nil _
    refine ⟨hknown, hroom, ?_, hcurrent, hclosed, fun hworks => ?_⟩
    · dsimp only [unwritten] at hcounted ⊢
      rw [hchunks]
      exact hcounted
    · have hbefore := hlossless hworks
      dsimp only [unwritten] at hbefore ⊢
      rw [hchunks]
      exact hbefore
  cases task with
  | closed => exact hsame
  | receiving | writing | written => exact hsend

theorem receive (h : Accounts max l) : Accounts max l.receive := by
  have hsame := h
  obtain ⟨buffer, flush, queue, task, queuedBytes, seen, delivered, accepted⟩ := l
  obtain ⟨hknown, hroom, hcounted, hcurrent, hclosed, hlossless⟩ := h
  cases task with
  | receiving =>
    cases queue with
    | nil => exact hsame
    | cons msg queue =>
      exact ⟨hknown, hroom, hcounted, hcurrent, fun data heq => (nomatch hclosed data heq),
        hlossless⟩
  | writing | written | closed => exact hsame

theorem deliver (h : Accounts max l) (ok : Bool) : Accounts max (l.deliver ok) := by
  have hsame := h
  obtain ⟨buffer, flush, queue, task, queuedBytes, seen, delivered, accepted⟩ := l
  obtain ⟨hknown, hroom, hcounted, hcurrent, hclosed, hlossless⟩ := h
  cases task with
  | writing msg =>
    have hchunks : chunks (msg :: queue) = chunks [msg] ++ chunks queue :=
      chunks_append [msg] queue
    refine ⟨hknown, hroom, ?_, hcurrent, fun data heq => (nomatch hclosed data heq), ?_⟩
    · dsimp only [Link.deliver, unwritten, Task.held, Task.uncounted] at hcounted ⊢
      rw [List.singleton_append, hchunks, List.length_append, length_chunks_singleton] at hcounted
      rw [List.nil_append]
      omega
    · rintro rfl
      have hbefore := hlossless trivial
      dsimp only [Link.deliver, unwritten, Task.held] at hbefore ⊢
      rw [List.singleton_append, hchunks] at hbefore
      rw [← hbefore, if_pos rfl, chunks_append, List.nil_append]
      simp only [List.append_assoc]
  | receiving | written | closed => exact hsame

theorem uncounted_le (h : Accounts max l) : l.task.uncounted ≤ l.queuedBytes := by
  rw [h.counted]
  exact Nat.le_add_left _ _

theorem queuedBytes_le (h : Accounts max l) : l.queuedBytes ≤ max := by
  have hknown := h.known
  have hroom := h.room
  omega

theorem subtract (h : Accounts max l) (hmax : max < usizeMax) : Accounts max l.subtract := by
  have hsame := h
  have hbound := h.queuedBytes_le
  have huncounted := h.uncounted_le
  obtain ⟨buffer, flush, queue, task, queuedBytes, seen, delivered, accepted⟩ := l
  obtain ⟨hknown, hroom, hcounted, hcurrent, hclosed, hlossless⟩ := h
  cases task with
  | written msg ok =>
    dsimp only [Link.subtract, unwritten, Task.held, Task.uncounted] at *
    have hvalue : (if 0 < msg.outputLen then wrappingSub queuedBytes msg.outputLen
        else queuedBytes) = queuedBytes - msg.outputLen := by
      split_ifs with hlen
      · exact wrappingSub_of_le (by omega) huncounted
      · rw [Nat.eq_zero_of_not_pos hlen, Nat.sub_zero]
    rw [hvalue]
    refine ⟨?_, hroom, ?_, hcurrent, fun data heq => (nomatch hclosed data heq), ?_⟩
    · exact Nat.le_trans (Nat.sub_le _ _) hknown
    · have hended : (if ok = true then Task.receiving else .closed).held = [] ∧
          (if ok = true then Task.receiving else .closed).uncounted = 0 := by
        cases ok <;> exact ⟨rfl, rfl⟩
      dsimp only [unwritten]
      rw [hended.1, hended.2]
      omega
    · cases ok with
      | true => exact fun _ => hlossless rfl
      | false => exact fun hworks => hworks.elim
  | receiving | writing | closed => exact hsame

theorem perform (h : Accounts max l) (hmax : max < usizeMax) (action : Action) :
    Accounts max (l.perform max action).1 := by
  cases action with
  | write buf loaded => exact h.write hmax buf loaded
  | flush loaded => exact h.takeBuffer loaded
  | exchange actual => exact h.reserveQueuedBytes hmax actual
  | send => exact h.sendOutput
  | giveBack => exact h.giveBack hmax
  | control quit => exact h.sendShimControl quit
  | receive => exact h.receive
  | deliver ok => exact h.deliver ok
  | subtract => exact h.subtract hmax

/-- No flush finds the queue full. -/
theorem neverFull (h : Accounts max l) (hmax : max < usizeMax) (action : Action) :
    (l.perform max action).2 ≠ some (.flushed (.error .wouldBlock)) := by
  cases action with
  | exchange actual =>
    dsimp only [Link.perform, Link.reserveQueuedBytes]
    cases hflush : l.flush with
    | reserving data current =>
      dsimp only
      rw [h.checkedAdd_filter hmax hflush]
      cases actual <;> dsimp only <;> split_ifs <;> exact fun heq => nomatch heq
    | idle | sending | refused => exact fun heq => nomatch heq
  | write buf loaded =>
    dsimp only [Link.perform, Link.write]
    cases l.flush with
    | idle =>
      dsimp only
      split_ifs <;> exact fun heq => nomatch heq
    | reserving | sending | refused => exact fun heq => nomatch heq
  | flush loaded =>
    dsimp only [Link.perform, Link.takeBuffer]
    cases l.flush with
    | idle =>
      dsimp only
      split_ifs <;> exact fun heq => nomatch heq
    | reserving | sending | refused => exact fun heq => nomatch heq
  | send =>
    dsimp only [Link.perform, Link.sendOutput]
    cases l.flush <;> cases l.task <;> exact fun heq => nomatch heq
  | giveBack =>
    dsimp only [Link.perform, Link.giveBack]
    cases l.flush <;> exact fun heq => nomatch heq
  | control | receive | deliver | subtract => exact fun heq => nomatch heq

end Accounts

end Link

/-! ### Runs -/

/-- The accounts are right after any steps of the writer and the task. -/
theorem accounts_run {max : Nat} (hmax : max < usizeMax) (actions : List Action) :
    (after max actions).Accounts max :=
  Run.invariant (P := fun l : Link => l.Accounts max) (fun _ action h => h.perform hmax action)
    (Link.accounts_new max) actions

/-- **The output is lossless and bounded**, whatever the order of the steps. -/
theorem faithful_run {max : Nat} (hmax : max < usizeMax) (actions : List Action) :
    Faithful max actions where
  lossless hworks hidle := by
    have hbytes := (accounts_run hmax actions).lossless hworks
    rw [hidle] at hbytes
    dsimp only [Flush.reserved, Flush.unreserved] at hbytes
    rwa [List.append_nil, List.append_nil] at hbytes
  counted := (accounts_run hmax actions).counted
  bounded := (accounts_run hmax actions).queuedBytes_le
  noUnderflow := by
    have h := accounts_run hmax actions
    refine ⟨h.uncounted_le, fun data hflush => ?_⟩
    have hcounted := h.counted
    rw [hflush] at hcounted
    dsimp only [Flush.reserved] at hcounted
    omega
  neverFull := (accounts_run hmax actions).neverFull hmax

/-- `MAX_SOCKET_OUTPUT_QUEUE_BYTES` -/
def maxSocketOutputQueueBytes : Nat := 16 * 1024 * 1024

/-- A chunk is written while the next bytes wait in the buffer. -/
theorem faithful_two_writes : maxSocketOutputQueueBytes < usizeMax ∧
    Faithful maxSocketOutputQueueBytes [.write [1, 2] 0, .flush 0, .exchange none, .send, .receive,
      .write [3] 2, .deliver true, .subtract] :=
  ⟨by decide, faithful_run (by decide) _⟩

end SocketOutput

end Repartee
