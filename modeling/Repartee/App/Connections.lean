import Repartee.E2e.Basic
import Repartee.Lib.Run
import Repartee.Lib.Table

/-!
# Keeping connections up

How the client connects, is disconnected and connects again: `setup_connection`,
`check_reconnects`, `spawn_reconnect` and `handle_irc_event` of `app/irc.rs`, `/connect` and
`/disconnect` of `commands/handlers_irc.rs`, and `handle_connected`, `handle_disconnected` and
`handle_error` of `irc/events.rs`. A task connects to the server, reads from it and posts events to
the one queue that the main loop reads.

## Main definitions

- `Client`, `Client.step`: the connections, the tasks, the queue, and what can happen next
- `View`, `Moves`: the part of one connection, and what a step can do to it

## Main results

- `step_moves`: every step moves each connection as `Moves` says
-/

set_option autoImplicit false

namespace Repartee.Connections

/-! ### Connections -/

inductive ConnectionStatus
  | connecting | connected | disconnected | error
  deriving DecidableEq, Repr

structure Connection where
  status : ConnectionStatus
  reconnectAttempts : Nat
  reconnectDelaySecs : Nat
  nextReconnect : Option Nat
  shouldReconnect : Bool
  deriving DecidableEq

/-- `calculate_reconnect_delay` -/
def calculateReconnectDelay (baseDelay attempts : Nat) : Nat :=
  if 10 ≤ attempts then 600 else min (min (baseDelay * 2 ^ attempts) (2 ^ 64 - 1)) 300

theorem calculateReconnectDelay_le (baseDelay attempts : Nat) :
    calculateReconnectDelay baseDelay attempts ≤ 600 := by
  rw [calculateReconnectDelay]
  split <;> omega

namespace Connection

/-- What `setup_connection` makes of the settings of a server. -/
def setUp (autoReconnect : Option Bool) (reconnectDelay : Option Nat) : Connection :=
  ⟨.connecting, 0, reconnectDelay.getD 30, none, autoReconnect.getD true⟩

/-- The connection of the placeholder buffer. -/
def placeholder : Connection := ⟨.disconnected, 0, 0, none, false⟩

/-- Disconnected, or in error. -/
def isDown (c : Connection) : Bool := c.status = .disconnected || c.status = .error

/-- What `check_reconnects` looks for. -/
def isDue (c : Connection) (now : Nat) : Bool :=
  c.isDown && c.shouldReconnect && c.nextReconnect.any (fun t => decide (t ≤ now))

def restart (c : Connection) : Connection :=
  { c with
    status := .connecting
    reconnectAttempts := c.reconnectAttempts + 1
    nextReconnect := none }

/-- `handle_connected` -/
def welcome (c : Connection) : Connection :=
  { c with status := .connected, reconnectAttempts := 0, nextReconnect := none }

/-- `handle_error` -/
def fail (c : Connection) : Connection := { c with status := .error }

/-- `handle_disconnected` -/
def close (c : Connection) (now : Nat) (error : Option Str) : Connection :=
  { c with
    status := if error.isSome then .error else .disconnected
    nextReconnect :=
      if c.shouldReconnect then
        some (now + calculateReconnectDelay c.reconnectDelaySecs c.reconnectAttempts)
      else c.nextReconnect }

/-- What `/disconnect` does. -/
def giveUp (c : Connection) : Connection :=
  { c with shouldReconnect := false, nextReconnect := none }

end Connection

/-! ### Tasks -/

inductive IrcEvent
  | handleReady (connId : Str)
  | connected (connId : Str)
  /-- a message with the command `ERROR` -/
  | error (connId : Str)
  | disconnected (connId : Str) (error : Option Str)
  deriving DecidableEq

def IrcEvent.connId : IrcEvent → Str
  | .handleReady connId => connId
  | .connected connId => connId
  | .error connId => connId
  | .disconnected connId _ => connId

def IrcEvent.isEnd : IrcEvent → Bool
  | .disconnected _ _ => true
  | _ => false

/-- How far a task has come: it waits for `connect_server`, for the welcome, or for the end. -/
inductive Phase
  | connecting | ready | welcomed
  deriving DecidableEq

structure Task where
  connId : Str
  phase : Phase
  deriving DecidableEq

/-- What the server does to a task. -/
inductive Report
  | refused (error : Str)
  | established
  | welcome
  | error
  | ended (error : Option Str)

/-- What a task makes of it: what it is then, if it goes on, and the event it posts. -/
def Task.react (t : Task) : Report → Option (Option Task × IrcEvent)
  | .refused error =>
    if t.phase = .connecting then some (none, .disconnected t.connId (some error)) else none
  | .established =>
    if t.phase = .connecting then some (some { t with phase := .ready }, .handleReady t.connId)
    else none
  | .welcome =>
    if t.phase = .ready then some (some { t with phase := .welcomed }, .connected t.connId)
    else none
  | .error => if t.phase = .connecting then none else some (some t, .error t.connId)
  | .ended error =>
    if t.phase = .connecting then none else some (none, .disconnected t.connId error)

/-- A task posts the end of its session last, and then only. -/
theorem Task.react_cases {t : Task} {r : Report} {t' : Option Task} {e : IrcEvent}
    (h : t.react r = some (t', e)) : e.connId = t.connId ∧
      ((t' = none ∧ e.isEnd = true) ∨
        ∃ u, t' = some u ∧ u.connId = t.connId ∧ e.isEnd = false) := by
  cases r with
  | refused error =>
    rw [Task.react] at h
    split at h
    · cases h
      exact ⟨rfl, .inl ⟨rfl, rfl⟩⟩
    · cases h
  | established =>
    rw [Task.react] at h
    split at h
    · cases h
      exact ⟨rfl, .inr ⟨_, rfl, rfl, rfl⟩⟩
    · cases h
  | welcome =>
    rw [Task.react] at h
    split at h
    · cases h
      exact ⟨rfl, .inr ⟨_, rfl, rfl, rfl⟩⟩
    · cases h
  | error =>
    rw [Task.react] at h
    split at h
    · cases h
    · cases h
      exact ⟨rfl, .inr ⟨_, rfl, rfl, rfl⟩⟩
  | ended error =>
    rw [Task.react] at h
    split at h
    · cases h
    · cases h
      exact ⟨rfl, .inl ⟨rfl, rfl⟩⟩

/-! ### The client -/

/-- What has happened to a connection: an attempt to connect was started, or a session ended,
after so many attempts. No function of the source reads it. -/
inductive Entry
  | started (connId : Str) (time attempt : Nat)
  | ended (connId : Str) (time baseDelay attempts : Nat)
  deriving DecidableEq

def Entry.connId : Entry → Str
  | .started connId _ _ => connId
  | .ended connId _ _ _ => connId

structure Client where
  connections : Dict Str Connection
  ircHandles : Dict Str Unit
  tasks : List Task
  queue : List IrcEvent
  now : Nat
  journal : List Entry

/-- `DEFAULT_CONN_ID` -/
def defaultConnId : Str := str "_default"

namespace Client

/-- `create_default_status`, and nothing else yet. -/
def new (now : Nat) : Client :=
  ⟨Dict.insert .empty defaultConnId .placeholder, .empty, [], [], now, []⟩

variable (s : Client)

def modify (id : Str) (f : Connection → Connection) : Client :=
  { s with connections := s.connections.modify id f }

def note (e : Entry) : Client := { s with journal := s.journal ++ [e] }

def spawn (id : Str) (attempt : Nat) : Client :=
  ({ s with tasks := s.tasks ++ [⟨id, .connecting⟩] } : Client).note (.started id s.now attempt)

/-- `setup_connection` and the start of the task, as for a server that is connected to at the
start; `hasPlaceholder` says whether there is a placeholder buffer. -/
def autoconnect (id : Str) (autoReconnect : Option Bool) (reconnectDelay : Option Nat)
    (hasPlaceholder : Bool) : Client :=
  let connections := if hasPlaceholder then s.connections.erase defaultConnId else s.connections
  { s with connections := connections.insert id (.setUp autoReconnect reconnectDelay) }.spawn id 0

/-- `spawn_connection` of `/connect` -/
def connect (id : Str) (autoReconnect : Option Bool) (reconnectDelay : Option Nat)
    (hasPlaceholder : Bool) : Client :=
  if (s.ircHandles.lookup id).isSome then s
  else s.autoconnect id autoReconnect reconnectDelay hasPlaceholder

/-- `cmd_disconnect`: the `QUIT` is up to the server. -/
def disconnect (id : Str) : Client := s.modify id .giveUp

/-- `/close` in a server buffer -/
def closeBuffer (id : Str) : Client :=
  if (s.connections.lookup id).all Connection.isDown then
    { s with connections := s.connections.erase id }
  else s

/-- `ensure_default_status`, when there is no buffer left -/
def ensureDefaultStatus : Client :=
  { s with connections := s.connections.insert defaultConnId .placeholder }

/-- Whether `check_reconnects` starts a connection. -/
def isDue (id : Str) (c : Connection) : Bool :=
  c.isDue s.now && decide (id ≠ defaultConnId) && (s.ircHandles.lookup id).isNone

/-- `check_reconnects` with `spawn_reconnect`; a connection always has its settings. -/
def checkReconnects : Client :=
  let due := s.connections.rows.filter (fun e => s.isDue e.1 e.2)
  { s with
    connections := s.connections.mapWithKey (fun id c => if s.isDue id c then c.restart else c)
    tasks := s.tasks ++ due.map (fun e => Task.mk e.1 .connecting)
    journal := s.journal ++
      due.map (fun e => Entry.started e.1 s.now (e.2.reconnectAttempts + 1)) }

/-- `handle_irc_event` -/
def handleIrcEvent : IrcEvent → Client
  | .handleReady id => { s with ircHandles := s.ircHandles.insert id () }
  | .connected id => s.modify id .welcome
  | .error id => s.modify id .fail
  | .disconnected id error =>
    let s' : Client := match s.connections.lookup id with
      | some c => s.note (.ended id s.now c.reconnectDelaySecs c.reconnectAttempts)
      | none => s
    { s' with
      connections := s.connections.modify id (fun c => c.close s.now error)
      ircHandles := s.ircHandles.erase id }

/-- The main loop takes an event from the queue. -/
def receive : Client :=
  match s.queue with
  | [] => s
  | e :: rest => { s with queue := rest }.handleIrcEvent e

/-- The server does something to the task at a place of the list. -/
def report (n : Nat) (r : Report) : Client :=
  match s.tasks[n]? with
  | none => s
  | some t =>
    match t.react r with
    | none => s
    | some (t', e) =>
      { s with
        tasks := s.tasks.take n ++ t'.toList ++ s.tasks.drop (n + 1)
        queue := s.queue ++ [e] }

end Client

inductive Input
  | connect (id : Str) (autoReconnect : Option Bool) (reconnectDelay : Option Nat)
      (hasPlaceholder : Bool)
  | autoconnect (id : Str) (autoReconnect : Option Bool) (reconnectDelay : Option Nat)
      (hasPlaceholder : Bool)
  | disconnect (id : Str)
  | closeBuffer (id : Str)
  | ensureDefaultStatus
  | tick
  | receive
  | report (n : Nat) (r : Report)
  | wait (seconds : Nat)

def Client.step (s : Client) : Input → Client
  | .connect id auto delay hasPlaceholder => s.connect id auto delay hasPlaceholder
  | .autoconnect id auto delay hasPlaceholder => s.autoconnect id auto delay hasPlaceholder
  | .disconnect id => s.disconnect id
  | .closeBuffer id => s.closeBuffer id
  | .ensureDefaultStatus => s.ensureDefaultStatus
  | .tick => s.checkReconnects
  | .receive => s.receive
  | .report n r => s.report n r
  | .wait seconds => { s with now := s.now + seconds }

/-! ### One connection -/

/-- What there is of one connection. -/
structure View where
  conn : Option Connection
  hasHandle : Bool
  tasks : List Task
  events : List IrcEvent
  journal : List Entry

def Client.view (s : Client) (id : Str) : View where
  conn := s.connections.lookup id
  hasHandle := (s.ircHandles.lookup id).isSome
  tasks := s.tasks.filter (fun t => decide (t.connId = id))
  events := s.queue.filter (fun e => decide (e.connId = id))
  journal := s.journal.filter (fun e => decide (e.connId = id))

namespace View

variable (v : View)

/-- Nothing is under way. -/
def Idle : Prop := v.tasks = [] ∧ v.events = []

def spawn (id : Str) (now attempt : Nat) (c : Connection) : View :=
  { v with
    conn := some c
    tasks := v.tasks ++ [⟨id, .connecting⟩]
    journal := v.journal ++ [.started id now attempt] }

/-- The main loop takes the first of the events. -/
def receive (id : Str) (now : Nat) : IrcEvent → View
  | .handleReady _ => { v with hasHandle := true }
  | .connected _ => { v with conn := v.conn.map .welcome }
  | .error _ => { v with conn := v.conn.map .fail }
  | .disconnected _ error =>
    { v with
      conn := v.conn.map (fun c => c.close now error)
      hasHandle := false
      journal := v.journal ++ (v.conn.map (fun c =>
        Entry.ended id now c.reconnectDelaySecs c.reconnectAttempts)).toList }

end View

/-- The user, or the start of the client, asks for the connection. -/
def Input.Opens (id : Str) : Input → Prop
  | .connect id' _ _ _ => id' = id
  | .autoconnect id' _ _ _ => id' = id
  | _ => False

/-- The step asks for no connection that is under way already: `/connect` looks for a handle, and
an attempt that has not got through has none. -/
def Fresh (s : Client) : Input → Prop
  | .connect id _ _ _ => (s.ircHandles.lookup id).isSome ∨ (s.view id).Idle
  | .autoconnect id _ _ _ => (s.view id).Idle
  | _ => True

/-- The user ends the connection, or it is the placeholder, which is taken away by itself. -/
def Input.Ends (id : Str) : Input → Prop
  | .disconnect id' => id' = id
  | .closeBuffer id' => id' = id
  | _ => id = defaultConnId

/-- **What a step can do to a connection.** -/
inductive Moves (id : Str) (now : Nat) (opens fresh ends : Prop) : View → View → Prop
  | stay (v : View) : Moves id now opens fresh ends v v
  | setUp (v : View) (c : Connection) (hopens : opens) (hidle : fresh → v.Idle)
      (hc : c.nextReconnect = none) : Moves id now opens fresh ends v (v.spawn id now 0 c)
  | placeholder (v : View) (hends : ends) :
      Moves id now opens fresh ends v { v with conn := some .placeholder }
  | forget (v : View) (hends : ends) : Moves id now opens fresh ends v { v with conn := none }
  | giveUp (v : View) (hends : ends) :
      Moves id now opens fresh ends v { v with conn := v.conn.map .giveUp }
  | restart (v : View) (c : Connection) (hc : v.conn = some c) (hdue : c.isDue now = true)
      (hhandle : v.hasHandle = false) :
      Moves id now opens fresh ends v (v.spawn id now (c.reconnectAttempts + 1) c.restart)
  | receive (v : View) (e : IrcEvent) (rest : List IrcEvent) (he : v.events = e :: rest) :
      Moves id now opens fresh ends v ({ v with events := rest }.receive id now e)
  | report (v : View) (l r : List Task) (t : Task) (report : Report) (t' : Option Task)
      (e : IrcEvent) (ht : v.tasks = l ++ t :: r) (hreact : t.react report = some (t', e)) :
      Moves id now opens fresh ends v
        { v with tasks := l ++ t'.toList ++ r, events := v.events ++ [e] }

theorem filter_rows (d : Dict Str Connection) (id : Str) :
    d.rows.filter (fun e => decide (e.1 = id)) = (d.lookup id).toList.map (fun c => (id, c)) := by
  obtain ⟨rows, hrows⟩ := d
  rw [Dict.lookup, Table.get?]
  dsimp only
  induction rows with
  | nil => rfl
  | cons e rows ih =>
    rw [List.map_cons, List.nodup_cons] at hrows
    rw [List.filter_cons, List.find?_cons]
    by_cases he : e.1 = id
    · have hnone : rows.filter (fun e => decide (e.1 = id)) = [] := by
        rw [List.filter_eq_nil_iff]
        intro x hx hxid
        exact hrows.1 (he ▸ (of_decide_eq_true hxid) ▸ List.mem_map_of_mem hx)
      subst he
      simp [hnone]
    · simpa [he] using ih hrows.2

theorem view_setUp (s : Client) (id' : Str) (auto : Option Bool) (delay : Option Nat)
    (hasPlaceholder : Bool) (id : Str) {opens fresh ends : Prop} (hopens : id' = id → opens)
    (hidle : id' = id → fresh → (s.view id).Idle) (hends : id = defaultConnId → ends) :
    Moves id s.now opens fresh ends (s.view id)
      ((s.autoconnect id' auto delay hasPlaceholder).view id) := by
  by_cases hid : id' = id
  · subst hid
    have hview : (s.autoconnect id' auto delay hasPlaceholder).view id' =
        (s.view id').spawn id' s.now 0 (.setUp auto delay) := by
      simp [Client.autoconnect, Client.spawn, Client.note, Client.view, View.spawn,
        Dict.lookup_insert, Entry.connId]
    rw [hview]
    exact .setUp _ _ (hopens rfl) (hidle rfl) rfl
  · have hview : (s.autoconnect id' auto delay hasPlaceholder).view id =
        { s.view id with conn :=
            (if hasPlaceholder then s.connections.erase defaultConnId
              else s.connections).lookup id } := by
      simp [Client.autoconnect, Client.spawn, Client.note, Client.view, Dict.lookup_insert,
        Entry.connId, hid]
    rw [hview]
    split
    · rw [Dict.lookup_erase]
      split
      · rename_i hdefault
        exact .forget _ (hends hdefault.symm)
      · exact .stay _
    · exact .stay _

/-- What `check_reconnects` does to a connection. -/
theorem view_checkReconnects (s : Client) (id : Str) : s.checkReconnects.view id =
    match (s.connections.lookup id).filter (s.isDue id) with
    | none => s.view id
    | some c => (s.view id).spawn id s.now (c.reconnectAttempts + 1) c.restart := by
  have hdue : (s.connections.rows.filter (fun e => s.isDue e.1 e.2)).filter
      (fun e => decide (e.1 = id)) =
      ((s.connections.lookup id).filter (s.isDue id)).toList.map (fun c => (id, c)) := by
    rw [List.filter_comm, filter_rows]
    cases s.connections.lookup id with
    | none => rfl
    | some c => cases hc : s.isDue id c <;> simp [hc, Option.filter]
  have htasks : (s.checkReconnects.view id).tasks = (s.view id).tasks ++
      ((s.connections.lookup id).filter (s.isDue id)).toList.map
        (fun _ => Task.mk id .connecting) := by
    rw [Client.view, Client.checkReconnects]
    dsimp only
    rw [List.filter_append, List.filter_map]
    refine congrArg (_ ++ ·) ((congrArg (List.map _) hdue).trans ?_)
    rw [List.map_map]
    rfl
  have hjournal : (s.checkReconnects.view id).journal = (s.view id).journal ++
      ((s.connections.lookup id).filter (s.isDue id)).toList.map
        (fun c => Entry.started id s.now (c.reconnectAttempts + 1)) := by
    rw [Client.view, Client.checkReconnects]
    dsimp only
    rw [List.filter_append, List.filter_map]
    refine congrArg (_ ++ ·) ((congrArg (List.map _) hdue).trans ?_)
    rw [List.map_map]
    rfl
  have hconn : (s.checkReconnects.view id).conn = (s.connections.lookup id).map
      (fun c => if s.isDue id c then c.restart else c) := Dict.lookup_mapWithKey ..
  cases hf : (s.connections.lookup id).filter (s.isDue id) with
  | none =>
    rw [hf] at htasks hjournal
    show s.checkReconnects.view id = s.view id
    rw [View.mk.injEq]
    refine ⟨hconn.trans ?_, rfl, htasks.trans (List.append_nil _), rfl,
      hjournal.trans (List.append_nil _)⟩
    show _ = s.connections.lookup id
    cases hc : s.connections.lookup id with
    | none => rfl
    | some c =>
      rw [hc, Option.filter_eq_none_iff] at hf
      simp [hf c rfl]
  | some c =>
    obtain ⟨hc, hd⟩ := Option.filter_eq_some_iff.mp hf
    rw [hf] at htasks hjournal
    rw [hc, Option.map_some, if_pos hd] at hconn
    show _ = (s.view id).spawn id s.now (c.reconnectAttempts + 1) c.restart
    rw [View.spawn, View.mk.injEq]
    exact ⟨hconn, rfl, htasks, rfl, hjournal⟩

theorem view_receive (s : Client) (id : Str) {opens fresh ends : Prop} :
    Moves id s.now opens fresh ends (s.view id) (s.receive.view id) := by
  rw [Client.receive]
  split
  · exact .stay _
  · rename_i e rest hq
    by_cases hid : e.connId = id
    · -- the event is of this connection
      have hevents : (s.view id).events = e :: rest.filter (fun e => decide (e.connId = id)) := by
        rw [Client.view]
        dsimp only
        rw [hq, List.filter_cons_of_pos (by simpa using hid)]
      have hview : (({ s with queue := rest } : Client).handleIrcEvent e).view id =
          { s.view id with
            events := rest.filter (fun e => decide (e.connId = id)) }.receive id s.now e := by
        subst hid
        cases e with
        | handleReady id => simp [Client.handleIrcEvent, Client.view, View.receive, IrcEvent.connId,
            Dict.lookup_insert]
        | connected id => simp [Client.handleIrcEvent, Client.modify, Client.view, View.receive,
            IrcEvent.connId, Dict.lookup_modify]
        | error id => simp [Client.handleIrcEvent, Client.modify, Client.view, View.receive,
            IrcEvent.connId, Dict.lookup_modify]
        | disconnected id error =>
          cases hc : s.connections.lookup id with
          | none => simp [Client.handleIrcEvent, Client.view, View.receive, IrcEvent.connId,
              Dict.lookup_modify, Dict.lookup_erase, hc]
          | some c => simp [Client.handleIrcEvent, Client.note, Client.view, View.receive,
              IrcEvent.connId, Entry.connId, Dict.lookup_modify, Dict.lookup_erase, hc]
      rw [hview]
      exact .receive _ e _ hevents
    · have hview : (({ s with queue := rest } : Client).handleIrcEvent e).view id =
          s.view id := by
        have hevents : s.queue.filter (fun e => decide (e.connId = id)) =
            rest.filter (fun e => decide (e.connId = id)) := by
          rw [hq, List.filter_cons_of_neg (by simpa using hid)]
        cases e with
        | handleReady id' => simp_all [Client.handleIrcEvent, Client.view, IrcEvent.connId,
            Dict.lookup_insert]
        | connected id' => simp_all [Client.handleIrcEvent, Client.modify, Client.view,
            IrcEvent.connId, Dict.lookup_modify]
        | error id' => simp_all [Client.handleIrcEvent, Client.modify, Client.view,
            IrcEvent.connId, Dict.lookup_modify]
        | disconnected id' error =>
          cases hc : s.connections.lookup id' with
          | none => simp_all [Client.handleIrcEvent, Client.view, IrcEvent.connId,
              Dict.lookup_modify, Dict.lookup_erase]
          | some c => simp_all [Client.handleIrcEvent, Client.note, Client.view, IrcEvent.connId,
              Entry.connId, Dict.lookup_modify, Dict.lookup_erase]
      rw [hview]
      exact .stay _

theorem view_report (s : Client) (n : Nat) (report : Report) (id : Str) {opens fresh ends : Prop} :
    Moves id s.now opens fresh ends (s.view id) ((s.report n report).view id) := by
  rw [Client.report]
  split
  · exact .stay _
  · rename_i t ht
    split
    · exact .stay _
    · rename_i t' e hreact
      obtain ⟨hconn, hkind⟩ := Task.react_cases hreact
      have htasks : s.tasks = s.tasks.take n ++ t :: s.tasks.drop (n + 1) := by
        obtain ⟨hn, ht⟩ := List.getElem?_eq_some_iff.mp ht
        rw [← ht, List.getElem_cons_drop, List.take_append_drop]
      have hnext : ∀ u ∈ t', u.connId = t.connId := by
        intro u hu
        rcases hkind with ⟨hnone, -⟩ | ⟨u', hu', hid, -⟩
        · rw [hnone] at hu
          cases hu
        · rw [hu'] at hu
          rw [← Option.some.inj hu, hid]
      generalize s.tasks.take n = l at htasks ⊢
      generalize s.tasks.drop (n + 1) = r at htasks ⊢
      by_cases hid : t.connId = id
      · have hv : (s.view id).tasks = l.filter (fun t => decide (t.connId = id)) ++
            t :: r.filter (fun t => decide (t.connId = id)) := by
          rw [Client.view, htasks]
          simp [hid]
        have ht' : t'.toList.filter (fun t => decide (t.connId = id)) = t'.toList := by
          cases t' with
          | none => rfl
          | some u => simp [hnext u rfl, hid]
        have hmoves : Moves id s.now opens fresh ends _ _ :=
          .report (s.view id) _ _ t report t' e hv hreact
        have hview : ({ s with tasks := l ++ t'.toList ++ r, queue := s.queue ++ [e] } :
            Client).view id = { s.view id with
              tasks := l.filter (fun t => decide (t.connId = id)) ++ t'.toList ++
                r.filter (fun t => decide (t.connId = id))
              events := (s.view id).events ++ [e] } := by
          simp [Client.view, List.filter_append, ht', hconn, hid]
        rw [hview]
        exact hmoves
      · have hview : ({ s with tasks := l ++ t'.toList ++ r, queue := s.queue ++ [e] } :
            Client).view id = s.view id := by
          have ht' : t'.toList.filter (fun t => decide (t.connId = id)) = [] := by
            cases t' with
            | none => rfl
            | some u => simp [hnext u rfl, hid]
          rw [Client.view, Client.view]
          dsimp only
          rw [htasks]
          simp [List.filter_append, ht', hconn, hid]
        rw [hview]
        exact .stay _

/-- Every step moves each connection so. -/
theorem step_moves (s : Client) (i : Input) (id : Str) :
    Moves id s.now (i.Opens id) (Fresh s i) (i.Ends id) (s.view id) ((s.step i).view id) := by
  cases i with
  | connect id' auto delay hasPlaceholder =>
    rw [Client.step, Client.connect]
    split
    · exact .stay _
    · rename_i hhandle
      refine view_setUp s id' auto delay hasPlaceholder id (fun h => h) (fun h hfresh => ?_)
        (fun h => h)
      subst h
      exact hfresh.resolve_left hhandle
  | autoconnect id' auto delay hasPlaceholder =>
    exact view_setUp s id' auto delay hasPlaceholder id (fun h => h) (fun h hfresh => h ▸ hfresh)
      (fun h => h)
  | disconnect id' =>
    by_cases hid : id' = id
    · subst hid
      have hview : (s.disconnect id').view id' =
          { s.view id' with conn := (s.view id').conn.map .giveUp } := by
        simp [Client.disconnect, Client.modify, Client.view, Dict.lookup_modify]
      rw [Client.step, hview]
      exact .giveUp _ rfl
    · have hview : (s.disconnect id').view id = s.view id := by
        simp [Client.disconnect, Client.modify, Client.view, Dict.lookup_modify, hid]
      rw [Client.step, hview]
      exact .stay _
  | closeBuffer id' =>
    rw [Client.step, Client.closeBuffer]
    split
    · have hview : ({ s with connections := s.connections.erase id' } : Client).view id =
          if id' = id then { s.view id with conn := none } else s.view id := by
        by_cases hid : id' = id <;> simp [Client.view, Dict.lookup_erase, hid]
      rw [hview]
      split
      · rename_i hid
        exact .forget _ hid
      · exact .stay _
    · exact .stay _
  | ensureDefaultStatus =>
    have hview : s.ensureDefaultStatus.view id =
        if defaultConnId = id then { s.view id with conn := some .placeholder } else s.view id := by
      by_cases hid : defaultConnId = id <;>
        simp [Client.ensureDefaultStatus, Client.view, Dict.lookup_insert, hid]
    rw [Client.step, hview]
    split
    · rename_i hdefault
      exact .placeholder _ hdefault.symm
    · exact .stay _
  | tick =>
    rw [Client.step, view_checkReconnects]
    split
    · exact .stay _
    · rename_i c hf
      obtain ⟨hc, hd⟩ := Option.filter_eq_some_iff.mp hf
      rw [Client.isDue, Bool.and_eq_true, Bool.and_eq_true] at hd
      exact .restart _ c hc hd.1.1 (Option.isSome_eq_false_iff.mpr hd.2)
  | receive => exact view_receive s id
  | report n report => exact view_report s n report id
  | wait seconds => exact .stay _

end Repartee.Connections
