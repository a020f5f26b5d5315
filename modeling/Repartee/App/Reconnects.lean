import Repartee.App.Connections

/-!
# Sessions and reconnects

What holds in the runs of the client about one of its connections: it is never made twice at a
time, it comes back unless the user has ended it, and it waits longer after each failure.

## Main definitions

- `Flight`: where the session of a connection is
- `Paced`: an attempt follows the end that it answers

## Main results

- `one_session`: a connection has at most one session at a time
- `comes_back`: a connection that is lost is made again within ten minutes
- `disconnected_stays`: a connection that the user ends is not started again by itself
- `reconnects_are_paced`: an attempt waits as long as the attempts before it say
-/

set_option autoImplicit false

namespace Repartee.Connections

/-! ### Sessions -/

/-- A connection without a session: if it is to be connected again, it is known when. -/
def Connection.Resting (c : Connection) (now : Nat) : Prop :=
  c.isDown = true ∧ (c.shouldReconnect = true → ∃ t ≤ now + 600, c.nextReconnect = some t)

/-- Where the session of a connection is: nowhere, in a task, or in the events that a task has
left. -/
inductive Flight (now : Nat) (v : View) : Prop
  | resting (hidle : v.Idle) (hhandle : v.hasHandle = false)
      (hconn : ∀ c, v.conn = some c → c.Resting now)
  | running (t : Task) (ht : v.tasks = [t]) (he : ∀ e ∈ v.events, e.isEnd = false)
      (hconn : ∀ c, v.conn = some c → c.nextReconnect = none)
  | ending (es : List IrcEvent) (e : IrcEvent) (ht : v.tasks = []) (hes : v.events = es ++ [e])
      (hend : e.isEnd = true) (he : ∀ x ∈ es, x.isEnd = false)
      (hconn : ∀ c, v.conn = some c → c.nextReconnect = none)

theorem Flight.wait {now now' : Nat} {v : View} (h : Flight now v) (hle : now ≤ now') :
    Flight now' v := by
  cases h with
  | resting hidle hhandle hconn =>
    refine .resting hidle hhandle (fun c hc => ⟨(hconn c hc).1, fun hshould => ?_⟩)
    obtain ⟨t, ht, hnext⟩ := (hconn c hc).2 hshould
    exact ⟨t, by omega, hnext⟩
  | running t ht he hconn => exact .running t ht he hconn
  | ending es e ht hes hend he hconn => exact .ending es e ht hes hend he hconn

/-- Only the connection changes, to one that rests if it rested and waits for nothing if it
waited for nothing. -/
theorem Flight.congr {now : Nat} {v : View} (h : Flight now v) (conn : Option Connection)
    (hrest : ∀ c, conn = some c → (∀ c, v.conn = some c → c.Resting now) → c.Resting now)
    (hnext : ∀ c, conn = some c → (∀ c, v.conn = some c → c.nextReconnect = none) →
      c.nextReconnect = none) : Flight now { v with conn := conn } := by
  cases h with
  | resting hidle hhandle hconn => exact .resting hidle hhandle (fun c hc => hrest c hc hconn)
  | running t ht he hconn => exact .running t ht he (fun c hc => hnext c hc hconn)
  | ending es e ht hes hend he hconn =>
    exact .ending es e ht hes hend he (fun c hc => hnext c hc hconn)

theorem Connection.resting_close (c : Connection) (now : Nat) (error : Option Str) :
    (c.close now error).Resting now := by
  refine ⟨?_, fun hshould => ?_⟩
  · rw [Connection.close, Connection.isDown]
    cases error.isSome <;> rfl
  · have hshould : c.shouldReconnect = true := hshould
    refine ⟨_, ?_, if_pos hshould⟩
    have := calculateReconnectDelay_le c.reconnectDelaySecs c.reconnectAttempts
    omega

theorem Flight.receive {id : Str} {now : Nat} {v : View} {e : IrcEvent} {rest : List IrcEvent}
    (h : Flight now v) (he : v.events = e :: rest) :
    Flight now ({ v with events := rest }.receive id now e) := by
  have hevent : e.isEnd = false → (∀ c, v.conn = some c → c.nextReconnect = none) →
      ∀ c, ({ v with events := rest }.receive id now e).conn = some c →
        c.nextReconnect = none := by
    intro hnot hconn c hc
    cases e with
    | handleReady _ => exact hconn c hc
    | connected _ =>
      obtain ⟨c', -, rfl⟩ := Option.map_eq_some_iff.mp hc
      rfl
    | error _ =>
      obtain ⟨c', hc', rfl⟩ := Option.map_eq_some_iff.mp hc
      exact hconn c' hc'
    | disconnected _ error => cases hnot
  have hsame : e.isEnd = false → ({ v with events := rest }.receive id now e).tasks = v.tasks ∧
      ({ v with events := rest }.receive id now e).events = rest := by
    intro hnot
    cases e with
    | handleReady _ => exact ⟨rfl, rfl⟩
    | connected _ => exact ⟨rfl, rfl⟩
    | error _ => exact ⟨rfl, rfl⟩
    | disconnected _ error => cases hnot
  cases h with
  | resting hidle _ _ =>
    rw [hidle.2] at he
    cases he
  | running t ht hall hconn =>
    rw [he] at hall
    obtain ⟨hnot, hrest⟩ := List.forall_mem_cons.mp hall
    refine .running t ((hsame hnot).1.trans ht) ?_ (hevent hnot hconn)
    rw [(hsame hnot).2]
    exact hrest
  | ending es x ht hes hend hall hconn =>
    rw [he] at hes
    cases es with
    | nil =>
      -- the end is handled: nothing is left of the session
      obtain ⟨rfl, rfl⟩ := List.cons.inj hes
      cases e with
      | handleReady _ => cases hend
      | connected _ => cases hend
      | error _ => cases hend
      | disconnected _ error =>
        refine .resting ⟨ht, rfl⟩ rfl (fun c hc => ?_)
        obtain ⟨c', -, rfl⟩ := Option.map_eq_some_iff.mp hc
        exact c'.resting_close now error
    | cons y es =>
      obtain ⟨rfl, rfl⟩ := List.cons.inj hes
      obtain ⟨hnot, hrest⟩ := List.forall_mem_cons.mp hall
      exact .ending es x ((hsame hnot).1.trans ht) (hsame hnot).2 hend hrest (hevent hnot hconn)

/-- **The step lemma of the sessions.** -/
theorem Flight.moves {id : Str} {now : Nat} {opens fresh ends : Prop} {v v' : View}
    (h : Flight now v) (hm : Moves id now opens fresh ends v v') (hfresh : fresh) :
    Flight now v' := by
  cases hm with
  | stay => exact h
  | setUp c _ hidle hc =>
    obtain ⟨htasks, hevents⟩ := hidle hfresh
    refine .running ⟨id, .connecting⟩ (by rw [View.spawn, htasks, List.nil_append])
      (fun e he => ?_) (fun c' hc' => Option.some.inj hc' ▸ hc)
    rw [View.spawn, hevents] at he
    cases he
  | placeholder =>
    refine h.congr _ (fun c hc _ => ?_) (fun c hc _ => ?_)
    · rw [← Option.some.inj hc]
      exact ⟨rfl, fun hshould => by cases hshould⟩
    · rw [← Option.some.inj hc]
      rfl
  | forget => exact h.congr none (fun c hc _ => by cases hc) (fun c hc _ => by cases hc)
  | giveUp =>
    refine h.congr _ (fun c hc hrest => ?_) (fun c hc _ => ?_)
    · obtain ⟨c', hc', rfl⟩ := Option.map_eq_some_iff.mp hc
      exact ⟨(hrest c' hc').1, fun hshould => by cases hshould⟩
    · obtain ⟨c', -, rfl⟩ := Option.map_eq_some_iff.mp hc
      rfl
  | restart c hc hdue hhandle =>
    cases h with
    | resting hidle _ _ =>
      refine .running ⟨id, .connecting⟩ (by rw [View.spawn, hidle.1, List.nil_append])
        (fun e he => ?_) (fun c' hc' => Option.some.inj hc' ▸ rfl)
      rw [View.spawn, hidle.2] at he
      cases he
    | running t ht he hconn => simp [Connection.isDue, hconn c hc] at hdue
    | ending es e ht hes hend he hconn => simp [Connection.isDue, hconn c hc] at hdue
  | receive e rest he => exact h.receive he
  | report l r t report t' e ht hreact =>
    obtain ⟨-, hkind⟩ := Task.react_cases hreact
    cases h with
    | resting hidle _ _ => simp [hidle.1] at ht
    | ending es x hnone _ _ _ _ => simp [hnone] at ht
    | running t₀ ht₀ hall hconn =>
      rw [ht₀] at ht
      obtain ⟨rfl, rfl⟩ : l = [] ∧ r = [] := by
        have hlen := congrArg List.length ht
        simp only [List.length_append, List.length_cons, List.length_nil] at hlen
        exact ⟨List.eq_nil_of_length_eq_zero (by omega), List.eq_nil_of_length_eq_zero (by omega)⟩
      rcases hkind with ⟨rfl, hend⟩ | ⟨u, rfl, -, hnot⟩
      · exact .ending v.events e rfl rfl hend hall hconn
      · refine .running u rfl (fun x hx => ?_) hconn
        rcases List.mem_append.mp hx with hx | hx
        · exact hall x hx
        · rw [List.mem_singleton.mp hx]
          exact hnot

/-- How long a step takes. -/
def Input.seconds : Input → Nat
  | .wait seconds => seconds
  | _ => 0

theorem Client.now_step (s : Client) (i : Input) : (s.step i).now = s.now + i.seconds := by
  cases i with
  | wait seconds => rfl
  | connect id auto delay hasPlaceholder =>
    rw [Client.step, Client.connect]
    split <;> rfl
  | closeBuffer id =>
    rw [Client.step, Client.closeBuffer]
    split <;> rfl
  | receive =>
    rw [Client.step, Client.receive]
    split
    · rfl
    · rename_i e rest hq
      cases e with
      | disconnected id error =>
        rw [Client.handleIrcEvent]
        dsimp only
        split <;> rfl
      | _ => rfl
  | report n r =>
    rw [Client.step, Client.report]
    split
    · rfl
    · split <;> rfl
  | _ => rfl

theorem flight_new (now : Nat) (id : Str) : Flight now ((Client.new now).view id) := by
  refine .resting ⟨rfl, rfl⟩ rfl (fun c hc => ?_)
  have hc : (Dict.insert Table.empty defaultConnId Connection.placeholder).lookup id = some c := hc
  rw [Dict.lookup_insert] at hc
  split at hc
  · rw [← Option.some.inj hc]
    exact ⟨rfl, fun hshould => by cases hshould⟩
  · cases hc

/-- **The run lemma of the sessions.** -/
theorem flight_run (now : Nat) {is : List Input}
    (hfresh : Run.Guarded Client.step Fresh (Client.new now) is) (id : Str) :
    Flight (Run.run Client.step (Client.new now) is).now
      ((Run.run Client.step (Client.new now) is).view id) :=
  Run.Guarded.invariant (P := fun s => Flight s.now (s.view id))
    (fun s i h hi => (h.moves (step_moves s i id) hi).wait
      (Nat.le.intro (s.now_step i).symm))
    (flight_new now id) hfresh

/-- The sessions of a connection: its tasks, and those that have ended and are not taken care of
yet. -/
def Client.sessions (s : Client) (id : Str) : Nat :=
  (s.view id).tasks.length + (s.view id).events.countP IrcEvent.isEnd

theorem Flight.sessions_le {s : Client} {id : Str} (h : Flight s.now (s.view id)) :
    s.sessions id ≤ 1 := by
  have hcount : ∀ es : List IrcEvent, (∀ e ∈ es, e.isEnd = false) →
      es.countP IrcEvent.isEnd = 0 := by
    intro es hes
    rw [List.countP_eq_zero]
    exact fun e he => by simp [hes e he]
  rw [Client.sessions]
  cases h with
  | resting hidle _ _ => simp [hidle.1, hidle.2]
  | running t ht he _ => simp [ht, hcount _ he]
  | ending es e ht hes hend he _ => simp [ht, hes, List.countP_append, hcount _ he, hend]

/-- A connection without a session rests. -/
theorem Flight.resting_of_sessions {s : Client} {id : Str} (h : Flight s.now (s.view id))
    (hnone : s.sessions id = 0) : (s.view id).Idle ∧ (s.view id).hasHandle = false ∧
      ∀ c, (s.view id).conn = some c → c.Resting s.now := by
  rw [Client.sessions] at hnone
  cases h with
  | resting hidle hhandle hconn => exact ⟨hidle, hhandle, hconn⟩
  | running t ht _ _ => simp [ht] at hnone
  | ending es e ht hes hend _ _ => simp [hes, List.countP_append, hend] at hnone

/-- **A connection has at most one session at a time**, in every run in which nobody asks for a
connection that is being made. -/
theorem one_session (now : Nat) {is : List Input}
    (hfresh : Run.Guarded Client.step Fresh (Client.new now) is) (id : Str) :
    (Run.run Client.step (Client.new now) is).sessions id ≤ 1 :=
  (flight_run now hfresh id).sessions_le

/-- A server that refuses the first attempt to connect. -/
def refusals : List Input :=
  [.connect (str "libera") none none true, .report 0 (.refused (str "timeout")), .receive]

theorem refusals_fresh : Run.Guarded Client.step Fresh (Client.new 0) refusals :=
  ⟨.inr ⟨rfl, rfl⟩, trivial, trivial, trivial⟩

theorem libera_has_one_session :
    (Run.run Client.step (Client.new 0) refusals).sessions (str "libera") ≤ 1 :=
  one_session 0 refusals_fresh (str "libera")

/-! ### Coming back -/

/-- The connection waits to be made again, and nothing of it is under way. -/
structure View.Waits (v : View) (c : Connection) : Prop where
  conn : v.conn = some c
  idle : v.Idle
  handle : v.hasHandle = false

/-- A connection that waits goes on waiting as it does, unless it is made or ended. -/
theorem View.Waits.moves {id : Str} {now : Nat} {opens fresh ends : Prop} {v v' : View}
    {c : Connection} (h : v.Waits c) (hm : Moves id now opens fresh ends v v') (hends : ¬ ends) :
    v'.Waits c ∨ v'.tasks.length + v'.events.countP IrcEvent.isEnd = 1 := by
  obtain ⟨htasks, hevents⟩ := h.idle
  have hspawn (k : Nat) (c' : Connection) : (v.spawn id now k c').tasks.length +
      (v.spawn id now k c').events.countP IrcEvent.isEnd = 1 := by
    rw [View.spawn, htasks, hevents]
    rfl
  cases hm with
  | stay => exact .inl h
  | setUp c' _ _ _ => exact .inr (hspawn 0 c')
  | placeholder he => exact absurd he hends
  | forget he => exact absurd he hends
  | giveUp he => exact absurd he hends
  | restart c' _ _ _ => exact .inr (hspawn _ _)
  | receive e rest he =>
    rw [hevents] at he
    cases he
  | report l r t report t' e ht _ =>
    rw [htasks] at ht
    exact absurd ht.symm (by simp)

/-- A run in which nobody ends the connection makes it again, or leaves it waiting. -/
theorem waits_run {s : Client} {id : Str} {c : Connection} (h : (s.view id).Waits c)
    {later : List Input} (hends : ∀ i ∈ later, ¬ i.Ends id) :
    (∃ pre, pre <+: later ∧ (Run.run Client.step s pre).sessions id = 1) ∨
      ((Run.run Client.step s later).view id).Waits c ∧
        (Run.run Client.step s later).now = s.now + (later.map Input.seconds).sum := by
  induction later generalizing s with
  | nil => exact .inr ⟨h, rfl⟩
  | cons i later ih =>
    obtain ⟨hi, hlater⟩ := List.forall_mem_cons.mp hends
    rcases h.moves (step_moves s i id) hi with hwaits | hmade
    · rcases ih hwaits hlater with ⟨pre, hpre, hmade⟩ | ⟨hwaits, hnow⟩
      · exact .inl ⟨i :: pre, (List.prefix_cons_inj i).mpr hpre, hmade⟩
      · refine .inr ⟨hwaits, ?_⟩
        rw [Run.run_cons, hnow, s.now_step, List.map_cons, List.sum_cons, Nat.add_assoc]
    · exact .inl ⟨[i], (List.prefix_cons_inj i).mpr List.nil_prefix, hmade⟩

/-- A tick makes a connection whose time has come. -/
theorem sessions_tick {s : Client} {id : Str} {c : Connection} (h : (s.view id).Waits c)
    (hid : id ≠ defaultConnId) (hdue : c.isDue s.now = true) :
    (s.step .tick).sessions id = 1 := by
  obtain ⟨htasks, hevents⟩ := h.idle
  have hhandle : (s.ircHandles.lookup id).isNone = true := Option.isSome_eq_false_iff.mp h.handle
  have hfilter : (s.connections.lookup id).filter (s.isDue id) = some c := by
    refine Option.filter_eq_some_iff.mpr ⟨h.conn, ?_⟩
    rw [Client.isDue, hdue, hhandle, decide_eq_true hid]
    rfl
  rw [Client.sessions, Client.step, view_checkReconnects, hfilter]
  show ((s.view id).tasks ++ [_]).length + (s.view id).events.countP IrcEvent.isEnd = 1
  rw [htasks, hevents]
  rfl

/-- **A connection comes back**: in these runs, one that has no session and has not been given up
is made again, whatever happens, until the first tick after ten minutes, unless the user ends
it. -/
theorem comes_back (now : Nat) {is : List Input}
    (hfresh : Run.Guarded Client.step Fresh (Client.new now) is) {id : Str} {c : Connection}
    (hid : id ≠ defaultConnId)
    (hc : (Run.run Client.step (Client.new now) is).connections.lookup id = some c)
    (hshould : c.shouldReconnect = true)
    (hnone : (Run.run Client.step (Client.new now) is).sessions id = 0) {later : List Input}
    (hends : ∀ i ∈ later, ¬ i.Ends id) (hseconds : 600 ≤ (later.map Input.seconds).sum) :
    ∃ pre, pre <+: later ++ [.tick] ∧
      (Run.run Client.step (Client.new now) (is ++ pre)).sessions id = 1 := by
  have hflight := flight_run now hfresh id
  simp only [Run.run_append]
  generalize Run.run Client.step (Client.new now) is = s at *
  obtain ⟨hidle, hhandle, hrest⟩ := hflight.resting_of_sessions hnone
  obtain ⟨hdown, hnext⟩ := hrest c hc
  obtain ⟨t, ht, hnext⟩ := hnext hshould
  rcases waits_run ⟨hc, hidle, hhandle⟩ hends with ⟨pre, hpre, hmade⟩ | ⟨hwaits, hnow⟩
  · exact ⟨pre, hpre.trans (List.prefix_append _ _), hmade⟩
  · refine ⟨later ++ [.tick], List.prefix_rfl, ?_⟩
    rw [Run.run_append, Run.run_cons, Run.run_nil]
    refine sessions_tick hwaits hid ?_
    have hle : t ≤ (Run.run Client.step s later).now := by omega
    rw [Connection.isDue, hdown, hshould, hnext]
    simpa using hle

/-- The tick after a second comes too early. -/
theorem libera_comes_back :
    (Run.run Client.step (Client.new 0) (refusals ++ [.wait 1, .tick])).sessions (str "libera") =
        0 ∧
      ∃ pre, pre <+: [.wait 1, .tick, .wait 300, .tick, .wait 299] ++ [.tick] ∧
        (Run.run Client.step (Client.new 0) (refusals ++ pre)).sessions (str "libera") = 1 :=
  ⟨rfl, comes_back 0 refusals_fresh (c := ⟨.error, 0, 30, some 30, true⟩) (by decide) rfl rfl rfl
    (by simp [Input.Ends]; decide) (by decide)⟩

/-! ### Giving up -/

def Entry.isStart : Entry → Bool
  | .started _ _ _ => true
  | .ended _ _ _ _ => false

/-- The attempts to connect that were started. -/
def Client.attempts (s : Client) (id : Str) : List Entry :=
  (s.view id).journal.filter Entry.isStart

/-- The connection is not started by itself. -/
def View.GivenUp (v : View) : Prop := ∀ c, v.conn = some c → c.shouldReconnect = false

theorem View.GivenUp.moves {id : Str} {now : Nat} {opens fresh ends : Prop} {v v' : View}
    (h : v.GivenUp) (hm : Moves id now opens fresh ends v v') (hopens : ¬ opens) :
    v'.GivenUp ∧ v'.journal.filter Entry.isStart = v.journal.filter Entry.isStart := by
  cases hm with
  | stay => exact ⟨h, rfl⟩
  | setUp c ho _ _ => exact absurd ho hopens
  | placeholder => exact ⟨fun c hc => Option.some.inj hc ▸ rfl, rfl⟩
  | forget => exact ⟨fun c hc => (by cases hc), rfl⟩
  | giveUp =>
    refine ⟨fun c hc => ?_, rfl⟩
    obtain ⟨c', -, rfl⟩ := Option.map_eq_some_iff.mp hc
    rfl
  | restart c hc hdue _ =>
    rw [Connection.isDue, h c hc] at hdue
    simp at hdue
  | receive e rest he =>
    cases e with
    | handleReady _ => exact ⟨h, rfl⟩
    | connected _ =>
      refine ⟨fun c hc => ?_, rfl⟩
      obtain ⟨c', hc', rfl⟩ := Option.map_eq_some_iff.mp hc
      exact h c' hc'
    | error _ =>
      refine ⟨fun c hc => ?_, rfl⟩
      obtain ⟨c', hc', rfl⟩ := Option.map_eq_some_iff.mp hc
      exact h c' hc'
    | disconnected _ error =>
      refine ⟨fun c hc => ?_, ?_⟩
      · obtain ⟨c', hc', rfl⟩ := Option.map_eq_some_iff.mp hc
        exact h c' hc'
      · show (v.journal ++ _).filter Entry.isStart = _
        rw [List.filter_append]
        cases v.conn with
        | none => exact List.append_nil _
        | some c => exact List.append_nil _
  | report l r t report t' e ht hreact => exact ⟨h, rfl⟩

theorem givenUp_disconnect (s : Client) (id : Str) : ((s.disconnect id).view id).GivenUp := by
  intro c hc
  have hc : (s.connections.modify id .giveUp).lookup id = some c := hc
  rw [Dict.lookup_modify, if_pos rfl] at hc
  obtain ⟨c', -, rfl⟩ := Option.map_eq_some_iff.mp hc
  rfl

/-- **A connection that the user ends stays so**: whatever happens, no attempt to connect is
started until somebody asks for the connection. -/
theorem disconnected_stays (s : Client) (id : Str) {is : List Input}
    (hopens : ∀ i ∈ is, ¬ i.Opens id) :
    (Run.run Client.step (s.disconnect id) is).attempts id = (s.disconnect id).attempts id := by
  have hgiven := givenUp_disconnect s id
  generalize s.disconnect id = s at *
  induction is generalizing s with
  | nil => rfl
  | cons i is ih =>
    obtain ⟨hi, his⟩ := List.forall_mem_cons.mp hopens
    obtain ⟨hgiven', hstarts⟩ := View.GivenUp.moves hgiven (step_moves s i id) hi
    rw [Run.run_cons, ih his (s.step i) hgiven']
    exact hstarts

theorem libera_stays :
    (Run.run Client.step
      ((Run.run Client.step (Client.new 0) refusals).disconnect (str "libera"))
        [.wait 600, .tick]).attempts (str "libera") =
      ((Run.run Client.step (Client.new 0) refusals).disconnect (str "libera")).attempts
        (str "libera") :=
  disconnected_stays _ (str "libera") (by simp [Input.Opens])

/-! ### Pacing -/

/-- The attempt numbered `k + 1` follows the end of a session before which there were `k`
attempts, and as long after it as these say. -/
def Entry.Follows (id : Str) (before : List Entry) : Entry → Prop
  | .started _ t (k + 1) => ∃ l τ base, before = l ++ [.ended id τ base k] ∧
      τ + calculateReconnectDelay base k ≤ t
  | _ => True

structure Paced (id : Str) (v : View) : Prop where
  follows : ∀ pre e post, v.journal = pre ++ e :: post → e.Follows id pre
  waits : ∀ c t, v.conn = some c → c.nextReconnect = some t → ∃ l τ base,
    v.journal = l ++ [.ended id τ base c.reconnectAttempts] ∧
      t = τ + calculateReconnectDelay base c.reconnectAttempts
  off : ∀ c, v.conn = some c → c.shouldReconnect = false → c.nextReconnect = none

theorem Paced.congr {id : Str} {v v' : View} (h : Paced id v) (hjournal : v'.journal = v.journal)
    (hconn : ∀ c, v'.conn = some c → (∃ c', v.conn = some c' ∧
      c.nextReconnect = c'.nextReconnect ∧ c.reconnectAttempts = c'.reconnectAttempts ∧
      c.shouldReconnect = c'.shouldReconnect) ∨ c.nextReconnect = none) : Paced id v' where
  follows := hjournal ▸ h.follows
  waits c t hc ht := by
    rcases hconn c hc with ⟨c', hc', hnext, hattempts, -⟩ | hnone
    · rw [hjournal, hattempts]
      exact h.waits c' t hc' (hnext ▸ ht)
    · rw [hnone] at ht
      cases ht
  off c hc hshould := by
    rcases hconn c hc with ⟨c', hc', hnext, -, hsame⟩ | hnone
    · rw [hnext]
      exact h.off c' hc' (hsame ▸ hshould)
    · exact hnone

theorem Paced.follows_append {id : Str} {v : View} (h : Paced id v) {e : Entry}
    (he : e.Follows id v.journal) (pre : List Entry) (x : Entry) (post : List Entry)
    (hx : v.journal ++ [e] = pre ++ x :: post) : x.Follows id pre := by
  rcases List.eq_nil_or_concat post with rfl | ⟨post, y, rfl⟩
  · obtain ⟨rfl, hlast⟩ := List.append_inj' hx rfl
    rw [← (List.cons.inj hlast).1]
    exact he
  · rw [List.concat_eq_append, ← List.cons_append, ← List.append_assoc] at hx
    exact h.follows pre x post (List.append_inj' hx rfl).1

theorem Paced.spawn {id : Str} {v : View} (h : Paced id v) {now k : Nat} {c : Connection}
    (hc : c.nextReconnect = none) (he : (Entry.started id now k).Follows id v.journal) :
    Paced id (v.spawn id now k c) where
  follows := h.follows_append he
  waits c' t hc' ht := by
    rw [← Option.some.inj hc', hc] at ht
    cases ht
  off c' hc' _ := by
    rw [← Option.some.inj hc', hc]

/-- **The step lemma of the pacing.** -/
theorem Paced.moves {id : Str} {now : Nat} {opens fresh ends : Prop} {v v' : View} (h : Paced id v)
    (hm : Moves id now opens fresh ends v v') : Paced id v' := by
  cases hm with
  | stay => exact h
  | setUp c _ _ hc => exact h.spawn hc trivial
  | placeholder => exact h.congr rfl (fun c hc => .inr (Option.some.inj hc ▸ rfl))
  | forget => exact h.congr rfl (fun c hc => by cases hc)
  | giveUp =>
    refine h.congr rfl (fun c hc => .inr ?_)
    obtain ⟨c', -, rfl⟩ := Option.map_eq_some_iff.mp hc
    rfl
  | restart c hc hdue _ =>
    rw [Connection.isDue, Bool.and_eq_true, Option.any_eq_true] at hdue
    obtain ⟨-, t, ht, hle⟩ := hdue
    obtain ⟨l, τ, base, hjournal, rfl⟩ := h.waits c t hc ht
    exact h.spawn rfl ⟨l, τ, base, hjournal, of_decide_eq_true hle⟩
  | receive e rest he =>
    cases e with
    | handleReady _ => exact h.congr rfl (fun c hc => .inl ⟨c, hc, rfl, rfl, rfl⟩)
    | connected _ =>
      refine h.congr rfl (fun c hc => .inr ?_)
      obtain ⟨c', -, rfl⟩ := Option.map_eq_some_iff.mp hc
      rfl
    | error _ =>
      refine h.congr rfl (fun c hc => .inl ?_)
      obtain ⟨c', hc', rfl⟩ := Option.map_eq_some_iff.mp hc
      exact ⟨c', hc', rfl, rfl, rfl⟩
    | disconnected connId error =>
      rcases Option.eq_none_or_eq_some v.conn with hc | ⟨c, hc⟩
      · refine h.congr ?_ (fun c hc' => ?_)
        · simp [View.receive, hc]
        · simp [View.receive, hc] at hc'
      · -- the end is noted with the attempts that the delay is computed from
        have hjournal : ({ v with events := rest }.receive id now
            (.disconnected connId error)).journal =
            v.journal ++ [.ended id now c.reconnectDelaySecs c.reconnectAttempts] := by
          simp [View.receive, hc]
        have hconn : ∀ c', ({ v with events := rest }.receive id now
            (.disconnected connId error)).conn = some c' → c' = c.close now error := by
          intro c' hc'
          simpa [View.receive, hc, eq_comm] using hc'
        refine ⟨?_, fun c' t hc' ht => ?_, fun c' hc' hshould => ?_⟩
        · rw [hjournal]
          exact h.follows_append trivial
        · rw [hconn c' hc', Connection.close] at ht ⊢
          dsimp only at ht
          split at ht
          · exact ⟨v.journal, now, c.reconnectDelaySecs, hjournal, (Option.some.inj ht).symm⟩
          · rename_i hoff
            rw [h.off c hc (by simpa using hoff)] at ht
            cases ht
        · rw [hconn c' hc', Connection.close] at hshould ⊢
          dsimp only at hshould ⊢
          rw [hshould]
          exact h.off c hc hshould
  | report l r t report t' e ht hreact =>
    exact h.congr rfl (fun c hc => .inl ⟨c, hc, rfl, rfl, rfl⟩)

theorem paced_new (now : Nat) (id : Str) : Paced id ((Client.new now).view id) := by
  have hconn : ∀ c, ((Client.new now).view id).conn = some c → c.nextReconnect = none := by
    intro c hc
    have hc : (Dict.insert Table.empty defaultConnId Connection.placeholder).lookup id =
      some c := hc
    rw [Dict.lookup_insert] at hc
    split at hc
    · rw [← Option.some.inj hc]
      rfl
    · cases hc
  refine ⟨fun pre e post h => ?_, fun c t hc ht => ?_, fun c hc _ => hconn c hc⟩
  · exact absurd h.symm (by simp [Client.new, Client.view])
  · rw [hconn c hc] at ht
    cases ht

/-- **Reconnects are paced**: in every run, before the attempt numbered `k + 1` of a connection
comes the end of its last session, and between them the delay that `k` attempts call for. -/
theorem reconnects_are_paced (now : Nat) (is : List Input) (id : Str) (pre post : List Entry)
    {t k : Nat}
    (h : ((Run.run Client.step (Client.new now) is).view id).journal =
      pre ++ .started id t (k + 1) :: post) :
    ∃ l τ base, pre = l ++ [.ended id τ base k] ∧ τ + calculateReconnectDelay base k ≤ t := by
  have hpaced : Paced id ((Run.run Client.step (Client.new now) is).view id) :=
    Run.invariant (P := fun s => Paced id (s.view id))
      (fun s i h => h.moves (step_moves s i id)) (paced_new now id) is
  exact hpaced.follows pre (.started id t (k + 1)) post h

theorem libera_is_paced : ∃ l τ base,
    [Entry.started (str "libera") 0 0, .ended (str "libera") 0 30 0] =
      l ++ [.ended (str "libera") τ base 0] ∧ τ + calculateReconnectDelay base 0 ≤ 30 :=
  reconnects_are_paced 0 (refusals ++ [.wait 30, .tick]) (str "libera") [_, _] [] rfl

end Repartee.Connections
