import Repartee.Scripting.Calls

/-!
# The reference implementation of the event dispatch

`EventBus` of `scripting/event_bus.rs`, which says in its tests what the dispatch of events has to
do: "priority ordering, once-handlers, suppress semantics". A handler of the bus is a function of
the event alone. The engine keeps its handlers in another way, by sorting them and by looking
their functions up by name; as long as its handlers are of that kind too, it does the same.

## Main definitions

- `EventBus`: the bus
- `World.bus`: the bus that the tables of an engine implement

## Main results

- `bus_register`, `bus_off`, `bus_dropHandlers`, `bus_emit`: each operation refines that of the bus
- `engine_refines_bus`: in every run, the engine answers as the bus
-/

set_option autoImplicit false

namespace Repartee.Scripting

structure Registration (H : Type) where
  event : Str
  handler : H
  priority : Int
  once : Bool
  owner : Str
  id : Nat

structure EventBus (H : Type) where
  handlers : List (Registration H)
  nextId : Nat

namespace EventBus

variable {H : Type}

def new : EventBus H := ⟨[], 0⟩

def insert (b : EventBus H) (reg : Registration H) : EventBus H :=
  { b with handlers := Priority.insertDesc Registration.priority reg b.handlers }

def on (b : EventBus H) (eventName : Str) (handler : H) (priority : Int) (owner : Str) :
    EventBus H × Nat :=
  (({ b with nextId := b.nextId + 1 } : EventBus H).insert
    ⟨eventName, handler, priority, false, owner, b.nextId⟩, b.nextId)

def once (b : EventBus H) (eventName : Str) (handler : H) (priority : Int) (owner : Str) :
    EventBus H × Nat :=
  (({ b with nextId := b.nextId + 1 } : EventBus H).insert
    ⟨eventName, handler, priority, true, owner, b.nextId⟩, b.nextId)

/-- The loop of `emit`: whether the event is suppressed, and the once-handlers that ran. -/
def emitLoop (handle : H → Event → EventResult) (event : Event) :
    List (Registration H) → Bool × List Nat
  | [] => (false, [])
  | r :: rs =>
    let removed := if r.once then [r.id] else []
    if handle r.handler event = .suppress then (true, removed)
    else ((emitLoop handle event rs).1, removed ++ (emitLoop handle event rs).2)

def emit (handle : H → Event → EventResult) (b : EventBus H) (event : Event) :
    Bool × EventBus H :=
  let r := emitLoop handle event (b.handlers.filter (fun r => decide (r.event = event.name)))
  (r.1, { b with handlers := b.handlers.filter (fun h => decide (h.id ∉ r.2)) })

def remove (b : EventBus H) (id : Nat) : EventBus H :=
  { b with handlers := b.handlers.filter (fun r => decide (r.id ≠ id)) }

def removeAll (b : EventBus H) (owner : Str) : EventBus H :=
  { b with handlers := b.handlers.filter (fun r => decide (r.owner ≠ owner)) }

end EventBus

variable {Fn Ref σ : Type}

/-! ### The bus of an engine -/

namespace World

/-- What a handler stands for. -/
def registration? (w : World Fn Ref) (h : LuaHandler) : Option (Registration Fn) :=
  (w.function? h.registryKey).map
    (fun f => ⟨h.eventName, f, h.priority, h.once, h.scriptName, h.id⟩)

/-- The bus that the tables of an engine implement. -/
def bus (w : World Fn Ref) : EventBus Fn :=
  ⟨w.state.handlers.filterMap w.registration?, w.state.nextId⟩

theorem exists_registration {w : World Fn Ref} (hw : w.WellFormed) {h : LuaHandler}
    (hh : h ∈ w.state.handlers) : ∃ f, w.function? h.registryKey = some f ∧
      w.registration? h = some ⟨h.eventName, f, h.priority, h.once, h.scriptName, h.id⟩ := by
  have hfiled := (hw.handlerIff h.id).mpr ⟨h, hh, rfl⟩
  rw [← (hw.handler h hh).2] at hfiled
  obtain ⟨f, hf⟩ := Option.isSome_iff_exists.mp hfiled
  exact ⟨f, hf, by rw [registration?, hf]; rfl⟩

/-- **Registering refines the insertion of the bus.** -/
theorem bus_register {w : World Fn Ref} (hw : w.WellFormed) (owner eventName : Str)
    (callback : Fn) (priority : Option Int) (once : Bool) :
    (w.register owner eventName callback priority once).bus =
      ({ w.bus with nextId := w.bus.nextId + 1 } : EventBus Fn).insert
        ⟨eventName, callback, priority.getD Priority.normal.toI32, once, owner, w.bus.nextId⟩ := by
  have hs := state_register w owner eventName callback priority once hw
  have hf : ∀ k, (w.register owner eventName callback priority once).function? k =
      if handlerKey w.state.nextId = k then some callback else w.function? k :=
    fun k => function?_insert w _ (.function callback) k
  have hold : ∀ h ∈ w.state.handlers,
      (w.register owner eventName callback priority once).registration? h = w.registration? h := by
    intro h hh
    obtain ⟨hid, hkey⟩ := hw.handler h hh
    rw [registration?, registration?, hf, if_neg]
    rw [hkey, handlerKey_inj]
    omega
  rw [bus, hs]
  dsimp only
  rw [Priority.filterMap_insertDesc LuaHandler.priority _ Registration.priority
    (y := ⟨eventName, callback, priority.getD Priority.normal.toI32, once, owner, w.state.nextId⟩)]
  · rw [List.filterMap_congr hold]
    rfl
  · rw [registration?, hf, if_pos rfl]
    rfl
  · rfl
  · intro h hh
    obtain ⟨f, -, hreg⟩ := exists_registration hw hh
    exact ⟨_, (hold h hh).trans hreg, rfl⟩

/-- **Dropping handlers refines `retain`.** -/
theorem bus_dropHandlers {w : World Fn Ref} (hw : w.WellFormed) {gone : LuaHandler → Bool}
    (kept : Registration Fn → Bool)
    (hkept : ∀ h ∈ w.state.handlers, ∀ r, w.registration? h = some r → kept r = !gone h) :
    (w.dropHandlers gone).bus = { w.bus with handlers := w.bus.handlers.filter kept } := by
  rw [bus, bus, EventBus.mk.injEq]
  refine ⟨?_, rfl⟩
  rw [List.filter_filterMap]
  show (w.state.handlers.filter (fun h => !gone h)).filterMap _ = _
  rw [List.filterMap_filter]
  refine List.filterMap_congr (fun h hh => ?_)
  obtain ⟨f, hf, hreg⟩ := exists_registration hw hh
  rw [hreg, Option.filter_some, hkept h hh _ hreg]
  cases hgone : gone h with
  | true => rfl
  | false =>
    -- the callback of a handler that stays is not removed with the others
    have hstays : (w.dropHandlers gone).function? h.registryKey = some f := by
      rw [dropHandlers, function?_unset, if_neg]
      · exact hf
      · rw [mem_keys_dropHandlers hw]
        rintro ⟨x, hx, hxgone, hkey⟩
        rw [(hw.handler h hh).2, handlerKey_inj] at hkey
        rw [hw.eq_of_id hx hh hkey, hgone] at hxgone
        cases hxgone
    have hreg' : (w.dropHandlers gone).registration? h =
        some ⟨h.eventName, f, h.priority, h.once, h.scriptName, h.id⟩ := by
      rw [registration?, hstays]
      rfl
    simp [hreg']

theorem bus_off {w : World Fn Ref} (hw : w.WellFormed) (id : Nat) :
    (w.off id).bus = w.bus.remove id := by
  rcases off_eq hw id with ⟨h, hnone⟩ | h
  · rw [h, EventBus.remove, bus, EventBus.mk.injEq]
    refine ⟨(List.filter_eq_self.mpr fun r hr => ?_).symm, rfl⟩
    obtain ⟨x, hx, hreg⟩ := List.mem_filterMap.mp hr
    obtain ⟨f, -, hreg'⟩ := exists_registration hw hx
    rw [hreg] at hreg'
    rw [Option.some.inj hreg']
    exact decide_eq_true (hnone x hx)
  · rw [h, bus_dropHandlers hw (fun r => decide (r.id ≠ id))]
    · rfl
    · intro x hx r hr
      obtain ⟨f, -, hreg⟩ := exists_registration hw hx
      rw [hr] at hreg
      rw [Option.some.inj hreg]
      simp

end World

/-! ### Events -/

/-- The handlers are as those of the bus: what they answer depends on the event alone, and they
use no api. -/
structure Answers (vm : Vm Fn Ref σ) (answer : Fn → Event → EventResult) : Prop where
  table : ∀ event mem, (vm.newTable (eventToTable event) mem).isSome
  call : ∀ f event mem table mem', vm.newTable (eventToTable event) mem = some (table, mem') →
    ∀ m, ∃ reply m', vm.call f (.event table) m = .done reply m' ∧
      (reply.stops = true ↔ answer f event = .suppress)

variable {vm : Vm Fn Ref σ} {answer : Fn → Event → EventResult}

theorem emitLoop_bus {event : Event} {table : Ref}
    (hcall : ∀ f m, ∃ reply m', vm.call f (.event table) m = .done reply m' ∧
      (reply.stops = true ↔ answer f event = .suppress))
    (hs : List LuaHandler) : ∀ {e : LuaEngine Fn Ref σ}, e.world.WellFormed →
      (∀ h ∈ hs, h ∈ e.world.state.handlers) →
      (LuaEngine.emitLoop vm table hs e).2.2.world = e.world ∧
      ((LuaEngine.emitLoop vm table hs e).1 = .suppress ↔
        (EventBus.emitLoop answer event (hs.filterMap e.world.registration?)).1 = true) ∧
      (LuaEngine.emitLoop vm table hs e).2.1 =
        (EventBus.emitLoop answer event (hs.filterMap e.world.registration?)).2 := by
  induction hs with
  | nil => exact fun {e} _ _ => ⟨rfl, by simp [LuaEngine.emitLoop, EventBus.emitLoop], rfl⟩
  | cons h hs ih =>
    intro e hw hin
    obtain ⟨f, hf, hreg⟩ := World.exists_registration hw (hin h List.mem_cons_self)
    obtain ⟨reply, m', hdone, hanswer⟩ := hcall f e.mem
    have hrun : e.run (.handler h) (vm.call f (.event table) e.mem) =
        (reply, { e with mem := m', calls := e.calls ++ [(.handler h, reply)] }) := by
      rw [hdone]
      rfl
    rw [List.filterMap_cons_some hreg, EventBus.emitLoop]
    cases hstops : reply.stops with
    | true =>
      rw [LuaEngine.emitLoop_of_stops vm hf (by rw [hrun]; exact hstops), hrun,
        if_pos (hanswer.mp hstops)]
      exact ⟨rfl, by simp, rfl⟩
    | false =>
      have hgoes : answer f event ≠ .suppress := fun ha => by
        rw [hanswer.mpr ha] at hstops
        cases hstops
      rw [LuaEngine.emitLoop_of_goes_on vm hf hrun hstops, if_neg hgoes]
      obtain ⟨hworld, hresult, hids⟩ := ih
        (e := { e with mem := m', calls := e.calls ++ [(.handler h, reply)] }) hw
        (fun x hx => hin x (List.mem_cons_of_mem h hx))
      exact ⟨hworld, hresult, congrArg (_ ++ ·) hids⟩

/-- **Emitting refines the bus**: the event is suppressed alike, and the same handlers stay. -/
theorem bus_emit (hvm : Answers vm answer) {e : LuaEngine Fn Ref σ} (hw : e.world.WellFormed)
    (event : Event) :
    ((e.emit vm event).1 = .suppress ↔ (e.world.bus.emit answer event).1 = true) ∧
      (e.emit vm event).2.world.bus = (e.world.bus.emit answer event).2 := by
  have hmatching : e.world.bus.handlers.filter (fun r => decide (r.event = event.name)) =
      (e.snapshot event).filterMap e.world.registration? := by
    rw [World.bus, LuaEngine.snapshot, List.filter_filterMap, List.filterMap_filter]
    refine List.filterMap_congr (fun h hh => ?_)
    obtain ⟨f, -, hreg⟩ := World.exists_registration hw hh
    rw [hreg, Option.filter_some]
  have hall : ∀ b : EventBus Fn, b.handlers.filter (fun r => decide (r.id ∉ ([] : List Nat))) =
      b.handlers := fun b => List.filter_eq_self.mpr (fun r _ => by simp)
  rw [EventBus.emit, hmatching]
  by_cases hne : e.snapshot event = []
  · have hemit : e.emit vm event = (.proceed, e) := by rw [LuaEngine.emit, if_pos hne]
    rw [hemit, hne, List.filterMap_nil, EventBus.emitLoop]
    dsimp only
    rw [hall]
    exact ⟨by simp, rfl⟩
  · obtain ⟨⟨table, mem⟩, htable⟩ := Option.isSome_iff_exists.mp (hvm.table event e.mem)
    obtain ⟨hworld, hresult, hids⟩ := emitLoop_bus
      (fun f m => hvm.call f event e.mem table mem htable m) (e.snapshot event)
      (e := { e with mem := mem }) hw (fun h hh => (List.mem_filter.mp hh).1)
    rw [LuaEngine.emit_eq vm hne htable rfl]
    generalize LuaEngine.emitLoop vm table (e.snapshot event) { e with mem := mem } = r at *
    obtain ⟨result, onceIds, e'⟩ := r
    dsimp only at hworld hresult hids ⊢
    generalize EventBus.emitLoop answer event
      ((e.snapshot event).filterMap e.world.registration?) = fired at *
    obtain ⟨suppressed, removed⟩ := fired
    dsimp only at hresult hids ⊢
    subst hids
    refine ⟨hresult, ?_⟩
    by_cases hnone : onceIds = []
    · subst hnone
      rw [if_pos rfl, hall, hworld]
    · rw [if_neg hnone]
      dsimp only
      rw [hworld, World.bus_dropHandlers hw (fun r => decide (r.id ∉ onceIds))]
      intro h hh r hr
      obtain ⟨f, -, hreg⟩ := World.exists_registration hw hh
      rw [hr] at hreg
      rw [Option.some.inj hreg]
      simp

/-! ### Runs -/

/-- What the bus offers. -/
inductive BusOp (Fn : Type)
  | on (owner eventName : Str) (callback : Fn) (priority : Int)
  | once (owner eventName : Str) (callback : Fn) (priority : Int)
  | remove (id : Nat)
  | removeAll (owner : Str)
  | emit (event : Event)

/-- What it answers. -/
inductive BusAnswer
  | id (n : Nat)
  | suppressed (b : Bool)
  | none
  deriving DecidableEq

def EventBus.perform (answer : Fn → Event → EventResult) (b : EventBus Fn) :
    BusOp Fn → BusAnswer × EventBus Fn
  | .on owner eventName callback priority =>
    (.id (b.on eventName callback priority owner).2, (b.on eventName callback priority owner).1)
  | .once owner eventName callback priority =>
    (.id (b.once eventName callback priority owner).2,
      (b.once eventName callback priority owner).1)
  | .remove id => (.none, b.remove id)
  | .removeAll owner => (.none, b.removeAll owner)
  | .emit event => (.suppressed (b.emit answer event).1, (b.emit answer event).2)

/-- The same with the tables of the engine: `api.on`, `api.once`, `api.off`, what
`unload_script` does with the handlers, and `emit`. -/
def LuaEngine.perform (vm : Vm Fn Ref σ) (e : LuaEngine Fn Ref σ) :
    BusOp Fn → BusAnswer × LuaEngine Fn Ref σ
  | .on owner eventName callback priority => (.id e.world.state.nextId,
      { e with world := e.world.on owner eventName callback (some priority) })
  | .once owner eventName callback priority => (.id e.world.state.nextId,
      { e with world := e.world.once owner eventName callback (some priority) })
  | .remove id => (.none, { e with world := e.world.off id })
  | .removeAll owner => (.none,
      { e with world := e.world.dropHandlers (fun h => decide (h.scriptName = owner)) })
  | .emit event => (.suppressed (decide ((e.emit vm event).1 = .suppress)), (e.emit vm event).2)

/-- One operation answers alike and leaves the bus of the engine as the bus. -/
theorem perform_bus (hvm : Answers vm answer) {e : LuaEngine Fn Ref σ} (hw : e.world.WellFormed)
    (op : BusOp Fn) : (e.perform vm op).1 = (e.world.bus.perform answer op).1 ∧
      (e.perform vm op).2.world.bus = (e.world.bus.perform answer op).2 ∧
      (e.perform vm op).2.world.WellFormed := by
  cases op with
  | on owner eventName callback priority =>
    exact ⟨rfl, World.bus_register hw owner eventName callback (some priority) false,
      World.wf_register hw owner eventName callback (some priority) false⟩
  | once owner eventName callback priority =>
    exact ⟨rfl, World.bus_register hw owner eventName callback (some priority) true,
      World.wf_register hw owner eventName callback (some priority) true⟩
  | remove id => exact ⟨rfl, World.bus_off hw id, World.wf_off hw id⟩
  | removeAll owner =>
    refine ⟨rfl, World.bus_dropHandlers hw (fun r => decide (r.owner ≠ owner)) ?_,
      World.wf_dropHandlers hw _⟩
    intro h hh r hr
    obtain ⟨f, -, hreg⟩ := World.exists_registration hw hh
    rw [hr] at hreg
    rw [Option.some.inj hreg]
    simp
  | emit event =>
    obtain ⟨hresult, hbus⟩ := bus_emit hvm hw event
    refine ⟨congrArg BusAnswer.suppressed ?_, hbus, ?_⟩
    · rw [Bool.eq_iff_iff, decide_eq_true_eq]
      exact hresult
    · obtain ⟨-, -, -, -, hw', -⟩ := LuaEngine.emit_dispatches vm hw event (hvm.table event e.mem)
      exact hw'

/-- **The engine refines the reference bus**: in every run of registrations, removals and events,
with handlers of the kind that the bus has, each operation answers as the bus does. -/
theorem engine_refines_bus (hvm : Answers vm answer) (mem : σ) (ops : List (BusOp Fn))
    (op : BusOp Fn) :
    ((Run.run (fun e o => (e.perform vm o).2) (LuaEngine.new mem) ops).perform vm op).1 =
      ((Run.run (fun b o => (b.perform answer o).2) EventBus.new ops).perform answer op).1 := by
  have hrun : ∀ (e : LuaEngine Fn Ref σ), e.world.WellFormed →
      (Run.run (fun e o => (e.perform vm o).2) e ops).world.bus =
        Run.run (fun b o => (b.perform answer o).2) e.world.bus ops ∧
      (Run.run (fun e o => (e.perform vm o).2) e ops).world.WellFormed := by
    induction ops with
    | nil => exact fun e hw => ⟨rfl, hw⟩
    | cons o ops ih =>
      intro e hw
      obtain ⟨-, hbus, hw'⟩ := perform_bus hvm hw o
      rw [Run.run_cons, Run.run_cons, ← hbus]
      exact ih (e.perform vm o).2 hw'
  obtain ⟨hbus, hw⟩ := hrun (LuaEngine.new mem) (LuaEngine.wf_new mem).world
  rw [(perform_bus hvm hw op).1, hbus]
  rfl

/-- What the functions of the greeting script answer. -/
def greetAnswer (f : GreetFn) (_ : Event) : EventResult :=
  if f = .greet then .suppress else .proceed

theorem greetVm_answers : Answers greetVm greetAnswer where
  table event mem := rfl
  call f event mem table mem' _ m := by
    cases f with
    | greet => exact ⟨.boolean true, (), rfl, by simp [Reply.stops, greetAnswer]⟩
    | setup => exact ⟨.other, (), rfl, by simp [Reply.stops, greetAnswer]⟩
    | tick => exact ⟨.other, (), rfl, by simp [Reply.stops, greetAnswer]⟩
    | bye => exact ⟨.other, (), rfl, by simp [Reply.stops, greetAnswer]⟩

theorem greet_refines_bus :
    ((Run.run (fun e o => (e.perform greetVm o).2) (LuaEngine.new ())
        [.once (str "greet") (str "join") GreetFn.greet 50]).perform greetVm
          (.emit ⟨str "join", .empty⟩)).1 =
      ((Run.run (fun b o => (b.perform greetAnswer o).2) EventBus.new
        [.once (str "greet") (str "join") GreetFn.greet 50]).perform greetAnswer
          (.emit ⟨str "join", .empty⟩)).1 :=
  engine_refines_bus greetVm_answers () _ _

end Repartee.Scripting
