import Repartee.E2e.Basic
import Repartee.Lib.Priority
import Repartee.Lib.Run
import Repartee.Lib.Table

/-!
# The script engine

`LuaEngine` of `scripting/lua/mod.rs`: what scripts register through their `api` tables, and the
calls the engine makes into the Lua virtual machine, which is a parameter. A Lua function that is
called may register and remove handlers itself before it returns, also while an event is
dispatched: what it does is a program of calls of the api.

## Main definitions

- `Prog`: what a called Lua function does, `Vm`: the virtual machine
- `World`: the tables that the closures of the api share, with the registry of the machine
- `LuaEngine.emit`, `LuaEngine.loadScript`, `LuaEngine.unloadScript`: the engine
- `step`: one input of the engine
-/

set_option autoImplicit false

namespace Repartee.Scripting

/-! ### Events -/

inductive EventResult
  /-- `Continue` -/
  | proceed
  /-- `Suppress` -/
  | suppress
  deriving DecidableEq, Repr

inductive Priority
  | lowest | low | normal | high | highest
  deriving DecidableEq, Repr

def Priority.toI32 : Priority → Int
  | .lowest => 0
  | .low => 25
  | .normal => 50
  | .high => 75
  | .highest => 100

structure Event where
  name : Str
  params : Dict Str Str
  deriving DecidableEq

/-- `event_to_table`: a parameter that is called `name` replaces the name of the event. -/
def eventToTable (event : Event) : Dict Str Str :=
  event.params.rows.foldl (fun t p => t.insert p.1 p.2) (Dict.insert .empty (str "name") event.name)

/-! ### The virtual machine -/

/-- What a Lua function returns, as far as the engine looks at it. -/
inductive Reply (Fn : Type)
  | boolean (b : Bool)
  | function (f : Fn)
  | other
  | error (text : Str)

/-- What a Lua function is called with. -/
inductive Args (Ref : Type)
  /-- the `api` table of the script -/
  | api (scriptName : Str)
  | event (table : Ref)
  | command (args : List Str) (connectionId : Option Str)
  | none

/-- What a called Lua function does to the tables of the engine: calls of the api, each through
the `api` table of a script, and in the end a result and a memory. -/
inductive Prog (Fn σ : Type)
  | done (reply : Reply Fn) (mem : σ)
  | on (owner eventName : Str) (callback : Fn) (priority : Option Int) (next : Nat → Prog Fn σ)
  | once (owner eventName : Str) (callback : Fn) (priority : Option Int) (next : Nat → Prog Fn σ)
  | off (id : Nat) (next : Prog Fn σ)
  | command (owner name : Str) (handler : Fn) (description usage : Str) (next : Prog Fn σ)
  | removeCommand (name : Str) (next : Prog Fn σ)
  | timer (owner : Str) (ms : Nat) (callback : Fn) (next : Nat → Prog Fn σ)
  | timeout (owner : Str) (ms : Nat) (callback : Fn) (next : Nat → Prog Fn σ)
  | cancelTimer (id : Nat) (next : Prog Fn σ)

/-- The Lua virtual machine: its functions are `Fn`, its tables `Ref` and its memory is `σ`. -/
structure Vm (Fn Ref σ : Type) where
  /-- `create_table` and `set`, for the table of an event -/
  newTable : Dict Str Str → σ → Option (Ref × σ)
  /-- `create_script_env` -/
  createScriptEnv : σ → Except Str (Ref × σ)
  /-- Load a source text and run it in an environment. -/
  exec : (path source : Str) → Ref → σ → Prog Fn σ
  /-- `env.get`, for a table, a text and a function -/
  getTable : Ref → Str → σ → Option Ref
  getString : Ref → Str → σ → Option Str
  getFunction : Ref → Str → σ → Option Fn
  call : Fn → Args Ref → σ → Prog Fn σ

/-! ### What is registered -/

structure LuaHandler where
  eventName : Str
  registryKey : Str
  priority : Int
  once : Bool
  scriptName : Str
  id : Nat
  deriving DecidableEq

structure LuaCommand where
  scriptName : Str
  registryKey : Str
  deriving DecidableEq

structure LuaTimer where
  registryKey : Str
  scriptName : Str
  deriving DecidableEq

structure HandlerState where
  handlers : List LuaHandler
  commands : Dict Str LuaCommand
  timers : Dict Nat LuaTimer
  nextId : Nat

def HandlerState.new : HandlerState := ⟨[], .empty, .empty, 0⟩

structure ScriptMeta where
  name : Str
  version : Option Str
  description : Option Str
  path : Str
  deriving DecidableEq

structure LoadedScript where
  info : ScriptMeta
  cleanupKey : Option Str
  envKey : Str
  deriving DecidableEq

/-- A named value of the registry. -/
inductive RegistryValue (Fn Ref : Type)
  | function (f : Fn)
  | table (t : Ref)

/-- What the callbacks of the api send to the application. -/
inductive ScriptAction
  | registerCommand (name description usage : Str)
  | unregisterCommand (name : Str)
  | startTimer (id intervalMs : Nat)
  | startTimeout (id delayMs : Nat)
  | cancelTimer (id : Nat)
  deriving DecidableEq

/-- What the closures of the api share: the tables of the engine, the registry, the counter of the
timers and the queue to the application. `given` are the callbacks that were registered, with the
keys they were filed under, which no function of the source reads. -/
structure World (Fn Ref : Type) where
  state : HandlerState
  registry : Dict Str (RegistryValue Fn Ref)
  timerIdCounter : Nat
  actions : List ScriptAction
  given : List (Str × Fn)

def handlerKey (id : Nat) : Str := str "__handler_" ++ fmtNat id

def cmdKey (id : Nat) : Str := str "__cmd_" ++ fmtNat id

def timerKey (id : Nat) : Str := str "timer_" ++ fmtNat id

def cleanupKey (name : Str) : Str := str "__cleanup_" ++ name

def envKey (name : Str) : Str := str "__env_" ++ name

variable {Fn Ref σ : Type}

namespace World

/-- `named_registry_value::<LuaFunction>` -/
def function? (w : World Fn Ref) (key : Str) : Option Fn :=
  match w.registry.lookup key with
  | some (.function f) => some f
  | _ => none

/-- `unset_named_registry_value` for each of the keys -/
def unset (w : World Fn Ref) (keys : List Str) : World Fn Ref :=
  { w with registry := w.registry.retain (fun k _ => decide (k ∉ keys)) }

/-- What `api.on` and `api.once` do. -/
def register (w : World Fn Ref) (owner eventName : Str) (callback : Fn) (priority : Option Int)
    (once : Bool) : World Fn Ref :=
  let id := w.state.nextId
  let key := handlerKey id
  let handler : LuaHandler := ⟨eventName, key, priority.getD Priority.normal.toI32, once, owner, id⟩
  { w with
    registry := w.registry.insert key (.function callback)
    state := { w.state with
      nextId := id + 1
      handlers := Priority.sortDesc LuaHandler.priority (w.state.handlers ++ [handler]) }
    given := w.given ++ [(key, callback)] }

/-- `api.on` -/
def on (w : World Fn Ref) (owner eventName : Str) (callback : Fn) (priority : Option Int) :
    World Fn Ref := w.register owner eventName callback priority false

/-- `api.once` -/
def once (w : World Fn Ref) (owner eventName : Str) (callback : Fn) (priority : Option Int) :
    World Fn Ref := w.register owner eventName callback priority true

/-- `api.off` -/
def off (w : World Fn Ref) (id : Nat) : World Fn Ref :=
  match w.state.handlers.find? (fun h => decide (h.id = id)) with
  | none => w
  | some handler =>
    { w with state := { w.state with
        handlers := w.state.handlers.eraseP (fun h => decide (h.id = id)) } }.unset
      [handler.registryKey]

/-- `api.command`: the callback of a command that is replaced stays in the registry. -/
def command (w : World Fn Ref) (owner name : Str) (handler : Fn) (description usage : Str) :
    World Fn Ref :=
  let key := cmdKey w.state.nextId
  { w with
    registry := w.registry.insert key (.function handler)
    state := { w.state with
      nextId := w.state.nextId + 1
      commands := w.state.commands.insert name ⟨owner, key⟩ }
    actions := w.actions ++ [.registerCommand name description usage]
    given := w.given ++ [(key, handler)] }

/-- `api.remove_command` -/
def removeCommand (w : World Fn Ref) (name : Str) : World Fn Ref :=
  let removed := w.state.commands.lookup name
  let w' := { w with state := { w.state with commands := w.state.commands.erase name } }
  let w' := match removed with
    | some cmd => w'.unset [cmd.registryKey]
    | none => w'
  { w' with actions := w'.actions ++ [.unregisterCommand name] }

/-- What `api.timer` and `api.timeout` do. -/
def startTimer (w : World Fn Ref) (owner : Str) (callback : Fn) (action : Nat → ScriptAction) :
    World Fn Ref :=
  let id := w.timerIdCounter
  let key := timerKey id
  { registry := w.registry.insert key (.function callback)
    state := { w.state with timers := w.state.timers.insert id ⟨key, owner⟩ }
    timerIdCounter := id + 1
    actions := w.actions ++ [action id]
    given := w.given ++ [(key, callback)] }

/-- `api.timer` -/
def timer (w : World Fn Ref) (owner : Str) (ms : Nat) (callback : Fn) : World Fn Ref :=
  w.startTimer owner callback (fun id => .startTimer id ms)

/-- `api.timeout` -/
def timeout (w : World Fn Ref) (owner : Str) (ms : Nat) (callback : Fn) : World Fn Ref :=
  w.startTimer owner callback (fun id => .startTimeout id ms)

/-- `api.cancel_timer`: the callback stays where it is. -/
def cancelTimer (w : World Fn Ref) (id : Nat) : World Fn Ref :=
  { w with actions := w.actions ++ [.cancelTimer id] }

/-- Remove the handlers that satisfy `gone`, then their callbacks. -/
def dropHandlers (w : World Fn Ref) (gone : LuaHandler → Bool) : World Fn Ref :=
  { w with state := { w.state with
      handlers := w.state.handlers.filter (fun h => !gone h) } }.unset
    ((w.state.handlers.filter gone).map LuaHandler.registryKey)

def dropCommands (w : World Fn Ref) (name : Str) : World Fn Ref :=
  { w with state := { w.state with
      commands := w.state.commands.retain
        (fun _ (cmd : LuaCommand) => decide (cmd.scriptName ≠ name)) } }.unset
    ((w.state.commands.values.filter (fun (cmd : LuaCommand) => decide (cmd.scriptName = name))).map
      LuaCommand.registryKey)

def dropTimers (w : World Fn Ref) (name : Str) : World Fn Ref :=
  { w with state := { w.state with
      timers := w.state.timers.retain
        (fun _ (t : LuaTimer) => decide (t.scriptName ≠ name)) } }.unset
    ((w.state.timers.values.filter (fun (t : LuaTimer) => decide (t.scriptName = name))).map
      LuaTimer.registryKey)

/-- Run what a Lua function does. -/
def exec : Prog Fn σ → World Fn Ref → Reply Fn × σ × World Fn Ref
  | .done reply mem, w => (reply, mem, w)
  | .on owner eventName callback priority next, w =>
    exec (next w.state.nextId) (w.on owner eventName callback priority)
  | .once owner eventName callback priority next, w =>
    exec (next w.state.nextId) (w.once owner eventName callback priority)
  | .off id next, w => exec next (w.off id)
  | .command owner name handler description usage next, w =>
    exec next (w.command owner name handler description usage)
  | .removeCommand name next, w => exec next (w.removeCommand name)
  | .timer owner ms callback next, w =>
    exec (next w.timerIdCounter) (w.timer owner ms callback)
  | .timeout owner ms callback next, w =>
    exec (next w.timerIdCounter) (w.timeout owner ms callback)
  | .cancelTimer id next, w => exec next (w.cancelTimer id)

end World

/-! ### The engine -/

/-- A call of the engine into the machine, with what it is made for. -/
inductive Call
  | chunk (path : Str)
  | setup (name : Str)
  | cleanup (name : Str)
  | handler (h : LuaHandler)
  | command (name : Str) (c : LuaCommand)
  | timer (id : Nat) (t : LuaTimer)
  deriving DecidableEq

/-- `LuaEngine`; `calls` are the calls it has made, which no function of the source reads. -/
structure LuaEngine (Fn Ref σ : Type) where
  scripts : Dict Str LoadedScript
  world : World Fn Ref
  mem : σ
  calls : List (Call × Reply Fn)

namespace LuaEngine

def new (mem : σ) : LuaEngine Fn Ref σ := ⟨.empty, ⟨.new, .empty, 1, [], []⟩, mem, []⟩

/-- Run a program on behalf of `c`. -/
def run (e : LuaEngine Fn Ref σ) (c : Call) (p : Prog Fn σ) : Reply Fn × LuaEngine Fn Ref σ :=
  let r := World.exec p e.world
  (r.1, { e with mem := r.2.1, world := r.2.2, calls := e.calls ++ [(c, r.1)] })

variable (vm : Vm Fn Ref σ)

/-- The loop of `emit`: a once-handler counts as fired before its function is looked up. -/
def emitLoop (table : Ref) : List LuaHandler → LuaEngine Fn Ref σ →
    EventResult × List Nat × LuaEngine Fn Ref σ
  | [], e => (.proceed, [], e)
  | h :: hs, e =>
    let fired := if h.once then [h.id] else []
    match e.world.function? h.registryKey with
    | none =>
      let r := emitLoop table hs e
      (r.1, fired ++ r.2.1, r.2.2)
    | some f =>
      match e.run (.handler h) (vm.call f (.event table) e.mem) with
      | (.boolean true, e') => (.suppress, fired, e')
      | (_, e') =>
        let r := emitLoop table hs e'
        (r.1, fired ++ r.2.1, r.2.2)

def snapshot (e : LuaEngine Fn Ref σ) (event : Event) : List LuaHandler :=
  e.world.state.handlers.filter (fun h => decide (h.eventName = event.name))

def emit (e : LuaEngine Fn Ref σ) (event : Event) : EventResult × LuaEngine Fn Ref σ :=
  if e.snapshot event = [] then (.proceed, e)
  else match vm.newTable (eventToTable event) e.mem with
    | none => (.proceed, e)
    | some (table, mem) =>
      match emitLoop vm table (e.snapshot event) { e with mem := mem } with
      | (result, onceIds, e') =>
        if onceIds = [] then (result, e')
        else (result, { e' with
          world := e'.world.dropHandlers (fun h => decide (h.id ∈ onceIds)) })

/-- `read_meta` -/
def readMeta (env : Ref) (path : Str) (mem : σ) : Except Str ScriptMeta :=
  match vm.getTable env (str "meta") mem with
  | none => .error (str "script missing `meta` table")
  | some t =>
    match vm.getString t (str "name") mem with
    | none => .error (str "meta.name is required")
    | some name =>
      .ok ⟨name, vm.getString t (str "version") mem, vm.getString t (str "description") mem, path⟩

/-- The end of `load_script`, once `setup` has returned. -/
def store (e : LuaEngine Fn Ref σ) (info : ScriptMeta) (env : Ref) (cleanup : Reply Fn) :
    LuaEngine Fn Ref σ :=
  let key : Option Str := match cleanup with
    | .function _ => some (cleanupKey info.name)
    | _ => none
  let registry := match cleanup with
    | .function f => e.world.registry.insert (cleanupKey info.name) (.function f)
    | _ => e.world.registry
  { e with
    world := { e.world with registry := registry.insert (envKey info.name) (.table env) }
    scripts := e.scripts.insert info.name ⟨info, key, envKey info.name⟩ }

/-- What a script that has been run says it is called, unless a script of that name is loaded. -/
def identify (e : LuaEngine Fn Ref σ) (env : Ref) (path : Str) : Except Str ScriptMeta :=
  match readMeta vm env path e.mem with
  | .error text => .error text
  | .ok info =>
    if (e.scripts.lookup info.name).isSome then
      .error (str "script '" ++ info.name ++ str "' is already loaded")
    else .ok info

/-- `load_script` of a file that has been read, up to the call of `setup`. -/
def prepare (e : LuaEngine Fn Ref σ) (path source : Str) :
    Except Str (Ref × ScriptMeta) × LuaEngine Fn Ref σ :=
  match vm.createScriptEnv e.mem with
  | .error text => (.error (str "failed to create script env: " ++ text), e)
  | .ok (env, mem) =>
    match { e with mem := mem }.run (.chunk path) (vm.exec path source env mem) with
    | (.error text, e') => (.error (str "Lua error in " ++ path ++ str ": " ++ text), e')
    | (_, e') => ((e'.identify vm env path).map (fun info => (env, info)), e')

/-- `load_script`, from the call of `setup` on. -/
def setUp (e : LuaEngine Fn Ref σ) (env : Ref) (info : ScriptMeta) :
    Except Str ScriptMeta × LuaEngine Fn Ref σ :=
  match vm.getFunction env (str "setup") e.mem with
  | none => (.error (str "script missing `setup` function"), e)
  | some f =>
    match e.run (.setup info.name) (vm.call f (.api info.name) e.mem) with
    | (.error text, e') => (.error (str "setup() failed: " ++ text), e')
    | (cleanup, e') => (.ok info, e'.store info env cleanup)

/-- `load_script` -/
def loadScript (e : LuaEngine Fn Ref σ) (path source : Str) :
    Except Str ScriptMeta × LuaEngine Fn Ref σ :=
  match e.prepare vm path source with
  | (.error text, e') => (.error text, e')
  | (.ok (env, info), e') => e'.setUp vm env info

/-- `unload_script`, up to the removal of what the script has registered. -/
def cleanUp (e : LuaEngine Fn Ref σ) (name : Str) (script : LoadedScript) : LuaEngine Fn Ref σ :=
  let e' := match script.cleanupKey with
    | none => e
    | some key =>
      let e' := match e.world.function? key with
        | some f => (e.run (.cleanup name) (vm.call f .none e.mem)).2
        | none => e
      { e' with world := e'.world.unset [key] }
  { e' with world := e'.world.unset [script.envKey] }

def unloadScript (e : LuaEngine Fn Ref σ) (name : Str) : Except Str Unit × LuaEngine Fn Ref σ :=
  match e.scripts.lookup name with
  | none => (.error (str "script '" ++ name ++ str "' is not loaded"), e)
  | some script =>
    let e' := { e with scripts := e.scripts.erase name }.cleanUp vm name script
    (.ok (), { e' with
      world := ((e'.world.dropHandlers (fun h => decide (h.scriptName = name))).dropCommands
        name).dropTimers name })

def handleCommand (e : LuaEngine Fn Ref σ) (name : Str) (args : List Str)
    (connectionId : Option Str) : Option EventResult × LuaEngine Fn Ref σ :=
  match e.world.state.commands.lookup name with
  | none => (none, e)
  | some c =>
    match e.world.function? c.registryKey with
    | none => (none, e)
    | some f =>
      match e.run (.command name c) (vm.call f (.command args connectionId) e.mem) with
      | (.boolean true, e') => (some .suppress, e')
      | (_, e') => (some .proceed, e')

def fireTimer (e : LuaEngine Fn Ref σ) (timerId : Nat) : LuaEngine Fn Ref σ :=
  match e.world.state.timers.lookup timerId with
  | none => e
  | some t =>
    match e.world.function? t.registryKey with
    | none => e
    | some f => (e.run (.timer timerId t) (vm.call f .none e.mem)).2

end LuaEngine

/-- What the application asks of the engine. -/
inductive Input
  | load (path source : Str)
  | unload (name : Str)
  | emit (event : Event)
  | command (name : Str) (args : List Str) (connectionId : Option Str)
  | fireTimer (id : Nat)

def step (vm : Vm Fn Ref σ) (e : LuaEngine Fn Ref σ) : Input → LuaEngine Fn Ref σ
  | .load path source => (e.loadScript vm path source).2
  | .unload name => (e.unloadScript vm name).2
  | .emit event => (e.emit vm event).2
  | .command name args connectionId => (e.handleCommand vm name args connectionId).2
  | .fireTimer id => e.fireTimer vm id

end Repartee.Scripting
