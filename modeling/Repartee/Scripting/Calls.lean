import Repartee.Scripting.Dispatch

/-!
# What one input of the engine calls

Every call of the engine into the machine is due: it is for something that was registered, or for
a script that is loaded or unloaded.

## Main definitions

- `LuaEngine.WellFormed`: the invariant of the engine
- `Due`: the calls that an input may make

## Main results

- `wf_step`: the engine keeps the invariant
- `registry_is_exact`: in every run, the registry has the callbacks of what is registered
- `step_calls`: every call is due
- `event_is_dispatched`: every event of every run is dispatched
- `fires_once`: in every run, a once-handler is called at most once
-/

set_option autoImplicit false

namespace Repartee.Scripting

variable {Fn Ref σ : Type}

namespace World

theorem wf_unset {w : World Fn Ref} (hw : w.WellFormed) {keys : List Str}
    (hkeys : ∀ k ∈ keys, keyKind k = some 'l' ∨ keyKind k = some 'n') :
    (w.unset keys).WellFormed := by
  refine hw.congr rfl rfl (fun k hl hn => ?_)
  rw [function?_unset, if_neg]
  exact fun hk => (hkeys k hk).elim hl hn

theorem wf_insert {w : World Fn Ref} (hw : w.WellFormed) {key : Str}
    (hkey : keyKind key = some 'l' ∨ keyKind key = some 'n') (v : RegistryValue Fn Ref) :
    ({ w with registry := w.registry.insert key v } : World Fn Ref).WellFormed := by
  refine hw.congr rfl rfl (fun k hl hn => ?_)
  rw [function?_insert, if_neg]
  rintro rfl
  exact hkey.elim hl hn

end World

namespace LuaEngine

/-- The invariant of the engine: its world is well-formed, and what a script has in the registry
besides its callbacks is filed under its own name. -/
structure WellFormed (e : LuaEngine Fn Ref σ) : Prop where
  world : e.world.WellFormed
  envKey : ∀ name s, e.scripts.lookup name = some s → s.envKey = envKey name
  cleanupKey : ∀ name s key, e.scripts.lookup name = some s → s.cleanupKey = some key →
    key = cleanupKey name

theorem wf_new (mem : σ) : (new mem : LuaEngine Fn Ref σ).WellFormed where
  world := {
    ranked := .nil
    nodup := .nil
    handler := fun h hh => absurd hh List.not_mem_nil
    command := fun name c hc => by cases hc
    ownKey := fun n n' c c' hc => by cases hc
    timer := fun id t ht => by cases ht
    handlerIff := fun id => by
      refine iff_of_false Bool.false_ne_true ?_
      rintro ⟨h, hh, -⟩
      cases hh
    commandFiled := fun name c hc => by cases hc
    timerIff := fun id => Iff.rfl }
  envKey := fun name s hs => by cases hs
  cleanupKey := fun name s key hs => by cases hs

variable (vm : Vm Fn Ref σ)

/-! ### What the parts of an input do -/

theorem identify_ok {e : LuaEngine Fn Ref σ} {env : Ref} {path : Str} {info : ScriptMeta}
    (h : e.identify vm env path = .ok info) :
    readMeta vm env path e.mem = .ok info ∧ e.scripts.lookup info.name = none := by
  rw [identify] at h
  cases hmeta : readMeta vm env path e.mem with
  | error text =>
    rw [hmeta] at h
    cases h
  | ok info' =>
    rw [hmeta] at h
    dsimp only at h
    split at h
    · cases h
    · rename_i hnew
      cases h
      exact ⟨rfl, by simpa using hnew⟩

theorem prepare_cases (e : LuaEngine Fn Ref σ) (path source : Str) :
    (∃ text, e.prepare vm path source = (.error text, e)) ∨
    ∃ env mem, vm.createScriptEnv e.mem = .ok (env, mem) ∧
      (e.prepare vm path source).2 =
        ({ e with mem := mem }.run (.chunk path) (vm.exec path source env mem)).2 ∧
      ∀ env' info, (e.prepare vm path source).1 = .ok (env', info) →
        readMeta vm env' path (e.prepare vm path source).2.mem = .ok info ∧
        (e.prepare vm path source).2.scripts.lookup info.name = none := by
  rw [prepare]
  cases henv : vm.createScriptEnv e.mem with
  | error text => exact .inl ⟨_, rfl⟩
  | ok p =>
    obtain ⟨env, mem⟩ := p
    right
    refine ⟨env, mem, rfl, ?_⟩
    dsimp only
    generalize { e with mem := mem }.run (.chunk path) (vm.exec path source env mem) = r
    obtain ⟨reply, e'⟩ := r
    have hok : ∀ env' info, (e'.identify vm env path).map (fun info => (env, info)) =
        .ok (env', info) → readMeta vm env' path e'.mem = .ok info ∧
          e'.scripts.lookup info.name = none := by
      intro env' info h
      cases hid : e'.identify vm env path with
      | error text =>
        rw [hid] at h
        cases h
      | ok info' =>
        rw [hid] at h
        cases h
        exact identify_ok vm hid
    cases reply with
    | error text => exact ⟨rfl, fun env' info h => by cases h⟩
    | boolean b => exact ⟨rfl, hok⟩
    | function f => exact ⟨rfl, hok⟩
    | other => exact ⟨rfl, hok⟩

theorem setUp_cases (e : LuaEngine Fn Ref σ) (env : Ref) (info : ScriptMeta) :
    (∃ text, e.setUp vm env info = (.error text, e)) ∨
    ∃ f reply e', vm.getFunction env (str "setup") e.mem = some f ∧
      e.run (.setup info.name) (vm.call f (.api info.name) e.mem) = (reply, e') ∧
      ((∃ text, e.setUp vm env info = (.error (str "setup() failed: " ++ text), e')) ∨
        e.setUp vm env info = (.ok info, e'.store info env reply)) := by
  rw [setUp]
  cases hf : vm.getFunction env (str "setup") e.mem with
  | none => exact .inl ⟨_, rfl⟩
  | some f =>
    right
    dsimp only
    cases hrun : e.run (.setup info.name) (vm.call f (.api info.name) e.mem) with
    | mk reply e' =>
    refine ⟨f, reply, e', rfl, hrun, ?_⟩
    cases reply with
    | error text => exact .inl ⟨_, rfl⟩
    | boolean b => exact .inr rfl
    | function f => exact .inr rfl
    | other => exact .inr rfl

theorem loadScript_cases (e : LuaEngine Fn Ref σ) (path source : Str) :
    (∃ text, (e.prepare vm path source).1 = .error text ∧
      e.loadScript vm path source = (.error text, (e.prepare vm path source).2)) ∨
    ∃ env info, (e.prepare vm path source).1 = .ok (env, info) ∧
      e.loadScript vm path source = (e.prepare vm path source).2.setUp vm env info := by
  rw [loadScript]
  generalize e.prepare vm path source = r
  obtain ⟨result, e'⟩ := r
  cases result with
  | error text => exact .inl ⟨text, rfl, rfl⟩
  | ok p => exact .inr ⟨p.1, p.2, rfl, rfl⟩

theorem handleCommand_cases (e : LuaEngine Fn Ref σ) (name : Str) (args : List Str)
    (connectionId : Option Str) : (e.handleCommand vm name args connectionId).2 = e ∨
    ∃ c f, e.world.state.commands.lookup name = some c ∧
      e.world.function? c.registryKey = some f ∧
      (e.handleCommand vm name args connectionId).2 =
        (e.run (.command name c) (vm.call f (.command args connectionId) e.mem)).2 := by
  rw [handleCommand]
  cases hc : e.world.state.commands.lookup name with
  | none => exact .inl rfl
  | some c =>
    dsimp only
    cases hf : e.world.function? c.registryKey with
    | none => exact .inl rfl
    | some f =>
      refine .inr ⟨c, f, rfl, hf, ?_⟩
      dsimp only
      split <;> simp_all

theorem fireTimer_cases (e : LuaEngine Fn Ref σ) (id : Nat) : e.fireTimer vm id = e ∨
    ∃ t f, e.world.state.timers.lookup id = some t ∧ e.world.function? t.registryKey = some f ∧
      e.fireTimer vm id = (e.run (.timer id t) (vm.call f .none e.mem)).2 := by
  rw [fireTimer]
  cases ht : e.world.state.timers.lookup id with
  | none => exact .inl rfl
  | some t =>
    dsimp only
    cases hf : e.world.function? t.registryKey with
    | none => exact .inl rfl
    | some f => exact .inr ⟨t, f, rfl, hf, rfl⟩

theorem cleanUp_cases (e : LuaEngine Fn Ref σ) (name : Str) (script : LoadedScript) : ∃ e',
    (e' = e ∨ ∃ key f, script.cleanupKey = some key ∧ e.world.function? key = some f ∧
      e' = (e.run (.cleanup name) (vm.call f .none e.mem)).2) ∧
    ((script.cleanupKey = none ∧
        e.cleanUp vm name script = { e' with world := e'.world.unset [script.envKey] }) ∨
      ∃ key, script.cleanupKey = some key ∧ e.cleanUp vm name script =
        { e' with world := (e'.world.unset [key]).unset [script.envKey] }) := by
  rw [cleanUp]
  cases hkey : script.cleanupKey with
  | none => exact ⟨e, .inl rfl, .inl ⟨rfl, rfl⟩⟩
  | some key =>
    dsimp only
    cases hf : e.world.function? key with
    | none => exact ⟨e, .inl rfl, .inr ⟨key, rfl, rfl⟩⟩
    | some f => exact ⟨_, .inr ⟨key, f, rfl, hf, rfl⟩, .inr ⟨key, rfl, rfl⟩⟩

theorem calls_prepare (e : LuaEngine Fn Ref σ) (path source : Str) :
    ∃ l, (e.prepare vm path source).2.calls = e.calls ++ l ∧
      ∀ c ∈ l, ∃ path', c.1 = .chunk path' := by
  rcases e.prepare_cases vm path source with ⟨text, h⟩ | ⟨env, mem, -, h, -⟩
  · rw [h]
    exact ⟨[], (List.append_nil _).symm, fun c hc => absurd hc List.not_mem_nil⟩
  · rw [h]
    refine ⟨_, rfl, fun c hc => ⟨path, ?_⟩⟩
    rw [List.mem_singleton.mp hc]

theorem calls_setUp (e : LuaEngine Fn Ref σ) (env : Ref) (info : ScriptMeta) :
    ∃ l, (e.setUp vm env info).2.calls = e.calls ++ l ∧ ∀ c ∈ l, c.1 = .setup info.name := by
  rcases e.setUp_cases vm env info with ⟨text, h⟩ | ⟨f, reply, e', -, hrun, h⟩
  · rw [h]
    exact ⟨[], (List.append_nil _).symm, fun c hc => absurd hc List.not_mem_nil⟩
  · have hcalls : e'.calls = e.calls ++ [(.setup info.name, reply)] := by
      have hlog : (e.run (.setup info.name) (vm.call f (.api info.name) e.mem)).2.calls =
          e.calls ++ [(.setup info.name,
            (e.run (.setup info.name) (vm.call f (.api info.name) e.mem)).1)] := rfl
      rw [hrun] at hlog
      exact hlog
    refine ⟨[(.setup info.name, reply)], ?_, fun c hc => by rw [List.mem_singleton.mp hc]⟩
    rcases h with ⟨text, h⟩ | h
    · rw [h]
      exact hcalls
    · rw [h]
      exact hcalls

/-! ### The invariant -/

theorem wf_world_run {e : LuaEngine Fn Ref σ} (hw : e.WellFormed) (c : Call) (p : Prog Fn σ) :
    (e.run c p).2.WellFormed ∧ e.world.Later (e.run c p).2.world :=
  ⟨⟨(e.wf_run hw.world c p).1, hw.envKey, hw.cleanupKey⟩, (e.wf_run hw.world c p).2⟩

theorem scripts_store (e : LuaEngine Fn Ref σ) (info : ScriptMeta) (env : Ref) (reply : Reply Fn) :
    ∃ key, (∀ k, key = some k → k = cleanupKey info.name) ∧ (e.store info env reply).scripts =
      e.scripts.insert info.name ⟨info, key, envKey info.name⟩ := by
  cases reply with
  | function f => exact ⟨_, fun k hk => (Option.some.inj hk).symm, rfl⟩
  | boolean b => exact ⟨none, fun k hk => absurd hk.symm (Option.some_ne_none k), rfl⟩
  | other => exact ⟨none, fun k hk => absurd hk.symm (Option.some_ne_none k), rfl⟩
  | error text => exact ⟨none, fun k hk => absurd hk.symm (Option.some_ne_none k), rfl⟩

theorem wf_store {e : LuaEngine Fn Ref σ} (hw : e.WellFormed) (info : ScriptMeta) (env : Ref)
    (reply : Reply Fn) :
    (e.store info env reply).WellFormed ∧ e.world.Later (e.store info env reply).world := by
  have hlookup : ∀ name s, (e.store info env reply).scripts.lookup name = some s →
      (s.envKey = envKey name ∧ ∀ key, s.cleanupKey = some key → key = cleanupKey name) := by
    intro name s hs
    obtain ⟨key, hkey, hscripts⟩ := e.scripts_store info env reply
    rw [hscripts, Dict.lookup_insert] at hs
    split at hs
    · rename_i hname
      subst hname
      obtain rfl := Option.some.inj hs
      exact ⟨rfl, hkey⟩
    · exact ⟨hw.envKey name s hs, fun key => hw.cleanupKey name s key hs⟩
  refine ⟨⟨?_, fun name s hs => (hlookup name s hs).1,
    fun name s key hs => (hlookup name s hs).2 key⟩, ?_⟩
  · have henv : keyKind (envKey info.name) = some 'l' ∨ keyKind (envKey info.name) = some 'n' :=
      .inr (keyKind_envKey info.name)
    cases reply with
    | function f =>
      exact World.wf_insert (World.wf_insert hw.world (.inl (keyKind_cleanupKey info.name))
        (.function f)) henv (.table env)
    | boolean b => exact World.wf_insert hw.world henv (.table env)
    | other => exact World.wf_insert hw.world henv (.table env)
    | error text => exact World.wf_insert hw.world henv (.table env)
  · have henv (w : World Fn Ref) := w.later_insert (.inr (keyKind_envKey info.name)) (.table env)
    cases reply with
    | function f =>
      exact (e.world.later_insert (.inl (keyKind_cleanupKey info.name)) (.function f)).trans (henv _)
    | boolean b => exact henv _
    | other => exact henv _
    | error text => exact henv _

theorem wf_loadScript {e : LuaEngine Fn Ref σ} (hw : e.WellFormed) (path source : Str) :
    (e.loadScript vm path source).2.WellFormed ∧
      e.world.Later (e.loadScript vm path source).2.world := by
  have hprepare : (e.prepare vm path source).2.WellFormed ∧
      e.world.Later (e.prepare vm path source).2.world := by
    rcases e.prepare_cases vm path source with ⟨text, h⟩ | ⟨env, mem, -, h, -⟩
    · rw [h]
      exact ⟨hw, .refl _⟩
    · rw [h]
      exact wf_world_run (e := { e with mem := mem }) ⟨hw.world, hw.envKey, hw.cleanupKey⟩ _ _
  rcases e.loadScript_cases vm path source with ⟨text, -, h⟩ | ⟨env, info, -, h⟩
  · rw [h]
    exact hprepare
  · rw [h]
    obtain ⟨hw', hlater⟩ := hprepare
    generalize (e.prepare vm path source).2 = e₁ at hw' hlater ⊢
    rcases e₁.setUp_cases vm env info with ⟨text, h⟩ | ⟨f, reply, e₂, -, hrun, h⟩
    · rw [h]
      exact ⟨hw', hlater⟩
    · have hset := wf_world_run hw' (.setup info.name) (vm.call f (.api info.name) e₁.mem)
      rw [hrun] at hset
      rcases h with ⟨text, h⟩ | h
      · rw [h]
        exact ⟨hset.1, hlater.trans hset.2⟩
      · rw [h]
        have hstore := wf_store hset.1 info env reply
        exact ⟨hstore.1, hlater.trans (hset.2.trans hstore.2)⟩

theorem wf_cleanUp {e : LuaEngine Fn Ref σ} (hw : e.WellFormed) {name : Str}
    {script : LoadedScript} (henv : script.envKey = envKey name)
    (hclean : ∀ key, script.cleanupKey = some key → key = cleanupKey name) :
    (e.cleanUp vm name script).WellFormed ∧ e.world.Later (e.cleanUp vm name script).world := by
  obtain ⟨e', he', h⟩ := e.cleanUp_cases vm name script
  have hrun : e'.WellFormed ∧ e.world.Later e'.world := by
    rcases he' with rfl | ⟨key, f, -, -, rfl⟩
    · exact ⟨hw, .refl _⟩
    · exact wf_world_run hw _ _
  have henv' : ∀ k ∈ [script.envKey], keyKind k = some 'l' ∨ keyKind k = some 'n' := by
    intro k hk
    rw [List.mem_singleton.mp hk, henv]
    exact .inr (keyKind_envKey name)
  rcases h with ⟨-, h⟩ | ⟨key, hkey, h⟩
  · rw [h]
    exact ⟨⟨World.wf_unset hrun.1.world henv', hrun.1.envKey, hrun.1.cleanupKey⟩,
      hrun.2.trans (World.later_unset _ _)⟩
  · rw [h]
    refine ⟨⟨World.wf_unset (World.wf_unset hrun.1.world ?_) henv', hrun.1.envKey,
      hrun.1.cleanupKey⟩, hrun.2.trans ((World.later_unset _ _).trans (World.later_unset _ _))⟩
    intro k hk
    rw [List.mem_singleton.mp hk, hclean key hkey]
    exact .inl (keyKind_cleanupKey name)

theorem wf_unloadScript {e : LuaEngine Fn Ref σ} (hw : e.WellFormed) (name : Str) :
    (e.unloadScript vm name).2.WellFormed ∧ e.world.Later (e.unloadScript vm name).2.world := by
  rw [unloadScript]
  cases hs : e.scripts.lookup name with
  | none => exact ⟨hw, .refl _⟩
  | some script =>
    have hold : ∀ n s, (e.scripts.erase name).lookup n = some s → e.scripts.lookup n = some s :=
      fun n s h => (Dict.lookup_of_erase h).1
    have herased : ({ e with scripts := e.scripts.erase name } : LuaEngine Fn Ref σ).WellFormed :=
      ⟨hw.world, fun n s h => hw.envKey n s (hold n s h),
        fun n s key h => hw.cleanupKey n s key (hold n s h)⟩
    obtain ⟨hw', hlater⟩ := wf_cleanUp vm herased (hw.envKey name script hs)
      (fun key => hw.cleanupKey name script key hs)
    refine ⟨⟨?_, hw'.envKey, hw'.cleanupKey⟩, hlater.trans ((World.later_dropHandlers _ _).trans
      ((World.later_dropCommands _ _).trans (World.later_dropTimers _ _)))⟩
    exact World.wf_dropTimers (World.wf_dropCommands (World.wf_dropHandlers hw'.world _) name) name

theorem wf_emit {e : LuaEngine Fn Ref σ} (hw : e.WellFormed) (event : Event) :
    (e.emit vm event).2.WellFormed ∧ e.world.Later (e.emit vm event).2.world := by
  cases htable : vm.newTable (eventToTable event) e.mem with
  | none =>
    rw [emit_of_no_table vm htable]
    exact ⟨hw, .refl _⟩
  | some p =>
    obtain ⟨processed, log, hd, -, hw', hlater, -⟩ :=
      emit_dispatches vm hw.world event (by rw [htable]; rfl)
    refine ⟨⟨hw', ?_, ?_⟩, hlater⟩
    · rw [hd.scripts]
      exact hw.envKey
    · rw [hd.scripts]
      exact hw.cleanupKey

end LuaEngine

section Step

variable (vm : Vm Fn Ref σ)

/-- **The engine keeps its invariant**, whatever the scripts do. -/
theorem wf_step {e : LuaEngine Fn Ref σ} (hw : e.WellFormed) (i : Input) :
    (step vm e i).WellFormed ∧ e.world.Later (step vm e i).world := by
  cases i with
  | load path source => exact LuaEngine.wf_loadScript vm hw path source
  | unload name => exact LuaEngine.wf_unloadScript vm hw name
  | emit event => exact LuaEngine.wf_emit vm hw event
  | command name args connectionId =>
    rcases e.handleCommand_cases vm name args connectionId with h | ⟨c, f, -, -, h⟩
    · rw [step, h]
      exact ⟨hw, .refl _⟩
    · rw [step, h]
      exact LuaEngine.wf_world_run hw _ _
  | fireTimer id =>
    rcases e.fireTimer_cases vm id with h | ⟨t, f, -, -, h⟩
    · rw [step, h]
      exact ⟨hw, .refl _⟩
    · rw [step, h]
      exact LuaEngine.wf_world_run hw _ _

theorem wf_reached (mem : σ) (is : List Input) :
    (Run.run (step vm) (LuaEngine.new mem) is).WellFormed :=
  Run.invariant (P := LuaEngine.WellFormed) (fun _ i hw => (wf_step vm hw i).1)
    (LuaEngine.wf_new mem) is

theorem later_run {e : LuaEngine Fn Ref σ} (hw : e.WellFormed) (is : List Input) :
    e.world.Later (Run.run (step vm) e is).world :=
  (Run.invariant (P := fun e' : LuaEngine Fn Ref σ => e'.WellFormed ∧ e.world.Later e'.world)
    (fun _ i h => ⟨(wf_step vm h.1 i).1, h.2.trans (wf_step vm h.1 i).2⟩) ⟨hw, .refl _⟩ is).2

/-- **The registry is exact**: in every run, a callback of a handler or a timer is in the registry
just as long as the handler or the timer is registered, and every command has its callback. What is
filed under a number is the callback that was registered under it, and no number is used twice. -/
theorem registry_is_exact (mem : σ) (is : List Input) :
    let w := (Run.run (step vm) (LuaEngine.new mem) is).world
    (w.state.handlers.map LuaHandler.id).Nodup ∧
      (∀ id, (w.function? (handlerKey id)).isSome ↔ ∃ h ∈ w.state.handlers, h.id = id) ∧
      (∀ id, (w.function? (timerKey id)).isSome ↔ (w.state.timers.lookup id).isSome) ∧
      (∀ name c, w.state.commands.lookup name = some c → (w.function? c.registryKey).isSome) ∧
      (w.given.map Prod.fst).Nodup ∧
      ∀ key f, World.Numbered key → w.function? key = some f → (key, f) ∈ w.given := by
  have hw := (wf_reached vm mem is).world
  have hlater := later_run vm (LuaEngine.wf_new mem) is
  obtain ⟨more, heq, hnodup, -⟩ := hlater.given
  refine ⟨hw.nodup, hw.handlerIff, hw.timerIff, hw.commandFiled, heq ▸ hnodup, ?_⟩
  intro key f hkey hf
  rcases hlater.filed key f hkey hf with hnew | hgiven
  · cases hnew
  · exact hgiven

/-! ### Calls -/

/-- The load reaches the `setup` of a script of this name. -/
def LuaEngine.SetsUp (e : LuaEngine Fn Ref σ) (i : Input) (name : Str) : Prop :=
  ∃ path source env info, i = .load path source ∧
    (e.prepare vm path source).1 = .ok (env, info) ∧ info.name = name

/-- The calls that an input may make. -/
def Due (e : LuaEngine Fn Ref σ) (i : Input) : Call → Prop
  | .chunk _ => True
  | .setup name => e.SetsUp vm i name
  | .cleanup name => (e.scripts.lookup name).isSome
  | .handler h => h ∈ e.world.state.handlers ∧ ∃ event, i = .emit event
  | .command name c => e.world.state.commands.lookup name = some c
  | .timer id t => e.world.state.timers.lookup id = some t

/-- **Every call is due.** -/
theorem step_calls {e : LuaEngine Fn Ref σ} (hw : e.WellFormed) (i : Input) :
    ∃ l, (step vm e i).calls = e.calls ++ l ∧ ∀ c ∈ l, Due vm e i c.1 := by
  have hnone : ∃ l, e.calls = e.calls ++ l ∧ ∀ c ∈ l, Due vm e i c.1 :=
    ⟨[], (List.append_nil _).symm, fun c hc => absurd hc List.not_mem_nil⟩
  cases i with
  | load path source =>
    obtain ⟨l, hl, hchunk⟩ := e.calls_prepare vm path source
    have hdue : ∀ c ∈ l, Due vm e (.load path source) c.1 := by
      intro c hc
      obtain ⟨path', hpath⟩ := hchunk c hc
      rw [hpath]
      trivial
    rw [step]
    rcases e.loadScript_cases vm path source with ⟨text, -, h⟩ | ⟨env, info, hok, h⟩
    · rw [h]
      exact ⟨l, hl, hdue⟩
    · rw [h]
      obtain ⟨l', hl', hsetup⟩ := (e.prepare vm path source).2.calls_setUp vm env info
      refine ⟨l ++ l', by rw [hl', hl, List.append_assoc], fun c hc => ?_⟩
      rcases List.mem_append.mp hc with hc | hc
      · exact hdue c hc
      · rw [hsetup c hc]
        exact ⟨path, source, env, info, rfl, hok, rfl⟩
  | unload name =>
    rw [step, LuaEngine.unloadScript]
    cases hs : e.scripts.lookup name with
    | none => exact hnone
    | some script =>
      obtain ⟨e', he', h⟩ := LuaEngine.cleanUp_cases vm { e with scripts := e.scripts.erase name }
        name script
      have hcalls : e'.calls = (LuaEngine.cleanUp vm { e with scripts := e.scripts.erase name }
          name script).calls := by
        rcases h with ⟨-, h⟩ | ⟨key, -, h⟩ <;> rw [h]
      dsimp only
      rw [← hcalls]
      rcases he' with rfl | ⟨key, f, -, -, rfl⟩
      · exact hnone
      · refine ⟨_, rfl, fun c hc => ?_⟩
        rw [List.mem_singleton.mp hc]
        exact Option.isSome_iff_exists.mpr ⟨script, hs⟩
  | emit event =>
    rw [step]
    cases htable : vm.newTable (eventToTable event) e.mem with
    | none =>
      rw [LuaEngine.emit_of_no_table vm htable]
      exact hnone
    | some p =>
      obtain ⟨processed, log, hd, -⟩ :=
        LuaEngine.emit_dispatches vm hw.world event (by rw [htable]; rfl)
      refine ⟨_, hd.calls, fun c hc => ?_⟩
      obtain ⟨d, hd', rfl⟩ := List.mem_map.mp hc
      have hmem := hd.front.subset (hd.order.subset (List.mem_map_of_mem hd'))
      exact ⟨(List.mem_filter.mp hmem).1, event, rfl⟩
  | command name args connectionId =>
    rcases e.handleCommand_cases vm name args connectionId with h | ⟨c, f, hc, -, h⟩
    · rw [step, h]
      exact hnone
    · rw [step, h]
      refine ⟨_, rfl, fun c' hc' => ?_⟩
      rw [List.mem_singleton.mp hc']
      exact hc
  | fireTimer id =>
    rcases e.fireTimer_cases vm id with h | ⟨t, f, ht, -, h⟩
    · rw [step, h]
      exact hnone
    · rw [step, h]
      refine ⟨_, rfl, fun c hc => ?_⟩
      rw [List.mem_singleton.mp hc]
      exact ht

/-! ### Events -/

/-- **Every event of every run is dispatched.** The handlers of the event, in the order of their
priority and then of their age, are gone through until one of them stops it. Each is called if it
is registered when its turn comes, those that were removed before are not, no other handler is,
and a once-handler that had its turn is gone. -/
theorem event_is_dispatched (mem : σ) (is : List Input) (event : Event)
    (htable : (vm.newTable (eventToTable event)
      (Run.run (step vm) (LuaEngine.new mem) is).mem).isSome) :
    let e := Run.run (step vm) (LuaEngine.new mem) is
    Priority.Ranked LuaHandler.priority LuaHandler.id (e.snapshot event) ∧
      ∃ processed log,
        Dispatched (e.snapshot event) e (e.emit vm event).2 (e.emit vm event).1 processed log ∧
        (∀ h ∈ processed, h.once = true → h ∉ (e.emit vm event).2.world.state.handlers) ∧
        ∃ table mem' e', vm.newTable (eventToTable event) e.mem = some (table, mem') ∧
          LuaEngine.Turns vm table processed { e with mem := mem' } e' log := by
  have hw := (wf_reached vm mem is).world
  obtain ⟨processed, log, hd, hfired, -, -, hturns⟩ := LuaEngine.emit_dispatches vm hw event htable
  exact ⟨List.Pairwise.filter _ hw.ranked, processed, log, hd, hfired, hturns⟩

/-- The functions of a script that greets. -/
inductive GreetFn
  | setup | greet | tick | bye
  deriving DecidableEq

/-- A machine on which every file is the script `greet`: it greets whoever joins first, and has a
timer. -/
def greetVm : Vm GreetFn Unit Unit where
  newTable _ _ := some ((), ())
  createScriptEnv _ := .ok ((), ())
  exec _ _ _ _ := .done .other ()
  getTable _ _ _ := some ()
  getString _ key _ := if key = str "name" then some (str "greet") else none
  getFunction _ _ _ := some .setup
  call
    | .setup, .api script, _ =>
      .once script (str "join") .greet none (fun _ =>
        .timer script 1000 .tick (fun _ => .done (.function .bye) ()))
    | .greet, _, _ => .done (.boolean true) ()
    | _, _, _ => .done .other ()

/-- The functions of a script that greets until it is muted; `mute` has the number of the handler
that it removes. -/
inductive MuteFn
  | setup | greet | mute (id : Nat)

/-- A machine on which every file is the script `mute`. -/
def muteVm : Vm MuteFn Unit Unit where
  newTable _ _ := some ((), ())
  createScriptEnv _ := .ok ((), ())
  exec _ _ _ _ := .done .other ()
  getTable _ _ _ := some ()
  getString _ key _ := if key = str "name" then some (str "mute") else none
  getFunction _ _ _ := some .setup
  call
    | .setup, .api script, _ =>
      .on script (str "join") .greet none (fun id =>
        .once script (str "join") (.mute id) (some 100) (fun _ => .done .other ()))
    | .mute id, _, _ => .off id (.done .other ())
    | _, _, _ => .done .other ()

theorem handlers_mute :
    (Run.run (step muteVm) (LuaEngine.new ()) [.load [] []]).world.state.handlers =
      [⟨str "join", handlerKey 1, 100, true, str "mute", 1⟩,
        ⟨str "join", handlerKey 0, 50, false, str "mute", 0⟩] := by
  have hsorted : (Run.run (step muteVm) (LuaEngine.new ()) [.load [] []]).world.state.handlers =
      Priority.sortDesc LuaHandler.priority (Priority.sortDesc LuaHandler.priority
        ([] ++ [⟨str "join", handlerKey 0, 50, false, str "mute", 0⟩]) ++
        [⟨str "join", handlerKey 1, 100, true, str "mute", 1⟩]) := rfl
  rw [hsorted, Priority.sortDesc_concat _ (Priority.falling_sortDesc _ _),
    Priority.sortDesc_concat _ .nil]
  rfl

/-- The second handler is not called. -/
theorem calls_mute :
    ((Run.run (step muteVm) (LuaEngine.new ()) [.load [] []]).emit muteVm
      ⟨str "join", .empty⟩).2.calls.map Prod.fst = [.chunk [], .setup (str "mute"),
        .handler ⟨str "join", handlerKey 1, 100, true, str "mute", 1⟩] := by
  generalize he : Run.run (step muteVm) (LuaEngine.new ()) [.load [] []] = e
  have hhandlers : e.world.state.handlers = _ := he ▸ handlers_mute
  have heta : e = { e with world := { e.world with state := { e.world.state with
      handlers := e.world.state.handlers } } } := rfl
  rw [heta, hhandlers, ← he]
  rfl

/-- Two handlers are listed for the event, the first one removes the second before its turn, and
only the first one is called. -/
theorem mute_is_dispatched :
    let e := Run.run (step muteVm) (LuaEngine.new ()) [.load [] []]
    (e.snapshot ⟨str "join", .empty⟩).map LuaHandler.id = [1, 0] ∧
    (e.emit muteVm ⟨str "join", .empty⟩).2.calls.map Prod.fst = [.chunk [], .setup (str "mute"),
      .handler ⟨str "join", handlerKey 1, 100, true, str "mute", 1⟩] ∧
    Priority.Ranked LuaHandler.priority LuaHandler.id (e.snapshot ⟨str "join", .empty⟩) ∧
      ∃ processed log,
        Dispatched (e.snapshot ⟨str "join", .empty⟩) e (e.emit muteVm ⟨str "join", .empty⟩).2
          (e.emit muteVm ⟨str "join", .empty⟩).1 processed log ∧
        (∀ h ∈ processed, h.once = true →
          h ∉ (e.emit muteVm ⟨str "join", .empty⟩).2.world.state.handlers) ∧
        ∃ table mem e', muteVm.newTable (eventToTable ⟨str "join", .empty⟩) e.mem =
            some (table, mem) ∧
          LuaEngine.Turns muteVm table processed { e with mem := mem } e' log := by
  refine ⟨?_, calls_mute,
    event_is_dispatched muteVm () [.load [] []] ⟨str "join", .empty⟩ rfl⟩
  rw [LuaEngine.snapshot, handlers_mute]
  rfl

/-! ### Once-handlers -/

/-- The number of the once-handler that is called. -/
def Call.firedOnce : Call → Option Nat
  | .handler h => if h.once then some h.id else none
  | _ => none

/-- The numbers of the once-handlers that were called, in order. -/
def LuaEngine.fired (e : LuaEngine Fn Ref σ) : List Nat :=
  e.calls.filterMap (fun c => c.1.firedOnce)

/-- No once-handler was called twice, and those that were called are gone for good. -/
structure FiredOnce (e : LuaEngine Fn Ref σ) : Prop where
  wf : e.WellFormed
  nodup : e.fired.Nodup
  gone : ∀ id ∈ e.fired, id < e.world.state.nextId ∧ ∀ h ∈ e.world.state.handlers, h.id ≠ id

theorem fired_log (log : List (LuaHandler × Reply Fn)) :
    (log.map (fun c => (Call.handler c.1, c.2))).filterMap (fun c => c.1.firedOnce) =
      ((log.map Prod.fst).filter LuaHandler.once).map LuaHandler.id := by
  induction log with
  | nil => rfl
  | cons c log ih =>
    have hfired : (Call.handler c.1).firedOnce = if c.1.once then some c.1.id else none := rfl
    rw [List.map_cons, List.map_cons, List.filterMap_cons, List.filter_cons]
    dsimp only
    rw [hfired, ih]
    cases c.1.once <;> rfl

theorem firedOnce_emit {e : LuaEngine Fn Ref σ} (h : FiredOnce e) (event : Event) :
    FiredOnce (e.emit vm event).2 := by
  cases htable : vm.newTable (eventToTable event) e.mem with
  | none =>
    rw [LuaEngine.emit_of_no_table vm htable]
    exact h
  | some p =>
    obtain ⟨processed, log, hd, honce, hw', hlater, -⟩ :=
      LuaEngine.emit_dispatches vm h.wf.world event (by rw [htable]; rfl)
    have hfired : (e.emit vm event).2.fired =
        e.fired ++ ((log.map Prod.fst).filter LuaHandler.once).map LuaHandler.id := by
      rw [LuaEngine.fired, hd.calls, List.filterMap_append, fired_log]
      rfl
    have hmem : ∀ id ∈ ((log.map Prod.fst).filter LuaHandler.once).map LuaHandler.id,
        ∃ x ∈ processed, x.once = true ∧ x.id = id ∧ x ∈ e.world.state.handlers := by
      intro id hid
      obtain ⟨x, hx, rfl⟩ := List.mem_map.mp hid
      obtain ⟨hx, hxonce⟩ := List.mem_filter.mp hx
      have hxp := hd.order.subset hx
      exact ⟨x, hxp, hxonce, rfl, (List.mem_filter.mp (hd.front.subset hxp)).1⟩
    refine ⟨(LuaEngine.wf_emit vm h.wf event).1, ?_, ?_⟩
    · rw [hfired]
      refine h.nodup.append ?_ ?_
      · refine h.wf.world.nodup.sublist (List.Sublist.map _ ?_)
        exact List.filter_sublist.trans (hd.order.trans (hd.front.sublist.trans
          List.filter_sublist))
      · intro id hid hnew
        obtain ⟨x, -, -, hxid, hx⟩ := hmem id hnew
        exact (h.gone id hid).2 x hx hxid
    · intro id hid
      rw [hfired, List.mem_append] at hid
      rcases hid with hid | hid
      · refine ⟨(h.gone id hid).1.trans_le hlater.nextId, fun x hx hxid => ?_⟩
        have hold := hlater.old x hx (hxid ▸ (h.gone id hid).1)
        exact (h.gone id hid).2 x hold hxid
      · obtain ⟨y, hyp, hyonce, rfl, hy⟩ := hmem id hid
        refine ⟨(h.wf.world.handler y hy).1.trans_le hlater.nextId, fun x hx hxid => ?_⟩
        have hold := hlater.old x hx (hxid ▸ (h.wf.world.handler y hy).1)
        rw [h.wf.world.eq_of_id hold hy hxid] at hx
        exact honce y hyp hyonce hx

theorem firedOnce_step {e : LuaEngine Fn Ref σ} (h : FiredOnce e) (i : Input) :
    FiredOnce (step vm e i) := by
  by_cases hemit : ∃ event, i = .emit event
  · obtain ⟨event, rfl⟩ := hemit
    exact firedOnce_emit vm h event
  · -- nothing but an event calls a handler
    obtain ⟨l, hl, hdue⟩ := step_calls vm h.wf i
    obtain ⟨hw', hlater⟩ := wf_step vm h.wf i
    have hfired : (step vm e i).fired = e.fired := by
      rw [LuaEngine.fired, hl, List.filterMap_append, LuaEngine.fired]
      refine (congrArg _ (List.filterMap_eq_nil_iff.mpr fun c hc => ?_)).trans
        (List.append_nil _)
      obtain ⟨c, reply⟩ := c
      cases c with
      | handler x => exact absurd (hdue _ hc).2 hemit
      | chunk path => rfl
      | setup name => rfl
      | cleanup name => rfl
      | command name c => rfl
      | timer id t => rfl
    refine ⟨hw', hfired ▸ h.nodup, fun id hid => ?_⟩
    rw [hfired] at hid
    refine ⟨(h.gone id hid).1.trans_le hlater.nextId, fun x hx hxid => ?_⟩
    exact (h.gone id hid).2 x (hlater.old x hx (hxid ▸ (h.gone id hid).1)) hxid

/-- **A once-handler is called at most once in a run**, whatever the scripts do. -/
theorem fires_once (mem : σ) (is : List Input) :
    (Run.run (step vm) (LuaEngine.new mem) is).fired.Nodup := by
  have hnew : FiredOnce (LuaEngine.new mem : LuaEngine Fn Ref σ) :=
    ⟨LuaEngine.wf_new mem, .nil, fun id hid => absurd hid List.not_mem_nil⟩
  exact (Run.invariant (P := FiredOnce) (fun _ i h => firedOnce_step vm h i) hnew is).nodup

end Step

end Repartee.Scripting
