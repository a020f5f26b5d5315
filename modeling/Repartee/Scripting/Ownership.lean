import Repartee.Scripting.Calls

/-!
# Whose callbacks are called

The engine files everything under the name of the script whose `api` table is used. If scripts do
not hand their tables on, a script that is unloaded is heard of no more.

## Main definitions

- `Isolated`: every function uses the `api` table of its own script only
- `World.Registered`: something is registered under the name of a script
- `LuaEngine.Owned`: what is filed under the name of a script is a function of the script

## Main results

- `owned_exec`: programs register for their own script only
- `unloaded_is_silent`: no function of a script is called after it is unloaded
- `registered_is_loaded`: unless a `setup` fails, what is registered is of a loaded script
-/

set_option autoImplicit false

namespace Repartee.Scripting

variable {Fn Ref σ : Type} (own : Fn → Str)

/-- The program uses the `api` table of one script only, for functions of the script. -/
def Prog.Within (script : Str) : Prog Fn σ → Prop
  | .done reply _ => ∀ f, reply = .function f → own f = script
  | .on owner _ callback _ next =>
    owner = script ∧ own callback = script ∧ ∀ id, (next id).Within script
  | .once owner _ callback _ next =>
    owner = script ∧ own callback = script ∧ ∀ id, (next id).Within script
  | .off _ next => next.Within script
  | .command owner _ handler _ _ next => owner = script ∧ own handler = script ∧ next.Within script
  | .removeCommand _ next => next.Within script
  | .timer owner _ callback next =>
    owner = script ∧ own callback = script ∧ ∀ id, (next id).Within script
  | .timeout owner _ callback next =>
    owner = script ∧ own callback = script ∧ ∀ id, (next id).Within script
  | .cancelTimer _ next => next.Within script

/-- Scripts do not hand their functions and their `api` tables on. Before its `setup` is called, a
script has no table to use. -/
structure Isolated (vm : Vm Fn Ref σ) : Prop where
  call : ∀ f args mem, (∀ name, args = .api name → name = own f) →
    (vm.call f args mem).Within own (own f)
  exec : ∀ path source env mem, ∃ reply mem', vm.exec path source env mem = .done reply mem'
  setup : ∀ env path mem info f, LuaEngine.readMeta vm env path mem = .ok info →
    vm.getFunction env (str "setup") mem = some f → own f = info.name

namespace World

/-- Something is registered under the name of a script. -/
def Registered (w : World Fn Ref) (script : Str) : Prop :=
  (∃ h ∈ w.state.handlers, h.scriptName = script) ∨
  (∃ name c, w.state.commands.lookup name = some c ∧ c.scriptName = script) ∨
  ∃ id t, w.state.timers.lookup id = some t ∧ t.scriptName = script

/-- What is filed under the name of a script is a function of the script. -/
structure Owned (w : World Fn Ref) : Prop where
  handler : ∀ h ∈ w.state.handlers, ∀ f, w.function? h.registryKey = some f → own f = h.scriptName
  command : ∀ name c, w.state.commands.lookup name = some c →
    ∀ f, w.function? c.registryKey = some f → own f = c.scriptName
  timer : ∀ id t, w.state.timers.lookup id = some t →
    ∀ f, w.function? t.registryKey = some f → own f = t.scriptName

/-- Nothing is registered or filed that was not before. -/
structure Shrinks (w w' : World Fn Ref) : Prop where
  handlers : ∀ h ∈ w'.state.handlers, h ∈ w.state.handlers
  commands : ∀ name c, w'.state.commands.lookup name = some c →
    w.state.commands.lookup name = some c
  timers : ∀ id t, w'.state.timers.lookup id = some t → w.state.timers.lookup id = some t
  function : ∀ k f, w'.function? k = some f → w.function? k = some f

theorem Shrinks.refl (w : World Fn Ref) : Shrinks w w :=
  ⟨fun _ h => h, fun _ _ h => h, fun _ _ h => h, fun _ _ h => h⟩

theorem Shrinks.trans {w w' w'' : World Fn Ref} (h : Shrinks w w') (h' : Shrinks w' w'') :
    Shrinks w w'' :=
  ⟨fun x hx => h.handlers x (h'.handlers x hx),
    fun name c hc => h.commands name c (h'.commands name c hc),
    fun id t ht => h.timers id t (h'.timers id t ht),
    fun k f hf => h.function k f (h'.function k f hf)⟩

theorem Shrinks.owned {own : Fn → Str} {w w' : World Fn Ref} (h : Shrinks w w')
    (ho : w.Owned own) : w'.Owned own :=
  ⟨fun x hx f hf => ho.handler x (h.handlers x hx) f (h.function _ f hf),
    fun name c hc f hf => ho.command name c (h.commands name c hc) f (h.function _ f hf),
    fun id t ht f hf => ho.timer id t (h.timers id t ht) f (h.function _ f hf)⟩

theorem Shrinks.registered {w w' : World Fn Ref} (h : Shrinks w w') {script : Str}
    (hr : w'.Registered script) : w.Registered script := by
  rcases hr with ⟨x, hx, hname⟩ | ⟨name, c, hc, hname⟩ | ⟨id, t, ht, hname⟩
  · exact .inl ⟨x, h.handlers x hx, hname⟩
  · exact .inr (.inl ⟨name, c, h.commands name c hc, hname⟩)
  · exact .inr (.inr ⟨id, t, h.timers id t ht, hname⟩)

theorem function?_of_unset {w : World Fn Ref} {keys : List Str} {k : Str} {f : Fn}
    (h : (w.unset keys).function? k = some f) : w.function? k = some f := by
  rw [function?_unset] at h
  split at h
  · cases h
  · exact h

theorem function?_of_insert_table {w : World Fn Ref} {key k : Str} {t : Ref} {f : Fn}
    (h : ({ w with registry := w.registry.insert key (.table t) } : World Fn Ref).function? k =
      some f) : w.function? k = some f := by
  rw [function?_insert] at h
  split at h
  · cases h
  · exact h

theorem shrinks_unset (w : World Fn Ref) (keys : List Str) : w.Shrinks (w.unset keys) :=
  ⟨fun _ h => h, fun _ _ h => h, fun _ _ h => h, fun _ _ h => function?_of_unset h⟩

theorem shrinks_dropHandlers (w : World Fn Ref) (gone : LuaHandler → Bool) :
    w.Shrinks (w.dropHandlers gone) :=
  ⟨fun _ h => (mem_dropHandlers.mp h).1, fun _ _ h => h, fun _ _ h => h,
    fun _ _ h => function?_of_unset h⟩

theorem shrinks_dropCommands (w : World Fn Ref) (name : Str) :
    w.Shrinks (w.dropCommands name) :=
  ⟨fun _ h => h, fun _ _ h => (Dict.lookup_of_retain h).1, fun _ _ h => h,
    fun _ _ h => function?_of_unset h⟩

theorem shrinks_dropTimers (w : World Fn Ref) (name : Str) : w.Shrinks (w.dropTimers name) :=
  ⟨fun _ h => h, fun _ _ h => h, fun _ _ h => (Dict.lookup_of_retain h).1,
    fun _ _ h => function?_of_unset h⟩

theorem shrinks_off {w : World Fn Ref} (hw : w.WellFormed) (id : Nat) : w.Shrinks (w.off id) := by
  rcases off_eq hw id with ⟨h, -⟩ | h
  · rw [h]
    exact .refl w
  · rw [h]
    exact shrinks_dropHandlers w _

theorem shrinks_removeCommand (w : World Fn Ref) (name : Str) :
    w.Shrinks (w.removeCommand name) := by
  rw [removeCommand]
  cases w.state.commands.lookup name with
  | none =>
    exact ⟨fun _ h => h, fun _ _ h => (Dict.lookup_of_erase h).1, fun _ _ h => h, fun _ _ h => h⟩
  | some c =>
    exact ⟨fun _ h => h, fun _ _ h => (Dict.lookup_of_erase h).1, fun _ _ h => h,
      fun _ _ h => function?_of_unset h⟩

/-! ### Programs -/

/-- Nothing is registered but for one script, and the functions are filed where they belong. -/
structure Tended (script : Str) (w w' : World Fn Ref) : Prop where
  owned : w.Owned own → w'.Owned own
  registered : ∀ s, w'.Registered s → w.Registered s ∨ s = script
  cleanup : ∀ name f, w'.function? (cleanupKey name) = some f →
    w.function? (cleanupKey name) = some f

variable {own}

theorem Tended.refl (script : Str) (w : World Fn Ref) : Tended own script w w :=
  ⟨fun h => h, fun _ h => .inl h, fun _ _ h => h⟩

theorem Tended.trans {script : Str} {w w' w'' : World Fn Ref} (h : Tended own script w w')
    (h' : Tended own script w' w'') : Tended own script w w'' := by
  refine ⟨fun ho => h'.owned (h.owned ho), fun s hs => ?_,
    fun name f hf => h.cleanup name f (h'.cleanup name f hf)⟩
  rcases h'.registered s hs with hs | rfl
  · exact h.registered s hs
  · exact .inr rfl

theorem Shrinks.tended {w w' : World Fn Ref} (h : Shrinks w w') (script : Str) :
    Tended own script w w' :=
  ⟨h.owned, fun _ hs => .inl (h.registered hs), fun name => h.function (cleanupKey name)⟩

theorem tended_register {w : World Fn Ref} (hw : w.WellFormed) {script : Str} (eventName : Str)
    {callback : Fn} (hown : own callback = script) (priority : Option Int) (once : Bool) :
    Tended own script w (w.register script eventName callback priority once) := by
  have hs := state_register w script eventName callback priority once hw
  have hf : ∀ k, (w.register script eventName callback priority once).function? k =
      if handlerKey w.state.nextId = k then some callback else w.function? k :=
    fun k => function?_insert w _ (.function callback) k
  have hkind : ∀ k, keyKind k ≠ some 'a' →
      (w.register script eventName callback priority once).function? k = w.function? k := by
    intro k hk
    rw [hf, if_neg (ne_of_keyKind (by rw [keyKind_handlerKey]; exact hk.symm))]
  refine ⟨fun ho => ⟨?_, ?_, ?_⟩, fun s hr => ?_, fun name f => ?_⟩
  · rw [hs]
    intro h hh f hfiled
    rw [hf] at hfiled
    rcases (Priority.mem_insertDesc _ _).mp hh with rfl | hh
    · rw [if_pos rfl] at hfiled
      exact Option.some.inj hfiled ▸ hown
    · obtain ⟨hid, hkey⟩ := hw.handler h hh
      rw [if_neg (by rw [hkey, handlerKey_inj]; omega)] at hfiled
      exact ho.handler h hh f hfiled
  · rw [hs]
    intro name c hc f hfiled
    obtain ⟨id, -, hkey⟩ := hw.command name c hc
    rw [hkind _ (by rw [hkey, keyKind_cmdKey]; decide)] at hfiled
    exact ho.command name c hc f hfiled
  · rw [hs]
    intro id t ht f hfiled
    rw [hkind _ (by rw [(hw.timer id t ht).2, keyKind_timerKey]; decide)] at hfiled
    exact ho.timer id t ht f hfiled
  · rw [Registered, hs] at hr
    rcases hr with ⟨h, hh, hname⟩ | hr | hr
    · rcases (Priority.mem_insertDesc _ _).mp hh with rfl | hh
      · exact .inr hname.symm
      · exact .inl (.inl ⟨h, hh, hname⟩)
    · exact .inl (.inr (.inl hr))
    · exact .inl (.inr (.inr hr))
  · rw [hkind _ (by rw [keyKind_cleanupKey]; decide)]
    exact id

theorem tended_command {w : World Fn Ref} (hw : w.WellFormed) {script : Str} (name : Str)
    {handler : Fn} (hown : own handler = script) (description usage : Str) :
    Tended own script w (w.command script name handler description usage) := by
  have hf : ∀ k, (w.command script name handler description usage).function? k =
      if cmdKey w.state.nextId = k then some handler else w.function? k :=
    fun k => function?_insert w _ (.function handler) k
  have hkind : ∀ k, keyKind k ≠ some 'm' →
      (w.command script name handler description usage).function? k = w.function? k := by
    intro k hk
    rw [hf, if_neg (ne_of_keyKind (by rw [keyKind_cmdKey]; exact hk.symm))]
  have hlookup : ∀ n, (w.command script name handler description usage).state.commands.lookup n =
      if name = n then some ⟨script, cmdKey w.state.nextId⟩ else w.state.commands.lookup n :=
    fun n => Dict.lookup_insert _ _ _ n
  refine ⟨fun ho => ⟨?_, ?_, ?_⟩, fun s hr => ?_, fun name' f => ?_⟩
  · intro h hh f hfiled
    rw [hkind _ (by rw [(hw.handler h hh).2, keyKind_handlerKey]; decide)] at hfiled
    exact ho.handler h hh f hfiled
  · intro n c hc f hfiled
    rw [hf] at hfiled
    rw [hlookup] at hc
    split at hc
    · obtain rfl := Option.some.inj hc
      rw [if_pos rfl] at hfiled
      exact Option.some.inj hfiled ▸ hown
    · obtain ⟨id, hid, hkey⟩ := hw.command n c hc
      rw [if_neg (by rw [hkey, cmdKey_inj]; omega)] at hfiled
      exact ho.command n c hc f hfiled
  · intro id t ht f hfiled
    rw [hkind _ (by rw [(hw.timer id t ht).2, keyKind_timerKey]; decide)] at hfiled
    exact ho.timer id t ht f hfiled
  · rcases hr with hr | ⟨n, c, hc, hname⟩ | hr
    · exact .inl (.inl hr)
    · rw [hlookup] at hc
      split at hc
      · obtain rfl := Option.some.inj hc
        exact .inr hname.symm
      · exact .inl (.inr (.inl ⟨n, c, hc, hname⟩))
    · exact .inl (.inr (.inr hr))
  · rw [hkind _ (by rw [keyKind_cleanupKey]; decide)]
    exact id

theorem tended_startTimer {w : World Fn Ref} (hw : w.WellFormed) {script : Str} {callback : Fn}
    (hown : own callback = script) (action : Nat → ScriptAction) :
    Tended own script w (w.startTimer script callback action) := by
  have hf : ∀ k, (w.startTimer script callback action).function? k =
      if timerKey w.timerIdCounter = k then some callback else w.function? k :=
    fun k => function?_insert w _ (.function callback) k
  have hkind : ∀ k, keyKind k ≠ some 'e' →
      (w.startTimer script callback action).function? k = w.function? k := by
    intro k hk
    rw [hf, if_neg (ne_of_keyKind (by rw [keyKind_timerKey]; exact hk.symm))]
  have hlookup : ∀ id, (w.startTimer script callback action).state.timers.lookup id =
      if w.timerIdCounter = id then some ⟨timerKey w.timerIdCounter, script⟩
      else w.state.timers.lookup id :=
    fun id => Dict.lookup_insert _ _ _ id
  refine ⟨fun ho => ⟨?_, ?_, ?_⟩, fun s hr => ?_, fun name f => ?_⟩
  · intro h hh f hfiled
    rw [hkind _ (by rw [(hw.handler h hh).2, keyKind_handlerKey]; decide)] at hfiled
    exact ho.handler h hh f hfiled
  · intro n c hc f hfiled
    obtain ⟨id, -, hkey⟩ := hw.command n c hc
    rw [hkind _ (by rw [hkey, keyKind_cmdKey]; decide)] at hfiled
    exact ho.command n c hc f hfiled
  · intro id t ht f hfiled
    rw [hf] at hfiled
    rw [hlookup] at ht
    split at ht
    · obtain rfl := Option.some.inj ht
      rw [if_pos rfl] at hfiled
      exact Option.some.inj hfiled ▸ hown
    · obtain ⟨hid, hkey⟩ := hw.timer id t ht
      rw [if_neg (by rw [hkey, timerKey_inj]; omega)] at hfiled
      exact ho.timer id t ht f hfiled
  · rcases hr with hr | hr | ⟨id, t, ht, hname⟩
    · exact .inl (.inl hr)
    · exact .inl (.inr (.inl hr))
    · rw [hlookup] at ht
      split at ht
      · obtain rfl := Option.some.inj ht
        exact .inr hname.symm
      · exact .inl (.inr (.inr ⟨id, t, ht, hname⟩))
  · rw [hkind _ (by rw [keyKind_cleanupKey]; decide)]
    exact id

/-- **Programs register for their own script only.** -/
theorem owned_exec {script : Str} (p : Prog Fn σ) : ∀ {w : World Fn Ref}, w.WellFormed →
    p.Within own script → Tended own script w (exec p w).2.2 ∧
      ∀ f, (exec p w).1 = .function f → own f = script := by
  induction p with
  | done reply mem => exact fun {w} _ hp => ⟨.refl script w, hp⟩
  | on owner eventName callback priority next ih =>
    rintro w hw ⟨rfl, hown, hnext⟩
    have h := ih w.state.nextId (wf_register hw owner eventName callback priority false) (hnext _)
    exact ⟨(tended_register hw eventName hown priority false).trans h.1, h.2⟩
  | once owner eventName callback priority next ih =>
    rintro w hw ⟨rfl, hown, hnext⟩
    have h := ih w.state.nextId (wf_register hw owner eventName callback priority true) (hnext _)
    exact ⟨(tended_register hw eventName hown priority true).trans h.1, h.2⟩
  | off id next ih =>
    intro w hw hp
    have h := ih (wf_off hw id) hp
    exact ⟨((shrinks_off hw id).tended script).trans h.1, h.2⟩
  | command owner name handler description usage next ih =>
    rintro w hw ⟨rfl, hown, hnext⟩
    have h := ih (wf_command hw owner name handler description usage) hnext
    exact ⟨(tended_command hw name hown description usage).trans h.1, h.2⟩
  | removeCommand name next ih =>
    intro w hw hp
    have h := ih (wf_removeCommand hw name) hp
    exact ⟨((shrinks_removeCommand w name).tended script).trans h.1, h.2⟩
  | timer owner ms callback next ih =>
    rintro w hw ⟨rfl, hown, hnext⟩
    have h := ih w.timerIdCounter
      (wf_startTimer hw owner callback (fun id => .startTimer id ms)) (hnext _)
    exact ⟨(tended_startTimer hw hown _).trans h.1, h.2⟩
  | timeout owner ms callback next ih =>
    rintro w hw ⟨rfl, hown, hnext⟩
    have h := ih w.timerIdCounter
      (wf_startTimer hw owner callback (fun id => .startTimeout id ms)) (hnext _)
    exact ⟨(tended_startTimer hw hown _).trans h.1, h.2⟩
  | cancelTimer id next ih =>
    intro w hw hp
    have hsame : w.Shrinks (w.cancelTimer id) :=
      ⟨fun _ h => h, fun _ _ h => h, fun _ _ h => h, fun _ _ h => h⟩
    have h := ih (w := w.cancelTimer id)
      (hw.congr rfl rfl (fun k _ _ => function?_congr rfl)) hp
    exact ⟨(hsame.tended script).trans h.1, h.2⟩

end World

/-! ### The engine -/

namespace LuaEngine

/-- The functions are filed where they belong, those that clean up too. -/
structure Owned (e : LuaEngine Fn Ref σ) : Prop where
  wf : e.WellFormed
  world : e.world.Owned own
  cleanup : ∀ name f, e.world.function? (cleanupKey name) = some f → own f = name

theorem owned_new (mem : σ) : (new mem : LuaEngine Fn Ref σ).Owned own where
  wf := wf_new mem
  world := ⟨fun h hh => absurd hh List.not_mem_nil, fun name c hc => (by cases hc),
    fun id t ht => (by cases ht)⟩
  cleanup := fun name f hf => by cases hf

variable {own} {vm : Vm Fn Ref σ}

/-- What a function of a script does when it is called. -/
theorem owned_run {e : LuaEngine Fn Ref σ} (h : e.Owned own) (script : Str) (c : Call)
    {p : Prog Fn σ} (hp : p.Within own script) : (e.run c p).2.Owned own ∧
      (∀ s, (e.run c p).2.world.Registered s → e.world.Registered s ∨ s = script) ∧
      ∀ f, (e.run c p).1 = .function f → own f = script := by
  obtain ⟨ht, hreply⟩ := World.owned_exec p h.wf.world hp
  exact ⟨⟨(wf_world_run h.wf c p).1, ht.owned h.world,
    fun name f hf => h.cleanup name f (ht.cleanup name f hf)⟩, ht.registered, hreply⟩

/-- A function that is called for something registered adds nothing of another script. -/
theorem owned_call (hvm : Isolated own vm) {e : LuaEngine Fn Ref σ} (h : e.Owned own) {f : Fn}
    (hown : e.world.Registered (own f)) (c : Call) (args : Args Ref)
    (hargs : ∀ name, args ≠ .api name) : (e.run c (vm.call f args e.mem)).2.Owned own ∧
      ∀ s, (e.run c (vm.call f args e.mem)).2.world.Registered s → e.world.Registered s := by
  obtain ⟨ho, hr, -⟩ := owned_run h (own f) c
    (hvm.call f args e.mem (fun name ha => absurd ha (hargs name)))
  refine ⟨ho, fun s hs => ?_⟩
  rcases hr s hs with hs | rfl
  · exact hs
  · exact hown

theorem owned_emitLoop (hvm : Isolated own vm) (table : Ref) (hs : List LuaHandler) :
    ∀ {e : LuaEngine Fn Ref σ}, e.Owned own →
      (∀ x ∈ hs, Listed x e.world) → (emitLoop vm table hs e).2.2.Owned own ∧
        ∀ s, (emitLoop vm table hs e).2.2.world.Registered s → e.world.Registered s := by
  induction hs with
  | nil => exact fun {e} h _ => ⟨h, fun s hs => hs⟩
  | cons x hs ih =>
    intro e h hreg
    cases hf : e.world.function? x.registryKey with
    | none =>
      rw [emitLoop_of_missing vm hf]
      exact ih h (fun y hy => hreg y (List.mem_cons_of_mem x hy))
    | some f =>
      have hin : x ∈ e.world.state.handlers :=
        ((hreg x List.mem_cons_self).registered_iff h.wf.world).mpr (by rw [hf]; rfl)
      have hown : e.world.Registered (own f) :=
        .inl ⟨x, hin, (h.world.handler x hin f hf).symm⟩
      have hcall := owned_call hvm h hown (.handler x) (.event table)
        (fun name hn => by cases hn)
      cases hrun : e.run (.handler x) (vm.call f (.event table) e.mem) with
      | mk reply e' =>
      have hlater := (wf_world_run h.wf (.handler x) (vm.call f (.event table) e.mem)).2
      rw [hrun] at hcall hlater
      cases hstops : reply.stops with
      | true =>
        rw [emitLoop_of_stops vm hf (by rw [hrun]; exact hstops), hrun]
        exact hcall
      | false =>
        rw [emitLoop_of_goes_on vm hf hrun hstops]
        have hrest := ih hcall.1 (fun y hy => (hreg y (List.mem_cons_of_mem x hy)).later hlater)
        exact ⟨hrest.1, fun s hs => hcall.2 s (hrest.2 s hs)⟩

theorem owned_emit (hvm : Isolated own vm) {e : LuaEngine Fn Ref σ} (h : e.Owned own)
    (event : Event) : (e.emit vm event).2.Owned own ∧
      ∀ s, (e.emit vm event).2.world.Registered s → e.world.Registered s := by
  cases htable : vm.newTable (eventToTable event) e.mem with
  | none =>
    rw [emit_of_no_table vm htable]
    exact ⟨h, fun s hs => hs⟩
  | some p =>
    by_cases hne : e.snapshot event = []
    · have hemit : e.emit vm event = (.proceed, e) := by rw [emit, if_pos hne]
      rw [hemit]
      exact ⟨h, fun s hs => hs⟩
    · obtain ⟨table, mem⟩ := p
      have hloop := owned_emitLoop hvm table (e.snapshot event) (e := { e with mem := mem })
        ⟨⟨h.wf.world, h.wf.envKey, h.wf.cleanupKey⟩, h.world, h.cleanup⟩
        (fun x hx => listed_of_mem h.wf.world (List.mem_filter.mp hx).1)
      rw [emit_eq vm hne htable rfl]
      generalize emitLoop vm table (e.snapshot event) { e with mem := mem } = r at hloop ⊢
      obtain ⟨result, onceIds, e'⟩ := r
      dsimp only at hloop ⊢
      split
      · exact hloop
      · have hshrinks := World.shrinks_dropHandlers e'.world (fun x => decide (x.id ∈ onceIds))
        obtain ⟨ho, hr⟩ := hloop
        exact ⟨⟨⟨World.wf_dropHandlers ho.wf.world _, ho.wf.envKey, ho.wf.cleanupKey⟩,
          hshrinks.owned ho.world,
          fun name f hf => ho.cleanup name f (hshrinks.function _ f hf)⟩,
          fun s hs => hr s (hshrinks.registered hs)⟩

theorem owned_prepare (hvm : Isolated own vm) {e : LuaEngine Fn Ref σ} (h : e.Owned own)
    (path source : Str) : (e.prepare vm path source).2.Owned own ∧
      (e.prepare vm path source).2.world = e.world := by
  rcases e.prepare_cases vm path source with ⟨text, hp⟩ | ⟨env, mem, -, hp, -⟩
  · rw [hp]
    exact ⟨h, rfl⟩
  · rw [hp]
    -- the source text of a script has no table to register anything with
    obtain ⟨reply, mem', hdone⟩ := hvm.exec path source env mem
    rw [hdone]
    exact ⟨⟨⟨h.wf.world, h.wf.envKey, h.wf.cleanupKey⟩, h.world, h.cleanup⟩, rfl⟩

theorem owned_store {e : LuaEngine Fn Ref σ} (h : e.Owned own) (info : ScriptMeta) (env : Ref)
    {reply : Reply Fn} (hreply : ∀ f, reply = .function f → own f = info.name) :
    (e.store info env reply).Owned own ∧
      (e.store info env reply).world.state = e.world.state := by
  have hstate : (e.store info env reply).world.state = e.world.state := by cases reply <;> rfl
  have hf : ∀ k f, (e.store info env reply).world.function? k = some f →
      e.world.function? k = some f ∨ k = cleanupKey info.name ∧ reply = .function f := by
    intro k f hk
    cases reply with
    | function g =>
      have hg := World.function?_of_insert_table (w := { e.world with
        registry := e.world.registry.insert (cleanupKey info.name) (.function g) }) hk
      rw [World.function?_insert] at hg
      split at hg
      · rename_i hkey
        exact .inr ⟨hkey.symm, congrArg Reply.function (Option.some.inj hg)⟩
      · exact .inl hg
    | boolean b => exact .inl (World.function?_of_insert_table hk)
    | other => exact .inl (World.function?_of_insert_table hk)
    | error text => exact .inl (World.function?_of_insert_table hk)
  have hold : ∀ k f, keyKind k ≠ some 'l' → (e.store info env reply).world.function? k = some f →
      e.world.function? k = some f := by
    intro k f hkind hk
    refine (hf k f hk).resolve_right ?_
    rintro ⟨rfl, -⟩
    exact hkind (keyKind_cleanupKey _)
  refine ⟨⟨(wf_store h.wf info env reply).1, ⟨?_, ?_, ?_⟩, ?_⟩, hstate⟩
  · rw [hstate]
    intro x hx f hk
    refine h.world.handler x hx f (hold _ f ?_ hk)
    rw [(h.wf.world.handler x hx).2, keyKind_handlerKey]
    decide
  · rw [hstate]
    intro name c hc f hk
    obtain ⟨id, -, hkey⟩ := h.wf.world.command name c hc
    refine h.world.command name c hc f (hold _ f ?_ hk)
    rw [hkey, keyKind_cmdKey]
    decide
  · rw [hstate]
    intro id t ht f hk
    refine h.world.timer id t ht f (hold _ f ?_ hk)
    rw [(h.wf.world.timer id t ht).2, keyKind_timerKey]
    decide
  · intro name f hk
    rcases hf _ f hk with hk | ⟨hkey, hreply'⟩
    · exact h.cleanup name f hk
    · rw [List.append_cancel_left hkey]
      exact hreply f hreply'

theorem owned_setUp (hvm : Isolated own vm) {e : LuaEngine Fn Ref σ} (h : e.Owned own) {env : Ref}
    {path : Str} {info : ScriptMeta} (hmeta : readMeta vm env path e.mem = .ok info) :
    (e.setUp vm env info).2.Owned own ∧
      ∀ s, (e.setUp vm env info).2.world.Registered s → e.world.Registered s ∨ s = info.name := by
  rcases e.setUp_cases vm env info with ⟨text, hs⟩ | ⟨f, reply, e', hf, hrun, hs⟩
  · rw [hs]
    exact ⟨h, fun s hs => .inl hs⟩
  · have hown := hvm.setup env path e.mem info f hmeta hf
    obtain ⟨ho, hr, hreply⟩ := owned_run h info.name (.setup info.name) (by
      rw [← hown]
      refine hvm.call f (.api info.name) e.mem (fun name hn => ?_)
      cases hn
      exact hown.symm)
    rw [hrun] at ho hr hreply
    rcases hs with ⟨text, hs⟩ | hs
    · rw [hs]
      exact ⟨ho, hr⟩
    · rw [hs]
      obtain ⟨hstored, hstate⟩ := owned_store ho info env hreply
      refine ⟨hstored, fun s hs => hr s ?_⟩
      rw [World.Registered, hstate] at hs
      exact hs

theorem owned_cleanUp (hvm : Isolated own vm) {e : LuaEngine Fn Ref σ} (h : e.Owned own)
    {name : Str} {script : LoadedScript} (henv : script.envKey = envKey name)
    (hclean : ∀ key, script.cleanupKey = some key → key = cleanupKey name) :
    (e.cleanUp vm name script).Owned own ∧
      (∀ s, (e.cleanUp vm name script).world.Registered s → e.world.Registered s ∨ s = name) ∧
      (e.cleanUp vm name script).scripts = e.scripts := by
  obtain ⟨e', he', hc⟩ := e.cleanUp_cases vm name script
  have hrun : e'.Owned own ∧ (∀ s, e'.world.Registered s → e.world.Registered s ∨ s = name) ∧
      e'.scripts = e.scripts := by
    rcases he' with rfl | ⟨key, f, hkey, hf, rfl⟩
    · exact ⟨h, fun s hs => .inl hs, rfl⟩
    · rw [hclean key hkey] at hf
      have hown := h.cleanup name f hf
      obtain ⟨ho, hr, -⟩ := owned_run h name (.cleanup name)
        (hown ▸ hvm.call f .none e.mem (fun name hn => by cases hn))
      exact ⟨ho, hr, rfl⟩
  obtain ⟨ho, hr, hscripts⟩ := hrun
  have hwf := (wf_cleanUp vm h.wf henv hclean).1
  have hshrinks : e'.world.Shrinks (e.cleanUp vm name script).world ∧
      (e.cleanUp vm name script).scripts = e'.scripts := by
    rcases hc with ⟨-, hc⟩ | ⟨key, -, hc⟩
    · rw [hc]
      exact ⟨World.shrinks_unset _ _, rfl⟩
    · rw [hc]
      exact ⟨(World.shrinks_unset _ _).trans (World.shrinks_unset _ _), rfl⟩
  refine ⟨⟨hwf, hshrinks.1.owned ho.world, fun n f hf => ?_⟩, fun s hs => ?_,
    hshrinks.2.trans hscripts⟩
  · exact ho.cleanup n f (hshrinks.1.function _ f hf)
  · exact hr s (hshrinks.1.registered hs)

/-- Nothing of a script is left when it is unloaded. -/
theorem owned_unloadScript (hvm : Isolated own vm) {e : LuaEngine Fn Ref σ} (h : e.Owned own)
    (name : Str) : (e.unloadScript vm name).2.Owned own ∧
      (∀ s, (e.unloadScript vm name).2.world.Registered s → e.world.Registered s) ∧
      ((e.scripts.lookup name).isSome → ¬ (e.unloadScript vm name).2.world.Registered name) ∧
      (e.unloadScript vm name).2.scripts = e.scripts.erase name := by
  rw [unloadScript]
  cases hs : e.scripts.lookup name with
  | none =>
    refine ⟨h, fun s hs => hs, fun hsome => absurd hsome Bool.false_ne_true, ?_⟩
    refine (Table.ext (List.filter_eq_self.mpr fun r hr => ?_)).symm
    rw [Bool.not_eq_true', decide_eq_false_iff_not]
    rintro rfl
    rw [Dict.mem_rows_iff_lookup.mp hr] at hs
    cases hs
  | some script =>
    have hold : ∀ n s, (e.scripts.erase name).lookup n = some s → e.scripts.lookup n = some s :=
      fun n s h => (Dict.lookup_of_erase h).1
    have herased : ({ e with scripts := e.scripts.erase name } : LuaEngine Fn Ref σ).Owned own :=
      ⟨⟨h.wf.world, fun n s hn => h.wf.envKey n s (hold n s hn),
        fun n s key hn => h.wf.cleanupKey n s key (hold n s hn)⟩, h.world, h.cleanup⟩
    obtain ⟨ho, hr, hscripts⟩ := owned_cleanUp hvm herased (h.wf.envKey name script hs)
      (fun key => h.wf.cleanupKey name script key hs)
    have hwf := (wf_unloadScript vm h.wf name).1
    rw [unloadScript, hs] at hwf
    dsimp only at hwf ⊢
    generalize cleanUp vm { e with scripts := e.scripts.erase name } name script = e' at *
    have hshrinks := ((World.shrinks_dropHandlers e'.world
      (fun x => decide (x.scriptName = name))).trans (World.shrinks_dropCommands _ name)).trans
      (World.shrinks_dropTimers _ name)
    have hnone : ¬ (((e'.world.dropHandlers (fun x => decide (x.scriptName = name))).dropCommands
        name).dropTimers name).Registered name := by
      rintro (⟨x, hx, hname⟩ | ⟨n, c, hc, hname⟩ | ⟨id, t, ht, hname⟩)
      · have hkept := (World.mem_dropHandlers.mp hx).2
        exact of_decide_eq_false hkept hname
      · exact of_decide_eq_true (Dict.lookup_of_retain hc).2 hname
      · exact of_decide_eq_true (Dict.lookup_of_retain ht).2 hname
    refine ⟨⟨hwf, hshrinks.owned ho.world,
      fun n f hf => ho.cleanup n f (hshrinks.function _ f hf)⟩, fun s hs' => ?_,
      fun _ => hnone, hscripts⟩
    rcases hr s (hshrinks.registered hs') with hs' | rfl
    · exact hs'
    · exact absurd hs' hnone

end LuaEngine

/-! ### Runs -/

section Runs

variable {own} {vm : Vm Fn Ref σ}

/-- **The engine registers nothing by itself**: only the `setup` of a script begins it. -/
theorem owned_step (hvm : Isolated own vm) {e : LuaEngine Fn Ref σ} (h : e.Owned own) (i : Input) :
    (step vm e i).Owned own ∧
      ∀ s, (step vm e i).world.Registered s → e.world.Registered s ∨ e.SetsUp vm i s := by
  cases i with
  | load path source =>
    obtain ⟨ho, hworld⟩ := LuaEngine.owned_prepare hvm h path source
    rw [step]
    rcases e.loadScript_cases vm path source with ⟨text, -, hl⟩ | ⟨env, info, hok, hl⟩
    · rw [hl]
      exact ⟨ho, fun s hs => .inl (hworld ▸ hs)⟩
    · rw [hl]
      rcases e.prepare_cases vm path source with ⟨text, hp⟩ | ⟨-, -, -, -, hp⟩
      · rw [hp] at hok
        cases hok
      · obtain ⟨ho', hr⟩ := LuaEngine.owned_setUp hvm ho (hp env info hok).1
        refine ⟨ho', fun s hs => ?_⟩
        rcases hr s hs with hs | rfl
        · exact .inl (hworld ▸ hs)
        · exact .inr ⟨path, source, env, info, rfl, hok, rfl⟩
  | unload name =>
    obtain ⟨ho, hr, -⟩ := LuaEngine.owned_unloadScript hvm h name
    exact ⟨ho, fun s hs => .inl (hr s hs)⟩
  | emit event =>
    obtain ⟨ho, hr⟩ := LuaEngine.owned_emit hvm h event
    exact ⟨ho, fun s hs => .inl (hr s hs)⟩
  | command name args connectionId =>
    rcases e.handleCommand_cases vm name args connectionId with hc | ⟨c, f, hc, hf, hrun⟩
    · rw [step, hc]
      exact ⟨h, fun s hs => .inl hs⟩
    · rw [step, hrun]
      obtain ⟨ho, hr⟩ := LuaEngine.owned_call hvm h
        (.inr (.inl ⟨name, c, hc, (h.world.command name c hc f hf).symm⟩)) (.command name c)
        (.command args connectionId) (fun n hn => by cases hn)
      exact ⟨ho, fun s hs => .inl (hr s hs)⟩
  | fireTimer id =>
    rcases e.fireTimer_cases vm id with ht | ⟨t, f, ht, hf, hrun⟩
    · rw [step, ht]
      exact ⟨h, fun s hs => .inl hs⟩
    · rw [step, hrun]
      obtain ⟨ho, hr⟩ := LuaEngine.owned_call hvm h
        (.inr (.inr ⟨id, t, ht, (h.world.timer id t ht f hf).symm⟩)) (.timer id t)
        .none (fun n hn => by cases hn)
      exact ⟨ho, fun s hs => .inl (hr s hs)⟩

/-- The script that is called. -/
def Call.script : Call → Option Str
  | .chunk _ => none
  | .setup name => some name
  | .cleanup name => some name
  | .handler h => some h.scriptName
  | .command _ c => some c.scriptName
  | .timer _ t => some t.scriptName

/-- Nothing is left of a script. -/
structure Gone (own : Fn → Str) (name : Str) (e : LuaEngine Fn Ref σ) : Prop where
  owned : e.Owned own
  registered : ¬ e.world.Registered name
  unloaded : e.scripts.lookup name = none

theorem calls_of_gone {name : Str} {e : LuaEngine Fn Ref σ} (h : Gone own name e) {i : Input}
    (hnot : ¬ e.SetsUp vm i name) : ∃ l, (step vm e i).calls = e.calls ++ l ∧
      ∀ c ∈ l, c.1.script ≠ some name := by
  obtain ⟨l, hl, hdue⟩ := step_calls vm h.owned.wf i
  refine ⟨l, hl, fun c hc hscript => ?_⟩
  have hc := hdue c hc
  obtain ⟨c, reply⟩ := c
  cases c with
  | chunk path => cases hscript
  | setup n => exact hnot (Option.some.inj hscript ▸ hc)
  | cleanup n =>
    have hloaded : (e.scripts.lookup n).isSome := hc
    rw [Option.some.inj hscript, h.unloaded] at hloaded
    cases hloaded
  | handler x => exact h.registered (.inl ⟨x, hc.1, Option.some.inj hscript⟩)
  | command n c => exact h.registered (.inr (.inl ⟨n, c, hc, Option.some.inj hscript⟩))
  | timer id t => exact h.registered (.inr (.inr ⟨id, t, hc, Option.some.inj hscript⟩))

/-- What is loaded was so before, unless the input loads it. -/
theorem scripts_step (hvm : Isolated own vm) {e : LuaEngine Fn Ref σ} (h : e.Owned own)
    (i : Input) {name : Str} (hnot : ¬ e.SetsUp vm i name)
    (hnone : e.scripts.lookup name = none) : (step vm e i).scripts.lookup name = none := by
  cases i with
  | load path source =>
    have hprepare : (e.prepare vm path source).2.scripts = e.scripts := by
      rcases e.prepare_cases vm path source with ⟨text, hp⟩ | ⟨env, mem, -, hp, -⟩
      · rw [hp]
      · rw [hp]
        rfl
    rw [step]
    rcases e.loadScript_cases vm path source with ⟨text, -, hl⟩ | ⟨env, info, hok, hl⟩
    · rw [hl]
      exact hprepare ▸ hnone
    · have hne : info.name ≠ name := fun hn => hnot ⟨path, source, env, info, rfl, hok, hn⟩
      rw [hl]
      rcases (e.prepare vm path source).2.setUp_cases vm env info with
        ⟨text, hs⟩ | ⟨f, reply, e', -, hrun, hs⟩
      · rw [hs]
        exact hprepare ▸ hnone
      · have hscripts : e'.scripts = e.scripts :=
          (congrArg (fun r => r.2.scripts) hrun.symm).trans hprepare
        rcases hs with ⟨text, hs⟩ | hs
        · rw [hs]
          exact hscripts ▸ hnone
        · rw [hs]
          obtain ⟨key, -, hstore⟩ := e'.scripts_store info env reply
          rw [hstore, Dict.lookup_insert, if_neg hne, hscripts]
          exact hnone
  | unload n =>
    rw [step, (LuaEngine.owned_unloadScript hvm h n).2.2.2, Dict.lookup_erase, hnone]
    exact ite_self none
  | emit event =>
    rw [step]
    cases htable : vm.newTable (eventToTable event) e.mem with
    | none =>
      rw [LuaEngine.emit_of_no_table vm htable]
      exact hnone
    | some p =>
      obtain ⟨processed, log, hd, -⟩ :=
        LuaEngine.emit_dispatches vm h.wf.world event (by rw [htable]; rfl)
      rw [hd.scripts]
      exact hnone
  | command n args connectionId =>
    rw [step]
    rcases e.handleCommand_cases vm n args connectionId with hc | ⟨c, f, -, -, hrun⟩
    · rw [hc]
      exact hnone
    · rw [hrun]
      exact hnone
  | fireTimer id =>
    rw [step]
    rcases e.fireTimer_cases vm id with ht | ⟨t, f, -, -, hrun⟩
    · rw [ht]
      exact hnone
    · rw [hrun]
      exact hnone

theorem gone_step (hvm : Isolated own vm) {name : Str} {e : LuaEngine Fn Ref σ}
    (h : Gone own name e) {i : Input} (hnot : ¬ e.SetsUp vm i name) :
    Gone own name (step vm e i) := by
  obtain ⟨ho, hr⟩ := owned_step hvm h.owned i
  exact ⟨ho, fun hreg => (hr name hreg).elim h.registered hnot,
    scripts_step hvm h.owned i hnot h.unloaded⟩

theorem gone_unload (hvm : Isolated own vm) {name : Str} {e : LuaEngine Fn Ref σ}
    (h : e.Owned own) (hloaded : (e.scripts.lookup name).isSome) :
    Gone own name (step vm e (.unload name)) := by
  obtain ⟨ho, -, hnone, hscripts⟩ := LuaEngine.owned_unloadScript hvm h name
  refine ⟨ho, hnone hloaded, ?_⟩
  rw [step, hscripts, Dict.lookup_erase, if_pos rfl]

theorem owned_reached (hvm : Isolated own vm) (mem : σ) (is : List Input) :
    (Run.run (step vm) (LuaEngine.new mem) is).Owned own :=
  Run.invariant (P := LuaEngine.Owned own) (fun _ i h => (owned_step hvm h i).1)
    (LuaEngine.owned_new own mem) is

/-- Nothing but a file that is loaded sets a script up. -/
theorem not_setsUp {e : LuaEngine Fn Ref σ} {i : Input} {name : Str}
    (hi : ∀ path source, i ≠ .load path source) : ¬ e.SetsUp vm i name := by
  rintro ⟨path, source, env, info, heq, -⟩
  exact hi path source heq

/-- **A script that is unloaded is silent**, where scripts do not hand their functions and tables
on: whatever else happens, none of its functions is called until a script of its name is set up
again. -/
theorem unloaded_is_silent (hvm : Isolated own vm) (mem : σ) (before after : List Input)
    {name : Str}
    (hloaded : ((Run.run (step vm) (LuaEngine.new mem) before).scripts.lookup name).isSome)
    (hafter : Run.Guarded (step vm) (fun e i => ¬ e.SetsUp vm i name)
      (Run.run (step vm) (LuaEngine.new mem) (before ++ [.unload name])) after) :
    ∃ l, (Run.run (step vm) (LuaEngine.new mem) (before ++ [.unload name] ++ after)).calls =
        (Run.run (step vm) (LuaEngine.new mem) (before ++ [.unload name])).calls ++ l ∧
      ∀ c ∈ l, c.1.script ≠ some name := by
  have hgone :
      Gone own name (Run.run (step vm) (LuaEngine.new mem) (before ++ [.unload name])) := by
    rw [Run.run_append]
    exact gone_unload hvm (owned_reached hvm mem before) hloaded
  rw [Run.run_append (LuaEngine.new mem) (before ++ [Input.unload name]) after]
  generalize Run.run (step vm) (LuaEngine.new mem) (before ++ [.unload name]) = e at hgone hafter ⊢
  induction after generalizing e with
  | nil => exact ⟨[], (List.append_nil _).symm, fun c hc => absurd hc List.not_mem_nil⟩
  | cons i after ih =>
    obtain ⟨l, hl, hsilent⟩ := calls_of_gone hgone hafter.1
    obtain ⟨l', hl', hsilent'⟩ := ih (step vm e i) (gone_step hvm hgone hafter.1) hafter.2
    refine ⟨l ++ l', by rw [Run.run_cons, hl', hl, List.append_assoc], fun c hc => ?_⟩
    rcases List.mem_append.mp hc with hc | hc
    · exact hsilent c hc
    · exact hsilent' c hc

/-- Everything in `greetVm` is of the script `greet`. -/
theorem greetVm_isolated : Isolated (fun _ => str "greet") greetVm where
  call f args mem hapi := by
    cases f with
    | setup =>
      cases args with
      | api script =>
        exact ⟨hapi script rfl, rfl, fun _ => ⟨hapi script rfl, rfl, fun _ f _ => rfl⟩⟩
      | event table => exact fun _ _ => rfl
      | command args connectionId => exact fun _ _ => rfl
      | none => exact fun _ _ => rfl
    | greet => exact fun _ _ => rfl
    | tick => exact fun _ _ => rfl
    | bye => exact fun _ _ => rfl
  exec path source env mem := ⟨.other, (), rfl⟩
  setup env path mem info f hinfo _ := by
    rw [← Except.ok.inj hinfo]

theorem greet_is_silent :
    ∃ l, (Run.run (step greetVm) (LuaEngine.new ())
          ([.load [] []] ++ [.unload (str "greet")] ++ [.emit ⟨str "join", .empty⟩])).calls =
        (Run.run (step greetVm) (LuaEngine.new ())
          ([.load [] []] ++ [.unload (str "greet")])).calls ++ l ∧
      ∀ c ∈ l, c.1.script ≠ some (str "greet") :=
  unloaded_is_silent greetVm_isolated () [.load [] []] [.emit ⟨str "join", .empty⟩] rfl
    ⟨not_setsUp (fun _ _ => by simp), trivial⟩

/-- No `setup` raises an error. -/
def SetupReturns (vm : Vm Fn Ref σ) (e : LuaEngine Fn Ref σ) (i : Input) : Prop :=
  ∀ path source text, i = .load path source →
    (e.loadScript vm path source).1 ≠ .error (str "setup() failed: " ++ text)

/-- What is registered is of a loaded script. -/
structure Kept (own : Fn → Str) (e : LuaEngine Fn Ref σ) : Prop where
  owned : e.Owned own
  loaded : ∀ name, e.world.Registered name → (e.scripts.lookup name).isSome

theorem kept_load (hvm : Isolated own vm) {e : LuaEngine Fn Ref σ} (h : Kept own e)
    {path source : Str} (hreturns : SetupReturns vm e (.load path source)) :
    Kept own (step vm e (.load path source)) := by
  refine ⟨(owned_step hvm h.owned _).1, ?_⟩
  obtain ⟨ho, hworld⟩ := LuaEngine.owned_prepare hvm h.owned path source
  have hprepare : (e.prepare vm path source).2.scripts = e.scripts := by
    rcases e.prepare_cases vm path source with ⟨text, hp⟩ | ⟨env, mem, -, hp, -⟩
    · rw [hp]
    · rw [hp]
      rfl
  have hkept : ∀ name, (e.prepare vm path source).2.world.Registered name →
      ((e.prepare vm path source).2.scripts.lookup name).isSome := by
    rw [hworld, hprepare]
    exact h.loaded
  rw [step]
  rcases e.loadScript_cases vm path source with ⟨text, -, hl⟩ | ⟨env, info, hok, hl⟩
  · rw [hl]
    exact hkept
  · have hreturns := hreturns path source
    rw [hl] at hreturns ⊢
    rcases e.prepare_cases vm path source with ⟨text, hp⟩ | ⟨-, -, -, -, hp⟩
    · rw [hp] at hok
      cases hok
    obtain ⟨-, hr⟩ := LuaEngine.owned_setUp hvm ho (hp env info hok).1
    rcases (e.prepare vm path source).2.setUp_cases vm env info with
      ⟨text, hs⟩ | ⟨f, reply, e', -, hrun, hs⟩
    · rw [hs]
      exact hkept
    · rcases hs with ⟨text, hs⟩ | hs
      · exact absurd (congrArg Prod.fst hs) (hreturns text rfl)
      · rw [hs] at hr ⊢
        obtain ⟨key, -, hstore⟩ := e'.scripts_store info env reply
        have hscripts : e'.scripts = (e.prepare vm path source).2.scripts :=
          congrArg (fun r => r.2.scripts) hrun.symm
        intro name hname
        rw [hstore, Dict.lookup_insert]
        split
        · rfl
        · rename_i hne
          rw [hscripts]
          exact hkept name ((hr name hname).resolve_right (Ne.symm hne))

theorem kept_step (hvm : Isolated own vm) {e : LuaEngine Fn Ref σ} (h : Kept own e) {i : Input}
    (hreturns : SetupReturns vm e i) : Kept own (step vm e i) := by
  cases i with
  | load path source => exact kept_load hvm h hreturns
  | unload name =>
    obtain ⟨ho, hr, hnone, hscripts⟩ := LuaEngine.owned_unloadScript hvm h.owned name
    refine ⟨ho, fun s hs => ?_⟩
    have hloaded := h.loaded s (hr s hs)
    rw [step, hscripts, Dict.lookup_erase]
    split
    · rename_i heq
      subst heq
      exact absurd hs (hnone hloaded)
    · exact hloaded
  | emit event =>
    obtain ⟨ho, hr⟩ := LuaEngine.owned_emit hvm h.owned event
    refine ⟨ho, fun s hs => ?_⟩
    have hloaded := h.loaded s (hr s hs)
    rw [step]
    cases htable : vm.newTable (eventToTable event) e.mem with
    | none =>
      rw [LuaEngine.emit_of_no_table vm htable]
      exact hloaded
    | some p =>
      obtain ⟨processed, log, hd, -⟩ :=
        LuaEngine.emit_dispatches vm h.owned.wf.world event (by rw [htable]; rfl)
      rw [hd.scripts]
      exact hloaded
  | command name args connectionId =>
    obtain ⟨ho, hr⟩ := owned_step hvm h.owned (.command name args connectionId)
    refine ⟨ho, fun s hs => ?_⟩
    have hloaded := h.loaded s ((hr s hs).resolve_right (not_setsUp (fun _ _ => by simp)))
    rw [step]
    rcases e.handleCommand_cases vm name args connectionId with hc | ⟨c, f, -, -, hrun⟩
    · rw [hc]
      exact hloaded
    · rw [hrun]
      exact hloaded
  | fireTimer id =>
    obtain ⟨ho, hr⟩ := owned_step hvm h.owned (.fireTimer id)
    refine ⟨ho, fun s hs => ?_⟩
    have hloaded := h.loaded s ((hr s hs).resolve_right (not_setsUp (fun _ _ => by simp)))
    rw [step]
    rcases e.fireTimer_cases vm id with ht | ⟨t, f, -, -, hrun⟩
    · rw [ht]
      exact hloaded
    · rw [hrun]
      exact hloaded

/-- **What is registered is of a loaded script**, where scripts do not hand their functions and
tables on, in every run in which no `setup` raises an error. -/
theorem registered_is_loaded (hvm : Isolated own vm) (mem : σ) (is : List Input)
    (hreturns : Run.Guarded (step vm) (SetupReturns vm) (LuaEngine.new mem) is) {name : Str}
    (hname : (Run.run (step vm) (LuaEngine.new mem) is).world.Registered name) :
    ((Run.run (step vm) (LuaEngine.new mem) is).scripts.lookup name).isSome := by
  have hnew : Kept own (LuaEngine.new mem : LuaEngine Fn Ref σ) := by
    refine ⟨LuaEngine.owned_new own mem, fun name hreg => ?_⟩
    rcases hreg with ⟨h, hh, -⟩ | ⟨n, c, hc, -⟩ | ⟨id, t, ht, -⟩
    · cases hh
    · cases hc
    · cases ht
  exact (Run.Guarded.invariant (P := Kept own) (fun _ _ h hi => kept_step hvm h hi) hnew
    hreturns).loaded name hname

theorem greet_is_loaded :
    ((Run.run (step greetVm) (LuaEngine.new ()) [.load [] []]).scripts.lookup
      (str "greet")).isSome := by
  refine registered_is_loaded greetVm_isolated () [.load [] []] ⟨?_, trivial⟩
    (.inr (.inr ⟨1, ⟨timerKey 1, str "greet"⟩, rfl, rfl⟩))
  rintro path source text heq
  have hok : ((LuaEngine.new () : LuaEngine GreetFn Unit Unit).loadScript greetVm [] []).1 =
      .ok ⟨str "greet", none, none, []⟩ := rfl
  cases heq
  rw [hok]
  simp

end Runs

end Repartee.Scripting
