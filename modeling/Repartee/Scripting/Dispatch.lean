import Repartee.Scripting.Registry

/-!
# The dispatch of an event

The handlers of an event are listed before the first of them is called, so a handler may remove
any of them, itself included, and register others while the event is under way. Those that are
removed before their turn are left out, and those that are registered wait for the next event.

## Main definitions

- `Dispatched`: what is called for an event, in terms of the engine before and after it
- `LuaEngine.Turns`: what is called, in terms of the engine at each turn

## Main results

- `emit_dispatches`: every event that a well-formed engine emits is dispatched
-/

set_option autoImplicit false

namespace Repartee.Scripting

variable {Fn Ref σ : Type}

/-- A reply that stops the event. -/
def Reply.stops : Reply Fn → Bool
  | .boolean b => b
  | _ => false

/-- How the handlers `hs` of an event are dealt with: a front of them, `processed`, is gone
through in order, and `log` has those that are called, with what they answer. -/
structure Dispatched (hs : List LuaHandler) (e e' : LuaEngine Fn Ref σ) (result : EventResult)
    (processed : List LuaHandler) (log : List (LuaHandler × Reply Fn)) : Prop where
  front : processed <+: hs
  order : (log.map Prod.fst).Sublist processed
  calls : e'.calls = e.calls ++ log.map (fun c => (.handler c.1, c.2))
  scripts : e'.scripts = e.scripts
  /-- One that is not called is not registered any more. -/
  skipped : ∀ h ∈ processed, h ∉ log.map Prod.fst → h ∉ e'.world.state.handlers
  /-- An event that goes on has gone through all of them, and none has stopped it. -/
  proceeds : result = .proceed → processed = hs ∧ ∀ c ∈ log, c.2.stops = false
  /-- An event that is suppressed is so by the last one, and by no other. -/
  suppresses : result = .suppress → ∃ before h called reply, processed = before ++ [h] ∧
    log = called ++ [(h, reply)] ∧ reply.stops = true ∧ ∀ c ∈ called, c.2.stops = false

namespace LuaEngine

variable (vm : Vm Fn Ref σ)

theorem wf_run {e : LuaEngine Fn Ref σ} (hw : e.world.WellFormed) (c : Call) (p : Prog Fn σ) :
    (e.run c p).2.world.WellFormed ∧ e.world.Later (e.run c p).2.world := World.wf_exec p hw

theorem emitLoop_of_missing {table : Ref} {h : LuaHandler} {hs : List LuaHandler}
    {e : LuaEngine Fn Ref σ} (hf : e.world.function? h.registryKey = none) :
    emitLoop vm table (h :: hs) e =
      ((emitLoop vm table hs e).1, (if h.once then [h.id] else []) ++ (emitLoop vm table hs e).2.1,
        (emitLoop vm table hs e).2.2) := by
  rw [emitLoop, hf]

theorem emitLoop_of_stops {table : Ref} {h : LuaHandler} {hs : List LuaHandler} {f : Fn}
    {e : LuaEngine Fn Ref σ} (hf : e.world.function? h.registryKey = some f)
    (hstops : (e.run (.handler h) (vm.call f (.event table) e.mem)).1.stops = true) :
    emitLoop vm table (h :: hs) e = (.suppress, if h.once then [h.id] else [],
      (e.run (.handler h) (vm.call f (.event table) e.mem)).2) := by
  rw [emitLoop, hf]
  dsimp only
  generalize e.run (.handler h) (vm.call f (.event table) e.mem) = r at hstops ⊢
  obtain ⟨reply, e'⟩ := r
  cases reply with
  | boolean b =>
    obtain rfl : b = true := hstops
    rfl
  | function f => cases hstops
  | other => cases hstops
  | error text => cases hstops

theorem emitLoop_of_goes_on {table : Ref} {h : LuaHandler} {hs : List LuaHandler} {f : Fn}
    {e e' : LuaEngine Fn Ref σ} {reply : Reply Fn}
    (hf : e.world.function? h.registryKey = some f)
    (hrun : e.run (.handler h) (vm.call f (.event table) e.mem) = (reply, e'))
    (hstops : reply.stops = false) :
    emitLoop vm table (h :: hs) e = ((emitLoop vm table hs e').1,
      (if h.once then [h.id] else []) ++ (emitLoop vm table hs e').2.1,
      (emitLoop vm table hs e').2.2) := by
  rw [emitLoop, hf]
  dsimp only
  rw [hrun]
  cases reply with
  | boolean b =>
    obtain rfl : b = false := hstops
    rfl
  | function f => rfl
  | other => rfl
  | error text => rfl

/-- The turns of some handlers: one that is registered when its turn comes is called with the
function that is filed for it then, and one that is not is passed over. -/
inductive Turns (table : Ref) : List LuaHandler → LuaEngine Fn Ref σ → LuaEngine Fn Ref σ →
    List (LuaHandler × Reply Fn) → Prop
  | done {e : LuaEngine Fn Ref σ} : Turns table [] e e []
  | passed {h : LuaHandler} {hs : List LuaHandler} {e e' : LuaEngine Fn Ref σ}
      {log : List (LuaHandler × Reply Fn)} (hgone : h ∉ e.world.state.handlers)
      (rest : Turns table hs e e' log) : Turns table (h :: hs) e e' log
  | called {h : LuaHandler} {hs : List LuaHandler} {e e₁ e' : LuaEngine Fn Ref σ} {f : Fn}
      {reply : Reply Fn} {log : List (LuaHandler × Reply Fn)}
      (hregistered : h ∈ e.world.state.handlers)
      (hfiled : e.world.function? h.registryKey = some f)
      (hrun : e.run (.handler h) (vm.call f (.event table) e.mem) = (reply, e₁))
      (rest : Turns table hs e₁ e' log) : Turns table (h :: hs) e e' ((h, reply) :: log)

/-- A handler from the list of an event: nothing else has got its number since. -/
structure Listed (h : LuaHandler) (w : World Fn Ref) : Prop where
  id : h.id < w.state.nextId
  key : h.registryKey = handlerKey h.id
  own : ∀ x ∈ w.state.handlers, x.id = h.id → x = h

variable {vm}

theorem Listed.later {h : LuaHandler} {w w' : World Fn Ref} (hl : Listed h w)
    (hlater : w.Later w') : Listed h w' where
  id := hl.id.trans_le hlater.nextId
  key := hl.key
  own x hx hid := hl.own x (hlater.old x hx (hid ▸ hl.id)) hid

theorem listed_of_mem {h : LuaHandler} {w : World Fn Ref} (hw : w.WellFormed)
    (hh : h ∈ w.state.handlers) : Listed h w :=
  ⟨(hw.handler h hh).1, (hw.handler h hh).2, fun _ hx hid => hw.eq_of_id hx hh hid⟩

/-- It is registered as long as a function is filed for it. -/
theorem Listed.registered_iff {h : LuaHandler} {w : World Fn Ref} (hl : Listed h w)
    (hw : w.WellFormed) : h ∈ w.state.handlers ↔ (w.function? h.registryKey).isSome := by
  rw [hl.key, hw.handlerIff]
  constructor
  · exact fun hh => ⟨h, hh, rfl⟩
  · rintro ⟨x, hx, hid⟩
    exact hl.own x hx hid ▸ hx

variable (vm)

/-- The handlers of an event, one after the other. -/
theorem emitLoop_spec (table : Ref) (hs : List LuaHandler) :
    ∀ {e : LuaEngine Fn Ref σ}, e.world.WellFormed → (∀ h ∈ hs, Listed h e.world) →
      ∃ processed log,
        Dispatched hs e (emitLoop vm table hs e).2.2 (emitLoop vm table hs e).1 processed log ∧
        (emitLoop vm table hs e).2.1 = (processed.filter LuaHandler.once).map LuaHandler.id ∧
        (emitLoop vm table hs e).2.2.world.WellFormed ∧
        e.world.Later (emitLoop vm table hs e).2.2.world ∧
        Turns vm table processed e (emitLoop vm table hs e).2.2 log := by
  induction hs with
  | nil =>
    intro e hw _
    refine ⟨[], [], ⟨List.nil_prefix, .slnil, by simp [emitLoop], rfl, ?_, ?_, ?_⟩, rfl, hw,
      .refl _, .done⟩
    · exact fun h hh => absurd hh List.not_mem_nil
    · exact fun _ => ⟨rfl, fun c hc => absurd hc List.not_mem_nil⟩
    · exact fun hresult => by cases hresult
  | cons h hs ih =>
    intro e hw hreg
    have hlisted := hreg h List.mem_cons_self
    have hfired : ∀ l : List LuaHandler, (if h.once then [h.id] else []) ++
        (l.filter LuaHandler.once).map LuaHandler.id =
          ((h :: l).filter LuaHandler.once).map LuaHandler.id := by
      intro l
      cases honce : h.once <;> simp [honce]
    cases hf : e.world.function? h.registryKey with
    | none =>
      -- it has been removed, and it stays so
      obtain ⟨processed, log, hd, honce, hw', hlater, hturns⟩ :=
        ih hw (fun x hx => hreg x (List.mem_cons_of_mem h hx))
      rw [emitLoop_of_missing vm hf]
      have hgone : h ∉ e.world.state.handlers := by
        rw [hlisted.registered_iff hw, hf]
        exact Bool.false_ne_true
      refine ⟨h :: processed, log,
        ⟨?_, hd.order.cons h, hd.calls, hd.scripts, ?_, ?_, ?_⟩, ?_, hw', hlater,
        .passed hgone hturns⟩
      · exact (List.prefix_cons_inj h).mpr hd.front
      · intro x hx hnot
        rcases List.mem_cons.mp hx with rfl | hx
        · exact fun hh => hgone (hlater.old x hh hlisted.id)
        · exact hd.skipped x hx hnot
      · intro hresult
        exact ⟨congrArg (h :: ·) (hd.proceeds hresult).1, (hd.proceeds hresult).2⟩
      · intro hresult
        obtain ⟨before, x, called, reply, hprocessed, hlog⟩ := hd.suppresses hresult
        exact ⟨h :: before, x, called, reply, congrArg (h :: ·) hprocessed, hlog⟩
      · rw [← hfired, ← honce]
    | some f =>
      cases hrun : e.run (.handler h) (vm.call f (.event table) e.mem) with
      | mk reply e' =>
      have hcalls : e'.calls = e.calls ++ [(.handler h, reply)] := by
        have hlog : (e.run (.handler h) (vm.call f (.event table) e.mem)).2.calls = e.calls ++
            [(.handler h, (e.run (.handler h) (vm.call f (.event table) e.mem)).1)] := rfl
        rw [hrun] at hlog
        exact hlog
      have hscripts : e'.scripts = e.scripts := congrArg (fun r => r.2.scripts) hrun.symm
      have hkept := e.wf_run hw (.handler h) (vm.call f (.event table) e.mem)
      rw [hrun] at hkept
      have hregistered := (hlisted.registered_iff hw).mpr (by rw [hf]; rfl)
      cases hstops : reply.stops with
      | true =>
        rw [emitLoop_of_stops vm hf (by rw [hrun]; exact hstops), hrun]
        refine ⟨[h], [(h, reply)],
          ⟨?_, List.Sublist.refl _, hcalls, hscripts, ?_, ?_, ?_⟩, ?_, hkept.1, hkept.2,
          .called hregistered hf hrun .done⟩
        · exact (List.prefix_cons_inj h).mpr List.nil_prefix
        · exact fun x hx hnot => absurd hx hnot
        · exact fun hresult => by cases hresult
        · exact fun _ => ⟨[], h, [], reply, rfl, rfl, hstops,
            fun c hc => absurd hc List.not_mem_nil⟩
        · rw [← hfired, List.filter_nil, List.map_nil, List.append_nil]
      | false =>
        obtain ⟨processed, log, hd, honce, hw', hlater, hturns⟩ := ih hkept.1
          (fun x hx => (hreg x (List.mem_cons_of_mem h hx)).later hkept.2)
        rw [emitLoop_of_goes_on vm hf hrun hstops]
        refine ⟨h :: processed, (h, reply) :: log, ⟨?_, hd.order.cons_cons h, ?_,
          hd.scripts.trans hscripts, ?_, ?_, ?_⟩, ?_, hw', hkept.2.trans hlater,
          .called hregistered hf hrun hturns⟩
        · exact (List.prefix_cons_inj h).mpr hd.front
        · rw [hd.calls, hcalls, List.append_assoc]
          rfl
        · intro x hx hnot
          rw [List.map_cons, List.mem_cons, not_or] at hnot
          exact hd.skipped x ((List.mem_cons.mp hx).resolve_left hnot.1) hnot.2
        · intro hresult
          refine ⟨congrArg (h :: ·) (hd.proceeds hresult).1, fun c hc => ?_⟩
          rcases List.mem_cons.mp hc with rfl | hc
          · exact hstops
          · exact (hd.proceeds hresult).2 c hc
        · intro hresult
          obtain ⟨before, x, called, last, hprocessed, hlog, hlast, hcalled⟩ :=
            hd.suppresses hresult
          refine ⟨h :: before, x, (h, reply) :: called, last, congrArg (h :: ·) hprocessed,
            congrArg ((h, reply) :: ·) hlog, hlast, fun c hc => ?_⟩
          rcases List.mem_cons.mp hc with rfl | hc
          · exact hstops
          · exact hcalled c hc
        · rw [← hfired, ← honce]

theorem emit_eq {e e' : LuaEngine Fn Ref σ} {event : Event} {table : Ref} {mem : σ}
    {result : EventResult} {onceIds : List Nat} (hne : e.snapshot event ≠ [])
    (htable : vm.newTable (eventToTable event) e.mem = some (table, mem))
    (hloop : emitLoop vm table (e.snapshot event) { e with mem := mem } =
      (result, onceIds, e')) :
    e.emit vm event = (result, if onceIds = [] then e' else
      { e' with world := e'.world.dropHandlers (fun h => decide (h.id ∈ onceIds)) }) := by
  rw [emit, if_neg hne, htable]
  dsimp only
  rw [hloop]
  dsimp only
  split <;> rfl

/-- **Every event is dispatched**: its handlers are gone through in the order of the queue until
one of them stops it, those that have been removed by then are left out, and once-handlers that
had their turn are gone afterwards. -/
theorem emit_dispatches {e : LuaEngine Fn Ref σ} (hw : e.world.WellFormed) (event : Event)
    (htable : (vm.newTable (eventToTable event) e.mem).isSome) :
    ∃ processed log,
      Dispatched (e.snapshot event) e (e.emit vm event).2 (e.emit vm event).1 processed log ∧
      (∀ h ∈ processed, h.once = true → h ∉ (e.emit vm event).2.world.state.handlers) ∧
      (e.emit vm event).2.world.WellFormed ∧ e.world.Later (e.emit vm event).2.world ∧
      ∃ table mem e', vm.newTable (eventToTable event) e.mem = some (table, mem) ∧
        Turns vm table processed { e with mem := mem } e' log := by
  by_cases hne : e.snapshot event = []
  · have hemit : e.emit vm event = (.proceed, e) := by rw [emit, if_pos hne]
    rw [hemit, hne]
    obtain ⟨⟨table, mem⟩, htable⟩ := Option.isSome_iff_exists.mp htable
    refine ⟨[], [], ⟨List.nil_prefix, .slnil, by simp, rfl, ?_, ?_, ?_⟩, ?_, hw, .refl _,
      table, mem, _, htable, .done⟩
    · exact fun h hh => absurd hh List.not_mem_nil
    · exact fun _ => ⟨rfl, fun c hc => absurd hc List.not_mem_nil⟩
    · exact fun hresult => by cases hresult
    · exact fun h hh => absurd hh List.not_mem_nil
  · obtain ⟨⟨table, mem⟩, htable⟩ := Option.isSome_iff_exists.mp htable
    obtain ⟨processed, log, hd, honce, hw', hlater, hturns⟩ :=
      emitLoop_spec vm table (e.snapshot event) (e := { e with mem := mem }) hw
        (fun h hh => listed_of_mem hw (List.mem_filter.mp hh).1)
    rw [emit_eq vm hne htable rfl]
    generalize emitLoop vm table (e.snapshot event) { e with mem := mem } = r at *
    obtain ⟨result, onceIds, e'⟩ := r
    dsimp only at hd honce hw' hlater hturns ⊢
    by_cases hids : onceIds = []
    · rw [if_pos hids]
      refine ⟨processed, log, ⟨hd.front, hd.order, hd.calls, hd.scripts, hd.skipped,
        hd.proceeds, hd.suppresses⟩, ?_, hw', hlater, table, mem, e', htable, hturns⟩
      intro h hh hfires
      have hmem : h.id ∈ onceIds :=
        honce ▸ List.mem_map_of_mem (List.mem_filter.mpr ⟨hh, hfires⟩)
      rw [hids] at hmem
      cases hmem
    · rw [if_neg hids]
      refine ⟨processed, log, ⟨hd.front, hd.order, hd.calls, hd.scripts, ?_, hd.proceeds,
        hd.suppresses⟩, ?_,
        World.wf_dropHandlers hw' _, hlater.trans (World.later_dropHandlers _ _),
        table, mem, e', htable, hturns⟩
      · exact fun h hh hnot hin => hd.skipped h hh hnot (World.mem_dropHandlers.mp hin).1
      · intro h hh hfires hin
        have hkept := (World.mem_dropHandlers.mp hin).2
        rw [decide_eq_false_iff_not, honce] at hkept
        exact hkept (List.mem_map_of_mem (List.mem_filter.mpr ⟨hh, hfires⟩))

theorem emit_of_no_table {e : LuaEngine Fn Ref σ} {event : Event}
    (htable : vm.newTable (eventToTable event) e.mem = none) :
    e.emit vm event = (.proceed, e) := by
  rw [emit, htable]
  split <;> rfl

end LuaEngine

end Repartee.Scripting
