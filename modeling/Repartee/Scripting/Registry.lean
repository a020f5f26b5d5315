import Repartee.Scripting.Engine

/-!
# What the registry has

The engine files each callback in the registry of the machine under the number of its handler,
command or timer. Numbers are never used twice, so a handler that has been removed does not come
back, whatever a Lua function does while it runs.

## Main definitions

- `World.WellFormed`: the handlers are in order, and the registry has the callbacks that are
  registered
- `World.Later`: what may happen to a world while programs run

## Main results

- `wf_exec`: programs keep the first and stay within the second
- `filed_of_insert`, `Later.trans`: what is filed under a number was registered under it
-/

set_option autoImplicit false

namespace Repartee.Scripting

variable {Fn Ref σ : Type}

/-! ### Keys -/

theorem fmtNat_injective : Function.Injective fmtNat := by
  intro m n h
  have hm : Text.parseInt 0 (max m n) (Text.formatInt m) = .ok (m : Int) :=
    Text.parseInt_formatInt le_rfl (by omega) (by omega) (by omega)
  have hn : Text.parseInt 0 (max m n) (Text.formatInt n) = .ok (n : Int) :=
    Text.parseInt_formatInt le_rfl (by omega) (by omega) (by omega)
  rw [show Text.formatInt (m : Int) = Text.formatInt (n : Int) from h, hn] at hm
  exact Int.ofNat.inj (Except.ok.inj hm).symm

theorem handlerKey_inj {i j : Nat} : handlerKey i = handlerKey j ↔ i = j :=
  ⟨fun h => fmtNat_injective (List.append_cancel_left h), congrArg handlerKey⟩

theorem cmdKey_inj {i j : Nat} : cmdKey i = cmdKey j ↔ i = j :=
  ⟨fun h => fmtNat_injective (List.append_cancel_left h), congrArg cmdKey⟩

theorem timerKey_inj {i j : Nat} : timerKey i = timerKey j ↔ i = j :=
  ⟨fun h => fmtNat_injective (List.append_cancel_left h), congrArg timerKey⟩

/-- The fourth character of a key says what it is the key of. -/
def keyKind (key : Str) : Option Char := key[3]?

@[simp] theorem keyKind_handlerKey (i : Nat) : keyKind (handlerKey i) = some 'a' := rfl

@[simp] theorem keyKind_cmdKey (i : Nat) : keyKind (cmdKey i) = some 'm' := rfl

@[simp] theorem keyKind_timerKey (i : Nat) : keyKind (timerKey i) = some 'e' := rfl

@[simp] theorem keyKind_cleanupKey (name : Str) : keyKind (cleanupKey name) = some 'l' := rfl

@[simp] theorem keyKind_envKey (name : Str) : keyKind (envKey name) = some 'n' := rfl

theorem ne_of_keyKind {k k' : Str} (h : keyKind k ≠ keyKind k') : k ≠ k' :=
  fun he => h (congrArg keyKind he)

/-! ### Lookups -/

namespace World

theorem function?_congr {w w' : World Fn Ref} {k : Str}
    (h : w.registry.lookup k = w'.registry.lookup k) : w.function? k = w'.function? k := by
  rw [function?, function?, h]

theorem function?_insert (w : World Fn Ref) (k : Str) (v : RegistryValue Fn Ref) (k' : Str) :
    ({ w with registry := w.registry.insert k v } : World Fn Ref).function? k' =
      if k = k' then (match v with | .function f => some f | .table _ => none)
      else w.function? k' := by
  rw [function?, function?, Dict.lookup_insert]
  by_cases h : k = k'
  · rw [if_pos h, if_pos h]
    cases v <;> rfl
  · rw [if_neg h, if_neg h]

theorem function?_unset (w : World Fn Ref) (keys : List Str) (k : Str) :
    (w.unset keys).function? k = if k ∈ keys then none else w.function? k := by
  rw [function?, unset, Dict.lookup_retain]
  by_cases h : k ∈ keys
  · rw [if_pos h]
    cases w.registry.lookup k <;> simp [h]
  · rw [if_neg h, function?]
    cases w.registry.lookup k <;> simp [h, Option.filter]

@[simp] theorem state_unset (w : World Fn Ref) (keys : List Str) :
    (w.unset keys).state = w.state := rfl

@[simp] theorem timerIdCounter_unset (w : World Fn Ref) (keys : List Str) :
    (w.unset keys).timerIdCounter = w.timerIdCounter := rfl

/-! ### The invariant -/

/-- The handlers are in order and have numbers of their own, and the registry has exactly the
callbacks of the handlers and the timers, and those of the commands. -/
structure WellFormed (w : World Fn Ref) : Prop where
  ranked : Priority.Ranked LuaHandler.priority LuaHandler.id w.state.handlers
  nodup : (w.state.handlers.map LuaHandler.id).Nodup
  handler : ∀ h ∈ w.state.handlers, h.id < w.state.nextId ∧ h.registryKey = handlerKey h.id
  command : ∀ name c, w.state.commands.lookup name = some c →
    ∃ id < w.state.nextId, c.registryKey = cmdKey id
  ownKey : ∀ name name' c c', w.state.commands.lookup name = some c →
    w.state.commands.lookup name' = some c' → c.registryKey = c'.registryKey → name = name'
  timer : ∀ id t, w.state.timers.lookup id = some t →
    id < w.timerIdCounter ∧ t.registryKey = timerKey id
  handlerIff : ∀ id, (w.function? (handlerKey id)).isSome ↔ ∃ h ∈ w.state.handlers, h.id = id
  commandFiled : ∀ name c, w.state.commands.lookup name = some c →
    (w.function? c.registryKey).isSome
  timerIff : ∀ id, (w.function? (timerKey id)).isSome ↔ (w.state.timers.lookup id).isSome

/-- A key that is made of a number that has been drawn. -/
def Drawn (w : World Fn Ref) (key : Str) : Prop :=
  (∃ id < w.state.nextId, key = handlerKey id ∨ key = cmdKey id) ∨
    ∃ id < w.timerIdCounter, key = timerKey id

/-- The key of a handler, a command or a timer. -/
def Numbered (key : Str) : Prop := ∃ id, key = handlerKey id ∨ key = cmdKey id ∨ key = timerKey id

/-- Callbacks are registered, under keys of their own that are new. -/
def Gives (w w' : World Fn Ref) : Prop :=
  ∃ more, w'.given = w.given ++ more ∧ (more.map Prod.fst).Nodup ∧
    ∀ c ∈ more, ¬ w.Drawn c.1 ∧ w'.Drawn c.1

/-- What may happen to a world while programs run: numbers are drawn, no handler comes back, and
what is filed under the key of a number was filed there before or is registered for it. -/
structure Later (w w' : World Fn Ref) : Prop where
  nextId : w.state.nextId ≤ w'.state.nextId
  timerIdCounter : w.timerIdCounter ≤ w'.timerIdCounter
  old : ∀ h ∈ w'.state.handlers, h.id < w.state.nextId → h ∈ w.state.handlers
  given : w.Gives w'
  filed : ∀ key f, Numbered key → w'.function? key = some f →
    w.function? key = some f ∨ (key, f) ∈ w'.given

theorem not_drawn_handlerKey (w : World Fn Ref) : ¬ w.Drawn (handlerKey w.state.nextId) := by
  rintro (⟨id, hid, hkey | hkey⟩ | ⟨id, -, hkey⟩)
  · exact absurd (handlerKey_inj.mp hkey).symm (Nat.ne_of_lt hid)
  · exact absurd hkey (ne_of_keyKind (by simp))
  · exact absurd hkey (ne_of_keyKind (by simp))

theorem not_drawn_cmdKey (w : World Fn Ref) : ¬ w.Drawn (cmdKey w.state.nextId) := by
  rintro (⟨id, hid, hkey | hkey⟩ | ⟨id, -, hkey⟩)
  · exact absurd hkey (ne_of_keyKind (by simp))
  · exact absurd (cmdKey_inj.mp hkey).symm (Nat.ne_of_lt hid)
  · exact absurd hkey (ne_of_keyKind (by simp))

theorem not_drawn_timerKey (w : World Fn Ref) : ¬ w.Drawn (timerKey w.timerIdCounter) := by
  rintro (⟨id, -, hkey | hkey⟩ | ⟨id, hid, hkey⟩)
  · exact absurd hkey (ne_of_keyKind (by simp))
  · exact absurd hkey (ne_of_keyKind (by simp))
  · exact absurd (timerKey_inj.mp hkey).symm (Nat.ne_of_lt hid)

theorem Drawn.mono {w w' : World Fn Ref} (hid : w.state.nextId ≤ w'.state.nextId)
    (htimer : w.timerIdCounter ≤ w'.timerIdCounter) {key : Str} (h : w.Drawn key) :
    w'.Drawn key := by
  rcases h with ⟨id, hlt, hkey⟩ | ⟨id, hlt, hkey⟩
  · exact .inl ⟨id, hlt.trans_le hid, hkey⟩
  · exact .inr ⟨id, hlt.trans_le htimer, hkey⟩

theorem gives_of_eq {w w' : World Fn Ref} (h : w'.given = w.given) : w.Gives w' :=
  ⟨[], by rw [h, List.append_nil], List.nodup_nil, fun _ hc => absurd hc List.not_mem_nil⟩

theorem Later.refl (w : World Fn Ref) : Later w w :=
  ⟨le_rfl, le_rfl, fun _ hh _ => hh, gives_of_eq rfl, fun _ _ _ hf => .inl hf⟩

theorem Later.trans {w w' w'' : World Fn Ref} (h : Later w w') (h' : Later w' w'') :
    Later w w'' where
  nextId := h.nextId.trans h'.nextId
  timerIdCounter := h.timerIdCounter.trans h'.timerIdCounter
  old x hx hlt := h.old x (h'.old x hx (hlt.trans_le h.nextId)) hlt
  given := by
    obtain ⟨more, heq, hnodup, hnew⟩ := h.given
    obtain ⟨more', heq', hnodup', hnew'⟩ := h'.given
    refine ⟨more ++ more', by rw [heq', heq, List.append_assoc], ?_, ?_⟩
    · -- what is new later was not drawn when the first ones were
      rw [List.map_append]
      refine hnodup.append hnodup' ?_
      intro key hkey hkey'
      obtain ⟨c, hc, rfl⟩ := List.mem_map.mp hkey
      obtain ⟨c', hc', heq⟩ := List.mem_map.mp hkey'
      exact (hnew' c' hc').1 (heq ▸ (hnew c hc).2)
    · intro c hc
      rcases List.mem_append.mp hc with hc | hc
      · exact ⟨(hnew c hc).1, (hnew c hc).2.mono h'.nextId h'.timerIdCounter⟩
      · exact ⟨fun hd => (hnew' c hc).1 (hd.mono h.nextId h.timerIdCounter), (hnew' c hc).2⟩
  filed key f hkey hf := by
    rcases h'.filed key f hkey hf with hf | hgiven
    · rcases h.filed key f hkey hf with hf | hgiven
      · exact .inl hf
      · obtain ⟨more, heq, -⟩ := h'.given
        exact .inr (heq ▸ List.mem_append_left more hgiven)
    · exact .inr hgiven

theorem gives_concat {w w' : World Fn Ref} {key : Str} {callback : Fn}
    (h : w'.given = w.given ++ [(key, callback)]) (hold : ¬ w.Drawn key) (hnew : w'.Drawn key) :
    w.Gives w' := by
  refine ⟨_, h, List.nodup_singleton key, fun c hc => ?_⟩
  rw [List.mem_singleton.mp hc]
  exact ⟨hold, hnew⟩

theorem filed_of_insert {w w' : World Fn Ref} {key : Str} {callback : Fn}
    (h : w'.given = w.given ++ [(key, callback)])
    (hf : ∀ k, w'.function? k = if key = k then some callback else w.function? k) :
    ∀ k f, Numbered k → w'.function? k = some f → w.function? k = some f ∨ (k, f) ∈ w'.given := by
  intro k f _ hfiled
  rw [hf] at hfiled
  split_ifs at hfiled with hkey
  · rw [h, ← hkey, ← Option.some.inj hfiled]
    exact .inr (List.mem_append_right _ List.mem_cons_self)
  · exact .inl hfiled

theorem later_unset (w : World Fn Ref) (keys : List Str) : w.Later (w.unset keys) where
  nextId := le_rfl
  timerIdCounter := le_rfl
  old _ hh _ := hh
  given := gives_of_eq rfl
  filed key f _ hf := by
    rw [function?_unset] at hf
    split_ifs at hf
    exact .inl hf

/-- A registry in which the same functions are filed serves as well. -/
theorem WellFormed.congr {w w' : World Fn Ref} (hw : w.WellFormed) (hs : w'.state = w.state)
    (ht : w'.timerIdCounter = w.timerIdCounter)
    (hf : ∀ k, keyKind k ≠ some 'l' → keyKind k ≠ some 'n' → w'.function? k = w.function? k) :
    w'.WellFormed where
  ranked := hs ▸ hw.ranked
  nodup := hs ▸ hw.nodup
  handler := hs ▸ hw.handler
  command := hs ▸ hw.command
  ownKey := hs ▸ hw.ownKey
  timer := by rw [hs, ht]; exact hw.timer
  handlerIff id := by
    rw [hs, hf _ (by rw [keyKind_handlerKey]; decide) (by rw [keyKind_handlerKey]; decide)]
    exact hw.handlerIff id
  commandFiled name c hc := by
    rw [hs] at hc
    obtain ⟨id, -, hkey⟩ := hw.command name c hc
    rw [hf _ (by rw [hkey, keyKind_cmdKey]; decide) (by rw [hkey, keyKind_cmdKey]; decide)]
    exact hw.commandFiled name c hc
  timerIff id := by
    rw [hs, hf _ (by rw [keyKind_timerKey]; decide) (by rw [keyKind_timerKey]; decide)]
    exact hw.timerIff id

/-! ### Handlers -/

theorem state_register (w : World Fn Ref) (owner eventName : Str) (callback : Fn)
    (priority : Option Int) (once : Bool) (hw : w.WellFormed) :
    (w.register owner eventName callback priority once).state = { w.state with
      nextId := w.state.nextId + 1
      handlers := Priority.insertDesc LuaHandler.priority ⟨eventName, handlerKey w.state.nextId,
        priority.getD Priority.normal.toI32, once, owner, w.state.nextId⟩ w.state.handlers } := by
  rw [register, Priority.sortDesc_concat _ hw.ranked.falling]

theorem wf_register {w : World Fn Ref} (hw : w.WellFormed) (owner eventName : Str) (callback : Fn)
    (priority : Option Int) (once : Bool) :
    (w.register owner eventName callback priority once).WellFormed := by
  have hs := state_register w owner eventName callback priority once hw
  have hf : ∀ k, (w.register owner eventName callback priority once).function? k =
      if handlerKey w.state.nextId = k then some callback else w.function? k :=
    fun k => function?_insert w _ (.function callback) k
  have hkind : ∀ k, keyKind k ≠ some 'a' →
      (w.register owner eventName callback priority once).function? k = w.function? k := by
    intro k hk
    rw [hf, if_neg (ne_of_keyKind (by rw [keyKind_handlerKey]; exact hk.symm))]
  constructor
  · rw [hs]
    exact Priority.ranked_insertDesc _ _ hw.ranked (fun h hh => (hw.handler h hh).1)
  · rw [hs]
    rw [((Priority.insertDesc_perm _ _ _).map LuaHandler.id).nodup_iff, List.map_cons,
      List.nodup_cons]
    refine ⟨fun hmem => ?_, hw.nodup⟩
    obtain ⟨h, hh, hid⟩ := List.mem_map.mp hmem
    exact absurd hid (Nat.ne_of_lt (hw.handler h hh).1)
  · rw [hs]
    intro h hh
    rcases (Priority.mem_insertDesc _ _).mp hh with rfl | hh
    · exact ⟨Nat.lt_succ_self _, rfl⟩
    · exact ⟨Nat.lt_succ_of_lt (hw.handler h hh).1, (hw.handler h hh).2⟩
  · rw [hs]
    intro name c hc
    obtain ⟨id, hid, hkey⟩ := hw.command name c hc
    exact ⟨id, Nat.lt_succ_of_lt hid, hkey⟩
  · rw [hs]
    exact hw.ownKey
  · rw [hs]
    exact hw.timer
  · intro id
    rw [hs, hf, apply_ite Option.isSome]
    simp only [handlerKey_inj, Option.isSome_some, Priority.mem_insertDesc]
    by_cases h : w.state.nextId = id
    · rw [if_pos h]
      exact iff_of_true rfl ⟨_, .inl rfl, h⟩
    · rw [if_neg h, hw.handlerIff]
      constructor
      · rintro ⟨x, hx, hid⟩
        exact ⟨x, .inr hx, hid⟩
      · rintro ⟨x, rfl | hx, hid⟩
        · exact absurd hid h
        · exact ⟨x, hx, hid⟩
  · intro name c hc
    rw [hs] at hc
    obtain ⟨id, -, hkey⟩ := hw.command name c hc
    rw [hkind _ (by rw [hkey, keyKind_cmdKey]; decide)]
    exact hw.commandFiled name c hc
  · intro id
    rw [hs, hkind _ (by rw [keyKind_timerKey]; decide)]
    exact hw.timerIff id

theorem later_register {w : World Fn Ref} (hw : w.WellFormed) (owner eventName : Str)
    (callback : Fn) (priority : Option Int) (once : Bool) :
    w.Later (w.register owner eventName callback priority once) := by
  have hs := state_register w owner eventName callback priority once hw
  refine ⟨Nat.le_succ _, le_rfl, ?_, gives_concat rfl w.not_drawn_handlerKey
    (.inl ⟨_, Nat.lt_succ_self _, .inl rfl⟩), filed_of_insert rfl
    (fun k => function?_insert w _ (.function callback) k)⟩
  rw [hs]
  intro h hh hlt
  rcases (Priority.mem_insertDesc _ _).mp hh with rfl | hh
  · exact absurd hlt (lt_irrefl _)
  · exact hh

theorem mem_dropHandlers {w : World Fn Ref} {gone : LuaHandler → Bool} {h : LuaHandler} :
    h ∈ (w.dropHandlers gone).state.handlers ↔ h ∈ w.state.handlers ∧ gone h = false := by
  simp [dropHandlers, List.mem_filter]

theorem mem_keys_dropHandlers {w : World Fn Ref} (hw : w.WellFormed) {gone : LuaHandler → Bool}
    {k : Str} : k ∈ (w.state.handlers.filter gone).map LuaHandler.registryKey ↔
      ∃ h ∈ w.state.handlers, gone h = true ∧ handlerKey h.id = k := by
  simp only [List.mem_map, List.mem_filter, and_assoc]
  constructor
  · rintro ⟨h, hh, hgone, rfl⟩
    exact ⟨h, hh, hgone, (hw.handler h hh).2.symm⟩
  · rintro ⟨h, hh, hgone, rfl⟩
    exact ⟨h, hh, hgone, (hw.handler h hh).2⟩

/-- Two handlers of one number are one handler. -/
theorem WellFormed.eq_of_id {w : World Fn Ref} (hw : w.WellFormed) {h h' : LuaHandler}
    (hh : h ∈ w.state.handlers) (hh' : h' ∈ w.state.handlers) (hid : h.id = h'.id) : h = h' :=
  List.inj_on_of_nodup_map hw.nodup hh hh' hid

theorem wf_dropHandlers {w : World Fn Ref} (hw : w.WellFormed) (gone : LuaHandler → Bool) :
    (w.dropHandlers gone).WellFormed := by
  have hf : ∀ k, (w.dropHandlers gone).function? k =
      if ∃ h ∈ w.state.handlers, gone h = true ∧ handlerKey h.id = k then none
      else w.function? k := by
    intro k
    rw [dropHandlers, function?_unset]
    exact if_congr (mem_keys_dropHandlers hw) rfl rfl
  have hkind : ∀ k, keyKind k ≠ some 'a' → (w.dropHandlers gone).function? k = w.function? k := by
    intro k hk
    rw [hf, if_neg]
    rintro ⟨h, -, -, rfl⟩
    exact hk (keyKind_handlerKey h.id)
  constructor
  · exact List.Pairwise.filter _ hw.ranked
  · exact hw.nodup.sublist (List.filter_sublist.map _)
  · exact fun h hh => hw.handler h (mem_dropHandlers.mp hh).1
  · exact hw.command
  · exact hw.ownKey
  · exact hw.timer
  · intro id
    rw [hf]
    by_cases hid : ∃ h ∈ w.state.handlers, gone h = true ∧ handlerKey h.id = handlerKey id
    · rw [if_pos hid]
      obtain ⟨h, hh, hgone, hkey⟩ := hid
      refine iff_of_false Bool.false_ne_true ?_
      rintro ⟨x, hx, hxid⟩
      obtain ⟨hx, hkept⟩ := mem_dropHandlers.mp hx
      rw [hw.eq_of_id hh hx ((handlerKey_inj.mp hkey).trans hxid.symm), hkept] at hgone
      exact Bool.false_ne_true hgone
    · rw [if_neg hid, hw.handlerIff]
      constructor
      · rintro ⟨x, hx, rfl⟩
        refine ⟨x, mem_dropHandlers.mpr ⟨hx, ?_⟩, rfl⟩
        exact Bool.eq_false_iff.mpr (fun hgone => hid ⟨x, hx, hgone, rfl⟩)
      · rintro ⟨x, hx, hxid⟩
        exact ⟨x, (mem_dropHandlers.mp hx).1, hxid⟩
  · intro name c hc
    obtain ⟨id, -, hkey⟩ := hw.command name c hc
    rw [hkind _ (by rw [hkey, keyKind_cmdKey]; decide)]
    exact hw.commandFiled name c hc
  · intro id
    rw [hkind _ (by rw [keyKind_timerKey]; decide)]
    exact hw.timerIff id

theorem later_dropHandlers (w : World Fn Ref) (gone : LuaHandler → Bool) :
    w.Later (w.dropHandlers gone) :=
  ⟨le_rfl, le_rfl, fun _ hh _ => (mem_dropHandlers.mp hh).1, gives_of_eq rfl,
    (later_unset w _).filed⟩

theorem eraseP_id {hs : List LuaHandler} (hnd : (hs.map LuaHandler.id).Nodup) (id : Nat) :
    hs.eraseP (fun h => decide (h.id = id)) = hs.filter (fun h => !decide (h.id = id)) := by
  induction hs with
  | nil => rfl
  | cons h hs ih =>
    obtain ⟨hnot, hnd⟩ := List.nodup_cons.mp hnd
    by_cases hid : h.id = id
    · rw [List.eraseP_cons_of_pos (by simp [hid]), List.filter_cons_of_neg (by simp [hid])]
      refine (List.filter_eq_self.mpr (fun x hx => ?_)).symm
      have hxid : x.id ≠ id := fun he => hnot (hid ▸ he ▸ List.mem_map_of_mem hx)
      simp [hxid]
    · rw [List.eraseP_cons_of_neg (by simp [hid]), List.filter_cons_of_pos (by simp [hid]),
        ih hnd]

/-- `api.off` removes the handler of that number with its callback, if there is one. -/
theorem off_eq {w : World Fn Ref} (hw : w.WellFormed) (id : Nat) :
    (w.off id = w ∧ ∀ h ∈ w.state.handlers, h.id ≠ id) ∨
      w.off id = w.dropHandlers (fun h => decide (h.id = id)) := by
  rw [off]
  cases hfind : w.state.handlers.find? (fun h => decide (h.id = id)) with
  | none => exact .inl ⟨rfl, fun h hh => by simpa using List.find?_eq_none.mp hfind h hh⟩
  | some h =>
    right
    have hh := List.mem_of_find?_eq_some hfind
    have hid : h.id = id := by simpa using List.find?_some hfind
    -- no other handler has that number
    have hfilter : w.state.handlers.filter (fun x => decide (x.id = id)) = [h] := by
      have hnd := hw.ranked.nodup.filter (fun x => decide (x.id = id))
      refine List.perm_singleton.mp ((List.perm_ext_iff_of_nodup hnd
        (List.nodup_singleton h)).mpr (fun x => ?_))
      rw [List.mem_filter, List.mem_singleton, decide_eq_true_eq]
      constructor
      · rintro ⟨hx, hxid⟩
        exact hw.eq_of_id hx hh (hxid.trans hid.symm)
      · rintro rfl
        exact ⟨hh, hid⟩
    rw [dropHandlers, hfilter, eraseP_id hw.nodup]
    rfl

/-! ### Commands -/

theorem wf_command {w : World Fn Ref} (hw : w.WellFormed) (owner name : Str) (handler : Fn)
    (description usage : Str) : (w.command owner name handler description usage).WellFormed := by
  have hf : ∀ k, (w.command owner name handler description usage).function? k =
      if cmdKey w.state.nextId = k then some handler else w.function? k :=
    fun k => function?_insert w _ (.function handler) k
  have hkind : ∀ k, keyKind k ≠ some 'm' →
      (w.command owner name handler description usage).function? k = w.function? k := by
    intro k hk
    rw [hf, if_neg (ne_of_keyKind (by rw [keyKind_cmdKey]; exact hk.symm))]
  have hlookup : ∀ n, (w.command owner name handler description usage).state.commands.lookup n =
      if name = n then some ⟨owner, cmdKey w.state.nextId⟩ else w.state.commands.lookup n :=
    fun n => Dict.lookup_insert _ _ _ n
  have hfresh : ∀ n c, w.state.commands.lookup n = some c →
      c.registryKey ≠ cmdKey w.state.nextId := by
    intro n c hc hkey
    obtain ⟨id, hid, hkey'⟩ := hw.command n c hc
    exact absurd (cmdKey_inj.mp (hkey'.symm.trans hkey)) (Nat.ne_of_lt hid)
  constructor
  · exact hw.ranked
  · exact hw.nodup
  · exact fun h hh => ⟨Nat.lt_succ_of_lt (hw.handler h hh).1, (hw.handler h hh).2⟩
  · intro n c hc
    rw [hlookup] at hc
    split at hc
    · obtain rfl := Option.some.inj hc
      exact ⟨w.state.nextId, Nat.lt_succ_self _, rfl⟩
    · obtain ⟨id, hid, hkey⟩ := hw.command n c hc
      exact ⟨id, Nat.lt_succ_of_lt hid, hkey⟩
  · intro n n' c c' hc hc' hkey
    rw [hlookup] at hc hc'
    split at hc <;> split at hc'
    · rename_i hn hn'
      exact hn.symm.trans hn'
    · obtain rfl := Option.some.inj hc
      exact absurd hkey.symm (hfresh n' c' hc')
    · obtain rfl := Option.some.inj hc'
      exact absurd hkey (hfresh n c hc)
    · exact hw.ownKey n n' c c' hc hc' hkey
  · exact hw.timer
  · intro id
    rw [hkind _ (by rw [keyKind_handlerKey]; decide)]
    exact hw.handlerIff id
  · intro n c hc
    rw [hlookup] at hc
    split at hc
    · obtain rfl := Option.some.inj hc
      rw [hf, if_pos rfl]
      rfl
    · rw [hf, if_neg (fun h => hfresh n c hc h.symm)]
      exact hw.commandFiled n c hc
  · intro id
    rw [hkind _ (by rw [keyKind_timerKey]; decide)]
    exact hw.timerIff id

/-- Commands may be removed, together with their callbacks. -/
theorem wf_removeCommands {w w' : World Fn Ref} (hw : w.WellFormed)
    (kept : Str → LuaCommand → Bool) (keys : List Str)
    (hs : w'.state = { w.state with commands := w.state.commands.retain kept })
    (ht : w'.timerIdCounter = w.timerIdCounter)
    (hf : ∀ k, w'.function? k = if k ∈ keys then none else w.function? k)
    (hkeys : ∀ k, k ∈ keys ↔
      ∃ name c, w.state.commands.lookup name = some c ∧ kept name c = false ∧ c.registryKey = k) :
    w'.WellFormed := by
  have hkind : ∀ k, keyKind k ≠ some 'm' → w'.function? k = w.function? k := by
    intro k hk
    rw [hf, if_neg]
    intro hmem
    obtain ⟨name, c, hc, -, rfl⟩ := (hkeys k).mp hmem
    obtain ⟨id, -, hkey⟩ := hw.command name c hc
    exact hk (hkey ▸ keyKind_cmdKey id)
  have hold : ∀ name c, w'.state.commands.lookup name = some c →
      w.state.commands.lookup name = some c ∧ kept name c = true := by
    intro name c hc
    rw [hs] at hc
    exact Dict.lookup_of_retain hc
  constructor
  · rw [hs]
    exact hw.ranked
  · rw [hs]
    exact hw.nodup
  · rw [hs]
    exact hw.handler
  · intro name c hc
    rw [hs]
    exact hw.command name c (hold name c hc).1
  · exact fun n n' c c' hc hc' => hw.ownKey n n' c c' (hold n c hc).1 (hold n' c' hc').1
  · rw [hs, ht]
    exact hw.timer
  · intro id
    rw [hs, hkind _ (by rw [keyKind_handlerKey]; decide)]
    exact hw.handlerIff id
  · intro name c hc
    obtain ⟨hc, hkept⟩ := hold name c hc
    rw [hf, if_neg]
    · exact hw.commandFiled name c hc
    · intro hmem
      obtain ⟨n, c', hc', hgone, hkey⟩ := (hkeys _).mp hmem
      obtain rfl := hw.ownKey n name c' c hc' hc hkey
      rw [hc] at hc'
      rw [Option.some.inj hc', hgone] at hkept
      exact Bool.false_ne_true hkept
  · intro id
    rw [hs, hkind _ (by rw [keyKind_timerKey]; decide)]
    exact hw.timerIff id

theorem wf_dropCommands {w : World Fn Ref} (hw : w.WellFormed) (name : Str) :
    (w.dropCommands name).WellFormed := by
  refine wf_removeCommands hw _ _ rfl rfl (fun k => function?_unset _ _ k) (fun k => ?_)
  simp only [List.mem_map, List.mem_filter, decide_eq_true_eq, decide_eq_false_iff_not, not_not,
    Dict.values, Prod.exists, exists_eq_right, and_assoc, Dict.mem_rows_iff_lookup]
  constructor
  · rintro ⟨c, ⟨n, hc⟩, hname, hkey⟩
    exact ⟨n, c, hc, hname, hkey⟩
  · rintro ⟨n, c, hc, hname, hkey⟩
    exact ⟨c, ⟨n, hc⟩, hname, hkey⟩

theorem erase_eq_retain {κ ν : Type} [DecidableEq κ] (d : Dict κ ν) (k : κ) :
    d.erase k = d.retain (fun k' _ => decide (k' ≠ k)) := by
  refine congrArg (Table.deleteWhere d) (funext fun e => ?_)
  simp

theorem wf_removeCommand {w : World Fn Ref} (hw : w.WellFormed) (name : Str) :
    (w.removeCommand name).WellFormed := by
  cases hc : w.state.commands.lookup name with
  | none =>
    refine wf_removeCommands hw (fun n _ => decide (n ≠ name)) [] ?_ ?_ ?_ ?_
    · rw [removeCommand, hc, erase_eq_retain]
    · rw [removeCommand, hc]
    · intro k
      rw [removeCommand, hc, if_neg List.not_mem_nil]
      rfl
    · intro k
      refine iff_of_false List.not_mem_nil ?_
      rintro ⟨n, c, hn, hgone, -⟩
      rw [decide_eq_false_iff_not, not_not] at hgone
      rw [hgone, hc] at hn
      cases hn
  | some c =>
    refine wf_removeCommands hw (fun n _ => decide (n ≠ name)) [c.registryKey] ?_ ?_ ?_ ?_
    · rw [removeCommand, hc, erase_eq_retain]
      rfl
    · rw [removeCommand, hc]
      rfl
    · intro k
      rw [removeCommand, hc]
      exact function?_unset _ _ k
    · intro k
      rw [List.mem_singleton]
      constructor
      · rintro rfl
        exact ⟨name, c, hc, by simp, rfl⟩
      · rintro ⟨n, c', hn, hgone, rfl⟩
        rw [decide_eq_false_iff_not, not_not] at hgone
        rw [hgone, hc] at hn
        rw [Option.some.inj hn]

/-! ### Timers -/

theorem wf_startTimer {w : World Fn Ref} (hw : w.WellFormed) (owner : Str) (callback : Fn)
    (action : Nat → ScriptAction) : (w.startTimer owner callback action).WellFormed := by
  have hf : ∀ k, (w.startTimer owner callback action).function? k =
      if timerKey w.timerIdCounter = k then some callback else w.function? k :=
    fun k => function?_insert w _ (.function callback) k
  have hkind : ∀ k, keyKind k ≠ some 'e' →
      (w.startTimer owner callback action).function? k = w.function? k := by
    intro k hk
    rw [hf, if_neg (ne_of_keyKind (by rw [keyKind_timerKey]; exact hk.symm))]
  have hlookup : ∀ id, (w.startTimer owner callback action).state.timers.lookup id =
      if w.timerIdCounter = id then some ⟨timerKey w.timerIdCounter, owner⟩
      else w.state.timers.lookup id :=
    fun id => Dict.lookup_insert _ _ _ id
  constructor
  · exact hw.ranked
  · exact hw.nodup
  · exact hw.handler
  · exact hw.command
  · exact hw.ownKey
  · intro id t ht
    rw [hlookup] at ht
    split at ht
    · rename_i hid
      obtain rfl := Option.some.inj ht
      exact ⟨hid ▸ Nat.lt_succ_self _, hid ▸ rfl⟩
    · exact ⟨Nat.lt_succ_of_lt (hw.timer id t ht).1, (hw.timer id t ht).2⟩
  · intro id
    rw [hkind _ (by rw [keyKind_handlerKey]; decide)]
    exact hw.handlerIff id
  · intro name c hc
    obtain ⟨id, -, hkey⟩ := hw.command name c hc
    rw [hkind _ (by rw [hkey, keyKind_cmdKey]; decide)]
    exact hw.commandFiled name c hc
  · intro id
    rw [hf, hlookup]
    simp only [timerKey_inj]
    split
    · rfl
    · exact hw.timerIff id

theorem wf_dropTimers {w : World Fn Ref} (hw : w.WellFormed) (name : Str) :
    (w.dropTimers name).WellFormed := by
  classical
  have hkeys : ∀ k, k ∈ (w.state.timers.values.filter
      (fun t => decide (t.scriptName = name))).map LuaTimer.registryKey ↔
      ∃ id t, w.state.timers.lookup id = some t ∧ t.scriptName = name ∧ timerKey id = k := by
    intro k
    simp only [List.mem_map, List.mem_filter, decide_eq_true_eq, Dict.values, Prod.exists,
      exists_eq_right, and_assoc, Dict.mem_rows_iff_lookup]
    constructor
    · rintro ⟨t, ⟨id, ht⟩, hname, hkey⟩
      exact ⟨id, t, ht, hname, (hw.timer id t ht).2 ▸ hkey⟩
    · rintro ⟨id, t, ht, hname, hkey⟩
      exact ⟨t, ⟨id, ht⟩, hname, (hw.timer id t ht).2.trans hkey⟩
  have hf : ∀ k, (w.dropTimers name).function? k =
      if ∃ id t, w.state.timers.lookup id = some t ∧ t.scriptName = name ∧ timerKey id = k then none
      else w.function? k := by
    intro k
    rw [dropTimers, function?_unset]
    exact if_congr (hkeys k) rfl rfl
  have hkind : ∀ k, keyKind k ≠ some 'e' → (w.dropTimers name).function? k = w.function? k := by
    intro k hk
    rw [hf, if_neg]
    rintro ⟨id, -, -, -, rfl⟩
    exact hk (keyKind_timerKey id)
  have hlookup : ∀ id, (w.dropTimers name).state.timers.lookup id =
      (w.state.timers.lookup id).filter (fun t => decide (t.scriptName ≠ name)) :=
    fun id => Dict.lookup_retain _ _ id
  constructor
  · exact hw.ranked
  · exact hw.nodup
  · exact hw.handler
  · exact hw.command
  · exact hw.ownKey
  · exact fun id t ht => hw.timer id t (Dict.lookup_of_retain ht).1
  · intro id
    rw [hkind _ (by rw [keyKind_handlerKey]; decide)]
    exact hw.handlerIff id
  · intro n c hc
    obtain ⟨id, -, hkey⟩ := hw.command n c hc
    rw [hkind _ (by rw [hkey, keyKind_cmdKey]; decide)]
    exact hw.commandFiled n c hc
  · intro id
    rw [hf, hlookup]
    cases ht : w.state.timers.lookup id with
    | none =>
      rw [if_neg, hw.timerIff, ht]
      · rfl
      · rintro ⟨i, t, hi, -, hkey⟩
        rw [timerKey_inj.mp hkey, ht] at hi
        cases hi
    | some t =>
      by_cases hname : t.scriptName = name
      · rw [if_pos ⟨id, t, ht, hname, rfl⟩]
        simp [Option.filter, hname]
      · rw [if_neg, hw.timerIff, ht]
        · simp [Option.filter, hname]
        · rintro ⟨i, t', hi, hname', hkey⟩
          rw [timerKey_inj.mp hkey, ht] at hi
          rw [Option.some.inj hi] at hname
          exact hname hname'

/-! ### Programs -/

theorem wf_off {w : World Fn Ref} (hw : w.WellFormed) (id : Nat) : (w.off id).WellFormed := by
  rcases off_eq hw id with ⟨h, -⟩ | h
  · rw [h]
    exact hw
  · rw [h]
    exact wf_dropHandlers hw _

theorem later_off {w : World Fn Ref} (hw : w.WellFormed) (id : Nat) : w.Later (w.off id) := by
  rcases off_eq hw id with ⟨h, -⟩ | h
  · rw [h]
    exact Later.refl w
  · rw [h]
    exact later_dropHandlers w _

theorem later_command (w : World Fn Ref) (owner name : Str) (handler : Fn)
    (description usage : Str) : w.Later (w.command owner name handler description usage) :=
  ⟨Nat.le_succ _, le_rfl, fun _ hh _ => hh, gives_concat rfl w.not_drawn_cmdKey
    (.inl ⟨_, Nat.lt_succ_self _, .inr rfl⟩), filed_of_insert rfl
    (fun k => function?_insert w _ (.function handler) k)⟩

theorem later_removeCommand (w : World Fn Ref) (name : Str) : w.Later (w.removeCommand name) := by
  rw [removeCommand]
  cases w.state.commands.lookup name with
  | none => exact ⟨le_rfl, le_rfl, fun _ hh _ => hh, gives_of_eq rfl, fun _ _ _ hf => .inl hf⟩
  | some c =>
    exact ⟨le_rfl, le_rfl, fun _ hh _ => hh, gives_of_eq rfl,
      (later_unset w [c.registryKey]).filed⟩

theorem later_startTimer (w : World Fn Ref) (owner : Str) (callback : Fn)
    (action : Nat → ScriptAction) : w.Later (w.startTimer owner callback action) :=
  ⟨le_rfl, Nat.le_succ _, fun _ hh _ => hh, gives_concat rfl w.not_drawn_timerKey
    (.inr ⟨_, Nat.lt_succ_self _, rfl⟩), filed_of_insert rfl
    (fun k => function?_insert w _ (.function callback) k)⟩

theorem later_dropCommands (w : World Fn Ref) (name : Str) : w.Later (w.dropCommands name) :=
  ⟨le_rfl, le_rfl, fun _ hh _ => hh, gives_of_eq rfl, (later_unset w _).filed⟩

theorem later_dropTimers (w : World Fn Ref) (name : Str) : w.Later (w.dropTimers name) :=
  ⟨le_rfl, le_rfl, fun _ hh _ => hh, gives_of_eq rfl, (later_unset w _).filed⟩

/-- The keys of scripts are not made of numbers. -/
theorem later_insert (w : World Fn Ref) {key : Str}
    (hkey : keyKind key = some 'l' ∨ keyKind key = some 'n') (v : RegistryValue Fn Ref) :
    w.Later { w with registry := w.registry.insert key v } := by
  refine ⟨le_rfl, le_rfl, fun _ hh _ => hh, gives_of_eq rfl, fun k f hk hf => .inl ?_⟩
  have hne : key ≠ k := by
    rintro rfl
    obtain ⟨id, rfl | rfl | rfl⟩ := hk <;> simp at hkey
  rwa [function?_insert, if_neg hne] at hf

/-- **Programs keep the registry**, whatever they do, and stay within what may happen. -/
theorem wf_exec (p : Prog Fn σ) :
    ∀ {w : World Fn Ref}, w.WellFormed → (exec p w).2.2.WellFormed ∧ w.Later (exec p w).2.2 := by
  induction p with
  | done reply mem => exact fun {w} hw => ⟨hw, Later.refl w⟩
  | on owner eventName callback priority next ih =>
    intro w hw
    have h := ih w.state.nextId (wf_register hw owner eventName callback priority false)
    exact ⟨h.1, (later_register hw owner eventName callback priority false).trans h.2⟩
  | once owner eventName callback priority next ih =>
    intro w hw
    have h := ih w.state.nextId (wf_register hw owner eventName callback priority true)
    exact ⟨h.1, (later_register hw owner eventName callback priority true).trans h.2⟩
  | off id next ih =>
    intro w hw
    have h := ih (wf_off hw id)
    exact ⟨h.1, (later_off hw id).trans h.2⟩
  | command owner name handler description usage next ih =>
    intro w hw
    have h := ih (wf_command hw owner name handler description usage)
    exact ⟨h.1, (later_command w owner name handler description usage).trans h.2⟩
  | removeCommand name next ih =>
    intro w hw
    have h := ih (wf_removeCommand hw name)
    exact ⟨h.1, (later_removeCommand w name).trans h.2⟩
  | timer owner ms callback next ih =>
    intro w hw
    have h := ih w.timerIdCounter (wf_startTimer hw owner callback (fun id => .startTimer id ms))
    exact ⟨h.1, (later_startTimer w owner callback _).trans h.2⟩
  | timeout owner ms callback next ih =>
    intro w hw
    have h := ih w.timerIdCounter (wf_startTimer hw owner callback (fun id => .startTimeout id ms))
    exact ⟨h.1, (later_startTimer w owner callback _).trans h.2⟩
  | cancelTimer id next ih =>
    intro w hw
    have h := ih (w := w.cancelTimer id)
      (hw.congr rfl rfl (fun k _ _ => function?_congr rfl))
    exact ⟨h.1, ⟨h.2.nextId, h.2.timerIdCounter, h.2.old, h.2.given, h.2.filed⟩⟩

end World

end Repartee.Scripting
