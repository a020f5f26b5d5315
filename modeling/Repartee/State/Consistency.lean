import Repartee.State.History

/-!
# Consistency of the store

Every buffer is stored under its own id, which is made of its connection and name, its users under
their nicks in lowercase, and the active buffer exists. A buffer is active as soon as one has been
activated, until the store has become empty.

## Main definitions

- `Consistent`: the invariant
- `Orderly`: the steps that keep it

## Main results

- `store_consistent`: sessions of orderly steps
-/

set_option autoImplicit false

namespace Repartee

namespace Store

variable (h : Host)

/-- A buffer fits the key that it is stored under. -/
structure Fits (limit : Nat) (key : Str) (b : Buffer) : Prop where
  id : b.id = key
  key : key = makeBufferId h b.connectionId b.name
  users : KeyedByNick h b.users
  speakers : DistinctSpeakers h b.lastSpeakers
  bounded : limit ≠ 0 → b.messages.length ≤ limit

structure Consistent (s : State) : Prop where
  buffers : ∀ key b, s.buffer? key = some b → Fits h s.scrollbackLimit key b
  active : ∀ id, s.activeBufferId = some id → s.hasBuffer id = true

theorem Fits.continues {limit : Nat} {key : Str} {b b' : Buffer} (hb : Fits h limit key b)
    (hc : Continues h limit key b b') : Fits h limit key b' where
  id := hc.id.trans hb.id
  key := by rw [hc.connectionId, hc.name]; exact hb.key
  users := hc.users hb.users
  speakers := hc.speakers hb.speakers
  bounded := fun hlimit =>
    hc.bounded hlimit (hb.key ▸ makeBufferId_ne_mentionsId h _ _) (hb.bounded hlimit)

theorem distinctSpeakers_nil : DistinctSpeakers h [] := ⟨Nat.zero_le _, List.Pairwise.nil⟩

theorem keyedByNick_empty : KeyedByNick h Table.empty := by
  intro key entry hentry
  cases hentry

theorem fits_freshBuffer (limit : Nat) (connId : Str) (bufferType : BufferType) (name : Str) :
    Fits h limit (makeBufferId h connId name) (freshBuffer h connId bufferType name) :=
  ⟨rfl, rfl, keyedByNick_empty h, distinctSpeakers_nil h, fun _ => Nat.zero_le _⟩

theorem Fits.reset {limit : Nat} {key : Str} {b : Buffer} (hb : Fits h limit key b) :
    Fits h limit key (State.Buffer.reset b) :=
  ⟨hb.id, hb.key, keyedByNick_empty h, distinctSpeakers_nil h, hb.bounded⟩

variable {h}

theorem Consistent.quiet {s s' : State} (hs : Consistent h s) (hq : Quiet h s s') :
    Consistent h s' where
  buffers := by
    intro key b' hb'
    obtain ⟨b, hb, hc⟩ := hq.buffer_of_some' hb'
    rw [hq.limit]
    exact (hs.buffers key b hb).continues h hc
  active := by
    intro id hid
    rw [hq.active] at hid
    rw [hq.hasBuffer]
    exact hs.active id hid

theorem hasBuffer_of_buffer {s : State} {key : Str} {b : Buffer} (hb : s.buffer? key = some b) :
    s.hasBuffer key = true := by
  rw [State.hasBuffer, hb]
  rfl

theorem buffer_of_hasBuffer {s : State} {key : Str} (hexists : s.hasBuffer key = true) :
    ∃ b, s.buffer? key = some b :=
  Option.isSome_iff_exists.mp hexists

/-- The sorted list holds the ids of the buffers. -/
theorem Consistent.hasBuffer_of_sorted {s : State} (hs : Consistent h s) {id : Str}
    (hid : id ∈ s.sortedBufferIds h) : s.hasBuffer id = true := by
  obtain ⟨b, hb, rfl⟩ := List.mem_map.mp hid
  obtain ⟨⟨key, _⟩, hrow, rfl⟩ := List.mem_map.mp ((List.perm_insertionSort _ _).mem_iff.mp hb)
  have hlookup : s.buffer? key = some _ := Dict.mem_rows_iff_lookup.mp hrow
  rw [(hs.buffers key _ hlookup).id]
  exact hasBuffer_of_buffer hlookup

variable (h)

theorem sortedBufferIds_eq_nil {s : State} (hnil : s.sortedBufferIds h = []) :
    s.buffers.rows = [] := by
  have hlen := congrArg List.length hnil
  rw [State.sortedBufferIds, List.length_map, List.length_insertionSort, Dict.values,
    List.length_map, List.length_nil] at hlen
  exact List.length_eq_zero_iff.mp hlen

variable {h}

namespace State

/-! ### The operations -/

theorem consistent_addBuffer {s : State} (hs : Consistent h s) {b : Buffer}
    (hb : Fits h s.scrollbackLimit b.id b) : Consistent h (s.addBuffer b) where
  buffers := by
    intro key b' hb'
    rw [buffer?_addBuffer] at hb'
    by_cases hkey : b.id = key
    · rw [if_pos hkey, Option.some.injEq] at hb'
      exact hkey ▸ hb' ▸ hb
    · rw [if_neg hkey] at hb'
      exact hs.buffers key b' hb'
  active := by
    intro id hid
    obtain ⟨b', hb'⟩ := buffer_of_hasBuffer (hs.active id hid)
    rw [hasBuffer, buffer?_addBuffer]
    split_ifs
    · rfl
    · rw [hb']
      rfl

theorem hasBuffer_setActiveBuffer (s : State) (id key : Str) :
    (s.setActiveBuffer id).hasBuffer key = s.hasBuffer key := by
  rw [hasBuffer, buffer?, buffers_setActiveBuffer]
  rfl

/-- Only a buffer that exists is activated. -/
theorem active_setActiveBuffer (s : State) (id : Str) :
    (s.setActiveBuffer id).activeBufferId = s.activeBufferId ∨
      (s.setActiveBuffer id).activeBufferId = some id ∧ s.hasBuffer id = true := by
  rw [setActiveBuffer]
  by_cases hexists : s.hasBuffer id = true
  · rw [if_neg (by rw [hexists]; decide)]
    exact .inr ⟨rfl, hexists⟩
  · rw [if_pos (by simpa using hexists)]
    exact .inl rfl

theorem consistent_setActiveBuffer {s : State} (hs : Consistent h s) (id : Str) :
    Consistent h (s.setActiveBuffer id) where
  buffers := by
    intro key b hb
    rw [buffer?, buffers_setActiveBuffer] at hb
    rw [limit_setActiveBuffer]
    exact hs.buffers key b hb
  active := by
    intro id' hid'
    rw [hasBuffer_setActiveBuffer]
    rcases s.active_setActiveBuffer id with hsame | ⟨hset, hexists⟩
    · exact hs.active id' (hsame ▸ hid')
    · rw [hset, Option.some.injEq] at hid'
      exact hid' ▸ hexists

/-- The view falls back to a buffer that exists, if there is one. -/
theorem active_fallBack {s : State}
    (hsorted : ∀ id ∈ s.sortedBufferIds h, s.hasBuffer id = true) :
    (∃ id, (s.fallBack h).activeBufferId = some id ∧ s.hasBuffer id = true) ∨
      (s.fallBack h).activeBufferId = none ∧ s.buffers.rows = [] := by
  have hfirst : (∃ id, (s.sortedBufferIds h).head? = some id ∧ s.hasBuffer id = true) ∨
      (s.sortedBufferIds h).head? = none ∧ s.buffers.rows = [] := by
    cases hhead : (s.sortedBufferIds h).head? with
    | none => exact .inr ⟨rfl, sortedBufferIds_eq_nil h (List.head?_eq_none_iff.mp hhead)⟩
    | some id => exact .inl ⟨id, rfl, hsorted id (List.mem_of_mem_head? hhead)⟩
  rw [fallBack]
  cases s.previousBufferId with
  | none => exact hfirst
  | some previous =>
    simp only
    by_cases hexists : s.hasBuffer previous = true
    · rw [if_pos hexists]
      exact .inl ⟨previous, rfl, hexists⟩
    · rw [if_neg hexists]
      exact hfirst

/-- The state behind a closed buffer, before the view falls back. -/
def erased (s : State) (id : Str) : State :=
  { s with buffers := s.buffers.erase id, floodState := s.floodState.removeBuffer id }

theorem removeBuffer_eq {s : State} {id : Str} (hexists : s.hasBuffer id = true) :
    s.removeBuffer h id =
      if s.activeBufferId = some id then (s.erased id).fallBack h else s.erased id := by
  rw [removeBuffer, if_neg (by rw [hexists]; decide)]
  rfl

theorem buffer?_erased (s : State) (id key : Str) :
    (s.erased id).buffer? key = if id = key then none else s.buffer? key :=
  Dict.lookup_erase _ _ _

theorem hasBuffer_fallBack (s : State) (key : Str) :
    (s.fallBack h).hasBuffer key = s.hasBuffer key := by
  rw [hasBuffer, buffer?, buffers_fallBack]
  rfl

/-- What happens to the active buffer while a buffer is closed. -/
inductive Lands (s s' : State) : Prop
  /-- The active buffer stays. -/
  | stays (heq : s'.activeBufferId = s.activeBufferId)
      (hexists : ∀ id, s.activeBufferId = some id → s'.hasBuffer id = true)
  /-- Another buffer is active. -/
  | moves {id : Str} (heq : s'.activeBufferId = some id) (hexists : s'.hasBuffer id = true)
  /-- No buffer is left. -/
  | vacant (heq : s'.activeBufferId = none) (hvacant : s'.buffers.rows = [])

theorem lands_removeBuffer {s : State} (hs : Consistent h s) (id : Str) :
    Lands s (s.removeBuffer h id) := by
  by_cases hexists : s.hasBuffer id = true
  · rw [removeBuffer_eq hexists]
    by_cases hactive : s.activeBufferId = some id
    · rw [if_pos hactive]
      have hsorted : ∀ id' ∈ (s.erased id).sortedBufferIds h,
          (s.erased id).hasBuffer id' = true := by
        have hs' : Consistent h { s.erased id with activeBufferId := none } := by
          refine ⟨fun key b hb => ?_, fun id' hid' => (by cases hid')⟩
          exact hs.buffers key b (Dict.lookup_of_erase hb).1
        exact fun id' hid' => hs'.hasBuffer_of_sorted hid'
      rcases active_fallBack hsorted with ⟨id', heq, hexists'⟩ | ⟨heq, hvacant⟩
      · exact .moves heq (by rw [hasBuffer_fallBack]; exact hexists')
      · exact .vacant heq (by rw [buffers_fallBack]; exact hvacant)
    · rw [if_neg hactive]
      refine .stays rfl (fun id' hid' => ?_)
      have hne : id ≠ id' := fun heq => hactive (heq ▸ hid')
      rw [hasBuffer, buffer?_erased, if_neg hne]
      exact hs.active id' hid'
  · rw [Bool.not_eq_true] at hexists
    have hsame : s.removeBuffer h id = s := by rw [removeBuffer, if_pos (by rw [hexists]; rfl)]
    rw [hsame]
    exact .stays rfl hs.active

theorem consistent_removeBuffer {s : State} (hs : Consistent h s) (id : Str) :
    Consistent h (s.removeBuffer h id) where
  buffers := by
    intro key b hb
    rw [buffer?_removeBuffer] at hb
    rw [limit_removeBuffer]
    by_cases hkey : id = key
    · rw [if_pos hkey] at hb
      cases hb
    · rw [if_neg hkey] at hb
      exact hs.buffers key b hb
  active := by
    intro id' hid'
    cases lands_removeBuffer hs id with
    | stays heq hexists => exact hexists id' (heq ▸ hid')
    | moves heq hexists =>
      rw [heq, Option.some.injEq] at hid'
      exact hid' ▸ hexists
    | vacant heq _ =>
      rw [heq] at hid'
      cases hid'

theorem consistent_openChannel {s : State} (hs : Consistent h s) (connId channel : Str) :
    Consistent h (s.openChannel h connId channel) := by
  rw [openChannel]
  refine consistent_setActiveBuffer ?_ _
  split_ifs
  · refine ⟨fun key b hb => ?_, fun id hid => ?_⟩
    · rw [buffer?_modifyBuffer] at hb
      split_ifs at hb
      · obtain ⟨b₀, hb₀, rfl⟩ := Option.map_eq_some_iff.mp hb
        exact (hs.buffers key b₀ hb₀).reset h
      · exact hs.buffers key b hb
    · obtain ⟨b₀, hb₀⟩ := buffer_of_hasBuffer (hs.active id hid)
      rw [hasBuffer, buffer?_modifyBuffer, hb₀]
      split_ifs <;> rfl
  · exact consistent_addBuffer hs (fits_freshBuffer h _ connId .channel channel)

/-- The active buffer follows a new id. -/
theorem active_rekeyBuffer {s : State} {id : Str} {b : Buffer} (hb : s.buffer? id = some b)
    (newId newName : Str) :
    (s.rekeyBuffer id newId newName).activeBufferId =
      if s.activeBufferId = some id then some newId else s.activeBufferId := by
  rw [rekeyBuffer, hb]

/-- A buffer of a connection is stored under an id of the connection. -/
theorem consistent_rekeyBuffer {s : State} (hs : Consistent h s) {connId id newName : Str}
    (hconn : ∀ b, s.buffer? id = some b → b.connectionId = connId) :
    Consistent h (s.rekeyBuffer id (makeBufferId h connId newName) newName) := by
  cases hb : s.buffer? id with
  | none =>
    rw [s.rekeyBuffer_of_none hb]
    exact hs
  | some b =>
    have hlookup := s.buffer?_rekeyBuffer hb (makeBufferId h connId newName) newName
    refine ⟨fun key b' hb' => ?_, fun id' hid' => ?_⟩
    · rw [hlookup] at hb'
      rw [limit_rekeyBuffer]
      by_cases hnew : makeBufferId h connId newName = key
      · rw [if_pos hnew, Option.some.injEq] at hb'
        have hfits := hs.buffers id b hb
        subst hb'
        exact ⟨hnew, by rw [hconn b hb]; exact hnew.symm, hfits.users, hfits.speakers,
          hfits.bounded⟩
      · rw [if_neg hnew] at hb'
        split_ifs at hb'
        exact hs.buffers key b' hb'
    · rw [active_rekeyBuffer hb] at hid'
      rw [hasBuffer, hlookup]
      by_cases hnew : makeBufferId h connId newName = id'
      · rw [if_pos hnew]
        rfl
      · rw [if_neg hnew]
        by_cases hactive : s.activeBufferId = some id
        · rw [if_pos hactive, Option.some.injEq] at hid'
          exact absurd hid' hnew
        · rw [if_neg hactive] at hid'
          have hne : id ≠ id' := fun heq => hactive (heq ▸ hid')
          rw [if_neg hne]
          exact hs.active id' hid'

theorem consistent_renameQueryBuffers {s : State} (hs : Consistent h s) {connId newNick : Str}
    {affected : List Str}
    (hconn : ∀ id ∈ affected, ∀ b, s.buffer? id = some b → b.connectionId = connId) :
    Consistent h (s.renameQueryBuffers h connId newNick affected) := by
  rw [renameQueryBuffers]
  induction affected generalizing s with
  | nil => exact hs
  | cons id affected ih =>
    rw [List.foldl_cons, renameQuery]
    have hrest : ∀ id' ∈ affected, ∀ b, s.buffer? id' = some b → b.connectionId = connId :=
      fun id' hid' => hconn id' (List.mem_cons_of_mem _ hid')
    split_ifs
    · refine ih (consistent_rekeyBuffer hs (hconn id List.mem_cons_self))
        (fun id' hid' b' hb' => ?_)
      cases hb : s.buffer? id with
      | none =>
        rw [s.rekeyBuffer_of_none hb] at hb'
        exact hrest id' hid' b' hb'
      | some b =>
        rw [s.buffer?_rekeyBuffer hb] at hb'
        split_ifs at hb'
        · cases hb'
          exact hconn id List.mem_cons_self b hb
        · exact hrest id' hid' b' hb'
    · exact ih hs hrest

end State

variable (h)

/-! ### Messages -/

/-- The name of a network renames a buffer that belongs to another connection. -/
def State.renamesForeign (s : State) (connId : Str) (args : List Str) : Bool :=
  decide (2 ≤ args.length) &&
    ((s.networkRename h connId args.tail.dropLast).bind (fun rename => s.buffer? rename.1)).any
      (fun b => decide (b.connectionId ≠ connId))

/-- A private message is neither dropped, as the echo of an encrypted one is, nor ignored. -/
def State.heard (s : State) (msg : IrcMessage) (target text : Str) (a : Arrival) : Bool :=
  let (nick, ident, host) := extractNickUserhost msg.sender
  decide (a.decrypted ≠ some []) &&
    !s.ignored h nick ident host (State.chatLevel target (a.decrypted.getD text))
      (if isChannel target then some target else none)

/-- An echo of a private message of ours opens a query, which is named after ourselves. -/
def OpensByEcho (s : State) (connId : Str) (msg : IrcMessage) (target text : Str) (a : Arrival) :
    Prop :=
  isChannel target = false ∧ senderNick msg = s.ourNick connId ∧
    s.hasBuffer (makeBufferId h connId target) = false ∧ s.heard h msg target text a = true ∧
    h.toLowercase target ≠ h.toLowercase (s.ourNick connId)

/-- A message that opens no query by an echo, and renames no buffer of another connection. -/
def OrderlyMessage (s : State) (connId : Str) (msg : IrcMessage) (a : Arrival) : Prop :=
  match msg.command with
  | .privmsg target text => ¬ OpensByEcho h s connId msg target text a
  | .numeric code args => code = 5 → s.renamesForeign h connId args = false
  | _ => True

/-- The private message of a step, if it is one, is heard. -/
def Heard (s : State) (msg : IrcMessage) (a : Arrival) : Prop :=
  ∀ target text, msg.command = .privmsg target text → s.heard h msg target text a = true

variable {h}

/-- The query that a private message opens fits its key. -/
theorem fits_openedQuery {s : State} {connId target text : Str} {msg : IrcMessage} {a : Arrival}
    (horderly : OrderlyMessage h s connId msg a) (hheard : Heard h s msg a)
    (hcmd : msg.command = .privmsg target text) (hprivate : isChannel target = false)
    (hnew : s.hasBuffer (State.chatBuffer h connId (s.ourNick connId) (senderNick msg) target)
      = false) (limit : Nat) :
    Fits h limit (openedQuery h connId (s.ourNick connId) target msg).id
      (openedQuery h connId (s.ourNick connId) target msg) := by
  refine ⟨rfl, ?_, keyedByNick_empty h, distinctSpeakers_nil h, fun _ => Nat.zero_le _⟩
  show State.chatBuffer h connId (s.ourNick connId) (senderNick msg) target =
    makeBufferId h connId (senderNick msg)
  rw [State.chatBuffer] at hnew ⊢
  by_cases hown : senderNick msg = s.ourNick connId
  · rw [if_pos (by simp [hown])] at hnew ⊢
    rw [OrderlyMessage, hcmd] at horderly
    by_contra hne
    refine horderly ⟨hprivate, hown, hnew, hheard target text hcmd, fun hlower => hne ?_⟩
    rw [makeBufferId, makeBufferId, hlower, hown]
  · rw [if_neg (by simp [hprivate, hown])]

theorem consistent_change {s s₁ : State} {connId : Str} {msg : IrcMessage} {a : Arrival}
    {c : Change} (horderly : OrderlyMessage h s connId msg a) (hheard : Heard h s msg a)
    (hcause : Causes h s connId msg c) (hq : Quiet h s s₁) (hs₁ : Consistent h s₁) : Consistent h (s₁.change h c) := by
  cases hcause with
  | nothing => exact hs₁
  | privmsg hcmd hprivate hnew =>
    exact State.consistent_addBuffer hs₁ (fits_openedQuery horderly hheard hcmd hprivate hnew _)
  | join => exact State.consistent_openChannel hs₁ _ _
  | part => exact State.consistent_removeBuffer hs₁ _
  | kick => exact State.consistent_removeBuffer hs₁ _
  | failure => exact State.consistent_removeBuffer hs₁ _
  | nick hcmd =>
    refine State.consistent_renameQueryBuffers hs₁ (fun id hid b hb => ?_)
    obtain ⟨⟨_, b₀⟩, hrow, rfl⟩ := List.mem_map.mp hid
    obtain ⟨hrow, hnick⟩ := List.mem_filter.mp hrow
    rw [Bool.and_eq_true, decide_eq_true_eq] at hnick
    obtain ⟨b₁, hb₁, hc⟩ := hq.buffer_of_some (Dict.mem_rows_iff_lookup.mp hrow)
    rw [hb, Option.some.injEq] at hb₁
    rw [hb₁, hc.connectionId]
    exact hnick.1
  | @network args id newId newName hcmd hargs hrename =>
    obtain ⟨-, -, -, rfl⟩ := s.networkRename_eq_some h hrename
    refine State.consistent_rekeyBuffer hs₁ (fun b hb => ?_)
    obtain ⟨b₀, hb₀, hcont⟩ := hq.buffer_of_some' hb
    rw [OrderlyMessage, hcmd] at horderly
    have hown := horderly rfl
    rw [State.renamesForeign, hrename, Option.bind_some, hb₀] at hown
    rw [hcont.connectionId]
    simpa [hargs] using hown

/-! ### The active buffer -/

/-- A buffer is active, or none exists. -/
def Viewing (s : State) : Prop := s.activeBufferId ≠ none ∨ s.buffers.rows = []

theorem vacant_iff {s : State} : s.buffers.rows = [] ↔ ∀ key, s.buffer? key = none := by
  constructor
  · intro hnil key
    cases hb : s.buffer? key with
    | none => rfl
    | some b =>
      have hmem := Dict.mem_rows_iff_lookup.mpr hb
      rw [hnil] at hmem
      cases hmem
  · intro hnone
    refine List.eq_nil_iff_forall_not_mem.mpr (fun row hrow => ?_)
    have hb := (Dict.mem_rows_iff_lookup (k := row.1) (x := row.2)).mp hrow
    rw [show s.buffers.lookup row.1 = none from hnone row.1] at hb
    cases hb

theorem Viewing.quiet {s s' : State} (hs : Viewing s) (hq : Quiet h s s') : Viewing s' := by
  rcases hs with hactive | hvacant
  · exact .inl (hq.active ▸ hactive)
  · refine .inr ((vacant_iff).mpr (fun key => ?_))
    cases hb : s'.buffer? key with
    | none => rfl
    | some b' =>
      obtain ⟨b, hb, -⟩ := hq.buffer_of_some' hb
      rw [(vacant_iff).mp hvacant key] at hb
      cases hb

theorem viewing_setActiveBuffer {s : State} (hs : s.activeBufferId ≠ none) (id : Str) :
    Viewing (s.setActiveBuffer id) := by
  refine .inl ?_
  rcases s.active_setActiveBuffer id with heq | ⟨heq, -⟩
  · exact heq ▸ hs
  · rw [heq]
    exact Option.some_ne_none id

theorem viewing_removeBuffer {s : State} (hs : Consistent h s) (hactive : s.activeBufferId ≠ none)
    (id : Str) : Viewing (s.removeBuffer h id) := by
  cases State.lands_removeBuffer hs id with
  | stays heq => exact .inl (heq ▸ hactive)
  | moves heq => exact .inl (by rw [heq]; exact Option.some_ne_none _)
  | vacant _ hvacant => exact .inr hvacant

theorem active_rekeyBuffer_ne_none {s : State} (hactive : s.activeBufferId ≠ none)
    (id newId newName : Str) : (s.rekeyBuffer id newId newName).activeBufferId ≠ none := by
  cases hb : s.buffer? id with
  | none =>
    rw [s.rekeyBuffer_of_none hb]
    exact hactive
  | some b =>
    rw [State.active_rekeyBuffer hb]
    split_ifs
    · exact Option.some_ne_none _
    · exact hactive

theorem viewing_change {s : State} (hs : Consistent h s) (hactive : s.activeBufferId ≠ none)
    (c : Change) : Viewing (s.change h c) := by
  cases c with
  | nothing => exact .inl hactive
  | openQuery b => exact .inl hactive
  | openChannel connId channel =>
    refine viewing_setActiveBuffer ?_ _
    split_ifs <;> exact hactive
  | close id => exact viewing_removeBuffer hs hactive id
  | renameQueries connId newNick affected =>
    refine .inl ?_
    rw [State.change, State.renameQueryBuffers]
    clear hs
    induction affected generalizing s with
    | nil => exact hactive
    | cons id affected ih =>
      rw [List.foldl_cons, State.renameQuery]
      split_ifs
      · exact ih (active_rekeyBuffer_ne_none hactive _ _ _)
      · exact ih hactive
  | rekey id newId newName => exact .inl (active_rekeyBuffer_ne_none hactive id newId newName)

/-! ### Steps -/

variable (h)

namespace State

variable (s : State)

theorem quiet_postSummary (key title verb : Str) (batch : BatchInfo) (p : BatchProgress) :
    Quiet h p.1 (postSummary h key title verb batch p) :=
  quiet_ite h (Quiet.refl _) (quiet_eventIn h _ _ _)

/-- A loop over a batch is quiet if its steps are. -/
theorem quiet_batch {f : BatchProgress → IrcMessage → BatchProgress}
    (hf : ∀ p msg, Quiet h p.1 (f p msg).1) (msgs : List IrcMessage) (p : BatchProgress) :
    Quiet h p.1 (msgs.foldl f p).1 := by
  induction msgs generalizing p with
  | nil => exact Quiet.refl _
  | cons msg msgs ih => exact (hf p msg).trans (ih (f p msg))

theorem quiet_processNetsplitBatch (connId : Str) (batch : BatchInfo) :
    Quiet h s (s.processNetsplitBatch h connId batch) := by
  refine Quiet.trans (quiet_batch h (fun p msg => ?_) batch.messages (s, [], []))
    (quiet_postSummary h _ _ _ batch _)
  rw [splitQuit]
  split
  · exact quiet_removeNickFrom h _ _ _
  · exact Quiet.refl _

theorem quiet_processNetjoinBatch (connId : Str) (batch : BatchInfo) :
    Quiet h s (s.processNetjoinBatch h connId batch) := by
  refine Quiet.trans (quiet_batch h (fun p msg => ?_) batch.messages (s, [], []))
    (quiet_postSummary h _ _ _ batch _)
  rw [splitJoin]
  split
  · exact quiet_addNick h _ _ _
  · exact Quiet.refl _

theorem quiet_handleConnected (connId : Str) : Quiet h s (s.handleConnected h connId) :=
  (s.quiet_modifyConnection h connId _).trans (quiet_event h _ _ _)

theorem quiet_handleDisconnected (connId : Str) (error : Option Str) (reconnect : Str) :
    Quiet h s (s.handleDisconnected h connId error reconnect) := by
  refine (s.quiet_modifyBuffersOf h (fun key b => ?_)).trans (quiet_event h _ _ _)
  split_ifs
  · exact ⟨rfl, rfl, rfl, rfl, HistoryKept.refl _ _ _, fun _ _ hb => hb,
      fun _ => keyedByNick_empty h, fun _ => distinctSpeakers_nil h⟩
  · exact Continues.refl h _ key b

theorem quiet_netsplitTick (now : Nat) : Quiet h s (s.netsplitTick h now) := by
  rw [netsplitTick]
  split
  next messages netsplit _ =>
    exact (s.quiet_netsplitState h netsplit).trans
      (quiet_foldl (fun s m => s.quiet_eventIn h _ _) messages _)

end State

/-- A step whose messages are orderly; the mentions buffer, which belongs to no connection, stays
away. -/
def Orderly (s : State) : Op → Prop
  | .irc connId msg _ a => OrderlyMessage h s connId msg a
  | .createMentionsBuffer _ => False
  | _ => True

instance (s : State) (connId : Str) (msg : IrcMessage) (a : Arrival) :
    Decidable (OrderlyMessage h s connId msg a) := by
  unfold OrderlyMessage OpensByEcho
  cases msg.command <;> infer_instance

instance (s : State) (op : Op) : Decidable (Orderly h s op) := by
  unfold Orderly
  cases op <;> infer_instance

variable {h}

/-- What an orderly step does. -/
inductive Effect (s s' : State) : Prop
  | quiet (hq : Quiet h s s')
  | opens (connId : Str) (bufferType : BufferType) (name : Str)
      (heq : s' = s.addBuffer (freshBuffer h connId bufferType name))
  | closes (id : Str) (heq : s' = s.removeBuffer h id)
  | activates (id : Str) (heq : s' = s.setActiveBuffer id)
  | message (connId : Str) (msg : IrcMessage) (a : Arrival)
      (horderly : OrderlyMessage h s connId msg a) (hheard : Heard h s msg a)
      (hchanges : Changes h s connId msg s')

/-- To go to some buffer of a list. -/
theorem effect_activate (s : State) (id : Option Str) :
    Effect (h := h) s ((id.map s.setActiveBuffer).getD s) := by
  cases id with
  | none => exact .quiet (Quiet.refl s)
  | some id => exact .activates id rfl

/-- A private message that is dropped or ignored does nothing. -/
theorem quiet_of_unheard {s s' : State} {connId target text : Str} {msg : IrcMessage}
    {hidden : Bool} {a : Arrival} (hcmd : msg.command = .privmsg target text)
    (hunheard : s.heard h msg target text a = false)
    (hstep : dispatch h s connId msg hidden a = some s') : Quiet h s s' := by
  obtain ⟨s₁, hhandled, rfl⟩ := Option.map_eq_some_iff.mp hstep
  rw [State.handleIrcMessage, hcmd] at hhandled
  simp only [State.handlePrivmsg] at hhandled
  simp only [State.heard, Bool.and_eq_false_iff, decide_eq_false_iff_not, not_not,
    Bool.not_eq_false'] at hunheard
  have hsame : s₁ = { s with suppressEventDisplay := hidden } := by
    by_cases hdropped : a.decrypted = some []
    · rw [if_pos hdropped] at hhandled
      exact (Option.some.inj hhandled).symm
    · have hignored := hunheard.resolve_left hdropped
      rw [State.ignored] at hignored
      rw [if_neg hdropped, State.ignored, if_pos hignored] at hhandled
      exact (Option.some.inj hhandled).symm
  rw [hsame]
  exact quiet_of_buffers_eq rfl rfl rfl rfl

theorem step_effect {s s' : State} {op : Op} (horderly : Orderly h s op)
    (hstep : step h s op = some s') : Effect (h := h) s s' := by
  cases op with
  | irc connId msg hidden a =>
    by_cases hheard : Heard h s msg a
    · exact .message connId msg a horderly hheard (dispatch_cases h hstep)
    · simp only [Heard, not_forall, Bool.not_eq_true] at hheard
      obtain ⟨target, text, hcmd, hunheard⟩ := hheard
      exact .quiet (quiet_of_unheard hcmd hunheard hstep)
  | createMentionsBuffer loaded => exact horderly.elim
  | connect connId c =>
    cases hstep
    exact .quiet (quiet_of_buffers_eq rfl rfl rfl rfl)
  | addBuffer connId bufferType name =>
    cases hstep
    exact .opens connId bufferType name rfl
  | removeBuffer id =>
    cases hstep
    exact .closes id rfl
  | setActive id =>
    cases hstep
    exact .activates id rfl
  | nextBuffer =>
    cases hstep
    exact effect_activate s _
  | prevBuffer =>
    cases hstep
    exact effect_activate s _
  | netsplitBatch connId batch =>
    cases hstep
    exact .quiet (s.quiet_processNetsplitBatch h connId batch)
  | netjoinBatch connId batch =>
    cases hstep
    exact .quiet (s.quiet_processNetjoinBatch h connId batch)
  | connected connId =>
    cases hstep
    exact .quiet (s.quiet_handleConnected h connId)
  | disconnected connId error reconnect =>
    cases hstep
    exact .quiet (s.quiet_handleDisconnected h connId error reconnect)
  | deliver bufferId m =>
    cases hstep
    exact .quiet (s.quiet_addMessageUnshrunk h bufferId m)
  | tick now =>
    cases hstep
    exact .quiet (s.quiet_netsplitTick h now)

theorem consistent_step {s s' : State} {op : Op} (hs : Consistent h s) (horderly : Orderly h s op)
    (hstep : step h s op = some s') : Consistent h s' := by
  cases step_effect horderly hstep with
  | quiet hq => exact hs.quiet hq
  | opens connId bufferType name heq =>
    rw [heq]
    exact State.consistent_addBuffer hs (fits_freshBuffer h _ connId bufferType name)
  | closes id heq =>
    rw [heq]
    exact State.consistent_removeBuffer hs id
  | activates id heq =>
    rw [heq]
    exact State.consistent_setActiveBuffer hs id
  | message connId msg a horderly hheard hchanges =>
    obtain ⟨c, s₁, hcause, hbefore, hafter⟩ := hchanges
    exact (consistent_change horderly hheard hcause hbefore (hs.quiet hbefore)).quiet hafter

/-- An active buffer is followed by an active buffer, unless the store becomes empty. -/
theorem viewing_step {s s' : State} {op : Op} (hs : Consistent h s)
    (hactive : s.activeBufferId ≠ none) (horderly : Orderly h s op)
    (hstep : step h s op = some s') : Viewing s' := by
  cases step_effect horderly hstep with
  | quiet hq => exact .inl (hq.active ▸ hactive)
  | opens _ _ _ heq => exact .inl (heq ▸ hactive)
  | closes id heq =>
    rw [heq]
    exact viewing_removeBuffer hs hactive id
  | activates id heq =>
    rw [heq]
    exact viewing_setActiveBuffer hactive id
  | message connId msg _ _ _ hchanges =>
    obtain ⟨c, s₁, -, hbefore, hafter⟩ := hchanges
    exact (viewing_change (hs.quiet hbefore) (hbefore.active ▸ hactive) c).quiet hafter

theorem consistent_init (floodProtection : Bool) (floodExemptions : List Str)
    (ignores : List IgnoreEntry) (limit : Nat) :
    Consistent h (State.init floodProtection floodExemptions ignores limit) :=
  ⟨fun key b hb => (by cases hb), fun id hid => (by cases hid)⟩

/-- As long as buffers exist, one is active if one has been active. -/
theorem viewing_run {s s' : State} {ops : List Op} (hs : Consistent h s)
    (hactive : s.activeBufferId ≠ none) (hmeets : Meets h (Orderly h) s ops)
    (hrun : run h s ops = some s') (hnone : s'.activeBufferId = none) :
    ∃ pre post s₁, ops = pre ++ post ∧ run h s pre = some s₁ ∧ s₁.buffers.rows = [] := by
  induction ops generalizing s with
  | nil =>
    cases hrun
    exact absurd hnone hactive
  | cons op ops ih =>
    obtain ⟨s₁, hs₁, hrun⟩ := Option.bind_eq_some_iff.mp hrun
    rcases viewing_step hs hactive hmeets.1 hs₁ with hactive₁ | hvacant
    · obtain ⟨pre, post, s₂, rfl, hpre, hvacant⟩ :=
        ih (consistent_step hs hmeets.1 hs₁) hactive₁ (hmeets.2 s₁ hs₁) hrun
      exact ⟨op :: pre, post, s₂, rfl, by rw [run, hs₁]; exact hpre, hvacant⟩
    · exact ⟨[op], ops, s₁, rfl, by rw [run, hs₁]; rfl, hvacant⟩

variable (h)

/-- **The store is consistent** in every session of orderly steps, and no buffer is active only if
none has been activated since the store was empty. -/
theorem store_consistent {floodProtection : Bool} {floodExemptions : List Str}
    {ignores : List IgnoreEntry} {limit : Nat} {ops : List Op} {s : State}
    (hmeets : Meets h (Orderly h) (State.init floodProtection floodExemptions ignores limit) ops)
    (hrun : run h (State.init floodProtection floodExemptions ignores limit) ops = some s) :
    Consistent h s ∧
      ∀ pre post s₁, ops = pre ++ post →
        run h (State.init floodProtection floodExemptions ignores limit) pre = some s₁ →
        s₁.activeBufferId ≠ none → s.activeBufferId = none →
        ∃ pre' post' s₂, post = pre' ++ post' ∧ run h s₁ pre' = some s₂ ∧ s₂.buffers.rows = [] := by
  have hinit := consistent_init (h := h) floodProtection floodExemptions ignores limit
  generalize State.init floodProtection floodExemptions ignores limit = s₀ at hmeets hrun hinit ⊢
  refine ⟨hmeets.invariant (fun s op s' => consistent_step) hinit hrun, ?_⟩
  rintro pre post s₁ rfl hpre hactive hnone
  rw [run_append, hpre] at hrun
  have hs₁ := hmeets.left.invariant (fun s op s' => consistent_step) hinit hpre
  exact viewing_run hs₁ hactive (hmeets.right hpre) hrun hnone

/-- A channel is opened, activated and closed, and another one opened. -/
def reopened : List Op :=
  [.addBuffer (str "net") .channel (str "#a"), .setActive (str "net/#a"),
    .removeBuffer (str "net/#a"), .addBuffer (str "net") .channel (str "#b")]

/-- An echo of our own private message to alice opens a query. -/
def echoed : List Op :=
  [sampleConnect (str "net"), sampleIrc (str "net") (str "me") (.privmsg (str "alice") (str "hi"))]

/-- A server tells the name of its network, while another connection, whose name contains a slash,
has a buffer under the id that the label of the first one is made into. -/
def renamedAcross : List Op :=
  [.connect (str "a") ⟨str "b.c/d", str "me", Table.empty, [], [], []⟩,
    .addBuffer (str "a/b.c") .server (str "d"),
    sampleIrc (str "a") (str "server") (.numeric 5 [str "me", str "NETWORK=Net", str "are"])]

/-- Whether some buffer is not stored under the id made of its connection and name. -/
def State.hasStray (s : State) : Bool :=
  s.buffers.rows.any (fun e => decide (e.1 ≠ makeBufferId sampleHost e.2.connectionId e.2.name))

/-- No buffer is active although one exists and one has been activated; and buffers end up under
foreign ids. -/
theorem store_inconsistent :
    ((run sampleHost sampleStart (reopened.take 2)).any (fun s => s.activeBufferId.isSome) = true ∧
      (run sampleHost sampleStart reopened).any
        (fun s => s.activeBufferId.isNone && !s.buffers.rows.isEmpty) = true) ∧
    (run sampleHost sampleStart echoed).any State.hasStray = true ∧
    (run sampleHost sampleStart renamedAcross).any State.hasStray = true := by
  decide

/-- A session with a private message and the view on it. -/
theorem store_consistent_sample : ∃ s,
    run sampleHost sampleStart (twoQueries ++ [.setActive (str "net/bob")]) = some s ∧
    Consistent sampleHost s := by
  have hruns : (run sampleHost sampleStart (twoQueries ++ [.setActive (str "net/bob")])).isSome =
      true := by decide
  obtain ⟨s, hs⟩ := Option.isSome_iff_exists.mp hruns
  have hmeets : Meets sampleHost (Orderly sampleHost) sampleStart
      (twoQueries ++ [.setActive (str "net/bob")]) := by decide
  exact ⟨s, hs, (store_consistent sampleHost hmeets hs).1⟩

end Store

end Repartee
