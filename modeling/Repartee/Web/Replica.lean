import Repartee.Web.Sync

/-!
# The replica of a web client

`handle_event` of `web-ui/src/state.rs` on the buffers and the nick lists of a client. A client
knows a nick by its spelling, while the server knows it by its lowercase: an event is understood
if it names a nick as the client has got it.

## Main definitions

- `Client`, `Client.handleEvent`: a client and its events
- `Face`: what a buffer shows
- `Tells`: an event says what has changed
- `Mirrors`: a client shows exactly some buffers

## Main results

- `mirrors_handleEvent`: a client follows an event that says what has changed
- `Mirrors.agree`: clients that show the same buffers agree
-/

set_option autoImplicit false

namespace Repartee.Web

/-! ### Clients -/

structure WireNick where
  nick : Str
  nickPrefix : Str
  modes : Str
  away : Bool
  deriving DecidableEq

structure NickEvent where
  bufferId : Str
  kind : NickEventKind
  nick : Str
  newNick : Option Str
  nickPrefix : Option Str
  modes : Option Str
  away : Option Bool

/-- The events that write the buffers or the nick lists of a client. -/
inductive BufferEvent where
  | syncInit (buffers : List BufferMeta)
  | nickList (bufferId : Str) (nicks : List WireNick)
  | bufferCreated (buffer : BufferMeta)
  | bufferClosed (bufferId : Str)
  | topicChanged (bufferId : Str) (topic : Option Str)
  | nickEvent (e : NickEvent)

structure Client where
  buffers : List BufferMeta
  nickLists : Dict Str (List WireNick)

/-- The nick list of a buffer. -/
def Client.nicks (c : Client) (bufferId : Str) : List WireNick :=
  (c.nickLists.lookup bufferId).getD []

namespace NickEvent

variable (e : NickEvent)

/-- The entry of a nick that joins. -/
def entry : WireNick := ⟨e.nick, e.nickPrefix.getD [], e.modes.getD [], e.away.getD false⟩

def setModes (n : WireNick) : WireNick :=
  { n with nickPrefix := e.nickPrefix.getD n.nickPrefix, modes := e.modes.getD n.modes }

def setAway (n : WireNick) : WireNick := { n with away := e.away.getD n.away }

end NickEvent

/-- Whether a list has an entry with this spelling of a nick. -/
def listsNick (nick : Str) (list : List WireNick) : Bool := list.any (fun n => decide (n.nick = nick))

/-- Write the first entry with this spelling of a nick. -/
def updateNick (nick : Str) (f : WireNick → WireNick) : List WireNick → List WireNick
  | [] => []
  | n :: rest => if n.nick = nick then f n :: rest else n :: updateNick nick f rest

section Client

variable (nickLe : WireNick → WireNick → Bool) (bufferLe : BufferMeta → BufferMeta → Bool)

/-- `sort_nicks`, by a comparison. -/
def sortNicks (list : List WireNick) : List WireNick :=
  list.insertionSort (fun n n' => nickLe n n' = true)

/-- What becomes of a nick list. -/
def NickEvent.write (e : NickEvent) (list : List WireNick) : List WireNick :=
  match e.kind with
  | .join => if listsNick e.nick list then list else sortNicks nickLe (list ++ [e.entry])
  | .part | .quit => list.filter (fun n => decide (n.nick ≠ e.nick))
  | .nickChange =>
    match e.newNick with
    | none => list
    | some new =>
      if listsNick e.nick list then
        sortNicks nickLe (updateNick e.nick (fun n => { n with nick := new }) list)
      else list
  | .modeChange => sortNicks nickLe (updateNick e.nick e.setModes list)
  | .awayChange => updateNick e.nick e.setAway list

/-- Only a join makes the nick list of a buffer that has none. -/
def NickEvent.writeLists (e : NickEvent) (lists : Dict Str (List WireNick)) :
    Dict Str (List WireNick) :=
  match e.kind with
  | .join => lists.insert e.bufferId (e.write nickLe ((lists.lookup e.bufferId).getD []))
  | _ => lists.modify e.bufferId (e.write nickLe)

/-- `handle_event` -/
def Client.handleEvent (c : Client) : BufferEvent → Client
  | .syncInit buffers => ⟨sortBuffers bufferLe buffers, Table.empty⟩
  | .nickList bufferId nicks =>
    { c with nickLists := c.nickLists.insert bufferId (sortNicks nickLe nicks) }
  | .bufferCreated buffer =>
    { c with buffers := handleSync bufferLe c.buffers (.bufferCreated buffer) }
  | .bufferClosed bufferId =>
    ⟨handleSync bufferLe c.buffers (.bufferClosed bufferId), c.nickLists.erase bufferId⟩
  | .topicChanged bufferId topic =>
    { c with buffers := handleSync bufferLe c.buffers (.topicChanged bufferId topic) }
  | .nickEvent e =>
    ⟨handleSync bufferLe c.buffers (.nickEvent e.bufferId e.kind), e.writeLists nickLe c.nickLists⟩

end Client

/-- Two clients list the same buffers, each once, and agree on what they show of them. -/
structure SameShown (c c' : Client) : Prop where
  once : EachOnce c.buffers
  once' : EachOnce c'.buffers
  buffers : viewOf c.buffers = viewOf c'.buffers
  nicks : ∀ b ∈ c'.buffers, (c.nicks b.id).Perm (c'.nicks b.id)

/-! ### What there is to show -/

/-- What a buffer shows; the nicks are under their lowercase. -/
@[ext] structure Face where
  topic : Option Str
  nickCount : Nat
  nicks : Str → Option WireNick

/-- What the buffers show. -/
abbrev Faces := Str → Option Face

/-- The nicks of a buffer, none if there is no such buffer. -/
def nicksIn (v : Faces) (bufferId key : Str) : Option WireNick :=
  (v bufferId).bind (fun f => f.nicks key)

def faceView (v : Faces) : View := fun id => (v id).map (fun f => (f.topic, f.nickCount))

/-- What is shown after some buffers have been written. -/
def paint (ids : List Str) (g : Face → Face) (v : Faces) : Faces :=
  fun id => if id ∈ ids then (v id).map g else v id

section Tells

variable (lower : Str → Str)

namespace NickEvent

variable (e : NickEvent)

/-- What an event says of the nicks of a buffer. -/
def told (nicks : Str → Option WireNick) : Str → Option WireNick :=
  match e.kind with
  | .join => Function.update nicks (lower e.nick) (some e.entry)
  | .part | .quit => Function.update nicks (lower e.nick) none
  | .nickChange =>
    match nicks (lower e.nick), e.newNick with
    | some n, some new =>
      Function.update (Function.update nicks (lower e.nick) none) (lower new)
        (some { n with nick := new })
    | _, _ => nicks
  | .modeChange =>
    Function.update nicks (lower e.nick) ((nicks (lower e.nick)).map e.setModes)
  | .awayChange =>
    Function.update nicks (lower e.nick) ((nicks (lower e.nick)).map e.setAway)

/-- The event spells a nick as it is listed. -/
def Spells (f : Face) : Prop := ∀ n, f.nicks (lower e.nick) = some n → n.nick = e.nick

/-- An event can be understood: who joins is not listed, and who leaves is, unless nobody is; a
new nick is not taken; and nicks are spelt as they are listed. -/
def Understood (f : Face) : Prop :=
  match e.kind with
  | .join => f.nicks (lower e.nick) = none
  | .part | .quit => e.Spells lower f ∧ (f.nicks (lower e.nick) = none → f.nickCount = 0)
  | .nickChange => e.Spells lower f ∧ ∀ new, e.newNick = some new →
      f.nicks (lower e.nick) ≠ none → lower new = lower e.nick ∨ f.nicks (lower new) = none
  | .modeChange | .awayChange => e.Spells lower f

end NickEvent

/-- What an event says of a buffer. -/
def Face.hear (e : NickEvent) (f : Face) : Face where
  topic := f.topic
  nickCount := e.kind.count f.nickCount
  nicks := e.told lower f.nicks

/-- An event says what has changed. -/
def Tells (v v' : Faces) : BufferEvent → Prop
  | .bufferCreated buffer => v buffer.id = none ∧
      v' = Function.update v buffer.id (some ⟨buffer.topic, buffer.nickCount, fun _ => none⟩)
  | .bufferClosed bufferId => v' = Function.update v bufferId none
  | .topicChanged bufferId topic =>
      v' = Function.update v bufferId ((v bufferId).map (fun f => { f with topic := topic }))
  | .nickEvent e => (∀ f, v e.bufferId = some f → e.Understood lower f) ∧
      (e.kind = .join → v e.bufferId ≠ none) ∧
      v' = Function.update v e.bufferId ((v e.bufferId).map (Face.hear lower e))
  | .syncInit _ | .nickList _ _ => False

/-- Events say, one after the other, what has changed. -/
inductive TellsAll : Faces → List BufferEvent → Faces → Prop
  | nil (v : Faces) : TellsAll v [] v
  | cons {v v₁ v' : Faces} {e : BufferEvent} {es : List BufferEvent} (he : Tells lower v v₁ e)
      (hes : TellsAll v₁ es v') : TellsAll v (e :: es) v'

/-- A nick list shows exactly some nicks. -/
structure Lists (nicks : Str → Option WireNick) (list : List WireNick) : Prop where
  distinct : list.Pairwise (fun n n' => lower n.nick ≠ lower n'.nick)
  mem : ∀ n, n ∈ list ↔ nicks (lower n.nick) = some n

/-- A client shows exactly some buffers. -/
structure Mirrors (v : Faces) (c : Client) : Prop where
  once : EachOnce c.buffers
  buffers : viewOf c.buffers = faceView v
  nicks : ∀ id, Lists lower (nicksIn v id) (c.nicks id)

end Tells

/-! ### Nick lists -/

section Lists

variable {lower : Str → Str} {nickLe : WireNick → WireNick → Bool} {nicks : Str → Option WireNick}
  {list list' : List WireNick}

theorem Lists.perm_of (h : Lists lower nicks list) (h' : Lists lower nicks list') :
    list.Perm list' := by
  have hnodup : ∀ {l : List WireNick}, Lists lower nicks l → l.Nodup := by
    intro l hl
    exact hl.distinct.imp (fun hne heq => hne (congrArg (fun n => lower n.nick) heq))
  apply (List.perm_ext_iff_of_nodup (hnodup h) (hnodup h')).mpr
  intro n
  rw [h.mem, h'.mem]

theorem Lists.of_perm (h : Lists lower nicks list) (hperm : list.Perm list') :
    Lists lower nicks list' := by
  constructor
  · apply (hperm.pairwise_iff _).mp h.distinct
    intro n n' hne
    exact hne.symm
  · intro n
    rw [← hperm.mem_iff]
    exact h.mem n

theorem Lists.sort (h : Lists lower nicks list) : Lists lower nicks (sortNicks nickLe list) :=
  h.of_perm (List.perm_insertionSort _ list).symm

theorem lists_nil : Lists lower (fun _ => none) [] :=
  ⟨List.Pairwise.nil, fun n => by simp⟩

theorem Lists.eq_nil (h : Lists lower (fun _ => none) list) : list = [] := by
  apply List.eq_nil_iff_forall_not_mem.mpr
  intro n hn
  cases (h.mem n).mp hn

theorem listsNick_iff {nick : Str} : listsNick nick list = true ↔ ∃ n ∈ list, n.nick = nick := by
  simp [listsNick]

/-- In a list of distinct nicks, there is one entry to write. -/
theorem updateNick_eq_map {nick : Str} {f : WireNick → WireNick}
    (h : list.Pairwise (fun n n' => lower n.nick ≠ lower n'.nick)) :
    updateNick nick f list = list.map (fun n => if n.nick = nick then f n else n) := by
  induction list with
  | nil => rfl
  | cons n rest ih =>
    obtain ⟨hn, hrest⟩ := List.pairwise_cons.mp h
    rw [updateNick, List.map_cons]
    by_cases hnick : n.nick = nick
    · rw [if_pos hnick, if_pos hnick]
      congr 1
      refine ((List.map_congr_left (fun n' hn' => ?_)).trans (List.map_id rest)).symm
      apply if_neg
      intro heq
      exact hn n' hn' (by rw [hnick, heq])
    · rw [if_neg hnick, if_neg hnick, ih hrest]

theorem Lists.join (h : Lists lower nicks list) {n : WireNick}
    (habsent : nicks (lower n.nick) = none) :
    Lists lower (Function.update nicks (lower n.nick) (some n)) (list ++ [n]) := by
  have hnot : ∀ n' ∈ list, lower n'.nick ≠ lower n.nick := by
    intro n' hn' heq
    have hlisted := (h.mem n').mp hn'
    rw [heq, habsent] at hlisted
    cases hlisted
  constructor
  · apply List.pairwise_append.mpr
    refine ⟨h.distinct, List.pairwise_singleton _ _, ?_⟩
    intro n' hn' n'' hn''
    rw [List.mem_singleton.mp hn'']
    exact hnot n' hn'
  · intro n'
    rw [List.mem_append, List.mem_singleton, h.mem]
    by_cases heq : lower n'.nick = lower n.nick
    · rw [heq, Function.update_self, habsent]
      simp [eq_comm]
    · rw [Function.update_of_ne heq]
      apply or_iff_left
      rintro rfl
      exact heq rfl

theorem Lists.leave (h : Lists lower nicks list) {nick : Str}
    (hspelt : ∀ n, nicks (lower nick) = some n → n.nick = nick) :
    Lists lower (Function.update nicks (lower nick) none)
      (list.filter (fun n => decide (n.nick ≠ nick))) := by
  constructor
  · exact h.distinct.sublist List.filter_sublist
  · intro n
    rw [List.mem_filter, decide_eq_true_eq, h.mem]
    by_cases heq : lower n.nick = lower nick
    · rw [heq, Function.update_self]
      simp only [reduceCtorEq, iff_false, not_and_not_right]
      exact hspelt n
    · rw [Function.update_of_ne heq]
      apply and_iff_left
      rintro rfl
      exact heq rfl

/-- One entry is written. -/
theorem Lists.update (h : Lists lower nicks list) {nick : Str} {f : WireNick → WireNick}
    {n : WireNick} (hn : nicks (lower nick) = some n) (hspelt : n.nick = nick)
    (hfree : lower (f n).nick = lower nick ∨ nicks (lower (f n).nick) = none) :
    Lists lower (Function.update (Function.update nicks (lower nick) none) (lower (f n).nick)
      (some (f n))) (updateNick nick f list) := by
  have hone : ∀ n' ∈ list, n'.nick = nick → n' = n := by
    intro n' hn' heq
    have hlisted := (h.mem n').mp hn'
    rw [heq, hn] at hlisted
    exact (Option.some.inj hlisted).symm
  have hin : n ∈ list := (h.mem n).mpr (by rw [hspelt]; exact hn)
  -- nobody else has the nick that is written
  have hother : ∀ n' ∈ list, n'.nick ≠ nick → lower n'.nick ≠ lower (f n).nick := by
    intro n' hn' hne heq
    have hlisted := (h.mem n').mp hn'
    rw [heq] at hlisted
    rcases hfree with hsame | hnone
    · rw [hsame, hn] at hlisted
      exact hne ((Option.some.inj hlisted) ▸ hspelt)
    · rw [hnone] at hlisted
      cases hlisted
  rw [updateNick_eq_map h.distinct]
  constructor
  · apply List.pairwise_map.mpr
    apply h.distinct.imp_of_mem
    intro a b ha hb hne
    by_cases hanick : a.nick = nick
    · have hbnick : b.nick ≠ nick := fun hbnick => hne (by rw [hanick, hbnick])
      rw [if_pos hanick, if_neg hbnick, hone a ha hanick]
      exact (hother b hb hbnick).symm
    · rw [if_neg hanick]
      by_cases hbnick : b.nick = nick
      · rw [if_pos hbnick, hone b hb hbnick]
        exact hother a ha hanick
      · rw [if_neg hbnick]
        exact hne
  · intro w
    have hmem : w ∈ list.map (fun n => if n.nick = nick then f n else n) ↔
        w = f n ∨ (w ∈ list ∧ w.nick ≠ nick) := by
      rw [List.mem_map]
      constructor
      · rintro ⟨n', hn', rfl⟩
        by_cases hnick : n'.nick = nick
        · rw [if_pos hnick, hone n' hn' hnick]
          exact .inl rfl
        · rw [if_neg hnick]
          exact .inr ⟨hn', hnick⟩
      · rintro (rfl | ⟨hw, hne⟩)
        · exact ⟨n, hin, if_pos hspelt⟩
        · exact ⟨w, hw, if_neg hne⟩
    rw [hmem]
    by_cases hnew : lower w.nick = lower (f n).nick
    · rw [hnew, Function.update_self, Option.some.injEq]
      constructor
      · rintro (rfl | ⟨hw, hne⟩)
        · rfl
        · exact absurd hnew (hother w hw hne)
      · intro heq
        exact .inl heq.symm
    · rw [Function.update_of_ne hnew]
      have hne : w ≠ f n := fun heq => hnew (by rw [heq])
      by_cases hold : lower w.nick = lower nick
      · rw [hold, Function.update_self]
        simp only [hne, false_or, reduceCtorEq, iff_false, not_and, not_not]
        intro hw
        have hlisted := (h.mem w).mp hw
        rw [hold, hn] at hlisted
        exact (Option.some.inj hlisted) ▸ hspelt
      · rw [Function.update_of_ne hold, ← h.mem]
        simp only [hne, false_or]
        apply and_iff_left
        rintro rfl
        exact hold rfl

/-- An entry is written that keeps its nick, if there is one. -/
theorem Lists.set (h : Lists lower nicks list) {nick : Str} (f : WireNick → WireNick)
    (hf : ∀ n, (f n).nick = n.nick) (hspelt : ∀ n, nicks (lower nick) = some n → n.nick = nick) :
    Lists lower (Function.update nicks (lower nick) ((nicks (lower nick)).map f))
      (updateNick nick f list) := by
  cases hn : nicks (lower nick) with
  | none =>
    have hsame : updateNick nick f list = list := by
      rw [updateNick_eq_map h.distinct]
      refine (List.map_congr_left (fun n hn' => ?_)).trans (List.map_id list)
      apply if_neg
      intro heq
      have hlisted := (h.mem n).mp hn'
      rw [heq, hn] at hlisted
      cases hlisted
    rw [hsame, Option.map_none, ← hn, Function.update_eq_self]
    exact h
  | some n =>
    have hkey : lower (f n).nick = lower nick := by rw [hf, hspelt n hn]
    have hwritten := h.update hn (hspelt n hn) (f := f) (.inl hkey)
    rw [hkey, Function.update_idem] at hwritten
    exact hwritten

/-- A nick list follows an event that can be understood. -/
theorem lists_write {e : NickEvent} {f : Face} (h : Lists lower f.nicks list)
    (he : e.Understood lower f) : Lists lower (e.told lower f.nicks) (e.write nickLe list) := by
  obtain ⟨bufferId, kind, nick, newNick, nickPrefix, modes, away⟩ := e
  cases kind with
  | join =>
    have habsent : f.nicks (lower nick) = none := he
    have hnot : listsNick nick list = false := by
      apply Bool.eq_false_iff.mpr
      rw [Ne, listsNick_iff]
      rintro ⟨n, hn, rfl⟩
      rw [h.mem, habsent] at hn
      cases hn
    have hjoined := h.join (n := ⟨nick, nickPrefix.getD [], modes.getD [], away.getD false⟩) habsent
    simp only [NickEvent.write, hnot]
    exact hjoined.sort
  | part => exact h.leave he.1
  | quit => exact h.leave he.1
  | nickChange =>
    obtain ⟨hspelt, hfree⟩ := he
    have hlisted : listsNick nick list = true ↔ f.nicks (lower nick) ≠ none := by
      rw [listsNick_iff]
      constructor
      · rintro ⟨n, hn, rfl⟩
        rw [(h.mem n).mp hn]
        exact Option.some_ne_none n
      · intro hsome
        obtain ⟨n, hn⟩ := Option.ne_none_iff_exists'.mp hsome
        have hnick : n.nick = nick := hspelt n hn
        exact ⟨n, (h.mem n).mpr (by rw [hnick]; exact hn), hnick⟩
    cases newNick with
    | none =>
      simp only [NickEvent.write, NickEvent.told]
      cases f.nicks (lower nick) <;> exact h
    | some new =>
      simp only [NickEvent.write, NickEvent.told]
      cases hn : f.nicks (lower nick) with
      | none =>
        rw [if_neg (fun hl => hlisted.mp hl hn)]
        exact h
      | some n =>
        have hsome : f.nicks (lower nick) ≠ none := by rw [hn]; exact Option.some_ne_none n
        rw [if_pos (hlisted.mpr hsome)]
        exact (h.update hn (hspelt n hn) (f := fun n => { n with nick := new })
          (hfree new rfl hsome)).sort
  | modeChange =>
    exact (h.set (NickEvent.setModes ⟨bufferId, .modeChange, nick, newNick, nickPrefix, modes, away⟩)
      (fun _ => rfl) he).sort
  | awayChange =>
    exact h.set (NickEvent.setAway ⟨bufferId, .awayChange, nick, newNick, nickPrefix, modes, away⟩)
      (fun _ => rfl) he

theorem write_nil {e : NickEvent} (h : e.kind ≠ .join) : e.write nickLe [] = [] := by
  obtain ⟨bufferId, kind, nick, newNick, nickPrefix, modes, away⟩ := e
  cases kind with
  | join => exact absurd rfl h
  | nickChange => cases newNick <;> rfl
  | part | quit | modeChange | awayChange => rfl

end Lists

/-! ### Clients follow what they are told -/

section Clients

variable {lower : Str → Str} {nickLe : WireNick → WireNick → Bool}
  {bufferLe : BufferMeta → BufferMeta → Bool} {v v' : Faces} {c c' : Client}

theorem faceView_update (v : Faces) (id : Str) (f : Option Face) :
    faceView (Function.update v id f) =
      Function.update (faceView v) id (f.map (fun f => (f.topic, f.nickCount))) := by
  funext id'
  by_cases hid : id' = id
  · rw [hid, faceView, Function.update_self, Function.update_self]
  · rw [faceView, Function.update_of_ne hid, Function.update_of_ne hid, faceView]

theorem nicksIn_update (v : Faces) (id : Str) (f : Option Face) (id' : Str) :
    nicksIn (Function.update v id f) id' =
      if id' = id then fun key => f.bind (fun f => f.nicks key) else nicksIn v id' := by
  funext key
  by_cases hid : id' = id
  · rw [if_pos hid, hid, nicksIn, Function.update_self]
  · rw [if_neg hid, nicksIn, Function.update_of_ne hid]
    rfl

theorem nicks_writeLists (e : NickEvent) (c : Client) (buffers : List BufferMeta) (id : Str) :
    Client.nicks ⟨buffers, e.writeLists nickLe c.nickLists⟩ id =
      if id = e.bufferId then e.write nickLe (c.nicks id) else c.nicks id := by
  have hmodify : e.kind ≠ .join → Client.nicks ⟨buffers, c.nickLists.modify e.bufferId
      (e.write nickLe)⟩ id = if id = e.bufferId then e.write nickLe (c.nicks id) else c.nicks id := by
    intro hkind
    rw [Client.nicks, Dict.lookup_modify]
    by_cases hid : id = e.bufferId
    · rw [if_pos hid.symm, if_pos hid, Client.nicks]
      cases c.nickLists.lookup id with
      | none => exact (write_nil hkind).symm
      | some list => rfl
    · rw [if_neg (fun heq => hid heq.symm), if_neg hid, Client.nicks]
  rw [NickEvent.writeLists]
  cases hkind : e.kind with
  | join =>
    rw [Client.nicks, Dict.lookup_insert]
    by_cases hid : id = e.bufferId
    · rw [if_pos hid.symm, if_pos hid, hid]
      rfl
    · rw [if_neg (fun heq => hid heq.symm), if_neg hid]
      rfl
  | part | quit | nickChange | modeChange | awayChange =>
    exact hmodify (by rw [hkind]; exact nofun)

/-- The list of buffers follows an event that says what has changed. -/
theorem Mirrors.follow (h : Mirrors lower v c) (bufferLe : BufferMeta → BufferMeta → Bool)
    {e : SyncEvent}
    (he : Effect (faceView v) (faceView v') e) :
    EachOnce (handleSync bufferLe c.buffers e) ∧
      viewOf (handleSync bufferLe c.buffers e) = faceView v' :=
  handleSync_follows bufferLe h.once (h.buffers ▸ he)

/-- **A client follows** an event that says what has changed. -/
theorem mirrors_handleEvent (h : Mirrors lower v c) {e : BufferEvent} (he : Tells lower v v' e) :
    Mirrors lower v' (Client.handleEvent nickLe bufferLe c e) := by
  cases e with
  | syncInit buffers => exact he.elim
  | nickList bufferId nicks => exact he.elim
  | bufferCreated buffer =>
    obtain ⟨hnew, rfl⟩ := he
    have heffect : Effect (faceView v) (faceView (Function.update v buffer.id
        (some ⟨buffer.topic, buffer.nickCount, fun _ => none⟩))) (.bufferCreated buffer) := by
      refine ⟨?_, faceView_update v _ _⟩
      rw [faceView, hnew]
      rfl
    obtain ⟨honce, hview⟩ := h.follow bufferLe heffect
    refine ⟨honce, hview, ?_⟩
    intro id
    have hlists := h.nicks id
    rw [nicksIn_update]
    split_ifs with hid
    · -- nothing was listed for a buffer that was not there
      have hnone : nicksIn v id = fun _ => none := by
        funext key
        rw [nicksIn, hid, hnew]
        rfl
      rw [hnone] at hlists
      exact hlists
    · exact hlists
  | bufferClosed bufferId =>
    obtain rfl := he
    have heffect : Effect (faceView v) (faceView (Function.update v bufferId none))
        (.bufferClosed bufferId) := faceView_update v _ _
    obtain ⟨honce, hview⟩ := h.follow bufferLe heffect
    refine ⟨honce, hview, ?_⟩
    intro id
    have hnicks : (Client.handleEvent nickLe bufferLe c (.bufferClosed bufferId)).nicks id =
        if id = bufferId then [] else c.nicks id := by
      rw [Client.nicks, Client.handleEvent, Dict.lookup_erase]
      by_cases hid : id = bufferId
      · rw [if_pos hid.symm, if_pos hid]
        rfl
      · rw [if_neg (fun heq => hid heq.symm), if_neg hid]
        rfl
    rw [hnicks, nicksIn_update]
    split_ifs with hid
    · exact lists_nil
    · exact h.nicks id
  | topicChanged bufferId topic =>
    obtain rfl := he
    have heffect : Effect (faceView v) (faceView (Function.update v bufferId
        ((v bufferId).map (fun f => { f with topic := topic })))) (.topicChanged bufferId topic) := by
      rw [faceView_update, Effect, faceView, Option.map_map, Option.map_map]
      rfl
    obtain ⟨honce, hview⟩ := h.follow bufferLe heffect
    refine ⟨honce, hview, ?_⟩
    intro id
    have hlists := h.nicks id
    rw [nicksIn_update]
    split_ifs with hid
    · have hsame : (fun key => ((v bufferId).map (fun f => { f with topic := topic })).bind
          (fun f => f.nicks key)) = nicksIn v id := by
        funext key
        rw [nicksIn, hid]
        cases v bufferId <;> rfl
      rw [hsame]
      exact hlists
    · exact hlists
  | nickEvent e =>
    obtain ⟨hunderstood, hjoin, rfl⟩ := he
    have heffect : Effect (faceView v) (faceView (Function.update v e.bufferId
        ((v e.bufferId).map (Face.hear lower e)))) (.nickEvent e.bufferId e.kind) := by
      rw [faceView_update, Effect, faceView, Option.map_map, Option.map_map]
      rfl
    obtain ⟨honce, hview⟩ := h.follow bufferLe heffect
    refine ⟨honce, hview, ?_⟩
    intro id
    have hlists := h.nicks id
    rw [Client.handleEvent, nicks_writeLists, nicksIn_update]
    split_ifs with hid
    · subst hid
      cases hface : v e.bufferId with
      | none =>
        have hnone : nicksIn v e.bufferId = fun _ => none := by
          funext key
          rw [nicksIn, hface]
          rfl
        rw [hnone] at hlists
        rw [hlists.eq_nil, write_nil (fun hkind => hjoin hkind hface)]
        exact lists_nil
      | some f =>
        have hsome : nicksIn v e.bufferId = f.nicks := by
          funext key
          rw [nicksIn, hface]
          rfl
        rw [hsome] at hlists
        exact lists_write hlists (hunderstood f hface)
    · exact hlists

theorem mirrors_foldl {es : List BufferEvent} (h : Mirrors lower v c)
    (hes : TellsAll lower v es v') :
    Mirrors lower v' (es.foldl (Client.handleEvent nickLe bufferLe) c) := by
  induction hes generalizing c with
  | nil v => exact h
  | cons he _ ih => exact ih (mirrors_handleEvent h he)

/-- **Clients that show the same buffers agree.** -/
theorem Mirrors.agree (h : Mirrors lower v c) (h' : Mirrors lower v c') : SameShown c c' where
  once := h.once
  once' := h'.once
  buffers := h.buffers.trans h'.buffers.symm
  nicks := fun b _ => (h.nicks b.id).perm_of (h'.nicks b.id)

theorem TellsAll.append {v₁ : Faces} {es es' : List BufferEvent} (h : TellsAll lower v es v₁)
    (h' : TellsAll lower v₁ es' v') : TellsAll lower v (es ++ es') v' := by
  induction h with
  | nil v => exact h'
  | cons he _ ih => exact .cons he (ih h')

theorem tellsAll_singleton {e : BufferEvent} (he : Tells lower v v' e) :
    TellsAll lower v [e] v' := .cons he (.nil v')

/-! ### Some buffers -/

theorem paint_singleton (id : Str) (g : Face → Face) (v : Faces) :
    paint [id] g v = Function.update v id ((v id).map g) := by
  funext id'
  rw [paint, Function.update_apply]
  by_cases hid : id' = id
  · rw [if_pos (List.mem_singleton.mpr hid), if_pos hid, hid]
  · rw [if_neg (fun hmem => hid (List.mem_singleton.mp hmem)), if_neg hid]

theorem paint_cons {id : Str} {ids : List Str} (hid : id ∉ ids) (g : Face → Face) (v : Faces) :
    paint (id :: ids) g v = paint ids g (paint [id] g v) := by
  funext id'
  rw [paint, paint, paint]
  by_cases hmem : id' ∈ ids
  · have hne : id' ∉ [id] := fun heq => hid (List.mem_singleton.mp heq ▸ hmem)
    rw [if_pos hmem, if_pos (List.mem_cons_of_mem _ hmem), if_neg hne]
  · rw [if_neg hmem]
    simp only [List.mem_cons, hmem, List.not_mem_nil]

theorem paint_congr {ids : List Str} {g g' : Face → Face}
    (hg : ∀ id ∈ ids, ∀ f, v id = some f → g f = g' f) : paint ids g v = paint ids g' v := by
  funext id
  rw [paint, paint]
  by_cases hid : id ∈ ids
  · rw [if_pos hid, if_pos hid]
    cases hf : v id with
    | none => rfl
    | some f => rw [Option.map_some, Option.map_some, hg id hid f hf]
  · rw [if_neg hid, if_neg hid]

theorem paint_eq_self {ids : List Str} {g : Face → Face}
    (hg : ∀ id ∈ ids, ∀ f, v id = some f → g f = f) : paint ids g v = v := by
  refine (paint_congr hg).trans ?_
  funext id
  rw [paint, Option.map_id', ite_self]

/-- One event for each of some buffers says what has changed. -/
theorem tellsAll_paint {e : Str → NickEvent} (hid : ∀ id, (e id).bufferId = id)
    (hkind : ∀ id, (e id).kind ≠ .join) {g : Face → Face} {ids : List Str} (hnodup : ids.Nodup)
    (hg : ∀ id ∈ ids, ∀ f, v id = some f →
      (e id).Understood lower f ∧ g f = f.hear lower (e id)) :
    TellsAll lower v (ids.map (fun id => .nickEvent (e id))) (paint ids g v) := by
  induction ids generalizing v with
  | nil =>
    have hnil : paint [] g v = v := paint_eq_self (fun id hmem => absurd hmem List.not_mem_nil)
    rw [hnil]
    exact .nil v
  | cons id ids ih =>
    obtain ⟨hnot, hnodup⟩ := List.nodup_cons.mp hnodup
    rw [List.map_cons, paint_cons hnot]
    have hfirst := hg id List.mem_cons_self
    refine .cons ⟨?_, fun hjoin => absurd hjoin (hkind id), ?_⟩ (ih hnodup ?_)
    · rw [hid]
      exact fun f hf => (hfirst f hf).1
    · rw [hid, ← paint_singleton]
      apply paint_congr
      intro id' hid' f hf
      rw [List.mem_singleton.mp hid'] at hf
      exact (hfirst f hf).2
    · intro id' hid' f hf
      have hne : id' ∉ [id] := fun heq => hnot (List.mem_singleton.mp heq ▸ hid')
      rw [paint, if_neg hne] at hf
      exact hg id' (List.mem_cons_of_mem _ hid') f hf

end Clients

end Repartee.Web
