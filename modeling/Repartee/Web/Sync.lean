import Mathlib.Data.Finset.Card
import Mathlib.Data.List.Sort
import Repartee.E2e.Basic
import Repartee.Lib.Run
import Repartee.Lib.Table

/-!
# Keeping a web client in step

`web/ws.rs`, `app/web.rs` and `web-ui/src/state.rs`: a change of the server's buffers queues an
event; the main loop broadcasts the queued events one by one and then refreshes the shared snapshot
if one of them was structural. A session subscribes to the broadcast, sends its client the
snapshot, and forwards events; when it falls too far behind, it sends the snapshot again and goes
on with the oldest event that is retained.

## Main definitions

- `Change`: the changes of the server's buffers, with their events
- `Sync`, `Sync.step`: the server, the main loop and a session
- `handleSync`: what the client makes of an event
- `Sync.Fits`: events say what changed, and a snapshot that is read is as old as the session's place

## Main results

- `Sync.agrees_run`: a client that has received everything agrees with the server
- `Sync.late_client_misses_topic`: a topic is missed when the snapshot is older than its event
-/

set_option autoImplicit false

namespace Repartee.Web

/-- A buffer, as a web client knows it. -/
structure BufferMeta where
  id : Str
  connectionId : Str
  name : Str
  bufferType : Str
  topic : Option Str
  nickCount : Nat
  deriving DecidableEq

/-- A buffer of the server; `users` are the keys of its members. -/
structure ServerBuffer where
  id : Str
  connectionId : Str
  name : Str
  bufferType : Str
  topic : Option Str
  users : Finset Str

def ServerBuffer.toMeta (b : ServerBuffer) : BufferMeta where
  id := b.id
  connectionId := b.connectionId
  name := b.name
  bufferType := b.bufferType
  topic := b.topic
  nickCount := b.users.card

inductive NickEventKind where
  | join
  | part
  | quit
  | nickChange
  | modeChange
  | awayChange

inductive SyncEvent where
  | bufferCreated (buffer : BufferMeta)
  | bufferClosed (bufferId : Str)
  | topicChanged (bufferId : Str) (topic : Option Str)
  | nickEvent (bufferId : Str) (kind : NickEventKind)

/-- Whether the snapshot is refreshed after an event. -/
def SyncEvent.isStructural : SyncEvent → Bool
  | .bufferCreated _ => true
  | .bufferClosed _ => true
  | _ => false

abbrev ServerBuffers := Table ServerBuffer ServerBuffer.id

/-! ### The server -/

/-- A change of the server's buffers. -/
inductive Change where
  | addBuffer (buffer : ServerBuffer)
  | removeBuffer (bufferId : Str)
  | setTopic (bufferId topic : Str)
  | join (bufferId nick : Str)
  | part (bufferId nick : Str)
  | quit (bufferId nick : Str)
  | nickChange (bufferId oldNick newNick : Str)
  /-- The modes, or the away state, of a member. -/
  | member (bufferId : Str) (away : Bool)

section Server

variable (lower : Str → Str)

/-- Write the members of a buffer that exists. -/
def modifyUsers (t : ServerBuffers) (bufferId : Str) (f : Finset Str → Finset Str) :
    ServerBuffers :=
  t.updateWhere (fun b => b.id = bufferId) (fun b => { b with users := f b.users }) (fun _ => rfl)

/-- Whether a nick is a member of a buffer. -/
def isMember (t : ServerBuffers) (bufferId nick : Str) : Bool :=
  (t.get? bufferId).any (fun b => decide (lower nick ∈ b.users))

/-- The buffers after a change, and the event that it queues. -/
def Change.apply (t : ServerBuffers) : Change → ServerBuffers × Option SyncEvent
  | .addBuffer buffer => (t.replace buffer, some (.bufferCreated buffer.toMeta))
  | .removeBuffer bufferId =>
    if (t.get? bufferId).isSome then
      (t.deleteWhere (fun b => decide (b.id = bufferId)), some (.bufferClosed bufferId))
    else (t, none)
  | .setTopic bufferId topic =>
    (t.updateWhere (fun b => b.id = bufferId) (fun b => { b with topic := some topic })
      (fun _ => rfl), some (.topicChanged bufferId (some topic)))
  | .join bufferId nick =>
    (modifyUsers t bufferId (insert (lower nick)), some (.nickEvent bufferId .join))
  | .part bufferId nick =>
    (modifyUsers t bufferId (fun users => users.erase (lower nick)),
      some (.nickEvent bufferId .part))
  | .quit bufferId nick =>
    if isMember lower t bufferId nick then
      (modifyUsers t bufferId (fun users => users.erase (lower nick)),
        some (.nickEvent bufferId .quit))
    else (t, none)
  | .nickChange bufferId oldNick newNick =>
    if isMember lower t bufferId oldNick then
      (modifyUsers t bufferId (fun users => insert (lower newNick) (users.erase (lower oldNick))),
        some (.nickEvent bufferId .nickChange))
    else (t, none)
  | .member bufferId away =>
    (t, some (.nickEvent bufferId (if away then .awayChange else .modeChange)))

/-- The event of a change says what it did: a new buffer is new, who joins was no member, and who
parts was one; a new nick is not taken. -/
def Change.Matches (t : ServerBuffers) : Change → Prop
  | .addBuffer buffer => t.get? buffer.id = none
  | .join bufferId nick => ∀ b, t.get? bufferId = some b → lower nick ∉ b.users
  | .part bufferId nick => ∀ b, t.get? bufferId = some b → lower nick ∈ b.users
  | .nickChange bufferId oldNick newNick => ∀ b, t.get? bufferId = some b →
      lower oldNick ∈ b.users → lower newNick ∉ b.users.erase (lower oldNick)
  | _ => True

/-- `build_sync_init`: the list of the buffers, as a comparison sorts them. -/
def buildSyncInit (le : ServerBuffer → ServerBuffer → Bool) (t : ServerBuffers) :
    List BufferMeta :=
  (t.rows.insertionSort (fun b b' => le b b' = true)).map ServerBuffer.toMeta

end Server

/-! ### The client -/

/-- `sort_buffers`, by a comparison. -/
def sortBuffers (le : BufferMeta → BufferMeta → Bool) (buffers : List BufferMeta) :
    List BufferMeta :=
  buffers.insertionSort (fun b b' => le b b' = true)

/-- Write the first buffer with an id. -/
def updateFirst (bufferId : Str) (f : BufferMeta → BufferMeta) : List BufferMeta → List BufferMeta
  | [] => []
  | b :: rest => if b.id = bufferId then f b :: rest else b :: updateFirst bufferId f rest

/-- What becomes of the number of members. -/
def NickEventKind.count : NickEventKind → Nat → Nat
  | .join, n => n + 1
  | .part, n => n - 1
  | .quit, n => n - 1
  | _, n => n

/-- `handle_event`, on the list of buffers. -/
def handleSync (le : BufferMeta → BufferMeta → Bool) (buffers : List BufferMeta) :
    SyncEvent → List BufferMeta
  | .bufferCreated buffer => sortBuffers le (buffers ++ [buffer])
  | .bufferClosed bufferId => buffers.filter (fun b => !decide (b.id = bufferId))
  | .topicChanged bufferId topic =>
    updateFirst bufferId (fun b => { b with topic := topic }) buffers
  | .nickEvent bufferId kind =>
    updateFirst bufferId (fun b => { b with nickCount := kind.count b.nickCount }) buffers

/-! ### The system -/

/-- The topic and the number of members of each buffer. -/
abbrev View := Str → Option (Option Str × Nat)

def viewOf (buffers : List BufferMeta) : View := fun id =>
  (buffers.find? (fun b => decide (b.id = id))).map (fun b => (b.topic, b.nickCount))

def serverView (t : ServerBuffers) : View := fun id =>
  (t.get? id).map (fun b => (b.topic, b.users.card))

/-- Each buffer is listed once. -/
def EachOnce (buffers : List BufferMeta) : Prop := (buffers.map BufferMeta.id).Nodup

/-- A session: `cursor` is its place in the broadcast, `synced` says that its client has got the
snapshot, and `client` is the list of its client. -/
structure SyncSession where
  cursor : Nat
  synced : Bool
  client : List BufferMeta

/-- The server, its main loop and a session. `draining` are the events that the main loop is about
to broadcast, and whether one before was structural; `history` is what the server's buffers were
after each number of events. -/
structure Sync where
  buffers : ServerBuffers
  pending : List SyncEvent
  draining : Option (List SyncEvent × Bool)
  snapshot : List BufferMeta
  broadcast : List SyncEvent
  history : Nat → View
  session : Option SyncSession

inductive SyncAct where
  | change (c : Change)
  | startDrain
  | broadcastNext
  | endDrain
  /-- The periodic refresh. -/
  | tick
  | subscribe
  /-- The session reads the snapshot, at first or after it has lagged. -/
  | syncInit
  | receive

/-- The events that the broadcast retains. -/
def capacity : Nat := 2048

namespace Sync

variable (lower : Str → Str) (serverLe : ServerBuffer → ServerBuffer → Bool)
  (clientLe : BufferMeta → BufferMeta → Bool)

/-- All events so far. -/
def queued (s : Sync) : List SyncEvent :=
  s.broadcast ++ ((s.draining.map Prod.fst).getD [] ++ s.pending)

def change (s : Sync) (c : Change) : Sync :=
  match c.apply lower s.buffers with
  | (t, none) => { s with buffers := t }
  | (t, some e) =>
    { s with
      buffers := t
      pending := s.pending ++ [e]
      history := Function.update s.history (s.queued.length + 1) (serverView t) }

/-- The main loop changes nothing else while it drains. -/
def step (s : Sync) : SyncAct → Sync
  | .change c => if s.draining.isNone then s.change lower c else s
  | .startDrain =>
    if s.draining.isNone then { s with draining := some (s.pending, false), pending := [] } else s
  | .broadcastNext =>
    match s.draining with
    | some (e :: rest, structural) =>
      { s with
        broadcast := s.broadcast ++ [e]
        draining := some (rest, structural || e.isStructural) }
    | _ => s
  | .endDrain =>
    match s.draining with
    | some ([], structural) =>
      { s with
        draining := none
        snapshot := if structural then buildSyncInit serverLe s.buffers else s.snapshot }
    | _ => s
  | .tick =>
    if s.draining.isNone then { s with snapshot := buildSyncInit serverLe s.buffers } else s
  | .subscribe => { s with session := some ⟨s.broadcast.length, false, []⟩ }
  | .syncInit =>
    match s.session with
    | some ⟨cursor, false, _⟩ =>
      { s with session := some ⟨cursor, true, sortBuffers clientLe s.snapshot⟩ }
    | _ => s
  | .receive =>
    match s.session with
    | some ⟨cursor, true, client⟩ =>
      if cursor + capacity < s.broadcast.length then
        { s with session := some ⟨s.broadcast.length - capacity, false, client⟩ }
      else
        match s.broadcast[cursor]? with
        | some e => { s with session := some ⟨cursor + 1, true, handleSync clientLe client e⟩ }
        | none => s
    | _ => s

/-- A server that has just started its web server. -/
def start (buffers : ServerBuffers) : Sync where
  buffers := buffers
  pending := []
  draining := none
  snapshot := []
  broadcast := []
  history := fun _ => serverView buffers
  session := none

/-- Everything that was queued has been delivered to the session. -/
def Delivered (s : Sync) (c : SyncSession) : Prop :=
  s.session = some c ∧ c.synced = true ∧ c.cursor = s.queued.length

/-- A client lists each buffer of the server once, with its topic and its number of members. -/
def Agrees (s : Sync) (c : SyncSession) : Prop :=
  EachOnce c.client ∧ viewOf c.client = serverView s.buffers

/-- The events say what changed; and a snapshot that is read shows the server's buffers as they
were after exactly the events in front of the session's place in the broadcast. -/
def Fits (s : Sync) : SyncAct → Prop
  | .change c => s.draining = none → c.Matches lower s.buffers
  | .syncInit => ∀ c, s.session = some c → c.synced = false →
      viewOf s.snapshot = s.history c.cursor
  | _ => True

end Sync

/-! ### What an event does -/

/-- What an event says about the buffers. -/
def Effect (v v' : View) : SyncEvent → Prop
  | .bufferCreated buffer => v buffer.id = none ∧
      v' = Function.update v buffer.id (some (buffer.topic, buffer.nickCount))
  | .bufferClosed bufferId => v' = Function.update v bufferId none
  | .topicChanged bufferId topic =>
      v' = Function.update v bufferId ((v bufferId).map (fun b => (topic, b.2)))
  | .nickEvent bufferId kind =>
      v' = Function.update v bufferId ((v bufferId).map (fun b => (b.1, kind.count b.2)))

section Server

variable {lower : Str → Str}

theorem serverView_update (t : ServerBuffers) (bufferId : Str) (f : ServerBuffer → ServerBuffer)
    (hf : ∀ b, (f b).id = b.id) :
    serverView (t.updateWhere (fun b => b.id = bufferId) f hf) =
      Function.update (serverView t) bufferId
        ((t.get? bufferId).map (fun b => ((f b).topic, (f b).users.card))) := by
  funext id
  rw [serverView, Table.get?_updateWhere]
  by_cases hid : id = bufferId
  · subst hid
    rw [Function.update_self]
    cases hget : t.get? id with
    | none => rfl
    | some b =>
      have hb : b.id = id := Table.key_of_get? hget
      simp [hb]
  · rw [Function.update_of_ne hid, serverView]
    cases hget : t.get? id with
    | none => rfl
    | some b =>
      have hb : ¬ b.id = bufferId := fun h => hid ((Table.key_of_get? hget).symm.trans h)
      simp [hb]

/-- A change of the members that changes their number as an event says. -/
theorem effect_modifyUsers (t : ServerBuffers) (bufferId : Str) (f : Finset Str → Finset Str)
    (kind : NickEventKind)
    (hcount : ∀ b, t.get? bufferId = some b → (f b.users).card = kind.count b.users.card) :
    Effect (serverView t) (serverView (modifyUsers t bufferId f)) (.nickEvent bufferId kind) := by
  rw [Effect, modifyUsers, serverView_update]
  congr 1
  rw [serverView, Option.map_map]
  cases hget : t.get? bufferId with
  | none => rfl
  | some b => simp [hcount b hget]

theorem mem_of_isMember {t : ServerBuffers} {bufferId nick : Str}
    (h : isMember lower t bufferId nick = true) {b : ServerBuffer}
    (hget : t.get? bufferId = some b) : lower nick ∈ b.users := by
  rw [isMember, hget, Option.any_some] at h
  exact of_decide_eq_true h

/-- The event of a change says what it did, and a change without an event does nothing. -/
theorem effect_apply {t : ServerBuffers} {c : Change} (h : c.Matches lower t) :
    match c.apply lower t with
    | (t', some e) => Effect (serverView t) (serverView t') e
    | (t', none) => serverView t' = serverView t := by
  cases c with
  | addBuffer buffer =>
    have hnew : t.get? buffer.id = none := h
    refine ⟨?_, ?_⟩
    · show serverView t buffer.id = none
      rw [serverView, hnew]
      rfl
    · show serverView (t.replace buffer) =
        Function.update (serverView t) buffer.id (some (buffer.topic, buffer.users.card))
      funext id
      rw [serverView, Table.get?_replace]
      by_cases hid : id = buffer.id
      · rw [hid, if_pos rfl, Function.update_self]
        rfl
      · rw [if_neg (fun h => hid h.symm), Function.update_of_ne hid]
        rfl
  | removeBuffer bufferId =>
    rw [Change.apply]
    by_cases hexists : (t.get? bufferId).isSome = true
    · rw [if_pos hexists]
      show serverView _ = _
      funext id
      rw [serverView, Table.get?_deleteWhere]
      by_cases hid : id = bufferId
      · subst hid
        rw [Function.update_self]
        cases hget : t.get? id with
        | none => rfl
        | some b =>
          have hb : b.id = id := Table.key_of_get? hget
          simp [hb]
      · rw [Function.update_of_ne hid, serverView]
        cases hget : t.get? id with
        | none => rfl
        | some b =>
          have hb : ¬ b.id = bufferId := fun h => hid ((Table.key_of_get? hget).symm.trans h)
          simp [hb]
    · rw [if_neg hexists]
  | setTopic bufferId topic =>
    show serverView _ = _
    rw [serverView_update, serverView, Option.map_map]
    rfl
  | join bufferId nick =>
    refine effect_modifyUsers t bufferId _ .join (fun b hget => ?_)
    exact Finset.card_insert_of_notMem (h b hget)
  | part bufferId nick =>
    refine effect_modifyUsers t bufferId _ .part (fun b hget => ?_)
    exact Finset.card_erase_of_mem (h b hget)
  | quit bufferId nick =>
    rw [Change.apply]
    by_cases hmember : isMember lower t bufferId nick = true
    · rw [if_pos hmember]
      refine effect_modifyUsers t bufferId _ .quit (fun b hget => ?_)
      exact Finset.card_erase_of_mem (mem_of_isMember hmember hget)
    · rw [if_neg hmember]
  | nickChange bufferId oldNick newNick =>
    rw [Change.apply]
    by_cases hmember : isMember lower t bufferId oldNick = true
    · rw [if_pos hmember]
      refine effect_modifyUsers t bufferId _ .nickChange (fun b hget => ?_)
      have hold := mem_of_isMember hmember hget
      rw [Finset.card_insert_of_notMem (h b hget hold), Finset.card_erase_of_mem hold]
      exact Nat.succ_pred_eq_of_pos (Finset.card_pos.mpr ⟨_, hold⟩)
    · rw [if_neg hmember]
  | member bufferId away =>
    show serverView t = _
    have hsame : (serverView t bufferId).map (fun b => (b.1,
        (if away then NickEventKind.awayChange else .modeChange).count b.2)) =
        serverView t bufferId := by
      cases away <;> simp [NickEventKind.count]
    rw [hsame, Function.update_eq_self]

end Server

/-! ### What the client makes of it -/

theorem viewOf_eq_get? {buffers : List BufferMeta} (h : EachOnce buffers) (id : Str) :
    viewOf buffers id =
      ((⟨buffers, h⟩ : Table BufferMeta BufferMeta.id).get? id).map
        (fun b => (b.topic, b.nickCount)) := rfl

/-- The order of a list in which each buffer is listed once does not matter. -/
theorem viewOf_perm {buffers buffers' : List BufferMeta} (hperm : buffers.Perm buffers')
    (h : EachOnce buffers) : EachOnce buffers' ∧ viewOf buffers' = viewOf buffers := by
  have h' : EachOnce buffers' := (hperm.map BufferMeta.id).nodup_iff.mp h
  refine ⟨h', ?_⟩
  funext id
  rw [viewOf_eq_get? h', viewOf_eq_get? h]
  congr 1
  refine Table.get?_eq_of_iff (fun b _ => ?_)
  exact hperm.symm.mem_iff

theorem sortBuffers_perm (le : BufferMeta → BufferMeta → Bool) (buffers : List BufferMeta) :
    (sortBuffers le buffers).Perm buffers := List.perm_insertionSort _ buffers

theorem ids_updateFirst (bufferId : Str) {f : BufferMeta → BufferMeta} (hf : ∀ b, (f b).id = b.id)
    (buffers : List BufferMeta) :
    (updateFirst bufferId f buffers).map BufferMeta.id = buffers.map BufferMeta.id := by
  induction buffers with
  | nil => rfl
  | cons b rest ih =>
    rw [updateFirst]
    split_ifs
    · rw [List.map_cons, List.map_cons, hf]
    · rw [List.map_cons, List.map_cons, ih]

theorem viewOf_updateFirst (bufferId : Str) {f : BufferMeta → BufferMeta}
    (hf : ∀ b, (f b).id = b.id) (buffers : List BufferMeta) :
    viewOf (updateFirst bufferId f buffers) =
      Function.update (viewOf buffers) bufferId
        ((buffers.find? (fun b => decide (b.id = bufferId))).map
          (fun b => ((f b).topic, (f b).nickCount))) := by
  funext id
  induction buffers with
  | nil =>
    by_cases hid : id = bufferId
    · rw [hid, Function.update_self]
      rfl
    · rw [Function.update_of_ne hid]
      rfl
  | cons b rest ih =>
    rw [updateFirst]
    by_cases hb : b.id = bufferId
    · rw [if_pos hb, viewOf]
      by_cases hid : id = bufferId
      · rw [hid, Function.update_self]
        simp [hf, hb]
      · have hne : ¬ b.id = id := fun h => hid (h.symm.trans hb)
        have hfne : ¬ (f b).id = id := by rwa [hf]
        rw [Function.update_of_ne hid, viewOf]
        simp [hne, hfne]
    · rw [if_neg hb]
      by_cases hid : b.id = id
      · have hne : id ≠ bufferId := fun h => hb (hid.trans h)
        rw [Function.update_of_ne hne]
        simp [viewOf, hid]
      · have hskip : viewOf (b :: updateFirst bufferId f rest) id =
            viewOf (updateFirst bufferId f rest) id := by
          simp [viewOf, hid]
        rw [hskip, ih]
        by_cases hid' : id = bufferId
        · rw [hid', Function.update_self, Function.update_self]
          simp [hb]
        · rw [Function.update_of_ne hid', Function.update_of_ne hid']
          simp [viewOf, hid]

theorem viewOf_filter (bufferId : Str) (buffers : List BufferMeta) :
    viewOf (buffers.filter (fun b => !decide (b.id = bufferId))) =
      Function.update (viewOf buffers) bufferId none := by
  funext id
  induction buffers with
  | nil =>
    by_cases hid : id = bufferId
    · rw [hid, Function.update_self]
      rfl
    · rw [Function.update_of_ne hid]
      rfl
  | cons b rest ih =>
    by_cases hb : b.id = bufferId
    · have hskip : (b :: rest).filter (fun b => !decide (b.id = bufferId)) =
          rest.filter (fun b => !decide (b.id = bufferId)) := by simp [hb]
      rw [hskip, ih]
      by_cases hid : id = bufferId
      · rw [hid, Function.update_self, Function.update_self]
      · have hne : ¬ b.id = id := fun h => hid (h.symm.trans hb)
        rw [Function.update_of_ne hid, Function.update_of_ne hid]
        simp [viewOf, hne]
    · have hkeep : (b :: rest).filter (fun b => !decide (b.id = bufferId)) =
          b :: rest.filter (fun b => !decide (b.id = bufferId)) := by simp [hb]
      rw [hkeep]
      by_cases hid : b.id = id
      · have hne : id ≠ bufferId := fun h => hb (hid.trans h)
        rw [Function.update_of_ne hne]
        simp [viewOf, hid]
      · have hskip : viewOf (b :: rest.filter (fun b => !decide (b.id = bufferId))) id =
            viewOf (rest.filter (fun b => !decide (b.id = bufferId))) id := by
          simp [viewOf, hid]
        rw [hskip, ih]
        by_cases hid' : id = bufferId
        · rw [hid', Function.update_self, Function.update_self]
        · rw [Function.update_of_ne hid', Function.update_of_ne hid']
          simp [viewOf, hid]

/-- The client follows an event: what it says of the server, it does to the client's list. -/
theorem handleSync_follows (le : BufferMeta → BufferMeta → Bool) {buffers : List BufferMeta}
    {v' : View} {e : SyncEvent} (h : EachOnce buffers) (he : Effect (viewOf buffers) v' e) :
    EachOnce (handleSync le buffers e) ∧ viewOf (handleSync le buffers e) = v' := by
  cases e with
  | bufferCreated buffer =>
    obtain ⟨hnew, rfl⟩ := he
    have hnone : ∀ b ∈ buffers, ¬ b.id = buffer.id := by
      intro b hb hid
      rw [viewOf, Option.map_eq_none_iff, List.find?_eq_none] at hnew
      exact hnew b hb (decide_eq_true hid)
    have honce : EachOnce (buffers ++ [buffer]) := by
      rw [EachOnce, List.map_append, List.nodup_append]
      refine ⟨h, List.nodup_singleton _, fun id hid id' hid' heq => ?_⟩
      obtain ⟨b, hb, rfl⟩ := List.mem_map.mp hid
      exact hnone b hb (heq.trans (List.mem_singleton.mp hid'))
    obtain ⟨hsorted, hview⟩ := viewOf_perm (sortBuffers_perm le (buffers ++ [buffer])).symm honce
    refine ⟨hsorted, hview.trans ?_⟩
    funext id
    by_cases hid : id = buffer.id
    · have hfind : buffers.find? (fun b => decide (b.id = buffer.id)) = none :=
        List.find?_eq_none.mpr (fun b hb => by simpa using hnone b hb)
      rw [hid, Function.update_self, viewOf, List.find?_append, hfind]
      simp
    · have hne : ¬ buffer.id = id := fun heq => hid heq.symm
      rw [Function.update_of_ne hid, viewOf, viewOf, List.find?_append]
      simp [hne]
  | bufferClosed bufferId =>
    refine ⟨?_, (viewOf_filter bufferId buffers).trans he.symm⟩
    exact List.Nodup.sublist (List.filter_sublist.map BufferMeta.id) h
  | topicChanged bufferId topic =>
    have hview := viewOf_updateFirst bufferId (f := fun b => { b with topic := topic })
      (fun _ => rfl) buffers
    have hids := ids_updateFirst bufferId (f := fun b => { b with topic := topic }) (fun _ => rfl)
      buffers
    refine ⟨by rw [EachOnce, handleSync, hids]; exact h, ?_⟩
    rw [handleSync, hview, he, viewOf, Option.map_map]
    rfl
  | nickEvent bufferId kind =>
    have hview := viewOf_updateFirst bufferId
      (f := fun b => { b with nickCount := kind.count b.nickCount }) (fun _ => rfl) buffers
    have hids := ids_updateFirst bufferId
      (f := fun b => { b with nickCount := kind.count b.nickCount }) (fun _ => rfl) buffers
    refine ⟨by rw [EachOnce, handleSync, hids]; exact h, ?_⟩
    rw [handleSync, hview, he, viewOf, Option.map_map]
    rfl

theorem eachOnce_buildSyncInit (le : ServerBuffer → ServerBuffer → Bool) (t : ServerBuffers) :
    EachOnce (buildSyncInit le t) := by
  have hperm := (List.perm_insertionSort (fun b b' => le b b' = true) t.rows).map ServerBuffer.id
  rw [EachOnce, buildSyncInit, List.map_map]
  exact hperm.nodup_iff.mpr t.nodup

/-! ### Runs -/

namespace Sync

variable {lower : Str → Str} {serverLe : ServerBuffer → ServerBuffer → Bool}
  {clientLe : BufferMeta → BufferMeta → Bool} {s : Sync}

/-- A session is a replica of the server as it was after the events in front of its place. -/
def Replica (s : Sync) (c : SyncSession) : Prop :=
  c.cursor ≤ s.broadcast.length ∧
    (c.synced = true → EachOnce c.client ∧ viewOf c.client = s.history c.cursor)

/-- The history is what the events say, and a session is a replica. -/
structure Inv (s : Sync) : Prop where
  current : s.history s.queued.length = serverView s.buffers
  effects : ∀ k e, s.queued[k]? = some e → Effect (s.history k) (s.history (k + 1)) e
  snapshot : EachOnce s.snapshot
  session : ∀ c, s.session = some c → s.Replica c

theorem broadcast_length_le (s : Sync) : s.broadcast.length ≤ s.queued.length := by
  rw [queued, List.length_append]
  exact Nat.le_add_right _ _

theorem inv_change (h : s.Inv) {c : Change} (hc : c.Matches lower s.buffers) :
    (s.change lower c).Inv := by
  have heffect := effect_apply hc
  rw [change]
  cases happly : c.apply lower s.buffers with
  | mk t event =>
    rw [happly] at heffect
    cases event with
    | none => exact ⟨h.current.trans heffect.symm, h.effects, h.snapshot, h.session⟩
    | some e =>
      have hqueued : s.broadcast ++ ((s.draining.map Prod.fst).getD [] ++ (s.pending ++ [e])) =
          s.queued ++ [e] := by
        rw [queued, List.append_assoc, List.append_assoc]
      -- the events in front of the new one lead where they did before
      have hbefore : ∀ k, k ≤ s.queued.length →
          Function.update s.history (s.queued.length + 1) (serverView t) k = s.history k := by
        intro k hk
        exact Function.update_of_ne (by omega) _ _
      refine ⟨?_, fun k e' hk => ?_, h.snapshot, fun c' hc' => ?_⟩
      · show Function.update s.history (s.queued.length + 1) (serverView t) (List.length
          (s.broadcast ++ ((s.draining.map Prod.fst).getD [] ++ (s.pending ++ [e])))) = _
        rw [hqueued, List.length_append, List.length_singleton, Function.update_self]
      · have hk' : (s.queued ++ [e])[k]? = some e' := hqueued ▸ hk
        show Effect (Function.update s.history (s.queued.length + 1) (serverView t) k)
          (Function.update s.history (s.queued.length + 1) (serverView t) (k + 1)) e'
        by_cases hlt : k < s.queued.length
        · rw [List.getElem?_append_left hlt] at hk'
          rw [hbefore k hlt.le, hbefore (k + 1) hlt]
          exact h.effects k e' hk'
        · have hklen : k < (s.queued ++ [e]).length := (List.getElem?_eq_some_iff.mp hk').1
          rw [List.length_append, List.length_singleton] at hklen
          have hkeq : k = s.queued.length := by omega
          subst hkeq
          rw [List.getElem?_concat_length, Option.some.injEq] at hk'
          rw [hbefore _ le_rfl, Function.update_self, h.current, ← hk']
          exact heffect
      · obtain ⟨hcursor, hsynced⟩ := h.session c' hc'
        refine ⟨hcursor, fun hs => ?_⟩
        obtain ⟨honce, hview⟩ := hsynced hs
        exact ⟨honce, hview.trans (hbefore _ (hcursor.trans s.broadcast_length_le)).symm⟩

/-- Moving events towards the broadcast keeps the invariant. -/
theorem inv_of_queued {s' : Sync} (h : s.Inv) (hqueued : s'.queued = s.queued)
    (hbuffers : s'.buffers = s.buffers) (hhistory : s'.history = s.history)
    (hsnapshot : EachOnce s'.snapshot) (hsession : s'.session = s.session)
    (hbroadcast : s.broadcast.length ≤ s'.broadcast.length) : s'.Inv := by
  refine ⟨?_, fun k e hk => ?_, hsnapshot, fun c hc => ?_⟩
  · rw [hqueued, hbuffers, hhistory]
    exact h.current
  · rw [hhistory]
    exact h.effects k e (hqueued ▸ hk)
  · obtain ⟨hcursor, hsynced⟩ := h.session c (hsession ▸ hc)
    refine ⟨hcursor.trans hbroadcast, ?_⟩
    rw [hhistory]
    exact hsynced

theorem inv_receive (h : s.Inv) : (s.step lower serverLe clientLe .receive).Inv := by
  rw [step]
  split
  · rename_i cursor client hsession
    obtain ⟨hcursor, hsynced⟩ := h.session _ hsession
    obtain ⟨honce, hview⟩ := hsynced rfl
    split_ifs with hlag
    · refine ⟨h.current, h.effects, h.snapshot, ?_⟩
      rintro c hc
      obtain rfl := Option.some.inj hc
      exact ⟨Nat.sub_le _ _, nofun⟩
    · split
      · rename_i e he
        have hqueued : s.queued[cursor]? = some e := by
          rw [queued, List.getElem?_append_left (List.getElem?_eq_some_iff.mp he).1]
          exact he
        have heffect : Effect (viewOf client) (s.history (cursor + 1)) e := by
          rw [hview]
          exact h.effects cursor e hqueued
        refine ⟨h.current, h.effects, h.snapshot, ?_⟩
        rintro c hc
        obtain rfl := Option.some.inj hc
        exact ⟨(List.getElem?_eq_some_iff.mp he).1, fun _ =>
          handleSync_follows clientLe honce heffect⟩
      · exact h
  · exact h

theorem inv_syncInit (h : s.Inv) (hfits : s.Fits lower .syncInit) :
    (s.step lower serverLe clientLe .syncInit).Inv := by
  rw [step]
  split
  · rename_i cursor client hsession
    have hfresh := hfits _ hsession rfl
    obtain ⟨hcursor, -⟩ := h.session _ hsession
    obtain ⟨honce, hview⟩ := viewOf_perm (sortBuffers_perm clientLe s.snapshot).symm h.snapshot
    refine ⟨h.current, h.effects, h.snapshot, ?_⟩
    rintro c hc
    obtain rfl := Option.some.inj hc
    exact ⟨hcursor, fun _ => ⟨honce, hview.trans hfresh⟩⟩
  · exact h

theorem inv_step (h : s.Inv) {a : SyncAct} (hfits : s.Fits lower a) :
    (s.step lower serverLe clientLe a).Inv := by
  cases a with
  | change c =>
    rw [step]
    split_ifs with hidle
    · exact inv_change h (hfits (Option.isNone_iff_eq_none.mp hidle))
    · exact h
  | startDrain =>
    rw [step]
    split_ifs with hidle
    · have hnone := Option.isNone_iff_eq_none.mp hidle
      refine inv_of_queued h ?_ rfl rfl h.snapshot rfl le_rfl
      simp [queued, hnone]
    · exact h
  | broadcastNext =>
    rw [step]
    split
    · rename_i e rest structural hdraining
      refine inv_of_queued h ?_ rfl rfl h.snapshot rfl ?_
      · simp [queued, hdraining]
      · simp
    · exact h
  | endDrain =>
    rw [step]
    split
    · rename_i structural hdraining
      refine inv_of_queued h ?_ rfl rfl ?_ rfl le_rfl
      · simp [queued, hdraining]
      · show EachOnce (if structural then buildSyncInit serverLe s.buffers else s.snapshot)
        split_ifs
        · exact eachOnce_buildSyncInit _ _
        · exact h.snapshot
    · exact h
  | tick =>
    rw [step]
    split_ifs
    · exact inv_of_queued h rfl rfl rfl (eachOnce_buildSyncInit _ _) rfl le_rfl
    · exact h
  | subscribe =>
    refine ⟨h.current, h.effects, h.snapshot, ?_⟩
    rintro c hc
    obtain rfl := Option.some.inj hc
    exact ⟨le_rfl, nofun⟩
  | syncInit => exact inv_syncInit h hfits
  | receive => exact inv_receive h

theorem inv_start (buffers : ServerBuffers) : (start buffers).Inv :=
  ⟨rfl, fun _ _ h => absurd h nofun, List.nodup_nil, fun _ h => absurd h nofun⟩

/-- **In step**: whatever the interleaving of changes, drains, refreshes and the session, a client
that has received everything agrees with the server, as long as the events say what changed and
each snapshot that is read is as old as the session's place in the broadcast. -/
theorem agrees_run (buffers : ServerBuffers) {acts : List SyncAct}
    (h : Run.Guarded (step lower serverLe clientLe) (Fits lower) (start buffers) acts)
    {c : SyncSession} (hc : (Run.run (step lower serverLe clientLe) (start buffers) acts).Delivered
      c) : (Run.run (step lower serverLe clientLe) (start buffers) acts).Agrees c := by
  have hinv : (Run.run (step lower serverLe clientLe) (start buffers) acts).Inv :=
    Run.Guarded.invariant (P := Inv) (fun _ _ hs hfits => inv_step hs hfits) (inv_start buffers) h
  obtain ⟨hsession, hsynced, hcursor⟩ := hc
  obtain ⟨honce, hview⟩ := (hinv.session c hsession).2 hsynced
  rw [hcursor, hinv.current] at hview
  exact ⟨honce, hview⟩

end Sync

/-! ### A client that connects late -/

namespace Sample

def rustBuffer : ServerBuffer :=
  ⟨str "libera/#rust", str "libera", str "#rust", str "channel", none, ∅⟩

/-- A client connects to a server without buffers, and a buffer is opened. -/
def buffersOpens : List SyncAct :=
  [.tick, .subscribe, .syncInit, .change (.addBuffer rustBuffer), .startDrain, .broadcastNext,
    .endDrain, .receive]

/-- The topic of a buffer is set after the last refresh, and a client connects. -/
def topicThenClient : List SyncAct :=
  [.tick, .change (.setTopic (str "libera/#rust") (str "hi")), .startDrain, .broadcastNext,
    .endDrain, .subscribe, .syncInit]

end Sample

namespace Sync

open Sample

theorem agrees_run_buffersOpens :
    (Run.run (step id (fun _ _ => true) (fun _ _ => true)) (start Table.empty)
      buffersOpens).Agrees ⟨1, true, [rustBuffer.toMeta]⟩ := by
  have hfits : Run.Guarded (step id (fun _ _ => true) (fun _ _ => true)) (Fits id)
      (start Table.empty) buffersOpens := by
    refine ⟨trivial, trivial, ?_, fun _ => rfl, trivial, trivial, trivial, trivial, trivial⟩
    rintro c hc -
    obtain rfl := Option.some.inj hc
    rfl
  exact agrees_run Table.empty hfits ⟨rfl, rfl, rfl⟩

/-- Setting a topic does not refresh the snapshot: a client that connects before the next refresh
has received everything, and does not know the topic. -/
theorem late_client_misses_topic :
    ¬ ∀ c, (Run.run (step id (fun _ _ => true) (fun _ _ => true))
        (start (Table.replace Table.empty rustBuffer)) topicThenClient).Delivered c →
      (Run.run (step id (fun _ _ => true) (fun _ _ => true))
        (start (Table.replace Table.empty rustBuffer)) topicThenClient).Agrees c := by
  intro h
  obtain ⟨-, hview⟩ := h ⟨1, true, [rustBuffer.toMeta]⟩ ⟨rfl, rfl, rfl⟩
  have htopic := congrFun hview (str "libera/#rust")
  exact absurd htopic (by decide)

end Sync

end Repartee.Web
