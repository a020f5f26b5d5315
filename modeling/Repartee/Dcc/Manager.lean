import Repartee.State.Session
import Repartee.Web.PublicAddress
import Repartee.Lib.Run

/-!
# The records of DCC chats

`dcc/mod.rs`: a chat has a record, and from the time on that its task runs a channel for outgoing
lines. Both are kept under an id that is made of the peer's nick; an id is free again once its
record is removed. The order in which a map is searched is a parameter of each step.

## Main definitions

- `DccManager`: the records and the channels
- `InStep`: every record is kept under its own id, every channel under the id of its session
- `Op`, `step`: what is done to the records

## Main results

- `inStep_iff`: records and channels stay in step exactly if no record is closed that has a channel
- `InStep.sendChatLine`: a line then reaches the session of the record
-/

set_option autoImplicit false

namespace Repartee.Dcc

open Store (Host)

/-! ### Records -/

inductive DccState where
  | waitingUser
  | listening
  | connecting
  | connected
  deriving DecidableEq

/-- A chat. `session` and `ours` are not in the program: they tell one chat from another, and the
chats that the user has offered from the others. -/
structure DccRecord where
  id : Str
  nick : Str
  connId : Str
  addr : Web.IpAddr
  port : Nat
  state : DccState
  passiveToken : Option Nat
  created : Nat
  ident : Str
  host : Str
  session : Nat
  ours : Bool
  deriving DecidableEq

/-- A channel is named by the session whose task reads it. `sessions` counts the chats. -/
structure DccManager where
  records : Dict Str DccRecord
  chatSenders : Dict Str Nat
  timeoutSecs : Nat
  autoacceptLowports : Bool
  autochatMasks : List Str
  maxConnections : Nat
  sessions : Nat

/-- `DccManager::new` -/
def DccManager.new : DccManager where
  records := Table.empty
  chatSenders := Table.empty
  timeoutSecs := 300
  autoacceptLowports := false
  autochatMasks := []
  maxConnections := 10
  sessions := 0

/-- An order in which the records are searched. -/
structure Order where
  of : List (Str × DccRecord) → List (Str × DccRecord)
  perm : ∀ rows, (of rows).Perm rows

/-- A renamed record. -/
structure Rename where
  oldId : Str
  newId : Str
  deriving DecidableEq

/-- The id of a first record of a nick, and of the further ones. -/
def candidateId (base : Str) : Nat → Str
  | 0 => base
  | n + 1 => base ++ Nat.toDigits 10 (n + 2)

namespace DccManager

variable (h : Host) (m : DccManager)

/-- `generate_id` -/
def generateId (nick : Str) : Str := m.records.freeKey (candidateId (h.toLowercase nick))

/-- The first record that satisfies a predicate. -/
def find? (order : Order) (p : DccRecord → Bool) : Option (Str × DccRecord) :=
  (order.of m.records.rows).find? (fun e => p e.2)

/-- Whether a record is one of a nick. -/
def ofNick (nick : Str) (r : DccRecord) : Bool := h.toLowercase r.nick = h.toLowercase nick

/-- Waiting for the user, or for the peer to connect. -/
def isPending (r : DccRecord) : Bool := r.state = .waitingUser || r.state = .listening

/-- `find_pending` -/
def findPending (order : Order) (nick : Str) : Option DccRecord :=
  (m.find? order (fun r => ofNick h nick r && isPending r)).map Prod.snd

/-- `find_latest_pending`: the last one of the most recent ones. -/
def findLatestPending (order : Order) : Option DccRecord :=
  ((order.of m.records.rows).map Prod.snd).foldl
    (fun best r =>
      if r.state = .waitingUser ∧ best.all (fun b => decide (b.created ≤ r.created)) = true then
        some r
      else best)
    none

/-- `find_connected` -/
def findConnected (order : Order) (nick : Str) : Option DccRecord :=
  (m.find? order (fun r => ofNick h nick r && decide (r.state = .connected))).map Prod.snd

/-- Write a record that exists. -/
def modifyRecord (id : Str) (f : DccRecord → DccRecord) : DccManager :=
  { m with records := m.records.modify id f }

/-- Store a record under a new id. -/
def register (r : DccRecord) : DccManager :=
  let id := m.generateId h r.nick
  { m with
    records := m.records.insert id { r with id := id, session := m.sessions }
    sessions := m.sessions + 1 }

/-- A task is started for a record, with a channel for its lines. -/
def connect (id : Str) (f : DccRecord → DccRecord) : DccManager :=
  match m.records.lookup id with
  | none => m
  | some r =>
    { m.modifyRecord id f with chatSenders := m.chatSenders.insert id r.session }

/-- Whether a record has waited for too long. -/
def isExpired (now : Nat) (r : DccRecord) : Bool :=
  isPending r && decide (m.timeoutSecs < now - r.created)

/-- Remove a record and its channel. -/
def drop (id : Str) : DccManager :=
  { m with records := m.records.erase id, chatSenders := m.chatSenders.erase id }

/-- `purge_expired`, with the removed records. -/
def purgeExpired (order : Order) (now : Nat) : DccManager × List (Str × Str) :=
  let expired := (order.of m.records.rows).filter (fun e => m.isExpired now e.2)
  (expired.foldl (fun m e => m.drop e.1) m, expired.map (fun e => (e.1, e.2.nick)))

/-- A channel follows its record. -/
def moveSender (senders : Dict Str Nat) (oldId newId : Str) : Dict Str Nat :=
  match senders.lookup oldId with
  | none => senders
  | some n => (senders.erase oldId).insert newId n

/-- The loop body of `update_nick`. -/
def renameRecord (newNick : Str) (p : DccManager × List Rename) (oldId : Str) :
    DccManager × List Rename :=
  match p.1.records.lookup oldId with
  | none => p
  | some r =>
    let removed := { p.1 with records := p.1.records.erase oldId }
    let newId := removed.generateId h newNick
    ({ removed with
        records := removed.records.insert newId { r with nick := newNick, id := newId }
        chatSenders := moveSender p.1.chatSenders oldId newId },
      p.2 ++ [⟨oldId, newId⟩])

/-- `update_nick`, with the renamed records. -/
def updateNick (order : Order) (oldNick newNick : Str) : DccManager × List Rename :=
  let oldIds := ((order.of m.records.rows).filter (fun e => ofNick h oldNick e.2)).map Prod.fst
  oldIds.foldl (renameRecord h newNick) (m, [])

/-- `close_by_id`, with the removed record. -/
def closeById (id : Str) : DccManager × Option DccRecord :=
  ({ m with records := m.records.erase id }, m.records.lookup id)

/-- `close_by_nick`, with the removed record. -/
def closeByNick (order : Order) (nick : Str) : DccManager × Option DccRecord :=
  match m.find? order (ofNick h nick) with
  | none => (m, none)
  | some e => m.closeById e.1

/-- `send_chat_line`: the session that the line is handed to. -/
def sendChatLine (id : Str) : Option Nat := m.chatSenders.lookup id

/-- `should_auto_accept` -/
def shouldAutoAccept (nick ident host : Str) (port : Nat) : Bool :=
  if port ≠ 0 ∧ port ≤ 1023 ∧ m.autoacceptLowports = false then false
  else m.autochatMasks.any (fun pattern => h.isMatch pattern (buildMask nick ident host))

/-! ### Ids -/

theorem candidateId_inj (base : Str) (i j : Nat) (heq : candidateId base i = candidateId base j) :
    i = j := by
  have hdigits : ∀ n, Nat.toDigits 10 n ≠ [] := fun n => Nat.toDigits_ne_nil
  have hself : ∀ n, base ≠ base ++ Nat.toDigits 10 n := fun n h =>
    hdigits n (List.append_cancel_left ((List.append_nil base).trans h)).symm
  cases i with
  | zero =>
    cases j with
    | zero => rfl
    | succ j => exact absurd heq (hself _)
  | succ i =>
    cases j with
    | zero => exact absurd heq.symm (hself _)
    | succ j =>
      have hsame := congrArg (fun ds => Nat.ofDigitChars 10 ds 0) (List.append_cancel_left heq)
      simp only [Nat.ofDigitChars_ten_toDigits] at hsame
      omega

/-- A generated id is free. -/
theorem lookup_generateId (nick : Str) : m.records.lookup (m.generateId h nick) = none :=
  m.records.lookup_freeKey (candidateId_inj _)

variable {h m}

/-! ### Lookups -/

/-- What is found is a record. -/
theorem lookup_of_find? {order : Order} {p : DccRecord → Bool} {e : Str × DccRecord}
    (hfind : m.find? order p = some e) : m.records.lookup e.1 = some e.2 ∧ p e.2 = true := by
  have hmem := (order.perm m.records.rows).mem_iff.mp (List.mem_of_find?_eq_some hfind)
  have hp := List.find?_some hfind
  exact ⟨Dict.mem_rows_iff_lookup.mp hmem, hp⟩

/-- The latest request that waits for the user is a record. -/
theorem lookup_of_findLatestPending {order : Order} {r : DccRecord}
    (hfind : m.findLatestPending order = some r) :
    ∃ id, m.records.lookup id = some r := by
  have hloop : ∀ (rs : List DccRecord) (best : Option DccRecord),
      (∀ r, best = some r → ∃ id, m.records.lookup id = some r) →
      (∀ r ∈ rs, ∃ id, m.records.lookup id = some r) →
      ∀ r, rs.foldl (fun best r =>
        if r.state = .waitingUser ∧ best.all (fun b => decide (b.created ≤ r.created)) = true then
          some r
        else best) best = some r → ∃ id, m.records.lookup id = some r := by
    intro rs
    induction rs with
    | nil => exact fun best hbest _ r hr => hbest r hr
    | cons r₀ rs ih =>
      intro best hbest hrs r hr
      refine ih _ ?_ (fun r hr => hrs r (List.mem_cons_of_mem _ hr)) r hr
      intro r' hr'
      dsimp only at hr'
      split_ifs at hr'
      · cases hr'
        exact hrs r₀ List.mem_cons_self
      · exact hbest r' hr'
  refine hloop _ none (by rintro r ⟨⟩) ?_ r hfind
  intro r' hr'
  obtain ⟨⟨id, r₀⟩, he, rfl⟩ := List.mem_map.mp hr'
  exact ⟨id, Dict.mem_rows_iff_lookup.mp ((order.perm _).mem_iff.mp he)⟩

/-- Something is found if there is a record. -/
theorem find?_of_lookup (order : Order) {p : DccRecord → Bool} {id : Str} {r : DccRecord}
    (hr : m.records.lookup id = some r) (hp : p r = true) :
    ∃ e, m.find? order p = some e := by
  have hmem := (order.perm m.records.rows).mem_iff.mpr (Dict.mem_rows_iff_lookup.mpr hr)
  exact Option.isSome_iff_exists.mp (List.find?_isSome.mpr ⟨(id, r), hmem, hp⟩)

theorem lookup_register (r : DccRecord) (id : Str) :
    (m.register h r).records.lookup id =
      if m.generateId h r.nick = id then
        some { r with id := m.generateId h r.nick, session := m.sessions }
      else m.records.lookup id := Dict.lookup_insert _ _ _ _

/-- The records of a nick are renamed, under ids of their own; the others are what they were. -/
theorem lookup_updateNick {order : Order} {oldNick newNick id : Str} {r' : DccRecord}
    (hr' : (m.updateNick h order oldNick newNick).1.records.lookup id = some r') :
    (∃ id₀ r, m.records.lookup id₀ = some r ∧ ofNick h oldNick r = true ∧
      r' = { r with nick := newNick, id := id }) ∨
    (m.records.lookup id = some r' ∧ ofNick h oldNick r' = false) := by
  simp only [updateNick] at hr'
  generalize hids :
    ((order.of m.records.rows).filter (fun e => ofNick h oldNick e.2)).map Prod.fst =
    oldIds at hr'
  have hof : ∀ id₀ ∈ oldIds, ∀ r, m.records.lookup id₀ = some r → ofNick h oldNick r = true := by
    intro id₀ hid₀ r hr
    rw [← hids, List.mem_map] at hid₀
    obtain ⟨⟨_, r₀⟩, he, rfl⟩ := hid₀
    rw [List.mem_filter, (order.perm _).mem_iff, Dict.mem_rows_iff_lookup, hr] at he
    cases he.1
    exact he.2
  have hall : ∀ id₀ r, m.records.lookup id₀ = some r → ofNick h oldNick r = true →
      id₀ ∈ oldIds := by
    intro id₀ r hr hnick
    rw [← hids, List.mem_map]
    refine ⟨(id₀, r), ?_, rfl⟩
    rw [List.mem_filter, (order.perm _).mem_iff, Dict.mem_rows_iff_lookup]
    exact ⟨hr, hnick⟩
  -- a record that the loop has not reached is what it was, under an id that is still to come
  have hloop : ∀ (rest : List Str) (p : DccManager × List Rename),
      (∀ id₀ ∈ rest, id₀ ∈ oldIds) →
      (∀ id r', p.1.records.lookup id = some r' →
        (∃ id₀ r, m.records.lookup id₀ = some r ∧ ofNick h oldNick r = true ∧
          r' = { r with nick := newNick, id := id }) ∨
        (m.records.lookup id = some r' ∧ (ofNick h oldNick r' = true → id ∈ rest))) →
      ∀ id r', (rest.foldl (renameRecord h newNick) p).1.records.lookup id = some r' →
        (∃ id₀ r, m.records.lookup id₀ = some r ∧ ofNick h oldNick r = true ∧
          r' = { r with nick := newNick, id := id }) ∨
        (m.records.lookup id = some r' ∧ ofNick h oldNick r' = false) := by
    intro rest
    induction rest with
    | nil =>
      intro p _ hp id r' hr'
      rcases hp id r' hr' with hrenamed | ⟨hkept, hnone⟩
      · exact .inl hrenamed
      · exact .inr ⟨hkept, Bool.eq_false_iff.mpr (fun hnick => by cases hnone hnick)⟩
    | cons oldId rest ih =>
      intro p hrest hp
      apply ih _ (fun id₀ hid₀ => hrest id₀ (List.mem_cons_of_mem _ hid₀))
      intro id r' hr'
      rw [renameRecord] at hr'
      cases hold : p.1.records.lookup oldId with
      | none =>
        rw [hold] at hr'
        rcases hp id r' hr' with hrenamed | ⟨hkept, hcoming⟩
        · exact .inl hrenamed
        · refine .inr ⟨hkept, fun hnick => ?_⟩
          rcases List.mem_cons.mp (hcoming hnick) with rfl | hin
          · rw [hold] at hr'
            cases hr'
          · exact hin
      | some r₀ =>
        rw [hold] at hr'
        simp only at hr'
        rw [Dict.lookup_insert] at hr'
        split_ifs at hr' with hid
        · cases hr'
          subst hid
          rcases hp oldId r₀ hold with ⟨id₀, r, hr, hnick, rfl⟩ | ⟨hkept, -⟩
          · exact .inl ⟨id₀, r, hr, hnick, rfl⟩
          · exact .inl ⟨oldId, r₀, hkept, hof oldId (hrest oldId List.mem_cons_self) r₀ hkept, rfl⟩
        · obtain ⟨hr', hne⟩ := Dict.lookup_of_erase hr'
          rcases hp id r' hr' with hrenamed | ⟨hkept, hcoming⟩
          · exact .inl hrenamed
          · exact .inr ⟨hkept, fun hnick =>
              (List.mem_cons.mp (hcoming hnick)).resolve_left hne⟩
  exact hloop oldIds (m, []) (fun _ hid => hid)
    (fun id r' hr' => .inr ⟨hr', fun hnick => hall id r' hr' hnick⟩) id r' hr'

/-! ### Properties of every record -/

variable (m) in
/-- Every record satisfies a predicate, which may speak of the id it is kept under. -/
def Records (P : Str → DccRecord → Prop) : Prop := ∀ id r, m.records.lookup id = some r → P id r

variable {P Q : Str → DccRecord → Prop}

theorem Records.mono (hm : m.Records P) (hPQ : ∀ id r, P id r → Q id r) : m.Records Q :=
  fun id r hr => hPQ id r (hm id r hr)

theorem Records.register (hm : m.Records P) {r : DccRecord}
    (hr : P (m.generateId h r.nick)
      { r with id := m.generateId h r.nick, session := m.sessions }) :
    (m.register h r).Records P := by
  intro id r' hr'
  rw [lookup_register] at hr'
  split_ifs at hr' with hid
  · cases hr'
    rw [← hid]
    exact hr
  · exact hm id r' hr'

theorem Records.modifyRecord (hm : m.Records P) (id : Str) {f : DccRecord → DccRecord}
    (hf : ∀ r, P id r → P id (f r)) : (m.modifyRecord id f).Records P := by
  intro id' r hr
  rw [DccManager.modifyRecord, Dict.lookup_modify] at hr
  split_ifs at hr with hid
  · subst hid
    obtain ⟨r₀, hr₀, rfl⟩ := Option.map_eq_some_iff.mp hr
    exact hf r₀ (hm id r₀ hr₀)
  · exact hm id' r hr

theorem Records.connect (hm : m.Records P) (id : Str) {f : DccRecord → DccRecord}
    (hf : ∀ r, P id r → P id (f r)) : (m.connect id f).Records P := by
  rw [DccManager.connect]
  cases m.records.lookup id with
  | none => exact hm
  | some r => exact hm.modifyRecord id hf

theorem Records.erase (hm : m.Records P) (id : Str) {m' : DccManager}
    (herased : m'.records = m.records.erase id) : m'.Records P := by
  intro id' r hr
  rw [herased] at hr
  exact hm id' r (Dict.lookup_of_erase hr).1

theorem Records.purgeExpired (hm : m.Records P) (order : Order) (now : Nat) :
    (m.purgeExpired order now).1.Records P := by
  simp only [DccManager.purgeExpired]
  generalize (order.of m.records.rows).filter (fun e => m.isExpired now e.2) = expired
  induction expired generalizing m with
  | nil => exact hm
  | cons e expired ih => exact ih (hm.erase e.1 rfl)

theorem Records.closeByNick (hm : m.Records P) (order : Order) (nick : Str) :
    (m.closeByNick h order nick).1.Records P := by
  rw [DccManager.closeByNick]
  cases m.find? order (ofNick h nick) with
  | none => exact hm
  | some e => exact hm.erase e.1 rfl

theorem Records.updateNick (order : Order) (oldNick newNick : Str) (hm : m.Records P)
    (hrenamed : ∀ id₀ id r, P id₀ r → ofNick h oldNick r = true →
      Q id { r with nick := newNick, id := id })
    (hkept : ∀ id r, P id r → ofNick h oldNick r = false → Q id r) :
    (m.updateNick h order oldNick newNick).1.Records Q := by
  intro id r' hr'
  rcases lookup_updateNick hr' with ⟨id₀, r, hr, hnick, rfl⟩ | ⟨hr, hnick⟩
  · exact hrenamed id₀ id r (hm id₀ r hr) hnick
  · exact hkept id r' (hm id r' hr) hnick

end DccManager

/-! ### Steps -/

inductive Op where
  | register (r : DccRecord)
  | connect (id : Str) (state : DccState)
  | connected (id : Str)
  | updateNick (order : Order) (oldNick newNick : Str)
  | purgeExpired (order : Order) (now : Nat)
  | closeByNick (order : Order) (nick : Str)
  | closeById (id : Str)

variable (h : Host)

def step (m : DccManager) : Op → DccManager
  | .register r => m.register h r
  | .connect id state => m.connect id (fun r => { r with state := state })
  | .connected id => m.modifyRecord id (fun r => { r with state := .connected })
  | .updateNick order oldNick newNick => (m.updateNick h order oldNick newNick).1
  | .purgeExpired order now => (m.purgeExpired order now).1
  | .closeByNick order nick => (m.closeByNick h order nick).1
  | .closeById id => (m.closeById id).1

/-- Records and channels in step. -/
structure InStep (m : DccManager) : Prop where
  keyed : ∀ id r, m.records.lookup id = some r → r.id = id
  sender : ∀ id n, m.chatSenders.lookup id = some n →
    ∃ r, m.records.lookup id = some r ∧ r.session = n
  distinct : ∀ id id' r r', m.records.lookup id = some r → m.records.lookup id' = some r' →
    r.session = r'.session → id = id'
  recent : ∀ id r, m.records.lookup id = some r → r.session < m.sessions

/-- A step that closes no record that has a channel. -/
def ClosesNoChannel (m : DccManager) : Op → Prop
  | .closeByNick order nick =>
    ∀ e, m.find? order (DccManager.ofNick h nick) = some e → m.chatSenders.lookup e.1 = none
  | .closeById id => m.chatSenders.lookup id = none
  | _ => True

section Steps

variable {h} {m : DccManager}

theorem inStep_new : InStep DccManager.new := by
  refine ⟨?_, ?_, ?_, ?_⟩
  · rintro id r ⟨⟩
  · rintro id n ⟨⟩
  · rintro id id' r r' ⟨⟩
  · rintro id r ⟨⟩

/-- A record that is not known has no channel. -/
theorem InStep.no_sender (hm : InStep m) {id : Str} (hid : m.records.lookup id = none) :
    m.chatSenders.lookup id = none := by
  cases hsender : m.chatSenders.lookup id with
  | none => rfl
  | some n =>
    obtain ⟨r, hr, -⟩ := hm.sender id n hsender
    rw [hid] at hr
    cases hr

theorem InStep.register (hm : InStep m) (r : DccRecord) : InStep (m.register h r) := by
  have hfree := m.lookup_generateId h r.nick
  have hlookup := fun id => DccManager.lookup_register (h := h) (m := m) r id
  refine ⟨?_, ?_, ?_, ?_⟩
  · intro id r' hr'
    rw [hlookup] at hr'
    split_ifs at hr' with hid
    · cases hr'
      exact hid
    · exact hm.keyed id r' hr'
  · intro id n hn
    obtain ⟨r', hr', hsession⟩ := hm.sender id n hn
    refine ⟨r', ?_, hsession⟩
    rw [hlookup, if_neg (fun hid => by rw [hid, hr'] at hfree; cases hfree)]
    exact hr'
  · intro id id' r₁ r₂ h₁ h₂ hsession
    rw [hlookup] at h₁ h₂
    split_ifs at h₁ h₂ with hid hid' hid'
    · rw [← hid, ← hid']
    · cases h₁
      exact absurd hsession (Nat.ne_of_gt (hm.recent id' r₂ h₂))
    · cases h₂
      exact absurd hsession (Nat.ne_of_lt (hm.recent id r₁ h₁))
    · exact hm.distinct id id' r₁ r₂ h₁ h₂ hsession
  · intro id r' hr'
    rw [hlookup] at hr'
    split_ifs at hr' with hid
    · cases hr'
      exact Nat.lt_succ_self _
    · exact Nat.lt_succ_of_lt (hm.recent id r' hr')

/-- A record is written, but neither its id nor its session. -/
theorem InStep.modifyRecord (hm : InStep m) (id : Str) {f : DccRecord → DccRecord}
    (hid : ∀ r, (f r).id = r.id) (hsession : ∀ r, (f r).session = r.session) :
    InStep (m.modifyRecord id f) := by
  have hlookup : ∀ id' r, (m.modifyRecord id f).records.lookup id' = some r →
      ∃ r₀, m.records.lookup id' = some r₀ ∧ r.id = r₀.id ∧ r.session = r₀.session := by
    intro id' r hr
    rw [DccManager.modifyRecord, Dict.lookup_modify] at hr
    split_ifs at hr
    · obtain ⟨r₀, hr₀, rfl⟩ := Option.map_eq_some_iff.mp hr
      exact ⟨r₀, hr₀, hid r₀, hsession r₀⟩
    · exact ⟨r, hr, rfl, rfl⟩
  refine ⟨?_, ?_, ?_, ?_⟩
  · intro id' r hr
    obtain ⟨r₀, hr₀, hsame, -⟩ := hlookup id' r hr
    rw [hsame]
    exact hm.keyed id' r₀ hr₀
  · intro id' n hn
    obtain ⟨r, hr, rfl⟩ := hm.sender id' n hn
    rw [DccManager.modifyRecord, Dict.lookup_modify, hr]
    split_ifs
    · exact ⟨f r, rfl, hsession r⟩
    · exact ⟨r, rfl, rfl⟩
  · intro id₁ id₂ r₁ r₂ h₁ h₂ hsame
    obtain ⟨r₁', h₁', -, hs₁⟩ := hlookup id₁ r₁ h₁
    obtain ⟨r₂', h₂', -, hs₂⟩ := hlookup id₂ r₂ h₂
    exact hm.distinct id₁ id₂ r₁' r₂' h₁' h₂' (by rw [← hs₁, ← hs₂, hsame])
  · intro id' r hr
    obtain ⟨r₀, hr₀, -, hsame⟩ := hlookup id' r hr
    rw [hsame]
    exact hm.recent id' r₀ hr₀

theorem InStep.connect (hm : InStep m) (id : Str) {f : DccRecord → DccRecord}
    (hid : ∀ r, (f r).id = r.id) (hsession : ∀ r, (f r).session = r.session) :
    InStep (m.connect id f) := by
  rw [DccManager.connect]
  cases hr : m.records.lookup id with
  | none => exact hm
  | some r =>
    have hmodified := hm.modifyRecord id hid hsession
    refine ⟨hmodified.keyed, ?_, hmodified.distinct, hmodified.recent⟩
    intro id' n hn
    rw [Dict.lookup_insert] at hn
    split_ifs at hn with hsame
    · cases hn
      refine ⟨f r, ?_, hsession r⟩
      simp only [DccManager.modifyRecord]
      rw [Dict.lookup_modify, if_pos hsame, ← hsame, hr, Option.map_some]
    · exact hmodified.sender id' n hn

theorem InStep.drop (hm : InStep m) (id : Str) : InStep (m.drop id) := by
  refine ⟨?_, ?_, ?_, ?_⟩
  · exact fun id' r hr => hm.keyed id' r (Dict.lookup_of_erase hr).1
  · intro id' n hn
    obtain ⟨hn, hne⟩ := Dict.lookup_of_erase hn
    obtain ⟨r, hr, hsession⟩ := hm.sender id' n hn
    refine ⟨r, ?_, hsession⟩
    rw [DccManager.drop, Dict.lookup_erase, if_neg hne.symm]
    exact hr
  · exact fun id₁ id₂ r₁ r₂ h₁ h₂ => hm.distinct id₁ id₂ r₁ r₂ (Dict.lookup_of_erase h₁).1
      (Dict.lookup_of_erase h₂).1
  · exact fun id' r hr => hm.recent id' r (Dict.lookup_of_erase hr).1

theorem InStep.purgeExpired (hm : InStep m) (order : Order) (now : Nat) :
    InStep (m.purgeExpired order now).1 := by
  simp only [DccManager.purgeExpired]
  generalize (order.of m.records.rows).filter (fun e => m.isExpired now e.2) = expired
  induction expired generalizing m with
  | nil => exact hm
  | cons e expired ih => exact ih (hm.drop e.1)

/-- A channel and its record move to a free id together. -/
theorem InStep.renameRecord (hm : InStep m) (newNick : Str) (renames : List Rename)
    (oldId : Str) : InStep (DccManager.renameRecord h newNick (m, renames) oldId).1 := by
  rw [DccManager.renameRecord]
  cases hr : m.records.lookup oldId with
  | none => exact hm
  | some r =>
    simp only
    have hfree := DccManager.lookup_generateId h
      { m with records := m.records.erase oldId } newNick
    generalize DccManager.generateId h { m with records := m.records.erase oldId } newNick = newId
      at hfree ⊢
    have hlookup : ∀ id r', ((m.records.erase oldId).insert newId
        { r with nick := newNick, id := newId }).lookup id = some r' →
        newId = id ∧ r' = { r with nick := newNick, id := newId } ∨
          newId ≠ id ∧ id ≠ oldId ∧ m.records.lookup id = some r' := by
      intro id r' hr'
      rw [Dict.lookup_insert] at hr'
      split_ifs at hr' with hid
      · cases hr'
        exact .inl ⟨hid, rfl⟩
      · obtain ⟨hr', hne⟩ := Dict.lookup_of_erase hr'
        exact .inr ⟨hid, hne, hr'⟩
    refine ⟨?_, ?_, ?_, ?_⟩
    · intro id r' hr'
      rcases hlookup id r' hr' with ⟨rfl, rfl⟩ | ⟨-, -, hr'⟩
      · rfl
      · exact hm.keyed id r' hr'
    · intro id n hn
      -- whatever the old id had moves on, and the new one had nothing before
      have hmoved : id = newId ∧ m.chatSenders.lookup oldId = some n ∨
          id ≠ newId ∧ id ≠ oldId ∧ m.chatSenders.lookup id = some n := by
        rw [DccManager.moveSender] at hn
        cases hold : m.chatSenders.lookup oldId with
        | none =>
          rw [hold] at hn
          refine .inr ⟨?_, ?_, hn⟩
          · rintro rfl
            by_cases hsame : oldId = id
            · rw [← hsame, hold] at hn
              cases hn
            · rw [Dict.lookup_erase, if_neg hsame] at hfree
              rw [hm.no_sender hfree] at hn
              cases hn
          · rintro rfl
            rw [hold] at hn
            cases hn
        | some n' =>
          rw [hold, Dict.lookup_insert] at hn
          split_ifs at hn with hid
          · exact .inl ⟨hid.symm, hn⟩
          · obtain ⟨hn, hne⟩ := Dict.lookup_of_erase hn
            exact .inr ⟨Ne.symm hid, hne, hn⟩
      rcases hmoved with ⟨rfl, hold⟩ | ⟨hnew, hne, hkept⟩
      · obtain ⟨r', hr', hsession⟩ := hm.sender oldId n hold
        rw [hr] at hr'
        cases hr'
        refine ⟨{ r with nick := newNick, id := id }, ?_, hsession⟩
        rw [Dict.lookup_insert, if_pos rfl]
      · obtain ⟨r', hr', hsession⟩ := hm.sender id n hkept
        refine ⟨r', ?_, hsession⟩
        rw [Dict.lookup_insert, if_neg hnew.symm, Dict.lookup_erase, if_neg hne.symm]
        exact hr'
    · intro id₁ id₂ r₁ r₂ h₁ h₂ hsession
      rcases hlookup id₁ r₁ h₁ with ⟨rfl, rfl⟩ | ⟨-, hne₁, h₁⟩
      · rcases hlookup id₂ r₂ h₂ with ⟨rfl, -⟩ | ⟨-, hne₂, h₂⟩
        · rfl
        · exact absurd (hm.distinct oldId id₂ r r₂ hr h₂ hsession).symm hne₂
      · rcases hlookup id₂ r₂ h₂ with ⟨rfl, rfl⟩ | ⟨-, -, h₂⟩
        · exact absurd (hm.distinct id₁ oldId r₁ r h₁ hr hsession) hne₁
        · exact hm.distinct id₁ id₂ r₁ r₂ h₁ h₂ hsession
    · intro id r' hr'
      rcases hlookup id r' hr' with ⟨-, rfl⟩ | ⟨-, -, hr'⟩
      · exact hm.recent oldId r hr
      · exact hm.recent id r' hr'

theorem InStep.updateNick (hm : InStep m) (order : Order) (oldNick newNick : Str) :
    InStep (m.updateNick h order oldNick newNick).1 := by
  simp only [DccManager.updateNick]
  generalize ((order.of m.records.rows).filter
    (fun e => DccManager.ofNick h oldNick e.2)).map Prod.fst = oldIds
  have hloop : ∀ p : DccManager × List Rename, InStep p.1 →
      InStep (oldIds.foldl (DccManager.renameRecord h newNick) p).1 := by
    induction oldIds with
    | nil => exact fun p hp => hp
    | cons oldId oldIds ih => exact fun p hp => ih _ (hp.renameRecord newNick p.2 oldId)
  exact hloop (m, []) hm

/-- A record without a channel is closed. -/
theorem InStep.closeById (hm : InStep m) {id : Str} (hid : m.chatSenders.lookup id = none) :
    InStep (m.closeById id).1 := by
  have hdropped := hm.drop id
  refine ⟨hdropped.keyed, fun id' n hn => ?_, hdropped.distinct, hdropped.recent⟩
  apply hdropped.sender id' n
  rw [DccManager.drop, Dict.lookup_erase, if_neg]
  · exact hn
  · rintro rfl
    rw [DccManager.closeById, hid] at hn
    cases hn

/-- Once a record is closed that has a channel, the channel is left behind. -/
theorem not_inStep_closeById {id : Str} {n : Nat} (hid : m.chatSenders.lookup id = some n) :
    ¬InStep (m.closeById id).1 := by
  intro hm
  obtain ⟨r, hr, -⟩ := hm.sender id n hid
  rw [DccManager.closeById, Dict.lookup_erase, if_pos rfl] at hr
  cases hr

/-- A step keeps records and channels in step exactly if it closes no record with a channel. -/
theorem inStep_step_iff (hm : InStep m) (op : Op) :
    InStep (step h m op) ↔ ClosesNoChannel h m op := by
  have hclose : ∀ id, InStep (m.closeById id).1 ↔ m.chatSenders.lookup id = none := by
    intro id
    constructor
    · intro hclosed
      cases hid : m.chatSenders.lookup id with
      | none => rfl
      | some n => exact absurd hclosed (not_inStep_closeById hid)
    · exact hm.closeById
  cases op with
  | register r => exact iff_of_true (hm.register r) trivial
  | connect id state =>
    exact iff_of_true (hm.connect id (fun _ => rfl) (fun _ => rfl)) trivial
  | connected id => exact iff_of_true (hm.modifyRecord id (fun _ => rfl) (fun _ => rfl)) trivial
  | updateNick order oldNick newNick =>
    exact iff_of_true (hm.updateNick order oldNick newNick) trivial
  | purgeExpired order now => exact iff_of_true (hm.purgeExpired order now) trivial
  | closeByNick order nick =>
    rw [step, DccManager.closeByNick, ClosesNoChannel]
    cases hfind : m.find? order (DccManager.ofNick h nick) with
    | none => exact iff_of_true hm (by rintro e ⟨⟩)
    | some e =>
      refine (hclose e.1).trans ⟨?_, fun hall => hall e rfl⟩
      rintro hnone e' ⟨⟩
      exact hnone
  | closeById id => exact hclose id

end Steps

/-! ### Runs -/

/-- A line that is handed over reaches the session of the record with the id. -/
theorem InStep.sendChatLine {m : DccManager} (hm : InStep m) {id : Str} {n : Nat}
    (hsend : m.sendChatLine id = some n) : ∃ r, m.records.lookup id = some r ∧ r.session = n :=
  hm.sender id n hsend

/-- **Records and channels**: they are in step all through a run exactly if none of its steps
closes a record that has a channel. -/
theorem inStep_iff (h : Host) (ops : List Op) :
    (∀ pre post, ops = pre ++ post → InStep (Run.run (step h) DccManager.new pre)) ↔
      Run.Guarded (step h) (ClosesNoChannel h) DccManager.new ops := by
  constructor
  · intro hall
    rw [Run.guarded_iff]
    intro pre op post hops
    have hbefore := hall pre (op :: post) hops
    have hafter := hall (pre ++ [op]) post (by rw [hops, List.append_assoc]; rfl)
    rw [Run.run_append] at hafter
    exact (inStep_step_iff hbefore op).mp hafter
  · rintro hguarded pre post rfl
    have hpre := (Run.guarded_append.mp hguarded).1
    exact Run.Guarded.invariant (P := InStep)
      (fun m op hm hg => (inStep_step_iff hm op).mpr hg) inStep_new hpre

/-! ### A closed chat -/

/-- An order of a map: the one in which the records were stored. -/
def insertionOrder : Order := ⟨id, fun rows => List.Perm.refl rows⟩

def loopback : Web.IpAddr := .v4 ⟨127, 0, 0, 1⟩

/-- An offer of `alice`. -/
def aliceOffers : DccRecord :=
  ⟨[], str "alice", str "net", loopback, 5000, .waitingUser, none, 0, str "user", str "host", 0,
    false⟩

/-- A chat with `alice` is accepted and closed, and then she offers another one. -/
def twoChats : List Op :=
  [.register aliceOffers, .connect (str "alice") .connecting, .connected (str "alice"),
    .closeByNick insertionOrder (str "alice"), .register aliceOffers]

/-- What is said in the second chat reaches the task of the first one. -/
theorem closed_chat_is_reached :
    let m := Run.run (step Store.sampleHost) DccManager.new twoChats
    ((m.records.lookup (str "alice")).map DccRecord.session = some 1 ∧
      m.sendChatLine (str "alice") = some 0) ∧ ¬InStep m := by
  have hreached : ((Run.run (step Store.sampleHost) DccManager.new twoChats).records.lookup
      (str "alice")).map DccRecord.session = some 1 ∧
      (Run.run (step Store.sampleHost) DccManager.new twoChats).sendChatLine (str "alice") =
        some 0 := by decide
  refine ⟨hreached, fun hm => ?_⟩
  obtain ⟨r, hr, hsession⟩ := hm.sender _ _ hreached.2
  rw [hr, Option.map_some, hsession] at hreached
  exact absurd hreached.1 (by decide)

end Repartee.Dcc
