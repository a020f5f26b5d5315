import Mathlib.Data.List.Sort
import Repartee.E2e.Basic
import Repartee.Lib.Pages

/-!
# Reading the log database

`storage/query.rs`: the rows of the `messages` table, what a select makes of a row, and the page of
a buffer that ends before a timestamp. SQLite orders the rows of equal timestamps as it likes, so
`ORDER BY m.timestamp DESC` is a parameter.

## Main definitions

- `Row`, `StoredMessage`: a row of the table, and a row as it is read
- `Cipher`: the cipher of the encrypted log
- `getMessages`: `get_messages`
- `OrdersDesc`: what `ORDER BY m.timestamp DESC` promises
- `getMessagesPaginated`: `get_messages_paginated`, whose order is that of time and row

## Main results

- `getMessages_none`: what is read without a key
- `getMessagesPaginated_eq`: a page has the newest of the older rows
-/

set_option autoImplicit false

namespace Repartee.Storage

/-- A row of the `messages` table. -/
structure Row where
  id : Nat
  msgId : Str
  network : Str
  buffer : Str
  timestamp : Int
  msgType : Str
  nick : Option Str
  text : Str
  highlight : Bool
  iv : Option (List UInt8)
  refId : Option Str
  tags : Option Str
  eventKey : Option Str
  deriving DecidableEq

/-- A message read back from the database. -/
structure StoredMessage where
  id : Nat
  msgId : Str
  network : Str
  buffer : Str
  timestamp : Int
  msgType : Str
  nick : Option Str
  text : Str
  highlight : Bool
  refId : Option Str
  tags : Option Str
  eventKey : Option Str
  deriving DecidableEq

/-- AES-256-GCM on texts; the ciphertext is in base64. -/
structure Cipher (Key : Type) where
  encrypt : (text : Str) → Key → (iv : List UInt8) → Option Str
  decrypt : (ciphertext : Str) → (iv : List UInt8) → Key → Option Str

section Select

variable {Key : Type} (cipher : Cipher Key) (db : List Row)

/-- `LEFT JOIN messages p ON p.msg_id = m.ref_id`; a `msg_id` is unique. -/
def primary (m : Row) : Option Row :=
  m.refId.bind (fun ref => db.find? (fun p => decide (p.msgId = ref)))

/-- `COALESCE(p.text, m.text)` -/
def selectText (m : Row) : Str := ((primary db m).map Row.text).getD m.text

/-- `COALESCE(p.iv, m.iv)` -/
def selectIv (m : Row) : Option (List UInt8) := ((primary db m).bind Row.iv).or m.iv

def mapRow (encrypt : Bool) (cryptoKey : Option Key) (m : Row) : Option StoredMessage :=
  let storedText := selectText db m
  let text :=
    if encrypt then
      match cryptoKey, selectIv db m with
      | some key, some iv => cipher.decrypt storedText iv key
      | _, _ => some storedText
    else some storedText
  text.map (fun text =>
    { id := m.id, msgId := m.msgId, network := m.network, buffer := m.buffer,
      timestamp := m.timestamp, msgType := m.msgType, nick := m.nick, text := text,
      highlight := m.highlight, refId := m.refId, tags := m.tags, eventKey := m.eventKey })

/-- The rows of a buffer that are older than a cursor. -/
def older (network buffer : Str) (before : Option Int) : List Row :=
  db.filter (fun m => decide (m.network = network) && decide (m.buffer = buffer) &&
    before.all (fun ts => decide (m.timestamp < ts)))

variable (orderDesc : List Row → List Row)

/-- The newest rows of a buffer before a cursor, in chronological order. -/
def getMessages (network buffer : Str) (before : Option Int) (limit : Nat) (encrypt : Bool)
    (cryptoKey : Option Key) : Option (List StoredMessage) :=
  (((orderDesc (older db network buffer before)).take limit).mapM
    (mapRow cipher db encrypt cryptoKey)).map List.reverse

/-- `ORDER BY m.timestamp DESC`: rows of one second come in any order. -/
structure OrdersDesc : Prop where
  perm : ∀ rows, (orderDesc rows).Perm rows
  sorted : ∀ rows, (orderDesc rows).Pairwise (fun m m' => m'.timestamp ≤ m.timestamp)

/-- A row as it is read without a key. -/
def readRow (m : Row) : StoredMessage :=
  { id := m.id, msgId := m.msgId, network := m.network, buffer := m.buffer,
    timestamp := m.timestamp, msgType := m.msgType, nick := m.nick, text := selectText db m,
    highlight := m.highlight, refId := m.refId, tags := m.tags, eventKey := m.eventKey }

/-- A row is read with its own id and time. -/
theorem id_and_timestamp_of_mapRow {encrypt : Bool} {cryptoKey : Option Key} {m : Row}
    {stored : StoredMessage} (h : mapRow cipher db encrypt cryptoKey m = some stored) :
    stored.id = m.id ∧ stored.timestamp = m.timestamp := by
  obtain ⟨text, -, rfl⟩ := Option.map_eq_some_iff.mp h
  exact ⟨rfl, rfl⟩

/-- Without a key every row is read as it is stored. -/
theorem mapRow_none (encrypt : Bool) (m : Row) :
    mapRow cipher db encrypt none m = some (readRow db m) := by
  cases encrypt <;> rfl

theorem getMessages_none (network buffer : Str) (before : Option Int) (limit : Nat)
    (encrypt : Bool) :
    getMessages cipher db orderDesc network buffer before limit encrypt none =
      some ((((orderDesc (older db network buffer before)).take limit).map
        (readRow db)).reverse) := by
  have hread : mapRow cipher db encrypt none = fun m => some (readRow db m) := by
    funext m
    exact mapRow_none cipher db encrypt m
  rw [getMessages, hread]
  exact congrArg (Option.map List.reverse) (List.mapM_pure (m := Option))

end Select

theorem mem_older {db : List Row} {network buffer : Str} {before : Option Int} {m : Row} :
    m ∈ older db network buffer before ↔
      m ∈ db ∧ m.network = network ∧ m.buffer = buffer ∧
        ∀ ts, before = some ts → m.timestamp < ts := by
  cases before with
  | none => simp [older]
  | some ts => simp [older, and_assoc]

/-- One way to order the rows. -/
def byTimestamp (rows : List Row) : List Row :=
  rows.insertionSort (fun m m' => m'.timestamp ≤ m.timestamp)

theorem ordersDesc_byTimestamp : OrdersDesc byTimestamp := by
  have htotal : Std.Total (fun m m' : Row => m'.timestamp ≤ m.timestamp) :=
    ⟨fun m m' => Int.le_total m'.timestamp m.timestamp⟩
  have htrans : IsTrans Row (fun m m' => m'.timestamp ≤ m.timestamp) :=
    ⟨fun _ _ _ h h' => Int.le_trans h' h⟩
  exact ⟨List.perm_insertionSort _, List.pairwise_insertionSort _⟩

/-! ### Pages with a cursor -/

/-- The order of the log: by time, and by row within a second. -/
def Row.Before (m m' : Row) : Prop :=
  m.timestamp < m'.timestamp ∨ m.timestamp = m'.timestamp ∧ m.id < m'.id

instance : DecidableRel Row.Before := fun _ _ => inferInstanceAs (Decidable (_ ∨ _))

/-- The rows of a buffer that are older than a cursor of a timestamp and a row. -/
def olderThan (db : List Row) (network buffer : Str) (before : Option (Int × Int)) : List Row :=
  db.filter (fun m => decide (m.network = network) && decide (m.buffer = buffer) &&
    before.all (fun (ts, id) =>
      decide (m.timestamp < ts) || decide (m.timestamp = ts) && decide ((m.id : Int) < id)))

/-- `ORDER BY m.timestamp DESC, m.id DESC` -/
def byTimeAndRow (rows : List Row) : List Row :=
  rows.insertionSort (fun m m' =>
    m'.timestamp < m.timestamp ∨ m'.timestamp = m.timestamp ∧ m'.id ≤ m.id)

/-- The newest rows of a buffer before a cursor, in chronological order. -/
def getMessagesPaginated {Key : Type} (cipher : Cipher Key) (db : List Row)
    (network buffer : Str) (before : Option (Int × Int)) (limit : Nat) (encrypt : Bool)
    (cryptoKey : Option Key) : Option (List StoredMessage) :=
  (((byTimeAndRow (olderThan db network buffer before)).take limit).mapM
    (mapRow cipher db encrypt cryptoKey)).map List.reverse

/-- The number of rows of a buffer and the times of its oldest and its newest one. -/
def bufferStats (db : List Row) (network buffer : Str) : Option (Nat × Int × Int) :=
  let times := (olderThan db network buffer none).map Row.timestamp
  match times.min?, times.max? with
  | some oldest, some newest => some (times.length, oldest, newest)
  | _, _ => none

theorem Row.Before.asymm {m m' : Row} (h : m.Before m') : ¬m'.Before m := by
  intro h'
  simp only [Row.Before] at h h'
  omega

theorem Row.before_or_before {m m' : Row} (h : m.id ≠ m'.id) : m.Before m' ∨ m'.Before m := by
  simp only [Row.Before]
  omega

theorem ordersNewest_byTimeAndRow : Pages.OrdersNewest Row.Before byTimeAndRow := by
  have htotal : Std.Total (fun m m' : Row =>
      m'.timestamp < m.timestamp ∨ m'.timestamp = m.timestamp ∧ m'.id ≤ m.id) :=
    ⟨fun m m' => by omega⟩
  have htrans : IsTrans Row (fun m m' =>
      m'.timestamp < m.timestamp ∨ m'.timestamp = m.timestamp ∧ m'.id ≤ m.id) :=
    ⟨fun m m' m'' h h' => by omega⟩
  refine ⟨List.perm_insertionSort _, fun rows => ?_⟩
  refine (List.pairwise_insertionSort _ rows).imp (fun {m m'} h => ?_)
  simp only [Row.Before]
  omega

/-- A row as the cursor that asks for the rows before it. -/
def Row.cursor (m : Row) : Int × Int := (m.timestamp, m.id)

theorem olderThan_cursor (db : List Row) (network buffer : Str) (c : Row) :
    olderThan db network buffer (some c.cursor) =
      (olderThan db network buffer none).filter (fun m => decide (m.Before c)) := by
  rw [olderThan, olderThan, List.filter_filter]
  refine List.filter_congr (fun m hm => ?_)
  rw [Bool.eq_iff_iff]
  simp only [Option.all_some, Option.all_none, Row.cursor, Bool.and_true,
    Bool.and_eq_true, Bool.or_eq_true, decide_eq_true_eq, Int.ofNat_lt]
  exact and_comm

section Paginated

variable {Key : Type} {cipher : Cipher Key} {db : List Row} {network buffer : Str}
  {encrypt : Bool} {cryptoKey : Option Key} {read : Row → StoredMessage}
  {rows : List Row}

theorem mapM_mapRow {l : List Row}
    (hread : ∀ m ∈ l, mapRow cipher db encrypt cryptoKey m = some (read m)) :
    l.mapM (mapRow cipher db encrypt cryptoKey) = some (l.map read) := by
  induction l with
  | nil => rfl
  | cons m l ih =>
    rw [List.mapM_cons, hread m List.mem_cons_self,
      ih (fun m' hm' => hread m' (List.mem_cons_of_mem m hm'))]
    rfl

/-- With the rows before a cursor in their order, a page is their end. -/
theorem getMessagesPaginated_eq {before : Option (Int × Int)}
    (hrows : rows.Pairwise Row.Before)
    (hperm : (olderThan db network buffer before).Perm rows)
    (hread : ∀ m ∈ rows, mapRow cipher db encrypt cryptoKey m = some (read m)) (limit : Nat) :
    getMessagesPaginated cipher db network buffer before limit encrypt cryptoKey =
      some ((rows.rtake limit).map read) := by
  have hpage : ((byTimeAndRow (olderThan db network buffer before)).take limit).reverse =
      rows.rtake limit :=
    Pages.page_eq_rtake Row.Before.asymm ordersNewest_byTimeAndRow hrows hperm limit
  have hmem : ∀ m ∈ (byTimeAndRow (olderThan db network buffer before)).take limit, m ∈ rows := by
    intro m hm
    have hordered := ordersNewest_byTimeAndRow.perm (olderThan db network buffer before)
    exact hperm.mem_iff.mp (hordered.mem_iff.mp (List.mem_of_mem_take hm))
  rw [getMessagesPaginated, mapM_mapRow (fun m hm => hread m (hmem m hm)), ← hpage,
    List.map_reverse]
  rfl

/-- The rows that a cursor of the log selects. -/
theorem olderThan_perm {pre post : List Row} {c : Row}
    (hrows : (pre ++ c :: post).Pairwise Row.Before)
    (hperm : (olderThan db network buffer none).Perm (pre ++ c :: post)) :
    (olderThan db network buffer (some c.cursor)).Perm pre := by
  rw [olderThan_cursor]
  have hfilter := hperm.filter (fun m => decide (m.Before c))
  rwa [Pages.filter_before Row.Before.asymm hrows] at hfilter

/-- The rows of a buffer in their order. -/
theorem pairwise_reverse_byTimeAndRow (hids : (db.map Row.id).Nodup) (network buffer : Str) :
    (byTimeAndRow (olderThan db network buffer none)).reverse.Pairwise Row.Before := by
  have hinj : ∀ m ∈ db, ∀ m' ∈ db, m ≠ m' → m.id ≠ m'.id := by
    intro m hm m' hm' hne hid
    exact hne (List.inj_on_of_nodup_map hids hm hm' hid)
  have hnodup : db.Nodup := hids.of_map
  refine Pages.pairwise_reverse_order ordersNewest_byTimeAndRow (hnodup.filter _) ?_
  intro m hm m' hm' hne
  exact Row.before_or_before
    (hinj m (List.mem_of_mem_filter hm) m' (List.mem_of_mem_filter hm') hne)

end Paginated

end Repartee.Storage
