import Repartee.App.State
import Repartee.Lib.Run
import Repartee.Storage.Query

/-!
# Writing the log

`maybe_log` in `state/events.rs` and `flush` in `storage/writer.rs`: a message of a buffer becomes
a row of the database. The row is filed under the label of the connection and the name in the id of
the buffer, which is lowercase.

## Main definitions

- `maybeLog`: `maybe_log`
- `flushRow`: what `flush` inserts
- `written`: the rows of a sequence of messages, each with the message it stores

## Main results

- `logInv_written`: every row stores its message
-/

set_option autoImplicit false

namespace Repartee.Storage

/-- A message of a buffer, as far as it is logged; `tags` are in JSON. -/
structure LogMessage where
  messageType : MessageType
  nick : Option Str
  text : Str
  timestamp : Int
  highlight : Bool
  logMsgId : Option Str
  logRefId : Option Str
  tags : Option Str
  eventKey : Option Str
  deriving DecidableEq

structure LogRow where
  msgId : Str
  network : Str
  buffer : Str
  timestamp : Int
  msgType : MessageType
  nick : Option Str
  text : Str
  highlight : Bool
  refId : Option Str
  tags : Option Str
  eventKey : Option Str
  deriving DecidableEq

/-- The text that is logged: a reference has none of its own. -/
def LogMessage.loggedText (m : LogMessage) : Str := if m.logRefId.isSome then [] else m.text

/-- Under what the messages of a buffer are filed: the label of its connection and its name. -/
def rowKey (labels : Str → Option Str) (bufferId : Str) : Option (Str × Str) :=
  (Text.splitOnce '/' bufferId).map (fun p => ((labels p.1).getD p.1, p.2))

/-- `maybe_log`; `uuid` is a fresh id. -/
def maybeLog (labels : Str → Option Str) (excludeTypes : List Str) (bufferId : Str)
    (m : LogMessage) (uuid : Str) : Option LogRow :=
  if excludeTypes.any (fun t => eqIgnoreAsciiCase t m.messageType.asStr) then none
  else
    (rowKey labels bufferId).map (fun k =>
      { msgId := m.logMsgId.getD uuid
        network := k.1
        buffer := k.2
        timestamp := m.timestamp
        msgType := m.messageType
        nick := m.nick
        text := m.loggedText
        highlight := m.highlight
        refId := m.logRefId
        tags := m.tags
        eventKey := m.eventKey })

/-- `format!("{:?}", msg_type).to_lowercase()` -/
def typeName : MessageType → Str
  | .message => str "message"
  | .action => str "action"
  | .event => str "event"
  | .notice => str "notice"
  | .mentionLog => str "mentionlog"

/-- What `flush` inserts; a row whose encryption fails is skipped. -/
def flushRow {Key : Type} (cipher : Cipher Key) (cryptoKey : Option Key) (iv : List UInt8)
    (id : Nat) (row : LogRow) : Option Row :=
  let stored : Option (Str × Option (List UInt8)) :=
    match cryptoKey with
    | some key => (cipher.encrypt row.text key iv).map (fun ciphertext => (ciphertext, some iv))
    | none => some (row.text, none)
  stored.map (fun s =>
    { id := id
      msgId := row.msgId
      network := row.network
      buffer := row.buffer
      timestamp := row.timestamp
      msgType := typeName row.msgType
      nick := row.nick
      text := s.1
      highlight := row.highlight
      iv := s.2
      refId := row.refId
      tags := row.tags
      eventKey := row.eventKey })

/-- A message that is appended to a buffer, the ids that are drawn for it, and whether it gets
through the queue of the writer and is inserted. -/
structure Entry where
  bufferId : Str
  message : LogMessage
  uuid : Str
  iv : List UInt8
  arrives : Bool

/-- A row of the database, with the message it stores and the buffer of the message. -/
structure Logged where
  bufferId : Str
  message : LogMessage
  row : Row
  deriving DecidableEq

section Write

variable {Key : Type} (cipher : Cipher Key) (cryptoKey : Option Key)
  (labels : Str → Option Str) (excludeTypes : List Str)

def write (logged : List Logged) (e : Entry) : List Logged :=
  match (if e.arrives then maybeLog labels excludeTypes e.bufferId e.message e.uuid
      else none).bind (flushRow cipher cryptoKey e.iv (logged.length + 1)) with
  | some row => logged ++ [⟨e.bufferId, e.message, row⟩]
  | none => logged

def written (es : List Entry) : List Logged :=
  Run.run (write cipher cryptoKey labels excludeTypes) [] es

/-- A row stores its message: its text as it is, or its ciphertext. -/
structure Logged.Stores (l : Logged) : Prop where
  filed : rowKey labels l.bufferId = some (l.row.network, l.row.buffer)
  timestamp : l.row.timestamp = l.message.timestamp
  msgType : l.row.msgType = typeName l.message.messageType
  nick : l.row.nick = l.message.nick
  refId : l.row.refId = l.message.logRefId
  text : match cryptoKey with
    | some key => ∃ iv, cipher.encrypt l.message.loggedText key iv = some l.row.text
    | none => l.row.text = l.message.loggedText

/-- The log: every row stores its message, and rows have their own numbers. -/
structure LogInv (logged : List Logged) : Prop where
  stores : ∀ l ∈ logged, l.Stores cipher cryptoKey labels
  numbered : ∀ l ∈ logged, l.row.id ≤ logged.length
  distinct : (logged.map (fun l => l.row.id)).Nodup

variable {cipher cryptoKey labels excludeTypes}

theorem stores_of_flushRow {bufferId : Str} {m : LogMessage} {uuid : Str} {iv : List UInt8}
    {id : Nat} {row : Row}
    (h : (maybeLog labels excludeTypes bufferId m uuid).bind (flushRow cipher cryptoKey iv id) =
      some row) :
    Logged.Stores cipher cryptoKey labels ⟨bufferId, m, row⟩ ∧ row.id = id := by
  obtain ⟨logRow, hlog, hflush⟩ := Option.bind_eq_some_iff.mp h
  rw [maybeLog] at hlog
  split_ifs at hlog
  obtain ⟨k, hkey, rfl⟩ := Option.map_eq_some_iff.mp hlog
  simp only [flushRow] at hflush
  obtain ⟨stored, hstored, rfl⟩ := Option.map_eq_some_iff.mp hflush
  refine ⟨⟨hkey, rfl, rfl, rfl, rfl, ?_⟩, rfl⟩
  cases cryptoKey with
  | none => exact (congrArg Prod.fst (Option.some.inj hstored)).symm
  | some key =>
    obtain ⟨ciphertext, hencrypt, rfl⟩ := Option.map_eq_some_iff.mp hstored
    exact ⟨iv, hencrypt⟩

theorem logInv_write {logged : List Logged} (h : LogInv cipher cryptoKey labels logged)
    (e : Entry) : LogInv cipher cryptoKey labels (write cipher cryptoKey labels excludeTypes
      logged e) := by
  rw [write]
  split
  · rename_i row hrow
    by_cases harrives : e.arrives = true
    · rw [if_pos harrives] at hrow
      obtain ⟨hstores, hid⟩ := stores_of_flushRow hrow
      refine ⟨fun l hl => ?_, fun l hl => ?_, ?_⟩
      · rcases List.mem_append.mp hl with hl | hl
        · exact h.stores l hl
        · rw [List.mem_singleton.mp hl]
          exact hstores
      · rw [List.length_append, List.length_singleton]
        rcases List.mem_append.mp hl with hl | hl
        · exact Nat.le_succ_of_le (h.numbered l hl)
        · rw [List.mem_singleton.mp hl]
          exact hid.le
      · rw [List.map_append, List.nodup_append]
        refine ⟨h.distinct, List.nodup_singleton _, fun n hn n' hn' => ?_⟩
        obtain ⟨l, hl, rfl⟩ := List.mem_map.mp hn
        have hle := h.numbered l hl
        have hn'id : n' = logged.length + 1 := (List.mem_singleton.mp hn').trans hid
        omega
    · rw [if_neg harrives] at hrow
      cases hrow
  · exact h

theorem logInv_nil : LogInv cipher cryptoKey labels [] where
  stores := fun _ h => absurd h List.not_mem_nil
  numbered := fun _ h => absurd h List.not_mem_nil
  distinct := List.nodup_nil

theorem logInv_written (es : List Entry) :
    LogInv cipher cryptoKey labels (written cipher cryptoKey labels excludeTypes es) :=
  Run.invariant (P := LogInv cipher cryptoKey labels) (fun _ e h => logInv_write h e) logInv_nil es

end Write

end Repartee.Storage
