import Repartee.Lib.Newest
import Repartee.Storage.Log

/-!
# Loading the backlog of a buffer

`app/backlog.rs`: when a buffer is opened, the newest rows that are filed under the label of its
connection and its name are put in front of its messages, with a separator for each day.

## Main definitions

- `loadBacklog`: `load_backlog`
- `ReadsBack`: the last messages that were logged are read back, in their order and as they were
- `Readable`: when they are

## Main results

- `readsBack_iff`: they are read back exactly if the name is filed as it is shown, the log is plain,
  and times tell the rows apart
- `capital_name_not_read`: the history of `#Rust` is not read back
-/

set_option autoImplicit false

namespace Repartee.Storage

/-- A message of the backlog; its id is the next one of the counter. -/
structure BacklogMessage where
  timestamp : Int
  messageType : MessageType
  nick : Option Str
  text : Str
  eventKey : Option Str

/-- The local date of a timestamp, and the separator of a date. -/
structure Days (Date : Type) where
  localDate : Int → Date
  formatDateSeparator : Date → Str

/-- What `load_backlog` reads of a buffer. -/
structure NewBuffer where
  connectionId : Str
  name : Str
  bufferType : BufferType

/-- `make_buffer_id` -/
def NewBuffer.id (lower : Str → Str) (buf : NewBuffer) : Str :=
  buf.connectionId ++ '/' :: lower buf.name

def hasBacklog (t : BufferType) : Bool := t = .channel || t = .query || t = .dccChat

def makeSeparator (timestamp : Int) (text : Str) (eventKey : Str) : BacklogMessage where
  timestamp := timestamp
  messageType := .event
  nick := none
  text := text
  eventKey := some eventKey

def readType (msgType : Str) : MessageType :=
  if msgType = str "action" then .action
  else if msgType = str "notice" then .notice
  else if msgType = str "event" then .event
  else .message

def backlogMessage (stored : StoredMessage) : BacklogMessage where
  timestamp := stored.timestamp
  messageType := readType stored.msgType
  nick := stored.nick
  text := stored.text
  eventKey := none

section Load

variable {Date : Type} [DecidableEq Date] (days : Days Date)

/-- The loop of `build_backlog_messages`, from the last date. -/
def buildFrom : Option Date → List StoredMessage → List BacklogMessage
  | _, [] => []
  | lastDate, stored :: rest =>
    let date := days.localDate stored.timestamp
    let messages := backlogMessage stored :: buildFrom (some date) rest
    if lastDate = some date then messages
    else
      makeSeparator stored.timestamp (days.formatDateSeparator date) (str "date_separator") ::
        messages

def buildBacklogMessages (messages : List StoredMessage) : List BacklogMessage :=
  buildFrom days none messages

variable {Key : Type} (cipher : Cipher Key) (db : List Row) (orderDesc : List Row → List Row)
  (labels : Str → Option Str)

/-- The label of the connection of a buffer. -/
def network (buf : NewBuffer) : Str := (labels buf.connectionId).getD buf.connectionId

/-- The rows that `load_backlog` reads. -/
def loadRows (encrypt : Bool) (backlogLines : Nat) (buf : NewBuffer) : List StoredMessage :=
  if backlogLines = 0 then []
  else if hasBacklog buf.bufferType then
    (getMessages cipher db orderDesc (network labels buf) buf.name none backlogLines encrypt
      none).getD []
  else []

/-- `load_backlog`: the messages of the buffer afterwards. -/
def loadBacklog (encrypt : Bool) (backlogLines : Nat) (buf : NewBuffer) (now : Int)
    (existing : List BacklogMessage) : List BacklogMessage :=
  let messages := loadRows cipher db orderDesc labels encrypt backlogLines buf
  if messages = [] then existing
  else
    buildBacklogMessages days messages ++
      makeSeparator now
        (str "─── End of backlog (" ++ fmtNat messages.length ++ str " lines) ───")
        (str "backlog_end") :: existing

end Load

/-! ### What should be read back -/

/-- The messages among those of a buffer that are no separators. -/
def contents (messages : List BacklogMessage) : List (MessageType × Option Str × Str) :=
  (messages.filter (fun m => m.eventKey.isNone)).map (fun m => (m.messageType, m.nick, m.text))

/-- The row that has the text of a row: its primary one, if it is a reference. -/
def Logged.source (logged : List Logged) (l : Logged) : Logged :=
  (l.message.logRefId.bind (fun ref =>
    logged.find? (fun p => decide (p.row.msgId = ref)))).getD l

/-- What is to be read back of a row. -/
def Logged.original (logged : List Logged) (l : Logged) : MessageType × Option Str × Str :=
  (l.message.messageType, l.message.nick, (l.source logged).message.loggedText)

/-- The last rows that were logged for a buffer. -/
def lastLogged (logged : List Logged) (bufferId : Str) (n : Nat) : List Logged :=
  let own := logged.filter (fun l => decide (l.bufferId = bufferId))
  own.drop (own.length - n)

section Property

variable {Key : Type} (cipher : Cipher Key) (cryptoKey : Option Key) (lower : Str → Str)
  (labels : Str → Option Str) (logged : List Logged) (backlogLines : Nat) (buf : NewBuffer)

/-- The rows of the database. -/
def rowsOf : List Row := logged.map Logged.row

/-- The last messages that were logged for a buffer are read back, in their order and as they
were, however SQLite orders the rows of one second. -/
structure ReadsBack : Prop where
  rows : ∀ orderDesc, OrdersDesc orderDesc →
    (loadRows cipher (rowsOf logged) orderDesc labels cryptoKey.isSome backlogLines buf).map
      StoredMessage.id = (lastLogged logged (buf.id lower) backlogLines).map (fun l => l.row.id)
  shown : ∀ {Date : Type} [DecidableEq Date] (days : Days Date) (orderDesc : List Row → List Row)
    (now : Int) (existing : List BacklogMessage), OrdersDesc orderDesc →
      contents (loadBacklog days cipher (rowsOf logged) orderDesc labels cryptoKey.isSome
        backlogLines buf now existing) =
        (lastLogged logged (buf.id lower) backlogLines).map (Logged.original logged) ++
          contents existing

/-- When the last messages of a buffer are read back: they are filed under the name that the buffer
shows, the log is plain, each of them has a later time than the one before, and whatever else is
filed under that name is older than all of them and behind the limit. -/
structure Readable : Prop where
  filed : lastLogged logged (buf.id lower) backlogLines ≠ [] →
    rowKey labels (buf.id lower) = some (network labels buf, buf.name)
  plain : lastLogged logged (buf.id lower) backlogLines ≠ [] → cryptoKey.isNone = true
  typed : ∀ l ∈ lastLogged logged (buf.id lower) backlogLines,
    l.message.messageType ≠ .mentionLog
  increasing : (lastLogged logged (buf.id lower) backlogLines).Pairwise
    (fun l l' => l.message.timestamp < l'.message.timestamp)
  alone : ∀ l ∈ logged, rowKey labels l.bufferId = some (network labels buf, buf.name) →
    l ∉ lastLogged logged (buf.id lower) backlogLines →
    (lastLogged logged (buf.id lower) backlogLines).length = backlogLines ∧
      ∀ l' ∈ lastLogged logged (buf.id lower) backlogLines,
        l.message.timestamp < l'.message.timestamp

end Property

/-! ### What is read -/

section Read

variable {Key : Type} {cipher : Cipher Key} {cryptoKey : Option Key} {lower : Str → Str}
  {labels : Str → Option Str} {logged : List Logged} {backlogLines : Nat} {buf : NewBuffer}
  {orderDesc : List Row → List Row}

/-- The rows that are filed under the name that a buffer shows. -/
def filedRows (labels : Str → Option Str) (logged : List Logged) (buf : NewBuffer) : List Row :=
  older (rowsOf logged) (network labels buf) buf.name none

theorem loadRows_eq (encrypt : Bool) (hchat : hasBacklog buf.bufferType = true) :
    loadRows cipher (rowsOf logged) orderDesc labels encrypt backlogLines buf =
      (((orderDesc (filedRows labels logged buf)).take backlogLines).reverse).map
        (readRow (rowsOf logged)) := by
  rw [loadRows]
  by_cases hlimit : backlogLines = 0
  · rw [if_pos hlimit, hlimit, List.take_zero]
    rfl
  · rw [if_neg hlimit, if_pos hchat, getMessages_none, Option.getD_some, List.map_reverse]
    rfl

/-- Rows with their own numbers are told apart by them. -/
theorem eq_of_map_id {rows rows' : List Row}
    (hinj : ∀ r ∈ rows, ∀ r' ∈ rows', r.id = r'.id → r = r')
    (h : rows.map Row.id = rows'.map Row.id) : rows = rows' := by
  induction rows generalizing rows' with
  | nil => exact (List.map_eq_nil_iff.mp h.symm).symm
  | cons r rest ih =>
    cases rows' with
    | nil => cases h
    | cons r' rest' =>
      rw [List.map_cons, List.map_cons, List.cons.injEq] at h
      have hhead : r = r' := hinj r List.mem_cons_self r' List.mem_cons_self h.1
      have htail : rest = rest' :=
        ih (fun a ha b hb => hinj a (List.mem_cons_of_mem _ ha) b (List.mem_cons_of_mem _ hb)) h.2
      rw [hhead, htail]

section Numbers

variable (hinv : LogInv cipher cryptoKey labels logged)

include hinv

theorem row_inj {l l' : Logged} (hl : l ∈ logged) (hl' : l' ∈ logged)
    (hid : l.row.id = l'.row.id) : l = l' :=
  List.inj_on_of_nodup_map hinv.distinct hl hl' hid

theorem rowsOf_inj {r r' : Row} (hr : r ∈ rowsOf logged) (hr' : r' ∈ rowsOf logged)
    (hid : r.id = r'.id) : r = r' := by
  obtain ⟨l, hl, rfl⟩ := List.mem_map.mp hr
  obtain ⟨l', hl', rfl⟩ := List.mem_map.mp hr'
  rw [row_inj hinv hl hl' hid]

theorem nodup_rowsOf : (rowsOf logged).Nodup := by
  have hids : ((rowsOf logged).map Row.id).Nodup := by
    rw [rowsOf, List.map_map]
    exact hinv.distinct
  exact hids.of_map

end Numbers

theorem lastLogged_sublist (bufferId : Str) (n : Nat) :
    (lastLogged logged bufferId n).Sublist logged :=
  (List.drop_sublist _ _).trans List.filter_sublist

theorem mem_of_mem_lastLogged {bufferId : Str} {n : Nat} {l : Logged}
    (h : l ∈ lastLogged logged bufferId n) : l ∈ logged ∧ l.bufferId = bufferId :=
  ⟨(lastLogged_sublist bufferId n).subset h,
    of_decide_eq_true (List.mem_filter.mp (List.mem_of_mem_drop h)).2⟩

theorem length_lastLogged_le (bufferId : Str) (n : Nat) :
    (lastLogged logged bufferId n).length ≤ n := by
  simp only [lastLogged, List.length_drop]
  omega

/-- A row is read for a buffer if it is filed under the name that the buffer shows. -/
theorem mem_filedRows_iff (hinv : LogInv cipher cryptoKey labels logged) {l : Logged}
    (hl : l ∈ logged) :
    l.row ∈ filedRows labels logged buf ↔
      rowKey labels l.bufferId = some (network labels buf, buf.name) := by
  have hmem : l.row ∈ rowsOf logged := List.mem_map_of_mem hl
  rw [filedRows, mem_older, (hinv.stores l hl).filed, Option.some.injEq, Prod.mk.injEq]
  constructor
  · rintro ⟨-, hnetwork, hbuffer, -⟩
    exact ⟨hnetwork, hbuffer⟩
  · rintro ⟨hnetwork, hbuffer⟩
    exact ⟨hmem, hnetwork, hbuffer, nofun⟩

/-- The rows that are read are the last ones of the buffer, whatever SQLite does with ties, exactly
when these are the newest that are filed under its name. -/
theorem rows_iff (hinv : LogInv cipher cryptoKey labels logged)
    (hchat : hasBacklog buf.bufferType = true) (encrypt : Bool) :
    (∀ orderDesc, OrdersDesc orderDesc →
      (loadRows cipher (rowsOf logged) orderDesc labels encrypt backlogLines buf).map
        StoredMessage.id =
          (lastLogged logged (buf.id lower) backlogLines).map (fun l => l.row.id)) ↔
      Newest.IsNewest Row.timestamp (filedRows labels logged buf) backlogLines
        ((lastLogged logged (buf.id lower) backlogLines).map Logged.row) := by
  have hnodup : (filedRows labels logged buf).Nodup := (nodup_rowsOf hinv).filter _
  have hlastSub : ((lastLogged logged (buf.id lower) backlogLines).map Logged.row).Sublist
      (rowsOf logged) := (lastLogged_sublist _ _).map Logged.row
  have hlen : ((lastLogged logged (buf.id lower) backlogLines).map Logged.row).length ≤
      backlogLines := by
    rw [List.length_map]
    exact length_lastLogged_le _ _
  rw [← Newest.newest_iff hnodup hlen ((nodup_rowsOf hinv).sublist hlastSub)]
  refine ⟨fun h order horder => ?_, fun h orderDesc horder => ?_⟩
  · have hids := h order ⟨horder.perm, horder.sorted⟩
    rw [loadRows_eq encrypt hchat, List.map_map] at hids
    refine eq_of_map_id (fun r hr r' hr' => rowsOf_inj hinv ?_ (hlastSub.subset hr')) ?_
    · have hfiled : r ∈ filedRows labels logged buf :=
        (horder.perm _).subset (List.mem_of_mem_take (List.mem_reverse.mp hr))
      exact (List.mem_filter.mp hfiled).1
    · rw [List.map_map]
      exact hids
  · rw [loadRows_eq encrypt hchat, h orderDesc ⟨horder.perm, horder.sorted⟩, List.map_map,
      List.map_map]
    rfl

theorem isNewest_iff (hinv : LogInv cipher cryptoKey labels logged) :
    Newest.IsNewest Row.timestamp (filedRows labels logged buf) backlogLines
        ((lastLogged logged (buf.id lower) backlogLines).map Logged.row) ↔
      (lastLogged logged (buf.id lower) backlogLines ≠ [] →
        rowKey labels (buf.id lower) = some (network labels buf, buf.name)) ∧
      (lastLogged logged (buf.id lower) backlogLines).Pairwise
        (fun l l' => l.message.timestamp < l'.message.timestamp) ∧
      ∀ l ∈ logged, rowKey labels l.bufferId = some (network labels buf, buf.name) →
        l ∉ lastLogged logged (buf.id lower) backlogLines →
        (lastLogged logged (buf.id lower) backlogLines).length = backlogLines ∧
          ∀ l' ∈ lastLogged logged (buf.id lower) backlogLines,
            l.message.timestamp < l'.message.timestamp := by
  have htime : ∀ l ∈ logged, l.row.timestamp = l.message.timestamp := fun l hl =>
    (hinv.stores l hl).timestamp
  have hlast : ∀ l ∈ lastLogged logged (buf.id lower) backlogLines, l ∈ logged := fun l hl =>
    (mem_of_mem_lastLogged hl).1
  have hpairs : ((lastLogged logged (buf.id lower) backlogLines).map Logged.row).Pairwise
      (fun a b => a.timestamp < b.timestamp) ↔
      (lastLogged logged (buf.id lower) backlogLines).Pairwise
        (fun l l' => l.message.timestamp < l'.message.timestamp) := by
    rw [List.pairwise_map]
    refine List.Pairwise.iff_of_mem (fun {l l'} hl hl' => ?_)
    rw [htime l (hlast l hl), htime l' (hlast l' hl')]
  have hin : ∀ l ∈ logged, l.row ∈ (lastLogged logged (buf.id lower) backlogLines).map Logged.row ↔
      l ∈ lastLogged logged (buf.id lower) backlogLines := by
    intro l hl
    refine ⟨fun h => ?_, fun h => List.mem_map_of_mem h⟩
    obtain ⟨l', hl', hrow⟩ := List.mem_map.mp h
    rwa [row_inj hinv hl (hlast l' hl') (congrArg Row.id hrow.symm)]
  constructor
  · rintro ⟨hsub, hincreasing, holder⟩
    refine ⟨fun hne => ?_, hpairs.mp hincreasing, fun l hl hfiled hnot => ?_⟩
    · obtain ⟨l, hl⟩ := List.exists_mem_of_ne_nil _ hne
      rw [← (mem_of_mem_lastLogged hl).2]
      exact (mem_filedRows_iff hinv (hlast l hl)).mp (hsub _ (List.mem_map_of_mem hl))
    · obtain ⟨hfull, hlt⟩ := holder l.row ((mem_filedRows_iff hinv hl).mpr hfiled)
        (fun h => hnot ((hin l hl).mp h))
      rw [List.length_map] at hfull
      refine ⟨hfull, fun l' hl' => ?_⟩
      rw [← htime l hl, ← htime l' (hlast l' hl')]
      exact hlt l'.row (List.mem_map_of_mem hl')
  · rintro ⟨hfiled, hincreasing, halone⟩
    refine ⟨fun r hr => ?_, hpairs.mpr hincreasing, fun r hr hnot => ?_⟩
    · obtain ⟨l, hl, rfl⟩ := List.mem_map.mp hr
      refine (mem_filedRows_iff hinv (hlast l hl)).mpr ?_
      rw [(mem_of_mem_lastLogged hl).2]
      exact hfiled (List.ne_nil_of_mem hl)
    · obtain ⟨l, hl, rfl⟩ := List.mem_map.mp (List.mem_filter.mp hr).1
      obtain ⟨hfull, hlt⟩ := halone l hl ((mem_filedRows_iff hinv hl).mp hr)
        (fun h => hnot ((hin l hl).mpr h))
      rw [List.length_map]
      refine ⟨hfull, fun r' hr' => ?_⟩
      obtain ⟨l', hl', rfl⟩ := List.mem_map.mp hr'
      rw [htime l hl, htime l' (hlast l' hl')]
      exact hlt l' hl'

/-! ### What is shown -/

theorem contents_append (messages messages' : List BacklogMessage) :
    contents (messages ++ messages') = contents messages ++ contents messages' := by
  rw [contents, List.filter_append, List.map_append]
  rfl

/-- Separators aside, the backlog has one message for each row. -/
theorem contents_buildFrom {Date : Type} [DecidableEq Date] (days : Days Date)
    (messages : List StoredMessage) (lastDate : Option Date) :
    contents (buildFrom days lastDate messages) =
      messages.map (fun m => (readType m.msgType, m.nick, m.text)) := by
  induction messages generalizing lastDate with
  | nil => rfl
  | cons stored rest ih =>
    have hmessages : contents (backlogMessage stored ::
        buildFrom days (some (days.localDate stored.timestamp)) rest) =
        (stored :: rest).map (fun m => (readType m.msgType, m.nick, m.text)) := by
      rw [List.map_cons, ← ih (some (days.localDate stored.timestamp))]
      rfl
    rw [buildFrom]
    split_ifs
    · exact hmessages
    · exact hmessages

theorem contents_loadBacklog {Date : Type} [DecidableEq Date] (days : Days Date) (encrypt : Bool)
    (now : Int) (existing : List BacklogMessage) :
    contents (loadBacklog days cipher (rowsOf logged) orderDesc labels encrypt backlogLines buf now
        existing) =
      (loadRows cipher (rowsOf logged) orderDesc labels encrypt backlogLines buf).map
        (fun m => (readType m.msgType, m.nick, m.text)) ++ contents existing := by
  rw [loadBacklog]
  split_ifs with hempty
  · rw [hempty]
    rfl
  · rw [contents_append, buildBacklogMessages, contents_buildFrom]
    rfl

theorem readType_typeName_iff (t : MessageType) :
    readType (typeName t) = t ↔ t ≠ .mentionLog := by
  cases t <;> decide

section Texts

variable (hinv : LogInv cipher cryptoKey labels logged)

theorem source_mem {l : Logged} (hl : l ∈ logged) : l.source logged ∈ logged := by
  rw [Logged.source]
  cases hfound : l.message.logRefId.bind (fun ref =>
      logged.find? (fun p => decide (p.row.msgId = ref))) with
  | none => exact hl
  | some p =>
    obtain ⟨ref, -, hfind⟩ := Option.bind_eq_some_iff.mp hfound
    exact List.mem_of_find?_eq_some hfind

include hinv

theorem selectText_eq {l : Logged} (hl : l ∈ logged) :
    selectText (rowsOf logged) l.row = (l.source logged).row.text := by
  have hprimary : primary (rowsOf logged) l.row = (l.message.logRefId.bind (fun ref =>
      logged.find? (fun p => decide (p.row.msgId = ref)))).map Logged.row := by
    rw [primary, (hinv.stores l hl).refId, rowsOf]
    cases l.message.logRefId with
    | none => rfl
    | some ref =>
      rw [Option.bind_some, Option.bind_some, List.find?_map]
      rfl
  rw [selectText, hprimary, Logged.source]
  cases l.message.logRefId.bind (fun ref =>
      logged.find? (fun p => decide (p.row.msgId = ref))) with
  | none => rfl
  | some p => rfl

/-- A row of a plain log is read as it was logged, one of an encrypted log never is. -/
theorem selectText_iff
    (hcipher : ∀ text key iv ciphertext, cipher.encrypt text key iv = some ciphertext →
      ciphertext ≠ text) {l : Logged} (hl : l ∈ logged) :
    selectText (rowsOf logged) l.row = (l.source logged).message.loggedText ↔
      cryptoKey.isNone = true := by
  have hstored := (hinv.stores _ (source_mem hl)).text
  rw [selectText_eq hinv hl]
  cases cryptoKey with
  | none => exact iff_of_true hstored rfl
  | some key =>
    obtain ⟨iv, hencrypt⟩ := hstored
    exact iff_of_false (hcipher _ _ _ _ hencrypt) Bool.false_ne_true

end Texts

/-- **What is logged is read back** exactly if it is `Readable`. -/
theorem readsBack_iff_readable (hinv : LogInv cipher cryptoKey labels logged)
    (hchat : hasBacklog buf.bufferType = true)
    (hcipher : ∀ text key iv ciphertext, cipher.encrypt text key iv = some ciphertext →
      ciphertext ≠ text) :
    ReadsBack cipher cryptoKey lower labels logged backlogLines buf ↔
      Readable cryptoKey lower labels logged backlogLines buf := by
  have hlast : ∀ l ∈ lastLogged logged (buf.id lower) backlogLines, l ∈ logged := fun l hl =>
    (mem_of_mem_lastLogged hl).1
  -- once the right rows are read, what is shown is decided row by row
  have hshown : ∀ orderDesc, OrdersDesc orderDesc →
      Newest.IsNewest Row.timestamp (filedRows labels logged buf) backlogLines
        ((lastLogged logged (buf.id lower) backlogLines).map Logged.row) →
      ((loadRows cipher (rowsOf logged) orderDesc labels cryptoKey.isSome backlogLines buf).map
        (fun m => (readType m.msgType, m.nick, m.text)) =
          (lastLogged logged (buf.id lower) backlogLines).map (Logged.original logged) ↔
      ∀ l ∈ lastLogged logged (buf.id lower) backlogLines,
        l.message.messageType ≠ .mentionLog ∧ cryptoKey.isNone = true) := by
    intro orderDesc horder hnewest
    have hread := hnewest.take_reverse ((nodup_rowsOf hinv).filter _)
      (by rw [List.length_map]; exact length_lastLogged_le _ _) ⟨horder.perm, horder.sorted⟩
    rw [loadRows_eq _ hchat, hread, List.map_map, List.map_map, List.map_inj_left]
    refine forall₂_congr (fun l hl => ?_)
    have hstores := hinv.stores l (hlast l hl)
    simp only [Function.comp_apply, readRow, Logged.original, Prod.mk.injEq, hstores.msgType,
      hstores.nick, readType_typeName_iff, true_and]
    rw [selectText_iff hinv hcipher (hlast l hl)]
  constructor
  · intro h
    have hnewest := (rows_iff hinv hchat cryptoKey.isSome).mp h.rows
    obtain ⟨hfiled, hincreasing, halone⟩ := (isNewest_iff hinv).mp hnewest
    have hcontents := h.shown ⟨fun _ => (), fun _ => []⟩ byTimestamp 0 [] ordersDesc_byTimestamp
    rw [contents_loadBacklog] at hcontents
    have hrows := (hshown byTimestamp ordersDesc_byTimestamp hnewest).mp
      (List.append_cancel_right hcontents)
    refine ⟨hfiled, fun hne => ?_, fun l hl => (hrows l hl).1, hincreasing, halone⟩
    obtain ⟨l, hl⟩ := List.exists_mem_of_ne_nil _ hne
    exact (hrows l hl).2
  · intro h
    have hnewest := (isNewest_iff hinv).mpr ⟨h.filed, h.increasing, h.alone⟩
    refine ⟨(rows_iff hinv hchat cryptoKey.isSome).mpr hnewest, ?_⟩
    intro Date _ days orderDesc now existing horder
    rw [contents_loadBacklog, (hshown orderDesc horder hnewest).mpr (fun l hl =>
      ⟨h.typed l hl, h.plain (List.ne_nil_of_mem hl)⟩)]

/-- Whatever was logged in whatever buffers: the last messages of a channel or a query are read back
exactly if they are `Readable`. A ciphertext is never the text itself. -/
theorem readsBack_iff {excludeTypes : List Str} (es : List Entry)
    (hchat : buf.bufferType = .channel ∨ buf.bufferType = .query)
    (hcipher : ∀ text key iv ciphertext, cipher.encrypt text key iv = some ciphertext →
      ciphertext ≠ text) :
    ReadsBack cipher cryptoKey lower labels (written cipher cryptoKey labels excludeTypes es)
        backlogLines buf ↔
      Readable cryptoKey lower labels (written cipher cryptoKey labels excludeTypes es)
        backlogLines buf := by
  have hbacklog : hasBacklog buf.bufferType = true := by
    rcases hchat with htype | htype
    · rw [htype]
      rfl
    · rw [htype]
      rfl
  exact readsBack_iff_readable (logInv_written es) hbacklog hcipher

end Read

/-! ### Channels with and without capitals -/

namespace Sample

/-- A cipher that marks its ciphertexts. -/
def markCipher : Cipher Unit where
  encrypt := fun text _ _ => some ('x' :: text)
  decrypt := fun ciphertext _ _ => some ciphertext.tail

def logMessage (text : String) (timestamp : Int) : LogMessage :=
  ⟨.message, some (str "alice"), str text, timestamp, false, none, none, none, none⟩

/-- Two messages that arrive in a channel. -/
def rustEntries : List Entry :=
  [⟨str "libera/#rust", logMessage "one" 10, str "a", [], true⟩,
    ⟨str "libera/#rust", logMessage "two" 11, str "b", [], true⟩]

def channelBuffer (name : String) : NewBuffer := ⟨str "libera", str name, .channel⟩

def lowercase : Str → Str := List.map Char.toLower

def noLabels : Str → Option Str := fun _ => none

end Sample

open Sample in
theorem readsBack_rust :
    ReadsBack markCipher none lowercase noLabels
      (written markCipher none noLabels [] rustEntries) 10 (channelBuffer "#rust") := by
  have hcipher : ∀ text key iv ciphertext, markCipher.encrypt text key iv = some ciphertext →
      ciphertext ≠ text := by
    rintro text key iv ciphertext h rfl
    exact List.cons_ne_self _ _ (Option.some.inj h)
  refine (readsBack_iff rustEntries (.inl rfl) hcipher).mpr ⟨fun _ => rfl, fun _ => rfl, ?_, ?_, ?_⟩
  · decide
  · decide
  · decide

open Sample in
/-- The history of `#Rust` is filed under `#rust`, and looked for under `#Rust`. -/
theorem capital_name_not_read :
    ¬ ReadsBack markCipher none lowercase noLabels
      (written markCipher none noLabels [] rustEntries) 10 (channelBuffer "#Rust") := by
  intro h
  have hids := h.rows byTimestamp ordersDesc_byTimestamp
  exact absurd hids (by decide)

end Repartee.Storage
