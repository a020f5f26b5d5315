import Mathlib.Logic.Function.Iterate
import Repartee.Lib.Headings
import Repartee.Storage.Backlog

/-!
# The log browser

`app/log_browser.rs`: the log of a buffer is read in pages, from its newest row to its oldest one,
while the user scrolls up. Each page is put in front of the messages, with a separator before the
first row of each day. A page that ends on the day at the top takes the place of its separator.

## Main definitions

- `loadInitialMessages`, `loadOlderMessages`: `load_initial_messages`, `load_older_messages`
- `browse`: the first page, and a number of older ones
- `ShowsLog`: the whole log of a buffer is shown, in its order and with one separator for each day

## Main results

- `Loaded.loadOlder`: what is loaded is always the end of the log
- `browse_shows_log`: a log whose rows can be read is shown once
- `lost_key_never_exhausted`: one with a row that cannot be read is never exhausted
-/

set_option autoImplicit false

namespace Repartee.LogBrowser

open Storage Headings

/-- A message of a buffer; its time is in seconds. -/
structure Message where
  id : Nat
  timestamp : Int
  messageType : MessageType
  nick : Option Str
  nickMode : Option Str
  text : Str
  highlight : Bool
  eventKey : Option Str
  eventParams : Option (List Str)
  logMsgId : Option Str
  logRefId : Option Str
  tags : Option (List (Str × Str))
  deriving DecidableEq

structure Buffer where
  connectionId : Str
  bufferType : BufferType
  name : Str
  messages : List Message
  logTotalLines : Option Nat
  logOldestTs : Option Int
  logNewestTs : Option Int
  historyExhausted : Bool
  logInitialLoaded : Bool
  deriving DecidableEq

/-- The times that a `DateTime<Utc>` has, in seconds. -/
def InRange (secs : Int) : Prop := -8334601228800 ≤ secs ∧ secs ≤ 8210266876799

instance : DecidablePred InRange := fun _ => inferInstanceAs (Decidable (_ ∧ _))

/-- The log database. The id of a row is its `INTEGER PRIMARY KEY`, and its timestamp that of the
`DateTime<Utc>` of the message that was logged. -/
structure LogDb (Key : Type) where
  rows : List Row
  cryptoKey : Option Key
  ids_nodup : (rows.map Row.id).Nodup
  id_lt : ∀ m ∈ rows, m.id < 2 ^ 63
  inRange : ∀ m ∈ rows, InRange m.timestamp

structure App (Key : Type) where
  buffers : Dict Str Buffer
  messageCounter : Nat
  logDb : Option (LogDb Key)

/-- The local calendar, and the time when a message is built. -/
structure Clock (Date : Type) extends Days Date where
  now : Int

def logConnPrefix : Str := str "_log_"

def initialLimit : Nat := 200

def pageLimit : Nat := 200

def readType (msgType : Str) : MessageType :=
  if msgType = str "action" then .action
  else if msgType = str "notice" then .notice
  else if msgType = str "event" then .event
  else if msgType = str "mention_log" then .mentionLog
  else .message

/-- `str::parse::<i64>` -/
def parseI64 (s : Str) : Option Int :=
  (Text.parseInt (-2 ^ 63) (2 ^ 63 - 1) s).toOption

/-- `split_log_buffer_id` -/
def splitLogBufferId (buffer : Buffer) : Option (Str × Str) :=
  if buffer.bufferType = .log then
    (Text.stripPrefix logConnPrefix buffer.connectionId).map (fun net => (net, buffer.name))
  else none

section Messages

variable {Date : Type} (clock : Clock Date)

/-- `DateTime::from_timestamp`, or the time now. -/
def fromTimestamp (secs : Int) : Int := if InRange secs then secs else clock.now

/-- The local date of a row. -/
def dateOf (stored : StoredMessage) : Date := clock.localDate (fromTimestamp clock stored.timestamp)

def dateSeparator (id : Nat) (timestamp : Int) : Message :=
  let text := clock.formatDateSeparator (clock.localDate timestamp)
  { id := id, timestamp := timestamp, messageType := .event, nick := none, nickMode := none,
    text := text, highlight := false, eventKey := some (str "date_separator"),
    eventParams := some [text], logMsgId := none, logRefId := none, tags := none }

/-- `stored_to_message` -/
def storedToMessage (id : Nat) (stored : StoredMessage) : Message where
  id := id
  timestamp := fromTimestamp clock stored.timestamp
  messageType := readType stored.msgType
  nick := stored.nick
  nickMode := none
  text := stored.text
  highlight := stored.highlight
  eventKey := none
  eventParams := none
  logMsgId := some (fmtNat stored.id)
  logRefId := none
  tags := none

variable [DecidableEq Date]

/-- The loop of `rows_to_buffer_messages`, from the last date and a counter of messages. -/
def messagesFrom : Option Date → Nat → List StoredMessage → Nat × List Message
  | _, counter, [] => (counter, [])
  | lastDate, counter, stored :: rest =>
    if lastDate = some (dateOf clock stored) then
      let (counter', messages) := messagesFrom (some (dateOf clock stored)) (counter + 1) rest
      (counter', storedToMessage clock (counter + 1) stored :: messages)
    else
      let (counter', messages) := messagesFrom (some (dateOf clock stored)) (counter + 2) rest
      (counter', dateSeparator clock (counter + 1) (fromTimestamp clock stored.timestamp) ::
        storedToMessage clock (counter + 2) stored :: messages)

def rowsToBufferMessages (counter : Nat) (rows : List StoredMessage) : Nat × List Message :=
  messagesFrom clock none counter rows

/-- The messages without a separator in front that a page of these rows would repeat. -/
def dropSeparator (rows : List StoredMessage) (messages : List Message) : List Message :=
  match rows.getLast?, messages with
  | some newest, first :: rest =>
    if first.eventKey = some (str "date_separator") ∧
        clock.localDate first.timestamp = dateOf clock newest then rest
    else messages
  | _, _ => messages

variable {Key : Type} (cipher : Cipher Key)

def LogDb.page (db : LogDb Key) (net buf : Str) (before : Option (Int × Int)) (limit : Nat) :
    Option (List StoredMessage) :=
  getMessagesPaginated cipher db.rows net buf before limit db.cryptoKey.isSome db.cryptoKey

def Buffer.cacheStats (stats : Option (Nat × Int × Int)) (buffer : Buffer) : Buffer :=
  match stats with
  | some (count, oldest, newest) =>
    { buffer with
      logTotalLines := some count, logOldestTs := some oldest, logNewestTs := some newest }
  | none => buffer

def App.modifyBuffer (app : App Key) (bufferId : Str) (f : Buffer → Buffer) : App Key :=
  { app with buffers := app.buffers.modify bufferId f }

/-- Write a buffer, with new messages counted. -/
def App.writeBuffer (app : App Key) (bufferId : Str) (counter : Nat) (f : Buffer → Buffer) :
    App Key :=
  { app with messageCounter := counter, buffers := app.buffers.modify bufferId f }

def loadInitialMessages (app : App Key) (bufferId : Str) : App Key :=
  match app.buffers.lookup bufferId with
  | none => app
  | some buffer =>
    if buffer.logInitialLoaded then app
    else
      match splitLogBufferId buffer, app.logDb with
      | some (net, buf), some db =>
        let app := app.modifyBuffer bufferId (Buffer.cacheStats (bufferStats db.rows net buf))
        match db.page cipher net buf none initialLimit with
        -- A failed read is not tried again.
        | none => app.modifyBuffer bufferId (fun b => { b with logInitialLoaded := true })
        | some rows =>
          let (counter, messages) := rowsToBufferMessages clock app.messageCounter rows
          app.writeBuffer bufferId counter (fun b =>
            { b with
              messages := messages ++ b.messages
              historyExhausted := decide (rows.length < initialLimit)
              logInitialLoaded := true })
      | _, _ => app

def loadOlderMessages (app : App Key) (bufferId : Str) : App Key :=
  match app.buffers.lookup bufferId with
  | none => app
  | some buffer =>
    if buffer.historyExhausted then app
    else
      match buffer.messages.find? (fun m => m.logMsgId.isSome) with
      | none => loadInitialMessages clock cipher app bufferId
      | some oldest =>
        match oldest.logMsgId.bind parseI64 with
        | none => app
        | some oldestId =>
          match splitLogBufferId buffer, app.logDb with
          | some (net, buf), some db =>
            match db.page cipher net buf (some (oldest.timestamp, oldestId)) pageLimit with
            | none => app
            | some rows =>
              let (counter, messages) := rowsToBufferMessages clock app.messageCounter rows
              app.writeBuffer bufferId counter (fun b =>
                { b with
                  messages := messages ++ dropSeparator clock rows b.messages
                  historyExhausted := b.historyExhausted || decide (rows.length < pageLimit) })
          | _, _ => app

/-- The first page, and a number of older ones. -/
def browse (app : App Key) (bufferId : Str) (n : Nat) : App Key :=
  (fun app => loadOlderMessages clock cipher app bufferId)^[n]
    (loadInitialMessages clock cipher app bufferId)

def exhausted (app : App Key) (bufferId : Str) : Bool :=
  (app.buffers.lookup bufferId).any Buffer.historyExhausted

/-! ### What should be shown -/

/-- A message without its id. -/
def Message.content (m : Message) : Message := { m with id := 0 }

/-- A row as it is shown, and the heading of its day. -/
def lineMessage : Line StoredMessage → Message
  | .heading stored => dateSeparator clock 0 (fromTimestamp clock stored.timestamp)
  | .item stored => storedToMessage clock 0 stored

/-- In front of the local messages are all the rows of a buffer, each once and in the order of the
log, and each day has one separator, right before its first row. -/
def ShowsLog (db : LogDb Key) (net buf : Str) (locals messages : List Message) : Prop :=
  ∃ rows stored shown ls,
    (olderThan db.rows net buf none).Perm rows ∧ rows.Pairwise Row.Before ∧
    rows.mapM (mapRow cipher db.rows db.cryptoKey.isSome db.cryptoKey) = some stored ∧
    messages = shown ++ locals ∧ shown.map Message.content = ls.map (lineMessage clock) ∧
    HeadedOnce (dateOf clock) stored ls

/-- Older pages are loaded until the log is exhausted, and then it is shown. -/
def BrowsesLog (db : LogDb Key) (net buf : Str) (app : App Key) (bufferId : Str)
    (locals : List Message) : Prop :=
  (∃ n, exhausted (browse clock cipher app bufferId n) bufferId = true) ∧
    ∀ n, exhausted (browse clock cipher app bufferId n) bufferId = true →
      ∃ b, (browse clock cipher app bufferId n).buffers.lookup bufferId = some b ∧
        ShowsLog clock cipher db net buf locals b.messages

end Messages

/-! ### Putting a page in front -/

section Front

variable {Date : Type} [DecidableEq Date] {clock : Clock Date}

theorem contents_messagesFrom (last : Option Date) (counter : Nat) (rows : List StoredMessage) :
    (messagesFrom clock last counter rows).2.map Message.content =
      (lines (dateOf clock) last rows).map (lineMessage clock) := by
  -- The counter only numbers the messages: the content depends on the last day alone.
  induction rows generalizing last counter with
  | nil => rfl
  | cons stored rest ih =>
    by_cases h : last = some (dateOf clock stored)
    · rw [messagesFrom, if_pos h, h, lines_same, List.map_cons, List.map_cons, ih]
      rfl
    · rw [messagesFrom, if_neg h, lines_of_ne _ h, List.map_cons, List.map_cons, List.map_cons,
        List.map_cons, ih]
      rfl

/-- In front of the local messages are some rows under the separators of their days. -/
def ShowsRows (clock : Clock Date) (rows : List StoredMessage) (locals messages : List Message) :
    Prop :=
  ∃ shown, messages = shown ++ locals ∧
    shown.map Message.content = (lines (dateOf clock) none rows).map (lineMessage clock)

variable {rows : List StoredMessage} {locals messages : List Message}

theorem dropSeparator_cons {newest : StoredMessage} {page : List StoredMessage}
    (hnewest : page.getLast? = some newest) (first : Message) (rest : List Message) :
    dropSeparator clock page (first :: rest) =
      if first.eventKey = some (str "date_separator") ∧
          clock.localDate first.timestamp = dateOf clock newest then rest
      else first :: rest := by
  simp only [dropSeparator, hnewest]

/-- The separator at the top is left out exactly if the rows in front of it end on its day. -/
theorem ShowsRows.dropSeparator {oldest newest : StoredMessage} {page : List StoredMessage}
    (h : ShowsRows clock (oldest :: rows) locals messages) (hnewest : page.getLast? = some newest) :
    ∃ shown, LogBrowser.dropSeparator clock page messages = shown ++ locals ∧
      shown.map Message.content =
        (if dateOf clock newest = dateOf clock oldest then
          (lines (dateOf clock) none (oldest :: rows)).tail
        else lines (dateOf clock) none (oldest :: rows)).map (lineMessage clock) := by
  obtain ⟨shown, rfl, hshown⟩ := h
  have hlines := lines_none_cons (dateOf clock) oldest rows
  rw [hlines, List.map_cons] at hshown
  obtain ⟨first, rest, rfl, hfirst, hrest⟩ := List.map_eq_cons_iff.mp hshown
  have hkey : first.eventKey = some (str "date_separator") := congrArg Message.eventKey hfirst
  have htime : first.timestamp = fromTimestamp clock oldest.timestamp :=
    congrArg Message.timestamp hfirst
  rw [List.cons_append, dropSeparator_cons hnewest, hkey, htime, hlines, List.tail_cons]
  by_cases hdate : dateOf clock newest = dateOf clock oldest
  · rw [if_pos hdate, if_pos ⟨rfl, hdate.symm⟩]
    exact ⟨rest, rfl, hrest⟩
  · rw [if_neg hdate, if_neg (fun heq => hdate heq.2.symm)]
    exact ⟨first :: rest, rfl, hshown⟩

/-- **A page in front of the rows after it is shown as one list with them.** -/
theorem ShowsRows.prepend (h : ShowsRows clock rows locals messages) (hrows : rows ≠ [])
    (counter : Nat) (page : List StoredMessage) :
    ShowsRows clock (page ++ rows) locals
      ((rowsToBufferMessages clock counter page).2 ++ LogBrowser.dropSeparator clock page messages)
    := by
  obtain ⟨oldest, rest, rfl⟩ := List.exists_cons_of_ne_nil hrows
  cases hnewest : page.getLast? with
  | none =>
    obtain rfl := List.getLast?_eq_none_iff.mp hnewest
    exact h
  | some newest =>
    obtain ⟨shown, hkept, hshown⟩ := h.dropSeparator hnewest
    refine ⟨(rowsToBufferMessages clock counter page).2 ++ shown, ?_, ?_⟩
    · rw [hkept, List.append_assoc]
    · rw [lines_append_cons _ hnewest, List.map_append, List.map_append, hshown,
        rowsToBufferMessages, contents_messagesFrom]

/-- The first message with a row id, past the separator, is that of the oldest row. -/
theorem ShowsRows.oldest {oldest : StoredMessage}
    (h : ShowsRows clock (oldest :: rows) locals messages) :
    ∃ m, messages.find? (fun m => m.logMsgId.isSome) = some m ∧
      m.logMsgId = some (fmtNat oldest.id) ∧
      m.timestamp = fromTimestamp clock oldest.timestamp := by
  obtain ⟨shown, rfl, hshown⟩ := h
  rw [lines_none_cons, List.map_cons, List.map_cons] at hshown
  obtain ⟨first, rest, rfl, hfirst, hrest⟩ := List.map_eq_cons_iff.mp hshown
  obtain ⟨m, rest', rfl, hm, -⟩ := List.map_eq_cons_iff.mp hrest
  have hnone : first.logMsgId = none := congrArg Message.logMsgId hfirst
  have hid : m.logMsgId = some (fmtNat oldest.id) := congrArg Message.logMsgId hm
  refine ⟨m, ?_, hid, congrArg Message.timestamp hm⟩
  have hfirst' : ¬first.logMsgId.isSome = true := by simp [hnone]
  have hsome : m.logMsgId.isSome = true := by simp [hid]
  rw [List.cons_append, List.cons_append]
  exact (List.find?_cons_of_neg (p := fun m : Message => m.logMsgId.isSome) hfirst').trans
    (List.find?_cons_of_pos (p := fun m : Message => m.logMsgId.isSome) hsome)

end Front

/-! ### The rows of a buffer -/

section Rows

variable {Date : Type} {clock : Clock Date} {Key : Type} {cipher : Cipher Key} {db : LogDb Key}
  {net buf : Str} {rows : List Row} {read : Row → StoredMessage}

/-- What is known of the rows of a buffer. -/
structure Rows (clock : Clock Date) (cipher : Cipher Key) (db : LogDb Key) (net buf : Str)
    (rows : List Row) (read : Row → StoredMessage) : Prop where
  sorted : rows.Pairwise Row.Before
  perm : (olderThan db.rows net buf none).Perm rows
  read : ∀ m ∈ rows,
    mapRow cipher db.rows db.cryptoKey.isSome db.cryptoKey m = some (read m)

namespace Rows

variable (h : Rows clock cipher db net buf rows read)

include h

theorem first_page : db.page cipher net buf none initialLimit =
    some ((rows.rtake initialLimit).map read) :=
  getMessagesPaginated_eq h.sorted h.perm h.read initialLimit

/-- Before the row at a position comes the page that ends there. -/
theorem older_page {k : Nat} (hk : k < rows.length) :
    db.page cipher net buf (some rows[k].cursor) pageLimit =
      some (((rows.take k).rtake pageLimit).map read) := by
  have hsplit : rows.take k ++ rows[k] :: rows.drop (k + 1) = rows := by
    rw [List.getElem_cons_drop hk, List.take_append_drop]
  have hsorted : (rows.take k ++ rows[k] :: rows.drop (k + 1)).Pairwise Row.Before := by
    rw [hsplit]
    exact h.sorted
  have hall : (olderThan db.rows net buf none).Perm
      (rows.take k ++ rows[k] :: rows.drop (k + 1)) := by
    rw [hsplit]
    exact h.perm
  have hperm : (olderThan db.rows net buf (some rows[k].cursor)).Perm (rows.take k) :=
    olderThan_perm hsorted hall
  exact getMessagesPaginated_eq (h.sorted.sublist (List.take_sublist k rows)) hperm
    (fun m hm => h.read m (List.mem_of_mem_take hm)) pageLimit

theorem mem_db {m : Row} (hm : m ∈ rows) : m ∈ db.rows :=
  List.mem_of_mem_filter (h.perm.mem_iff.mpr hm)

theorem inRange {m : Row} (hm : m ∈ rows) : InRange m.timestamp := db.inRange m (h.mem_db hm)

theorem mapM_rows :
    rows.mapM (mapRow cipher db.rows db.cryptoKey.isSome db.cryptoKey) = some (rows.map read) :=
  mapM_mapRow h.read

theorem timestamp_read {m : Row} (hm : m ∈ rows) : (read m).timestamp = m.timestamp :=
  (id_and_timestamp_of_mapRow cipher db.rows (h.read m hm)).2

theorem dateOf_read {m : Row} (hm : m ∈ rows) :
    dateOf clock (read m) = clock.localDate m.timestamp := by
  rw [dateOf, fromTimestamp, h.timestamp_read hm, if_pos (h.inRange hm)]

/-- The rows of each day stand together. -/
theorem contiguous
    (hdays : ∀ t t' t'', t ≤ t' → t' ≤ t'' → clock.localDate t = clock.localDate t'' →
      clock.localDate t' = clock.localDate t'') :
    Contiguous (dateOf clock) (rows.map read) := by
  have htime : rows.Pairwise (fun m m' => (read m).timestamp ≤ (read m').timestamp) := by
    refine h.sorted.imp_of_mem (fun {m m'} hm hm' hbefore => ?_)
    rw [h.timestamp_read hm, h.timestamp_read hm']
    simp only [Row.Before] at hbefore
    omega
  -- A timestamp of the log is in range, so its day is not the day of the fallback.
  have hdate : ∀ stored ∈ rows.map read,
      dateOf clock stored = clock.localDate stored.timestamp := by
    intro stored hstored
    obtain ⟨m, hm, rfl⟩ := List.mem_map.mp hstored
    rw [h.dateOf_read hm, h.timestamp_read hm]
  refine contiguous_of_sorted _ (List.pairwise_map.mpr htime) ?_
  intro a ha b hb c hc hab hbc heq
  rw [hdate b hb, hdate c hc]
  rw [hdate a ha, hdate c hc] at heq
  exact hdays _ _ _ hab hbc heq

end Rows

end Rows

/-! ### The loop -/

section Loop

variable {Date : Type} [DecidableEq Date] {clock : Clock Date} {Key : Type} {cipher : Cipher Key}
  {db : LogDb Key} {net buf bufferId : Str} {locals : List Message} {rows : List Row}
  {read : Row → StoredMessage}

theorem lookup_modifyBuffer {app : App Key} {b : Buffer}
    (h : app.buffers.lookup bufferId = some b) (f : Buffer → Buffer) :
    (app.modifyBuffer bufferId f).buffers.lookup bufferId = some (f b) := by
  rw [App.modifyBuffer, Dict.lookup_modify, if_pos rfl, h, Option.map_some]

theorem lookup_writeBuffer {app : App Key} {b : Buffer}
    (h : app.buffers.lookup bufferId = some b) (counter : Nat) (f : Buffer → Buffer) :
    (app.writeBuffer bufferId counter f).buffers.lookup bufferId = some (f b) :=
  lookup_modifyBuffer h f

theorem messages_cacheStats (stats : Option (Nat × Int × Int)) (b : Buffer) :
    (b.cacheStats stats).messages = b.messages := by
  cases stats <;> rfl

theorem splitLogBufferId_cacheStats (stats : Option (Nat × Int × Int)) (b : Buffer) :
    splitLogBufferId (b.cacheStats stats) = splitLogBufferId b := by
  cases stats <;> rfl

/-- The rows from a position on are loaded, all of them if the log is exhausted. -/
structure Loaded (clock : Clock Date) (db : LogDb Key) (net buf bufferId : Str)
    (rows : List StoredMessage) (locals : List Message) (k : Nat) (done : Bool)
    (app : App Key) : Prop where
  logDb : app.logDb = some db
  buffer : ∃ b, app.buffers.lookup bufferId = some b ∧
    splitLogBufferId b = some (net, buf) ∧ b.historyExhausted = done ∧
    ShowsRows clock (rows.drop k) locals b.messages
  position : if done then k = 0 else k < rows.length

/-- Writing a buffer that keeps what it is the log of. -/
theorem Loaded.writeBuffer {app : App Key} {b : Buffer} {stored : List StoredMessage} {k : Nat}
    {done : Bool} {f : Buffer → Buffer} (hdb : app.logDb = some db)
    (hlookup : app.buffers.lookup bufferId = some b)
    (hsplit : splitLogBufferId b = some (net, buf))
    (hconn : (f b).connectionId = b.connectionId) (htype : (f b).bufferType = b.bufferType)
    (hname : (f b).name = b.name) (hdone : (f b).historyExhausted = done)
    (hshows : ShowsRows clock (stored.drop k) locals (f b).messages)
    (hposition : if done then k = 0 else k < stored.length) (counter : Nat) :
    Loaded clock db net buf bufferId stored locals k done
      (app.writeBuffer bufferId counter f) := by
  have hsame : splitLogBufferId (f b) = some (net, buf) := by
    rw [← hsplit, splitLogBufferId, splitLogBufferId, hconn, htype, hname]
  exact ⟨hdb, ⟨f b, lookup_writeBuffer hlookup counter f, hsame, hdone, hshows⟩, hposition⟩

theorem Loaded.exhausted_eq {app : App Key} {stored : List StoredMessage} {k : Nat} {done : Bool}
    (h : Loaded clock db net buf bufferId stored locals k done app) :
    exhausted app bufferId = done := by
  obtain ⟨b, hlookup, -, hdone, -⟩ := h.buffer
  rw [exhausted, hlookup, Option.any_some, hdone]

/-- An exhausted log is left as it is. -/
theorem Loaded.loadOlder_of_done {app : App Key} {stored : List StoredMessage} {k : Nat}
    (h : Loaded clock db net buf bufferId stored locals k true app) :
    Loaded clock db net buf bufferId stored locals k true
      (loadOlderMessages clock cipher app bufferId) := by
  obtain ⟨b, hlookup, -, hdone, -⟩ := h.buffer
  have hsame : loadOlderMessages clock cipher app bufferId = app := by
    rw [loadOlderMessages, hlookup]
    exact if_pos hdone
  rw [hsame]
  exact h

theorem parseI64_fmtNat {n : Nat} (hn : n < 2 ^ 63) : parseI64 (fmtNat n) = some (n : Int) := by
  have hparse : Text.parseInt (-2 ^ 63) (2 ^ 63 - 1) (Text.formatInt (n : Int)) = .ok (n : Int) :=
    Text.parseInt_formatInt (by omega) (by omega) (by omega) (by omega)
  rw [parseI64, fmtNat, hparse]
  rfl

namespace Rows

variable (h : Rows clock cipher db net buf rows read)

include h

/-- The first page of a buffer is the end of its log. -/
theorem loadInitial {app : App Key} {b : Buffer} (hlookup : app.buffers.lookup bufferId = some b)
    (hsplit : splitLogBufferId b = some (net, buf)) (hdb : app.logDb = some db)
    (hfresh : b.logInitialLoaded = false) :
    Loaded clock db net buf bufferId (rows.map read) b.messages (rows.length - initialLimit)
      (decide (rows.length < initialLimit)) (loadInitialMessages clock cipher app bufferId) := by
  have hlength : ((rows.rtake initialLimit).map read).length = min initialLimit rows.length := by
    rw [List.length_map, List.rtake, List.length_drop]
    omega
  have hless : min initialLimit rows.length < initialLimit ↔ rows.length < initialLimit := by
    omega
  have hdrop : (rows.map read).drop (rows.length - initialLimit) =
      (rows.rtake initialLimit).map read := by
    rw [List.rtake, List.map_drop]
  rw [loadInitialMessages, hlookup]
  simp only [hfresh, hsplit, hdb, h.first_page, Bool.false_eq_true, if_false, hlength, hless]
  -- The statistics are written first, and nothing that a page is read from depends on them.
  have hcached := lookup_modifyBuffer hlookup (Buffer.cacheStats (bufferStats db.rows net buf))
  have hdb' : (app.modifyBuffer bufferId
      (Buffer.cacheStats (bufferStats db.rows net buf))).logDb = some db := hdb
  have hsplit' : splitLogBufferId (b.cacheStats (bufferStats db.rows net buf)) =
      some (net, buf) := by
    rw [splitLogBufferId_cacheStats, hsplit]
  refine Loaded.writeBuffer hdb' hcached hsplit' ?_ ?_ ?_ ?_ ?_ ?_ _
  iterate 4 rfl
  · refine ⟨(rowsToBufferMessages clock app.messageCounter ((rows.rtake initialLimit).map read)).2,
      ?_, ?_⟩
    · show _ ++ (b.cacheStats _).messages = _
      rw [messages_cacheStats]
      rfl
    · rw [hdrop]
      exact contents_messagesFrom none app.messageCounter _
  · rw [List.length_map]
    have hpos : 0 < initialLimit := by decide
    split_ifs with hdone <;> rw [decide_eq_true_eq] at hdone <;> omega

/-- **The next page puts the rows right before those that are loaded in front of them.** -/
theorem loadOlder {app : App Key} {k : Nat}
    (hloaded : Loaded clock db net buf bufferId (rows.map read) locals k false app) :
    Loaded clock db net buf bufferId (rows.map read) locals (k - pageLimit)
      (decide (k < pageLimit)) (loadOlderMessages clock cipher app bufferId) := by
  obtain ⟨hdb, ⟨b, hlookup, hsplit, hdone, hshows⟩, hk⟩ := hloaded
  rw [List.length_map, if_neg Bool.false_ne_true] at hk
  have hmem : rows[k] ∈ rows := List.getElem_mem hk
  obtain ⟨hid, htime⟩ := id_and_timestamp_of_mapRow cipher db.rows (h.read _ hmem)
  have hdrop : (rows.map read).drop k = read rows[k] :: (rows.map read).drop (k + 1) := by
    rw [← List.map_drop, ← List.getElem_cons_drop hk, List.map_cons, List.map_drop]
  -- The cursor is the row at the position: the separator above it has no row id.
  obtain ⟨m, hfind, hlogMsgId, htimestamp⟩ := (hdrop ▸ hshows).oldest
  rw [hid] at hlogMsgId
  rw [fromTimestamp, htime, if_pos (h.inRange hmem)] at htimestamp
  have hparse : m.logMsgId.bind parseI64 = some ((rows[k].id : Nat) : Int) := by
    rw [hlogMsgId, Option.bind_some, parseI64_fmtNat (db.id_lt _ (h.mem_db hmem))]
  have hpage : db.page cipher net buf (some (m.timestamp, ((rows[k].id : Nat) : Int))) pageLimit =
      some (((rows.take k).rtake pageLimit).map read) := by
    rw [htimestamp]
    exact h.older_page hk
  have hlength : (((rows.take k).rtake pageLimit).map read).length = min pageLimit k := by
    rw [List.length_map, Pages.length_rtake_take hk.le]
  have hless : min pageLimit k < pageLimit ↔ k < pageLimit := by
    omega
  -- The page ends right before the position, so nothing is left out and nothing comes twice.
  have hjoin : ((rows.take k).rtake pageLimit).map read ++ (rows.map read).drop k =
      (rows.map read).drop (k - pageLimit) := by
    rw [← List.map_drop, ← List.map_append, Pages.rtake_take_append_drop hk.le, List.map_drop]
  rw [loadOlderMessages, hlookup]
  simp only [hdone, hfind, hparse, hsplit, hdb, hpage, Bool.false_eq_true, if_false, hlength, hless]
  refine Loaded.writeBuffer hdb hlookup hsplit ?_ ?_ ?_ ?_ ?_ ?_ _
  iterate 3 rfl
  · show (b.historyExhausted || _) = _
    rw [hdone, Bool.false_or]
  · rw [← hjoin]
    refine hshows.prepend ?_ app.messageCounter _
    rw [hdrop]
    exact List.cons_ne_nil _ _
  · rw [List.length_map]
    split_ifs with hless <;> rw [decide_eq_true_eq] at hless <;> omega

/-- **After any number of older pages the end of the log is loaded, all of it once the log is
exhausted.** -/
theorem loaded_browse {app : App Key} {b : Buffer}
    (hlookup : app.buffers.lookup bufferId = some b)
    (hsplit : splitLogBufferId b = some (net, buf)) (hdb : app.logDb = some db)
    (hfresh : b.logInitialLoaded = false) (n : Nat) :
    ∃ k done, Loaded clock db net buf bufferId (rows.map read) b.messages k done
        (browse clock cipher app bufferId n) ∧
      (done = false → k + initialLimit + n * pageLimit = rows.length) := by
  induction n with
  | zero =>
    refine ⟨_, _, h.loadInitial hlookup hsplit hdb hfresh, fun hdone => ?_⟩
    rw [decide_eq_false_iff_not] at hdone
    omega
  | succ n ih =>
    obtain ⟨k, done, hloaded, hcount⟩ := ih
    rw [browse, Function.iterate_succ_apply', ← browse]
    cases done with
    | true => exact ⟨k, true, hloaded.loadOlder_of_done, fun hdone => absurd hdone (by decide)⟩
    | false =>
      refine ⟨_, _, h.loadOlder hloaded, fun hdone => ?_⟩
      rw [decide_eq_false_iff_not] at hdone
      have hcount' := hcount rfl
      rw [Nat.succ_mul]
      omega

end Rows

/-- **A log whose rows can be read is shown once**: the rows of a buffer in the order of the log,
before the local messages and each day under one separator. -/
theorem browse_shows_log {app : App Key} {b : Buffer}
    (hlookup : app.buffers.lookup bufferId = some b)
    (hsplit : splitLogBufferId b = some (net, buf)) (hdb : app.logDb = some db)
    (hfresh : b.logInitialLoaded = false)
    (hread : ∀ m ∈ olderThan db.rows net buf none,
      (mapRow cipher db.rows db.cryptoKey.isSome db.cryptoKey m).isSome = true)
    (hdays : ∀ t t' t'', t ≤ t' → t' ≤ t'' → clock.localDate t = clock.localDate t'' →
      clock.localDate t' = clock.localDate t'') :
    BrowsesLog clock cipher db net buf app bufferId b.messages := by
  let read : Row → StoredMessage := fun m =>
    (mapRow cipher db.rows db.cryptoKey.isSome db.cryptoKey m).getD (readRow db.rows m)
  have hperm : (olderThan db.rows net buf none).Perm
      (byTimeAndRow (olderThan db.rows net buf none)).reverse :=
    (ordersNewest_byTimeAndRow.perm _).symm.trans (List.reverse_perm _).symm
  have h : Rows clock cipher db net buf
      (byTimeAndRow (olderThan db.rows net buf none)).reverse read := by
    refine ⟨pairwise_reverse_byTimeAndRow db.ids_nodup net buf, hperm, fun m hm => ?_⟩
    obtain ⟨stored, hstored⟩ := Option.isSome_iff_exists.mp (hread m (hperm.mem_iff.mpr hm))
    simp only [read, hstored, Option.getD_some]
  generalize (byTimeAndRow (olderThan db.rows net buf none)).reverse = rows at h
  constructor
  · obtain ⟨k, done, hloaded, hcount⟩ :=
      h.loaded_browse hlookup hsplit hdb hfresh rows.length
    refine ⟨rows.length, ?_⟩
    rw [hloaded.exhausted_eq]
    by_contra hdone
    have hcount' := hcount (Bool.eq_false_iff.mpr hdone)
    simp only [initialLimit, pageLimit] at hcount'
    omega
  · intro n hn
    obtain ⟨k, done, hloaded, -⟩ := h.loaded_browse hlookup hsplit hdb hfresh n
    rw [hloaded.exhausted_eq] at hn
    subst hn
    obtain ⟨b', hlookup', -, -, shown, hmessages, hshown⟩ := hloaded.buffer
    obtain rfl : k = 0 := hloaded.position
    rw [List.drop_zero] at hshown
    exact ⟨b', hlookup', rows, rows.map read, shown, _, h.perm, h.sorted, h.mapM_rows, hmessages,
      hshown, headedOnce_lines (h.contiguous hdays)⟩

/-! ### Rows that cannot be read -/

/-- **If the first page cannot be read, the log is never exhausted**: it is not read again, and
there is no row to ask for older ones with. -/
theorem never_exhausted {app : App Key} {b : Buffer}
    (hlookup : app.buffers.lookup bufferId = some b)
    (hsplit : splitLogBufferId b = some (net, buf)) (hdb : app.logDb = some db)
    (hfresh : b.logInitialLoaded = false) (hexhausted : b.historyExhausted = false)
    (hlocals : ∀ m ∈ b.messages, m.logMsgId = none)
    (hpage : db.page cipher net buf none initialLimit = none) (n : Nat) :
    exhausted (browse clock cipher app bufferId n) bufferId = false := by
  have hinitial : loadInitialMessages clock cipher app bufferId =
      (app.modifyBuffer bufferId (Buffer.cacheStats (bufferStats db.rows net buf))).modifyBuffer
        bufferId (fun b => { b with logInitialLoaded := true }) := by
    rw [loadInitialMessages, hlookup]
    simp only [hfresh, hsplit, hdb, hpage, Bool.false_eq_true, if_false]
  obtain ⟨b', hlookup', hloaded', hexhausted', hmessages⟩ :
      ∃ b', (loadInitialMessages clock cipher app bufferId).buffers.lookup bufferId = some b' ∧
        b'.logInitialLoaded = true ∧ b'.historyExhausted = false ∧ b'.messages = b.messages := by
    rw [hinitial]
    refine ⟨_, lookup_modifyBuffer (lookup_modifyBuffer hlookup _) _, rfl, ?_, ?_⟩
    · rw [← hexhausted]
      cases bufferStats db.rows net buf <;> rfl
    · exact messages_cacheStats (bufferStats db.rows net buf) b
  have hfind : b'.messages.find? (fun m => m.logMsgId.isSome) = none := by
    rw [hmessages, List.find?_eq_none]
    intro m hm
    rw [hlocals m hm]
    exact Bool.false_ne_true
  rw [browse]
  generalize loadInitialMessages clock cipher app bufferId = app' at hlookup'
  have hsame : loadOlderMessages clock cipher app' bufferId = app' := by
    rw [loadOlderMessages, hlookup']
    simp only [hexhausted', hfind, Bool.false_eq_true, if_false]
    rw [loadInitialMessages, hlookup']
    exact if_pos hloaded'
  rw [Function.iterate_fixed hsame n, exhausted, hlookup', Option.any_some, hexhausted']

end Loop

/-! ### A log and its key -/

namespace Sample

/-- A cipher that opens a text with the key that it was closed with. -/
def sealCipher : Cipher Bool where
  encrypt := fun text key _ => some ((if key then 'k' else 'l') :: text)
  decrypt := fun ciphertext _ key =>
    if ciphertext.head? = some (if key then 'k' else 'l') then some ciphertext.tail else none

def logRow (id : Nat) (timestamp : Int) (text : String) : Row where
  id := id
  msgId := str "m" ++ fmtNat id
  network := str "libera"
  buffer := str "#rust"
  timestamp := timestamp
  msgType := str "message"
  nick := some (str "alice")
  text := 'k' :: str text
  highlight := false
  iv := some []
  refId := none
  tags := none
  eventKey := none

/-- A log of two days whose rows are closed with one key, opened with another or the same one. -/
def logDb (key : Bool) : LogDb Bool where
  rows := [logRow 1 86399 "one", logRow 2 86400 "two", logRow 3 86400 "three"]
  cryptoKey := some key
  ids_nodup := by decide
  id_lt := by decide
  inRange := by decide

def utcClock : Clock Int where
  localDate := fun secs => secs / 86400
  formatDateSeparator := Text.formatInt
  now := 0

def helpLine : Message where
  id := 1
  timestamp := 86500
  messageType := .event
  nick := none
  nickMode := none
  text := str "/help"
  highlight := false
  eventKey := none
  eventParams := none
  logMsgId := none
  logRefId := none
  tags := none

def logBuffer : Buffer where
  connectionId := str "_log_libera"
  bufferType := .log
  name := str "#rust"
  messages := [helpLine]
  logTotalLines := none
  logOldestTs := none
  logNewestTs := none
  historyExhausted := false
  logInitialLoaded := false

def bufferId : Str := str "_log_libera/#rust"

def logApp (key : Bool) : App Bool where
  buffers := Dict.insert Table.empty bufferId logBuffer
  messageCounter := 1
  logDb := some (logDb key)

end Sample

open Sample in
theorem browse_sealed_log :
    BrowsesLog utcClock sealCipher (logDb true) (str "libera") (str "#rust") (logApp true)
      Sample.bufferId [helpLine] := by
  refine browse_shows_log (b := logBuffer) (by decide) (by decide) rfl rfl (by decide) ?_
  intro t t' t'' h h' heq
  simp only [utcClock] at heq ⊢
  omega

open Sample in
/-- Opened with another key, the log is never exhausted. -/
theorem lost_key_never_exhausted :
    ¬BrowsesLog utcClock sealCipher (logDb false) (str "libera") (str "#rust") (logApp false)
      Sample.bufferId [helpLine] := by
  rintro ⟨⟨n, hn⟩, -⟩
  have hpage : (logDb false).page sealCipher (str "libera") (str "#rust") none initialLimit =
      none := by decide
  have hsplit : splitLogBufferId logBuffer = some (str "libera", str "#rust") := by decide
  have hnever : exhausted (browse utcClock sealCipher (logApp false) Sample.bufferId n)
      Sample.bufferId = false :=
    never_exhausted (by decide) hsplit rfl rfl rfl (by decide) hpage n
  exact absurd (hnever.symm.trans hn) Bool.false_ne_true

end Repartee.LogBrowser
