import Repartee.App.State
import Repartee.Lib.Run
import Repartee.Storage.Query

/-!
# The message lists of the web client

`web-ui/src/state.rs`: a client keeps one list of messages for each buffer. Live messages are put
behind a list and fetched ones in front of it, and a message whose id is listed already is left
out. A message of this process has the number of a counter as its id; one that is fetched from the
database has the number of its row.

## Main definitions

- `handleEvent`: `handle_event` on the message lists
- `Source.origin`: which message is shown
- `DropsNothing`: no message is lost, or taken for another
- `Clash`: a row has the number of a different message of this process

## Main results

- `dropsNothing_iff`: nothing is dropped exactly where no two numbers clash
- `fetched_hides_live`: a row hides a live message
-/

set_option autoImplicit false

namespace Repartee.Web

open Storage (StoredMessage)

/-- A message in memory. -/
structure Message where
  id : Nat
  timestamp : Int
  messageType : MessageType
  nick : Option Str
  nickMode : Option Str
  text : Str
  highlight : Bool
  eventKey : Option Str

structure WireMessage where
  id : Nat
  timestamp : Int
  msgType : Str
  nick : Option Str
  nickMode : Option Str
  text : Str
  highlight : Bool
  eventKey : Option Str

/-- `message_to_wire` -/
def messageToWire (m : Message) : WireMessage where
  id := m.id
  timestamp := m.timestamp
  msgType := m.messageType.asStr
  nick := m.nick
  nickMode := m.nickMode
  text := m.text
  highlight := m.highlight
  eventKey := m.eventKey

/-- `stored_to_wire`; the number of a row is positive and fits. -/
def storedToWire (m : StoredMessage) : WireMessage where
  id := m.id
  timestamp := m.timestamp
  msgType := m.msgType
  nick := m.nick
  nickMode := none
  text := m.text
  highlight := m.highlight
  eventKey := m.eventKey

/-- What a message of a list was made from. -/
inductive Source where
  | memory (m : Message)
  | stored (m : StoredMessage)
  | separator (timestamp : Int) (text : Str)

/-- The message as it is listed. -/
def Source.wire : Source → WireMessage
  | .memory m => messageToWire m
  | .stored m => storedToWire m
  | .separator timestamp text =>
    { id := 0
      timestamp := timestamp
      msgType := str "event"
      nick := none
      nickMode := none
      text := text
      highlight := false
      eventKey := some (str "date_separator") }

/-- An answer to `FetchMessages`: messages of the buffer in memory, or rows of the database. -/
inductive Answer where
  | memory (ms : List Message)
  | stored (ms : List StoredMessage)

def Answer.sources : Answer → List Source
  | .memory ms => ms.map .memory
  | .stored ms => ms.map .stored

inductive WebEvent where
  | syncInit
  | newMessage (bufferId : Str) (m : Message)
  | messages (bufferId : Str) (answer : Answer)

/-- The local date of a timestamp, and the separator of a date. -/
structure Calendar (Date : Type) where
  localDate : Int → Option Date
  separator : Date → Str

def maxBufferMessages : Nat := 1000

/-- `cap_messages` -/
def capMessages (messages : List Source) : List Source :=
  messages.drop (messages.length - maxBufferMessages)

/-- Whether a message that arrives is taken for one that is listed. -/
def Identified (x y : Source) : Prop := x.wire.id ≠ 0 ∧ y.wire.id = x.wire.id

instance (x y : Source) : Decidable (Identified x y) := inferInstanceAs (Decidable (_ ∧ _))

section Client

variable {Date : Type} [DecidableEq Date] (cal : Calendar Date)

/-- The loop of `insert_date_separators`, from the last date. -/
def separate : Option Date → List Source → List Source
  | _, [] => []
  | lastDate, x :: rest =>
    match cal.localDate x.wire.timestamp with
    | none => x :: separate lastDate rest
    | some date =>
      if lastDate = some date then x :: separate (some date) rest
      else .separator x.wire.timestamp (cal.separator date) :: x :: separate (some date) rest

def insertDateSeparators (messages : List Source) : List Source := separate cal none messages

/-- The lists of a client. -/
abbrev MessageLists := Dict Str (List Source)

def MessageLists.list (s : MessageLists) (bufferId : Str) : List Source :=
  (s.lookup bufferId).getD []

/-- `handle_event`, on the message lists. -/
def handleEvent (s : MessageLists) : WebEvent → MessageLists
  | .syncInit => Table.empty
  | .newMessage bufferId m =>
    let entry := MessageLists.list s bufferId
    Dict.insert s bufferId
      (if entry.any (fun y => Identified (.memory m) y) then entry
        else capMessages (entry ++ [.memory m]))
  | .messages bufferId answer =>
    let entry := MessageLists.list s bufferId
    let filtered := answer.sources.filter (fun x => !entry.any (fun y => Identified x y))
    Dict.insert s bufferId (capMessages (insertDateSeparators cal filtered ++ entry))

/-- The lists after a sequence of events. -/
def listsAfter (es : List WebEvent) : MessageLists := Run.run (handleEvent cal) Table.empty es

end Client

/-! ### What is shown -/

/-- A message of this process by its number, or an earlier one by its row. -/
inductive Origin where
  | current (id : Nat)
  | earlier (row : Nat)
  deriving DecidableEq

/-- The message that is shown. `logs` tells which message of this process a row stores, if any. -/
def Source.origin (logs : Nat → Option Nat) : Source → Option Origin
  | .memory m => some (.current m.id)
  | .stored m => some ((logs m.id).elim (.earlier m.id) .current)
  | .separator _ _ => none

/-- A message is listed. -/
def Shows (logs : Nat → Option Nat) (messages : List Source) (x : Source) : Prop :=
  ∃ y ∈ messages, y.origin logs = x.origin logs

namespace WebEvent

/-- The messages of an event for a buffer. -/
def arriving (bufferId : Str) : WebEvent → List Source
  | .syncInit => []
  | .newMessage b m => if b = bufferId then [.memory m] else []
  | .messages b answer => if b = bufferId then answer.sources else []

def isLive (bufferId : Str) : WebEvent → Bool
  | .newMessage b _ => b = bufferId
  | _ => false

end WebEvent

/-- No live message is lost since the last `SyncInit`, unless it was listed already or more
messages than the cap have arrived from it on; and no message is taken for another. -/
structure DropsNothing {Date : Type} [DecidableEq Date] (cal : Calendar Date)
    (logs : Nat → Option Nat) (es : List WebEvent) : Prop where
  live : ∀ pre bufferId m post, es = pre ++ .newMessage bufferId m :: post → .syncInit ∉ post →
    Shows logs ((listsAfter cal pre).list bufferId) (.memory m) ∨
      Shows logs ((listsAfter cal es).list bufferId) (.memory m) ∨
      maxBufferMessages < (WebEvent.newMessage bufferId m :: post).countP (·.isLive bufferId)
  distinct : ∀ pre e post bufferId, es = pre ++ e :: post → ∀ x ∈ e.arriving bufferId,
    ∀ y ∈ (listsAfter cal pre).list bufferId, Identified x y → x.origin logs = y.origin logs

/-- One of two messages is a row with the number of the other, and does not store it. -/
def Clash (logs : Nat → Option Nat) : Source → Source → Prop
  | .memory m, .stored row => m.id ≠ 0 ∧ row.id = m.id ∧ logs row.id ≠ some m.id
  | .stored row, .memory m => m.id ≠ 0 ∧ row.id = m.id ∧ logs row.id ≠ some m.id
  | _, _ => False

/-- No message of an event clashes with one that is listed for its buffer. -/
def NoClash (logs : Nat → Option Nat) (s : MessageLists) (e : WebEvent) : Prop :=
  ∀ bufferId, ∀ x ∈ e.arriving bufferId, ∀ y ∈ s.list bufferId, ¬ Clash logs x y

/-! ### Numbers -/

variable {logs : Nat → Option Nat}

/-- Two different messages are taken for each other exactly when their numbers clash: a counter
gives each message its own number, and a table each row. -/
theorem identified_and_differ_iff {x y : Source} :
    (Identified x y ∧ x.origin logs ≠ y.origin logs) ↔ Clash logs x y := by
  cases x with
  | separator timestamp text => exact iff_of_false (fun h => h.1.1 rfl) id
  | memory m =>
    cases y with
    | separator timestamp text => exact iff_of_false (fun h => h.1.1 h.1.2.symm) id
    | memory m' =>
      refine iff_of_false (fun h => h.2 ?_) id
      have hid : m'.id = m.id := h.1.2
      simp only [Source.origin, hid]
    | stored row =>
      have horigin : (Source.memory m).origin logs ≠ (Source.stored row).origin logs ↔
          logs row.id ≠ some m.id := by
        cases hlogs : logs row.id with
        | none => simp [Source.origin, hlogs]
        | some n => simp [Source.origin, hlogs, eq_comm]
      rw [horigin, Clash, Identified, and_assoc]
      rfl
  | stored row =>
    cases y with
    | separator timestamp text => exact iff_of_false (fun h => h.1.1 h.1.2.symm) id
    | stored row' =>
      refine iff_of_false (fun h => h.2 ?_) id
      have hid : row'.id = row.id := h.1.2
      simp only [Source.origin, hid]
    | memory m =>
      have horigin : (Source.stored row).origin logs ≠ (Source.memory m).origin logs ↔
          logs row.id ≠ some m.id := by
        cases hlogs : logs row.id with
        | none => simp [Source.origin, hlogs]
        | some n => simp [Source.origin, hlogs]
      rw [horigin, Clash, Identified, and_assoc]
      constructor
      · rintro ⟨hne, hid, hlogs⟩
        have heq : m.id = row.id := hid
        exact ⟨heq ▸ hne, heq.symm, hlogs⟩
      · rintro ⟨hne, hid, hlogs⟩
        have hrow : row.id ≠ 0 := by
          rw [hid]
          exact hne
        exact ⟨hrow, hid.symm, hlogs⟩

/-! ### What stays listed -/

/-- At most `n` messages are listed behind a message. -/
def Behind (x : Source) (n : Nat) (messages : List Source) : Prop :=
  ∃ front back, messages = front ++ x :: back ∧ back.length ≤ n

theorem Behind.shows {x : Source} {n : Nat} {messages : List Source} (h : Behind x n messages) :
    Shows logs messages x := by
  obtain ⟨front, back, rfl, -⟩ := h
  exact ⟨x, List.mem_append_right _ List.mem_cons_self, rfl⟩

theorem Behind.prepend {x : Source} {n : Nat} {messages : List Source} (h : Behind x n messages)
    (older : List Source) : Behind x n (older ++ messages) := by
  obtain ⟨front, back, rfl, hback⟩ := h
  exact ⟨older ++ front, back, (List.append_assoc _ _ _).symm, hback⟩

theorem Behind.push {x : Source} {n : Nat} {messages : List Source} (h : Behind x n messages)
    (y : Source) : Behind x (n + 1) (messages ++ [y]) := by
  obtain ⟨front, back, rfl, hback⟩ := h
  refine ⟨front, back ++ [y], by rw [List.append_assoc, List.cons_append], ?_⟩
  rw [List.length_append, List.length_singleton]
  exact Nat.succ_le_succ hback

theorem Behind.mono {x : Source} {n n' : Nat} {messages : List Source} (h : Behind x n messages)
    (hn : n ≤ n') : Behind x n' messages := by
  obtain ⟨front, back, rfl, hback⟩ := h
  exact ⟨front, back, rfl, hback.trans hn⟩

/-- The cap keeps what has fewer messages behind it. -/
theorem Behind.cap {x : Source} {n : Nat} {messages : List Source} (h : Behind x n messages)
    (hn : n < maxBufferMessages) : Behind x n (capMessages messages) := by
  obtain ⟨front, back, rfl, hback⟩ := h
  have hdrop : (front ++ x :: back).length - maxBufferMessages ≤ front.length := by
    simp only [List.length_append, List.length_cons]
    omega
  refine ⟨front.drop ((front ++ x :: back).length - maxBufferMessages), back, ?_, hback⟩
  rw [capMessages, List.drop_append_of_le_length hdrop]

section Client

variable {Date : Type} [DecidableEq Date] {cal : Calendar Date}

theorem list_insert (s : MessageLists) (b bufferId : Str) (messages : List Source) :
    MessageLists.list (Dict.insert s b messages) bufferId =
      if b = bufferId then messages else s.list bufferId := by
  rw [MessageLists.list, Dict.lookup_insert]
  split_ifs
  · rfl
  · rfl

theorem behind_handleEvent {s : MessageLists} {e : WebEvent} {bufferId : Str} {x : Source}
    {n : Nat} (h : Behind x n (s.list bufferId)) (he : e ≠ .syncInit)
    (hn : n + [e].countP (·.isLive bufferId) < maxBufferMessages) :
    Behind x (n + [e].countP (·.isLive bufferId)) ((handleEvent cal s e).list bufferId) := by
  cases e with
  | syncInit => exact absurd rfl he
  | newMessage b m =>
    rw [handleEvent, list_insert]
    by_cases hb : b = bufferId
    · subst hb
      have hcount : [WebEvent.newMessage b m].countP (·.isLive b) = 1 := by
        simp [WebEvent.isLive]
      rw [hcount] at hn ⊢
      rw [if_pos rfl]
      split_ifs
      · exact h.mono (Nat.le_succ n)
      · exact (h.push _).cap hn
    · rw [if_neg hb]
      exact h.mono (Nat.le_add_right _ _)
  | messages b answer =>
    have hcount : [WebEvent.messages b answer].countP (·.isLive bufferId) = 0 := by
      simp [WebEvent.isLive]
    rw [hcount] at hn ⊢
    rw [handleEvent, list_insert]
    by_cases hb : b = bufferId
    · subst hb
      rw [if_pos rfl]
      exact (h.prepend _).cap hn
    · rw [if_neg hb]
      exact h

/-- Until the next `SyncInit`, a message is listed as long as fewer messages than the cap are
behind it. -/
theorem behind_run {es : List WebEvent} {s : MessageLists} {bufferId : Str} {x : Source} {n : Nat}
    (h : Behind x n (s.list bufferId)) (hes : .syncInit ∉ es)
    (hn : n + es.countP (·.isLive bufferId) < maxBufferMessages) :
    Behind x (n + es.countP (·.isLive bufferId))
      ((Run.run (handleEvent cal) s es).list bufferId) := by
  induction es generalizing s n with
  | nil => exact h
  | cons e es ih =>
    have hsplit : (e :: es).countP (·.isLive bufferId) =
        [e].countP (·.isLive bufferId) + es.countP (·.isLive bufferId) := by
      rw [← List.countP_append, List.singleton_append]
    rw [hsplit, ← Nat.add_assoc] at hn ⊢
    have hstep : Behind x (n + [e].countP (·.isLive bufferId))
        ((handleEvent cal s e).list bufferId) :=
      behind_handleEvent h (fun he => hes (he ▸ List.mem_cons_self)) (by omega)
    exact ih hstep (fun hmem => hes (List.mem_cons_of_mem _ hmem)) hn

/-! ### Nothing is dropped -/

/-- A live message that is taken for no other is put at the end of its list. -/
theorem behind_newMessage {s : MessageLists} {bufferId : Str} {m : Message}
    (h : ∀ y ∈ s.list bufferId, ¬ Identified (.memory m) y) :
    Behind (.memory m) 0 ((handleEvent cal s (.newMessage bufferId m)).list bufferId) := by
  have hany : (s.list bufferId).any (fun y => Identified (.memory m) y) = false := by
    rw [List.any_eq_false]
    exact fun y hy => by simpa using h y hy
  rw [handleEvent, list_insert, if_pos rfl, hany, if_neg Bool.false_ne_true]
  exact Behind.cap ⟨s.list bufferId, [], rfl, Nat.le_refl _⟩ (by decide)

/-- **Nothing is dropped** exactly in the runs in which no two numbers clash. -/
theorem dropsNothing_iff (cal : Calendar Date) (logs : Nat → Option Nat) (es : List WebEvent) :
    DropsNothing cal logs es ↔
      Run.Guarded (handleEvent cal) (NoClash logs) Table.empty es := by
  rw [Run.guarded_iff]
  constructor
  · rintro h pre e post rfl bufferId x hx y hy hclash
    obtain ⟨hid, hdiffer⟩ := identified_and_differ_iff.mpr hclash
    exact hdiffer (h.distinct pre e post bufferId rfl x hx y hy hid)
  · intro h
    have hdistinct : ∀ pre e post bufferId, es = pre ++ e :: post →
        ∀ x ∈ e.arriving bufferId, ∀ y ∈ (listsAfter cal pre).list bufferId,
          Identified x y → x.origin logs = y.origin logs := by
      intro pre e post bufferId hes x hx y hy hid
      by_contra hdiffer
      exact h pre e post hes bufferId x hx y hy (identified_and_differ_iff.mp ⟨hid, hdiffer⟩)
    refine ⟨fun pre bufferId m post hes hpost => ?_, hdistinct⟩
    by_cases hlisted : ∃ y ∈ (listsAfter cal pre).list bufferId, Identified (.memory m) y
    · obtain ⟨y, hy, hid⟩ := hlisted
      have harrives : Source.memory m ∈
          (WebEvent.newMessage bufferId m).arriving bufferId := by
        simp [WebEvent.arriving]
      exact .inl ⟨y, hy, (hdistinct pre _ post bufferId hes _ harrives y hy hid).symm⟩
    · right
      have hcount : (WebEvent.newMessage bufferId m :: post).countP (·.isLive bufferId) =
          post.countP (·.isLive bufferId) + 1 :=
        List.countP_cons_of_pos (by simp [WebEvent.isLive])
      rw [hcount]
      by_cases hcap : post.countP (·.isLive bufferId) < maxBufferMessages
      · left
        have hnew : Behind (.memory m) 0 ((handleEvent cal (listsAfter cal pre)
            (.newMessage bufferId m)).list bufferId) :=
          behind_newMessage (fun y hy hid => hlisted ⟨y, hy, hid⟩)
        have hafter : Behind (.memory m) (0 + post.countP (·.isLive bufferId))
            ((Run.run (handleEvent cal) (handleEvent cal (listsAfter cal pre)
              (.newMessage bufferId m)) post).list bufferId) :=
          behind_run hnew hpost (by omega)
        rw [hes, listsAfter, Run.run_append, Run.run_cons]
        exact hafter.shows
      · right
        omega

end Client

/-! ### A row that hides a message -/

namespace Sample

/-- Timestamps without dates. -/
def noCalendar : Calendar Unit := ⟨fun _ => none, fun _ => []⟩

def hello : Message := ⟨7, 1700000000, .message, some (str "alice"), none, str "hello", false, none⟩

/-- A row of an earlier process. -/
def oldRow : StoredMessage :=
  ⟨7, str "x", str "libera", str "#rust", 1600000000, str "message", some (str "bob"), str "old",
    false, none, none, none⟩

/-- The history of `#rust` is fetched, and a message arrives. -/
def fetchThenLive : List WebEvent :=
  [.messages (str "libera/#rust") (.stored [oldRow]), .newMessage (str "libera/#rust") hello]

end Sample

open Sample in
/-- Row 7 hides message 7. -/
theorem fetched_hides_live : ¬ DropsNothing noCalendar (fun _ => none) fetchThenLive := by
  intro h
  have hlive := h.live [.messages (str "libera/#rust") (.stored [oldRow])] (str "libera/#rust")
    hello [] rfl nofun
  have hbefore : (listsAfter noCalendar
      [.messages (str "libera/#rust") (.stored [oldRow])]).list (str "libera/#rust") =
      [.stored oldRow] := by rfl
  have hafter : (listsAfter noCalendar fetchThenLive).list (str "libera/#rust") =
      [.stored oldRow] := by rfl
  have hnot : ¬ Shows (fun _ => none) [.stored oldRow] (.memory hello) := by
    rintro ⟨y, hy, horigin⟩
    rw [List.mem_singleton.mp hy] at horigin
    exact absurd (Option.some.inj horigin) nofun
  rw [hbefore, hafter] at hlive
  rcases hlive with hlive | hlive | hlive
  · exact hnot hlive
  · exact hnot hlive
  · exact absurd hlive (by decide)

end Repartee.Web
