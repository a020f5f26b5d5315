import Repartee.Irc.Dispatch
import Repartee.Lib.Run

/-!
# IRCv3 batches

`BatchTracker` of `irc/batch.rs`: the messages of an open batch are collected until the batch ends
or times out. The batches of a run are numbered in the order in which they were started, and a
ledger notes which messages each of them has accepted and when it is returned.

## Main definitions

- `IrcMessage`, `BatchInfo`, `BatchTracker`: the tracker
- `Batch.Ledger`: a tracker with the account of its batches
- `Batch.Conserved`: every accepted message is accounted for

## Main results

- `Batch.conserved_iff`: this holds as long as no batch with a message is started anew
-/

set_option autoImplicit false

namespace Repartee

/-- `irc::proto::Mode`: a mode letter that is set, taken or just named, with its parameter. -/
structure ModeChange where
  adding : Option Bool
  letter : Char
  param : Option Str
  deriving DecidableEq

/-- The commands of `irc::proto::Command` that the handlers of this development tell apart. -/
inductive IrcMessage.Command where
  | privmsg (target text : Str)
  | notice (target text : Str)
  | join (channel : Str) (account realname : Option Str)
  | part (channel : Str) (reason : Option Str)
  | quit (reason : Option Str)
  | nick (newNick : Str)
  | kick (channel kickedUser : Str) (reason : Option Str)
  | topic (channel : Str) (topic : Option Str)
  | channelMode (target : Str) (modes : List ModeChange)
  | userMode (target : Str) (modes : List ModeChange)
  | invite (nick channel : Str)
  | wallops (text : Str)
  | account (account : Str)
  | away (reason : Option Str)
  | chghost (newUser newHost : Str)
  | error (message : Str)
  | numeric (code : Nat) (args : List Str)
  | raw (name : Str) (args : List Str)
  deriving DecidableEq

/-- `irc::proto::Message` -/
structure IrcMessage where
  tags : Option (List (Str × Option Str))
  sender : Option Prefix
  command : IrcMessage.Command
  deriving DecidableEq

/-- The value of a message tag. -/
def IrcMessage.tag (msg : IrcMessage) (name : Str) : Option Str :=
  (msg.tags.bind (fun tags => tags.find? (fun t => t.1 = name))).bind Prod.snd

/-- Maximum time a batch can remain open before it is discarded. -/
def batchTimeout : Nat := 60 * second

def maxBatchMessages : Nat := 4096

/-- An open batch. -/
structure BatchInfo where
  batchType : Str
  params : List Str
  messages : List IrcMessage
  droppedMessages : Nat
  startedAt : Nat
  deriving DecidableEq

/-- The open batches of one connection, keyed by reference tag. -/
structure BatchTracker where
  opened : Dict Str BatchInfo
  deriving DecidableEq

namespace BatchTracker

variable (toUppercase : Str → Str) (t : BatchTracker)

def startBatch (refTag batchType : Str) (params : List Str) (now : Nat) : BatchTracker where
  opened := t.opened.insert refTag ⟨toUppercase batchType, params, [], 0, now⟩

/-- Whether a batch has been open for too long. -/
def expired (now : Nat) (info : BatchInfo) : Bool := decide (batchTimeout ≤ now - info.startedAt)

/-- `purge_expired`, with the tags of the batches that it returns. -/
def purgeExpired (now : Nat) : List (Str × BatchInfo) × BatchTracker :=
  (t.opened.rows.filter (fun e => expired now e.2),
    ⟨t.opened.retain (fun _ info => !expired now info)⟩)

/-- The `@batch` tag of a message. -/
def getBatchTag (msg : IrcMessage) : Option Str := msg.tag (str "batch")

/-- Collect a message, or count it once the batch is full. -/
def collect (info : BatchInfo) (msg : IrcMessage) : BatchInfo :=
  if info.messages.length ≥ maxBatchMessages then
    { info with droppedMessages := info.droppedMessages + 1 }
  else { info with messages := info.messages ++ [msg] }

/-- `add_message`: whether a batch has accepted the message. -/
def addMessage (msg : IrcMessage) : Bool × BatchTracker :=
  match getBatchTag msg with
  | none => (false, t)
  | some tag =>
    match t.opened.lookup tag with
    | none => (false, t)
    | some info => (true, ⟨t.opened.insert tag (collect info msg)⟩)

def endBatch (refTag : Str) : Option BatchInfo × BatchTracker :=
  (t.opened.lookup refTag, ⟨t.opened.erase refTag⟩)

end BatchTracker

namespace Batch

open BatchTracker

/-! ### The account of a run -/

/-- The calls of the tracker. -/
inductive Op where
  | start (refTag batchType : Str) (params : List Str) (now : Nat)
  | add (msg : IrcMessage)
  | close (refTag : Str)
  | purge (now : Nat)

/-- A tracker, the number of the batch that is open under a tag, the accepted messages and the
returned batches with the numbers of their batches, and how many batches have been started. -/
structure Ledger where
  tracker : BatchTracker
  serial : Dict Str Nat
  arrivals : List (Nat × IrcMessage)
  returned : List (Nat × BatchInfo)
  started : Nat

namespace Ledger

def init : Ledger := ⟨⟨Table.empty⟩, Table.empty, [], [], 0⟩

variable (l : Ledger)

/-- The messages that a batch has accepted, in the order of their arrival. -/
def accepted (k : Nat) : List IrcMessage :=
  (l.arrivals.filter (fun a => a.1 = k)).map Prod.snd

/-- The number of the batch that is open under a tag. -/
def number (tag : Str) : Nat := (l.serial.lookup tag).getD 0

end Ledger

variable (toUppercase : Str → Str)

/-- Note what a call accepts and what it returns. -/
def step (l : Ledger) : Op → Ledger
  | .start refTag batchType params now =>
    { l with
      tracker := l.tracker.startBatch toUppercase refTag batchType params now
      serial := l.serial.insert refTag l.started
      started := l.started + 1 }
  | .add msg =>
    { l with
      tracker := (l.tracker.addMessage msg).2
      arrivals := l.arrivals ++
        if (l.tracker.addMessage msg).1 then
          [(l.number ((getBatchTag msg).getD []), msg)] else [] }
  | .close refTag =>
    { l with
      tracker := (l.tracker.endBatch refTag).2
      serial := l.serial.erase refTag
      returned := l.returned ++
        (l.tracker.endBatch refTag).1.toList.map (fun info => (l.number refTag, info)) }
  | .purge now =>
    { l with
      tracker := (l.tracker.purgeExpired now).2
      serial := l.serial.retain (fun tag _ => ((l.tracker.purgeExpired now).2.opened.lookup tag).isSome)
      returned := l.returned ++
        (l.tracker.purgeExpired now).1.map (fun e => (l.number e.1, e.2)) }

/-- A batch holds the first messages that it has accepted, and has counted the others. -/
structure Accounts (info : BatchInfo) (msgs : List IrcMessage) : Prop where
  messages : info.messages = msgs.take maxBatchMessages
  dropped : info.droppedMessages = msgs.length - maxBatchMessages

/-- A batch has been returned, once. -/
def Returned (l : Ledger) (k : Nat) : Prop :=
  ∃ info, l.returned.filter (fun r => r.1 = k) = [(k, info)] ∧ Accounts info (l.accepted k) ∧
    ∀ tag, l.serial.lookup tag ≠ some k

/-- A batch is still open, and has not been returned. -/
def Held (l : Ledger) (k : Nat) : Prop :=
  l.returned.filter (fun r => r.1 = k) = [] ∧
    ∃ tag info, l.serial.lookup tag = some k ∧ l.tracker.opened.lookup tag = some info ∧
      Accounts info (l.accepted k)

/-- **Conservation**: the batch of every accepted message has been returned once or is open, with
its messages in the order of their arrival, or counted as dropped. -/
def Conserved (l : Ledger) : Prop := ∀ a ∈ l.arrivals, Returned l a.1 ∨ Held l a.1

/-- A batch is not started under the tag of an open batch that holds a message. -/
def StartsFresh (l : Ledger) : Op → Prop
  | .start refTag _ _ _ => ∀ info, l.tracker.opened.lookup refTag = some info → info.messages = []
  | _ => True

/-! ### What every call keeps -/

/-- The ledger agrees with the tracker, and the numbers of the batches are distinct. -/
structure Sound (l : Ledger) : Prop where
  linked : ∀ tag, (l.serial.lookup tag).isSome = (l.tracker.opened.lookup tag).isSome
  accounts : ∀ tag k info, l.serial.lookup tag = some k →
    l.tracker.opened.lookup tag = some info → Accounts info (l.accepted k)
  injective : ∀ tag tag' k, l.serial.lookup tag = some k → l.serial.lookup tag' = some k →
    tag = tag'
  bounded : ∀ tag k, l.serial.lookup tag = some k → k < l.started
  arrived : ∀ a ∈ l.arrivals, a.1 < l.started
  settled : ∀ r ∈ l.returned, r.1 < l.started ∧ Accounts r.2 (l.accepted r.1) ∧
    ∀ tag, l.serial.lookup tag ≠ some r.1
  once : (l.returned.map Prod.fst).Nodup

theorem sound_init : Sound Ledger.init where
  linked := fun _ => rfl
  accounts := fun _ _ _ h => by simp [Ledger.init] at h
  injective := fun _ _ _ h => by simp [Ledger.init] at h
  bounded := fun _ _ h => by simp [Ledger.init] at h
  arrived := fun _ h => by simp [Ledger.init] at h
  settled := fun _ h => by simp [Ledger.init] at h
  once := List.nodup_nil

theorem Sound.exists_serial {l : Ledger} (h : Sound l) {tag : Str} {info : BatchInfo}
    (ho : l.tracker.opened.lookup tag = some info) : ∃ k, l.serial.lookup tag = some k := by
  rw [← Option.isSome_iff_exists, h.linked, ho]
  rfl

theorem Ledger.number_of_lookup {l : Ledger} {tag : Str} {k : Nat}
    (h : l.serial.lookup tag = some k) : l.number tag = k := by
  rw [Ledger.number, h]
  rfl

/-- What has been accepted by a batch that has not been started yet. -/
theorem Sound.accepted_eq_nil {l : Ledger} (h : Sound l) {k : Nat} (hk : l.started ≤ k) :
    l.accepted k = [] := by
  rw [Ledger.accepted, List.filter_eq_nil_iff.mpr]
  · rfl
  · intro a ha hak
    have hlt := h.arrived a ha
    rw [of_decide_eq_true hak] at hlt
    omega

theorem accounts_nil (batchType : Str) (params : List Str) (now : Nat) :
    Accounts ⟨batchType, params, [], 0, now⟩ [] := ⟨by simp, by simp⟩

/-- Collecting a message keeps the account of a batch. -/
theorem Accounts.collect {info : BatchInfo} {msgs : List IrcMessage} (h : Accounts info msgs)
    (msg : IrcMessage) : Accounts (BatchTracker.collect info msg) (msgs ++ [msg]) := by
  have hlength : info.messages.length = min maxBatchMessages msgs.length := by
    rw [h.messages, List.length_take]
  unfold BatchTracker.collect
  by_cases hfull : info.messages.length ≥ maxBatchMessages
  · rw [if_pos hfull]
    refine ⟨?_, ?_⟩
    · show info.messages = _
      rw [h.messages, List.take_append_of_le_length (by omega)]
    · show info.droppedMessages + 1 = _
      rw [h.dropped, List.length_append, List.length_singleton]
      omega
  · rw [if_neg hfull]
    have hle : msgs.length < maxBatchMessages := by omega
    refine ⟨?_, ?_⟩
    · show info.messages ++ [msg] = _
      rw [h.messages, List.take_of_length_le (by omega), List.take_of_length_le]
      rw [List.length_append, List.length_singleton]
      omega
    · show info.droppedMessages = _
      rw [h.dropped, List.length_append, List.length_singleton]
      omega

theorem sound_start {l : Ledger} (h : Sound l) (refTag batchType : Str) (params : List Str)
    (now : Nat) : Sound (step toUppercase l (.start refTag batchType params now)) where
  linked := fun tag => by
    show ((l.serial.insert refTag l.started).lookup tag).isSome =
      ((l.tracker.opened.insert refTag _).lookup tag).isSome
    rw [Dict.lookup_insert, Dict.lookup_insert]
    by_cases htag : refTag = tag
    · rw [if_pos htag, if_pos htag]
      rfl
    · rw [if_neg htag, if_neg htag, h.linked]
  accounts := fun tag k info hk ho => by
    change (l.serial.insert refTag l.started).lookup tag = some k at hk
    change (l.tracker.opened.insert refTag _).lookup tag = some info at ho
    show Accounts info (l.accepted k)
    rw [Dict.lookup_insert] at hk ho
    by_cases htag : refTag = tag
    · rw [if_pos htag] at hk ho
      cases hk
      cases ho
      rw [h.accepted_eq_nil (Nat.le_refl _)]
      exact accounts_nil _ _ _
    · rw [if_neg htag] at hk ho
      exact h.accounts tag k info hk ho
  injective := fun tag tag' k hk hk' => by
    change (l.serial.insert refTag l.started).lookup tag = some k at hk
    change (l.serial.insert refTag l.started).lookup tag' = some k at hk'
    rw [Dict.lookup_insert] at hk hk'
    by_cases htag : refTag = tag <;> by_cases htag' : refTag = tag'
    · exact htag.symm.trans htag'
    · rw [if_pos htag] at hk
      rw [if_neg htag'] at hk'
      cases hk
      exact absurd (h.bounded tag' _ hk') (Nat.lt_irrefl _)
    · rw [if_neg htag] at hk
      rw [if_pos htag'] at hk'
      cases hk'
      exact absurd (h.bounded tag _ hk) (Nat.lt_irrefl _)
    · rw [if_neg htag] at hk
      rw [if_neg htag'] at hk'
      exact h.injective tag tag' k hk hk'
  bounded := fun tag k hk => by
    change (l.serial.insert refTag l.started).lookup tag = some k at hk
    show k < l.started + 1
    rw [Dict.lookup_insert] at hk
    by_cases htag : refTag = tag
    · rw [if_pos htag] at hk
      cases hk
      exact Nat.lt_succ_self _
    · rw [if_neg htag] at hk
      exact Nat.lt_succ_of_lt (h.bounded tag k hk)
  arrived := fun a ha => Nat.lt_succ_of_lt (h.arrived a ha)
  settled := fun r hr => by
    obtain ⟨hlt, haccounts, hserial⟩ := h.settled r hr
    refine ⟨Nat.lt_succ_of_lt hlt, haccounts, fun tag hk => ?_⟩
    change (l.serial.insert refTag l.started).lookup tag = some r.1 at hk
    rw [Dict.lookup_insert] at hk
    by_cases htag : refTag = tag
    · rw [if_pos htag] at hk
      exact absurd hlt (by rw [← Option.some.inj hk]; exact Nat.lt_irrefl _)
    · rw [if_neg htag] at hk
      exact hserial tag hk
  once := h.once

/-- A message is refused, or it is collected by an open batch. -/
theorem addMessage_cases (t : BatchTracker) (msg : IrcMessage) :
    t.addMessage msg = (false, t) ∨
      ∃ tag info, getBatchTag msg = some tag ∧ t.opened.lookup tag = some info ∧
        t.addMessage msg = (true, ⟨t.opened.insert tag (collect info msg)⟩) := by
  unfold addMessage
  cases htag : getBatchTag msg with
  | none => exact .inl rfl
  | some tag =>
    cases hopen : t.opened.lookup tag with
    | none => exact .inl (by simp only [hopen])
    | some info => exact .inr ⟨tag, info, rfl, hopen, by simp only [hopen]⟩

theorem accepted_append {l l' : Ledger} {k : Nat} {msg : IrcMessage}
    (h : l'.arrivals = l.arrivals ++ [(k, msg)]) (k' : Nat) :
    l'.accepted k' = l.accepted k' ++ if k = k' then [msg] else [] := by
  rw [Ledger.accepted, h, List.filter_append, List.map_append, Ledger.accepted]
  by_cases hk : k = k' <;> simp [hk]

/-- A call of `add_message` leaves the ledger alone, or notes an arrival. -/
theorem step_add_cases (l : Ledger) (msg : IrcMessage) (h : Sound l) :
    step toUppercase l (.add msg) = l ∨
      ∃ tag info k, l.tracker.opened.lookup tag = some info ∧ l.serial.lookup tag = some k ∧
        step toUppercase l (.add msg) =
          { l with
            tracker := ⟨l.tracker.opened.insert tag (collect info msg)⟩
            arrivals := l.arrivals ++ [(k, msg)] } := by
  rw [step]
  rcases addMessage_cases l.tracker msg with hadd | ⟨tag, info, htag, hopen, hadd⟩
  · left
    rw [hadd]
    simp
  · obtain ⟨k, hk⟩ := h.exists_serial hopen
    refine .inr ⟨tag, info, k, hopen, hk, ?_⟩
    rw [hadd, htag, Option.getD_some, Ledger.number_of_lookup hk]
    simp

theorem sound_add {l : Ledger} (h : Sound l) (msg : IrcMessage) :
    Sound (step toUppercase l (.add msg)) := by
  rcases step_add_cases toUppercase l msg h with heq | ⟨tag, info, k, hopen, hk, heq⟩
  · rw [heq]
    exact h
  rw [heq]
  have hlookup : ∀ tag', (l.tracker.opened.insert tag (collect info msg)).lookup tag' =
      if tag = tag' then some (collect info msg) else l.tracker.opened.lookup tag' :=
    Dict.lookup_insert _ _ _
  constructor
  case linked =>
    intro tag'
    show (l.serial.lookup tag').isSome = _
    rw [hlookup, h.linked]
    by_cases htag : tag = tag'
    · rw [if_pos htag, ← htag, hopen]
      rfl
    · rw [if_neg htag]
  case accounts =>
    intro tag' k' info' hk' ho'
    change (l.tracker.opened.insert tag (collect info msg)).lookup tag' = some info' at ho'
    rw [accepted_append rfl]
    rw [hlookup] at ho'
    by_cases htag : tag = tag'
    · subst htag
      rw [if_pos rfl] at ho'
      obtain rfl : k = k' := Option.some.inj (hk.symm.trans hk')
      cases ho'
      rw [if_pos rfl]
      exact (h.accounts tag k info hk hopen).collect msg
    · rw [if_neg htag] at ho'
      have hne : k ≠ k' := by
        rintro rfl
        exact htag (h.injective _ _ _ hk hk')
      rw [if_neg hne, List.append_nil]
      exact h.accounts tag' k' info' hk' ho'
  case injective => exact h.injective
  case bounded => exact h.bounded
  case arrived =>
    intro a ha
    rcases List.mem_append.mp ha with ha | ha
    · exact h.arrived a ha
    · cases List.mem_singleton.mp ha
      exact h.bounded tag k hk
  case settled =>
    intro r hr
    obtain ⟨hlt, haccounts, hserial⟩ := h.settled r hr
    refine ⟨hlt, ?_, hserial⟩
    have hne : k ≠ r.1 := fun hkr => hserial tag (hkr ▸ hk)
    rw [accepted_append rfl, if_neg hne, List.append_nil]
    exact haccounts
  case once => exact h.once

/-- Open batches have been taken out of the tracker and returned. -/
structure Removes (l l' : Ledger) (removed : List (Str × BatchInfo)) : Prop where
  nodup : (removed.map Prod.fst).Nodup
  wasOpen : ∀ e ∈ removed, l.tracker.opened.lookup e.1 = some e.2
  opened : ∀ tag, l'.tracker.opened.lookup tag =
    if tag ∈ removed.map Prod.fst then none else l.tracker.opened.lookup tag
  serial : ∀ tag, l'.serial.lookup tag =
    if tag ∈ removed.map Prod.fst then none else l.serial.lookup tag
  returned : l'.returned = l.returned ++ removed.map (fun e => (l.number e.1, e.2))
  arrivals : l'.arrivals = l.arrivals
  started : l'.started = l.started

theorem removes_close {l : Ledger} (h : Sound l) (refTag : Str) :
    Removes l (step toUppercase l (.close refTag))
      ((l.tracker.opened.lookup refTag).toList.map (fun info => (refTag, info))) := by
  have hmem : ∀ tag, tag ∈ ((l.tracker.opened.lookup refTag).toList.map
      (fun info => (refTag, info))).map Prod.fst ↔
        (l.tracker.opened.lookup refTag).isSome ∧ refTag = tag := by
    intro tag
    cases l.tracker.opened.lookup refTag <;> simp [eq_comm]
  constructor
  case nodup => cases l.tracker.opened.lookup refTag <;> simp
  case wasOpen =>
    intro e he
    obtain ⟨info, hinfo, rfl⟩ := List.mem_map.mp he
    exact Option.mem_toList.mp hinfo
  case opened =>
    intro tag
    show (l.tracker.opened.erase refTag).lookup tag = _
    rw [Dict.lookup_erase]
    by_cases htag : refTag = tag
    · subst htag
      cases ho : l.tracker.opened.lookup refTag <;> simp
    · rw [if_neg htag, if_neg (fun hm => htag ((hmem tag).mp hm).2)]
  case serial =>
    intro tag
    show (l.serial.erase refTag).lookup tag = _
    rw [Dict.lookup_erase]
    by_cases htag : refTag = tag
    · subst htag
      have hlinked := h.linked refTag
      cases ho : l.tracker.opened.lookup refTag with
      | none =>
        rw [ho, Option.isSome_none, Option.isSome_eq_false_iff, Option.isNone_iff_eq_none]
          at hlinked
        simp [hlinked]
      | some info => simp
    · rw [if_neg htag, if_neg (fun hm => htag ((hmem tag).mp hm).2)]
  case returned =>
    show l.returned ++ _ = l.returned ++ _
    rw [List.map_map]
    rfl
  case arrivals => rfl
  case started => rfl

theorem removes_purge {l : Ledger} (h : Sound l) (now : Nat) :
    Removes l (step toUppercase l (.purge now)) (l.tracker.purgeExpired now).1 := by
  have hmem : ∀ tag, tag ∈ (l.tracker.purgeExpired now).1.map Prod.fst ↔
      ∃ info, l.tracker.opened.lookup tag = some info ∧ expired now info = true := by
    intro tag
    constructor
    · intro htag
      obtain ⟨⟨tag', info⟩, he, rfl⟩ := List.mem_map.mp htag
      obtain ⟨hrow, hexp⟩ := List.mem_filter.mp he
      exact ⟨info, Dict.mem_rows_iff_lookup.mp hrow, hexp⟩
    · rintro ⟨info, hopen, hexp⟩
      exact List.mem_map.mpr
        ⟨(tag, info), List.mem_filter.mpr ⟨Dict.mem_rows_iff_lookup.mpr hopen, hexp⟩, rfl⟩
  have hopened : ∀ tag, ((l.tracker.purgeExpired now).2.opened).lookup tag =
      if tag ∈ (l.tracker.purgeExpired now).1.map Prod.fst then none
      else l.tracker.opened.lookup tag := by
    intro tag
    show (l.tracker.opened.retain _).lookup tag = _
    rw [Dict.lookup_retain]
    cases ho : l.tracker.opened.lookup tag with
    | none => simp
    | some info =>
      by_cases hexp : expired now info = true
      · rw [if_pos ((hmem tag).mpr ⟨info, ho, hexp⟩)]
        simp [Option.filter, hexp]
      · rw [if_neg]
        · simp [Option.filter, hexp]
        · intro hm
          obtain ⟨info', ho', hexp'⟩ := (hmem tag).mp hm
          cases ho.symm.trans ho'
          exact hexp hexp'
  constructor
  case nodup => exact l.tracker.opened.nodup.sublist (List.filter_sublist.map Prod.fst)
  case wasOpen =>
    intro e he
    exact Dict.mem_rows_iff_lookup.mp (List.mem_filter.mp he).1
  case opened => exact hopened
  case serial =>
    intro tag
    show (l.serial.retain _).lookup tag = _
    rw [Dict.lookup_retain]
    have hlinked := h.linked tag
    by_cases hm : tag ∈ (l.tracker.purgeExpired now).1.map Prod.fst
    · rw [if_pos hm, hopened tag, if_pos hm]
      cases l.serial.lookup tag <;> rfl
    · rw [if_neg hm, hopened tag, if_neg hm, ← hlinked]
      cases l.serial.lookup tag <;> rfl
  case returned => rfl
  case arrivals => rfl
  case started => rfl

theorem Removes.accepted {l l' : Ledger} {removed : List (Str × BatchInfo)}
    (h : Removes l l' removed) (k : Nat) : l'.accepted k = l.accepted k := by
  rw [Ledger.accepted, h.arrivals, Ledger.accepted]

/-- A batch whose number is left after a removal was there before. -/
theorem Removes.serial_of {l l' : Ledger} {removed : List (Str × BatchInfo)}
    (h : Removes l l' removed) {tag : Str} {k : Nat} (hk : l'.serial.lookup tag = some k) :
    l.serial.lookup tag = some k ∧ tag ∉ removed.map Prod.fst := by
  rw [h.serial] at hk
  by_cases htag : tag ∈ removed.map Prod.fst
  · rw [if_pos htag] at hk
    cases hk
  · rw [if_neg htag] at hk
    exact ⟨hk, htag⟩

/-- The number of a removed batch. -/
theorem Removes.number {l l' : Ledger} {removed : List (Str × BatchInfo)}
    (h : Removes l l' removed) (hl : Sound l) {e : Str × BatchInfo} (he : e ∈ removed) :
    l.serial.lookup e.1 = some (l.number e.1) := by
  obtain ⟨k, hk⟩ := hl.exists_serial (h.wasOpen e he)
  rw [Ledger.number_of_lookup hk]
  exact hk

theorem sound_removes {l l' : Ledger} {removed : List (Str × BatchInfo)} (hl : Sound l)
    (h : Removes l l' removed) : Sound l' where
  linked := fun tag => by
    rw [h.serial, h.opened]
    by_cases htag : tag ∈ removed.map Prod.fst
    · rw [if_pos htag, if_pos htag]
      rfl
    · rw [if_neg htag, if_neg htag, hl.linked]
  accounts := fun tag k info hk ho => by
    obtain ⟨hk', htag⟩ := h.serial_of hk
    rw [h.opened, if_neg htag] at ho
    rw [h.accepted]
    exact hl.accounts tag k info hk' ho
  injective := fun tag tag' k hk hk' =>
    hl.injective tag tag' k (h.serial_of hk).1 (h.serial_of hk').1
  bounded := fun tag k hk => by
    rw [h.started]
    exact hl.bounded tag k (h.serial_of hk).1
  arrived := fun a ha => by
    rw [h.arrivals] at ha
    rw [h.started]
    exact hl.arrived a ha
  settled := fun r hr => by
    rw [h.returned] at hr
    rw [h.started, h.accepted]
    rcases List.mem_append.mp hr with hr | hr
    · obtain ⟨hlt, haccounts, hserial⟩ := hl.settled r hr
      exact ⟨hlt, haccounts, fun tag hk => hserial tag (h.serial_of hk).1⟩
    · obtain ⟨e, he, rfl⟩ := List.mem_map.mp hr
      have hnumber := h.number hl he
      refine ⟨hl.bounded _ _ hnumber, hl.accounts _ _ _ hnumber (h.wasOpen e he), ?_⟩
      intro tag hk
      obtain ⟨hk', htag⟩ := h.serial_of hk
      exact htag (hl.injective _ _ _ hnumber hk' ▸ List.mem_map_of_mem he)
  once := by
    rw [h.returned, List.map_append, List.nodup_append]
    have hfresh : ((removed.map (fun e => (l.number e.1, e.2))).map Prod.fst).Nodup := by
      rw [List.map_map]
      refine List.Nodup.map_on ?_ (List.Nodup.of_map _ h.nodup)
      intro e he e' he' hmap
      have hnumber : l.number e.1 = l.number e'.1 := hmap
      have htag : e.1 = e'.1 :=
        hl.injective _ _ _ (h.number hl he) (hnumber ▸ h.number hl he')
      exact List.inj_on_of_nodup_map h.nodup he he' htag
    refine ⟨hl.once, hfresh, ?_⟩
    rintro a ha b hb rfl
    obtain ⟨r, hr, rfl⟩ := List.mem_map.mp ha
    obtain ⟨p, hp, hpr⟩ := List.mem_map.mp hb
    obtain ⟨e, he, rfl⟩ := List.mem_map.mp hp
    exact (hl.settled r hr).2.2 e.1 (hpr ▸ h.number hl he)

/-- **Every call** keeps the ledger sound. -/
theorem sound_step {l : Ledger} (h : Sound l) (op : Op) : Sound (step toUppercase l op) := by
  cases op with
  | start refTag batchType params now => exact sound_start toUppercase h refTag batchType params now
  | add msg => exact sound_add toUppercase h msg
  | close refTag => exact sound_removes h (removes_close toUppercase h refTag)
  | purge now => exact sound_removes h (removes_purge toUppercase h now)

/-! ### Lost batches -/

/-- A batch with a message is neither open nor has it been returned. -/
structure Lost (l : Ledger) (k : Nat) : Prop where
  arrived : ∃ a ∈ l.arrivals, a.1 = k
  unreturned : ∀ r ∈ l.returned, r.1 ≠ k
  closed : ∀ tag, l.serial.lookup tag ≠ some k

theorem conserved_iff_not_lost {l : Ledger} (h : Sound l) : Conserved l ↔ ∀ k, ¬ Lost l k := by
  constructor
  · rintro hc k ⟨⟨a, ha, rfl⟩, hret, hclosed⟩
    rcases hc a ha with ⟨info, hfilter, -, -⟩ | ⟨-, tag, info, hk, -, -⟩
    · have hmem : (a.1, info) ∈ l.returned :=
        List.mem_of_mem_filter (hfilter ▸ List.mem_singleton_self _)
      exact hret _ hmem rfl
    · exact hclosed tag hk
  · intro hlost a ha
    by_cases hret : ∃ r ∈ l.returned, r.1 = a.1
    · obtain ⟨⟨k, info⟩, hr, hka⟩ := hret
      rw [← hka]
      refine .inl ⟨info, ?_, (h.settled _ hr).2.1, (h.settled _ hr).2.2⟩
      -- the numbers of the returned batches are distinct
      refine List.Perm.eq_singleton
        ((List.perm_ext_iff_of_nodup ?_ (List.nodup_singleton _)).mpr ?_)
      · exact (List.Nodup.of_map _ h.once).filter _
      · rintro ⟨k', info'⟩
        rw [List.mem_filter, decide_eq_true_eq, List.mem_singleton]
        constructor
        · rintro ⟨hr', hk'⟩
          exact List.inj_on_of_nodup_map h.once hr' hr hk'
        · rintro heq
          cases heq
          exact ⟨hr, rfl⟩
    · have hnone : ∀ r ∈ l.returned, r.1 ≠ a.1 := fun r hr heq => hret ⟨r, hr, heq⟩
      have hopen : ∃ tag, l.serial.lookup tag = some a.1 := by
        by_contra hno
        exact hlost a.1 ⟨⟨a, ha, rfl⟩, hnone, fun tag hk => hno ⟨tag, hk⟩⟩
      obtain ⟨tag, hk⟩ := hopen
      have hlinked := h.linked tag
      rw [hk, Option.isSome_some] at hlinked
      obtain ⟨info, hinfo⟩ := Option.isSome_iff_exists.mp hlinked.symm
      refine .inr ⟨List.filter_eq_nil_iff.mpr (fun r hr => ?_), tag, info, hk, hinfo,
        h.accounts _ _ _ hk hinfo⟩
      simpa using hnone r hr

/-- A lost batch stays lost. -/
theorem Lost.step {l : Ledger} {k : Nat} (h : Sound l) (hk : Lost l k) (op : Op) :
    Lost (step toUppercase l op) k := by
  have hremoved : ∀ {l' removed}, Removes l l' removed → Lost l' k := by
    intro l' removed hrem
    refine ⟨by rw [hrem.arrivals]; exact hk.arrived, ?_, ?_⟩
    · intro r hr
      rw [hrem.returned] at hr
      rcases List.mem_append.mp hr with hr | hr
      · exact hk.unreturned r hr
      · obtain ⟨e, he, rfl⟩ := List.mem_map.mp hr
        exact fun heq => hk.closed e.1 (heq ▸ hrem.number h he)
    · exact fun tag htag => hk.closed tag (hrem.serial_of htag).1
  cases op with
  | start refTag batchType params now =>
    refine ⟨hk.arrived, hk.unreturned, ?_⟩
    intro tag htag
    change (l.serial.insert refTag l.started).lookup tag = some k at htag
    rw [Dict.lookup_insert] at htag
    by_cases heq : refTag = tag
    · obtain ⟨a, ha, hak⟩ := hk.arrived
      rw [if_pos heq, Option.some.injEq] at htag
      have hlt := h.arrived a ha
      omega
    · rw [if_neg heq] at htag
      exact hk.closed tag htag
  | add msg =>
    rcases step_add_cases toUppercase l msg h with heq | ⟨tag, info, k', -, -, heq⟩
    · rw [heq]
      exact hk
    · rw [heq]
      obtain ⟨a, ha, hak⟩ := hk.arrived
      exact ⟨⟨a, List.mem_append_left _ ha, hak⟩, hk.unreturned, hk.closed⟩
  | close refTag => exact hremoved (removes_close toUppercase h refTag)
  | purge now => exact hremoved (removes_purge toUppercase h now)

/-- A call loses no batch if and only if it starts none in the place of one with a message. -/
theorem step_not_lost_iff {l : Ledger} (h : Sound l) (hl : ∀ k, ¬ Lost l k) (op : Op) :
    (∀ k, ¬ Lost (step toUppercase l op) k) ↔ StartsFresh l op := by
  have hremoved : ∀ {l' removed}, Removes l l' removed → ∀ k, ¬ Lost l' k := by
    intro l' removed hrem k hk
    obtain ⟨a, ha, hak⟩ := hk.arrived
    refine hl k ⟨⟨a, hrem.arrivals ▸ ha, hak⟩, ?_, ?_⟩
    · intro r hr
      exact hk.unreturned r (hrem.returned ▸ List.mem_append_left _ hr)
    · intro tag htag
      by_cases hmem : tag ∈ removed.map Prod.fst
      · obtain ⟨e, he, rfl⟩ := List.mem_map.mp hmem
        refine hk.unreturned (l.number e.1, e.2) ?_ (Ledger.number_of_lookup htag)
        rw [hrem.returned]
        exact List.mem_append_right _ (List.mem_map_of_mem he)
      · exact hk.closed tag (by rw [hrem.serial, if_neg hmem]; exact htag)
  cases op with
  | start refTag batchType params now =>
    have hserial : ∀ tag, (step toUppercase l (.start refTag batchType params now)).serial.lookup
        tag = if refTag = tag then some l.started else l.serial.lookup tag :=
      Dict.lookup_insert _ _ _
    constructor
    · intro hlost info hopen
      obtain ⟨k, hk⟩ := h.exists_serial hopen
      have haccounts := h.accounts _ _ _ hk hopen
      by_contra hne
      -- the batch that was open under the tag has accepted a message
      have haccepted : l.accepted k ≠ [] := by
        intro hnil
        rw [haccounts.messages, hnil] at hne
        exact hne rfl
      obtain ⟨msg, hmsg⟩ := List.exists_mem_of_ne_nil _ haccepted
      obtain ⟨a, ha, -⟩ := List.mem_map.mp hmsg
      obtain ⟨ha, hak⟩ := List.mem_filter.mp ha
      refine hlost k ⟨⟨a, ha, of_decide_eq_true hak⟩, ?_, ?_⟩
      · exact fun r hr heq => (h.settled r hr).2.2 refTag (heq ▸ hk)
      · intro tag htag
        rw [hserial] at htag
        by_cases heq : refTag = tag
        · rw [if_pos heq, Option.some.injEq] at htag
          have hlt := h.bounded _ _ hk
          omega
        · rw [if_neg heq] at htag
          exact heq (h.injective _ _ _ hk htag)
    · rintro hfresh k ⟨harrived, hret, hclosed⟩
      have hno := hl k
      by_cases hk : l.serial.lookup refTag = some k
      · have hlinked := h.linked refTag
        rw [hk, Option.isSome_some] at hlinked
        obtain ⟨info, hopen⟩ := Option.isSome_iff_exists.mp hlinked.symm
        have hmessages := (h.accounts _ _ _ hk hopen).messages
        rw [hfresh info hopen] at hmessages
        -- its account is empty, so nothing has arrived in it
        obtain ⟨a, ha, hak⟩ := harrived
        have hmem : a.2 ∈ l.accepted k :=
          List.mem_map_of_mem (List.mem_filter.mpr ⟨ha, decide_eq_true hak⟩)
        have hnil : l.accepted k = [] := by
          cases hacc : l.accepted k with
          | nil => rfl
          | cons x xs =>
            rw [hacc] at hmessages
            cases hmessages
        rw [hnil] at hmem
        cases hmem
      · refine hno ⟨harrived, hret, fun tag htag => ?_⟩
        by_cases heq : refTag = tag
        · exact hk (heq ▸ htag)
        · exact hclosed tag (by rw [hserial, if_neg heq]; exact htag)
  | add msg =>
    refine iff_of_true ?_ trivial
    rcases step_add_cases toUppercase l msg h with heq | ⟨tag, info, k', -, hk', heq⟩
    · rw [heq]
      exact hl
    · rw [heq]
      rintro k ⟨⟨a, ha, hak⟩, hret, hclosed⟩
      rcases List.mem_append.mp ha with ha | ha
      · exact hl k ⟨⟨a, ha, hak⟩, hret, hclosed⟩
      · cases List.mem_singleton.mp ha
        exact hclosed tag (hak ▸ hk')
  | close refTag => exact iff_of_true (hremoved (removes_close toUppercase h refTag)) trivial
  | purge now => exact iff_of_true (hremoved (removes_purge toUppercase h now)) trivial

/-- **The tracker conserves the messages** of a run if and only if no batch of the run is started
under the tag of an open batch that holds a message. -/
theorem conserved_iff (ops : List Op) :
    Conserved (Run.run (step toUppercase) Ledger.init ops) ↔
      Run.Guarded (step toUppercase) StartsFresh Ledger.init ops := by
  have hrun : ∀ l, Sound l → (∀ k, ¬ Lost l k) →
      ((∀ k, ¬ Lost (Run.run (step toUppercase) l ops) k) ↔
        Run.Guarded (step toUppercase) StartsFresh l ops) := by
    induction ops with
    | nil => exact fun l _ hl => iff_of_true hl trivial
    | cons op ops ih =>
      intro l h hl
      rw [Run.run_cons, Run.Guarded, ← step_not_lost_iff toUppercase h hl op]
      constructor
      · intro hend
        have hnow : ∀ k, ¬ Lost (step toUppercase l op) k := by
          intro k hk
          refine hend k (Run.invariant (P := fun l => Sound l ∧ Lost l k) ?_
            ⟨sound_step toUppercase h op, hk⟩ ops).2
          exact fun l' op' hp => ⟨sound_step toUppercase hp.1 op', hp.2.step toUppercase hp.1 op'⟩
        exact ⟨hnow, (ih _ (sound_step toUppercase h op) hnow).mp hend⟩
      · rintro ⟨hnow, hguarded⟩
        exact (ih _ (sound_step toUppercase h op) hnow).mpr hguarded
  have hsound : Sound (Run.run (step toUppercase) Ledger.init ops) :=
    @Run.invariant _ _ (step toUppercase) Sound (fun l op h => sound_step toUppercase h op) _
      sound_init ops
  rw [conserved_iff_not_lost hsound]
  exact hrun _ sound_init (fun k hk => by
    obtain ⟨a, ha, -⟩ := hk.arrived
    cases ha)

/-! ### A batch that is started anew -/

/-- A QUIT that belongs to the batch `b`. -/
def quitOf (nick : Str) : IrcMessage where
  tags := some [(str "batch", some (str "b"))]
  sender := some (.nickname nick [] [])
  command := .quit none

/-- A batch that is started anew while it holds a message. -/
def restarted : List Op :=
  [.start (str "b") (str "NETSPLIT") [] 0, .add (quitOf (str "alice")),
    .start (str "b") (str "NETSPLIT") [] 1]

/-- The second start discards what the first batch has collected. -/
theorem restart_loses : ¬ Conserved (Run.run (step id) Ledger.init restarted) := by
  intro h
  rcases h (0, quitOf (str "alice")) (by decide) with ⟨info, hfilter, -, -⟩ | ⟨-, tag, -, hk, -, -⟩
  · cases hfilter
  · have hrow := Dict.mem_rows_iff_lookup.mpr hk
    have hserial : (Run.run (step id) Ledger.init restarted).serial.rows = [(str "b", 1)] := by
      decide
    rw [hserial] at hrow
    cases List.mem_singleton.mp hrow

end Batch

end Repartee
