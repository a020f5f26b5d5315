import Repartee.E2e.Basic
import Repartee.Lib.Run
import Repartee.Lib.Table

/-!
# Netsplits

`irc/netsplit.rs`: QUITs of a server split and the JOINs of the users that come back are taken out
of the display and gathered into summaries. A split user is remembered in an index until it
rejoins; the index is rebuilt at every tick.

## Main definitions

- `isNetsplitQuit`: the QUIT messages of a split
- `NetsplitState.handleQuit`, `NetsplitState.handleJoin`, `NetsplitState.tick`
- `Netsplit.Op`, `Netsplit.step`: the calls, and what they return

## Main results

- `Netsplit.rejoins_le_splits`: each split is consumed by one rejoin
- `Netsplit.joinResults_eq`: additional ticks change no result
- `Netsplit.rejoin_suppression`: both
-/

set_option autoImplicit false

namespace Repartee

/-! ### Detection -/

/-- The text behind the last dot. -/
def tldOf (host : Str) : Str := (host.reverse.takeWhile (· ≠ '.')).reverse

/-- The byte offset of the last dot is positive. -/
def hasInnerDot (host : Str) : Bool :=
  host.contains '.' && !((host.reverse.dropWhile (· ≠ '.')).drop 1).isEmpty

def isAsciiAlphabetic (c : Char) : Bool :=
  ('a' ≤ c && c ≤ 'z') || ('A' ≤ c && c ≤ 'Z')

/-- Whether a text contains `..`. -/
def hasDoubleDot : Str → Bool
  | '.' :: '.' :: _ => true
  | _ :: rest => hasDoubleDot rest
  | [] => false

def isValidSplitHost (host : Str) : Bool :=
  decide (3 ≤ Utf8.byteLen host) && !Text.startsWith host ['.'] && !Text.endsWith host ['.'] &&
    !hasDoubleDot host && hasInnerDot host && decide (2 ≤ Utf8.byteLen (tldOf host)) &&
    (tldOf host).all isAsciiAlphabetic

/-- Whether a QUIT message is two hosts, separated by a space. -/
def isNetsplitQuit (message : Str) : Bool :=
  !message.contains ':' && !message.contains '/' &&
    match Text.splitOnce ' ' message with
    | none => false
    | some (host₁, host₂) =>
      !host₁.isEmpty && !host₂.isEmpty && !host₂.contains ' ' &&
        isValidSplitHost host₁ && isValidSplitHost host₂ && decide (host₁ ≠ host₂)

/-! ### State -/

def splitBatchWait : Nat := 5 * 1000000000

def netjoinBatchWait : Nat := 5 * 1000000000

def splitExpire : Nat := 3600 * 1000000000

def maxNicksDisplay : Nat := 15

/-- A nick that quit, and the buffers that it was in. -/
structure SplitRecord where
  nick : Str
  channels : List Str
  deriving DecidableEq

/-- The nicks of one split. -/
structure SplitGroup where
  server₁ : Str
  server₂ : Str
  nicks : List SplitRecord
  lastQuit : Nat
  printed : Bool
  deriving DecidableEq

/-- A nick that rejoined, and the buffers that it joined. -/
structure NetjoinRecord where
  nick : Str
  channels : List Str
  deriving DecidableEq

structure NetjoinGroup where
  server₁ : Str
  server₂ : Str
  records : List NetjoinRecord
  lastJoin : Nat
  printed : Bool
  deriving DecidableEq

/-- A message for some buffers. -/
structure NetsplitMessage where
  bufferIds : List Str
  text : Str
  deriving DecidableEq

structure NetsplitState where
  groups : List SplitGroup
  /-- The group of a split nick, by its lowercase form. -/
  nickIndex : Dict Str Nat
  netjoins : List NetjoinGroup
  deriving DecidableEq

/-! ### Summaries -/

/-- The nicks of some records that name a channel. -/
def nicksIn (channel : Str) (records : List (Str × List Str)) : List Str :=
  records.flatMap (fun r => (r.2.filter (· = channel)).map (fun _ => r.1))

/-- The channels of some records, each with its nicks. The order of the channels, which is the one
of a hash map, does not matter below. -/
def channelNicks (records : List (Str × List Str)) : List (Str × List Str) :=
  (records.flatMap Prod.snd).dedup.map (fun channel => (channel, nicksIn channel records))

def formatNickList (nicks : List Str) : Str :=
  if nicks.length > maxNicksDisplay then
    (str ", ").intercalate (nicks.take maxNicksDisplay) ++ str " (+" ++
      fmtNat (nicks.length - maxNicksDisplay) ++ str " more)"
  else (str ", ").intercalate nicks

def SplitGroup.entries (g : SplitGroup) : List (Str × List Str) :=
  g.nicks.map (fun r => (r.nick, r.channels))

def NetjoinGroup.entries (g : NetjoinGroup) : List (Str × List Str) :=
  g.records.map (fun r => (r.nick, r.channels))

/-- `Netsplit A ⇄ B quits: …` -/
def SplitGroup.summary (g : SplitGroup) (nicks : List Str) : Str :=
  str "Netsplit " ++ g.server₁ ++ [' ', Char.ofNat 0x21C4, ' '] ++ g.server₂ ++ str " quits: " ++
    formatNickList nicks

/-- `Netsplit over A ⇄ B joins: …` -/
def NetjoinGroup.summary (g : NetjoinGroup) (nicks : List Str) : Str :=
  str "Netsplit over " ++ g.server₁ ++ [' ', Char.ofNat 0x21C4, ' '] ++ g.server₂ ++
    str " joins: " ++ formatNickList nicks

def formatSplitMessages (g : SplitGroup) : List NetsplitMessage :=
  (channelNicks g.entries).map (fun cn => ⟨[cn.1], g.summary cn.2⟩)

def formatNetjoinMessages (g : NetjoinGroup) : List NetsplitMessage :=
  (channelNicks g.entries).map (fun cn => ⟨[cn.1], g.summary cn.2⟩)

/-! ### Transitions -/

namespace SplitGroup

/-- An open group of a pair of servers. -/
def isOpen (server₁ server₂ : Str) (g : SplitGroup) : Bool :=
  decide (g.server₁ = server₁) && decide (g.server₂ = server₂) && !g.printed

def addQuit (now : Nat) (r : SplitRecord) (g : SplitGroup) : SplitGroup :=
  { g with nicks := g.nicks ++ [r], lastQuit := now }

/-- Whether a tick prints the group. -/
def due (now : Nat) (g : SplitGroup) : Bool :=
  !g.printed && decide (splitBatchWait ≤ now - g.lastQuit)

def print (now : Nat) (g : SplitGroup) : SplitGroup :=
  if g.due now then { g with printed := true } else g

/-- Whether a tick keeps the group. -/
def fresh (now : Nat) (g : SplitGroup) : Bool := decide (now - g.lastQuit < splitExpire)

end SplitGroup

namespace NetjoinGroup

def isOpen (server₁ server₂ : Str) (g : NetjoinGroup) : Bool :=
  decide (g.server₁ = server₁) && decide (g.server₂ = server₂) && !g.printed

/-- Note a join under the nick, however it is spelled. -/
def noteJoin (nick bufferId : Str) : List NetjoinRecord → List NetjoinRecord
  | [] => [⟨nick, [bufferId]⟩]
  | r :: rest =>
    if eqIgnoreAsciiCase r.nick nick then
      { r with channels := if r.channels.contains bufferId then r.channels
          else r.channels ++ [bufferId] } :: rest
    else r :: noteJoin nick bufferId rest

def addJoin (now : Nat) (nick bufferId : Str) (g : NetjoinGroup) : NetjoinGroup :=
  { g with records := noteJoin nick bufferId g.records, lastJoin := now }

def due (now : Nat) (g : NetjoinGroup) : Bool :=
  !g.printed && decide (netjoinBatchWait ≤ now - g.lastJoin)

def print (now : Nat) (g : NetjoinGroup) : NetjoinGroup :=
  if g.due now then { g with printed := true } else g

def fresh (now : Nat) (g : NetjoinGroup) : Bool := decide (now - g.lastJoin < splitExpire)

end NetjoinGroup

/-- Modify the first element that satisfies `p`; if there is none, append one and modify it. -/
def modifyFirst {α : Type} (p : α → Bool) (new : α) (f : α → α) : List α → List α
  | [] => [f new]
  | a :: rest => if p a then f a :: rest else a :: modifyFirst p new f rest

namespace NetsplitState

def new : NetsplitState := ⟨[], Table.empty, []⟩

variable (lower : Str → Str) (s : NetsplitState)

/-- `handle_quit`: whether the QUIT belongs to a split. -/
def handleQuit (now : Nat) (nick message : Str) (affected : List Str) : Bool × NetsplitState :=
  if !isNetsplitQuit message then (false, s)
  else
    match Text.splitOnce ' ' message with
    | none => (false, s)
    | some (server₁, server₂) =>
      let isOpen := SplitGroup.isOpen server₁ server₂
      (true, { s with
        groups := modifyFirst isOpen ⟨server₁, server₂, [], now, false⟩
          (SplitGroup.addQuit now ⟨nick, affected⟩) s.groups
        nickIndex := s.nickIndex.insert (lower nick) (s.groups.findIdx isOpen) })

/-- `handle_join`: whether the JOIN belongs to a split. -/
def handleJoin (now : Nat) (nick bufferId : Str) : Bool × NetsplitState :=
  match s.nickIndex.lookup (lower nick) with
  | none => (false, s)
  | some i =>
    match s.groups[i]? with
    | none => (false, { s with nickIndex := s.nickIndex.erase (lower nick) })
    | some g =>
      (true, { s with
        netjoins := modifyFirst (NetjoinGroup.isOpen g.server₁ g.server₂)
          ⟨g.server₁, g.server₂, [], now, false⟩ (NetjoinGroup.addJoin now nick bufferId) s.netjoins
        nickIndex := s.nickIndex.erase (lower nick) })

/-- Index the nicks of some groups; a nick of several groups belongs to the last of them. -/
def reindex : (start : Nat) → List SplitGroup → Dict Str Nat → Dict Str Nat
  | _, [], index => index
  | start, g :: groups, index =>
    reindex (start + 1) groups (g.nicks.foldl (fun d r => d.insert (lower r.nick) start) index)

/-- `tick`: the summaries that are due. -/
def tick (now : Nat) : List NetsplitMessage × NetsplitState :=
  let groups := (s.groups.map (SplitGroup.print now)).filter (SplitGroup.fresh now)
  ((s.groups.filter (SplitGroup.due now)).flatMap formatSplitMessages ++
      (s.netjoins.filter (NetjoinGroup.due now)).flatMap formatNetjoinMessages,
    { groups := groups
      nickIndex := reindex lower 0 groups Table.empty
      netjoins := (s.netjoins.map (NetjoinGroup.print now)).filter (NetjoinGroup.fresh now) })

end NetsplitState

/-! ### Runs -/

namespace Netsplit

open NetsplitState

/-- The calls, each with the time that it is made at. -/
inductive Op where
  | quit (now : Nat) (nick message : Str) (affected : List Str)
  | join (now : Nat) (nick bufferId : Str)
  | tick (now : Nat)
  deriving DecidableEq

variable (lower : Str → Str)

def step (s : NetsplitState) : Op → NetsplitState
  | .quit now nick message affected => (s.handleQuit lower now nick message affected).2
  | .join now nick bufferId => (s.handleJoin lower now nick bufferId).2
  | .tick now => (s.tick lower now).2

/-- Whether the call takes a QUIT or JOIN out of the display. -/
def suppresses (s : NetsplitState) : Op → Bool
  | .quit now nick message affected => (s.handleQuit lower now nick message affected).1
  | .join now nick bufferId => (s.handleJoin lower now nick bufferId).1
  | .tick _ => false

/-- A suppressed QUIT of a nick, given in lowercase. -/
def isSplitOf (key : Str) (s : NetsplitState) (op : Op) : Bool :=
  match op with
  | .quit _ nick _ _ => decide (lower nick = key) && suppresses lower s op
  | _ => false

/-- A suppressed JOIN of a nick, given in lowercase. -/
def isRejoinOf (key : Str) (s : NetsplitState) (op : Op) : Bool :=
  match op with
  | .join _ nick _ => decide (lower nick = key) && suppresses lower s op
  | _ => false

/-- How many calls of a run satisfy a predicate in the state that they are made in. -/
def countCalls (p : NetsplitState → Op → Bool) : NetsplitState → List Op → Nat
  | _, [] => 0
  | s, op :: ops => (if p s op then 1 else 0) + countCalls p (step lower s op) ops

/-- The results of the JOINs of a run. -/
def joinResults : NetsplitState → List Op → List Bool
  | _, [] => []
  | s, op :: ops =>
    (match op with
      | .join _ _ _ => [suppresses lower s op]
      | _ => []) ++ joinResults (step lower s op) ops

/-- The nick is a split user that has not rejoined. -/
def Away (s : NetsplitState) (key : Str) : Prop := (s.nickIndex.lookup key).isSome = true

/-- A nick is listed in some groups. -/
def Listed (groups : List SplitGroup) (key : Str) : Prop :=
  ∃ g ∈ groups, ∃ r ∈ g.nicks, lower r.nick = key

/-- The groups that a tick keeps. -/
def kept (s : NetsplitState) (now : Nat) : List SplitGroup :=
  (s.groups.map (SplitGroup.print now)).filter (SplitGroup.fresh now)

/-- The groups that a tick keeps list no nick that has rejoined. -/
def TickClean (s : NetsplitState) : Op → Prop
  | .tick now => ∀ key, Listed lower (kept s now) key → Away s key
  | _ => True

/-! ### The index -/

theorem lookup_foldl_insert (i : Nat) (records : List SplitRecord) (d : Dict Str Nat) (key : Str) :
    (records.foldl (fun d r => d.insert (lower r.nick) i) d).lookup key =
      if ∃ r ∈ records, lower r.nick = key then some i else d.lookup key := by
  induction records generalizing d with
  | nil => simp
  | cons r records ih =>
    rw [List.foldl_cons, ih, Dict.lookup_insert]
    by_cases hrest : ∃ r' ∈ records, lower r'.nick = key
    · obtain ⟨r', hr', hkey⟩ := hrest
      rw [if_pos ⟨r', hr', hkey⟩, if_pos ⟨r', List.mem_cons_of_mem _ hr', hkey⟩]
    · rw [if_neg hrest]
      by_cases hr : lower r.nick = key
      · rw [if_pos hr, if_pos ⟨r, List.mem_cons_self, hr⟩]
      · rw [if_neg hr, if_neg]
        rintro ⟨r', hr', hkey⟩
        rcases List.mem_cons.mp hr' with rfl | hr'
        · exact hr hkey
        · exact hrest ⟨r', hr', hkey⟩

/-- The index of some groups knows their nicks, and points into them. -/
theorem lookup_reindex (groups : List SplitGroup) (start : Nat) (d : Dict Str Nat) (key : Str) :
    ((reindex lower start groups d).lookup key = d.lookup key ∧ ¬ Listed lower groups key) ∨
      ∃ i, (reindex lower start groups d).lookup key = some i ∧ start ≤ i ∧
        i < start + groups.length ∧ Listed lower groups key := by
  induction groups generalizing start d with
  | nil =>
    left
    refine ⟨rfl, ?_⟩
    rintro ⟨g, hg, -⟩
    cases hg
  | cons g groups ih =>
    rw [reindex]
    rcases ih (start + 1) (g.nicks.foldl (fun d r => d.insert (lower r.nick) start) d) with
      ⟨heq, hno⟩ | ⟨i, heq, hle, hlt, g', hg', hlisted⟩
    · rw [heq, lookup_foldl_insert]
      by_cases hhere : ∃ r ∈ g.nicks, lower r.nick = key
      · right
        refine ⟨start, by rw [if_pos hhere], Nat.le_refl _, ?_, g, List.mem_cons_self, hhere⟩
        simp
      · left
        rw [if_neg hhere]
        refine ⟨rfl, ?_⟩
        rintro ⟨g', hg', hlisted⟩
        rcases List.mem_cons.mp hg' with rfl | hg'
        · exact hhere hlisted
        · exact hno ⟨g', hg', hlisted⟩
    · right
      refine ⟨i, heq, by omega, ?_, g', List.mem_cons_of_mem _ hg', hlisted⟩
      rw [List.length_cons]
      omega

/-- After a tick, the users that are away are the ones of the groups that it keeps. -/
theorem away_tick (s : NetsplitState) (now : Nat) (key : Str) :
    Away (s.tick lower now).2 key ↔ Listed lower (kept s now) key := by
  show ((reindex lower 0 (kept s now) Table.empty).lookup key).isSome = true ↔ _
  rcases lookup_reindex lower (kept s now) 0 Table.empty key with ⟨heq, hno⟩ | ⟨i, heq, -, -, hyes⟩
  · rw [heq]
    exact iff_of_false (by simp) hno
  · rw [heq]
    exact iff_of_true rfl hyes

/-- The index points into the groups. -/
def InBounds (s : NetsplitState) : Prop :=
  ∀ key i, s.nickIndex.lookup key = some i → i < s.groups.length

theorem length_modifyFirst {α : Type} (p : α → Bool) (a : α) (f : α → α) (l : List α) :
    l.length ≤ (modifyFirst p a f l).length ∧ l.findIdx p < (modifyFirst p a f l).length := by
  induction l with
  | nil => simp [modifyFirst]
  | cons b l ih =>
    rw [modifyFirst, List.findIdx_cons]
    cases p b with
    | true => simp
    | false => simpa using ih

/-- The servers of a split, if a QUIT message names two. -/
def serverPair (message : Str) : Option (Str × Str) :=
  if isNetsplitQuit message then Text.splitOnce ' ' message else none

/-- The state after a QUIT of a split. -/
def afterQuit (s : NetsplitState) (now : Nat) (nick : Str) (affected : List Str)
    (pair : Str × Str) : NetsplitState :=
  { s with
    groups := modifyFirst (SplitGroup.isOpen pair.1 pair.2) ⟨pair.1, pair.2, [], now, false⟩
      (SplitGroup.addQuit now ⟨nick, affected⟩) s.groups
    nickIndex := s.nickIndex.insert (lower nick)
      (s.groups.findIdx (SplitGroup.isOpen pair.1 pair.2)) }

/-- The state after a JOIN of a user of the group `g`. -/
def afterJoin (s : NetsplitState) (now : Nat) (nick bufferId : Str) (g : SplitGroup) :
    NetsplitState :=
  { s with
    netjoins := modifyFirst (NetjoinGroup.isOpen g.server₁ g.server₂)
      ⟨g.server₁, g.server₂, [], now, false⟩ (NetjoinGroup.addJoin now nick bufferId) s.netjoins
    nickIndex := s.nickIndex.erase (lower nick) }

theorem handleQuit_eq (s : NetsplitState) (now : Nat) (nick message : Str) (affected : List Str) :
    s.handleQuit lower now nick message affected =
      match serverPair message with
      | none => (false, s)
      | some pair => (true, afterQuit lower s now nick affected pair) := by
  rw [handleQuit, serverPair]
  cases isNetsplitQuit message with
  | false => rfl
  | true =>
    cases Text.splitOnce ' ' message with
    | none => rfl
    | some pair => rfl

/-- A JOIN belongs to a split if its user is away. -/
theorem handleJoin_eq {s : NetsplitState} (h : InBounds s) (now : Nat) (nick bufferId : Str) :
    (¬ Away s (lower nick) ∧ s.handleJoin lower now nick bufferId = (false, s)) ∨
      ∃ i g, s.nickIndex.lookup (lower nick) = some i ∧ s.groups[i]? = some g ∧
        s.handleJoin lower now nick bufferId = (true, afterJoin lower s now nick bufferId g) := by
  rw [handleJoin, Away]
  cases hi : s.nickIndex.lookup (lower nick) with
  | none => exact .inl ⟨by simp, rfl⟩
  | some i =>
    obtain ⟨g, hg⟩ : ∃ g, s.groups[i]? = some g := ⟨_, List.getElem?_eq_getElem (h _ i hi)⟩
    exact .inr ⟨i, g, rfl, hg, by simp only [hg]; rfl⟩

theorem inBounds_step {s : NetsplitState} (h : InBounds s) (op : Op) :
    InBounds (step lower s op) := by
  cases op with
  | quit now nick message affected =>
    rw [step, handleQuit_eq]
    cases serverPair message with
    | none => exact h
    | some pair =>
      intro key i hi
      change (s.nickIndex.insert (lower nick) _).lookup key = some i at hi
      have hlength := length_modifyFirst (SplitGroup.isOpen pair.1 pair.2)
        ⟨pair.1, pair.2, [], now, false⟩ (SplitGroup.addQuit now ⟨nick, affected⟩) s.groups
      rw [Dict.lookup_insert] at hi
      by_cases hkey : lower nick = key
      · rw [if_pos hkey, Option.some.injEq] at hi
        exact hi ▸ hlength.2
      · rw [if_neg hkey] at hi
        exact Nat.lt_of_lt_of_le (h key i hi) hlength.1
  | join now nick bufferId =>
    rw [step]
    rcases handleJoin_eq lower h now nick bufferId with ⟨-, heq⟩ | ⟨i, g, -, -, heq⟩
    · rw [heq]
      exact h
    · rw [heq]
      exact fun key i hi => h key i (Dict.lookup_of_erase hi).1
  | tick now =>
    intro key i hi
    change (reindex lower 0 (kept s now) Table.empty).lookup key = some i at hi
    show i < (kept s now).length
    rcases lookup_reindex lower (kept s now) 0 Table.empty key with ⟨heq, -⟩ | ⟨j, heq, -, hlt, -⟩
    · rw [heq] at hi
      cases hi
    · rw [heq, Option.some.injEq] at hi
      omega

theorem inBounds_new : InBounds NetsplitState.new := fun _ _ h => by cases h

/-! ### Splits and rejoins -/

/-- A QUIT of a split sends its user away. -/
theorem away_afterQuit (s : NetsplitState) (now : Nat) (nick : Str) (affected : List Str)
    (pair : Str × Str) (key : Str) :
    Away (afterQuit lower s now nick affected pair) key ↔ lower nick = key ∨ Away s key := by
  show ((s.nickIndex.insert (lower nick) _).lookup key).isSome = true ↔ _
  rw [Dict.lookup_insert]
  by_cases hkey : lower nick = key
  · rw [if_pos hkey]
    exact iff_of_true rfl (.inl hkey)
  · rw [if_neg hkey]
    exact (or_iff_right hkey).symm

/-- A JOIN brings its user back. -/
theorem away_afterJoin (s : NetsplitState) (now : Nat) (nick bufferId : Str) (g : SplitGroup)
    (key : Str) :
    Away (afterJoin lower s now nick bufferId g) key ↔ Away s key ∧ lower nick ≠ key := by
  show ((s.nickIndex.erase (lower nick)).lookup key).isSome = true ↔ _
  rw [Dict.lookup_erase]
  by_cases hkey : lower nick = key
  · rw [if_pos hkey]
    exact iff_of_false (by simp) (fun hp => hp.2 hkey)
  · rw [if_neg hkey]
    exact (and_iff_left hkey).symm

theorem away_of_lookup {s : NetsplitState} {key : Str} {i : Nat}
    (h : s.nickIndex.lookup key = some i) : Away s key := by
  rw [Away, h]
  rfl

section Calls

variable (key : Str) (s : NetsplitState) (now : Nat) (nick message bufferId : Str)
  (affected : List Str)

@[simp] theorem isSplitOf_quit : isSplitOf lower key s (.quit now nick message affected) =
    (decide (lower nick = key) && suppresses lower s (.quit now nick message affected)) := rfl

@[simp] theorem isSplitOf_join : isSplitOf lower key s (.join now nick bufferId) = false := rfl

@[simp] theorem isSplitOf_tick : isSplitOf lower key s (.tick now) = false := rfl

@[simp] theorem isRejoinOf_quit :
    isRejoinOf lower key s (.quit now nick message affected) = false := rfl

@[simp] theorem isRejoinOf_join : isRejoinOf lower key s (.join now nick bufferId) =
    (decide (lower nick = key) && suppresses lower s (.join now nick bufferId)) := rfl

@[simp] theorem isRejoinOf_tick : isRejoinOf lower key s (.tick now) = false := rfl

end Calls

open Classical in
/-- A user that is away has one split to spare. -/
theorem balance_run (key : Str) {s : NetsplitState} (hs : InBounds s) (ops : List Op)
    (h : Run.Guarded (step lower) (TickClean lower) s ops) :
    countCalls lower (isRejoinOf lower key) s ops ≤
      countCalls lower (isSplitOf lower key) s ops + if Away s key then 1 else 0 := by
  induction ops generalizing s with
  | nil => exact Nat.zero_le _
  | cons op ops ih =>
    have hrest := ih (inBounds_step lower hs op) h.2
    rw [countCalls, countCalls]
    cases op with
    | quit now nick message affected =>
      rw [isRejoinOf_quit, isSplitOf_quit, suppresses]
      rw [step] at hrest ⊢
      rw [handleQuit_eq] at hrest ⊢
      cases hpair : serverPair message with
      | none =>
        rw [hpair] at hrest
        simpa using hrest
      | some pair =>
        rw [hpair] at hrest
        simp only [away_afterQuit] at hrest
        by_cases hkey : lower nick = key
        · simp only [hkey, decide_true, Bool.and_true, if_true, true_or] at hrest ⊢
          simp only [Bool.false_eq_true, if_false]
          omega
        · simp only [hkey, false_or, decide_false, Bool.false_and, Bool.false_eq_true,
            if_false] at hrest ⊢
          omega
    | join now nick bufferId =>
      rw [isRejoinOf_join, isSplitOf_join, suppresses]
      rw [step] at hrest ⊢
      rcases handleJoin_eq lower hs now nick bufferId with ⟨-, heq⟩ | ⟨i, g, hi, -, heq⟩
      · rw [heq] at hrest ⊢
        simpa using hrest
      · rw [heq] at hrest ⊢
        simp only [away_afterJoin] at hrest
        by_cases hkey : lower nick = key
        · have haway : Away s key := hkey ▸ away_of_lookup hi
          simp only [hkey, ne_eq, not_true_eq_false, and_false, if_false] at hrest
          simp only [hkey, decide_true, Bool.and_true, if_true, haway, Bool.false_eq_true, if_false]
          omega
        · simp only [hkey, ne_eq, not_false_eq_true, and_true] at hrest
          simp only [hkey, decide_false, Bool.false_and, Bool.false_eq_true, if_false]
          omega
    | tick now =>
      rw [isRejoinOf_tick, isSplitOf_tick]
      have hclean := h.1
      have hmono : (if Away (step lower s (.tick now)) key then 1 else 0) ≤
          if Away s key then 1 else 0 := by
        by_cases haway : Away (step lower s (.tick now)) key
        · have hbefore : Away s key := hclean key ((away_tick lower s now key).mp haway)
          simp [haway, hbefore]
        · rw [if_neg haway]
          exact Nat.zero_le _
      simp only [Bool.false_eq_true, if_false]
      omega

/-- **Each split is consumed by one rejoin**, unless a tick brings back a nick that has rejoined. -/
theorem rejoins_le_splits (key : Str) (ops : List Op)
    (h : Run.Guarded (step lower) (TickClean lower) NetsplitState.new ops) :
    countCalls lower (isRejoinOf lower key) NetsplitState.new ops ≤
      countCalls lower (isSplitOf lower key) NetsplitState.new ops := by
  have hbalance := balance_run lower key inBounds_new ops h
  rw [if_neg (by simp [Away, NetsplitState.new])] at hbalance
  exact hbalance

/-! ### Additional ticks -/

/-- A later QUIT of the run names the two servers. -/
def QuitsOf (pair : Str × Str) (ops : List Op) : Prop :=
  ∃ now nick message affected, .quit now nick message affected ∈ ops ∧
    serverPair message = some pair

/-- A tick that expires no record, brings back no nick that has rejoined, and closes no group that
a later QUIT would still join. -/
structure Harmless (s : NetsplitState) (now : Nat) (rest : List Op) : Prop where
  fresh : ∀ g ∈ s.groups, g.fresh now = true
  clean : TickClean lower s (.tick now)
  closed : ∀ g ∈ s.groups, g.due now = true → ¬ QuitsOf (g.server₁, g.server₂) rest

/-- The second run is the first one with additional harmless ticks. -/
inductive Padded : NetsplitState → List Op → List Op → Prop where
  | nil (s : NetsplitState) : Padded s [] []
  | keep {s : NetsplitState} {op : Op} {ops ops' : List Op} (h : Padded (step lower s op) ops ops') :
      Padded s (op :: ops) (op :: ops')
  | tick {s : NetsplitState} {now : Nat} {ops ops' : List Op} (hnow : Harmless lower s now ops)
      (h : Padded (step lower s (.tick now)) ops ops') : Padded s ops (.tick now :: ops')

/-- Two groups that only differ in whether they have been printed, if that does not matter. -/
structure AlikeGroup (rest : List Op) (g g' : SplitGroup) : Prop where
  server₁ : g.server₁ = g'.server₁
  server₂ : g.server₂ = g'.server₂
  nicks : g.nicks = g'.nicks
  lastQuit : g.lastQuit = g'.lastQuit
  printed : QuitsOf (g.server₁, g.server₂) rest → g.printed = g'.printed

/-- Two states that answer the rest of a run alike. -/
structure Alike (rest : List Op) (s s' : NetsplitState) : Prop where
  groups : List.Forall₂ (AlikeGroup rest) s.groups s'.groups
  away : ∀ key, Away s key ↔ Away s' key
  listed : ∀ key, Away s' key → Listed lower s'.groups key
  inBounds : InBounds s
  inBounds' : InBounds s'

theorem QuitsOf.cons {pair : Str × Str} {ops : List Op} (op : Op) (h : QuitsOf pair ops) :
    QuitsOf pair (op :: ops) := by
  obtain ⟨now, nick, message, affected, hmem, hpair⟩ := h
  exact ⟨now, nick, message, affected, List.mem_cons_of_mem op hmem, hpair⟩

theorem AlikeGroup.tail {op : Op} {rest : List Op} {g g' : SplitGroup}
    (h : AlikeGroup (op :: rest) g g') : AlikeGroup rest g g' :=
  ⟨h.server₁, h.server₂, h.nicks, h.lastQuit, fun hq => h.printed (hq.cons op)⟩

theorem alikeGroup_refl (rest : List Op) (g : SplitGroup) : AlikeGroup rest g g :=
  ⟨rfl, rfl, rfl, rfl, fun _ => rfl⟩

/-- A QUIT that finds its group open in one run finds it open in the other. -/
theorem forall₂_modifyFirst {rest : List Op} {pair : Str × Str} (hq : QuitsOf pair rest)
    (now : Nat) (r : SplitRecord) {l l' : List SplitGroup}
    (h : List.Forall₂ (AlikeGroup rest) l l') :
    List.Forall₂ (AlikeGroup rest)
      (modifyFirst (SplitGroup.isOpen pair.1 pair.2) ⟨pair.1, pair.2, [], now, false⟩
        (SplitGroup.addQuit now r) l)
      (modifyFirst (SplitGroup.isOpen pair.1 pair.2) ⟨pair.1, pair.2, [], now, false⟩
        (SplitGroup.addQuit now r) l') := by
  have hadd : ∀ {g g'}, AlikeGroup rest g g' →
      AlikeGroup rest (SplitGroup.addQuit now r g) (SplitGroup.addQuit now r g') := by
    intro g g' hg
    exact ⟨hg.server₁, hg.server₂, congrArg (· ++ [r]) hg.nicks, rfl, hg.printed⟩
  induction h with
  | nil => exact List.Forall₂.cons (hadd (alikeGroup_refl _ _)) List.Forall₂.nil
  | @cons g g' l l' hg hl ih =>
    have hopen : SplitGroup.isOpen pair.1 pair.2 g = SplitGroup.isOpen pair.1 pair.2 g' := by
      rw [SplitGroup.isOpen, SplitGroup.isOpen, ← hg.server₁, ← hg.server₂]
      by_cases hpair : (g.server₁, g.server₂) = pair
      · rw [hg.printed (hpair ▸ hq)]
      · have hno : (decide (g.server₁ = pair.1) && decide (g.server₂ = pair.2)) = false := by
          rw [Bool.and_eq_false_iff, decide_eq_false_iff_not, decide_eq_false_iff_not]
          by_contra hboth
          rw [not_or, not_not, not_not] at hboth
          exact hpair (Prod.ext hboth.1 hboth.2)
        rw [hno, Bool.false_and, Bool.false_and]
    rw [modifyFirst, modifyFirst, ← hopen]
    by_cases ho : SplitGroup.isOpen pair.1 pair.2 g = true
    · rw [if_pos ho, if_pos ho]
      exact List.Forall₂.cons (hadd hg) hl
    · rw [if_neg ho, if_neg ho]
      exact List.Forall₂.cons hg ih

/-- The groups that a tick keeps are alike, and list the same nicks. -/
theorem forall₂_kept {rest : List Op} (now : Nat) {l l' : List SplitGroup}
    (h : List.Forall₂ (AlikeGroup rest) l l') :
    List.Forall₂ (AlikeGroup rest)
      ((l.map (SplitGroup.print now)).filter (SplitGroup.fresh now))
      ((l'.map (SplitGroup.print now)).filter (SplitGroup.fresh now)) := by
  have hprint : ∀ {g g'}, AlikeGroup rest g g' →
      AlikeGroup rest (g.print now) (g'.print now) := by
    intro g g' hg
    have hfields : ∀ g : SplitGroup,
        g.print now = { g with printed := g.printed || g.due now } := by
      intro g
      rw [SplitGroup.print]
      cases hdue : g.due now <;> simp
    rw [hfields, hfields]
    refine ⟨hg.server₁, hg.server₂, hg.nicks, hg.lastQuit, fun hq => ?_⟩
    show (g.printed || g.due now) = (g'.printed || g'.due now)
    rw [SplitGroup.due, SplitGroup.due, hg.printed hq, hg.lastQuit]
  have hmap : List.Forall₂ (AlikeGroup rest) (l.map (SplitGroup.print now))
      (l'.map (SplitGroup.print now)) := by
    rw [List.forall₂_map_left_iff, List.forall₂_map_right_iff]
    exact h.imp (fun _ _ hg => hprint hg)
  refine List.rel_filter (fun g g' hg => ?_) hmap
  show g.fresh now = true ↔ g'.fresh now = true
  rw [SplitGroup.fresh, SplitGroup.fresh, hg.lastQuit]

theorem listed_cons (g : SplitGroup) (l : List SplitGroup) (key : Str) :
    Listed lower (g :: l) key ↔ (∃ r ∈ g.nicks, lower r.nick = key) ∨ Listed lower l key :=
  List.exists_mem_cons_iff _ _ _

theorem listed_iff {rest : List Op} {l l' : List SplitGroup}
    (h : List.Forall₂ (AlikeGroup rest) l l') (key : Str) :
    Listed lower l key ↔ Listed lower l' key := by
  induction h with
  | nil => exact Iff.rfl
  | @cons g g' l l' hg hl ih => rw [listed_cons, listed_cons, hg.nicks, ih]

theorem listed_modifyFirst (pair : Str × Str) (now : Nat) (r : SplitRecord) (l : List SplitGroup)
    (key : Str) :
    Listed lower (modifyFirst (SplitGroup.isOpen pair.1 pair.2) ⟨pair.1, pair.2, [], now, false⟩
      (SplitGroup.addQuit now r) l) key ↔ lower r.nick = key ∨ Listed lower l key := by
  have hadd : ∀ g : SplitGroup, (∃ r' ∈ (SplitGroup.addQuit now r g).nicks, lower r'.nick = key) ↔
      lower r.nick = key ∨ ∃ r' ∈ g.nicks, lower r'.nick = key := by
    intro g
    simp only [SplitGroup.addQuit, List.mem_append, List.mem_singleton, or_and_right, exists_or,
      exists_eq_left]
    exact Or.comm
  induction l with
  | nil => rw [modifyFirst, listed_cons, hadd]; simp
  | cons g l ih =>
    rw [modifyFirst, listed_cons]
    by_cases ho : SplitGroup.isOpen pair.1 pair.2 g = true
    · rw [if_pos ho, listed_cons, hadd, or_assoc]
    · rw [if_neg ho, listed_cons]
      exact (or_congr_right ih).trans or_left_comm

/-- The groups of two alike states that a tick keeps. -/
theorem listed_kept_iff {rest : List Op} {s s' : NetsplitState} (h : Alike lower rest s s')
    (now : Nat) (key : Str) : Listed lower (kept s now) key ↔ Listed lower (kept s' now) key :=
  listed_iff lower (forall₂_kept now h.groups) key

theorem Alike.quit {rest : List Op} {s s' : NetsplitState} {now : Nat} {nick message : Str}
    {affected : List Str} (h : Alike lower (.quit now nick message affected :: rest) s s') :
    Alike lower rest (step lower s (.quit now nick message affected))
      (step lower s' (.quit now nick message affected)) := by
  have hbounds := inBounds_step lower h.inBounds (.quit now nick message affected)
  have hbounds' := inBounds_step lower h.inBounds' (.quit now nick message affected)
  rw [step, step, handleQuit_eq, handleQuit_eq] at *
  cases hpair : serverPair message with
  | none => exact ⟨h.groups.imp (fun _ _ hg => hg.tail), h.away, h.listed, h.inBounds, h.inBounds'⟩
  | some pair =>
    rw [hpair] at hbounds hbounds'
    refine ⟨?_, fun key => ?_, fun key hkey => ?_, hbounds, hbounds'⟩
    · have hq : QuitsOf pair (.quit now nick message affected :: rest) :=
        ⟨now, nick, message, affected, List.mem_cons_self, hpair⟩
      exact (forall₂_modifyFirst hq now ⟨nick, affected⟩ h.groups).imp (fun _ _ hg => hg.tail)
    · rw [away_afterQuit, away_afterQuit, h.away]
    · rw [away_afterQuit] at hkey
      exact (listed_modifyFirst lower pair now ⟨nick, affected⟩ s'.groups key).mpr
        (hkey.imp_right (h.listed key))

/-- Alike states treat a JOIN alike. -/
theorem Alike.join {rest : List Op} {s s' : NetsplitState} {now : Nat} {nick bufferId : Str}
    (h : Alike lower (.join now nick bufferId :: rest) s s') :
    suppresses lower s (.join now nick bufferId) = suppresses lower s' (.join now nick bufferId) ∧
      Alike lower rest (step lower s (.join now nick bufferId))
        (step lower s' (.join now nick bufferId)) := by
  have hgroups := h.groups.imp (fun _ _ hg => AlikeGroup.tail hg)
  have hbounds := inBounds_step lower h.inBounds (.join now nick bufferId)
  have hbounds' := inBounds_step lower h.inBounds' (.join now nick bufferId)
  rw [suppresses, suppresses]
  rw [step] at hbounds hbounds' ⊢
  rw [step]
  -- both states find the user away, or neither does
  rcases handleJoin_eq lower h.inBounds now nick bufferId with ⟨hno, heq⟩ | ⟨i, g, hi, -, heq⟩ <;>
    rcases handleJoin_eq lower h.inBounds' now nick bufferId with
      ⟨hno', heq'⟩ | ⟨i', g', hi', -, heq'⟩
  · rw [heq, heq']
    exact ⟨rfl, hgroups, h.away, h.listed, h.inBounds, h.inBounds'⟩
  · exact absurd ((h.away _).mpr (away_of_lookup hi')) hno
  · exact absurd ((h.away _).mp (away_of_lookup hi)) hno'
  · rw [heq] at hbounds ⊢
    rw [heq'] at hbounds' ⊢
    refine ⟨rfl, hgroups, fun key => ?_, fun key hkey => ?_, hbounds, hbounds'⟩
    · rw [away_afterJoin, away_afterJoin, h.away]
    · rw [away_afterJoin] at hkey
      exact h.listed key hkey.1

theorem Alike.tick {rest : List Op} {s s' : NetsplitState} {now : Nat}
    (h : Alike lower (.tick now :: rest) s s') :
    Alike lower rest (step lower s (.tick now)) (step lower s' (.tick now)) := by
  refine ⟨(forall₂_kept now h.groups).imp (fun _ _ hg => hg.tail), fun key => ?_,
    fun key hkey => (away_tick lower s' now key).mp hkey, inBounds_step lower h.inBounds _,
    inBounds_step lower h.inBounds' _⟩
  rw [step, step, away_tick, away_tick, listed_kept_iff lower h]

/-- A tick that expires nothing keeps every group. -/
theorem kept_of_fresh {s : NetsplitState} {now : Nat} (h : ∀ g ∈ s.groups, g.fresh now = true) :
    kept s now = s.groups.map (SplitGroup.print now) := by
  rw [kept, List.filter_eq_self]
  intro g hg
  obtain ⟨g₀, hg₀, rfl⟩ := List.mem_map.mp hg
  rw [SplitGroup.print]
  by_cases hdue : g₀.due now = true
  · rw [if_pos hdue]
    exact h g₀ hg₀
  · rw [if_neg hdue]
    exact h g₀ hg₀

theorem listed_map_print (now : Nat) (l : List SplitGroup) (key : Str) :
    Listed lower (l.map (SplitGroup.print now)) key ↔ Listed lower l key := by
  have hnicks : ∀ g : SplitGroup, (g.print now).nicks = g.nicks := by
    intro g
    rw [SplitGroup.print]
    by_cases hdue : g.due now = true <;> simp [hdue]
  simp only [Listed, List.mem_map, exists_exists_and_eq_and, hnicks]

theorem forall₂_imp_mem {α β : Type} {R S : α → β → Prop} {l : List α} {l' : List β}
    (h : List.Forall₂ R l l') (himp : ∀ a b, R a b → b ∈ l' → S a b) : List.Forall₂ S l l' := by
  induction h with
  | nil => exact List.Forall₂.nil
  | cons hab _ ih =>
    exact List.Forall₂.cons (himp _ _ hab List.mem_cons_self)
      (ih (fun a b hR hb => himp a b hR (List.mem_cons_of_mem _ hb)))

/-- A harmless tick in one of two alike states leaves them alike. -/
theorem Alike.insert {rest : List Op} {s s' : NetsplitState} {now : Nat}
    (h : Alike lower rest s s') (hnow : Harmless lower s' now rest) :
    Alike lower rest s (step lower s' (.tick now)) := by
  have hkept := kept_of_fresh hnow.fresh
  refine ⟨?_, fun key => ?_, fun key hkey => (away_tick lower s' now key).mp hkey, h.inBounds,
    inBounds_step lower h.inBounds' _⟩
  · show List.Forall₂ (AlikeGroup rest) s.groups (kept s' now)
    rw [hkept, List.forall₂_map_right_iff]
    refine forall₂_imp_mem h.groups (fun g g' hg hmem => ?_)
    rw [SplitGroup.print]
    by_cases hdue : g'.due now = true
    · rw [if_pos hdue]
      refine ⟨hg.server₁, hg.server₂, hg.nicks, hg.lastQuit, fun hq => ?_⟩
      rw [hg.server₁, hg.server₂] at hq
      exact absurd hq (hnow.closed g' hmem hdue)
    · rw [if_neg hdue]
      exact hg
  · rw [step, away_tick, h.away]
    refine ⟨fun haway => ?_, hnow.clean key⟩
    rw [hkept, listed_map_print]
    exact h.listed key haway

/-- **Additional ticks change no result**, if they are harmless. -/
theorem joinResults_eq {s' : NetsplitState} {ops ops' : List Op} (h : Padded lower s' ops ops') :
    ∀ {s : NetsplitState}, Alike lower ops s s' →
      joinResults lower s ops = joinResults lower s' ops' := by
  induction h with
  | nil s' => exact fun _ => rfl
  | @keep s' op ops ops' h ih =>
    intro s hs
    cases op with
    | quit now nick message affected => exact ih (Alike.quit lower hs)
    | join now nick bufferId =>
      obtain ⟨hresult, hnext⟩ := Alike.join lower hs
      rw [joinResults, joinResults, ih hnext]
      exact congrArg (fun b => [b] ++ _) hresult
    | tick now => exact ih (Alike.tick lower hs)
  | tick hnow h ih => exact fun hs => ih (Alike.insert lower hs hnow)

/-- **Each split is consumed by one rejoin**, and additional ticks change no result. -/
theorem rejoin_suppression :
    (∀ key ops, Run.Guarded (step lower) (TickClean lower) NetsplitState.new ops →
        countCalls lower (isRejoinOf lower key) NetsplitState.new ops ≤
          countCalls lower (isSplitOf lower key) NetsplitState.new ops) ∧
      ∀ ops ops', Padded lower NetsplitState.new ops ops' →
        joinResults lower NetsplitState.new ops = joinResults lower NetsplitState.new ops' := by
  refine ⟨rejoins_le_splits lower, fun ops ops' h => joinResults_eq lower h ?_⟩
  refine ⟨List.Forall₂.nil, fun key => Iff.rfl, fun key hkey => ?_, inBounds_new, inBounds_new⟩
  cases hkey

/-- A user quits in a split. -/
def sampleQuit : Op := .quit 0 (str "alice") (str "hub.net leaf.net") [str "c1/#rust"]

/-- The user joins again. -/
def sampleJoin : Op := .join 1 (str "alice") (str "c1/#rust")

theorem rejoin_suppression_sample :
    countCalls id (isRejoinOf id (str "alice")) NetsplitState.new
        [sampleQuit, .tick 6000000000, sampleJoin] ≤
      countCalls id (isSplitOf id (str "alice")) NetsplitState.new
        [sampleQuit, .tick 6000000000, sampleJoin] ∧
    joinResults id NetsplitState.new [sampleQuit, sampleJoin] =
      joinResults id NetsplitState.new [sampleQuit, .tick 6000000000, sampleJoin] := by
  have hclean : TickClean id (step id NetsplitState.new sampleQuit) (.tick 6000000000) := by
    rintro key ⟨g, hg, r, hr, rfl⟩
    have hkept : kept (step id NetsplitState.new sampleQuit) 6000000000 =
        [⟨str "hub.net", str "leaf.net", [⟨str "alice", [str "c1/#rust"]⟩], 0, true⟩] := by
      decide
    rw [hkept] at hg
    cases List.mem_singleton.mp hg
    cases List.mem_singleton.mp hr
    rfl
  refine ⟨(rejoin_suppression id).1 (str "alice") _ ⟨trivial, hclean, trivial, trivial⟩,
    (rejoin_suppression id).2 _ _ (.keep (.tick ⟨by decide, hclean, ?_⟩ (.keep (.nil _))))⟩
  rintro g - - ⟨now, nick, message, affected, hmem, -⟩
  cases List.mem_singleton.mp hmem

/-- The user joins a second channel, before and after which the index is rebuilt. -/
theorem tick_revives :
    ¬ countCalls id (isRejoinOf id (str "alice")) NetsplitState.new
        [sampleQuit, sampleJoin, .tick 2, .join 3 (str "alice") (str "c1/#lean")] ≤
      countCalls id (isSplitOf id (str "alice")) NetsplitState.new
        [sampleQuit, sampleJoin, .tick 2, .join 3 (str "alice") (str "c1/#lean")] ∧
    joinResults id NetsplitState.new
        [sampleQuit, sampleJoin, .join 3 (str "alice") (str "c1/#lean")] ≠
      joinResults id NetsplitState.new
        [sampleQuit, sampleJoin, .tick 2, .join 3 (str "alice") (str "c1/#lean")] := by
  decide

end Netsplit

end Repartee
