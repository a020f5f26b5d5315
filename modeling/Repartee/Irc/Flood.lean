import Repartee.E2e.Basic
import Repartee.Lib.Table

/-!
# Floods

`irc/flood.rs`: CTCPs, messages of unidentified users, repeated texts and nick changes are counted
in sliding windows, and suppressed for a while once there are too many of them. Nicks and texts
are known by their hashes; the hash is a parameter.

## Main definitions

- `FloodState`: what has been counted
- `FloodState.checkCtcpFlood`, `checkTildeNickFlood`, `checkPmTildeStorm`, `checkDuplicateFlood`,
  `shouldSuppressNickFlood`: the checks
-/

set_option autoImplicit false

namespace Repartee

inductive FloodResult where
  | allow
  | triggered
  | blocked
  deriving DecidableEq

def FloodResult.suppressed : FloodResult → Bool
  | .triggered | .blocked => true
  | .allow => false

/-- Seconds on the clock of `Instant`. -/
def seconds (n : Nat) : Nat := n * 1000000000

structure FloodState where
  ctcpTimes : List Nat
  ctcpBlockedUntil : Option Nat
  tildeNickTimes : Dict Nat (List Nat)
  tildeNickBlocked : Dict Nat Nat
  pmStormNicks : List (Nat × Nat)
  pmStormBlockedUntil : Option Nat
  msgWindow : List (Nat × Nat)
  blockedTexts : Dict Nat Nat
  nickTimes : Dict Str (List Nat)
  nickBlockedUntil : Dict Str Nat
  deriving DecidableEq

/-- `now.checked_sub(window).unwrap_or(now)` -/
def cutoff (now window : Nat) : Nat := if window ≤ now then now - window else now

/-- `prune_window` -/
def pruneWindow (times : List Nat) (now window : Nat) : List Nat :=
  times.dropWhile (fun t => t < cutoff now window)

/-- The times of a window, and the end of a block. -/
structure FloodWindow where
  times : List Nat
  blockedUntil : Option Nat
  deriving DecidableEq

namespace FloodWindow

variable (threshold window block now : Nat) (w : FloodWindow)

/-- Count an event outside a block. -/
def count : FloodResult × FloodWindow :=
  let times := pruneWindow (w.times ++ [now]) now window
  if threshold ≤ times.length then (.triggered, ⟨[], some (now + block)⟩)
  else (.allow, ⟨times, none⟩)

/-- Count an event; a block lasts until it has been quiet for a while. -/
def check : FloodResult × FloodWindow :=
  match w.blockedUntil with
  | some deadline =>
    if now < deadline then (.blocked, { w with blockedUntil := some (now + block) })
    else w.count threshold window block now
  | none => w.count threshold window block now

end FloodWindow

/-- The windows of a family, without the ones that have become idle. -/
def dropIdle {κ : Type} [DecidableEq κ] (now window : Nat) (times : Dict κ (List Nat)) :
    Dict κ (List Nat) :=
  (times.mapValues (fun v => v.filter (fun t => cutoff now window ≤ t))).retain
    (fun _ v => !v.isEmpty)

/-- A window of a family that is kept in two maps. -/
def windowAt {κ : Type} [DecidableEq κ] (times : Dict κ (List Nat)) (blocked : Dict κ Nat) (k : κ) :
    FloodWindow :=
  ⟨(times.lookup k).getD [], blocked.lookup k⟩

/-- Count an event in a window of a family; the idle windows are dropped from time to time. -/
def checkAt {κ : Type} [DecidableEq κ] (threshold window block now : Nat)
    (times : Dict κ (List Nat)) (blocked : Dict κ Nat) (k : κ) :
    FloodResult × Dict κ (List Nat) × Dict κ Nat :=
  match (windowAt times blocked k).check threshold window block now with
  | (.blocked, _) => (.blocked, times, blocked.insert k (now + block))
  | (.triggered, w) => (.triggered, times.insert k w.times, blocked.insert k (now + block))
  | (.allow, w) =>
    let times := times.insert k w.times
    let blocked := blocked.erase k
    if times.rows.length > 200 then
      (.allow, dropIdle now window times, blocked.retain (fun _ deadline => deadline > now))
    else (.allow, times, blocked)

namespace FloodState

def new : FloodState :=
  ⟨[], none, Table.empty, Table.empty, [], none, [], Table.empty, Table.empty, Table.empty⟩

variable (hashText : Str → Nat) (f : FloodState)

def checkCtcpFlood (now : Nat) : FloodResult × FloodState :=
  let (result, w) :=
    FloodWindow.check 5 (seconds 5) (seconds 60) now ⟨f.ctcpTimes, f.ctcpBlockedUntil⟩
  (result, { f with ctcpTimes := w.times, ctcpBlockedUntil := w.blockedUntil })

def checkTildeNickFlood (nick : Str) (now : Nat) : FloodResult × FloodState :=
  let (result, times, blocked) :=
    checkAt 5 (seconds 5) (seconds 60) now f.tildeNickTimes f.tildeNickBlocked (hashText nick)
  (result, { f with tildeNickTimes := times, tildeNickBlocked := blocked })

/-- Count a PM outside a block; what matters is how many nicks there are. -/
def countPmTilde (nick : Str) (now : Nat) : FloodResult × FloodState :=
  let nicks := (f.pmStormNicks ++ [(hashText nick, now)]).filter
    (fun e => cutoff now (seconds 5) ≤ e.2)
  if 6 ≤ (nicks.map Prod.fst).dedup.length then
    (.triggered, { f with pmStormNicks := [], pmStormBlockedUntil := some (now + seconds 60) })
  else (.allow, { f with pmStormNicks := nicks, pmStormBlockedUntil := none })

def checkPmTildeStorm (nick : Str) (now : Nat) : FloodResult × FloodState :=
  match f.pmStormBlockedUntil with
  | some deadline =>
    if now < deadline then
      (.blocked, { f with pmStormBlockedUntil := some (now + seconds 60) })
    else f.countPmTilde hashText nick now
  | none => f.countPmTilde hashText nick now

/-- Count a text that is not blocked. -/
def countText (hash now : Nat) : FloodResult × FloodState :=
  let window := (f.msgWindow ++ [(hash, now)]).filter (fun e => cutoff now (seconds 5) ≤ e.2)
  if 5 ≤ window.length ∧ 3 ≤ (window.filter (fun e => e.1 = hash)).length then
    (.triggered, { f with
      msgWindow := window, blockedTexts := f.blockedTexts.insert hash (now + seconds 60) })
  else if f.blockedTexts.rows.length > 50 then
    (.allow, { f with
      msgWindow := window
      blockedTexts := f.blockedTexts.retain (fun _ deadline => deadline > now) })
  else (.allow, { f with msgWindow := window })

def checkDuplicateFlood (text : Str) (isChannel : Bool) (now : Nat) : FloodResult × FloodState :=
  if !isChannel || text.isEmpty then (.allow, f)
  else
    match f.blockedTexts.lookup (hashText text) with
    | some deadline =>
      if now < deadline then
        (.blocked, { f with
          blockedTexts := f.blockedTexts.insert (hashText text) (now + seconds 60) })
      else f.countText (hashText text) now
    | none => f.countText (hashText text) now

def shouldSuppressNickFlood (bufferId : Str) (now : Nat) : Bool × FloodState :=
  let (result, times, blocked) :=
    checkAt 5 (seconds 3) (seconds 60) now f.nickTimes f.nickBlockedUntil bufferId
  (result.suppressed, { f with nickTimes := times, nickBlockedUntil := blocked })

/-- Forget the nick changes of a buffer that has been closed. -/
def removeBuffer (bufferId : Str) : FloodState :=
  { f with
    nickTimes := f.nickTimes.erase bufferId
    nickBlockedUntil := f.nickBlockedUntil.erase bufferId }

end FloodState

end Repartee
