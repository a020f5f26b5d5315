import Repartee.E2e.Basic

/-!
# The ignore list

`irc/ignore.rs`: an event is ignored if an entry of the list covers its level, its sender and its
channel. The wildcard masks are compiled by the regex crate, which is a parameter.

## Main definitions

- `IgnoreLevel`, `IgnoreEntry`: the list of the configuration
- `shouldIgnore`, `matchesMaskPatterns`: whether a sender is covered
-/

set_option autoImplicit false

namespace Repartee

inductive IgnoreLevel where
  | msgs
  | publics
  | notices
  | actions
  | joins
  | parts
  | quits
  | nicks
  | kicks
  | ctcps
  | all
  deriving DecidableEq

structure IgnoreEntry where
  mask : Str
  levels : List IgnoreLevel
  channels : Option (List Str)
  deriving DecidableEq

/-- `build_mask`, with the parts that the handlers pass. -/
def buildMask (nick ident host : Str) : Str := nick ++ '!' :: (ident ++ '@' :: host)

section Masks

variable (toLowercase : Str → Str) (isMatch : Str → Str → Bool)

/-- A mask with a `!` is matched against the full sender, any other against the nick. -/
def maskMatches (mask nick ident host : Str) : Bool :=
  if mask.contains '!' then isMatch mask (buildMask nick ident host) else isMatch mask nick

/-- Whether an entry is restricted to channels that the event is not in. -/
def IgnoreEntry.elsewhere (entry : IgnoreEntry) (channel : Option Str) : Bool :=
  match entry.channels with
  | some (c :: cs) =>
    match channel with
    | some ch => !(c :: cs).any (fun c => toLowercase c = toLowercase ch)
    | none => true
  | _ => false

/-- `should_ignore` -/
def shouldIgnore (ignores : List IgnoreEntry) (nick ident host : Str) (level : IgnoreLevel)
    (channel : Option Str) : Bool :=
  ignores.any (fun entry =>
    entry.levels.any (fun l => l = .all || l = level) &&
      maskMatches isMatch entry.mask nick ident host && !entry.elsewhere toLowercase channel)

/-- `matches_mask_patterns` -/
def matchesMaskPatterns (patterns : List Str) (nick ident host : Str) : Bool :=
  patterns.any (fun mask => maskMatches isMatch mask nick ident host)

end Masks

end Repartee
