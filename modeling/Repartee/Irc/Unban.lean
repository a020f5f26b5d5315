import Repartee.Irc.Modes
import Repartee.Lib.Chunks

/-!
# Unban commands

`/unban`, `/unexcept`, `/uninvex` and `/unreop` (`commands/handlers_irc.rs`): the arguments select
masks of the stored list, and the masks are sent in MODE lines of limited length.

## Main definitions

- `listModeUnsetSmart`: what a command says and sends
- `selected`: what an argument selects
- `UnsetsExactly`: the lines remove what was asked and nothing else

## Main results

- `unsetsExactly_iff`: when they do
- `empty_selection_is_sent`: a number that is out of range sends a line without masks
-/

set_option autoImplicit false

namespace Repartee

namespace Store

/-! ### The code -/

/-- `parse::<usize>()` -/
def parseUsize (s : Str) : Option Nat :=
  match Text.parseInt 0 (2 ^ 64 - 1) s with
  | .ok n => some n.toNat
  | .error _ => none

/-- The regular expression of a character of a wildcard pattern. -/
def wildcardChar (c : Char) : Str :=
  if c = '*' then str ".*"
  else if c = '?' then ['.']
  else if (str ".+^$\x7b\x7d()|[]\\").contains c then ['\\', c]
  else [c]

/-- Convert a simple wildcard pattern (`*` and `?`) to a case-insensitive regex. -/
def wildcardToRegex (pattern : Str) : Str :=
  str "(?i)^" ++ pattern.flatMap wildcardChar ++ ['$']

/-- `max_modes` -/
def Isupport.maxModes (tokens : Isupport) : Nat :=
  ((tokens.lookup (str "MODES")).bind parseUsize).getD 3

/-- `list_mode_command_args` -/
def listModeCommandArgs (channel : Str) (sign modeChar : Char) (masks : List Str)
    (maxModes : Nat) : List (List Str) :=
  if masks = [] then [[channel, [sign, modeChar]]]
  else (masks.toChunks (max maxModes 1)).map (fun chunk =>
    channel :: (sign :: List.replicate chunk.length modeChar) :: chunk)

/-- What a command finds: the regex crate, whether the connection has a sender, what its server
supports, and the active buffer. -/
structure UnsetContext where
  isMatch : (regex text : Str) → Bool
  connected : Bool
  isupport : Option Isupport
  active : Option ChannelBuffer

namespace UnsetContext

variable (ctx : UnsetContext)

/-- `max_modes_per_command` -/
def maxModesPerCommand : Nat :=
  ((ctx.isupport.map Isupport.maxModes).filter (fun max => 0 < max)).getD 3

/-- The active buffer, if it is a channel. -/
def channel : Option ChannelBuffer := ctx.active.filter (fun b => b.bufferType = .channel)

/-- The stored list of a mode. -/
def entries (modeChar : Char) : List ListEntry :=
  (ctx.active.bind (fun b => b.listModes.lookup modeChar)).getD []

/-- The messages to the user, and the arguments of the MODE lines that are sent. -/
abbrev Outcome := List Str × List (List Str)

/-- One argument: a message, and the masks. -/
def resolveArg (entries : List ListEntry) (cmdName arg : Str) : List Str × List Str :=
  match parseUsize arg with
  | some num =>
    if 1 ≤ num ∧ num ≤ entries.length then
      ([], (entries[num - 1]?).toList.map ListEntry.mask)
    else
      ([cmdName ++ str ": #" ++ fmtNat num ++ str " out of range (1-" ++ fmtNat entries.length ++
        [')']], [])
  | none =>
    if arg.contains '*' || arg.contains '?' then
      let found := entries.filter (fun e => ctx.isMatch (wildcardToRegex arg) e.mask)
      if found = [] then ([cmdName ++ str ": no entries matching '" ++ arg ++ str "'"], [])
      else ([], found.map ListEntry.mask)
    else ([], [arg])

/-- The loop over the arguments. -/
def resolveArgs (entries : List ListEntry) (cmdName : Str) : List Str → List Str × List Str
  | [] => ([], [])
  | arg :: args =>
    let (events, masks) := ctx.resolveArg entries cmdName arg
    let (events', masks') := resolveArgs entries cmdName args
    (events ++ events', masks ++ masks')

/-- `list_mode_unset_smart` -/
def listModeUnsetSmart (args : List Str) (modeChar : Char) (cmdName : Str) : Outcome :=
  if args = [] then
    ([str "Usage: /" ++ cmdName ++ str " <number|mask|wildcard> [...]"], [])
  else if ctx.connected = false then ([str "Not connected"], [])
  else
    match ctx.channel with
    | none => ([str "Not in a channel"], [])
    | some b =>
      let (events, masks) := ctx.resolveArgs (ctx.entries modeChar) cmdName args
      (events, listModeCommandArgs b.name '-' modeChar masks ctx.maxModesPerCommand)

/-! ### What is asked -/

/-- What an argument selects: the entry of a number, the entries that a wildcard matches, and any
other mask itself. -/
def selected (entries : List ListEntry) (arg : Str) : List Str :=
  match parseUsize arg with
  | some 0 => []
  | some (n + 1) => (entries[n]?).toList.map ListEntry.mask
  | none =>
    if '*' ∈ arg ∨ '?' ∈ arg then
      (entries.filter (fun e => ctx.isMatch (wildcardToRegex arg) e.mask)).map ListEntry.mask
    else [arg]

/-- The number of modes in a line: what the server advertises, and 3 where that is no positive
number. -/
def advertised : Nat :=
  (((ctx.isupport.bind (fun tokens => tokens.lookup (str "MODES"))).bind parseUsize).filter
    (fun n => 0 < n)).getD 3

/-- The lines on a channel remove the masks in their order, with a letter for each and no more than
the server takes, and there is no line without one. -/
structure Removes (channel : Str) (modeChar : Char) (masks : List Str) (lines : List (List Str)) :
    Prop where
  exactly : lines.flatMap (fun line => line.drop 2) = masks
  shape : ∀ line ∈ lines, ∃ chunk, chunk.length ≤ ctx.advertised ∧
    line = channel :: ('-' :: List.replicate chunk.length modeChar) :: chunk
  noMask : masks = [] → lines = []

/-- What a command sends removes what was asked and nothing else. -/
def UnsetsExactly (args : List Str) (modeChar : Char) (cmdName : Str) : Prop :=
  match ctx.channel with
  | some b =>
    ctx.connected = true →
      ctx.Removes b.name modeChar (args.flatMap (ctx.selected (ctx.entries modeChar)))
        (ctx.listModeUnsetSmart args modeChar cmdName).2
  | none => (ctx.listModeUnsetSmart args modeChar cmdName).2 = []

/-! ### Selection -/

theorem resolveArg_snd (entries : List ListEntry) (cmdName arg : Str) :
    (ctx.resolveArg entries cmdName arg).2 = ctx.selected entries arg := by
  rw [resolveArg, selected]
  cases parseUsize arg with
  | some num =>
    dsimp only
    cases num with
    | zero => rfl
    | succ n =>
      dsimp only
      by_cases hn : n < entries.length
      · rw [if_pos ⟨Nat.succ_pos n, hn⟩]
        rfl
      · rw [if_neg (fun h => hn h.2), List.getElem?_eq_none (Nat.not_lt.mp hn)]
        rfl
  | none =>
    dsimp only
    have hwild : (arg.contains '*' || arg.contains '?') = true ↔ '*' ∈ arg ∨ '?' ∈ arg := by
      rw [Bool.or_eq_true, List.contains_iff_mem, List.contains_iff_mem]
    by_cases hw : '*' ∈ arg ∨ '?' ∈ arg
    · rw [if_pos (hwild.mpr hw), if_pos hw]
      split_ifs with hfound
      · rw [hfound]
        rfl
      · rfl
    · rw [if_neg (fun h => hw (hwild.mp h)), if_neg hw]

/-- The masks are those that the arguments select, one argument after the other. -/
theorem resolveArgs_snd (entries : List ListEntry) (cmdName : Str) (args : List Str) :
    (ctx.resolveArgs entries cmdName args).2 = args.flatMap (ctx.selected entries) := by
  induction args with
  | nil => rfl
  | cons arg args ih => rw [resolveArgs, List.flatMap_cons, ← ih, ← ctx.resolveArg_snd _ cmdName]

theorem maxModesPerCommand_eq : ctx.maxModesPerCommand = ctx.advertised := by
  rw [maxModesPerCommand, advertised]
  cases ctx.isupport with
  | none => rfl
  | some tokens =>
    rw [Option.map_some, Option.bind_some, Isupport.maxModes]
    cases (tokens.lookup (str "MODES")).bind parseUsize with
    | none => rfl
    | some n => rfl

theorem advertised_pos : 0 < ctx.advertised := by
  rw [advertised]
  cases hn : ((ctx.isupport.bind (fun tokens => tokens.lookup (str "MODES"))).bind
      parseUsize).filter (fun n => 0 < n) with
  | none => exact Nat.succ_pos 2
  | some n => simpa using (Option.filter_eq_some_iff.mp hn).2

/-! ### Lines -/

/-- Masks are cut into lines that have them all, and a letter for each. -/
theorem removes_listModeCommandArgs {channel : Str} {modeChar : Char} {masks : List Str}
    (hmasks : masks ≠ []) :
    ctx.Removes channel modeChar masks
      (listModeCommandArgs channel '-' modeChar masks ctx.advertised) := by
  have hpos := ctx.advertised_pos
  have hmax : max ctx.advertised 1 = ctx.advertised := Nat.max_eq_left hpos
  rw [listModeCommandArgs, if_neg hmasks, hmax]
  refine ⟨?_, ?_, fun hnil => absurd hnil hmasks⟩
  · rw [List.flatMap_map]
    exact List.flatMap_id'.trans (List.flatten_toChunks (Nat.ne_of_gt hpos) masks)
  · intro line hline
    obtain ⟨chunk, hchunk, rfl⟩ := List.mem_map.mp hline
    exact ⟨chunk, List.length_le_of_mem_toChunks (Nat.ne_of_gt hpos) hchunk, rfl⟩

/-- A selection without masks still makes up a line. -/
theorem listModeCommandArgs_ne_nil (channel : Str) (sign modeChar : Char) (maxModes : Nat) :
    listModeCommandArgs channel sign modeChar [] maxModes ≠ [] := List.cons_ne_nil _ _

/-- **Unban commands** remove what was asked and nothing else exactly if something is selected, or
nothing was asked. -/
theorem unsetsExactly_iff (args : List Str) (modeChar : Char) (cmdName : Str) :
    ctx.UnsetsExactly args modeChar cmdName ↔
      (ctx.connected = true → ctx.channel.isSome = true → args = [] ∨
        ∃ arg ∈ args, ctx.selected (ctx.entries modeChar) arg ≠ []) := by
  rw [UnsetsExactly, listModeUnsetSmart]
  cases hchannel : ctx.channel with
  | none =>
    -- outside of a channel the command is refused
    refine iff_of_true ?_ (fun _ h => nomatch h)
    dsimp only
    split_ifs <;> rfl
  | some b =>
    dsimp only
    by_cases hconn : ctx.connected = true
    · simp only [hconn, Option.isSome_some, forall_const, ctx.resolveArgs_snd,
        ctx.maxModesPerCommand_eq]
      by_cases hargs : args = []
      · subst hargs
        exact iff_of_true ⟨rfl, fun _ h => absurd h List.not_mem_nil, fun _ => rfl⟩ (.inl rfl)
      rw [if_neg hargs, if_neg Bool.true_eq_false.mp, or_iff_right hargs]
      have hsome : (∃ arg ∈ args, ctx.selected (ctx.entries modeChar) arg ≠ []) ↔
          args.flatMap (ctx.selected (ctx.entries modeChar)) ≠ [] := by
        rw [Ne, List.flatMap_eq_nil_iff]
        push Not
        rfl
      rw [hsome]
      constructor
      · -- no mask makes up the request for the list
        intro hremoves hnil
        have hlines := hremoves.noMask hnil
        rw [hnil] at hlines
        exact listModeCommandArgs_ne_nil _ _ _ ctx.advertised hlines
      · exact ctx.removes_listModeCommandArgs
    · exact iff_of_true (fun h => absurd h hconn) (fun h => absurd h hconn)

/-- A channel without a stored list, on a server that says nothing of its limits. -/
def emptyList : UnsetContext where
  isMatch _ _ := false
  connected := true
  isupport := none
  active := some (ChannelBuffer.joined (freshBuffer sampleHost (str "n") .channel (str "#c")))

/-- `/unban 1` without a list asks the server for the list. -/
theorem empty_selection_is_sent : ¬ emptyList.UnsetsExactly [str "1"] 'b' (str "unban") := by
  intro h
  have hnone : [[str "#c", str "-b"]] = [] := (h rfl).noMask rfl
  exact List.cons_ne_nil _ _ hnone

end UnsetContext

end Store

end Repartee
