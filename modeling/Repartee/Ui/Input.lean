import Repartee.E2e.Basic
import Repartee.Lib.Edit
import Repartee.Lib.Text
import Mathlib.Data.List.Sort

/-!
# The input line

`InputState` of `ui/input.rs`: the edited text with the byte offset of its cursor, the history, the
spell correction at work and the tab completion at work. `none` is a panic of a string operation.

## Main definitions

- `InputState`, `SpellCorrection`: the state of the input line
- `InputState.deleteWordBack`, `InputState.historyUp`, ...: the editing operations
- `InputState.dismissSpell`, `InputState.applySpellSuggestion`: the spell correction
- `InputState.tabComplete`: tab completion
-/

set_option autoImplicit false

namespace Repartee.Ui

def maxHistory : Nat := 100

def maxHistoryEntryBytes : Nat := 4096

/-- Active inline spell correction state. -/
structure SpellCorrection where
  /-- Byte offset of the word start in the text. -/
  wordStart : Nat
  /-- Byte offset of the word end. -/
  wordEnd : Nat
  original : Str
  suggestions : List Str
  index : Nat
  /-- The word is marked and not replaced. -/
  highlightOnly : Bool
  deriving DecidableEq

structure TabCompletionState where
  candidates : List Str
  index : Nat
  textBefore : Str
  isStartOfLine : Bool
  isCommand : Bool
  deriving DecidableEq

structure InputState where
  value : Str := []
  cursorPos : Nat := 0
  tabState : Option TabCompletionState := none
  spellState : Option SpellCorrection := none
  history : List Str := []
  historyIndex : Option Nat := none
  savedInput : Option Str := none
  deriving DecidableEq

/-- `char::is_control` -/
def isControl (c : Char) : Bool := c.toNat < 0x20 || (0x7F ≤ c.toNat && c.toNat ≤ 0x9F)

/-- `char::is_ascii_punctuation` -/
def isAsciiPunctuation (c : Char) : Bool :=
  (0x21 ≤ c.toNat && c.toNat ≤ 0x2F) || (0x3A ≤ c.toNat && c.toNat ≤ 0x40) ||
    (0x5B ≤ c.toNat && c.toNat ≤ 0x60) || (0x7B ≤ c.toNat && c.toNat ≤ 0x7E)

/-- `a - b`, which panics below zero. -/
def checkedSub (a b : Nat) : Option Nat := if b ≤ a then some (a - b) else none

namespace InputState

/-! ### Editing -/

def insertChar (s : InputState) (c : Char) : Option InputState :=
  if isControl c then some s
  else do
    let value ← Utf8.insertStr s.value s.cursorPos [c]
    return { s with
      spellState := none, value := value, cursorPos := s.cursorPos + c.utf8Size, tabState := none }

def backspace (s : InputState) : Option InputState :=
  if 0 < s.cursorPos then do
    let prev := Utf8.lastIndex (← Utf8.before s.value s.cursorPos)
    let value ← Utf8.drain s.value prev s.cursorPos
    return { s with value := value, cursorPos := prev, tabState := none }
  else some { s with tabState := none }

/-- The offset behind the character at an offset. -/
def nextIndex (s : InputState) (n : Nat) : Option Nat := do
  let rest ← Utf8.behind s.value n
  return (Utf8.secondIndex rest).elim (Utf8.byteLen s.value) (n + ·)

def delete (s : InputState) : Option InputState :=
  if s.cursorPos < Utf8.byteLen s.value then do
    let value ← Utf8.drain s.value s.cursorPos (← s.nextIndex s.cursorPos)
    return { s with value := value, tabState := none }
  else some { s with tabState := none }

def moveLeft (s : InputState) : Option InputState :=
  if 0 < s.cursorPos then do
    let front ← Utf8.before s.value s.cursorPos
    return { s with cursorPos := Utf8.lastIndex front, tabState := none }
  else some { s with tabState := none }

def moveRight (s : InputState) : Option InputState :=
  if s.cursorPos < Utf8.byteLen s.value then do
    let next ← s.nextIndex s.cursorPos
    return { s with cursorPos := next, tabState := none }
  else some { s with tabState := none }

def home (s : InputState) : InputState := { s with cursorPos := 0, tabState := none }

def end' (s : InputState) : InputState :=
  { s with cursorPos := Utf8.byteLen s.value, tabState := none }

/-- Clear from cursor to start of line (Ctrl+U). -/
def clearToStart (s : InputState) : Option InputState :=
  if 0 < s.cursorPos then do
    let value ← Utf8.drain s.value 0 s.cursorPos
    return { s with value := value, cursorPos := 0, tabState := none }
  else some { s with tabState := none }

/-- Clear from cursor to end of line (Ctrl+K). -/
def clearToEnd (s : InputState) : Option InputState :=
  if s.cursorPos < Utf8.byteLen s.value then do
    let value ← Utf8.truncate s.value s.cursorPos
    return { s with value := value, tabState := none }
  else some { s with tabState := none }

/-- The start of the word before the cursor: one byte behind the whitespace in front of it. -/
def wordBack (front : Str) : Nat :=
  ((Utf8.rfind Text.isWhitespace (Text.trimEnd front)).map (· + 1)).getD 0

/-- Delete the word before cursor (Ctrl+W). -/
def deleteWordBack (s : InputState) : Option InputState :=
  if s.cursorPos = 0 then some s
  else do
    let wordStart := wordBack (← Utf8.before s.value s.cursorPos)
    let value ← Utf8.drain s.value wordStart s.cursorPos
    return { s with value := value, cursorPos := wordStart, tabState := none }

def clear (s : InputState) : Str × InputState :=
  (s.value, { s with cursorPos := 0, tabState := none, value := [] })

/-- The history with a line at its end. -/
def pushHistory (history : List Str) (val : Str) : List Str :=
  if val ≠ [] ∧ Utf8.byteLen val ≤ maxHistoryEntryBytes then
    let history := history ++ [val]
    if maxHistory < history.length then history.drop 1 else history
  else history

def submit (s : InputState) : Str × InputState :=
  let (val, s) := s.clear
  (val, { s with
    history := pushHistory s.history val, historyIndex := none, savedInput := none })

/-! ### History -/

/-- The line of the history with the given index, and the cursor at its end. -/
def showHistory (s : InputState) (idx : Nat) : Option InputState := do
  let line ← s.history[idx]?
  return { s with
    historyIndex := some idx, value := line, cursorPos := Utf8.byteLen line, tabState := none }

def historyUp (s : InputState) : Option InputState :=
  if s.history = [] then some s
  else
    match s.historyIndex with
    | none => { s with savedInput := some s.value }.showHistory (s.history.length - 1)
    | some idx =>
      if 0 < idx then s.showHistory (idx - 1) else some { s with tabState := none }

def historyDown (s : InputState) : Option InputState :=
  match s.historyIndex with
  | some idx =>
    if idx + 1 < s.history.length then s.showHistory (idx + 1)
    else
      let value := s.savedInput.getD []
      some { s with
        historyIndex := none, savedInput := none, value := value,
        cursorPos := Utf8.byteLen value, tabState := none }
  | none => some { s with tabState := none }

/-! ### Spell correction -/

/-- The cursor behind a word whose replacement has another length. -/
def shiftCursor (cursorPos wordStart oldLen newLen : Nat) : Nat :=
  if wordStart < cursorPos then cursorPos + newLen - oldLen else cursorPos

/-- Dismiss any active spell correction, reverting to the original word. -/
def dismissSpell (s : InputState) : Option InputState :=
  match s.spellState with
  | none => some s
  | some spell =>
    let s := { s with spellState := none }
    if spell.highlightOnly then some s
    else do
      let oldLen ← checkedSub spell.wordEnd spell.wordStart
      let value ← Utf8.replaceRange s.value spell.wordStart spell.wordEnd spell.original
      return { s with
        value := value
        cursorPos := shiftCursor s.cursorPos spell.wordStart oldLen (Utf8.byteLen spell.original) }

/-- Apply a specific suggestion by index, replacing the word inline. -/
def applySpellSuggestion (s : InputState) (index : Nat) : Option InputState :=
  match s.spellState with
  | none => some s
  | some spell =>
    match spell.suggestions[index]? with
    | none => some s
    | some replacement => do
      let oldLen ← checkedSub spell.wordEnd spell.wordStart
      let newLen := Utf8.byteLen replacement
      let value ← Utf8.replaceRange s.value spell.wordStart spell.wordEnd replacement
      return { s with
        value := value
        cursorPos := shiftCursor s.cursorPos spell.wordStart oldLen newLen
        spellState := some { spell with wordEnd := spell.wordStart + newLen, index := index } }

/-- Cycle to the next spell suggestion. -/
def cycleSpellSuggestion (s : InputState) : Option InputState :=
  match s.spellState with
  | none => some s
  | some spell =>
    if spell.suggestions = [] then some s
    else s.applySpellSuggestion ((spell.index + 1) % spell.suggestions.length)

/-- The text without the separator behind a word. -/
def removeSeparator (s : InputState) (afterWord : Nat) : Option Str :=
  if afterWord < Utf8.byteLen s.value then do
    let nextEnd ← s.nextIndex afterWord
    let value ← Utf8.drain s.value afterWord nextEnd
    -- the cursor is moved back by the separator, before it is set
    if afterWord < s.cursorPos then
      (checkedSub s.cursorPos (nextEnd - afterWord)).map (fun _ => value)
    else some value
  else some s.value

/-- Accept current spell suggestion and replace the trailing separator with a punctuation char. -/
def acceptSpellWithPunctuation (s : InputState) (punct : Char) : Option InputState :=
  match s.spellState with
  | none => some s
  | some spell => do
    let afterWord := spell.wordEnd
    let value ← Utf8.insertStr (← s.removeSeparator afterWord) afterWord [punct]
    return { s with
      spellState := none, value := value, cursorPos := afterWord + punct.utf8Size }

/-- Whether the input starts with `/`. -/
def isCommand (s : InputState) : Bool := Text.startsWith s.value ['/']

/-- The start of the last word of a trimmed text, behind its last whitespace. -/
def lastWordStart (trimmed : Str) : Option Nat :=
  match Utf8.rfind Text.isWhitespace trimmed with
  | none => some 0
  | some i =>
    (Utf8.behind trimmed i).map
      (fun rest => (Utf8.secondIndex rest).elim (Utf8.byteLen trimmed) (i + ·))

/-- The last completed word before the cursor, with its offsets. -/
def lastCompletedWord (s : InputState) : Option (Option (Nat × Nat × Str)) := do
  let trimmed := Text.trimEnd (← Utf8.before s.value s.cursorPos)
  if trimmed = [] then return none
  let wordEnd := Utf8.byteLen trimmed
  let wordStart ← lastWordStart trimmed
  let word ← Utf8.slice trimmed wordStart wordEnd
  return if word = [] then none else some (wordStart, wordEnd, word)

end InputState

/-! ### Tab completion -/

/-- What the completion of a word depends on. -/
structure Completion where
  nicks : List Str
  lastSpeakers : List Str
  commands : List Str
  settingPaths : List Str
  emotesEnabled : Bool
  /-- The names of the embedded emotes, in both languages. -/
  tagNames : List Str
  /-- The subcommands in the documentation of a command. -/
  subcommandNames : Str → List Str
  toLowercase : Str → Str

/-- A text through the last occurrence of a character, and the rest. -/
def splitLast (sep : Char) (s : Str) : Str × Str :=
  let word := (s.reverse.takeWhile (· ≠ sep)).reverse
  (s.take (s.length - word.length), word)

/-- The text before the word to complete, and the word. -/
def splitCompletionWord (text : Str) : Str × Str :=
  let (textBefore, word) := splitLast ' ' text
  let (nicks, seg) := splitLast ',' word
  (textBefore ++ nicks, seg)

inductive SubcommandContext where
  | help
  | set
  | subcommand (names : List Str)

namespace Completion

def startsWithIgnoreCase (env : Completion) (s p : Str) : Bool :=
  Text.startsWith (env.toLowercase s) (env.toLowercase p)

def sortByLowercase (env : Completion) (words : List Str) : List Str :=
  words.mergeSort (fun a b => Text.le (env.toLowercase a) (env.toLowercase b))

/-- The subcommand that is typed behind a command. -/
def detectSubcommandContext (env : Completion) (textBefore : Str) : Option SubcommandContext :=
  let lower := env.toLowercase (Text.trim textBefore)
  if lower = str "/help" ∨ lower = str "/?" then some .help
  else if lower = str "/set" then some .set
  else
    match Text.stripPrefix ['/'] lower with
    | none => none
    | some cmd =>
      if cmd.contains ' ' then none
      else
        let names := env.subcommandNames cmd
        if names = [] then none else some (.subcommand names)

/-- The part of a word behind a single leading colon. -/
def emotePart (word : Str) : Option Str :=
  (Text.stripPrefix [':'] word).filter (fun p => p ≠ [] && !p.contains ':')

def emoteCompletions (env : Completion) (word : Str) : List Str :=
  match emotePart word with
  | none => []
  | some part =>
    (env.tagNames.filter (fun n => Text.startsWith n (part.map Char.toLower))).map
      (fun n => ':' :: n ++ [':'])

/-- The recent speakers first, and the other nicks behind them. -/
def nickCompletions (env : Completion) (pre : Str) : List Str :=
  let recent := env.lastSpeakers.filter (fun n => env.startsWithIgnoreCase n pre)
  let recentLower := recent.map env.toLowercase
  let rest := env.nicks.filter (fun n =>
    env.startsWithIgnoreCase n pre && !recentLower.contains (env.toLowercase n))
  recent ++ env.sortByLowercase rest

/-- The completions of a word. -/
def candidates (env : Completion) (textBefore pre : Str) (isEmote isCommand : Bool) : List Str :=
  if isEmote then env.emoteCompletions pre
  else
    match env.detectSubcommandContext textBefore with
    | some .help => env.sortByLowercase (env.commands.filter (fun c => env.startsWithIgnoreCase c pre))
    | some .set =>
      env.sortByLowercase (env.settingPaths.filter (fun p => env.startsWithIgnoreCase p pre))
    | some (.subcommand names) =>
      env.sortByLowercase (names.filter (fun n => env.startsWithIgnoreCase n pre))
    | none =>
      if isCommand then
        let cmdPrefix := pre.drop 1
        env.sortByLowercase
          ((env.commands.filter (fun c => env.startsWithIgnoreCase c cmdPrefix)).map ('/' :: ·))
      else env.nickCompletions pre

end Completion

namespace TabCompletionState

def suffix (tab : TabCompletionState) : Str :=
  if tab.isCommand then [' '] else if tab.isStartOfLine then [':', ' '] else [' ']

end TabCompletionState

namespace InputState

/-- The completed word in its place; what was behind the cursor is gone. -/
def showCompletion (s : InputState) (tab : TabCompletionState) : Option InputState := do
  let completion ← tab.candidates[tab.index]?
  let value := tab.textBefore ++ completion ++ tab.suffix
  return { s with value := value, cursorPos := Utf8.byteLen value, tabState := some tab }

def tabComplete (s : InputState) (env : Completion) : Option InputState :=
  match s.tabState with
  | some tab =>
    if tab.candidates = [] then some s
    else s.showCompletion { tab with index := (tab.index + 1) % tab.candidates.length }
  | none => do
    let (textBefore, word) := splitCompletionWord (← Utf8.before s.value s.cursorPos)
    if word = [] then return s
    let isStartOfLine := textBefore = []
    let isCommand := isStartOfLine && Text.startsWith word ['/']
    let isEmote := env.emotesEnabled && (Completion.emotePart word).isSome
    let candidates := env.candidates textBefore word isEmote isCommand
    if candidates = [] then return s
    -- an emote at the start of a line has the suffix of other words, too
    s.showCompletion ⟨candidates, 0, textBefore, isStartOfLine && !isEmote, isCommand⟩

end InputState

end Repartee.Ui
