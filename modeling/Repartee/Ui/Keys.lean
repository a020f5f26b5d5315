import Repartee.Ui.Input

/-!
# The keys of the input line

What `app/input.rs` does to the input line: the keys that come to it (and not to a shell or an
overlay), pastes, emotes, and the check of a completed word.

What the line depends on apart from its own state (the nicks of the active buffer, the
configuration, the dictionaries) may differ from event to event.

## Main definitions

- `handleKey`, `handlePaste`, `insertEmoteByIndex`
- `Event`, `InputState.step`, `InputState.run`
-/

set_option autoImplicit false

namespace Repartee.Ui

/-- The dictionaries: whether a word is right, with some nicks, and what it could be. -/
structure SpellChecker where
  check : Str → List Str → Bool
  suggest : Str → List Str

structure Context extends Completion where
  spellchecker : Option SpellChecker
  /-- `spellcheck.mode` is `highlight`. -/
  highlight : Bool
  logBrowserMode : Bool
  isAlphanumeric : Char → Bool
  /-- The name of an emote in the configured language. -/
  displayName : Nat → Str

structure KeyModifiers where
  shift : Bool := false
  control : Bool := false
  alt : Bool := false
  super : Bool := false
  hyper : Bool := false
  meta' : Bool := false
  deriving DecidableEq

inductive KeyCode where
  | backspace
  | enter
  | left
  | right
  | up
  | down
  | home
  | end'
  | pageUp
  | pageDown
  | tab
  | delete
  | esc
  | char (c : Char)
  /-- A key that the input line has no use for. -/
  | other
  deriving DecidableEq

def KeyModifiers.ctrl : KeyModifiers := { control := true }

/-- No modifier, or Shift. -/
def KeyModifiers.isPlain (mods : KeyModifiers) : Bool :=
  mods = ({} : KeyModifiers) || mods = ({ shift := true } : KeyModifiers)

/-! ### Spelling -/

/-- A word without leading and trailing punctuation, and its offsets. -/
def stripWordPunctuation (isAlphanumeric : Char → Bool) (word : Str) : Str × Nat × Nat :=
  let front := word.takeWhile (fun c => !isAlphanumeric c)
  let rest := word.dropWhile (fun c => !isAlphanumeric c)
  let core := (rest.reverse.dropWhile (fun c => !isAlphanumeric c)).reverse
  if core = [] then ([], 0, 0)
  else (core, Utf8.byteLen front, Utf8.byteLen front + Utf8.byteLen core)

namespace InputState

/-- Check the last completed word for spelling and set up correction state. -/
def checkSpellingAfterSeparator (ctx : Context) (s : InputState) : Option InputState :=
  match ctx.spellchecker with
  | none => some s
  | some checker =>
    if s.isCommand then some s
    else do
      match ← s.lastCompletedWord with
      | none => return s
      | some (rawStart, _, rawWord) =>
        let (stripped, stripOffset, stripEnd) := stripWordPunctuation ctx.isAlphanumeric rawWord
        if stripped = [] then return s
        if checker.check stripped ctx.nicks then return s
        let suggestions := checker.suggest stripped
        if suggestions = [] then return s
        let s := { s with
          spellState := some
            ⟨rawStart + stripOffset, rawStart + stripEnd, stripped, suggestions, 0, ctx.highlight⟩ }
        -- in replace mode the first suggestion is applied at once
        if ctx.highlight then return s
        s.applySpellSuggestion 0

/-! ### Keys -/

/-- A word separator, as far as spelling is concerned. -/
def isSeparator (c : Char) : Bool := c = ' ' || isAsciiPunctuation c && c ≠ '/'

/-- Type a character with no spell correction at work. -/
def typeText (ctx : Context) (s : InputState) (c : Char) : Option InputState := do
  let s ← s.insertChar c
  if isSeparator c then s.checkSpellingAfterSeparator ctx else some s

def acceptKeys : Str := ['.', ',', '!', '?', ';', ':']

def typeChar (ctx : Context) (s : InputState) (c : Char) : Option InputState :=
  match s.spellState with
  | none => s.typeText ctx c
  | some spell =>
    -- in highlight mode any keystroke dismisses the suggestions
    if spell.highlightOnly then { s with spellState := none }.typeText ctx c
    else if c = ' ' then do
      let rest ← Utf8.behind s.value spell.wordEnd
      let s := { s with spellState := none }
      if rest.head? = some ' ' then some s else s.insertChar ' '
    else if acceptKeys.contains c then s.acceptSpellWithPunctuation c
    else { s with spellState := none }.insertChar c

def handleTab (ctx : Context) (s : InputState) : Option InputState :=
  match s.spellState with
  | none => s.tabComplete ctx.toCompletion
  | some spell =>
    if spell.highlightOnly then { s with spellState := none }.tabComplete ctx.toCompletion
    else s.cycleSpellSuggestion

/-- The key with Control alone that moves the cursor or clears text, by its letter. -/
def handleControl (s : InputState) : Char → Option InputState
  | 'u' => s.clearToStart
  | 'k' => s.clearToEnd
  | 'w' => s.deleteWordBack
  | 'a' => some s.home
  | 'b' => s.moveLeft
  | 'e' => some s.end'
  | _ => some s

def handleEnter (s : InputState) : InputState := ({ s with spellState := none }).submit.2

/-- `handle_key`, for a key that comes to the input line. -/
def handleKey (ctx : Context) (s : InputState) (mods : KeyModifiers) : KeyCode → Option InputState
  | .esc => s.dismissSpell
  | .home => some s.home
  | .end' => some s.end'
  | .left => if mods.alt then some s else s.moveLeft
  | .right => if mods.alt then some s else s.moveRight
  | .enter => some s.handleEnter
  | .backspace => do (← s.dismissSpell).backspace
  | .delete => s.delete
  | .up => s.historyUp
  | .down => s.historyDown
  | .tab => s.handleTab ctx
  | .char c =>
    -- newlines that arrive one by one submit the line, whatever the modifiers
    if c = '\n' ∨ c = '\r' then some s.handleEnter
    else if mods = .ctrl then s.handleControl c
    else if !mods.isPlain then some s
    else if (c = 'q' ∨ c = 'Q') ∧ ctx.logBrowserMode = true ∧ s.value = [] then some s
    else s.typeChar ctx c
  | .pageUp | .pageDown | .other => some s

/-! ### Pastes and emotes -/

/-- The lines of a paste that are not empty. -/
def pastedLines (text : Str) : List Str :=
  ((text.splitOn '\n').map (fun l => (l.reverse.dropWhile (· = '\r')).reverse)).filter (· ≠ [])

/-- `handle_paste`: a single line goes to the input line; before several lines, the input line is
submitted. -/
def handlePaste (s : InputState) (text : Str) : Option InputState :=
  match pastedLines text with
  | [] => some s
  | [single] => single.foldlM insertChar s
  | _ => some s.submit.2

def insertEmoteByIndex (ctx : Context) (s : InputState) (index : Nat) : Option InputState :=
  let name := ctx.displayName index
  if name = ['?'] then some s
  else do
    let token := ':' :: name ++ [':']
    let value ← Utf8.insertStr s.value s.cursorPos token
    return { s with
      value := value, cursorPos := s.cursorPos + Utf8.byteLen token, tabState := none }

end InputState

/-! ### Runs -/

inductive Event where
  | key (mods : KeyModifiers) (code : KeyCode)
  | paste (text : Str)
  | emote (index : Nat)
  deriving DecidableEq

def InputState.step (s : InputState) (ctx : Context) : Event → Option InputState
  | .key mods code => s.handleKey ctx mods code
  | .paste text => s.handlePaste text
  | .emote index => s.insertEmoteByIndex ctx index

/-- Some events, each in its own context. -/
def InputState.run (s : InputState) (events : List (Context × Event)) : Option InputState :=
  events.foldlM (fun s e => s.step e.1 e.2) s

end Repartee.Ui
