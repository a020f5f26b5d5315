import Repartee.App.State
import Repartee.Theme.Rounds

/-!
# Chat messages on the screen

The abstractions of `theme/parser.rs`, and `render_chat_message` of `ui/message_line.rs`, which
splices the text of a message into the format of the theme and parses the result.

## Main definitions

- `resolveAbstractions`: the format with its `{name args}` templates expanded
- `renderChatMessage`: the styled spans of a message
-/

set_option autoImplicit false

namespace Repartee.Theme

/-! ### Abstractions -/

def maxAbstractionDepth : Nat := 10

/-- The text up to the brace that closes `depth` open ones, and the text after it. -/
def splitAtMatchingBrace : (depth : Nat) → Str → Option (Str × Str)
  | _, [] => none
  | depth, c :: rest =>
    if c = '{' then
      (splitAtMatchingBrace (depth + 1) rest).map (fun p => (c :: p.1, p.2))
    else if c = '}' then
      if depth ≤ 1 then some ([], rest)
      else (splitAtMatchingBrace (depth - 1) rest).map (fun p => (c :: p.1, p.2))
    else (splitAtMatchingBrace depth rest).map (fun p => (c :: p.1, p.2))

/-- The loop of `split_abstraction_args`: the arguments so far, the current one, and the depth
of braces. -/
def splitArgsLoop : Str → List Str → Str → Int → List Str
  | [], args, current, _ => if current.isEmpty then args else args ++ [current]
  | ch :: rest, args, current, depth =>
    let depth := if ch = '{' then depth + 1 else if ch = '}' then depth - 1 else depth
    if ch = ' ' && depth = 0 then
      if current.isEmpty then splitArgsLoop rest args current depth
      else splitArgsLoop rest (args ++ [current]) [] depth
    else splitArgsLoop rest args (current ++ [ch]) depth

/-- Split abstraction arguments at spaces outside braces. -/
def splitAbstractionArgs (argsStr : Str) : List Str := splitArgsLoop argsStr [] [] 0

/-- The loop of `resolve_abstractions`, which resolves deeper with `deeper`; every round reads a
character, so the length of the input is fuel enough. -/
def resolveLoop (abstracts : Dict Str Str) (deeper : Str → Option Str) :
    (fuel : Nat) → Str → (result : Str) → Option Str
  | 0, _, result => some result
  | _ + 1, [], result => some result
  | fuel + 1, '{' :: rest, result =>
    match splitAtMatchingBrace 1 rest with
    | none => resolveLoop abstracts deeper fuel rest (result ++ ['{'])
    | some (inner, rest') =>
      let (name, argsStr) := (Text.splitOnce ' ' inner).getD (inner, [])
      match abstracts.lookup name with
      | none => resolveLoop abstracts deeper fuel rest' (result ++ '{' :: (inner ++ ['}']))
      | some template => do
        let args := if argsStr.isEmpty then [] else splitAbstractionArgs argsStr
        let resolvedArgs ← args.mapM deeper
        let expanded ← substituteVars template resolvedArgs
        resolveLoop abstracts deeper fuel rest' (result ++ (← deeper expanded))
  | fuel + 1, c :: rest, result => resolveLoop abstracts deeper fuel rest (result ++ [c])

/-- Resolve `{name args...}` references, at most `left` levels deep; `none` is a panic. -/
def resolveWithin (abstracts : Dict Str Str) : (left : Nat) → Str → Option Str
  | 0, input => some input
  | left + 1, input =>
    resolveLoop abstracts (resolveWithin abstracts left) input.length input []

def resolveAbstractions (input : Str) (abstracts : Dict Str Str) : Option Str :=
  resolveWithin abstracts maxAbstractionDepth input

/-! ### The nick column -/

/-- The display widths of the `unicode-width` crate. -/
structure Widths where
  str : Str → Nat
  char : Char → Option Nat

/-- The characters that fit into a budget of columns. -/
def fitColumns (uw : Widths) (budget : Nat) : (used : Nat) → Str → Str
  | _, [] => []
  | used, ch :: rest =>
    let width := (uw.char ch).getD 0
    if budget < used + width then [] else ch :: fitColumns uw budget (used + width) rest

/-- Truncate to some columns, with a `+` if truncated. -/
def truncateWithPlus (uw : Widths) (s : Str) (maxLen : Nat) : Str :=
  if maxLen = 0 then []
  else if uw.str s ≤ maxLen then s
  else if maxLen ≤ 1 then ['+']
  else fitColumns uw (maxLen - 1) 0 s ++ ['+']

inductive NickAlignment where
  | left
  | right
  | center
  deriving DecidableEq

structure DisplayConfig where
  nickColumnWidth : Nat
  nickMaxLength : Nat
  nickAlignment : NickAlignment
  nickTruncation : Bool
  deriving DecidableEq

/-- A message of a buffer, with the mode of its nick. -/
structure ChatMessage where
  messageType : MessageType
  nick : Option Str
  nickMode : Option Str
  text : Str
  highlight : Bool
  deriving DecidableEq

/-- The parts of a theme that chat messages use. -/
structure ThemeFile where
  abstracts : Dict Str Str
  messages : Dict Str Str

def spaces (n : Nat) : Str := List.replicate n ' '

/-- The displayed nick and its padded mode. -/
def nickColumn (uw : Widths) (config : DisplayConfig) (msg : ChatMessage) : Str × Str :=
  let nick := msg.nick.getD []
  let nickMode := msg.nickMode.getD []
  let nickBudget := config.nickMaxLength - uw.str nickMode
  let displayNick := if config.nickTruncation then truncateWithPlus uw nick nickBudget else nick
  let padSize := config.nickColumnWidth - (uw.str nickMode + uw.str displayNick)
  match config.nickAlignment with
  | .right => (displayNick, spaces padSize ++ nickMode)
  | .center => (displayNick ++ spaces (padSize - padSize / 2), spaces (padSize / 2) ++ nickMode)
  | .left => (displayNick ++ spaces padSize, nickMode)

/-! ### Messages -/

def formatKey (msg : ChatMessage) (isOwn : Bool) : Str :=
  match msg.messageType with
  | .action => str "action"
  | .notice => str "notice"
  | _ =>
    if isOwn then str "own_msg"
    else if msg.highlight then str "pubmsg_mention"
    else str "pubmsg"

/-- The format of a message, before its abstractions are resolved. -/
def messageFormat (theme : ThemeFile) (msg : ChatMessage) (isOwn : Bool) : Str :=
  (theme.messages.lookup (formatKey msg isOwn)).getD (str "$0 $1")

/-- Whether a span holds the nick and nothing else. -/
def isNickSpan (displayNick : Str) (span : StyledSpan) : Bool :=
  !span.text.isEmpty && eqIgnoreAsciiCase (Text.trim span.text) displayNick

/-- Recolour the spans that hold the nick, if there is a colour for it. -/
def overrideNick (nickFgOverride : Option Color) (displayNick : Str)
    (spans : List StyledSpan) : List StyledSpan :=
  match nickFgOverride with
  | none => spans
  | some color =>
    spans.map (fun span =>
      if isNickSpan displayNick span then ⟨span.text, span.style.setFg (some color)⟩ else span)

/-- The styled spans of a message; `emotify` replaces the emotes of a text if they are shown as
pictures. -/
def renderChatMessage (uw : Widths) (emotify : Str → Str) (msg : ChatMessage) (isOwn : Bool)
    (theme : ThemeFile) (config : DisplayConfig) (nickFgOverride : Option Color)
    (graphical : Bool) : Outcome (List StyledSpan) :=
  let (displayNick, paddedNickMode) := nickColumn uw config msg
  match resolveAbstractions (messageFormat theme msg isOwn) theme.abstracts with
  | none => .panicked
  | some resolved =>
    let body := if graphical then emotify msg.text else msg.text
    match parseFormatString resolved [displayNick, body, paddedNickMode] with
    | .done spans => .done (overrideNick nickFgOverride displayNick spans)
    | .panicked => .panicked
    | .outOfFuel => .outOfFuel

end Repartee.Theme
