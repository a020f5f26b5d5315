import Repartee.E2e.Basic
import Repartee.Lib.Text
import Repartee.Lib.Utf8

/-!
# Format strings

`theme/parser.rs` and the colours of `theme/mod.rs`: the substitution of `$` variables, and the
state machine that turns `%` codes and mIRC control characters into styled spans.

The state machine walks the bytes of the substituted text. A round reads the bytes from its
position on and yields its effects on the pen (the buffered text, the current style and the
finished spans) and the number of bytes that it steps over.

## Main definitions

- `substituteVars`: the format with its variables replaced
- `code`: the code at the front of some bytes, if there is one
- `Cursor`, `step`, `parseLoop`: the loop of `parse_format_string`
- `parseFormatString`
-/

set_option autoImplicit false

namespace Repartee.Theme

/-! ### Colours -/

/-- A 24-bit colour. -/
structure Color where
  r : UInt8
  g : UInt8
  b : UInt8
  deriving DecidableEq

/-- The value of a hexadecimal digit. -/
def hexDigit (c : Char) : Option Nat :=
  if '0' ≤ c ∧ c ≤ '9' then some (c.toNat - '0'.toNat)
  else if 'a' ≤ c ∧ c ≤ 'f' then some (c.toNat - 'a'.toNat + 10)
  else if 'A' ≤ c ∧ c ≤ 'F' then some (c.toNat - 'A'.toNat + 10)
  else none

/-- Accumulate hexadecimal digits from the left, within a byte. -/
def hexDigitsFrom : Nat → Str → Option UInt8
  | acc, [] => some (UInt8.ofNat acc)
  | acc, c :: s =>
    match hexDigit c with
    | none => none
    | some d => if 255 < acc * 16 + d then none else hexDigitsFrom (acc * 16 + d) s

/-- `u8::from_str_radix(s, 16).ok()`. -/
def u8FromHex : Str → Option UInt8
  | [] => none
  | ['+'] => none
  | '+' :: s => hexDigitsFrom 0 s
  | s => hexDigitsFrom 0 s

/-- Convert `#RRGGBB` to a colour. -/
def hexToColor (hex : Str) : Option Color := do
  let hex := (Text.stripPrefix ['#'] hex).getD hex
  if Utf8.byteLen hex ≠ 6 then none
  let r ← u8FromHex (← Utf8.slice hex 0 2)
  let g ← u8FromHex (← Utf8.slice hex 2 4)
  let b ← u8FromHex (← Utf8.slice hex 4 6)
  return ⟨r, g, b⟩

/-- Irssi-compatible colour map; lowercase is normal, uppercase is bright. -/
def colorMap : Char → Option Str
  | 'k' => some (str "#000000")
  | 'K' => some (str "#555555")
  | 'r' => some (str "#aa0000")
  | 'R' => some (str "#ff5555")
  | 'g' => some (str "#00aa00")
  | 'G' => some (str "#55ff55")
  | 'y' => some (str "#aa5500")
  | 'Y' => some (str "#ffff55")
  | 'b' => some (str "#0000aa")
  | 'B' => some (str "#5555ff")
  | 'm' => some (str "#aa00aa")
  | 'M' => some (str "#ff55ff")
  | 'c' => some (str "#00aaaa")
  | 'C' => some (str "#55ffff")
  | 'w' => some (str "#aaaaaa")
  | 'W' => some (str "#ffffff")
  | _ => none

/-- The mIRC colour palette, indices 0 to 98. -/
def mircColors : List String :=
  ["#ffffff", "#000000", "#00007f", "#009300", "#ff0000", "#7f0000", "#9c009c", "#fc7f00",
   "#ffff00", "#00fc00", "#009393", "#00ffff", "#0000fc", "#ff00ff", "#7f7f7f", "#d2d2d2",
   "#470000", "#472100", "#474700", "#324700", "#004700", "#00472c", "#004747", "#002747",
   "#000047", "#2e0047", "#470047", "#47002a", "#740000", "#743a00", "#747400", "#517400",
   "#007400", "#007449", "#007474", "#004074", "#000074", "#4b0074", "#740074", "#740045",
   "#b50000", "#b56300", "#b5b500", "#7db500", "#00b500", "#00b571", "#00b5b5", "#0063b5",
   "#0000b5", "#7500b5", "#b500b5", "#b5006b", "#ff0000", "#ff8c00", "#ffff00", "#b2ff00",
   "#00ff00", "#00ffa0", "#00ffff", "#008cff", "#0000ff", "#a500ff", "#ff00ff", "#ff0098",
   "#ff5959", "#ffb459", "#ffff71", "#cfff60", "#6fff6f", "#65ffc9", "#6dffff", "#59b4ff",
   "#5959ff", "#c459ff", "#ff66ff", "#ff59bc", "#ff9c9c", "#ffd39c", "#ffff9c", "#e2ff9c",
   "#9cff9c", "#9cffdb", "#9cffff", "#9cd3ff", "#9c9cff", "#dc9cff", "#ff9cff", "#ff94d3",
   "#000000", "#131313", "#282828", "#363636", "#4d4d4d", "#656565", "#818181", "#9f9f9f",
   "#bcbcbc", "#e2e2e2", "#ffffff"]

/-! ### Styles and spans -/

/-- The style that text is written in. -/
structure StyleState where
  fg : Option Color := none
  bg : Option Color := none
  bold : Bool := false
  italic : Bool := false
  underline : Bool := false
  dim : Bool := false
  deriving DecidableEq

/-- A run of text in one style. -/
structure StyledSpan where
  text : Str
  style : StyleState
  deriving DecidableEq

namespace StyleState

def toSpan (s : StyleState) (text : Str) : StyledSpan := ⟨text, s⟩

def reset (_ : StyleState) : StyleState := {}

def toggleBold (s : StyleState) : StyleState := { s with bold := !s.bold }

def toggleItalic (s : StyleState) : StyleState := { s with italic := !s.italic }

def toggleUnderline (s : StyleState) : StyleState := { s with underline := !s.underline }

def toggleDim (s : StyleState) : StyleState := { s with dim := !s.dim }

def reverse (s : StyleState) : StyleState := { s with fg := s.bg, bg := s.fg }

def setFg (fg : Option Color) (s : StyleState) : StyleState := { s with fg := fg }

def setBg (bg : Option Color) (s : StyleState) : StyleState := { s with bg := bg }

def resetColors (s : StyleState) : StyleState := { s with fg := none, bg := none }

/-- The mIRC colours with the given indices; an index outside the palette changes nothing. -/
def setMirc (fg : Nat) (bg : Option Nat) (s : StyleState) : StyleState :=
  let s := match mircColors[fg]? with
    | some hex => s.setFg (hexToColor (str hex))
    | none => s
  match bg.bind (fun n => mircColors[n]?) with
  | some hex => s.setBg (hexToColor (str hex))
  | none => s

end StyleState

/-- The buffered text, the style it is in, and the spans before it. -/
structure Pen where
  current : StyleState := {}
  buffer : Str := []
  spans : List StyledSpan := []
  deriving DecidableEq

/-- The effects of a round: text for the buffer, or a flush with a change of style after it. -/
inductive Action where
  | push (c : Char)
  | restyle (f : StyleState → StyleState)

namespace Pen

/-- Close the buffered text into a span. -/
def flush (p : Pen) : Pen :=
  if p.buffer.isEmpty then p
  else { p with spans := p.spans ++ [p.current.toSpan p.buffer], buffer := [] }

def push (p : Pen) (c : Char) : Pen := { p with buffer := p.buffer ++ [c] }

def restyle (p : Pen) (f : StyleState → StyleState) : Pen :=
  { p.flush with current := f p.current }

def act (p : Pen) : Action → Pen
  | .push c => p.push c
  | .restyle f => p.restyle f

end Pen

/-! ### Variables -/

/-- The index of a variable: its digits, or `0` if they are no `usize`. -/
def parseIndex (digits : Str) : Nat :=
  match Text.parseInt 0 (2 ^ 64 - 1) digits with
  | .ok n => n.toNat
  | .error _ => 0

/-- The width of a padded variable, or `0` if it is no `i32`. -/
def parseWidth (num : Str) : Int :=
  match Text.parseInt (-(2 ^ 31)) (2 ^ 31 - 1) num with
  | .ok n => n
  | .error _ => 0

/-- The largest width that `write!` pads to; it panics on a larger one. -/
def maxFormatWidth : Nat := 65535

/-- A value padded with spaces, on the left for a negative width. -/
def pad (value : Str) (padWidth : Int) : Option Str :=
  let absWidth := padWidth.natAbs
  if maxFormatWidth < absWidth then none
  else
    let spaces := List.replicate (absWidth - value.length) ' '
    if padWidth < 0 then some (spaces ++ value) else some (value ++ spaces)

/-- The parameters joined with a space. -/
def joinParams (params : List Str) : Str := List.intercalate [' '] params

/-- The loop of `substitute_vars`; every round reads a character, so the length of the input is
fuel enough. -/
def substituteLoop (params : List Str) : (fuel : Nat) → Str → (result : Str) → Option Str
  | 0, _, result => some result
  | _ + 1, [], result => some result
  | fuel + 1, '$' :: rest, result =>
    match rest with
    | [] => some (result ++ ['$'])
    | '*' :: rest => substituteLoop params fuel rest (result ++ joinParams params)
    | '[' :: rest =>
      let padWidth := parseWidth (rest.takeWhile (· ≠ ']'))
      let rest := (rest.dropWhile (· ≠ ']')).drop 1
      let idx := parseIndex (rest.takeWhile Char.isDigit)
      match pad (params.getD idx []) padWidth with
      | none => none
      | some value => substituteLoop params fuel (rest.dropWhile Char.isDigit) (result ++ value)
    | c :: rest =>
      if c.isDigit then
        let idx := parseIndex ((c :: rest).takeWhile Char.isDigit)
        substituteLoop params fuel ((c :: rest).dropWhile Char.isDigit)
          (result ++ params.getD idx [])
      else substituteLoop params fuel rest (result ++ ['$', c])
  | fuel + 1, c :: rest, result => substituteLoop params fuel rest (result ++ [c])

/-- Substitute the variables of a format; `none` is a panic. -/
def substituteVars (input : Str) (params : List Str) : Option Str :=
  substituteLoop params input.length input []

/-! ### Codes -/

/-- `b as char`. -/
def asChar (b : UInt8) : Char := Char.ofNat b.toNat

def isAsciiDigit (b : UInt8) : Bool := 0x30 ≤ b && b ≤ 0x39

def isAsciiHexdigit (b : UInt8) : Bool :=
  isAsciiDigit b || (0x41 ≤ b && b ≤ 0x46) || (0x61 ≤ b && b ≤ 0x66)

/-- Exactly six hexadecimal digits at the front. -/
def readHex6 (bs : List UInt8) : Option Str :=
  let slice := bs.take 6
  if slice.length = 6 ∧ slice.all isAsciiHexdigit then some (slice.map asChar) else none

/-- One or two digits at the front: their number, and how many they are. -/
def readDigits : List UInt8 → Option (Nat × Nat)
  | [] => none
  | b :: rest =>
    if isAsciiDigit b then
      match rest with
      | [] => some (b.toNat - 48, 1)
      | b' :: _ =>
        if isAsciiDigit b' then some ((b.toNat - 48) * 10 + (b'.toNat - 48), 2)
        else some (b.toNat - 48, 1)
    else none

/-- `%ZRRGGBB` and `%zRRGGBB`, of which `rest` is what follows the letter. -/
def hexCode (letter : Char) (set : Option Color → StyleState → StyleState) (rest : List UInt8) :
    List Action × Nat :=
  match readHex6 rest with
  | some hex => ([.restyle (set (hexToColor hex))], 8)
  | none => ([.restyle id, .push '%', .push letter], 2)

/-- The code after a `%`. -/
def percentCode : List UInt8 → List Action × Nat
  | [] => ([.push '%'], 1)
  | code :: rest =>
    match asChar code with
    | 'N' => ([.restyle StyleState.reset], 2)
    | 'n' => ([.restyle StyleState.reset], 2)
    | '_' => ([.restyle StyleState.toggleBold], 2)
    | 'u' => ([.restyle StyleState.toggleUnderline], 2)
    | 'i' => ([.restyle StyleState.toggleItalic], 2)
    | 'd' => ([.restyle StyleState.toggleDim], 2)
    | 'Z' => hexCode 'Z' StyleState.setFg rest
    | 'z' => hexCode 'z' StyleState.setBg rest
    | '|' => ([], 2)
    | '%' => ([.push '%'], 2)
    | c =>
      match colorMap c with
      | some hex => ([.restyle (StyleState.setFg (hexToColor hex))], 2)
      -- An unknown code is kept, as the character whose number the byte is.
      | none => ([.push '%', .push c], 2)

/-- The `,BG` of a mIRC colour: a comma is read only if a digit follows it. -/
def readBackground : List UInt8 → Option (Nat × Nat)
  | [] => none
  | b :: rest => if b = 0x2C then readDigits rest else none

/-- What follows `0x03`: `FG[,BG]`, or nothing, which resets the colours. -/
def mircCode (rest : List UInt8) : List Action × Nat :=
  match readDigits rest with
  | none => ([.restyle StyleState.resetColors], 1)
  | some (fg, n) =>
    match readBackground (rest.drop n) with
    | none => ([.restyle (StyleState.setMirc fg none)], 1 + n)
    | some (bg, k) => ([.restyle (StyleState.setMirc fg (some bg))], 1 + n + (1 + k))

/-- The `,RRGGBB` of a hexadecimal colour. -/
def readHexBackground : List UInt8 → Option Str
  | [] => none
  | b :: rest => if b = 0x2C then readHex6 rest else none

/-- What follows `0x04`: `RRGGBB[,RRGGBB]`, or nothing, which resets the colours. -/
def hexColorCode (rest : List UInt8) : List Action × Nat :=
  match readHex6 rest with
  | none => ([.restyle StyleState.resetColors], 1)
  | some fg =>
    match readHexBackground (rest.drop 6) with
    | none => ([.restyle (StyleState.setFg (hexToColor fg))], 7)
    | some bg => ([.restyle (StyleState.setBg (hexToColor bg) ∘ StyleState.setFg (hexToColor fg))], 14)

/-- The code at the front, with its effects and its length; `none` is regular text. -/
def code : List UInt8 → Option (List Action × Nat)
  | [] => none
  | b :: rest =>
    if b = 0x25 then some (percentCode rest)
    else if b = 0x02 then some ([.restyle StyleState.toggleBold], 1)
    else if b = 0x03 then some (mircCode rest)
    else if b = 0x04 then some (hexColorCode rest)
    else if b = 0x0F then some ([.restyle StyleState.reset], 1)
    else if b = 0x16 then some ([.restyle StyleState.reverse], 1)
    else if b = 0x1D then some ([.restyle StyleState.toggleItalic], 1)
    else if b = 0x1E then some ([.restyle StyleState.toggleDim], 1)
    else if b = 0x1F then some ([.restyle StyleState.toggleUnderline], 1)
    else if b = 0x11 then some ([], 1)
    else none

/-! ### The loop -/

/-- The state of the loop: the byte position, and the pen. -/
structure Cursor where
  i : Nat := 0
  pen : Pen := {}
  deriving DecidableEq

/-- One round of the loop; `none` is the panic of a slice off a character boundary. -/
def step (text : Str) (σ : Cursor) : Option Cursor :=
  match code ((Utf8.encode text).drop σ.i) with
  | some (acts, n) => some ⟨σ.i + n, acts.foldl Pen.act σ.pen⟩
  | none =>
    match Utf8.splitAt text σ.i with
    | some (_, ch :: _) => some ⟨σ.i + ch.utf8Size, σ.pen.push ch⟩
    | _ => none

/-- How a computation ends. -/
inductive Outcome (α : Type) where
  | done (a : α)
  | panicked
  | outOfFuel
  deriving DecidableEq

/-- `while i < len`. -/
def parseLoop (text : Str) : (fuel : Nat) → Cursor → Outcome Cursor
  | 0, σ => if σ.i < Utf8.byteLen text then .outOfFuel else .done σ
  | fuel + 1, σ =>
    if σ.i < Utf8.byteLen text then
      match step text σ with
      | none => .panicked
      | some σ' => parseLoop text fuel σ'
    else .done σ

/-- The spans at the end of the loop; nothing at all is a single empty span. -/
def Pen.finish (p : Pen) : List StyledSpan :=
  let spans := p.flush.spans
  if spans.isEmpty then [StyleState.toSpan {} []] else spans

/-- The styled spans of a substituted text. -/
def parseText (text : Str) : Outcome (List StyledSpan) :=
  match parseLoop text (Utf8.byteLen text) {} with
  | .done σ => .done σ.pen.finish
  | .panicked => .panicked
  | .outOfFuel => .outOfFuel

/-- Parse a format string into styled spans. -/
def parseFormatString (input : Str) (params : List Str) : Outcome (List StyledSpan) :=
  match substituteVars input params with
  | none => .panicked
  | some text => parseText text

end Repartee.Theme
