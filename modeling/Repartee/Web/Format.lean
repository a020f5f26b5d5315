import Repartee.Theme.Data

/-!
# The formats of the web client

`parse_format` of the web client reads the same codes as `parse_format_string` of the terminal, on
characters.

## Main definitions

- `Web.round`: the effects at the front of a text
- `Web.parseFormat`, `Web.stripFormat`: the parser and its visible text
- `terminalText`: the visible text of the parser of the terminal

## Main results

- `stripFormat_eq`, `terminalText_round`: what the two parsers show
-/

set_option autoImplicit false

namespace Repartee.Web

/-! ### The parser -/

structure Style where
  fg : Option Str := none
  bg : Option Str := none
  bold : Bool := false
  italic : Bool := false
  underline : Bool := false
  dim : Bool := false
  deriving DecidableEq

/-- A styled text segment; the parser makes no links and no emotes. -/
structure StyledSpan where
  text : Str
  style : Style
  link : Option Str := none
  emoteName : Option Str := none
  deriving DecidableEq

/-- The pushed characters, their style, and the spans before them. -/
structure Pen where
  current : Str := []
  style : Style := {}
  spans : List StyledSpan := []
  deriving DecidableEq

/-- A character for the buffer, or a flush with a change of style after it. -/
inductive Action where
  | push (c : Char)
  | restyle (f : Style → Style)

def Pen.flush (p : Pen) : Pen :=
  if p.current.isEmpty then p
  else { p with spans := p.spans ++ [{ text := p.current, style := p.style }], current := [] }

def Pen.act (p : Pen) : Action → Pen
  | .push c => { p with current := p.current ++ [c] }
  | .restyle f => { p.flush with style := f p.style }

namespace Style

def setFg (fg : Option Str) (s : Style) : Style := { s with fg := fg }

def setBg (bg : Option Str) (s : Style) : Style := { s with bg := bg }

def reset (_ : Style) : Style := {}

def toggleBold (s : Style) : Style := { s with bold := !s.bold }

def toggleItalic (s : Style) : Style := { s with italic := !s.italic }

def toggleUnderline (s : Style) : Style := { s with underline := !s.underline }

def toggleDim (s : Style) : Style := { s with dim := !s.dim }

end Style

/-- Single-letter color codes. -/
def irssiColor : Char → Option Str
  | 'k' => some (str "#000000")
  | 'K' => some (str "#555555")
  | 'r' => some (str "#aa0000")
  | 'R' => some (str "#ff5555")
  | 'g' => some (str "#00aa00")
  | 'G' => some (str "#55ff55")
  | 'y' => some (str "#aa5500")
  | 'Y' => some (str "#ffff55")
  | 'b' => some (str "#0000aa")
  | 'B' => some (str "#5555ff")
  | 'm' => some (str "#aa00aa")
  | 'M' => some (str "#ff55ff")
  | 'c' => some (str "#00aaaa")
  | 'C' => some (str "#55ffff")
  | 'w' => some (str "#aaaaaa")
  | 'W' => some (str "#ffffff")
  | _ => none

/-- The color of a mIRC number, given by its digits; the palette is the terminal's. -/
def mircColor (digits : Str) : Option Str :=
  match Text.parseInt 0 255 digits with
  | .ok n => (Theme.mircColors[n.toNat]?).map str
  | .error _ => none

/-- The code after a `%`, of which `rest` is what follows its letter. -/
def percentCode (c : Char) (rest : Str) : List Action × Nat :=
  if c = 'Z' ∧ 6 ≤ rest.length then
    ([.restyle (Style.setFg (some ('#' :: rest.take 6)))], 8)
  else if c = 'z' ∧ 6 ≤ rest.length then
    ([.restyle (Style.setBg (some ('#' :: rest.take 6)))], 8)
  else
    match c with
    | 'N' | 'n' => ([.restyle Style.reset], 2)
    | '_' => ([.restyle Style.toggleBold], 2)
    | 'u' | 'U' => ([.restyle Style.toggleUnderline], 2)
    | 'i' | 'I' => ([.restyle Style.toggleItalic], 2)
    | 'd' => ([.restyle Style.toggleDim], 2)
    | '%' => ([.push '%'], 2)
    | c =>
      match irssiColor c with
      | some hex => ([.restyle (Style.setFg (some hex))], 2)
      -- An unknown code is kept.
      | none => ([.push '%', .push c], 2)

/-- Up to two digits at the front. -/
def digits (s : Str) : Str := (s.take 2).takeWhile Char.isDigit

/-- What follows `0x03`; a comma after the number is always read. -/
def mircCode (rest : Str) : List Action × Nat :=
  let fg := digits rest
  if fg.isEmpty then ([.restyle (fun s => { s with fg := none, bg := none })], 1)
  else
    match rest.drop fg.length with
    | ',' :: rest =>
      ([.restyle (fun s => { s with fg := mircColor fg, bg := mircColor (digits rest) })],
        1 + fg.length + (1 + (digits rest).length))
    | _ => ([.restyle (Style.setFg (mircColor fg))], 1 + fg.length)

/-- Whether six hexadecimal digits are at the front. -/
def hexFront (s : Str) : Bool := 6 ≤ s.length && (s.take 6).all Theme.isHexChar

/-- What follows `0x04`. -/
def hexCode (rest : Str) : List Action × Nat :=
  if hexFront rest then ([.restyle (Style.setFg (some ('#' :: rest.take 6)))], 7)
  else ([.restyle id], 1)

/-- The effects at the front of a text, and the number of characters that are read. -/
def round : Str → List Action × Nat
  | [] => ([], 0)
  | c :: rest =>
    if c = '%' then
      match rest with
      | [] => ([.push '%'], 1)
      | d :: rest => percentCode d rest
    else if c = Char.ofNat 0x02 then ([.restyle Style.toggleBold], 1)
    else if c = Char.ofNat 0x03 then mircCode rest
    else if c = Char.ofNat 0x04 then hexCode rest
    else if c = Char.ofNat 0x0F then ([.restyle Style.reset], 1)
    else if c = Char.ofNat 0x16 then ([], 1)
    else if c = Char.ofNat 0x1D then ([.restyle Style.toggleItalic], 1)
    else if c = Char.ofNat 0x1E then ([.restyle Style.toggleDim], 1)
    else if c = Char.ofNat 0x1F then ([.restyle Style.toggleUnderline], 1)
    else ([.push c], 1)

/-- `while i < len`; every round reads a character, so the length of the text is fuel enough. -/
def parseLoop : (fuel : Nat) → Str → Pen → Pen
  | 0, _, p => p
  | _ + 1, [], p => p
  | fuel + 1, s, p => parseLoop fuel (s.drop (round s).2) ((round s).1.foldl Pen.act p)

/-- `parse_format` -/
def parseFormat (text : Str) : List StyledSpan := (parseLoop text.length text {}).flush.spans

/-- `strip_format` -/
def stripFormat (text : Str) : Str := (parseFormat text).flatMap StyledSpan.text

/-! ### The visible text -/

def Action.text : Action → Str
  | .push c => [c]
  | .restyle _ => []

/-- The characters that a pen has been given. -/
def Pen.text (p : Pen) : Str := p.spans.flatMap StyledSpan.text ++ p.current

theorem Pen.text_flush (p : Pen) : p.flush.spans.flatMap StyledSpan.text = p.text := by
  rw [Pen.flush, Pen.text]
  cases hc : p.current with
  | nil => simp
  | cons c current => simp

theorem Pen.text_act (p : Pen) (a : Action) : (p.act a).text = p.text ++ a.text := by
  cases a with
  | push c => simp [Pen.act, Pen.text, Action.text]
  | restyle f =>
    have hflush := p.text_flush
    have hnil : p.flush.current = [] := by
      rw [Pen.flush]
      by_cases hc : p.current.isEmpty = true
      · rw [if_pos hc]
        exact List.isEmpty_iff.mp hc
      · rw [if_neg hc]
    rw [Action.text, List.append_nil, ← hflush]
    show p.flush.spans.flatMap StyledSpan.text ++ p.flush.current = _
    rw [hnil, List.append_nil]

theorem Pen.text_foldl (acts : List Action) (p : Pen) :
    (acts.foldl Pen.act p).text = p.text ++ acts.flatMap Action.text := by
  induction acts generalizing p with
  | nil => simp
  | cons a acts ih => rw [List.foldl_cons, ih, Pen.text_act, List.flatMap_cons, List.append_assoc]

/-- A branching that reads a character on both sides reads one. -/
theorem arm_pos {p : Prop} [Decidable p] {a e : List Action × Nat} (ha : 0 < a.2)
    (he : 0 < e.2) : 0 < (if p then a else e).2 := by
  by_cases hp : p
  · rw [if_pos hp]
    exact ha
  · rw [if_neg hp]
    exact he

theorem round_pos {s : Str} (hs : s ≠ []) : 0 < (round s).2 := by
  cases s with
  | nil => exact absurd rfl hs
  | cons c rest =>
    have hpercent : ∀ d rest, 0 < (percentCode d rest).2 := by
      intro d rest
      unfold percentCode
      split
      · exact Nat.succ_pos _
      · split
        · exact Nat.succ_pos _
        · split
          all_goals first
            | exact Nat.succ_pos _
            | (split <;> exact Nat.succ_pos _)
    have hmirc : 0 < (mircCode rest).2 := by
      unfold mircCode
      dsimp only
      split
      · exact Nat.one_pos
      · split <;> (dsimp only; omega)
    have hhex : 0 < (hexCode rest).2 := by
      unfold hexCode
      split <;> exact Nat.succ_pos _
    rw [round.eq_def]
    dsimp only
    refine arm_pos ?_ ?_
    · cases rest with
      | nil => exact Nat.one_pos
      | cons d rest => exact hpercent d rest
    -- the control characters, in the order of the source
    refine arm_pos Nat.one_pos ?_
    refine arm_pos hmirc ?_
    refine arm_pos hhex ?_
    refine arm_pos Nat.one_pos ?_
    refine arm_pos Nat.one_pos ?_
    refine arm_pos Nat.one_pos ?_
    refine arm_pos Nat.one_pos ?_
    exact arm_pos Nat.one_pos Nat.one_pos

/-- What a loop adds to a pen does not depend on the pen, and not on the fuel. -/
theorem exists_text_parseLoop (n m : Nat) (s : Str) (hn : s.length ≤ n) (hm : s.length ≤ m)
    (p q : Pen) :
    ∃ u, (parseLoop n s p).text = p.text ++ u ∧ (parseLoop m s q).text = q.text ++ u := by
  induction n generalizing m s p q with
  | zero =>
    cases List.eq_nil_of_length_eq_zero (Nat.le_zero.mp hn)
    exact ⟨[], by simp [parseLoop], by cases m <;> simp [parseLoop]⟩
  | succ n ih =>
    cases s with
    | nil => exact ⟨[], by simp [parseLoop], by cases m <;> simp [parseLoop]⟩
    | cons c rest =>
      cases m with
      | zero => cases hm
      | succ m =>
        have hpos := round_pos (List.cons_ne_nil c rest)
        have hlen : ((c :: rest).drop (round (c :: rest)).2).length ≤ rest.length := by
          rw [List.length_drop, List.length_cons]
          omega
        rw [List.length_cons] at hn hm
        obtain ⟨u, hp, hq⟩ := ih m _ (hlen.trans (by omega)) (hlen.trans (by omega))
          ((round (c :: rest)).1.foldl Pen.act p) ((round (c :: rest)).1.foldl Pen.act q)
        refine ⟨(round (c :: rest)).1.flatMap Action.text ++ u, ?_, ?_⟩
        · rw [parseLoop, hp, Pen.text_foldl, List.append_assoc]
          exact List.cons_ne_nil c rest
        · rw [parseLoop, hq, Pen.text_foldl, List.append_assoc]
          exact List.cons_ne_nil c rest

theorem stripFormat_eq (s : Str) : stripFormat s = (parseLoop s.length s {}).text :=
  Pen.text_flush _

@[simp] theorem stripFormat_nil : stripFormat [] = [] := rfl

/-- The visible text, one round at a time. -/
theorem stripFormat_round {s : Str} (hs : s ≠ []) :
    stripFormat s =
      (round s).1.flatMap Action.text ++ stripFormat (s.drop (round s).2) := by
  rw [stripFormat_eq, stripFormat_eq]
  cases s with
  | nil => exact absurd rfl hs
  | cons c rest =>
    have hpos := round_pos hs
    have hlen : ((c :: rest).drop (round (c :: rest)).2).length ≤ rest.length := by
      rw [List.length_drop, List.length_cons]
      omega
    obtain ⟨u, hp, hq⟩ := exists_text_parseLoop rest.length _ _ hlen (Nat.le_refl _)
      ((round (c :: rest)).1.foldl Pen.act {}) {}
    rw [List.length_cons, parseLoop, hp, hq, Pen.text_foldl]
    · rfl
    · exact hs

/-! ### The terminal's visible text -/

/-- The characters that the terminal's parser writes. -/
theorem written_foldl_text (acts : List Theme.Action) (p : Theme.Pen) :
    (acts.foldl Theme.Pen.act p).written.map Prod.fst =
      p.written.map Prod.fst ++ acts.flatMap Theme.Action.text := by
  induction acts generalizing p with
  | nil => simp
  | cons a acts ih =>
    rw [List.foldl_cons, ih, List.flatMap_cons, ← List.append_assoc]
    refine congrArg (· ++ acts.flatMap Theme.Action.text) ?_
    cases a with
    | push c =>
      show (p.push c).written.map Prod.fst = _
      rw [Theme.Pen.written_push, List.map_append]
      rfl
    | restyle f =>
      show (p.restyle f).written.map Prod.fst = _
      rw [Theme.Pen.written_restyle, Theme.Action.text, List.append_nil]

/-- The visible text of the terminal's spans. -/
def visible (spans : List Theme.StyledSpan) : Str := spans.flatMap (fun span => span.text)

theorem visible_eq_styled (spans : List Theme.StyledSpan) :
    visible spans = (Theme.styled spans).map Prod.fst := by
  induction spans with
  | nil => rfl
  | cons span spans ih =>
    rw [visible, List.flatMap_cons, ← visible, ih, Theme.styled, Theme.styled, List.flatMap_cons,
      List.map_append, List.map_map]
    refine congrArg (· ++ _) ?_
    exact (List.map_id span.text).symm

/-- The visible text of the terminal's effects. -/
def terminalText (s : Str) : Str := (Theme.actions s).flatMap Theme.Action.text

theorem visible_finish (s : Str) :
    visible ((Theme.actions s).foldl Theme.Pen.act {}).finish = terminalText s := by
  have hfinish := Theme.styled_overrideNick_finish none []
    ((Theme.actions s).foldl Theme.Pen.act {})
  rw [Theme.overrideNick, Theme.overrideNick, Theme.Pen.styled_flush] at hfinish
  rw [visible_eq_styled, hfinish, written_foldl_text]
  rfl

@[simp] theorem terminalText_nil : terminalText [] = [] := by
  rw [terminalText, Theme.actions_nil]
  rfl

/-- The visible text, one round at a time. -/
theorem terminalText_round {s : Str} (hs : s ≠ []) :
    terminalText s =
      (Theme.round s).1.flatMap Theme.Action.text ++ terminalText (s.drop (Theme.round s).2) := by
  rw [terminalText, terminalText, Theme.actions, dif_neg hs, List.flatMap_append]

end Repartee.Web
