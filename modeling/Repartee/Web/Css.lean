import Mathlib.Data.List.ReduceOption
import Repartee.Web.Format

/-!
# The style attribute of a message

`StyledSpan::css` writes the colours of a span into the style attribute as they are. The parser
takes any six characters after `%Z` and `%z` for a colour.

## Main definitions

- `StyledSpan.css`: the style attribute
- `cssDeclarations`: the declarations of a style attribute
- `HexCodes`: every colour of a text that is seen has hexadecimal digits

## Main results

- `parseFormat_clean_iff`: when all declarations are the client's own
-/

set_option autoImplicit false

namespace Repartee.Web

open Theme (isHexChar)

/-! ### The style attribute -/

/-- Push a declaration, behind a separator if another one precedes it. -/
def pushDeclaration (s : Str × Str) : Option Str → Str × Str
  | some declaration => (s.1 ++ s.2 ++ declaration, [';'])
  | none => s

/-- `StyledSpan::css` -/
def StyledSpan.css (span : StyledSpan) : Str :=
  ([span.style.fg.map (fun fg => str "color:" ++ fg),
    span.style.bg.map (fun bg => str "background:" ++ bg),
    if span.style.bold then some (str "font-weight:bold") else none,
    if span.style.italic then some (str "font-style:italic") else none,
    if span.style.underline then some (str "text-decoration:underline") else none,
    if span.style.dim then some (str "opacity:0.5") else none].foldl pushDeclaration ([], [])).1

/-- The declarations of a style attribute: a `;` ends a declaration, and its name ends at the first
`:`. -/
def cssDeclarations (css : Str) : List (Str × Str) :=
  ((css.splitOn ';').filter (· ≠ [])).map (fun d => (Text.splitOnce ':' d).getD (d, []))

/-- The declarations that are meant by a span. -/
def StyledSpan.declarations (span : StyledSpan) : List (Str × Str) :=
  [span.style.fg.map (fun fg => (str "color", fg)),
    span.style.bg.map (fun bg => (str "background", bg)),
    if span.style.bold then some (str "font-weight", str "bold") else none,
    if span.style.italic then some (str "font-style", str "italic") else none,
    if span.style.underline then some (str "text-decoration", str "underline") else none,
    if span.style.dim then some (str "opacity", str "0.5") else none].reduceOption

/-! ### Colours -/

/-- The two colours of a style. -/
inductive Layer where
  | fg
  | bg
  deriving DecidableEq

def Style.color (st : Style) : Layer → Option Str
  | .fg => st.fg
  | .bg => st.bg

/-- A `#` and exactly six hexadecimal digits. -/
def isHexColor : Str → Bool
  | '#' :: digits => digits.length = 6 && digits.all isHexChar
  | _ => false

/-- No colour, or a hexadecimal one. -/
def IsClean (color : Option Str) : Prop := ∀ c ∈ color, isHexColor c = true

/-- Both colours are clean, and the style attribute has the declarations that are meant. -/
def StyledSpan.Clean (span : StyledSpan) : Prop :=
  IsClean span.style.fg ∧ IsClean span.style.bg ∧
    cssDeclarations span.css = span.declarations

/-! ### Colour codes in a text -/

/-- The letter of a `%` code that is followed by the six characters of a colour. -/
def Layer.letter : Layer → Char
  | .fg => 'Z'
  | .bg => 'z'

/-- Whether the code at the front is `%Z` or `%z` with six characters behind it. -/
def takesSix (layer : Layer) : Str → Bool
  | '%' :: c :: rest => c = layer.letter && 6 ≤ rest.length
  | _ => false

/-- Whether the code at the front sets or resets a colour. -/
def sets (layer : Layer) : Str → Bool
  | [] => false
  | c :: rest =>
    if c = '%' then
      match rest with
      | [] => false
      | d :: _ => takesSix layer (c :: rest) || d = 'N' || d = 'n' ||
          layer = .fg && (irssiColor d).isSome
    else if c = Char.ofNat 0x03 then
      (digits rest).isEmpty || layer = .fg || (rest.drop (digits rest).length).head? = some ','
    else if c = Char.ofNat 0x04 then layer = .fg && hexFront rest
    else c = Char.ofNat 0x0F

/-- Whether the code at the front takes something else than six hexadecimal digits. -/
def breaks (layer : Layer) (s : Str) : Bool := takesSix layer s && !hexFront (s.drop 2)

/-- Whether what is read at the front is shown. -/
def shows (s : Str) : Bool := !((round s).1.flatMap Action.text).isEmpty

/-- What is left of a text after one of the rounds of the parser. -/
inductive Reaches (text : Str) : Str → Prop
  | start : Reaches text text
  | next {s : Str} : s ≠ [] → Reaches text s → Reaches text (s.drop (round s).2)

/-- A colour that was set before a text is replaced or reset before anything is shown in it. -/
inductive Unseen (layer : Layer) : Str → Prop
  | done : Unseen layer []
  | replaced {s : Str} : sets layer s = true → Unseen layer s
  | skipped {s : Str} : s ≠ [] → shows s = false → Unseen layer (s.drop (round s).2) →
      Unseen layer s

/-- Whenever the parser comes to a `%Z` or `%z` that something else than six hexadecimal digits
follows, nothing is shown in this colour. -/
def HexCodes (text : Str) : Prop :=
  ∀ layer s, Reaches text s → breaks layer s = true → Unseen layer (s.drop 8)

/-! ### What a round does to the colours -/

/-- A round shows characters, does nothing, or changes the style. -/
inductive ColorEffect (s : Str) : Prop
  | shown (cs : Str) (hne : cs ≠ []) (acts : (round s).1 = cs.map .push)
      (quiet : ∀ layer, sets layer s = false)
  | skipped (acts : (round s).1 = []) (quiet : ∀ layer, sets layer s = false)
  | restyled (f : Style → Style) (acts : (round s).1 = [.restyle f])
      (set : ∀ layer st, sets layer s = true →
        (IsClean ((f st).color layer) ↔ breaks layer s = false))
      (kept : ∀ layer st, sets layer s = false → (f st).color layer = st.color layer)

theorem isClean_none : IsClean none := fun _ h => nomatch h

theorem isClean_some_iff {c : Str} : IsClean (some c) ↔ isHexColor c = true :=
  ⟨fun h => h c rfl, fun h _ hc => Option.some.inj hc ▸ h⟩

theorem isHexColor_take {rest : Str} (h : 6 ≤ rest.length) :
    isHexColor ('#' :: rest.take 6) = hexFront rest := by
  have hlen : (rest.take 6).length = 6 := by
    rw [List.length_take]
    omega
  simp [isHexColor, hexFront, hlen, h]

theorem isClean_irssiColor {d : Char} {hex : Str} (h : irssiColor d = some hex) :
    IsClean (some hex) := by
  rw [isClean_some_iff]
  revert h
  rw [irssiColor.eq_def]
  split
  all_goals
    intro h
    first
      | exact Option.some.inj h ▸ (by decide)
      | exact nomatch h

theorem isClean_mircColor (ds : Str) : IsClean (mircColor ds) := by
  have hpalette : ∀ color ∈ Theme.mircColors, isHexColor (str color) = true := by
    decide +kernel
  intro c hc
  rw [mircColor] at hc
  split at hc
  · obtain ⟨color, hcolor, rfl⟩ := Option.map_eq_some_iff.mp hc
    exact hpalette color (List.mem_of_getElem? hcolor)
  · exact nomatch hc

theorem takesSix_iff {layer : Layer} {d : Char} {rest : Str} :
    takesSix layer ('%' :: d :: rest) = true ↔ d = layer.letter ∧ 6 ≤ rest.length := by
  simp [takesSix]

theorem breaks_of_not_takesSix {layer : Layer} {s : Str} (h : takesSix layer s = false) :
    breaks layer s = false := by
  rw [breaks, h, Bool.false_and]

/-- The two codes that take six characters. -/
theorem effect_takesSix {layer : Layer} {rest : Str} (h : 6 ≤ rest.length) :
    ColorEffect ('%' :: layer.letter :: rest) := by
  have htakes : takesSix layer ('%' :: layer.letter :: rest) = true := (takesSix_iff).mpr ⟨rfl, h⟩
  have hbreaks : breaks layer ('%' :: layer.letter :: rest) = !hexFront rest := by
    rw [breaks, htakes]
    rfl
  have hclean : IsClean (some ('#' :: rest.take 6)) ↔
      breaks layer ('%' :: layer.letter :: rest) = false := by
    rw [isClean_some_iff, isHexColor_take h, hbreaks, Bool.not_eq_false']
  cases layer with
  | fg =>
    refine .restyled (Style.setFg (some ('#' :: rest.take 6))) ?_ ?_ ?_
    · exact congrArg Prod.fst (if_pos ⟨rfl, h⟩)
    · intro layer st hsets
      cases layer with
      | fg => exact hclean
      | bg => exact absurd hsets (by simp [sets, takesSix, Layer.letter])
    · intro layer st hsets
      cases layer with
      | fg => exact absurd hsets (by simp [sets, htakes])
      | bg => rfl
  | bg =>
    refine .restyled (Style.setBg (some ('#' :: rest.take 6))) ?_ ?_ ?_
    · have hnot : ¬('z' = 'Z' ∧ 6 ≤ rest.length) := fun hz => absurd hz.1 (by decide)
      show (percentCode 'z' rest).1 = _
      rw [percentCode.eq_def, if_neg hnot, if_pos ⟨rfl, h⟩]
    · intro layer st hsets
      cases layer with
      | fg => exact absurd hsets (by simp [sets, takesSix, Layer.letter, irssiColor])
      | bg => exact hclean
    · intro layer st hsets
      cases layer with
      | fg => rfl
      | bg => exact absurd hsets (by simp [sets, htakes])

section Effects

variable {s : Str} {f : Style → Style}

/-- A change of the style that is not one of the colours. -/
theorem effect_of_kept (acts : (round s).1 = [.restyle f])
    (quiet : ∀ layer, sets layer s = false) (h : ∀ layer st, (f st).color layer = st.color layer) :
    ColorEffect s :=
  .restyled f acts (fun layer _ hsets => absurd hsets (by simp [quiet layer]))
    (fun layer st _ => h layer st)

/-- A reset of both colours, or two clean ones. -/
theorem effect_of_clean (acts : (round s).1 = [.restyle f])
    (hsets : ∀ layer, sets layer s = true) (hbreaks : ∀ layer, breaks layer s = false)
    (h : ∀ layer st, IsClean ((f st).color layer)) : ColorEffect s :=
  .restyled f acts (fun layer st _ => iff_of_true (h layer st) (hbreaks layer))
    (fun layer _ hno => absurd (hsets layer) (by simp [hno]))

/-- A clean foreground. -/
theorem effect_of_clean_fg {color : Option Str} (acts : (round s).1 = [.restyle (Style.setFg color)])
    (hfg : sets .fg s = true) (hbg : sets .bg s = false) (hbreaks : breaks .fg s = false)
    (h : IsClean color) : ColorEffect s := by
  refine .restyled (Style.setFg color) acts ?_ ?_
  · intro layer st hsets
    cases layer with
    | fg => exact iff_of_true h hbreaks
    | bg => exact absurd hsets (by simp [hbg])
  · intro layer st hsets
    cases layer with
    | fg => exact absurd hfg (by simp [hsets])
    | bg => rfl

end Effects

theorem effect_percent (d : Char) (rest : Str) : ColorEffect ('%' :: d :: rest) := by
  by_cases htakes : ∃ layer : Layer, d = layer.letter ∧ 6 ≤ rest.length
  · obtain ⟨layer, rfl, hlen⟩ := htakes
    exact effect_takesSix hlen
  have hnot : ∀ layer, takesSix layer ('%' :: d :: rest) = false := fun layer =>
    Bool.eq_false_iff.mpr (fun h => htakes ⟨layer, (takesSix_iff).mp h⟩)
  have hbreaks := fun layer => breaks_of_not_takesSix (hnot layer)
  have hsets : ∀ layer, sets layer ('%' :: d :: rest) =
      (d = 'N' || d = 'n' || layer = .fg && (irssiColor d).isSome) := by
    intro layer
    show (takesSix layer ('%' :: d :: rest) || d = 'N' || d = 'n' ||
      layer = .fg && (irssiColor d).isSome) = _
    rw [hnot layer, Bool.false_or]
  have hacts : (round ('%' :: d :: rest)).1 = (percentCode d rest).1 := rfl
  have hfg : ¬(d = 'Z' ∧ 6 ≤ rest.length) := fun h => htakes ⟨.fg, h⟩
  have hbg : ¬(d = 'z' ∧ 6 ≤ rest.length) := fun h => htakes ⟨.bg, h⟩
  rw [percentCode.eq_def, if_neg hfg, if_neg hbg] at hacts
  split at hacts
  · exact effect_of_clean hacts (fun layer => by rw [hsets]; rfl) hbreaks
      (fun layer st => by cases layer <;> exact isClean_none)
  · exact effect_of_clean hacts (fun layer => by rw [hsets]; rfl) hbreaks
      (fun layer st => by cases layer <;> exact isClean_none)
  all_goals try
    exact effect_of_kept hacts (fun layer => by rw [hsets]; cases layer <;> rfl)
      (fun layer st => by cases layer <;> rfl)
  · exact .shown ['%'] (List.cons_ne_nil _ _) hacts (fun layer => by
      rw [hsets]
      cases layer <;> rfl)
  · rename_i hN hn _ _ _ _ _ _ _
    have hletters : (d = 'N' || d = 'n') = false := by
      simp only [Bool.or_eq_false_iff, decide_eq_false_iff_not]
      exact ⟨hN, hn⟩
    split at hacts
    · rename_i hex hirssi
      refine effect_of_clean_fg hacts ?_ ?_ (hbreaks .fg) (isClean_irssiColor hirssi)
      · rw [hsets, hirssi]
        simp
      · rw [hsets, hletters]
        rfl
    · rename_i hirssi
      refine .shown ['%', d] (List.cons_ne_nil _ _) hacts (fun layer => ?_)
      rw [hsets, hletters, hirssi]
      simp

/-- The rounds at a control character. -/
theorem effect_mirc (rest : Str) : ColorEffect (Char.ofNat 0x03 :: rest) := by
  have hround : round (Char.ofNat 0x03 :: rest) = mircCode rest := rfl
  have hsets : ∀ layer, sets layer (Char.ofNat 0x03 :: rest) =
      ((digits rest).isEmpty || layer = .fg ||
        (rest.drop (digits rest).length).head? = some ',') := fun _ => rfl
  have hbreaks : ∀ layer, breaks layer (Char.ofNat 0x03 :: rest) = false := fun _ => rfl
  have hacts : (round (Char.ofNat 0x03 :: rest)).1 = (mircCode rest).1 := congrArg Prod.fst hround
  rw [mircCode] at hacts
  split at hacts
  · rename_i hempty
    refine effect_of_clean hacts (fun layer => ?_) hbreaks
      (fun layer st => by cases layer <;> exact isClean_none)
    rw [hsets, hempty]
    rfl
  · rename_i hsome
    split at hacts
    · rename_i back hcomma
      refine effect_of_clean hacts (fun layer => ?_) hbreaks
        (fun layer st => by cases layer <;> exact isClean_mircColor _)
      rw [hsets, hcomma]
      simp
    · rename_i hcomma
      refine effect_of_clean_fg hacts ?_ ?_ (hbreaks .fg) (isClean_mircColor _)
      · rw [hsets]
        simp
      · rw [hsets, Bool.eq_false_iff.mpr hsome]
        cases hrest : rest.drop (digits rest).length with
        | nil => rfl
        | cons c back =>
          have hc : c ≠ ',' := fun h => hcomma back (h ▸ hrest)
          simp [hc]

theorem effect_hex (rest : Str) : ColorEffect (Char.ofNat 0x04 :: rest) := by
  have hround : round (Char.ofNat 0x04 :: rest) = hexCode rest := rfl
  have hsets : ∀ layer, sets layer (Char.ofNat 0x04 :: rest) =
      (layer = .fg && hexFront rest) := fun _ => rfl
  have hacts : (round (Char.ofNat 0x04 :: rest)).1 = (hexCode rest).1 := congrArg Prod.fst hround
  rw [hexCode] at hacts
  split at hacts
  · rename_i hhex
    have hlen : 6 ≤ rest.length := by
      rw [hexFront, Bool.and_eq_true, decide_eq_true_eq] at hhex
      exact hhex.1
    refine effect_of_clean_fg hacts ?_ ?_ rfl ?_
    · rw [hsets, hhex]
      rfl
    · rw [hsets]
      rfl
    · rw [isClean_some_iff, isHexColor_take hlen, hhex]
  · rename_i hhex
    refine effect_of_kept hacts (fun layer => ?_) (fun _ _ => rfl)
    rw [hsets, Bool.eq_false_iff.mpr hhex, Bool.and_false]

/-- **What a round does.** -/
theorem effect_round {s : Str} (hs : s ≠ []) : ColorEffect s := by
  cases s with
  | nil => exact absurd rfl hs
  | cons c rest =>
    by_cases hp : c = '%'
    · subst hp
      cases rest with
      | nil => exact .shown ['%'] (List.cons_ne_nil _ _) rfl (fun _ => rfl)
      | cons d rest => exact effect_percent d rest
    by_cases h3 : c = Char.ofNat 0x03
    · exact h3 ▸ effect_mirc rest
    by_cases h4 : c = Char.ofNat 0x04
    · exact h4 ▸ effect_hex rest
    have hsets : ∀ layer, sets layer (c :: rest) = decide (c = Char.ofNat 0x0F) := by
      intro layer
      rw [sets.eq_def]
      dsimp only
      rw [if_neg hp, if_neg h3, if_neg h4]
    have hbreaks : ∀ layer, breaks layer (c :: rest) = false := by
      intro layer
      apply breaks_of_not_takesSix
      rw [takesSix.eq_def]
      split
      · rename_i heq
        exact absurd (List.cons.inj heq).1 hp
      · rfl
    have hround : round (c :: rest) =
        if c = Char.ofNat 0x02 then ([.restyle Style.toggleBold], 1)
        else if c = Char.ofNat 0x0F then ([.restyle Style.reset], 1)
        else if c = Char.ofNat 0x16 then ([], 1)
        else if c = Char.ofNat 0x1D then ([.restyle Style.toggleItalic], 1)
        else if c = Char.ofNat 0x1E then ([.restyle Style.toggleDim], 1)
        else if c = Char.ofNat 0x1F then ([.restyle Style.toggleUnderline], 1)
        else ([.push c], 1) := by
      rw [round.eq_def]
      dsimp only
      rw [if_neg hp, if_neg h3, if_neg h4]
    have hkept : ∀ f : Style → Style, c ≠ Char.ofNat 0x0F →
        (round (c :: rest)).1 = [.restyle f] →
        (∀ layer st, (f st).color layer = st.color layer) → ColorEffect (c :: rest) :=
      fun f hne hacts h => effect_of_kept hacts (fun layer => by simp [hsets, hne]) h
    have hcolors : ∀ (f : Style → Style) (st : Style), (f st).fg = st.fg → (f st).bg = st.bg →
        ∀ layer, (f st).color layer = st.color layer := by
      intro f st hfg hbg layer
      cases layer
      · exact hfg
      · exact hbg
    split_ifs at hround with h02 h0F h16 h1D h1E h1F
    · exact hkept _ (by rw [h02]; decide) (by rw [hround]) (fun layer st => hcolors _ st rfl rfl layer)
    · refine effect_of_clean (f := Style.reset) (by rw [hround]) (fun layer => ?_) hbreaks
        (fun layer st => by cases layer <;> exact isClean_none)
      rw [hsets, decide_eq_true h0F]
    · exact .skipped (by rw [hround]) (fun layer => by rw [hsets, decide_eq_false h0F])
    · exact hkept _ h0F (by rw [hround]) (fun layer st => hcolors _ st rfl rfl layer)
    · exact hkept _ h0F (by rw [hround]) (fun layer st => hcolors _ st rfl rfl layer)
    · exact hkept _ h0F (by rw [hround]) (fun layer st => hcolors _ st rfl rfl layer)
    · exact .shown [c] (List.cons_ne_nil _ _) (by rw [hround]; rfl)
        (fun layer => by rw [hsets, decide_eq_false h0F])

/-! ### Reading a text -/

theorem reaches_of_round {s t : Str} (hs : s ≠ []) (h : Reaches (s.drop (round s).2) t) :
    Reaches s t := by
  induction h with
  | start => exact .next hs .start
  | next hne _ ih => exact .next hne ih

theorem reaches_cases {s t : Str} (h : Reaches s t) :
    t = s ∨ s ≠ [] ∧ Reaches (s.drop (round s).2) t := by
  induction h with
  | start => exact .inl rfl
  | next hne _ ih =>
    rcases ih with rfl | ⟨hs, hlater⟩
    · exact .inr ⟨hne, .start⟩
    · exact .inr ⟨hs, .next hne hlater⟩

theorem sets_of_breaks {layer : Layer} {s : Str} (h : breaks layer s = true) :
    sets layer s = true ∧ (round s).2 = 8 := by
  rw [breaks, Bool.and_eq_true] at h
  have htakes := h.1
  rw [takesSix.eq_def] at htakes
  split at htakes
  · rename_i d rest
    rw [Bool.and_eq_true, decide_eq_true_eq, decide_eq_true_eq] at htakes
    obtain ⟨rfl, hlen⟩ := htakes
    constructor
    · show (takesSix layer _ || _ || _ || _) = true
      rw [h.1]
      rfl
    · show (percentCode layer.letter rest).2 = 8
      rw [percentCode.eq_def]
      cases layer with
      | fg => rw [if_pos ⟨rfl, hlen⟩]
      | bg =>
        have hnot : ¬('z' = 'Z' ∧ 6 ≤ rest.length) := fun hz => absurd hz.1 (by decide)
        exact congrArg Prod.snd ((if_neg hnot).trans (if_pos ⟨rfl, hlen⟩))
  · exact absurd htakes (by decide)

/-- The condition on a text, one round at a time. -/
theorem hexCodes_iff {s : Str} (hs : s ≠ []) :
    HexCodes s ↔ (∀ layer, breaks layer s = true → Unseen layer (s.drop (round s).2)) ∧
      HexCodes (s.drop (round s).2) := by
  constructor
  · intro h
    refine ⟨fun layer hbreaks => ?_, fun layer t ht => h layer t (reaches_of_round hs ht)⟩
    rw [(sets_of_breaks hbreaks).2]
    exact h layer s .start hbreaks
  · rintro ⟨hnow, hlater⟩ layer t ht hbreaks
    rcases reaches_cases ht with rfl | ⟨-, ht⟩
    · rw [← (sets_of_breaks hbreaks).2]
      exact hnow layer hbreaks
    · exact hlater layer t ht hbreaks

theorem unseen_iff {layer : Layer} {s : Str} (hs : s ≠ []) :
    Unseen layer s ↔
      sets layer s = true ∨ shows s = false ∧ Unseen layer (s.drop (round s).2) := by
  constructor
  · intro h
    cases h with
    | done => exact absurd rfl hs
    | replaced hsets => exact .inl hsets
    | skipped _ hshows hlater => exact .inr ⟨hshows, hlater⟩
  · rintro (hsets | ⟨hshows, hlater⟩)
    · exact .replaced hsets
    · exact .skipped hs hshows hlater

theorem hexCodes_nil : HexCodes [] := by
  intro layer t ht hbreaks
  rcases reaches_cases ht with rfl | ⟨hne, -⟩
  · exact absurd hbreaks Bool.false_ne_true
  · exact absurd rfl hne

/-! ### Clean spans -/

def Style.IsClean (st : Style) : Prop := ∀ layer, Web.IsClean (st.color layer)

/-- What was flushed is clean, and so is what is to be flushed. -/
def Pen.Clean (p : Pen) : Prop :=
  (∀ span ∈ p.spans, span.style.IsClean) ∧ (p.current ≠ [] → p.style.IsClean)

theorem Pen.clean_flush (p : Pen) : (∀ span ∈ p.flush.spans, span.style.IsClean) ↔ p.Clean := by
  rw [Pen.flush, Pen.Clean]
  by_cases hc : p.current = []
  · rw [if_pos (List.isEmpty_iff.mpr hc)]
    exact (and_iff_left (fun hne => absurd hc hne)).symm
  · rw [if_neg (fun h => hc (List.isEmpty_iff.mp h))]
    simp only [List.forall_mem_append, List.forall_mem_singleton]
    exact and_congr_right (fun _ => ⟨fun h _ => h, fun h => h hc⟩)

theorem Pen.clean_restyle (p : Pen) (f : Style → Style) : (p.act (.restyle f)).Clean ↔ p.Clean := by
  have hcurrent : p.flush.current = [] := by
    rw [Pen.flush]
    split_ifs with hc
    · exact List.isEmpty_iff.mp hc
    · rfl
  rw [← Pen.clean_flush p]
  exact and_iff_left (fun hne => absurd hcurrent hne)

theorem Pen.clean_push (p : Pen) (c : Char) :
    (p.act (.push c)).Clean ↔ p.Clean ∧ p.style.IsClean := by
  constructor
  · rintro ⟨hspans, hcurrent⟩
    have hstyle : p.style.IsClean := hcurrent (by simp [Pen.act])
    exact ⟨⟨hspans, fun _ => hstyle⟩, hstyle⟩
  · rintro ⟨⟨hspans, -⟩, hstyle⟩
    exact ⟨hspans, fun _ => hstyle⟩

theorem Pen.clean_pushes {cs : Str} (hne : cs ≠ []) (p : Pen) :
    (((cs.map Action.push).foldl Pen.act p).Clean ↔ p.Clean ∧ p.style.IsClean) ∧
      ((cs.map Action.push).foldl Pen.act p).style = p.style := by
  induction cs generalizing p with
  | nil => exact absurd rfl hne
  | cons c cs ih =>
    rw [List.map_cons, List.foldl_cons]
    by_cases hcs : cs = []
    · subst hcs
      exact ⟨p.clean_push c, rfl⟩
    · obtain ⟨hclean, hstyle⟩ := ih hcs (p.act (.push c))
      refine ⟨?_, hstyle⟩
      rw [hclean, Pen.clean_push]
      exact and_iff_left_of_imp And.right

/-- What is left to read keeps clean what a pen has written in a style. -/
def Fine (s : Str) (st : Style) : Prop :=
  (∀ layer, Web.IsClean (st.color layer) ∨ Unseen layer s) ∧ HexCodes s

theorem fine_nil (st : Style) : Fine [] st := ⟨fun _ => .inr .done, hexCodes_nil⟩

/-- One round of the parser. -/
theorem clean_round {s : Str} (hs : s ≠ []) (p : Pen) :
    (((round s).1.foldl Pen.act p).Clean ∧
      Fine (s.drop (round s).2) ((round s).1.foldl Pen.act p).style) ↔ p.Clean ∧ Fine s p.style := by
  rw [Fine, Fine, hexCodes_iff hs]
  cases effect_round hs with
  | shown cs hne acts quiet =>
    have hshows : shows s = true := by
      rw [shows, acts]
      cases cs with
      | nil => exact absurd rfl hne
      | cons c cs => rfl
    have hbreaks : ∀ layer, breaks layer s = false := fun layer =>
      Bool.eq_false_iff.mpr (fun h => absurd (sets_of_breaks h).1 (by simp [quiet layer]))
    obtain ⟨hclean, hstyle⟩ := Pen.clean_pushes hne p
    rw [acts, hclean, hstyle]
    have hunseen : ∀ layer, ¬ Unseen layer s := fun layer h => by
      rw [unseen_iff hs, quiet layer, hshows] at h
      simp at h
    constructor
    · rintro ⟨⟨hp, hst⟩, -, hlater⟩
      exact ⟨hp, fun layer => .inl (hst layer), fun layer h => absurd h (by simp [hbreaks layer]),
        hlater⟩
    · rintro ⟨hp, hseen, -, hlater⟩
      have hst : p.style.IsClean := fun layer => (hseen layer).resolve_right (hunseen layer)
      exact ⟨⟨hp, hst⟩, fun layer => .inl (hst layer), hlater⟩
  | skipped acts quiet =>
    have hshows : shows s = false := by
      rw [shows, acts]
      rfl
    have hbreaks : ∀ layer, breaks layer s = false := fun layer =>
      Bool.eq_false_iff.mpr (fun h => absurd (sets_of_breaks h).1 (by simp [quiet layer]))
    simp only [acts, List.foldl_nil, unseen_iff hs, quiet, hshows, hbreaks]
    simp
  | restyled f acts set kept =>
    have hshows : shows s = false := by
      rw [shows, acts]
      rfl
    have hstyle : (p.act (.restyle f)).style = f p.style := rfl
    rw [acts, List.foldl_cons, List.foldl_nil, Pen.clean_restyle, hstyle]
    refine and_congr_right (fun _ => ?_)
    rw [← and_assoc]
    refine and_congr_left (fun _ => ?_)
    rw [← forall_and]
    refine forall_congr' (fun layer => ?_)
    rw [unseen_iff hs, hshows]
    cases hsets : sets layer s with
    | true =>
      rw [set layer p.style hsets]
      cases breaks layer s <;> simp
    | false =>
      have hbreaks : breaks layer s = false :=
        Bool.eq_false_iff.mpr (fun h => absurd (sets_of_breaks h).1 (by simp [hsets]))
      rw [kept layer p.style hsets, hbreaks]
      simp

theorem clean_parseLoop {n : Nat} {s : Str} (hn : s.length ≤ n) (p : Pen) :
    (parseLoop n s p).Clean ↔ p.Clean ∧ Fine s p.style := by
  induction n generalizing s p with
  | zero =>
    obtain rfl := List.eq_nil_of_length_eq_zero (Nat.le_zero.mp hn)
    exact (and_iff_left (fine_nil p.style)).symm
  | succ n ih =>
    cases s with
    | nil => exact (and_iff_left (fine_nil p.style)).symm
    | cons c rest =>
      have hpos := round_pos (List.cons_ne_nil c rest)
      rw [List.length_cons] at hn
      have hlen : ((c :: rest).drop (round (c :: rest)).2).length ≤ n := by
        rw [List.length_drop, List.length_cons]
        omega
      rw [parseLoop, ih hlen, clean_round (List.cons_ne_nil c rest)]
      exact List.cons_ne_nil c rest

/-! ### The declarations of a clean span -/

theorem foldl_pushDeclaration (l : List (Option Str)) (s : Str) :
    (l.foldl pushDeclaration (s, [';'])).1 = s ++ l.reduceOption.flatMap (fun d => ';' :: d) := by
  induction l generalizing s with
  | nil => simp
  | cons d l ih =>
    cases d with
    | none => rw [List.foldl_cons, pushDeclaration, ih, List.reduceOption_cons_of_none]
    | some d =>
      rw [List.foldl_cons, pushDeclaration, ih, List.reduceOption_cons_of_some,
        List.flatMap_cons]
      simp

theorem intercalate_cons (d : Str) (l : List Str) :
    [';'].intercalate (d :: l) = d ++ l.flatMap (fun d => ';' :: d) := by
  induction l generalizing d with
  | nil => simp
  | cons d' l ih => rw [List.intercalate_cons_cons, ih, List.flatMap_cons]; simp

/-- The declarations are joined by semicolons. -/
theorem foldl_pushDeclaration_nil (l : List (Option Str)) :
    (l.foldl pushDeclaration ([], [])).1 = [';'].intercalate l.reduceOption := by
  induction l with
  | nil => rfl
  | cons d l ih =>
    cases d with
    | none => rw [List.foldl_cons, pushDeclaration, ih, List.reduceOption_cons_of_none]
    | some d =>
      rw [List.foldl_cons, pushDeclaration, foldl_pushDeclaration,
        List.reduceOption_cons_of_some, intercalate_cons]
      rfl

/-- A name and a value. -/
def joined (d : Str × Str) : Str := d.1 ++ ':' :: d.2

theorem map_joined_color (name : Str) (color : Option Str) :
    Option.map joined (color.map (fun c => (name, c))) =
      color.map (fun c => (name ++ [':']) ++ c) := by
  cases color with
  | none => rfl
  | some c => exact congrArg some (List.append_cons name ':' c)

theorem map_joined_flag (flag : Bool) (name value : Str) :
    Option.map joined (if flag then some (name, value) else none) =
      if flag then some (name ++ ':' :: value) else none := by
  cases flag <;> rfl

theorem css_eq (span : StyledSpan) :
    span.css = [';'].intercalate (span.declarations.map joined) := by
  have hfg : str "color:" = str "color" ++ [':'] := by decide
  have hbg : str "background:" = str "background" ++ [':'] := by decide
  have hbold : str "font-weight:bold" = str "font-weight" ++ ':' :: str "bold" := by decide
  have hitalic : str "font-style:italic" = str "font-style" ++ ':' :: str "italic" := by decide
  have hunderline : str "text-decoration:underline" =
      str "text-decoration" ++ ':' :: str "underline" := by decide
  have hdim : str "opacity:0.5" = str "opacity" ++ ':' :: str "0.5" := by decide
  rw [StyledSpan.css, foldl_pushDeclaration_nil, StyledSpan.declarations,
    ← List.reduceOption_map]
  simp only [List.map_cons, List.map_nil, map_joined_color, map_joined_flag]
  rw [hfg, hbg, hbold, hitalic, hunderline, hdim]

theorem notMem_of_isHexColor {c : Str} (h : isHexColor c = true) : ';' ∉ c := by
  cases c with
  | nil => exact List.not_mem_nil
  | cons c digits =>
    rw [isHexColor.eq_def] at h
    split at h
    · rename_i heq
      obtain ⟨rfl, rfl⟩ := List.cons.inj heq
      rw [Bool.and_eq_true, List.all_eq_true] at h
      rw [List.mem_cons, not_or]
      refine ⟨by decide, fun hmem => ?_⟩
      exact absurd (h.2 ';' hmem) (by decide)
    · exact absurd h Bool.false_ne_true

/-- The names of the declarations are the client's own. -/
theorem declarations_plain {span : StyledSpan} (hfg : IsClean span.style.fg)
    (hbg : IsClean span.style.bg) {d : Str × Str} (h : d ∈ span.declarations) :
    ':' ∉ d.1 ∧ ';' ∉ d.1 ∧ ';' ∉ d.2 := by
  have hcolor : ':' ∉ str "color" ∧ ';' ∉ str "color" := by decide
  have hbackground : ':' ∉ str "background" ∧ ';' ∉ str "background" := by decide
  simp only [StyledSpan.declarations, List.reduceOption_mem_iff, List.mem_cons,
    List.not_mem_nil, or_false] at h
  rcases h with h | h | h | h | h | h
  · obtain ⟨fg, hfg', rfl⟩ := Option.map_eq_some_iff.mp h.symm
    exact ⟨hcolor.1, hcolor.2, notMem_of_isHexColor (hfg fg hfg')⟩
  · obtain ⟨bg, hbg', rfl⟩ := Option.map_eq_some_iff.mp h.symm
    exact ⟨hbackground.1, hbackground.2, notMem_of_isHexColor (hbg bg hbg')⟩
  all_goals
    split_ifs at h
    cases h
    decide

/-- With clean colours the style attribute has the declarations that are meant. -/
theorem cssDeclarations_css {span : StyledSpan} (hfg : IsClean span.style.fg)
    (hbg : IsClean span.style.bg) : cssDeclarations span.css = span.declarations := by
  rw [css_eq, cssDeclarations]
  have hplain := fun d (h : d ∈ span.declarations) => declarations_plain hfg hbg h
  generalize span.declarations = ds at hplain ⊢
  by_cases hds : ds = []
  · subst hds
    decide
  · have hsep : ∀ l ∈ ds.map joined, ';' ∉ l := by
      intro l hl
      obtain ⟨d, hd, rfl⟩ := List.mem_map.mp hl
      obtain ⟨-, hname, hvalue⟩ := hplain d hd
      rw [joined, List.mem_append, List.mem_cons, not_or, not_or]
      exact ⟨hname, by decide, hvalue⟩
    rw [List.splitOn_intercalate ';' hsep (fun h => hds (List.map_eq_nil_iff.mp h)),
      List.filter_eq_self.mpr, List.map_map]
    · conv_rhs => rw [← List.map_id ds]
      refine List.map_congr_left (fun d hd => ?_)
      rw [Function.comp_apply, joined, Text.splitOnce_append (hplain d hd).1]
      rfl
    · intro l hl
      obtain ⟨d, -, rfl⟩ := List.mem_map.mp hl
      simp [joined]

/-- **No CSS from chat**: the colours of all spans are hexadecimal ones, and their style attributes
have the client's own declarations, exactly when nothing is shown in a colour that is taken from
other characters. -/
theorem parseFormat_clean_iff (text : Str) :
    (∀ span ∈ parseFormat text, span.Clean) ↔ HexCodes text := by
  have hstyle : ∀ span : StyledSpan, span.Clean ↔ span.style.IsClean := by
    intro span
    constructor
    · rintro ⟨hfg, hbg, -⟩ layer
      cases layer
      · exact hfg
      · exact hbg
    · intro h
      exact ⟨h .fg, h .bg, cssDeclarations_css (h .fg) (h .bg)⟩
  have hempty : (∀ layer, IsClean (({} : Style).color layer)) := by
    intro layer
    cases layer <;> exact isClean_none
  simp only [hstyle, parseFormat, Pen.clean_flush]
  rw [clean_parseLoop (Nat.le_refl _)]
  constructor
  · exact fun h => h.2.2
  · intro h
    exact ⟨⟨fun _ hspan => absurd hspan List.not_mem_nil, fun hne => absurd rfl hne⟩,
      fun layer => .inl (hempty layer), h⟩

/-- Six characters that are no colour place a message. -/
theorem declaration_from_chat : ¬ ∀ span ∈ parseFormat (str "%Z;top:0x"), span.Clean := by
  intro h
  have hclean := (h _ (List.mem_cons_self)).1
  exact absurd (isClean_some_iff.mp hclean) (by decide)

example : (parseFormat (str "%Z;top:0x")).map (fun span => cssDeclarations span.css) =
    [[(str "color", str "#"), (str "top", str "0")]] := by decide +kernel

end Repartee.Web
