import Repartee.Theme.Inert

/-!
# Message text as data

A text in the format of a chat message: it is rendered as data, character by character in one
style and without an influence on what is around it, exactly if it is inert.

## Main definitions

- `Closed`: a format whose codes are complete, whatever follows
- `SplicedBetween`: the place of the text in a format
- `RendersAs`: what is shown of a message

## Main results

- `text_is_data`: an inert text is rendered as data
- `data_iff_inert`: no other text is, in every format
-/

set_option autoImplicit false

namespace Repartee.Theme

/-! ### The text in its format -/

/-- The effects that write characters next to the text, before the first change of style. -/
def leading (acts : List Action) : List Action := acts.takeWhile Action.isPush

/-- The spans that hold the text `t` between `pre` and `post`. -/
def textSpans (pre t post : Str) : List StyledSpan :=
  let p := (actions pre).foldl Pen.act {}
  ((actions t ++ leading (actions post)).foldl Pen.act { p with spans := [] }).flush.spans

/-- The spans behind the text, in a style. -/
def laterSpans (style : StyleState) (post : Str) : List StyledSpan :=
  (((actions post).dropWhile Action.isPush).foldl Pen.act ⟨style, [], []⟩).flush.spans

theorem head_dropWhile {acts : List Action} {a : Action}
    (h : (acts.dropWhile Action.isPush).head? = some a) : a.isPush = false := by
  have hne : acts.dropWhile Action.isPush ≠ [] := by
    intro hnil
    rw [hnil] at h
    cases h
  have hhead := List.head_dropWhile_not Action.isPush hne
  rw [List.head?_eq_some_head hne, Option.some.injEq] at h
  rw [← h]
  exact hhead

/-- The spans of a text in its format: the ones before it, its own, and the ones behind it. -/
theorem spans_of_inert {t : Str} (hc : NoControls t) (h : inert t = true) (pre post : Str) :
    (((actions pre ++ actions (t ++ post)).foldl Pen.act {}).flush.spans : List StyledSpan) =
      ((actions pre).foldl Pen.act {}).spans ++
        (textSpans pre t post ++ laterSpans ((actions pre).foldl Pen.act {}).current post) := by
  have hpost : actions post = leading (actions post) ++ (actions post).dropWhile Action.isPush :=
    List.takeWhile_append_dropWhile.symm
  rw [actions_inert_append hc h, ← actions_inert hc h, List.foldl_append]
  unfold textSpans laterSpans
  generalize (actions pre).foldl Pen.act {} = p
  dsimp only
  have hp : p = ({ p with spans := [] } : Pen).after p.spans := by
    rw [Pen.after, List.append_nil]
  conv_lhs => rw [hpost, ← List.append_assoc, List.foldl_append, hp, Pen.foldl_after,
    Pen.foldl_after, Pen.flush_after]
  have hquiet : ∀ a ∈ actions t ++ leading (actions post), a.isPush = true ∨ a = .restyle id := by
    intro a ha
    rcases List.mem_append.mp ha with ha | ha
    · rw [actions_inert hc h] at ha
      exact (textActions_quiet t).1 a ha
    · exact .inl (List.mem_takeWhile_imp ha)
  have hcur := (written_foldl { p with spans := [] } hquiet).1
  have hlater := @spans_of_restyle_first ((actions post).dropWhile Action.isPush)
    ((actions t ++ leading (actions post)).foldl Pen.act { p with spans := [] })
    (fun a ha => head_dropWhile ha)
  rw [hcur] at hlater
  exact congrArg (p.spans ++ ·) hlater

/-- The spans that hold the text are in the style before it. -/
theorem styled_textSpans {t : Str} (hc : NoControls t) (h : inert t = true) (pre post : Str) :
    styled (textSpans pre t post) =
      (((actions pre).foldl Pen.act {}).buffer ++ (t ++
        (leading (actions post)).flatMap Action.text)).map
          (fun c => (c, ((actions pre).foldl Pen.act {}).current)) := by
  unfold textSpans
  generalize (actions pre).foldl Pen.act {} = p
  dsimp only
  have hquiet : ∀ a ∈ actions t ++ leading (actions post), a.isPush = true ∨ a = .restyle id := by
    intro a ha
    rcases List.mem_append.mp ha with ha | ha
    · rw [actions_inert hc h] at ha
      exact (textActions_quiet t).1 a ha
    · exact .inl (List.mem_takeWhile_imp ha)
  rw [Pen.styled_flush, (written_foldl { p with spans := [] } hquiet).2, List.flatMap_append,
    actions_inert hc h, (textActions_quiet t).2]
  simp [Pen.written]

/-! ### The nick colour -/

theorem overrideNick_append (override : Option Color) (nick : Str) (a b : List StyledSpan) :
    overrideNick override nick (a ++ b) =
      overrideNick override nick a ++ overrideNick override nick b := by
  cases override with
  | none => rfl
  | some color => exact List.map_append

/-- The nick colour meets a span that holds the text. -/
def ClashesWithNick (override : Option Color) (displayNick pre t post : Str) : Prop :=
  override.isSome = true ∧ ∃ span ∈ textSpans pre t post, isNickSpan displayNick span = true

theorem overrideNick_textSpans {override : Option Color} {nick pre t post : Str}
    (h : ¬ ClashesWithNick override nick pre t post) :
    overrideNick override nick (textSpans pre t post) = textSpans pre t post := by
  cases override with
  | none => rfl
  | some color =>
    rw [overrideNick]
    conv_rhs => rw [← List.map_id (textSpans pre t post)]
    apply List.map_congr_left
    intro span hspan
    exact if_neg (fun hnick => h ⟨rfl, span, hspan, hnick⟩)

/-- The empty span of a parser without output has no characters. -/
theorem styled_overrideNick_finish (override : Option Color) (nick : Str) (p : Pen) :
    styled (overrideNick override nick p.finish) =
      styled (overrideNick override nick p.flush.spans) := by
  unfold Pen.finish
  dsimp only
  split
  · rename_i hempty
    rw [List.isEmpty_iff.mp hempty]
    cases override <;> rfl
  · rfl

/-! ### Text as data -/

/-- Whether a token writes out a parameter. -/
def Token.mentions (idx : Nat) : Token → Bool
  | .all => true
  | .padded _ i => i = idx
  | .var i => i = idx
  | _ => false

/-- A format whose codes are complete: it is parsed as it stands, whatever follows. -/
def Closed (pre : Str) : Prop :=
  ∀ s, actions (pre ++ s) = actions pre ++ actions s ∧
    hasStray (pre ++ s) = (hasStray pre || hasStray s)

/-- The format of a message puts its text between `pre` and `post` and nowhere else; the codes
before the text are complete, and neither part crashes the parser. -/
structure SplicedBetween (uw : Widths) (msg : ChatMessage) (isOwn : Bool) (theme : ThemeFile)
    (config : DisplayConfig) (pre post : Str) : Prop where
  format : ∃ resolved before after,
    resolveAbstractions (messageFormat theme msg isOwn) theme.abstracts = some resolved ∧
    tokens resolved = before ++ Token.var 1 :: after ∧
    (∀ token ∈ before ++ after, token.mentions 1 = false) ∧
    expandAll [(nickColumn uw config msg).1, [], (nickColumn uw config msg).2] before = some pre ∧
    expandAll [(nickColumn uw config msg).1, [], (nickColumn uw config msg).2] after = some post
  closed : Closed pre
  printable : hasStray pre = false ∧ hasStray post = false

/-- A token that does not mention a parameter does not depend on it. -/
theorem expand_congr {token : Token} {nick t u mode : Str} (h : token.mentions 1 = false) :
    token.expand [nick, t, mode] = token.expand [nick, u, mode] := by
  have hget : ∀ i : Nat, i ≠ 1 → [nick, t, mode].getD i [] = [nick, u, mode].getD i [] := by
    intro i hi
    match i with
    | 0 => rfl
    | 1 => exact absurd rfl hi
    | _ + 2 => rfl
  cases token with
  | lit c => rfl
  | kept c => rfl
  | all => cases h
  | padded padWidth i => rw [Token.expand, Token.expand, hget i (by simpa [Token.mentions] using h)]
  | var i => rw [Token.expand, Token.expand, hget i (by simpa [Token.mentions] using h)]

theorem expandAll_congr {ts : List Token} {nick t u mode : Str}
    (h : ∀ token ∈ ts, token.mentions 1 = false) :
    expandAll [nick, t, mode] ts = expandAll [nick, u, mode] ts := by
  induction ts with
  | nil => rfl
  | cons token ts ih =>
    rw [List.forall_mem_cons] at h
    rw [expandAll, expandAll, expand_congr h.1, ih h.2]

/-- The text goes to its place in the format. -/
theorem SplicedBetween.substituted {uw : Widths} {msg : ChatMessage} {isOwn : Bool}
    {theme : ThemeFile} {config : DisplayConfig} {pre post : Str}
    (h : SplicedBetween uw msg isOwn theme config pre post) (t : Str) :
    ∃ resolved, resolveAbstractions (messageFormat theme msg isOwn) theme.abstracts = some resolved ∧
      substituteVars resolved [(nickColumn uw config msg).1, t, (nickColumn uw config msg).2] =
        some (pre ++ (t ++ post)) := by
  obtain ⟨resolved, before, after, hres, htok, honce, hpre, hpost⟩ := h.format
  refine ⟨resolved, hres, ?_⟩
  have hbefore : ∀ token ∈ before, token.mentions 1 = false :=
    fun token hmem => honce token (List.mem_append_left _ hmem)
  have hafter : ∀ token ∈ after, token.mentions 1 = false :=
    fun token hmem => honce token (List.mem_append_right _ hmem)
  rw [substituteVars_eq, htok, expandAll_append, expandAll_congr hbefore, hpre, Option.bind_some,
    expandAll, expandAll_congr hafter, hpost]
  rfl

/-- A message is rendered as its format is parsed, with the nick recoloured. -/
theorem renderChatMessage_eq {uw : Widths} {emotify : Str → Str} {msg : ChatMessage}
    {isOwn : Bool} {theme : ThemeFile} {config : DisplayConfig} {override : Option Color}
    {resolved : Str} (t : Str)
    (hres : resolveAbstractions (messageFormat theme msg isOwn) theme.abstracts = some resolved) :
    renderChatMessage uw emotify { msg with text := t } isOwn theme config override false =
      match parseFormatString resolved
        [(nickColumn uw config msg).1, t, (nickColumn uw config msg).2] with
      | .done spans => .done (overrideNick override (nickColumn uw config msg).1 spans)
      | .panicked => .panicked
      | .outOfFuel => .outOfFuel := by
  have hcolumn : nickColumn uw config { msg with text := t } = nickColumn uw config msg := rfl
  have hformat : messageFormat theme { msg with text := t } isOwn =
    messageFormat theme msg isOwn := rfl
  rw [renderChatMessage, hcolumn, hformat]
  generalize nickColumn uw config msg = column
  obtain ⟨nick, mode⟩ := column
  cases hparse : parseFormatString resolved [nick, t, mode] <;> simp [hres, hparse]

/-- What is shown of a message with the text `t`: some characters, each in its style. -/
def RendersAs (uw : Widths) (emotify : Str → Str) (msg : ChatMessage) (isOwn : Bool)
    (theme : ThemeFile) (config : DisplayConfig) (override : Option Color) (t : Str)
    (chars : List (Char × StyleState)) : Prop :=
  ∃ spans, renderChatMessage uw emotify { msg with text := t } isOwn theme config override false =
    .done spans ∧ styled spans = chars

/-- **Text as data**: there are styled characters before the text and behind it, and a style,
such that every inert text without control characters, unless the nick colour meets it, is
rendered between them in that style. -/
theorem text_is_data {uw : Widths} {emotify : Str → Str} {msg : ChatMessage} {isOwn : Bool}
    {theme : ThemeFile} {config : DisplayConfig} {override : Option Color} {pre post : Str}
    (h : SplicedBetween uw msg isOwn theme config pre post) :
    ∃ before style behind, ∀ t, NoControls t → inert t = true →
      ¬ ClashesWithNick override (nickColumn uw config msg).1 pre t post →
      RendersAs uw emotify msg isOwn theme config override t
        (before ++ (t.map (fun c => (c, style)) ++ behind)) := by
  let p := (actions pre).foldl Pen.act {}
  let nick := (nickColumn uw config msg).1
  refine ⟨styled (overrideNick override nick p.spans) ++ p.buffer.map (fun c => (c, p.current)),
    p.current,
    ((leading (actions post)).flatMap Action.text).map (fun c => (c, p.current)) ++
      styled (overrideNick override nick (laterSpans p.current post)), ?_⟩
  intro t hc hinert hclash
  obtain ⟨resolved, hres, hsub⟩ := h.substituted t
  obtain ⟨hactions, hstray⟩ := h.closed (t ++ post)
  have hparse : parseFormatString resolved
      [(nickColumn uw config msg).1, t, (nickColumn uw config msg).2] =
      .done ((actions pre ++ actions (t ++ post)).foldl Pen.act {}).finish := by
    rw [parseFormatString, hsub]
    refine parseText_eq_done_iff.mpr ⟨?_, by rw [hactions]⟩
    rw [hstray, hasStray_inert_append hinert, h.printable.1, h.printable.2]
    rfl
  refine ⟨_, (renderChatMessage_eq t hres).trans (by rw [hparse]), ?_⟩
  rw [styled_overrideNick_finish, spans_of_inert hc hinert, overrideNick_append,
    overrideNick_append, overrideNick_textSpans hclash, styled_append, styled_append,
    styled_textSpans hc hinert]
  simp [List.append_assoc, p, nick]

/-- A format that is an inert text is closed. -/
theorem closed_of_inert {pre : Str} (hc : NoControls pre) (h : inert pre = true) : Closed pre :=
  fun s => ⟨by rw [actions_inert_append hc h, actions_inert hc h],
    by
      have hnil := hasStray_inert_append h []
      rw [List.append_nil] at hnil
      rw [hasStray_inert_append h, hnil]
      rfl⟩

/-! ### Other texts -/

/-- A pen writes as many characters as it is told to. -/
theorem length_written_foldl (acts : List Action) (p : Pen) :
    (acts.foldl Pen.act p).written.length = p.written.length + shown acts := by
  induction acts generalizing p with
  | nil => rfl
  | cons a acts ih =>
    rw [List.foldl_cons, ih]
    cases a with
    | push c =>
      show (p.push c).written.length + shown acts = _
      rw [Pen.written_push, List.length_append, shown_push, List.length_singleton]
      omega
    | restyle f =>
      show (p.restyle f).written.length + shown acts = _
      rw [Pen.written_restyle, shown_restyle]

theorem length_styled_finish (acts : List Action) :
    (styled (acts.foldl Pen.act {}).finish).length = shown acts := by
  have hlen := length_written_foldl acts {}
  have hfinish := styled_overrideNick_finish none [] (acts.foldl Pen.act {})
  rw [overrideNick, overrideNick, Pen.styled_flush] at hfinish
  rw [hfinish, hlen]
  exact Nat.zero_add _

/-- A display in which every character is one column wide. -/
def sampleWidths : Widths := ⟨List.length, fun _ => some 1⟩

def sampleConfig : DisplayConfig := ⟨8, 8, .left, false⟩

def sampleMessage : ChatMessage := ⟨.message, some (str "bob"), none, [], false⟩

/-- A theme whose format for public messages is the text and some characters behind it. -/
def sampleTheme (post : Str) : ThemeFile :=
  ⟨Table.empty, Dict.insert Table.empty (str "pubmsg") ('$' :: '1' :: post)⟩

theorem sample_spliced {post : Str} (h : post ∈ spoilers) :
    SplicedBetween sampleWidths sampleMessage false (sampleTheme post) sampleConfig [] post := by
  rw [spoilers, List.mem_cons, List.mem_cons, List.mem_singleton] at h
  refine ⟨⟨'$' :: '1' :: post, [], post.map Token.lit, ?_, ?_, ?_, rfl, ?_⟩, fun s => ⟨?_, rfl⟩, rfl,
    ?_⟩
  · rcases h with rfl | rfl | rfl <;> decide +kernel
  · rcases h with rfl | rfl | rfl <;> decide +kernel
  · rcases h with rfl | rfl | rfl <;> decide +kernel
  · rcases h with rfl | rfl | rfl <;> decide +kernel
  · rw [actions_nil]
    rfl
  · rcases h with rfl | rfl | rfl <;> decide +kernel

/-- A spoiled text is not rendered. -/
theorem not_rendersAs_of_spoils {emotify : Str → Str} {t post : Str} (hpost : post ∈ spoilers)
    (h : Spoils t post) (before behind : List (Char × StyleState)) (style : StyleState) :
    ¬ RendersAs sampleWidths emotify sampleMessage false (sampleTheme post) sampleConfig none t
      (before ++ (t.map (fun c => (c, style)) ++ behind)) := by
  rintro ⟨spans, hrender, hstyled⟩
  obtain ⟨resolved, hres, hsub⟩ := (sample_spliced hpost).substituted t
  have hparse : parseFormatString resolved
      [(nickColumn sampleWidths sampleConfig sampleMessage).1, t,
        (nickColumn sampleWidths sampleConfig sampleMessage).2] =
      if hasStray (t ++ post) then .panicked
      else .done ((actions (t ++ post)).foldl Pen.act {}).finish := by
    rw [parseFormatString, hsub]
    exact parseText_eq (t ++ post)
  rw [renderChatMessage_eq t hres, hparse] at hrender
  rcases h with hstray | hshort
  · rw [if_pos hstray] at hrender
    cases hrender
  · split at hrender
    · rename_i spans' hdone
      split at hdone
      · cases hdone
      · cases hdone
        cases hrender
        have hlen := congrArg List.length hstyled
        rw [overrideNick, length_styled_finish, List.length_append, List.length_append,
          List.length_map] at hlen
        omega
    · cases hrender
    · cases hrender

/-- **Only inert texts are data**: the texts of a set are rendered in their place, in one style
and without an influence on what is around them, in every format exactly if all are inert. -/
theorem data_iff_inert (T : Str → Prop) (hT : ∀ t, T t → NoControls t) :
    (∀ uw emotify msg isOwn theme config override pre post,
      SplicedBetween uw msg isOwn theme config pre post →
      ∃ before style behind, ∀ t, T t →
        ¬ ClashesWithNick override (nickColumn uw config msg).1 pre t post →
        RendersAs uw emotify msg isOwn theme config override t
          (before ++ (t.map (fun c => (c, style)) ++ behind))) ↔
      ∀ t, T t → inert t = true := by
  constructor
  · intro hdata t ht
    by_contra hinert
    obtain ⟨post, hpost, hspoils⟩ := exists_spoiler (hT t ht) (eq_false_of_ne_true hinert)
    obtain ⟨before, style, behind, hrender⟩ := hdata sampleWidths id sampleMessage false
      (sampleTheme post) sampleConfig none [] post (sample_spliced hpost)
    exact not_rendersAs_of_spoils hpost hspoils before behind style
      (hrender t ht (fun h => nomatch h.1))
  · intro hinert uw emotify msg isOwn theme config override pre post hspliced
    obtain ⟨before, style, behind, hrender⟩ :=
      @text_is_data uw emotify msg isOwn theme config override pre post hspliced
    exact ⟨before, style, behind, fun t ht => hrender t (hT t ht) (hinert t ht)⟩

/-- A theme without formats of its own. -/
def plainTheme : ThemeFile := ⟨Table.empty, Table.empty⟩

theorem plain_spliced :
    SplicedBetween sampleWidths sampleMessage false plainTheme sampleConfig (str "bob      ") [] where
  format := ⟨str "$0 $1", [.var 0, .lit ' '], [], by decide +kernel, by decide +kernel,
    by decide +kernel, by decide +kernel, by decide +kernel⟩
  closed := closed_of_inert (noControls_of_all (by decide +kernel)) (by decide +kernel)
  printable := by decide +kernel

/-- Texts with percent and dollar signs that form no codes. -/
def prices : List Str := [str "50% off", str "100 % for $1", str "%Zoom"]

theorem prices_are_data :
    ∃ before style behind, ∀ t ∈ prices,
      RendersAs sampleWidths id sampleMessage false plainTheme sampleConfig none t
        (before ++ (t.map (fun c => (c, style)) ++ behind)) := by
  have hall : ∀ t ∈ prices, t.all (fun c => 0x20 ≤ c.toNat) = true := by decide +kernel
  have hcontrols : ∀ t ∈ prices, NoControls t := fun t ht => noControls_of_all (hall t ht)
  have hinert : ∀ t ∈ prices, inert t = true := by decide +kernel
  obtain ⟨before, style, behind, hrender⟩ := (data_iff_inert (· ∈ prices) hcontrols).mpr hinert
    sampleWidths id sampleMessage false plainTheme sampleConfig none _ _ plain_spliced
  exact ⟨before, style, behind, fun t ht => hrender t ht (fun hclash => nomatch hclash.1)⟩

/-- The percent signs of a text are read as codes. -/
theorem percent_text_is_lost :
    NoControls (str "%rred") ∧
      ∃ spans, renderChatMessage sampleWidths id { sampleMessage with text := str "%rred" } false
        plainTheme sampleConfig none false = .done spans ∧
        ¬ str "%rred" <:+: spans.flatMap StyledSpan.text := by
  refine ⟨noControls_of_all (by decide +kernel), [⟨str "bob      ", {}⟩,
    ⟨str "red", { fg := hexToColor (str "#aa0000") }⟩], ?_, by decide +kernel⟩
  decide +kernel

end Repartee.Theme
