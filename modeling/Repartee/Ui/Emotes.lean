import Repartee.Lib.Pairs
import Repartee.Lib.Text
import Repartee.Ui.Wrap

/-!
# Inline emotes

`emotes/parse.rs`, `emotify_message_text` and `ui/emote_layout.rs`: known names between colons are
rewritten into runs of private-use characters, wrapped with the text, and found again in the
visual lines. The terminal tells which characters are a grapheme; a combining character belongs
to what stands in front of it, also to a placeholder.

## Main definitions

- `tokenize`, `emotifyMessageText`: the text with a pair of placeholders for each known name
- `resolvePlacements`: where the emotes are drawn
- `EmotesSurvive`: what is promised of the placements
- `Undisturbed`: the placeholders of the rewritten text are those of its known names
- `EmotesFit`: no run of one emote is cut at an odd column

## Main results

- `Clean.undisturbed`: texts without typed placeholders or combining characters are undisturbed
- `wrapLine_pairedLine_iff`: no visual line cuts a pair exactly if the runs of emotes fit
- `emotes_survive_iff`: the emotes survive exactly if the text is undisturbed and the runs fit
-/

set_option autoImplicit false

namespace Repartee

namespace Layout

/-! ### Tokens -/

/-- Literal text, or the name of an emote. -/
inductive Segment where
  | text (s : Str)
  | emote (name : Str)
  deriving DecidableEq

/-- What a segment stands for in the text. -/
def Segment.source : Segment → Str
  | .text s => s
  | .emote name => ':' :: (name ++ [':'])

def isNameChar (c : Char) : Bool := ('a' ≤ c && c ≤ 'z') || c.isDigit || c = '_'

def textSegment (s : Str) : List Segment := if s = [] then [] else [.text s]

/-- The loop of `tokenize_with`, with the literal text that has not been put out yet. -/
def tokenizeFrom (isKnown : Str → Bool) : (fuel : Nat) → (pending rest : Str) → List Segment
  | 0, pending, rest => textSegment (pending ++ rest)
  | _ + 1, pending, [] => textSegment pending
  | fuel + 1, pending, c :: rest =>
    if c = ':' then
      match rest.dropWhile isNameChar with
      | ':' :: after =>
        if rest.takeWhile isNameChar ≠ [] ∧ isKnown (rest.takeWhile isNameChar) = true then
          textSegment pending ++
            .emote (rest.takeWhile isNameChar) :: tokenizeFrom isKnown fuel [] after
        else tokenizeFrom isKnown fuel (pending ++ [c]) rest
      | _ => tokenizeFrom isKnown fuel (pending ++ [c]) rest
    else tokenizeFrom isKnown fuel (pending ++ [c]) rest

def tokenizeWith (isKnown : Str → Bool) (text : Str) : List Segment :=
  tokenizeFrom isKnown text.length [] text

/-- The emotes that are built in: their names, and the English names of some of them. -/
structure Registry where
  names : List Str
  english : Str → Option Nat
  few : names.length ≤ puaMax - puaBase + 1
  inside : ∀ name i, english name = some i → i < names.length

namespace Registry

variable (reg : Registry)

/-- `emotes::resolve` -/
def resolve (name : Str) : Option Nat :=
  match reg.names.idxOf? name with
  | some i => some i
  | none => reg.english name

def contains (name : Str) : Bool := (reg.resolve name).isSome

def tokenize (text : Str) : List Segment := tokenizeWith reg.contains text

/-- The emotes that a text names, in order. -/
def tokens (text : Str) : List Nat :=
  (reg.tokenize text).filterMap fun
    | .emote name => reg.resolve name
    | .text _ => none

end Registry

/-! ### Placeholders -/

def emoteCols : Nat := 2

/-- The character that stands for an emote. -/
def placeholderChar (index : Nat) : Char :=
  if (puaBase + index).isValidChar then Char.ofNat (puaBase + index) else Char.ofNat 0xFFFD

/-- `placeholder_for_index` -/
def placeholderForIndex (index : Nat) : Str := List.replicate emoteCols (placeholderChar index)

/-- What a segment is rewritten into. -/
def Registry.rewrite (reg : Registry) : Segment → Str
  | .text s => s
  | .emote name =>
    match reg.resolve name with
    | some idx => placeholderForIndex idx
    | none => ':' :: (name ++ [':'])

/-- `emotify_message_text` -/
def emotifyMessageText (reg : Registry) (text : Str) (graphical : Bool) : Str :=
  if graphical = false ∨ ':' ∉ text then text
  else if (reg.tokenize text).any (fun seg => seg matches .emote _) then
    (reg.tokenize text).flatMap reg.rewrite
  else text

/-- The terminal: which characters are a grapheme, and how wide it is. Private-use characters take
one column. -/
structure Terminal extends Measure where
  graphemes : Str → List Grapheme
  flatten : ∀ s, (graphemes s).flatMap Subtype.val = s
  placeholder : ∀ g i, decodePlaceholderGrapheme g = some i → width g = 1

variable {σ : Type}

/-- The emote that a grapheme is a placeholder of. -/
def emoteOf (c : StyledChar σ) : Option Nat := decodePlaceholderGrapheme c.grapheme

/-- The line of a message: its text, rewritten. -/
def messageLine (reg : Registry) (t : Terminal) (text : Str) (style : σ) : Line σ :=
  [⟨t.graphemes (emotifyMessageText reg text true), style⟩]

/-! ### Placements -/

structure Rect where
  x : Nat
  y : Nat
  width : Nat
  height : Nat
  deriving DecidableEq

structure EmotePlacement where
  emoteIndex : Nat
  rect : Rect
  deriving DecidableEq

/-- `u16::try_from`, or the largest `u16`. -/
def toU16 (n : Nat) : Nat := min n 65535

/-- The run of one placeholder that is being read: its emote, where it starts, how wide it is. -/
abbrev Run := Option (Nat × Nat × Nat)

/-- `flush_run` -/
def flushRun (y areaX : Nat) : Run → List EmotePlacement
  | none => []
  | some (idx, start, w) => [⟨idx, ⟨min (areaX + toU16 start) 65535, y, toU16 w, 1⟩⟩]

/-- The placements in a row, from a column and with a run that is being read. -/
def resolveRow (y areaX : Nat) : (col : Nat) → Run → List (StyledChar σ) → List EmotePlacement
  | _, run, [] => flushRun y areaX run
  | col, run, c :: chars =>
    match emoteOf c, run with
    | some idx, some (cur, start, w) =>
      if cur = idx ∧ w + c.width ≤ emoteCols then
        resolveRow y areaX (col + c.width) (some (cur, start, w + c.width)) chars
      else
        flushRun y areaX run ++
          resolveRow y areaX (col + c.width) (some (idx, col, c.width)) chars
    | some idx, none => resolveRow y areaX (col + c.width) (some (idx, col, c.width)) chars
    | none, run => flushRun y areaX run ++ resolveRow y areaX (col + c.width) none chars

/-- The placements in some rows, from a row on. -/
def resolveRows (m : Measure) (area : Rect) : (row : Nat) → List (Line σ) → List EmotePlacement
  | _, [] => []
  | row, line :: lines =>
    if area.height ≤ row then []
    else
      resolveRow (area.y + toU16 row) area.x 0 none (line.styledChars m) ++
        resolveRows m area (row + 1) lines

/-- `resolve_placements` -/
def resolvePlacements (m : Measure) (lines : List (Line σ)) (area : Rect) : List EmotePlacement :=
  resolveRows m area 0 lines

/-! ### What the text is rewritten into -/

theorem decode_placeholderChar {index : Nat} (h : index ≤ puaMax - puaBase) :
    decodePlaceholderIndex (placeholderChar index) = some index := by
  have hbase : puaBase = 0xF0000 := rfl
  have hmax : puaMax = 0xFFFFD := rfl
  have hvalid : (puaBase + index).isValidChar := by
    right
    omega
  have hnat : (placeholderChar index).toNat = puaBase + index := by
    rw [placeholderChar, if_pos hvalid, Char.ofNat, dif_pos hvalid]
    rfl
  rw [decodePlaceholderIndex, hnat, if_pos (by omega), Nat.add_sub_cancel_left]

theorem Registry.resolve_le {reg : Registry} {name : Str} {idx : Nat}
    (h : reg.resolve name = some idx) : idx ≤ puaMax - puaBase := by
  have hfew := reg.few
  have hlt : idx < reg.names.length := by
    unfold Registry.resolve at h
    split at h
    · rename_i i hi
      obtain ⟨hi, -⟩ := List.idxOf?_eq_some_iff.mp hi
      rwa [← Option.some.inj h]
    · exact reg.inside name idx h
  omega

theorem source_textSegment (s : Str) : (textSegment s).flatMap Segment.source = s := by
  unfold textSegment
  split
  · rename_i hs
    rw [hs]
    rfl
  · simp [Segment.source]

/-- The segments make up the text. -/
theorem source_tokenizeFrom (isKnown : Str → Bool) (fuel : Nat) (pending rest : Str)
    (hfuel : rest.length ≤ fuel) :
    (tokenizeFrom isKnown fuel pending rest).flatMap Segment.source = pending ++ rest := by
  induction fuel generalizing pending rest with
  | zero => rw [tokenizeFrom, source_textSegment]
  | succ fuel ih =>
    cases rest with
    | nil => rw [tokenizeFrom, source_textSegment, List.append_nil]
    | cons c rest =>
      have hlen : rest.length ≤ fuel := by simpa using hfuel
      have hskip : (tokenizeFrom isKnown fuel (pending ++ [c]) rest).flatMap Segment.source =
          pending ++ c :: rest := by
        rw [ih _ _ hlen]
        simp
      rw [tokenizeFrom]
      split
      · rename_i hc
        split
        · rename_i after hafter
          split
          · have hrest : rest = rest.takeWhile isNameChar ++ ':' :: after := by
              rw [← hafter, List.takeWhile_append_dropWhile]
            have hlen' : after.length ≤ fuel := by
              have hcount := congrArg List.length hrest
              simp only [List.length_append, List.length_cons] at hcount
              omega
            rw [List.flatMap_append, List.flatMap_cons, source_textSegment, ih _ _ hlen', hc]
            conv_rhs => rw [hrest]
            simp [Segment.source]
          · exact hskip
        · exact hskip
      · exact hskip

/-- The graphemes of a segment, where nothing combines across its ends. -/
def Registry.graphemesOf (reg : Registry) (t : Terminal) : Segment → List Grapheme
  | .text s => t.graphemes s
  | .emote name =>
    match reg.resolve name with
    | some idx => List.replicate emoteCols ⟨[placeholderChar idx], List.cons_ne_nil _ _⟩
    | none => []

/-- The placeholders of the known names are graphemes of their own, and no other grapheme of the
text looks like one. -/
structure Clean (reg : Registry) (t : Terminal) (text : Str) : Prop where
  apart : t.graphemes (emotifyMessageText reg text true) =
    (reg.tokenize text).flatMap (reg.graphemesOf t)
  plain : ∀ s, .text s ∈ reg.tokenize text → ∀ g ∈ t.graphemes s,
    decodePlaceholderGrapheme g = none

/-- The graphemes of the rewritten text that look like placeholders are pairs for the known names:
none is typed, and nothing combines with one. -/
def Undisturbed (reg : Registry) (t : Terminal) (text : Str) : Prop :=
  Paired decodePlaceholderGrapheme (t.graphemes (emotifyMessageText reg text true))
    (reg.tokens text)

theorem Clean.undisturbed {reg : Registry} {t : Terminal} {text : Str} (h : Clean reg t text) :
    Undisturbed reg t text := by
  have hparts (segs : List Segment)
      (hplain : ∀ s, .text s ∈ segs → ∀ g ∈ t.graphemes s, decodePlaceholderGrapheme g = none) :
      Paired decodePlaceholderGrapheme (segs.flatMap (reg.graphemesOf t))
        (segs.filterMap fun
          | .emote name => reg.resolve name
          | .text _ => none) := by
    induction segs with
    | nil => exact .nil
    | cons seg segs ih =>
      have hrest := ih fun s hs => hplain s (List.mem_cons_of_mem _ hs)
      rw [List.flatMap_cons]
      cases seg with
      | text s => exact (Paired.of_plain (hplain s List.mem_cons_self)).append hrest
      | emote name =>
        cases hname : reg.resolve name with
        | none => simpa [Registry.graphemesOf, hname] using hrest
        | some idx =>
          have hdec := decode_placeholderChar (Registry.resolve_le hname)
          have hpair : Paired decodePlaceholderGrapheme (List.replicate emoteCols
              (⟨[placeholderChar idx], List.cons_ne_nil _ _⟩ : Grapheme)) [idx] :=
            .pair hdec hdec .nil
          simpa [Registry.graphemesOf, hname] using hpair.append hrest
  rw [Undisturbed, h.apart]
  exact hparts (reg.tokenize text) h.plain

theorem undisturbed_iff {reg : Registry} {t : Terminal} {text : Str} (style : σ) :
    Undisturbed reg t text ↔
      Paired emoteOf (Line.styledChars t.toMeasure (messageLine reg t text style))
        (reg.tokens text) := by
  rw [messageLine, styledChars_singleton, Paired.map_iff]
  exact Iff.rfl

/-! ### Rows -/

/-- Placeholders take one column. -/
def OneColumn (chars : List (StyledChar σ)) : Prop :=
  ∀ c ∈ chars, ∀ i, emoteOf c = some i → c.width = 1

theorem oneColumn_styledChars (t : Terminal) (line : Line σ) :
    OneColumn (line.styledChars t.toMeasure) := by
  intro c hc i hi
  rw [measured_styledChars line c hc]
  exact t.placeholder c.grapheme i hi

/-- A run that is as wide as an emote is over. -/
theorem resolveRow_full {y areaX col : Nat} {run : Run} {chars : List (StyledChar σ)}
    (hrun : ∀ r ∈ run, r.2.2 = emoteCols) (hone : OneColumn chars) :
    resolveRow y areaX col run chars =
      flushRun y areaX run ++ resolveRow y areaX col none chars := by
  cases chars with
  | nil => simp [resolveRow, flushRun]
  | cons c chars =>
    cases hc : emoteOf c with
    | none => simp [resolveRow, hc, flushRun]
    | some idx =>
      have hwidth : c.width = 1 := hone c List.mem_cons_self idx hc
      match run with
      | none => simp [resolveRow, hc, flushRun]
      | some (cur, start, w) =>
        have hw : w = emoteCols := hrun _ rfl
        have hfull : ¬ (cur = idx ∧ w + c.width ≤ emoteCols) := by
          rintro ⟨-, hle⟩
          omega
        simp only [resolveRow, hc, if_neg hfull]

theorem resolveRow_pair {y areaX col i : Nat} {a b : StyledChar σ} {chars : List (StyledChar σ)}
    (hone : OneColumn (a :: b :: chars)) (ha : emoteOf a = some i) (hb : emoteOf b = some i) :
    resolveRow y areaX col none (a :: b :: chars) =
      flushRun y areaX (some (i, col, emoteCols)) ++
        resolveRow y areaX (col + emoteCols) none chars := by
  have hwa : a.width = 1 := hone a (by simp) i ha
  have hwb : b.width = 1 := hone b (by simp) i hb
  have hrest : OneColumn chars := fun c hc => hone c (by simp [hc])
  have hroom : True ∧ 1 + b.width ≤ emoteCols := ⟨trivial, by rw [hwb]; decide⟩
  have hstep : resolveRow y areaX col none (a :: b :: chars) =
      resolveRow y areaX (col + emoteCols) (some (i, col, emoteCols)) chars := by
    simp only [resolveRow, ha, hb, hwa]
    rw [if_pos hroom, hwb]
    rfl
  rw [hstep]
  exact resolveRow_full (by simp) hrest

/-- Placements of one row between two columns, from left to right. -/
structure InRow (y areaX lo hi : Nat) (placements : List EmotePlacement) : Prop where
  whole : ∀ p ∈ placements, p.rect.y = y ∧ p.rect.width = emoteCols ∧ p.rect.height = 1 ∧
    areaX + lo ≤ p.rect.x ∧ p.rect.x + emoteCols ≤ areaX + hi
  order : placements.Pairwise (fun p q => p.rect.x + p.rect.width ≤ q.rect.x)

theorem InRow.mono {y areaX lo lo' hi hi' : Nat} {placements : List EmotePlacement}
    (h : InRow y areaX lo hi placements) (hlo : lo' ≤ lo) (hhi : hi ≤ hi') :
    InRow y areaX lo' hi' placements := by
  refine ⟨fun p hp => ?_, h.order⟩
  obtain ⟨hy, hw, hh, hleft, hright⟩ := h.whole p hp
  exact ⟨hy, hw, hh, by omega, by omega⟩

theorem resolveRow_of_plain {y areaX col : Nat} {chars : List (StyledChar σ)}
    (h : ∀ c ∈ chars, emoteOf c = none) : resolveRow y areaX col none chars = [] := by
  induction chars generalizing col with
  | nil => rfl
  | cons c chars ih =>
    obtain ⟨hc, hchars⟩ := List.forall_mem_cons.mp h
    simp [resolveRow, hc, flushRun, ih hchars]

/-- Pairs of placeholders are resolved to an emote each. -/
theorem resolveRow_of_paired {y areaX : Nat} {chars : List (StyledChar σ)} {is : List Nat}
    (h : Paired emoteOf chars is) (hone : OneColumn chars) {col : Nat}
    (hroom : areaX + (col + columns chars) ≤ 65535) :
    (resolveRow y areaX col none chars).map EmotePlacement.emoteIndex = is ∧
      InRow y areaX col (col + columns chars) (resolveRow y areaX col none chars) := by
  induction h generalizing col with
  | nil => exact ⟨rfl, by simp [resolveRow, flushRun], by simp [resolveRow, flushRun]⟩
  | @plain a as is ha _ ih =>
    have hrest : OneColumn as := fun c hc => hone c (List.mem_cons_of_mem _ hc)
    rw [columns_cons] at hroom ⊢
    obtain ⟨hindex, hrow⟩ := @ih hrest (col + a.width) (by omega)
    have hstep : resolveRow y areaX col none (a :: as) =
        resolveRow y areaX (col + a.width) none as := by
      simp [resolveRow, ha, flushRun]
    rw [hstep, ← Nat.add_assoc]
    exact ⟨hindex, hrow.mono (Nat.le_add_right _ _) (Nat.le_refl _)⟩
  | @pair a b i as is ha hb _ ih =>
    have hwa : a.width = 1 := hone a (by simp) i ha
    have hwb : b.width = 1 := hone b (by simp) i hb
    have hrest : OneColumn as := fun c hc => hone c (by simp [hc])
    have hcols : columns (a :: b :: as) = emoteCols + columns as := by
      rw [columns_cons, columns_cons, hwa, hwb, ← Nat.add_assoc]
      rfl
    rw [hcols] at hroom ⊢
    obtain ⟨hindex, hrow⟩ := @ih hrest (col + emoteCols) (by omega)
    have hx : min (areaX + toU16 col) 65535 = areaX + col := by
      unfold toU16
      omega
    rw [resolveRow_pair hone ha hb, ← Nat.add_assoc]
    refine ⟨by simp [flushRun, hindex], ?_, ?_⟩
    · intro p hp
      rcases List.mem_append.mp hp with hp | hp
      · rw [flushRun, List.mem_singleton] at hp
        subst hp
        refine ⟨rfl, rfl, rfl, ?_, ?_⟩
        · show areaX + col ≤ min (areaX + toU16 col) 65535
          omega
        · show min (areaX + toU16 col) 65535 + emoteCols ≤ _
          omega
      · exact (hrow.mono (Nat.le_add_right _ _) (Nat.le_refl _)).whole p hp
    · rw [flushRun, List.singleton_append, List.pairwise_cons]
      refine ⟨?_, hrow.order⟩
      intro p hp
      obtain ⟨-, -, -, hleft, -⟩ := hrow.whole p hp
      show min (areaX + toU16 col) 65535 + emoteCols ≤ p.rect.x
      omega

/-- Only pairs of placeholders are resolved to emotes of full width. -/
theorem paired_of_resolveRow {y areaX : Nat} : ∀ (chars : List (StyledChar σ)) (col : Nat),
    OneColumn chars →
    (∀ p ∈ resolveRow y areaX col none chars, p.rect.width = emoteCols) →
      ∃ is, Paired emoteOf chars is
  | [], _, _, _ => ⟨[], .nil⟩
  | [c], col, hone, h => by
    cases hc : emoteOf c with
    | none => exact ⟨[], .plain hc .nil⟩
    | some i =>
      -- half an emote
      have hwidth : c.width = 1 := hone c (by simp) i hc
      have hhalf := h ⟨i, ⟨min (areaX + toU16 col) 65535, y, toU16 c.width, 1⟩⟩
        (by simp [resolveRow, hc, flushRun])
      simp [hwidth, toU16, emoteCols] at hhalf
  | c :: d :: chars, col, hone, h => by
    have hrest : OneColumn (d :: chars) := fun e he => hone e (List.mem_cons_of_mem _ he)
    cases hc : emoteOf c with
    | none =>
      have hstep : resolveRow y areaX col none (c :: d :: chars) =
          resolveRow y areaX (col + c.width) none (d :: chars) := by
        simp [resolveRow, hc, flushRun]
      obtain ⟨is, his⟩ := paired_of_resolveRow (d :: chars) (col + c.width) hrest (hstep ▸ h)
      exact ⟨is, .plain hc his⟩
    | some i =>
      have hwidth : c.width = 1 := hone c (by simp) i hc
      by_cases hd : emoteOf d = some i
      · rw [resolveRow_pair hone hc hd] at h
        have hlater : OneColumn chars := fun e he => hone e (by simp [he])
        obtain ⟨is, his⟩ := paired_of_resolveRow chars (col + emoteCols) hlater
          fun p hp => h p (List.mem_append_right _ hp)
        exact ⟨i :: is, .pair hc hd his⟩
      · -- the run is over behind half an emote
        have hflush : (⟨i, ⟨min (areaX + toU16 col) 65535, y, toU16 c.width, 1⟩⟩ :
            EmotePlacement) ∈ resolveRow y areaX col none (c :: d :: chars) := by
          cases hd' : emoteOf d with
          | none => simp [resolveRow, hc, hd', flushRun]
          | some j =>
            have hne : ¬ (i = j ∧ c.width + d.width ≤ emoteCols) := by
              rintro ⟨rfl, -⟩
              exact hd hd'
            simp [resolveRow, hc, hd', if_neg hne, flushRun]
        have hhalf := h _ hflush
        simp [hwidth, toU16, emoteCols] at hhalf

/-! ### Where runs of one emote are cut -/

theorem runStart_spec (chars : List (StyledChar σ)) (idx e : Nat) :
    (∀ j, runStart chars idx e ≤ j → j < e → placeholderAt chars j = some idx) ∧
      (0 < runStart chars idx e →
        placeholderAt chars (runStart chars idx e - 1) ≠ some idx) := by
  induction e with
  | zero => exact ⟨by simp, by simp [runStart]⟩
  | succ e ih =>
    rw [runStart]
    split
    · rename_i hidx
      refine ⟨fun j hle hj => ?_, ih.2⟩
      by_cases hje : j = e
      · rw [hje, hidx]
      · exact ih.1 j hle (by omega)
    · rename_i hidx
      refine ⟨fun j hle hj => ?_, fun _ => by simpa using hidx⟩
      omega

/-- As many graphemes fit as are not too wide together. -/
theorem le_fitting {lineWidth used k : Nat} {chars : List (StyledChar σ)}
    (h : used + columns (chars.take k) ≤ lineWidth) (hk : k ≤ chars.length) :
    k ≤ fitting lineWidth used chars := by
  induction chars generalizing used k with
  | nil =>
    have hzero : k = 0 := by simpa using hk
    rw [hzero]
    exact Nat.zero_le _
  | cons c chars ih =>
    cases k with
    | zero => exact Nat.zero_le _
    | succ k =>
      rw [List.take_succ_cons, columns_cons] at h
      have hroom : ¬ lineWidth < used + c.width := by omega
      rw [fitting, if_neg hroom]
      exact Nat.succ_le_succ (ih (by omega) (by simpa using hk))

theorem OneColumn.subset {chars chars' : List (StyledChar σ)} (h : OneColumn chars)
    (hsub : chars' ⊆ chars) : OneColumn chars' :=
  fun c hc => h c (hsub hc)

theorem columns_of_allLabelled {i : Nat} {block : List (StyledChar σ)} (hone : OneColumn block)
    (h : AllLabelled emoteOf i block) : columns block = block.length := by
  induction block with
  | nil => rfl
  | cons c block ih =>
    have hc : c.width = 1 := hone c List.mem_cons_self i (h c List.mem_cons_self)
    have hrest := ih (hone.subset (List.subset_cons_self _ _))
      (fun d hd => h d (List.mem_cons_of_mem _ hd))
    rw [columns_cons, hc, hrest, List.length_cons, Nat.add_comm]

theorem placeholderAt_eq {chars : List (StyledChar σ)} {j : Nat} {c : StyledChar σ}
    (h : chars[j]? = some c) : placeholderAt chars j = emoteOf c := by
  rw [placeholderAt, h]
  rfl

theorem allLabelled_take_iff {chars : List (StyledChar σ)} {i k : Nat} (hk : k ≤ chars.length) :
    AllLabelled emoteOf i (chars.take k) ↔ ∀ j, j < k → placeholderAt chars j = some i := by
  constructor
  · intro h j hj
    have hlt : j < chars.length := by omega
    rw [placeholderAt_eq (List.getElem?_eq_getElem hlt)]
    exact h _ (List.mem_take_iff_getElem.mpr ⟨j, by omega, rfl⟩)
  · intro h c hc
    obtain ⟨j, hj, rfl⟩ := List.mem_take_iff_getElem.mp hc
    have hat := h j (by omega)
    rwa [placeholderAt_eq (List.getElem?_eq_getElem (by omega))] at hat

/-- A run of one emote is as wide as it is long. -/
theorem columns_take_of_run {chars : List (StyledChar σ)} {i n k : Nat} (hone : OneColumn chars)
    (hn : n ≤ chars.length) (hrun : ∀ j, j < n → placeholderAt chars j = some i) (hk : k ≤ n) :
    columns (chars.take k) = k := by
  have hlabel : AllLabelled emoteOf i (chars.take k) :=
    (allLabelled_take_iff (by omega)).mpr fun j hj => hrun j (by omega)
  rw [columns_of_allLabelled (hone.subset (List.take_subset _ _)) hlabel, List.length_take]
  omega

/-- A line that does not hold the whole run that it begins with is filled by it. -/
theorem chunkEnd_of_run {lineWidth i n : Nat} {chars : List (StyledChar σ)} (hwidth : 1 ≤ lineWidth)
    (hone : OneColumn chars) (hn : n ≤ chars.length)
    (hrun : ∀ j, j < n → placeholderAt chars j = some i)
    (hshort : lineWidth < n ∨ chunkEnd lineWidth chars < n) :
    chunkEnd lineWidth chars = lineWidth := by
  have hcols {k : Nat} (hk : k ≤ n) : columns (chars.take k) = k :=
    columns_take_of_run hone hn hrun hk
  have hchunk : fitting lineWidth 0 chars ≤ chunkEnd lineWidth chars := by
    unfold chunkEnd
    split <;> omega
  have hlower : min lineWidth n ≤ fitting lineWidth 0 chars :=
    le_fitting (by rw [hcols (Nat.min_le_right _ _)]; omega) (by omega)
  -- what fits is as wide as it is long, so it cannot be longer than the line
  have hupper : fitting lineWidth 0 chars ≤ lineWidth := by
    by_contra hlt
    have hfit := columns_take_fitting lineWidth 0 chars (Nat.zero_le _)
    have hmono := columns_take_le chars (Nat.not_le.mp hlt)
    rw [Nat.succ_eq_add_one, hcols (by omega)] at hmono
    omega
  unfold chunkEnd at hshort hchunk ⊢
  split <;> omega

/-- On the two sides of a cut there are not two placeholders of one emote. -/
def CleanCut (chars : List (StyledChar σ)) (stop : Nat) : Prop :=
  ∀ i, placeholderAt chars (stop - 1) = some i → placeholderAt chars stop ≠ some i

/-- A line is cut cleanly, or within a run of one emote that it begins with. -/
theorem actualEnd_cases {lineWidth : Nat} {chars : List (StyledChar σ)} (hwidth : 1 ≤ lineWidth)
    (hone : OneColumn chars) (hmore : chunkEnd lineWidth chars < chars.length) :
    CleanCut chars (actualEnd lineWidth chars) ∨
      ∃ i, actualEnd lineWidth chars = lineWidth ∧ lineWidth < chars.length ∧
        AllLabelled emoteOf i (chars.take (lineWidth + 1)) := by
  cases hb : lastBreak (chars.take (chunkEnd lineWidth chars)) with
  | some b =>
    left
    intro i hi
    obtain ⟨c, hat, hc⟩ := getElem?_of_break hb
    rw [actualEnd_of_break hb, placeholderAt_eq hat] at hi
    have hnone : emoteOf c = none := space_not_placeholder hc
    simp [hnone] at hi
  | none =>
    have hpos := chunkEnd_pos lineWidth chars
    have hstop : ¬ (chunkEnd lineWidth chars = 0 ∨
        chars.length ≤ chunkEnd lineWidth chars) := by omega
    rw [actualEnd_of_no_break hb, avoidSplittingPlaceholder, if_neg hstop]
    cases hidx : placeholderAt chars (chunkEnd lineWidth chars) with
    | none =>
      left
      intro i _
      simp [hidx]
    | some idx =>
      obtain ⟨hrun, hbefore⟩ := runStart_spec chars idx (chunkEnd lineWidth chars)
      have hle := runStart_le chars idx (chunkEnd lineWidth chars)
      dsimp only
      split
      · rename_i hdiff
        left
        intro i hi heq
        rw [hidx] at heq
        exact hdiff (hi.trans heq.symm)
      split
      · -- the run begins with the line, which it fills
        rename_i hzero
        right
        have hall : ∀ j, j < chunkEnd lineWidth chars + 1 → placeholderAt chars j = some idx := by
          intro j hj
          by_cases hje : j = chunkEnd lineWidth chars
          · rw [hje, hidx]
          · exact hrun j (by omega) (by omega)
        have hlabel := (allLabelled_take_iff (i := idx) (by omega)).mpr hall
        have heq := chunkEnd_of_run hwidth hone (by omega) hall (Or.inr (Nat.lt_succ_self _))
        rw [heq] at hlabel hmore ⊢
        exact ⟨idx, rfl, hmore, hlabel⟩
      · rename_i hpos'
        left
        have hpos' := Nat.pos_of_ne_zero hpos'
        have hat : placeholderAt chars (runStart chars idx (chunkEnd lineWidth chars)) =
            some idx := by
          by_cases hend : runStart chars idx (chunkEnd lineWidth chars) =
              chunkEnd lineWidth chars
          · rw [hend, hidx]
          · exact hrun _ (Nat.le_refl _) (by omega)
        intro i hi heq
        rw [hat] at heq
        exact hbefore hpos' (hi.trans heq.symm)

/-- A line that begins with a longer run of one emote is cut within the run. -/
theorem actualEnd_of_run {lineWidth i : Nat} {chars : List (StyledChar σ)} (hwidth : 1 ≤ lineWidth)
    (hone : OneColumn chars) (hlong : lineWidth < chars.length)
    (hrun : AllLabelled emoteOf i (chars.take (lineWidth + 1))) :
    chunkEnd lineWidth chars = lineWidth ∧ actualEnd lineWidth chars = lineWidth := by
  have hall := (allLabelled_take_iff (by omega)).mp hrun
  have hchunk := chunkEnd_of_run hwidth hone (by omega) hall (Or.inl (Nat.lt_succ_self _))
  refine ⟨hchunk, ?_⟩
  have hb : lastBreak (chars.take (chunkEnd lineWidth chars)) = none := by
    cases hb : lastBreak (chars.take (chunkEnd lineWidth chars)) with
    | none => rfl
    | some b =>
      obtain ⟨pre, c, post, heq, -, hc, -⟩ := lastBreak_eq_some hb
      have hmem : c ∈ chars.take (lineWidth + 1) := by
        apply List.take_subset_take_left chars (Nat.le_succ lineWidth)
        rw [← hchunk, heq]
        simp
      have hlabel := hrun c hmem
      have hnone : emoteOf c = none := space_not_placeholder hc
      simp [hnone] at hlabel
  have hstop : ¬ (lineWidth = 0 ∨ chars.length ≤ lineWidth) := by omega
  have hzero : runStart chars i lineWidth = 0 := by
    by_contra hne
    have hle := runStart_le chars i lineWidth
    exact (runStart_spec chars i lineWidth).2 (Nat.pos_of_ne_zero hne) (hall _ (by omega))
  rw [actualEnd_of_no_break hb, hchunk, avoidSplittingPlaceholder, if_neg hstop,
    hall lineWidth (Nat.lt_succ_self _)]
  dsimp only
  rw [if_neg (not_not.mpr (hall _ (by omega))), if_pos hzero]

/-- A clean cut goes through no pair of placeholders. -/
theorem CleanCut.paired {chars : List (StyledChar σ)} {is : List Nat} {stop : Nat}
    (h : CleanCut chars stop) (hpaired : Paired emoteOf chars is) (hpos : 0 < stop)
    (hlen : stop ≤ chars.length) :
    ∃ is₁ is₂, Paired emoteOf (chars.take stop) is₁ ∧ Paired emoteOf (chars.drop stop) is₂ ∧
      is = is₁ ++ is₂ := by
  rw [← List.take_append_drop stop chars] at hpaired
  apply hpaired.split_of_ne
  intro a ha b hb i hai
  have hlast : chars[stop - 1]? = some a := by
    have hlt : stop - 1 < chars.length := by omega
    rw [List.getLast?_take, if_neg (by omega), List.getElem?_eq_getElem hlt] at ha
    rw [List.getElem?_eq_getElem hlt]
    exact ha
  have hfirst : chars[stop]? = some b := by
    rw [List.head?_drop] at hb
    exact hb
  rw [← placeholderAt_eq hfirst]
  exact h i (by rw [placeholderAt_eq hlast, hai])

/-! ### Which runs fit -/

/-- No run of one emote that the text begins with is longer than a line. -/
def HeadFits (lineWidth : Nat) (chars : List (StyledChar σ)) : Prop :=
  ∀ i block, block <+: chars → AllLabelled emoteOf i block → block.length ≤ lineWidth

/-- No run of one emote is longer than a line. -/
def RunsFit (lineWidth : Nat) (chars : List (StyledChar σ)) : Prop :=
  ∀ i block, block <:+: chars → AllLabelled emoteOf i block → block.length ≤ lineWidth

theorem RunsFit.headFits {lineWidth : Nat} {chars : List (StyledChar σ)}
    (h : RunsFit lineWidth chars) : HeadFits lineWidth chars :=
  fun i block hpre => h i block hpre.isInfix

theorem RunsFit.within {lineWidth : Nat} {chars chars' : List (StyledChar σ)}
    (h : RunsFit lineWidth chars) (hwithin : chars' <:+: chars) : RunsFit lineWidth chars' :=
  fun i block hblock => h i block (hblock.trans hwithin)

theorem headFits_iff {lineWidth : Nat} {chars : List (StyledChar σ)} :
    HeadFits lineWidth chars ↔
      ¬ ∃ i, lineWidth < chars.length ∧
        AllLabelled emoteOf i (chars.take (lineWidth + 1)) := by
  constructor
  · rintro h ⟨i, hlong, hrun⟩
    have hle := h i _ (List.take_prefix _ chars) hrun
    rw [List.length_take] at hle
    omega
  · intro h i block hpre hblock
    by_contra hlong
    obtain ⟨rest, rfl⟩ := hpre
    refine h ⟨i, by rw [List.length_append]; omega, ?_⟩
    rw [List.take_append_of_le_length (by omega)]
    exact fun c hc => hblock c (List.mem_of_mem_take hc)

/-- Leading spaces do not matter to runs of emotes. -/
theorem runsFit_dropWhile_iff {lineWidth : Nat} {chars : List (StyledChar σ)} :
    RunsFit lineWidth (chars.dropWhile StyledChar.isSpace) ↔ RunsFit lineWidth chars := by
  constructor
  · intro h
    induction chars with
    | nil => exact h
    | cons c chars ih =>
      cases hc : c.isSpace with
      | false => simpa [hc] using h
      | true =>
        have hrest := ih (by simpa [hc] using h)
        intro i block hwithin hblock
        rcases List.infix_cons_iff.mp hwithin with hpre | hin
        · cases block with
          | nil => exact Nat.zero_le _
          | cons d block =>
            -- a space is no placeholder
            have hd : d = c := (List.cons_prefix_cons.mp hpre).1
            have hlabel := hblock d List.mem_cons_self
            have hnone : emoteOf d = none := hd ▸ space_not_placeholder hc
            simp [hnone] at hlabel
        · exact hrest i block hin hblock
  · intro h
    exact h.within (List.dropWhile_suffix _).isInfix

/-- Without a longer run at its beginning, or with an even width, a line is not cut through a
pair. -/
theorem paired_drop_actualEnd {lineWidth : Nat} {chars : List (StyledChar σ)} {is : List Nat}
    (hwidth : 1 ≤ lineWidth) (hone : OneColumn chars) (hpaired : Paired emoteOf chars is)
    (hmore : chunkEnd lineWidth chars < chars.length)
    (hgood : Even lineWidth ∨ HeadFits lineWidth chars) :
    ∃ is₁ is₂, Paired emoteOf (chars.take (actualEnd lineWidth chars)) is₁ ∧
      Paired emoteOf (chars.drop (actualEnd lineWidth chars)) is₂ := by
  have hle := actualEnd_le lineWidth chars
  rcases actualEnd_cases hwidth hone hmore with hclean | ⟨i, hend, hlong, hrun⟩
  · obtain ⟨is₁, is₂, h₁, h₂, -⟩ :=
      hclean.paired hpaired (actualEnd_pos lineWidth chars) (by omega)
    exact ⟨is₁, is₂, h₁, h₂⟩
  · have heven : Even lineWidth := by
      rcases hgood with heven | hhead
      · exact heven
      · exact absurd ⟨i, hlong, hrun⟩ ((headFits_iff).mp hhead)
    have hlabel : AllLabelled emoteOf i (chars.take lineWidth) := fun c hc =>
      hrun c (List.take_subset_take_left chars (Nat.le_succ lineWidth) hc)
    rw [← List.take_append_drop lineWidth chars] at hpaired
    obtain ⟨is₁, is₂, h₁, h₂, -⟩ := hpaired.split_even hlabel
      (by rw [List.length_take, Nat.min_eq_left (Nat.le_of_lt hlong)]; exact heven)
    rw [hend]
    exact ⟨is₁, is₂, h₁, h₂⟩

/-- With an odd width and a longer run at its beginning, a line is cut through a pair. -/
theorem not_paired_take_actualEnd {lineWidth : Nat} {chars : List (StyledChar σ)}
    (hwidth : 1 ≤ lineWidth) (hone : OneColumn chars) (hodd : ¬ Even lineWidth)
    (hlong : ¬ HeadFits lineWidth chars) :
    chunkEnd lineWidth chars < chars.length ∧
      ¬ ∃ is, Paired emoteOf (chars.take (actualEnd lineWidth chars)) is := by
  obtain ⟨i, hlen, hrun⟩ := not_not.mp (mt (headFits_iff).mpr hlong)
  obtain ⟨hchunk, hend⟩ := actualEnd_of_run hwidth hone hlen hrun
  refine ⟨by omega, ?_⟩
  rintro ⟨is, his⟩
  have hlabel : AllLabelled emoteOf i (chars.take lineWidth) := fun c hc =>
    hrun c (List.take_subset_take_left chars (Nat.le_succ lineWidth) hc)
  rw [hend] at his
  have hcount := his.length_of_allLabelled hlabel
  rw [List.length_take, Nat.min_eq_left (Nat.le_of_lt hlen)] at hcount
  exact hodd ⟨is.length, by omega⟩

/-- A run that does not fit on a line is left for the next one, if the line does not begin with
it. -/
theorem runsFit_drop_iff {lineWidth : Nat} {chars : List (StyledChar σ)} (hwidth : 2 ≤ lineWidth)
    (hone : OneColumn chars) (hmore : chunkEnd lineWidth chars < chars.length)
    (hhead : HeadFits lineWidth chars) :
    RunsFit lineWidth (chars.drop (actualEnd lineWidth chars)) ↔ RunsFit lineWidth chars := by
  constructor
  · intro h i block hwithin hblock
    by_contra hlong
    obtain ⟨pre, post, heq⟩ := hwithin
    have hpos := actualEnd_pos lineWidth chars
    have hle := actualEnd_le lineWidth chars
    have hlen := congrArg List.length heq
    simp only [List.length_append] at hlen
    have hat (j : Nat) (hj : pre.length ≤ j) (hj' : j < pre.length + block.length) :
        placeholderAt chars j = some i := by
      have hlt : j - pre.length < block.length := by omega
      have hget : chars[j]? = some (block[j - pre.length]) := by
        rw [← heq, List.append_assoc, List.getElem?_append_right hj,
          List.getElem?_append_left hlt, List.getElem?_eq_getElem hlt]
      rw [placeholderAt_eq hget]
      exact hblock _ (List.getElem_mem hlt)
    -- the line ends in front of the run, since it holds it neither whole nor in part
    have hbefore : actualEnd lineWidth chars ≤ pre.length := by
      by_contra hinside
      by_cases hwhole : pre.length + block.length ≤ actualEnd lineWidth chars
      · have hne : chars ≠ [] := List.length_pos_iff.mp (by omega)
        have htake : chars.take (pre.length + block.length) = pre ++ block := by
          rw [← heq]
          exact List.take_left' (by simp)
        have hcols : block.length ≤ columns (chars.take (pre.length + block.length)) := by
          rw [htake, columns_append, columns_of_allLabelled _ hblock]
          · omega
          · exact hone.subset (heq ▸ List.subset_append_of_subset_left _
              (List.subset_append_right _ _))
        have hmono := columns_take_le chars hwhole
        rcases columns_take_chunkEnd hne hpos hle with hfit | ⟨c, hc⟩
        · omega
        · have hone' := congrArg List.length hc
          simp only [List.length_take, List.length_singleton] at hone'
          omega
      · have hin := hat (actualEnd lineWidth chars - 1) (by omega) (by omega)
        have hout := hat (actualEnd lineWidth chars) (by omega) (by omega)
        rcases actualEnd_cases (by omega) hone hmore with hclean | ⟨j, -, hlt, hrun⟩
        · exact hclean i hin hout
        · exact (headFits_iff).mp hhead ⟨j, hlt, hrun⟩
    have hdrop (stop : Nat) (hstop : stop ≤ pre.length) :
        chars.drop stop = pre.drop stop ++ block ++ post := by
      rw [← heq, List.append_assoc, List.append_assoc, List.drop_append_of_le_length hstop]
    exact hlong (h i block ⟨_, post, (hdrop _ hbefore).symm⟩ hblock)
  · intro h
    exact h.within (List.drop_suffix _ _).isInfix

/-! ### Lines of pairs -/

/-- The graphemes of a line are pairs of placeholders and others. -/
def PairedLine (m : Measure) (line : Line σ) : Prop :=
  ∃ is, Paired emoteOf (line.styledChars m) is

/-- Every run of emotes is cut evenly: the first line is not filled with an odd part of one, and
behind it either the lines have an even number of columns or no run is longer than a line. -/
def EmotesFit (width indent : Nat) (chars : List (StyledChar σ)) : Prop :=
  columns chars ≤ width ∨
    ((Even width ∨ HeadFits width chars) ∧
      (Even (width - indent) ∨ RunsFit (width - indent) (chars.drop (firstEnd width chars))))

section Lines

variable [DecidableEq σ] [Inhabited σ] {m : Measure}

omit [DecidableEq σ] in
theorem emoteOf_marginChars (isContinuation : Bool) (indent : Nat) :
    ∀ c ∈ (marginChars isContinuation indent : List (StyledChar σ)), emoteOf c = none := by
  intro c hc
  unfold marginChars at hc
  split at hc
  · rw [List.eq_of_mem_replicate hc]
    exact (by decide : decodePlaceholderGrapheme space = none)
  · simp at hc

theorem pairedLine_buildLine_iff {chars : List (StyledChar σ)} (hm : Measured m chars)
    (isContinuation : Bool) (indent : Nat) :
    PairedLine m (buildLine chars isContinuation indent) ↔ ∃ is, Paired emoteOf chars is := by
  unfold PairedLine
  simp only [styledChars_buildLine hm, Paired.append_iff_of_plain (emoteOf_marginChars _ _)]

omit [DecidableEq σ] [Inhabited σ] in
theorem paired_dropWhile {chars : List (StyledChar σ)} {is : List Nat}
    (h : Paired emoteOf chars is) : Paired emoteOf (chars.dropWhile StyledChar.isSpace) is := by
  rw [← List.takeWhile_append_dropWhile (p := StyledChar.isSpace) (l := chars)] at h
  exact (Paired.append_iff_of_plain fun c hc =>
    space_not_placeholder (List.mem_takeWhile_imp hc)).mp h

omit [DecidableEq σ] [Inhabited σ] in
/-- No run is longer than a line that takes everything. -/
theorem runsFit_of_chunkEnd {lineWidth : Nat} {chars : List (StyledChar σ)} (hwidth : 1 ≤ lineWidth)
    (hone : OneColumn chars) (hall : chars.length ≤ chunkEnd lineWidth chars) :
    RunsFit lineWidth chars := by
  intro i block hwithin hblock
  have hlen := hwithin.length_le
  by_cases hne : chars = []
  · rw [hne] at hlen
    exact Nat.le_trans hlen (Nat.zero_le _)
  rcases columns_take_chunkEnd hne (List.length_pos_iff.mpr hne) hall with hfit | ⟨c, hc⟩
  · rw [List.take_length] at hfit
    have hblockone := hone.subset hwithin.subset
    obtain ⟨pre, post, rfl⟩ := hwithin
    rw [columns_append, columns_append, columns_of_allLabelled hblockone hblock] at hfit
    omega
  · rw [List.take_length] at hc
    rw [hc, List.length_singleton] at hlen
    omega

omit [DecidableEq σ] [Inhabited σ] in
/-- Where a line is not cut through a pair, pairs are left for the next ones. -/
theorem paired_firstEnd {lineWidth : Nat} {chars : List (StyledChar σ)} {is : List Nat}
    (hwidth : 1 ≤ lineWidth) (hone : OneColumn chars) (hpaired : Paired emoteOf chars is)
    (hgood : Even lineWidth ∨ HeadFits lineWidth chars) :
    ∃ is₁ is₂, Paired emoteOf (chars.take (firstEnd lineWidth chars)) is₁ ∧
      Paired emoteOf (chars.drop (firstEnd lineWidth chars)) is₂ := by
  unfold firstEnd
  split
  · rw [List.take_length, List.drop_length]
    exact ⟨is, [], hpaired, .nil⟩
  · rename_i hmore
    exact paired_drop_actualEnd hwidth hone hpaired (Nat.not_le.mp hmore) hgood

omit [DecidableEq σ] [Inhabited σ] in
theorem runsFit_firstEnd_iff {lineWidth : Nat} {chars : List (StyledChar σ)}
    (hwidth : 2 ≤ lineWidth) (hone : OneColumn chars) (hhead : HeadFits lineWidth chars) :
    RunsFit lineWidth (chars.drop (firstEnd lineWidth chars)) ↔ RunsFit lineWidth chars := by
  unfold firstEnd
  split
  · rename_i hall
    have hfits := runsFit_of_chunkEnd (by omega) hone hall
    rw [List.drop_length]
    exact iff_of_true (hfits.within List.nil_infix) hfits
  · rename_i hmore
    exact runsFit_drop_iff hwidth hone (Nat.not_le.mp hmore) hhead

/-- A round of the loop: its line must not be cut through a pair, nor must the lines of the later
rounds. -/
theorem wrapLoop_succ_pairedLine_iff (width indent fuel : Nat) (firstLine : Bool)
    {chars : List (StyledChar σ)} (hm : Measured m chars) (hone : OneColumn chars)
    (hne : chars ≠ []) {is : List Nat} (hpaired : Paired emoteOf chars is) {lineWidth : Nat}
    (hwidth : (if firstLine then width else width - indent) = lineWidth) (hpos : 1 ≤ lineWidth) :
    (∀ visual ∈ wrapLoop width indent (fuel + 1) firstLine chars, PairedLine m visual) ↔
      (Even lineWidth ∨ HeadFits lineWidth chars) ∧
        ∀ visual ∈ wrapLoop width indent fuel false
          ((chars.drop (firstEnd lineWidth chars)).dropWhile StyledChar.isSpace),
            PairedLine m visual := by
  rw [wrapLoop_succ width indent fuel firstLine hne hwidth hpos]
  unfold firstEnd
  split
  · rename_i hall
    have hline := (pairedLine_buildLine_iff hm (!firstLine) indent).mpr ⟨is, hpaired⟩
    have hhead := (runsFit_of_chunkEnd hpos hone hall).headFits
    rw [List.drop_length]
    refine iff_of_true (List.forall_mem_singleton.mpr hline) ⟨Or.inr hhead, ?_⟩
    cases fuel <;> simp [wrapLoop]
  · rename_i hmore
    have hmore := Nat.not_le.mp hmore
    have htake : Measured m (chars.take (actualEnd lineWidth chars)) :=
      fun c hc => hm c (List.mem_of_mem_take hc)
    rw [List.forall_mem_cons, pairedLine_buildLine_iff htake]
    apply and_congr_left'
    constructor
    · intro hline
      by_contra hbad
      obtain ⟨hodd, hlong⟩ := not_or.mp hbad
      exact (not_paired_take_actualEnd hpos hone hodd hlong).2 hline
    · intro hgood
      obtain ⟨is₁, is₂, h₁, -⟩ := paired_drop_actualEnd hpos hone hpaired hmore hgood
      exact ⟨is₁, h₁⟩

/-- Behind the first line, all lines are pairs exactly if they have an even number of columns or no
run is longer than one. -/
theorem wrapLoop_pairedLine_iff {width indent : Nat} (hroom : emoteCols ≤ width - indent)
    {fuel : Nat} {chars : List (StyledChar σ)} (hm : Measured m chars) (hone : OneColumn chars)
    (hfuel : chars.length ≤ fuel) {is : List Nat} (hpaired : Paired emoteOf chars is) :
    (∀ visual ∈ wrapLoop width indent fuel false chars, PairedLine m visual) ↔
      (Even (width - indent) ∨ RunsFit (width - indent) chars) := by
  have htwo : emoteCols = 2 := rfl
  have hnil : RunsFit (width - indent) ([] : List (StyledChar σ)) :=
    runsFit_of_chunkEnd (by omega) (by simp [OneColumn]) (Nat.zero_le _)
  induction fuel generalizing chars is with
  | zero =>
    rw [List.length_eq_zero_iff.mp (Nat.le_zero.mp hfuel)]
    exact iff_of_true (by simp [wrapLoop]) (Or.inr hnil)
  | succ fuel ih =>
    by_cases hne : chars = []
    · rw [hne]
      exact iff_of_true (by simp [wrapLoop]) (Or.inr hnil)
    rw [wrapLoop_succ_pairedLine_iff width indent fuel false hm hone hne hpaired
      (if_neg Bool.false_ne_true) (by omega)]
    generalize width - indent = lineWidth at hroom ih ⊢
    have hsub := rest_subset lineWidth chars
    have hrest {is' : List Nat} (h' : Paired emoteOf _ is') :=
      ih (fun c hc => hm c (hsub hc)) (hone.subset hsub) (length_rest_le lineWidth hne hfuel) h'
    by_cases heven : Even lineWidth
    · -- every cut is behind an even number of columns
      obtain ⟨-, is₂, -, h₂⟩ := paired_firstEnd (by omega) hone hpaired (Or.inl heven)
      have hlater := (hrest (paired_dropWhile h₂)).mpr (Or.inl heven)
      exact iff_of_true ⟨Or.inl heven, hlater⟩ (Or.inl heven)
    rw [or_iff_right heven, or_iff_right heven]
    -- a run that does not fit is left whole for the next round, until a line begins with it
    constructor
    · rintro ⟨hhead, hlater⟩
      obtain ⟨-, is₂, -, h₂⟩ := paired_firstEnd (by omega) hone hpaired (Or.inr hhead)
      have hfits := ((hrest (paired_dropWhile h₂)).mp hlater).resolve_left heven
      rwa [runsFit_dropWhile_iff, runsFit_firstEnd_iff hroom hone hhead] at hfits
    · intro hfits
      have hhead := hfits.headFits
      obtain ⟨-, is₂, -, h₂⟩ := paired_firstEnd (by omega) hone hpaired (Or.inr hhead)
      refine ⟨hhead, (hrest (paired_dropWhile h₂)).mpr (Or.inr ?_)⟩
      rwa [runsFit_dropWhile_iff, runsFit_firstEnd_iff hroom hone hhead]

/-- The first line can have another number of columns than the lines behind it. -/
theorem wrapLoop_first_pairedLine_iff {width indent : Nat} (hroom : emoteCols ≤ width - indent)
    {fuel : Nat} {chars : List (StyledChar σ)} (hm : Measured m chars) (hone : OneColumn chars)
    (hfuel : chars.length ≤ fuel) (hne : chars ≠ []) {is : List Nat}
    (hpaired : Paired emoteOf chars is) :
    (∀ visual ∈ wrapLoop width indent fuel true chars, PairedLine m visual) ↔
      (Even width ∨ HeadFits width chars) ∧
        (Even (width - indent) ∨
          RunsFit (width - indent) (chars.drop (firstEnd width chars))) := by
  have htwo : emoteCols = 2 := rfl
  obtain ⟨fuel, rfl⟩ : ∃ n, fuel = n + 1 :=
    Nat.exists_eq_succ_of_ne_zero (by have := List.length_pos_iff.mpr hne; omega)
  rw [wrapLoop_succ_pairedLine_iff width indent fuel true hm hone hne hpaired (if_pos rfl)
    (by omega)]
  apply and_congr_right
  intro hgood
  obtain ⟨-, is₂, -, h₂⟩ := paired_firstEnd (by omega) hone hpaired hgood
  have hsub := rest_subset width chars
  rw [← runsFit_dropWhile_iff]
  exact wrapLoop_pairedLine_iff hroom (fun c hc => hm c (hsub hc)) (hone.subset hsub)
    (length_rest_le width hne hfuel) (paired_dropWhile h₂)

/-- All visual lines are pairs exactly if the runs of emotes fit. -/
theorem wrapLine_pairedLine_iff {width indent : Nat} (hroom : emoteCols ≤ width - indent)
    {line : Line σ} (hone : OneColumn (line.styledChars m)) {is : List Nat}
    (hpaired : Paired emoteOf (line.styledChars m) is) :
    (∀ visual ∈ wrapLine m line width indent, PairedLine m visual) ↔
      EmotesFit width indent (line.styledChars m) := by
  have htwo : emoteCols = 2 := rfl
  unfold EmotesFit
  by_cases hfits : columns (line.styledChars m) ≤ width
  · rw [wrapLine_of_fits indent hfits]
    exact iff_of_true (List.forall_mem_singleton.mpr ⟨is, hpaired⟩) (Or.inl hfits)
  · have hwide := Nat.not_le.mp hfits
    have hne : line.styledChars m ≠ [] := by
      intro hnil
      simp [hnil] at hwide
    rw [wrapLine_of_wide (by omega) indent hwide, or_iff_right hfits]
    exact wrapLoop_first_pairedLine_iff hroom (measured_styledChars line) hone (Nat.le_refl _) hne
      hpaired

end Lines

/-! ### Where the emotes are drawn -/

/-- The placements are the emotes of a text, in reading order: each is whole and inside of the
area, and no two of them overlap. -/
structure EmotesSurvive (placements : List EmotePlacement) (tokens : List Nat) (area : Rect) :
    Prop where
  tokens : placements.map EmotePlacement.emoteIndex = tokens
  whole : ∀ p ∈ placements, p.rect.width = emoteCols ∧ p.rect.height = 1
  inside : ∀ p ∈ placements, area.x ≤ p.rect.x ∧ p.rect.x + p.rect.width ≤ area.x + area.width ∧
    area.y ≤ p.rect.y ∧ p.rect.y + p.rect.height ≤ area.y + area.height
  order : placements.Pairwise fun p q =>
    p.rect.y < q.rect.y ∨ p.rect.y = q.rect.y ∧ p.rect.x + p.rect.width ≤ q.rect.x

section Placements

variable [DecidableEq σ] [Inhabited σ] {m : Measure} {area : Rect}

omit [DecidableEq σ] in
/-- A row that is wider than its area holds a single grapheme, and no emote. -/
theorem resolveRow_of_narrow {y : Nat} (hx : area.x + area.width ≤ 65535) {indent : Nat}
    {visual : Line σ} {is : List Nat} (hone : OneColumn (visual.styledChars m))
    (hpaired : Paired emoteOf (visual.styledChars m) is)
    (hnarrow : Narrow m area.width indent visual) :
    (resolveRow y area.x 0 none (visual.styledChars m)).map EmotePlacement.emoteIndex = is ∧
      InRow y area.x 0 area.width (resolveRow y area.x 0 none (visual.styledChars m)) := by
  rcases hnarrow with hfit | ⟨firstLine, c, heq⟩
  · obtain ⟨hindex, hrow⟩ := @resolveRow_of_paired σ y area.x _ is hpaired hone 0 (by omega)
    exact ⟨hindex, hrow.mono (Nat.le_refl _) (by omega)⟩
  · -- a pair needs two graphemes
    rw [heq, Paired.append_iff_of_plain (emoteOf_marginChars _ _)] at hpaired
    cases hpaired with
    | plain hc rest =>
      cases rest
      have hplain : ∀ d ∈ visual.styledChars m, emoteOf d = none := by
        rw [heq]
        intro d hd
        rcases List.mem_append.mp hd with hd | hd
        · exact emoteOf_marginChars _ _ d hd
        · rw [List.mem_singleton.mp hd, hc]
      rw [resolveRow_of_plain hplain]
      exact ⟨rfl, by simp, List.Pairwise.nil⟩

omit [DecidableEq σ] in
/-- The rows of a text are the placements of its emotes. -/
theorem resolveRows_of_covers (hx : area.x + area.width ≤ 65535) (hheight : area.height ≤ 65535)
    {indent : Nat} {firstLine : Bool} {visuals : List (Line σ)} {chars : List (StyledChar σ)}
    (hcovers : Covers m indent firstLine visuals chars) {row : Nat}
    (hrow : row + visuals.length ≤ area.height)
    (hone : ∀ visual ∈ visuals, OneColumn (visual.styledChars m))
    (hpaired : ∀ visual ∈ visuals, PairedLine m visual)
    (hnarrow : ∀ visual ∈ visuals, Narrow m area.width indent visual) :
    Paired emoteOf chars ((resolveRows m area row visuals).map EmotePlacement.emoteIndex) ∧
      EmotesSurvive (resolveRows m area row visuals)
        ((resolveRows m area row visuals).map EmotePlacement.emoteIndex) area ∧
      ∀ p ∈ resolveRows m area row visuals, area.y + row ≤ p.rect.y := by
  induction hcovers generalizing row with
  | done => exact ⟨.nil, ⟨rfl, by simp [resolveRows], by simp [resolveRows], .nil⟩,
      by simp [resolveRows]⟩
  | @line firstLine visual visuals chunk gap rest _ holds spaces ih =>
    obtain ⟨hone, hones⟩ := List.forall_mem_cons.mp hone
    obtain ⟨⟨is, his⟩, hpaireds⟩ := List.forall_mem_cons.mp hpaired
    obtain ⟨hnarrow, hnarrows⟩ := List.forall_mem_cons.mp hnarrow
    rw [List.length_cons] at hrow
    obtain ⟨hrest, hsurvive, hbelow⟩ := @ih (row + 1) (by omega) hones hpaireds hnarrows
    have hy : area.y + toU16 row = area.y + row := by
      unfold toU16
      omega
    obtain ⟨hindex, hin⟩ := @resolveRow_of_narrow σ _ m area (area.y + row) hx indent visual is
      hone his hnarrow
    have hstep : resolveRows m area row (visual :: visuals) =
        resolveRow (area.y + row) area.x 0 none (visual.styledChars m) ++
          resolveRows m area (row + 1) visuals := by
      rw [resolveRows, if_neg (by omega), hy]
    rw [hstep]
    have hchunk : Paired emoteOf chunk is := by
      rwa [holds, Paired.append_iff_of_plain (emoteOf_marginChars _ _)] at his
    have hgap : Paired emoteOf gap [] :=
      Paired.of_plain fun c hc => space_not_placeholder (spaces c hc)
    -- the row itself, and the rows below it
    refine ⟨?_, ⟨rfl, ?_, ?_, ?_⟩, ?_⟩
    · rw [List.map_append, hindex]
      exact hchunk.append (hgap.append hrest)
    · intro p hp
      rcases List.mem_append.mp hp with hp | hp
      · obtain ⟨-, hw, hh, -⟩ := hin.whole p hp
        exact ⟨hw, hh⟩
      · exact hsurvive.whole p hp
    · intro p hp
      rcases List.mem_append.mp hp with hp | hp
      · obtain ⟨hpy, hw, hh, hleft, hright⟩ := hin.whole p hp
        omega
      · exact hsurvive.inside p hp
    · refine List.pairwise_append.mpr ⟨?_, hsurvive.order, ?_⟩
      · refine hin.order.imp_of_mem fun {p q} hp hq hpq => Or.inr ⟨?_, hpq⟩
        rw [(hin.whole p hp).1, (hin.whole q hq).1]
      · intro p hp q hq
        have hpy := (hin.whole p hp).1
        have hqy := hbelow q hq
        exact Or.inl (by omega)
    · intro p hp
      rcases List.mem_append.mp hp with hp | hp
      · exact Nat.le_of_eq (hin.whole p hp).1.symm
      · have hpy := hbelow p hp
        omega

omit [DecidableEq σ] [Inhabited σ] in
/-- Emotes of full width come from lines of pairs only. -/
theorem pairedLine_of_resolveRows {visuals : List (Line σ)} {row : Nat}
    (hrow : row + visuals.length ≤ area.height)
    (hone : ∀ visual ∈ visuals, OneColumn (visual.styledChars m))
    (hwhole : ∀ p ∈ resolveRows m area row visuals, p.rect.width = emoteCols) :
    ∀ visual ∈ visuals, PairedLine m visual := by
  induction visuals generalizing row with
  | nil => simp
  | cons visual visuals ih =>
    obtain ⟨hone, hones⟩ := List.forall_mem_cons.mp hone
    rw [List.length_cons] at hrow
    rw [resolveRows, if_neg (by omega), List.forall_mem_append] at hwhole
    exact List.forall_mem_cons.mpr ⟨paired_of_resolveRow _ 0 hone hwhole.1,
      ih (by omega) hones hwhole.2⟩

/-- The emotes of a text survive exactly if its placeholders are pairs for its known names, and no
run of one emote is cut at an odd column. -/
theorem emotes_survive_iff (reg : Registry) (t : Terminal) (text : Str) (style : σ) (indent : Nat)
    (area : Rect) (hroom : emoteCols ≤ area.width - indent)
    (hx : area.x + area.width ≤ 65535) (hy : area.y + area.height ≤ 65535)
    (hall : (wrapLine t.toMeasure (messageLine reg t text style) area.width indent).length ≤
      area.height) :
    EmotesSurvive
        (resolvePlacements t.toMeasure
          (wrapLine t.toMeasure (messageLine reg t text style) area.width indent) area)
        (reg.tokens text) area ↔
      Undisturbed reg t text ∧
        EmotesFit area.width indent
          (Line.styledChars t.toMeasure (messageLine reg t text style)) := by
  have htwo : emoteCols = 2 := rfl
  generalize hline : messageLine reg t text style = line at hall ⊢
  have hone := oneColumn_styledChars t line
  have hwell := wrapsWell_of_room (m := t.toMeasure) line (by omega : indent < area.width)
  have hrows (hpaired : ∀ visual ∈ wrapLine t.toMeasure line area.width indent,
      PairedLine t.toMeasure visual) :=
    resolveRows_of_covers hx (by omega) hwell.covers
      (by omega : 0 + (wrapLine t.toMeasure line area.width indent).length ≤ area.height)
      (fun visual _ => oneColumn_styledChars t visual) hpaired hwell.narrow
  rw [undisturbed_iff style, hline]
  constructor
  · intro h
    have hpaired := pairedLine_of_resolveRows (by omega)
      (fun visual _ => oneColumn_styledChars t visual) fun p hp => (h.whole p hp).1
    have htext := (hrows hpaired).1
    have htokens : _ = reg.tokens text := h.tokens
    rw [resolvePlacements] at htokens
    rw [htokens] at htext
    exact ⟨htext, (wrapLine_pairedLine_iff hroom hone htext).mp hpaired⟩
  · rintro ⟨htext, hfit⟩
    have hpaired := (wrapLine_pairedLine_iff hroom hone htext).mpr hfit
    obtain ⟨htext', hsurvive, -⟩ := hrows hpaired
    rw [htext'.unique htext] at hsurvive
    exact hsurvive

/-- A terminal that has a column for every character. -/
def sampleTerminal : Terminal where
  toMeasure := sampleMeasure
  graphemes := List.map charGrapheme
  flatten := fun s => by
    induction s with
    | nil => rfl
    | cons c s ih => rw [List.map_cons, List.flatMap_cons, ih]; rfl
  placeholder := fun _ _ _ => rfl

def sampleRegistry : Registry where
  names := [str "x"]
  english := fun _ => none
  few := by decide
  inside := by simp

theorem emote_and_text_survive :
    EmotesSurvive
      (resolvePlacements sampleTerminal.toMeasure
        (wrapLine sampleTerminal.toMeasure
          (messageLine sampleRegistry sampleTerminal (str ":x: hi") ()) 4 2) ⟨0, 0, 4, 3⟩)
      (sampleRegistry.tokens (str ":x: hi")) ⟨0, 0, 4, 3⟩ := by
  have hsegs : sampleRegistry.tokenize (str ":x: hi") = [.emote (str "x"), .text (str " hi")] := by
    decide +kernel
  have hclean : Clean sampleRegistry sampleTerminal (str ":x: hi") := by
    refine ⟨by decide +kernel, ?_⟩
    rw [hsegs]
    intro s hs
    have htext : s = str " hi" := by simpa using hs
    rw [htext]
    decide
  have heven : Even 4 := by decide
  have heven' : Even (4 - 2) := by decide
  exact (emotes_survive_iff sampleRegistry sampleTerminal (str ":x: hi") () 2 ⟨0, 0, 4, 3⟩
    (by decide) (by decide) (by decide) (by decide +kernel)).mpr
      ⟨hclean.undisturbed, Or.inr ⟨Or.inl heven, Or.inl heven'⟩⟩

/-- The second of two identical emotes is cut where the width is odd. -/
theorem second_emote_is_cut :
    ¬ EmotesSurvive
      (resolvePlacements sampleTerminal.toMeasure
        (wrapLine sampleTerminal.toMeasure
          (messageLine sampleRegistry sampleTerminal (str ":x::x:") ()) 3 0) ⟨0, 0, 3, 3⟩)
      (sampleRegistry.tokens (str ":x::x:")) ⟨0, 0, 3, 3⟩ := by
  intro h
  have htokens := h.tokens
  revert htokens
  decide +kernel

end Placements

end Layout

end Repartee
