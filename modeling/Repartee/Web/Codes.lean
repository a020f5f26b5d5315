import Repartee.Web.Format

/-!
# The codes of the two parsers

What the terminal's parser and the web client's make of each code, character by character. Most
codes they read alike; a text that comes to none of the others is in step, and shows the same in
both.

## Main definitions

- `splits`: the codes that the two parsers read differently
- `InStep`: a text that comes to none of them
- `isArgs`: the arguments of a code

## Main results

- `agree_of_not_splits`: a code that does not split the parsers is read alike
- `texts_of_inStep`: a text that is in step shows the same in both
-/

set_option autoImplicit false

namespace Repartee.Web

open Theme (mircControls plainCodes isUnknownCode isHexChar hasStray)

/-! ### Codes that both parsers know -/

/-- The length of a `,BG`: a comma with a digit behind it. -/
def backgroundLength : Str → Nat
  | ',' :: s => if (digits s).isEmpty then 0 else 1 + (digits s).length
  | _ => 0

/-- The length of the argument of `0x03`. -/
def mircLength (s : Str) : Nat :=
  if (digits s).isEmpty then 0
  else (digits s).length + backgroundLength (s.drop (digits s).length)

/-- Whether a `,RRGGBB` is at the front. -/
def hexBackground : Str → Bool
  | ',' :: s => hexFront s
  | _ => false

/-- The length of the argument of `0x04`. -/
def hexLength (s : Str) : Nat :=
  if hexFront s then if hexBackground (s.drop 6) then 13 else 6 else 0

/-- A comma that no digit follows. -/
def looseComma : Str → Bool
  | ',' :: s => (digits s).isEmpty
  | _ => false

/-- Whether the two parsers read the code at the front differently. -/
def splits : Str → Bool
  | '%' :: c :: s =>
    -- six characters that are no colour, a code of one parser only, or a byte taken for a code
    if c = 'Z' ∨ c = 'z' then 6 ≤ s.length && !hexFront s
    else c = 'U' || c = 'I' || c = '|' || 128 ≤ c.toNat
  | c :: s =>
    if c = Char.ofNat 0x03 then !(digits s).isEmpty && looseComma (s.drop (digits s).length)
    else if c = Char.ofNat 0x04 then hexFront s && hexBackground (s.drop 6)
    else c = Char.ofNat 0x11
  | [] => false

/-- The number of characters of the code or the character at the front. -/
def codeLength : Str → Nat
  | '%' :: c :: s => if (c = 'Z' ∨ c = 'z') ∧ hexFront s then 8 else 2
  | c :: s =>
    if c = Char.ofNat 0x03 then 1 + mircLength s
    else if c = Char.ofNat 0x04 then 1 + hexLength s
    else 1
  | [] => 0

/-- A text that comes to no code that the two parsers read differently. -/
inductive InStep : Str → Prop where
  | nil : InStep []
  | code {s : Str} (hs : s ≠ []) (hsplits : splits s = false)
      (hrest : InStep (s.drop (codeLength s))) : InStep s

/-! ### The terminal's codes -/

theorem lt_of_isDigit {c : Char} (h : c.isDigit = true) : c.toNat < 128 := by
  rw [Char.isDigit, Bool.and_eq_true, decide_eq_true_eq, decide_eq_true_eq] at h
  have hle := UInt32.le_iff_toNat_le.mp h.2
  exact Nat.lt_of_le_of_lt hle (by decide)

theorem isAsciiDigit_ofNat {c : Char} (h : c.toNat < 128) :
    Theme.isAsciiDigit (UInt8.ofNat c.toNat) = c.isDigit := by
  have hval : c.val.toNat = c.toNat := rfl
  rw [Theme.isAsciiDigit, Char.isDigit, Bool.eq_iff_iff]
  simp only [Bool.and_eq_true, decide_eq_true_eq, UInt8.le_iff_toNat_le, ge_iff_le,
    UInt32.le_iff_toNat_le, UInt8.toNat_ofNat', hval]
  rw [Nat.mod_eq_of_lt (by omega)]
  rfl

/-- The first byte of a text tells digits and commas from all other characters. -/
theorem encode_cons_cases (c : Char) (s : Str) :
    ∃ b bs, Utf8.encode (c :: s) = b :: bs ∧ Theme.isAsciiDigit b = c.isDigit ∧
      (b = 0x2C ↔ c = ',') ∧ (c.toNat < 128 → bs = Utf8.encode s) := by
  by_cases hc : c.toNat < 128
  · refine ⟨_, _, Utf8.encode_cons_of_lt hc s, isAsciiDigit_ofNat hc, ?_, fun _ => rfl⟩
    constructor
    · intro hb
      exact Utf8.eq_of_ofNat_toNat_eq hc (by decide) hb
    · rintro rfl
      rfl
  · obtain ⟨b, b', bs, he, hall⟩ := Utf8.encodeChar_of_le (Nat.le_of_not_lt hc)
    have hb : 128 ≤ b.toNat := UInt8.le_iff_toNat_le.mp (hall b List.mem_cons_self)
    have hbyte : Theme.isAsciiDigit b = false := by
      rw [Theme.isAsciiDigit, Bool.and_eq_false_iff]
      refine .inr (decide_eq_false fun hle => ?_)
      have hle' := UInt8.le_iff_toNat_le.mp hle
      exact absurd (hb.trans hle') (by decide)
    have hdigit : c.isDigit = false := by
      rw [← Bool.not_eq_true]
      exact fun h => hc (lt_of_isDigit h)
    refine ⟨b, b' :: bs ++ Utf8.encode s, by rw [Utf8.encode_cons, he]; rfl,
      by rw [hbyte, hdigit], ?_, fun h => absurd h hc⟩
    constructor
    · rintro rfl
      exact absurd hb (by decide)
    · rintro rfl
      exact absurd (by decide) hc

theorem digits_cons (c : Char) (s : Str) :
    digits (c :: s) = if c.isDigit then c :: (s.take 1).takeWhile Char.isDigit else [] := by
  rw [digits, List.take_succ_cons, List.takeWhile_cons]

/-- The digits that the terminal reads from the bytes. -/
theorem readDigits_encode (s : Str) :
    (Theme.readDigits (Utf8.encode s) = none ∧ digits s = []) ∨
      ∃ v, Theme.readDigits (Utf8.encode s) = some (v, (digits s).length) ∧ digits s ≠ [] := by
  cases s with
  | nil => exact .inl ⟨rfl, rfl⟩
  | cons c s =>
    obtain ⟨b, bs, he, hb, -, hbs⟩ := encode_cons_cases c s
    rw [he, Theme.readDigits.eq_def, digits_cons]
    dsimp only
    rw [hb]
    cases hc : c.isDigit with
    | false => exact .inl ⟨rfl, rfl⟩
    | true =>
      right
      cases hbs (lt_of_isDigit hc)
      cases s with
      | nil => exact ⟨_, rfl, List.cons_ne_nil _ _⟩
      | cons d s =>
        obtain ⟨b', bs', he', hb', -, -⟩ := encode_cons_cases d s
        rw [he']
        dsimp only
        rw [hb', List.take_succ_cons, List.takeWhile_cons]
        cases d.isDigit with
        | false => exact ⟨_, rfl, List.cons_ne_nil _ _⟩
        | true => exact ⟨_, rfl, List.cons_ne_nil _ _⟩

theorem digits_append_drop (s : Str) : digits s ++ s.drop (digits s).length = s :=
  List.prefix_iff_eq_append.mp ((List.takeWhile_prefix _).trans (List.take_prefix 2 s))

theorem take_digits (s : Str) : s.take (digits s).length = digits s :=
  (List.prefix_iff_eq_take.mp ((List.takeWhile_prefix _).trans (List.take_prefix 2 s))).symm

theorem isDigit_of_mem_digits {c : Char} {s : Str} (h : c ∈ digits s) : c.isDigit = true :=
  List.mem_takeWhile_imp h

theorem drop_encode_digits (s : Str) :
    (Utf8.encode s).drop (digits s).length = Utf8.encode (s.drop (digits s).length) := by
  have hascii : ∀ c ∈ digits s, c.toNat < 128 :=
    fun c hc => lt_of_isDigit (isDigit_of_mem_digits hc)
  have hdrop := Utf8.drop_encode_append (digits s) (s.drop (digits s).length)
  rwa [digits_append_drop, Utf8.byteLen_of_ascii hascii] at hdrop

theorem readBackground_encode (s : Str) :
    (Theme.readBackground (Utf8.encode s) = none ∧ backgroundLength s = 0) ∨
      ∃ v k, Theme.readBackground (Utf8.encode s) = some (v, k) ∧ backgroundLength s = 1 + k := by
  cases s with
  | nil => exact .inl ⟨rfl, rfl⟩
  | cons c s =>
    obtain ⟨b, bs, he, -, hcomma, hbs⟩ := encode_cons_cases c s
    by_cases hc : c = ','
    · subst hc
      cases hcomma.mpr rfl
      cases hbs (by decide)
      rw [he, Theme.readBackground, if_pos rfl, backgroundLength]
      rcases readDigits_encode s with ⟨hnone, hnil⟩ | ⟨v, hsome, hne⟩
      · rw [hnone, hnil]
        exact .inl ⟨rfl, rfl⟩
      · rw [hsome, if_neg (by simpa using hne)]
        exact .inr ⟨v, _, rfl, rfl⟩
    · left
      rw [he, Theme.readBackground, if_neg (fun hb => hc (hcomma.mp hb)), backgroundLength]
      · exact ⟨rfl, rfl⟩
      · rintro t ht
        exact hc (List.cons.inj ht).1

theorem isSome_readHex6_encode (s : Str) :
    (Theme.readHex6 (Utf8.encode s)).isSome = hexFront s := by
  rw [Bool.eq_iff_iff, hexFront, Bool.and_eq_true, decide_eq_true_eq, List.all_eq_true]
  constructor
  · intro h
    obtain ⟨hex, hhex⟩ := Option.isSome_iff_exists.mp h
    exact Theme.exists_of_readHex6 hhex
  · rintro ⟨hlen, hall⟩
    exact Theme.isSome_readHex6 hlen hall

theorem drop_encode_hex {s : Str} (h : hexFront s = true) :
    (Utf8.encode s).drop 6 = Utf8.encode (s.drop 6) := by
  rw [hexFront, Bool.and_eq_true, decide_eq_true_eq, List.all_eq_true] at h
  have hascii : ∀ c ∈ s.take 6, c.toNat < 128 := by
    intro c hc
    have hhex := h.2 c hc
    rw [isHexChar, Bool.and_eq_true, decide_eq_true_eq] at hhex
    exact hhex.1
  have hdrop := Utf8.drop_encode_append (s.take 6) (s.drop 6)
  rwa [List.take_append_drop, Utf8.byteLen_of_ascii hascii, List.length_take,
    Nat.min_eq_left h.1] at hdrop

theorem isSome_readHexBackground_encode (s : Str) :
    (Theme.readHexBackground (Utf8.encode s)).isSome = hexBackground s := by
  cases s with
  | nil => rfl
  | cons c s =>
    obtain ⟨b, bs, he, -, hcomma, hbs⟩ := encode_cons_cases c s
    by_cases hc : c = ','
    · subst hc
      cases hcomma.mpr rfl
      cases hbs (by decide)
      rw [he, Theme.readHexBackground, if_pos rfl]
      exact isSome_readHex6_encode s
    · rw [he, Theme.readHexBackground, if_neg (fun hb => hc (hcomma.mp hb)), hexBackground]
      · rfl
      · rintro t ht
        exact hc (List.cons.inj ht).1

/-- The codes that both parsers read without an argument. -/
def quietCodes : Str := str "Nn_uidkKrRgGyYbBmMcCwW"

/-- The control characters that both parsers read without an argument. -/
def quietControls : Str := [0x02, 0x0F, 0x16, 0x1D, 0x1E, 0x1F].map Char.ofNat

theorem terminalText_plain {c : Char} (hp : c ≠ '%') (hc : c ∉ mircControls) (s : Str) :
    terminalText (c :: s) = c :: terminalText s := by
  rw [terminalText_round (List.cons_ne_nil c s), Theme.round_plain hp hc]
  rfl

theorem terminalText_percent : terminalText ['%'] = ['%'] := by
  have hround : Theme.round ['%'] = ([.push '%'], 1) := rfl
  rw [terminalText_round (List.cons_ne_nil _ _), hround]
  simp [Theme.Action.text]

theorem terminalText_percent_percent (s : Str) :
    terminalText ('%' :: '%' :: s) = '%' :: terminalText s := by
  rw [terminalText_round (List.cons_ne_nil _ _), Theme.round_percent (by decide)]
  rfl

theorem terminalText_quiet {c : Char} (hc : c ∈ '|' :: quietCodes) (s : Str) :
    terminalText ('%' :: c :: s) = terminalText s := by
  have hround : c.toNat < 128 ∧ ∀ bs, ∃ acts,
      Theme.percentCode (UInt8.ofNat c.toNat :: bs) = (acts, 2) ∧
        acts.flatMap Theme.Action.text = [] := by
    revert c
    have hcodes : '|' :: quietCodes = ['|', 'N', 'n', '_', 'u', 'i', 'd', 'k', 'K', 'r', 'R', 'g',
        'G', 'y', 'Y', 'b', 'B', 'm', 'M', 'c', 'C', 'w', 'W'] := by decide
    rw [hcodes]
    simp only [List.forall_mem_cons]
    and_intros
    all_goals first
      | decide
      | exact fun bs => ⟨_, rfl, rfl⟩
      | exact nofun
  obtain ⟨acts, hacts, htext⟩ := hround.2 (Utf8.encode s)
  rw [terminalText_round (List.cons_ne_nil _ _), Theme.round_percent hround.1, hacts]
  dsimp only
  rw [htext]
  rfl

theorem terminalText_unknown {c : Char} (hc : isUnknownCode c = true) (s : Str) :
    terminalText ('%' :: c :: s) = '%' :: c :: terminalText s := by
  rw [terminalText_round (List.cons_ne_nil _ _), Theme.round_unknown hc]
  rfl

theorem terminalText_hex {c : Char} (hc : c = 'Z' ∨ c = 'z') {s : Str} (h : hexFront s = true) :
    terminalText ('%' :: c :: s) = terminalText (s.drop 6) := by
  obtain ⟨hlen, hshown⟩ := Theme.round_hex hc ((isSome_readHex6_encode s).trans h)
  rw [terminalText_round (List.cons_ne_nil _ _), hlen, List.eq_nil_of_length_eq_zero hshown]
  rfl

theorem terminalText_broken {c : Char} (hc : c = 'Z' ∨ c = 'z') {s : Str}
    (h : hexFront s = false) :
    terminalText ('%' :: c :: s) = '%' :: c :: terminalText s := by
  have hnone : Theme.readHex6 (Utf8.encode s) = none := by
    rw [← Option.not_isSome_iff_eq_none, isSome_readHex6_encode, h]
    exact Bool.false_ne_true
  have hround : Theme.round ('%' :: c :: s) = ([.restyle id, .push '%', .push c], 2) := by
    rcases hc with rfl | rfl
    · rw [Theme.round_percent (by decide)]
      show Theme.hexCode 'Z' Theme.StyleState.setFg (Utf8.encode s) = _
      rw [Theme.hexCode, hnone]
    · rw [Theme.round_percent (by decide)]
      show Theme.hexCode 'z' Theme.StyleState.setBg (Utf8.encode s) = _
      rw [Theme.hexCode, hnone]
  rw [terminalText_round (List.cons_ne_nil _ _), hround]
  rfl

theorem terminalText_mirc (s : Str) :
    terminalText (Char.ofNat 0x03 :: s) = terminalText (s.drop (mircLength s)) := by
  have hround : Theme.round (Char.ofNat 0x03 :: s) = Theme.mircCode (Utf8.encode s) := by
    rw [Theme.round, Utf8.encode_cons_of_lt (by decide)]
    rfl
  have hmirc : ∃ f, Theme.mircCode (Utf8.encode s) = ([.restyle f], 1 + mircLength s) := by
    rw [Theme.mircCode, mircLength]
    rcases readDigits_encode s with ⟨hnone, hnil⟩ | ⟨v, hsome, hne⟩
    · rw [hnone, hnil]
      exact ⟨_, rfl⟩
    · rw [hsome, if_neg (by simpa using hne)]
      dsimp only
      rw [drop_encode_digits]
      rcases readBackground_encode (s.drop (digits s).length) with ⟨hbg, hlen⟩ | ⟨w, k, hbg, hlen⟩
      · rw [hbg, hlen]
        exact ⟨_, rfl⟩
      · rw [hbg, hlen]
        exact ⟨_, Prod.ext rfl (Nat.add_assoc _ _ _)⟩
  obtain ⟨f, hf⟩ := hmirc
  rw [terminalText_round (List.cons_ne_nil _ _), hround, hf, Nat.add_comm]
  rfl

theorem terminalText_hexColor (s : Str) :
    terminalText (Char.ofNat 0x04 :: s) = terminalText (s.drop (hexLength s)) := by
  have hround : Theme.round (Char.ofNat 0x04 :: s) = Theme.hexColorCode (Utf8.encode s) := by
    rw [Theme.round, Utf8.encode_cons_of_lt (by decide)]
    rfl
  have hhex : ∃ f, Theme.hexColorCode (Utf8.encode s) = ([.restyle f], 1 + hexLength s) := by
    rw [Theme.hexColorCode, hexLength]
    have hfront := isSome_readHex6_encode s
    cases hr : Theme.readHex6 (Utf8.encode s) with
    | none =>
      rw [hr] at hfront
      rw [← hfront]
      exact ⟨_, rfl⟩
    | some fg =>
      rw [hr] at hfront
      dsimp only
      rw [← hfront, drop_encode_hex hfront.symm]
      have hback := isSome_readHexBackground_encode (s.drop 6)
      cases hb : Theme.readHexBackground (Utf8.encode (s.drop 6)) with
      | none =>
        rw [hb] at hback
        rw [← hback]
        exact ⟨_, rfl⟩
      | some bg =>
        rw [hb] at hback
        rw [← hback]
        exact ⟨_, rfl⟩
  obtain ⟨f, hf⟩ := hhex
  rw [terminalText_round (List.cons_ne_nil _ _), hround, hf, Nat.add_comm]
  rfl

theorem terminalText_control {c : Char} (hc : c ∈ Char.ofNat 0x11 :: quietControls) (s : Str) :
    terminalText (c :: s) = terminalText s := by
  have hround : c.toNat < 128 ∧ ∀ bs, ∃ acts,
      Theme.code (UInt8.ofNat c.toNat :: bs) = some (acts, 1) ∧
        acts.flatMap Theme.Action.text = [] := by
    revert c
    have hcodes : Char.ofNat 0x11 :: quietControls =
        [0x11, 0x02, 0x0F, 0x16, 0x1D, 0x1E, 0x1F].map Char.ofNat := rfl
    rw [hcodes]
    simp only [List.map_cons, List.map_nil, List.forall_mem_cons]
    and_intros
    all_goals first
      | decide
      | exact fun bs => ⟨_, rfl, rfl⟩
      | exact nofun
  obtain ⟨acts, hacts, htext⟩ := hround.2 (Utf8.encode s)
  rw [terminalText_round (List.cons_ne_nil _ _), Theme.round, Utf8.encode_cons_of_lt hround.1,
    hacts]
  dsimp only
  rw [htext]
  rfl

/-! ### The codes of the web client -/

theorem stripFormat_plain {c : Char} (hp : c ≠ '%') (hc : c ∉ mircControls.dropLast) (s : Str) :
    stripFormat (c :: s) = c :: stripFormat s := by
  have hround : round (c :: s) = ([.push c], 1) := by
    have hne : ∀ d ∈ mircControls.dropLast, c ≠ d := fun d hd h => hc (h ▸ hd)
    have hcodes : mircControls.dropLast =
        [0x02, 0x03, 0x04, 0x0F, 0x16, 0x1D, 0x1E, 0x1F].map Char.ofNat := rfl
    rw [hcodes] at hne
    simp only [List.map_cons, List.map_nil, List.forall_mem_cons] at hne
    obtain ⟨h02, h03, h04, h0F, h16, h1D, h1E, h1F, -⟩ := hne
    rw [round.eq_def]
    dsimp only
    rw [if_neg hp, if_neg h02, if_neg h03, if_neg h04, if_neg h0F, if_neg h16, if_neg h1D,
      if_neg h1E, if_neg h1F]
  rw [stripFormat_round (List.cons_ne_nil c s), hround]
  rfl

theorem stripFormat_of_percentCode {c : Char} {s : Str} {acts : List Action} {n : Nat}
    (h : percentCode c s = (acts, n + 2)) :
    stripFormat ('%' :: c :: s) = acts.flatMap Action.text ++ stripFormat (s.drop n) := by
  have hround : round ('%' :: c :: s) = percentCode c s := rfl
  rw [stripFormat_round (List.cons_ne_nil _ _), hround, h]
  rfl

theorem stripFormat_percent_percent (s : Str) :
    stripFormat ('%' :: '%' :: s) = '%' :: stripFormat s :=
  @stripFormat_of_percentCode '%' s [.push '%'] 0 rfl

/-- Whatever the six characters are, they are not shown. -/
theorem stripFormat_swallows {c : Char} (hc : c = 'Z' ∨ c = 'z') {s : Str} (h : 6 ≤ s.length) :
    stripFormat ('%' :: c :: s) = stripFormat (s.drop 6) := by
  rcases hc with rfl | rfl
  · exact stripFormat_of_percentCode (if_pos ⟨rfl, h⟩)
  · exact stripFormat_of_percentCode ((if_neg (fun hz => nomatch hz.1)).trans (if_pos ⟨rfl, h⟩))

theorem stripFormat_quiet {c : Char} (hc : c ∈ 'U' :: 'I' :: quietCodes) (s : Str) :
    stripFormat ('%' :: c :: s) = stripFormat s := by
  have hcode : ∃ acts, percentCode c s = (acts, 0 + 2) ∧ acts.flatMap Action.text = [] := by
    revert c
    have hcodes : 'U' :: 'I' :: quietCodes = ['U', 'I', 'N', 'n', '_', 'u', 'i', 'd', 'k', 'K',
        'r', 'R', 'g', 'G', 'y', 'Y', 'b', 'B', 'm', 'M', 'c', 'C', 'w', 'W'] := by decide
    rw [hcodes]
    simp only [List.forall_mem_cons]
    and_intros
    all_goals first
      | exact ⟨_, rfl, rfl⟩
      | exact nofun
  obtain ⟨acts, hacts, htext⟩ := hcode
  rw [stripFormat_of_percentCode hacts, htext]
  rfl

theorem stripFormat_unknown {c : Char} (hc : c ∉ 'U' :: 'I' :: '%' :: quietCodes) {s : Str}
    (hz : c = 'Z' ∨ c = 'z' → s.length < 6) :
    stripFormat ('%' :: c :: s) = '%' :: c :: stripFormat s := by
  have hcode : percentCode c s = ([.push '%', .push c], 0 + 2) := by
    have hcolor : irssiColor c = none := by
      unfold irssiColor
      split
      all_goals first
        | rfl
        | exact absurd (by decide) hc
    have hZ : ¬ (c = 'Z' ∧ 6 ≤ s.length) := fun h => Nat.not_le.mpr (hz (.inl h.1)) h.2
    have hz : ¬ (c = 'z' ∧ 6 ≤ s.length) := fun h => Nat.not_le.mpr (hz (.inr h.1)) h.2
    rw [percentCode.eq_def, if_neg hZ, if_neg hz]
    split
    all_goals first
      | exact absurd (by decide) hc
      | rw [hcolor]
  exact stripFormat_of_percentCode hcode

/-- The comma behind the number of a color is read without a digit behind it, too. -/
def webMircLength (s : Str) : Nat :=
  mircLength s + if !(digits s).isEmpty && looseComma (s.drop (digits s).length) then 1 else 0

theorem stripFormat_mirc (s : Str) :
    stripFormat (Char.ofNat 0x03 :: s) = stripFormat (s.drop (webMircLength s)) := by
  have hround : round (Char.ofNat 0x03 :: s) = mircCode s := rfl
  have hmirc : ∃ f, mircCode s = ([.restyle f], webMircLength s + 1) := by
    unfold mircCode
    rw [webMircLength, mircLength]
    dsimp only
    cases hdigits : (digits s).isEmpty with
    | true => exact ⟨_, rfl⟩
    | false =>
      rw [if_neg Bool.false_ne_true, if_neg Bool.false_ne_true, Bool.not_false, Bool.true_and]
      split
      · rename_i rest hcomma
        rw [hcomma, backgroundLength, looseComma]
        refine ⟨_, Prod.ext rfl ?_⟩
        cases hrest : (digits rest).isEmpty with
        | true =>
          rw [List.isEmpty_iff.mp hrest, if_pos rfl, if_pos rfl, List.length_nil]
          omega
        | false =>
          rw [if_neg Bool.false_ne_true, if_neg Bool.false_ne_true]
          omega
      · rename_i hcomma
        rw [backgroundLength, looseComma]
        · exact ⟨_, Prod.ext rfl (Nat.add_comm _ _)⟩
        · exact hcomma
        · exact hcomma
  obtain ⟨f, hf⟩ := hmirc
  rw [stripFormat_round (List.cons_ne_nil _ _), hround, hf]
  rfl

theorem stripFormat_hexColor (s : Str) :
    stripFormat (Char.ofNat 0x04 :: s) = stripFormat (s.drop (if hexFront s then 6 else 0)) := by
  have hround : round (Char.ofNat 0x04 :: s) = hexCode s := rfl
  rw [stripFormat_round (List.cons_ne_nil _ _), hround, hexCode]
  split <;> rfl

theorem stripFormat_control {c : Char} (hc : c ∈ quietControls) (s : Str) :
    stripFormat (c :: s) = stripFormat s := by
  have hround : ∃ acts, round (c :: s) = (acts, 1) ∧ acts.flatMap Action.text = [] := by
    revert c
    have hcodes : quietControls = [0x02, 0x0F, 0x16, 0x1D, 0x1E, 0x1F].map Char.ofNat := rfl
    rw [hcodes]
    simp only [List.map_cons, List.map_nil, List.forall_mem_cons]
    and_intros
    all_goals first
      | exact ⟨_, rfl, rfl⟩
      | exact nofun
  obtain ⟨acts, hacts, htext⟩ := hround
  rw [stripFormat_round (List.cons_ne_nil _ _), hacts, htext]
  rfl

/-! ### The arguments of a code -/

/-- A text of hexadecimal digits and commas, of which each comma has a digit behind it. -/
def isArgs : Str → Bool
  | [] => true
  | c :: s => (isHexChar c || c = ',' && s.head?.any isHexChar) && isArgs s

theorem isHexChar_of_isDigit {c : Char} (h : c.isDigit = true) : isHexChar c = true := by
  have hlt := lt_of_isDigit h
  rw [isHexChar, decide_eq_true hlt, Theme.isAsciiHexdigit, isAsciiDigit_ofNat hlt, h]
  rfl

theorem isHexChar_of_mem_digits {c : Char} {s : Str} (h : c ∈ digits s) : isHexChar c = true :=
  isHexChar_of_isDigit (isDigit_of_mem_digits h)

theorem isArgs_append {a b : Str} (ha : ∀ c ∈ a, isHexChar c = true) (hb : isArgs b = true) :
    isArgs (a ++ b) = true := by
  induction a with
  | nil => exact hb
  | cons c a ih =>
    rw [List.forall_mem_cons] at ha
    rw [List.cons_append, isArgs, ha.1, ih ha.2]
    rfl

theorem isArgs_comma {a : Str} (hne : a ≠ []) (ha : ∀ c ∈ a, isHexChar c = true) :
    isArgs (',' :: a) = true := by
  have hrest := isArgs_append ha (b := []) rfl
  rw [List.append_nil] at hrest
  cases a with
  | nil => exact absurd rfl hne
  | cons c a =>
    have hc := ha c List.mem_cons_self
    rw [isArgs, hrest]
    simp [hc]

theorem isArgs_right {a b : Str} (h : isArgs (a ++ b) = true) : isArgs b = true := by
  induction a with
  | nil => exact h
  | cons c a ih =>
    rw [List.cons_append, isArgs, Bool.and_eq_true] at h
    exact ih h.2

theorem isArgs_background (s : Str) : isArgs (s.take (backgroundLength s)) = true := by
  unfold backgroundLength
  split
  · rename_i s
    split
    · rfl
    · rename_i hne
      rw [Nat.add_comm, List.take_succ_cons, take_digits]
      exact isArgs_comma (by simpa using hne) (fun c hc => isHexChar_of_mem_digits hc)
  · rfl

/-- The arguments of `0x03`. -/
theorem isArgs_mirc (s : Str) : isArgs (s.take (mircLength s)) = true := by
  unfold mircLength
  split
  · rfl
  · rw [List.take_add, take_digits]
    exact isArgs_append (fun c hc => isHexChar_of_mem_digits hc) (isArgs_background _)

theorem isHexChar_of_hexFront {s : Str} (h : hexFront s = true) :
    ∀ c ∈ s.take 6, isHexChar c = true := by
  rw [hexFront, Bool.and_eq_true, List.all_eq_true] at h
  exact h.2

theorem length_of_hexFront {s : Str} (h : hexFront s = true) : 6 ≤ s.length := by
  rw [hexFront, Bool.and_eq_true, decide_eq_true_eq] at h
  exact h.1

theorem isArgs_hexFront {s : Str} (h : hexFront s = true) : isArgs (s.take 6) = true := by
  have happend := isArgs_append (isHexChar_of_hexFront h) (b := []) rfl
  rwa [List.append_nil] at happend

theorem exists_of_hexBackground {s : Str} (h : hexBackground s = true) :
    ∃ t, s = ',' :: t ∧ hexFront t = true := by
  unfold hexBackground at h
  split at h
  · exact ⟨_, rfl, h⟩
  · cases h

/-- The arguments of `0x04`. -/
theorem isArgs_hex (s : Str) : isArgs (s.take (hexLength s)) = true := by
  unfold hexLength
  split
  · rename_i hfront
    split
    · rename_i hback
      obtain ⟨t, ht, hhex⟩ := exists_of_hexBackground hback
      have hne : t.take 6 ≠ [] := by
        rw [← List.length_pos_iff, List.length_take]
        have hlen := length_of_hexFront hhex
        omega
      rw [show 13 = 6 + 7 from rfl, List.take_add, ht, List.take_succ_cons]
      exact isArgs_append (isHexChar_of_hexFront hfront)
        (isArgs_comma hne (isHexChar_of_hexFront hhex))
    · exact isArgs_hexFront hfront
  · rfl

/-- A hexadecimal digit, or a comma. -/
def isArg (c : Char) : Bool := isHexChar c || c = ','

theorem isArg_of_isArgs {a : Str} (h : isArgs a = true) : ∀ c ∈ a, isArg c = true := by
  induction a with
  | nil => exact fun c hc => nomatch hc
  | cons c a ih =>
    rw [isArgs, Bool.and_eq_true, Bool.or_eq_true, Bool.and_eq_true] at h
    rw [List.forall_mem_cons]
    refine ⟨?_, ih h.2⟩
    rw [isArg, Bool.or_eq_true]
    exact h.1.imp id And.left

/-- Where a comma is loose, the terminal stops in front of it. -/
theorem drop_of_looseComma {s : Str} (hdigits : (digits s).isEmpty = false)
    (h : looseComma (s.drop (digits s).length) = true) :
    ∃ t, s.drop (mircLength s) = ',' :: t := by
  rw [mircLength, hdigits, if_neg Bool.false_ne_true, ← List.drop_drop]
  generalize s.drop (digits s).length = rest at h ⊢
  unfold looseComma at h
  split at h
  · rename_i t
    rw [backgroundLength, h]
    exact ⟨t, rfl⟩
  · cases h

/-- The arguments that the web client reads of `0x03`. -/
theorem isArg_webMirc (s : Str) : ∀ c ∈ s.take (webMircLength s), isArg c = true := by
  intro c hc
  rw [webMircLength, List.take_add, List.mem_append] at hc
  rcases hc with hc | hc
  · exact isArg_of_isArgs (isArgs_mirc s) c hc
  · split at hc
    · rename_i hloose
      rw [Bool.and_eq_true, Bool.not_eq_true'] at hloose
      obtain ⟨t, ht⟩ := drop_of_looseComma hloose.1 hloose.2
      rw [ht, List.take_succ_cons, List.take_zero, List.mem_singleton] at hc
      rw [hc]
      rfl
    · rw [List.take_zero] at hc
      cases hc

/-- An argument is no code, in neither parser. -/
theorem plain_of_isArg {c : Char} (h : isArg c = true) : c ≠ '%' ∧ c ∉ mircControls := by
  constructor
  · rintro rfl
    exact absurd h (by decide)
  · intro hc
    have hall : mircControls.all (fun d => !isArg d) = true := by decide +kernel
    have hno := List.all_eq_true.mp hall c hc
    rw [h] at hno
    cases hno

theorem terminalText_append {a : Str} (h : ∀ c ∈ a, isArg c = true) (s : Str) :
    terminalText (a ++ s) = a ++ terminalText s := by
  induction a with
  | nil => rfl
  | cons c a ih =>
    rw [List.forall_mem_cons] at h
    have hplain := plain_of_isArg h.1
    rw [List.cons_append, terminalText_plain hplain.1 hplain.2, ih h.2]
    rfl

theorem stripFormat_append {a : Str} (h : ∀ c ∈ a, isArg c = true) (s : Str) :
    stripFormat (a ++ s) = a ++ stripFormat s := by
  induction a with
  | nil => rfl
  | cons c a ih =>
    rw [List.forall_mem_cons] at h
    have hplain := plain_of_isArg h.1
    rw [List.cons_append,
      stripFormat_plain hplain.1 (fun hc => hplain.2 ((List.dropLast_sublist _).subset hc)), ih h.2]
    rfl

theorem hasStray_drop {s : Str} {n : Nat} (h : ∀ c ∈ s.take n, isArg c = true) :
    hasStray (s.drop n) = hasStray s := by
  have happend := Theme.hasStray_append_of_ne (fun c hc => (plain_of_isArg (h c hc)).1) (s.drop n)
  rw [List.take_append_drop] at happend
  exact happend.symm

/-! ### In step -/

/-- What a character is at the front of a text. -/
inductive Front : Char → Prop where
  | percent : Front '%'
  | mirc : Front (Char.ofNat 0x03)
  | hexColor : Front (Char.ofNat 0x04)
  | monospace : Front (Char.ofNat 0x11)
  | quiet {c : Char} (h : c ∈ quietControls) : Front c
  | plain {c : Char} (hp : c ≠ '%') (hc : c ∉ mircControls) : Front c

theorem front (c : Char) : Front c := by
  by_cases hp : c = '%'
  · exact hp ▸ .percent
  by_cases hc : c ∈ mircControls
  · have hcodes : mircControls =
        [0x02, 0x03, 0x04, 0x0F, 0x16, 0x1D, 0x1E, 0x1F, 0x11].map Char.ofNat := rfl
    rw [hcodes] at hc
    simp only [List.map_cons, List.map_nil, List.mem_cons, List.not_mem_nil, or_false] at hc
    rcases hc with rfl | rfl | rfl | rfl | rfl | rfl | rfl | rfl | rfl
    · exact .quiet (by decide)
    · exact .mirc
    · exact .hexColor
    · exact .quiet (by decide)
    · exact .quiet (by decide)
    · exact .quiet (by decide)
    · exact .quiet (by decide)
    · exact .quiet (by decide)
    · exact .monospace
  · exact .plain hp hc

/-- What a character is behind a `%`. -/
inductive Letter : Char → Prop where
  | hex {c : Char} (h : c = 'Z' ∨ c = 'z') : Letter c
  | percent : Letter '%'
  | quiet {c : Char} (h : c ∈ quietCodes) : Letter c
  | upper {c : Char} (h : c = 'U' ∨ c = 'I') : Letter c
  | bar : Letter '|'
  | unknown {c : Char} (h : isUnknownCode c = true) (hweb : c ∉ 'U' :: 'I' :: '%' :: quietCodes)
      (hz : ¬ (c = 'Z' ∨ c = 'z')) : Letter c
  | stray {c : Char} (h : 128 ≤ c.toNat) : Letter c

theorem letter (c : Char) : Letter c := by
  by_cases hlt : c.toNat < 128
  · by_cases hz : c = 'Z' ∨ c = 'z'
    · exact .hex hz
    by_cases hupper : c = 'U' ∨ c = 'I'
    · exact .upper hupper
    by_cases hp : c = '%'
    · exact hp ▸ .percent
    by_cases hq : c ∈ quietCodes
    · exact .quiet hq
    by_cases hb : c = '|'
    · exact hb ▸ .bar
    have hcodes : plainCodes ⊆ '%' :: '|' :: quietCodes := by decide
    refine .unknown ?_ ?_ hz
    · rw [isUnknownCode, decide_eq_true hlt, Bool.true_and, Bool.not_eq_true', ← Bool.not_eq_true,
        List.contains_iff_mem, List.mem_append]
      rintro (hmem | hmem)
      · simpa [hp, hb, hq] using hcodes hmem
      · exact hz (by simpa using hmem)
    · simp only [List.mem_cons, not_or]
      exact ⟨fun h => hupper (.inl h), fun h => hupper (.inr h), hp, hq⟩
  · exact .stray (Nat.le_of_not_lt hlt)

theorem splits_cons_of_ne {c : Char} (h : c ≠ '%') (s : Str) :
    splits (c :: s) =
      if c = Char.ofNat 0x03 then !(digits s).isEmpty && looseComma (s.drop (digits s).length)
      else if c = Char.ofNat 0x04 then hexFront s && hexBackground (s.drop 6)
      else c = Char.ofNat 0x11 := by
  rw [splits]
  exact fun d t hc _ => h hc

theorem codeLength_cons_of_ne {c : Char} (h : c ≠ '%') (s : Str) :
    codeLength (c :: s) =
      if c = Char.ofNat 0x03 then 1 + mircLength s
      else if c = Char.ofNat 0x04 then 1 + hexLength s
      else 1 := by
  rw [codeLength]
  exact fun d t hc _ => h hc

theorem splits_percent (c : Char) (s : Str) :
    splits ('%' :: c :: s) =
      if c = 'Z' ∨ c = 'z' then 6 ≤ s.length && !hexFront s
      else c = 'U' || c = 'I' || c = '|' || 128 ≤ c.toNat := rfl

/-- The two parsers show the same of what is at the front of `s`. -/
structure Agree (s : Str) (u : Str) : Prop where
  terminal : terminalText s = u ++ terminalText (s.drop (codeLength s))
  web : stripFormat s = u ++ stripFormat (s.drop (codeLength s))
  stray : hasStray s = hasStray (s.drop (codeLength s))

theorem ne_hex_of_mem {c : Char} (h : c ∈ '%' :: quietCodes) :
    c.toNat < 128 ∧ ¬ (c = 'Z' ∨ c = 'z') := by
  have hall : ('%' :: quietCodes).all
      (fun d => d.toNat < 128 && !(d = 'Z' || d = 'z')) = true := by decide +kernel
  simpa using List.all_eq_true.mp hall c h

theorem agree_percent (c : Char) (s : Str) (h : splits ('%' :: c :: s) = false) :
    ∃ u, Agree ('%' :: c :: s) u := by
  have hstray : c.toNat < 128 → hasStray ('%' :: c :: s) = hasStray s := by
    intro hlt
    rw [hasStray, decide_eq_false (Nat.not_le.mpr hlt), Bool.false_or]
  have hshort : ¬ (c = 'Z' ∨ c = 'z') → codeLength ('%' :: c :: s) = 2 :=
    fun hz => if_neg (fun hhex => hz hhex.1)
  rw [splits_percent] at h
  cases letter c with
  | hex hz =>
    have hlt : c.toNat < 128 := by rcases hz with rfl | rfl <;> decide
    rw [if_pos hz] at h
    cases hfront : hexFront s with
    | true =>
      have hlen : codeLength ('%' :: c :: s) = 8 := if_pos ⟨hz, hfront⟩
      refine ⟨[], ⟨?_, ?_, ?_⟩⟩
      · rw [terminalText_hex hz hfront, hlen]
        rfl
      · rw [stripFormat_swallows hz (length_of_hexFront hfront), hlen]
        rfl
      · rw [hstray hlt, hlen]
        exact (hasStray_drop (isArg_of_isArgs (isArgs_hexFront hfront))).symm
    | false =>
      have hlen : codeLength ('%' :: c :: s) = 2 :=
        if_neg (fun hhex => Bool.false_ne_true (hfront.symm.trans hhex.2))
      rw [hfront, Bool.not_false, Bool.and_true, decide_eq_false_iff_not] at h
      have hno : c ∉ 'U' :: 'I' :: '%' :: quietCodes := by rcases hz with rfl | rfl <;> decide
      refine ⟨['%', c], ⟨?_, ?_, ?_⟩⟩
      · rw [terminalText_broken hz hfront, hlen]
        rfl
      · rw [stripFormat_unknown hno (fun _ => Nat.lt_of_not_le h), hlen]
        rfl
      · rw [hstray hlt, hlen]
        rfl
  | percent =>
    refine ⟨['%'], ⟨?_, ?_, ?_⟩⟩
    · exact terminalText_percent_percent s
    · exact stripFormat_percent_percent s
    · exact hstray (by decide)
  | quiet hq =>
    obtain ⟨hlt, hz⟩ := ne_hex_of_mem (List.mem_cons_of_mem '%' hq)
    refine ⟨[], ⟨?_, ?_, ?_⟩⟩
    · rw [terminalText_quiet (List.mem_cons_of_mem _ hq), hshort hz]
      rfl
    · rw [stripFormat_quiet (List.mem_cons_of_mem _ (List.mem_cons_of_mem _ hq)), hshort hz]
      rfl
    · rw [hstray hlt, hshort hz]
      rfl
  | upper hupper => rcases hupper with rfl | rfl <;> simp at h
  | bar => simp at h
  | unknown hunknown hweb hz =>
    refine ⟨['%', c], ⟨?_, ?_, ?_⟩⟩
    · rw [terminalText_unknown hunknown, hshort hz]
      rfl
    · rw [stripFormat_unknown hweb (fun hhex => absurd hhex hz), hshort hz]
      rfl
    · rw [hstray (Theme.ne_of_isUnknownCode hunknown).1, hshort hz]
      rfl
  | stray hle =>
    have hz : ¬ (c = 'Z' ∨ c = 'z') := by
      rintro (rfl | rfl) <;> exact absurd hle (by decide)
    rw [if_neg hz, decide_eq_true hle, Bool.or_true] at h
    cases h

/-- **A code that does not split the two parsers** is read alike. -/
theorem agree_of_not_splits {s : Str} (hs : s ≠ []) (h : splits s = false) : ∃ u, Agree s u := by
  cases s with
  | nil => exact absurd rfl hs
  | cons c s =>
    cases front c with
    | percent =>
      cases s with
      | nil =>
        refine ⟨['%'], ?_, rfl, rfl⟩
        rw [terminalText_percent]
        exact (congrArg _ terminalText_nil).symm
      | cons d s => exact agree_percent d s h
    | mirc =>
      rw [splits_cons_of_ne (by decide), if_pos rfl] at h
      have hlen : codeLength (Char.ofNat 0x03 :: s) = mircLength s + 1 := by
        rw [codeLength_cons_of_ne (by decide), if_pos rfl, Nat.add_comm]
      have hweb : webMircLength s = mircLength s := by
        rw [webMircLength, h]
        rfl
      refine ⟨[], ⟨?_, ?_, ?_⟩⟩
      · rw [terminalText_mirc, hlen]
        rfl
      · rw [stripFormat_mirc, hweb, hlen]
        rfl
      · rw [Theme.hasStray_cons_of_ne (by decide), hlen]
        exact (hasStray_drop (isArg_of_isArgs (isArgs_mirc s))).symm
    | hexColor =>
      rw [splits_cons_of_ne (by decide), if_neg (by decide), if_pos rfl] at h
      have hlen : codeLength (Char.ofNat 0x04 :: s) = hexLength s + 1 := by
        rw [codeLength_cons_of_ne (by decide), if_neg (by decide), if_pos rfl, Nat.add_comm]
      have hweb : (if hexFront s then 6 else 0) = hexLength s := by
        rw [hexLength]
        cases hfront : hexFront s with
        | true =>
          rw [hfront, Bool.true_and] at h
          rw [h]
          rfl
        | false => rfl
      refine ⟨[], ⟨?_, ?_, ?_⟩⟩
      · rw [terminalText_hexColor, hlen]
        rfl
      · rw [stripFormat_hexColor, hweb, hlen]
        rfl
      · rw [Theme.hasStray_cons_of_ne (by decide), hlen]
        exact (hasStray_drop (isArg_of_isArgs (isArgs_hex s))).symm
    | monospace => cases (splits_cons_of_ne (by decide) s).symm.trans h
    | quiet hq =>
      have hne : c ≠ '%' ∧ c ≠ Char.ofNat 0x03 ∧ c ≠ Char.ofNat 0x04 := by
        refine ⟨?_, ?_, ?_⟩ <;> (rintro rfl; exact absurd hq (by decide))
      have hlen : codeLength (c :: s) = 1 := by
        rw [codeLength_cons_of_ne hne.1, if_neg hne.2.1, if_neg hne.2.2]
      refine ⟨[], ⟨?_, ?_, ?_⟩⟩
      · rw [terminalText_control (List.mem_cons_of_mem _ hq), hlen]
        rfl
      · rw [stripFormat_control hq, hlen]
        rfl
      · rw [Theme.hasStray_cons_of_ne hne.1, hlen]
        rfl
    | plain hp hc =>
      have hne : c ≠ Char.ofNat 0x03 ∧ c ≠ Char.ofNat 0x04 := by
        refine ⟨?_, ?_⟩ <;> (rintro rfl; exact hc (by decide))
      have hlen : codeLength (c :: s) = 1 := by
        rw [codeLength_cons_of_ne hp, if_neg hne.1, if_neg hne.2]
      refine ⟨[c], ⟨?_, ?_, ?_⟩⟩
      · rw [terminalText_plain hp hc, hlen]
        rfl
      · rw [stripFormat_plain hp (fun h => hc ((List.dropLast_sublist _).subset h)), hlen]
        rfl
      · rw [Theme.hasStray_cons_of_ne hp, hlen]
        rfl

/-- A text that is in step shows the same in both. -/
theorem texts_of_inStep {s : Str} (h : InStep s) :
    hasStray s = false ∧ terminalText s = stripFormat s := by
  induction h with
  | nil => exact ⟨rfl, terminalText_nil⟩
  | code hs hsplits _ ih =>
    obtain ⟨u, hu⟩ := agree_of_not_splits hs hsplits
    exact ⟨hu.stray.trans ih.1, by rw [hu.terminal, hu.web, ih.2]⟩

end Repartee.Web
