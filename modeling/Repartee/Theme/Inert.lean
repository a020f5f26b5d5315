import Repartee.Theme.Message

/-!
# Texts without codes

The text of a message is spliced into a format before the format is parsed, so its percent signs
take part in the parsing. A text is inert if its percent signs form no codes, whatever follows:
it is then read character by character.

## Main definitions

- `styled`: the characters of some spans, each in its style
- `inert`: a text whose percent signs form no codes
- `shown`: how many characters some effects write

## Main results

- `actions_inert_append`: an inert text is read character by character
- `exists_spoiler`: any other text loses characters, or crashes the parser, in some place
-/

set_option autoImplicit false

namespace Repartee.Theme

/-! ### Styled characters -/

/-- The characters of some spans, each in its style. -/
def styled (spans : List StyledSpan) : List (Char × StyleState) :=
  spans.flatMap (fun span => span.text.map (fun c => (c, span.style)))

@[simp] theorem styled_nil : styled [] = [] := rfl

@[simp] theorem styled_append (a b : List StyledSpan) : styled (a ++ b) = styled a ++ styled b :=
  List.flatMap_append

namespace Pen

/-- What a pen has written, each character in its style. -/
def written (p : Pen) : List (Char × StyleState) :=
  styled p.spans ++ p.buffer.map (fun c => (c, p.current))

theorem flush_eq (p : Pen) :
    p.flush = { p with buffer := [], spans := p.spans ++
      if p.buffer.isEmpty then [] else [p.current.toSpan p.buffer] } := by
  unfold flush
  split
  · rename_i h
    rw [List.append_nil, ← List.isEmpty_iff.mp h]
  · rfl

@[simp] theorem flush_current (p : Pen) : p.flush.current = p.current := by rw [flush_eq]

@[simp] theorem flush_buffer (p : Pen) : p.flush.buffer = [] := by rw [flush_eq]

@[simp] theorem flush_flush (p : Pen) : p.flush.flush = p.flush := by
  rw [flush, if_pos (by rw [flush_buffer]; rfl)]

/-- Flushing writes the buffered text. -/
theorem styled_flush (p : Pen) : styled p.flush.spans = p.written := by
  rw [flush_eq, written]
  dsimp only
  rw [styled_append]
  split
  · rename_i h
    rw [List.isEmpty_iff.mp h]
    rfl
  · simp [styled, StyleState.toSpan]

/-- A pen with some spans before its own. -/
def after (spans : List StyledSpan) (p : Pen) : Pen := { p with spans := spans ++ p.spans }

theorem flush_after (spans : List StyledSpan) (p : Pen) :
    (p.after spans).flush = p.flush.after spans := by
  rw [flush_eq, flush_eq]
  simp [after, List.append_assoc]

theorem act_after (spans : List StyledSpan) (p : Pen) (a : Action) :
    (p.after spans).act a = (p.act a).after spans := by
  cases a with
  | push c => rfl
  | restyle f =>
    show (p.after spans).restyle f = (p.restyle f).after spans
    rw [restyle, restyle, flush_after]
    rfl

/-- A pen only adds to its spans. -/
theorem foldl_after (spans : List StyledSpan) (acts : List Action) (p : Pen) :
    acts.foldl act (p.after spans) = (acts.foldl act p).after spans := by
  induction acts generalizing p with
  | nil => rfl
  | cons a acts ih => rw [List.foldl_cons, List.foldl_cons, act_after, ih]

/-- A change of style starts from a flushed pen. -/
theorem restyle_flush (p : Pen) (f : StyleState → StyleState) :
    p.flush.restyle f = p.restyle f := by
  rw [restyle, restyle, flush_flush, flush_current]

/-- A flushed pen is a new one behind its spans. -/
theorem flush_eq_after (p : Pen) : p.flush = (⟨p.current, [], []⟩ : Pen).after p.flush.spans := by
  rw [after, List.append_nil, flush_eq]

end Pen

/-- Whether an effect is text for the buffer. -/
def Action.isPush : Action → Bool
  | .push _ => true
  | .restyle _ => false

/-- From the first change of style on, the spans do not depend on the text before them. -/
theorem spans_of_restyle_first {acts : List Action} (p : Pen)
    (h : ∀ a, acts.head? = some a → a.isPush = false) :
    (acts.foldl Pen.act p).flush.spans =
      p.flush.spans ++ (acts.foldl Pen.act ⟨p.current, [], []⟩).flush.spans := by
  have hflush : (acts.foldl Pen.act p).flush = (acts.foldl Pen.act p.flush).flush := by
    cases acts with
    | nil => exact (Pen.flush_flush p).symm
    | cons a acts =>
      cases a with
      | push c => cases h _ rfl
      | restyle f =>
        rw [List.foldl_cons, List.foldl_cons]
        show ((acts.foldl Pen.act (p.restyle f)).flush =
          (acts.foldl Pen.act (p.flush.restyle f)).flush)
        rw [Pen.restyle_flush]
  rw [hflush]
  conv_lhs => rw [Pen.flush_eq_after p, Pen.foldl_after, Pen.flush_after]
  rfl

/-! ### Texts without codes -/

/-- The characters that are codes behind a `%`, without an argument. -/
def plainCodes : Str := str "Nn_uid|%kKrRgGyYbBmMcCwW"

/-- An ASCII character that is no code behind a `%`. -/
def isUnknownCode (c : Char) : Bool :=
  c.toNat < 128 && !(plainCodes ++ ['Z', 'z']).contains c

def isHexChar (c : Char) : Bool := c.toNat < 128 && isAsciiHexdigit (UInt8.ofNat c.toNat)

/-- Within the first six characters there is one that is no hexadecimal digit. -/
def breaksHex (s : Str) : Bool := (s.take 6).any (fun c => !isHexChar c)

/-- A text whose percent signs form no codes, whatever follows it: every `%` is followed by an
ASCII character that is no code, or by a `Z` or `z` with something else than six hexadecimal
digits behind it. -/
def inert : Str → Bool
  | '%' :: c :: rest => (isUnknownCode c || (c = 'Z' || c = 'z') && breaksHex rest) && inert rest
  | ['%'] => false
  | _ :: rest => inert rest
  | [] => true

/-- The control characters that the parser reads. -/
def mircControls : Str := [0x02, 0x03, 0x04, 0x0F, 0x16, 0x1D, 0x1E, 0x1F, 0x11].map Char.ofNat

/-- A text without mIRC control characters. -/
def NoControls (s : Str) : Prop := ∀ c ∈ s, c ∉ mircControls

/-- The control characters are in front of the space. -/
theorem lt_of_mem_mircControls {c : Char} (h : c ∈ mircControls) : c.toNat < 0x20 := by
  have hall : mircControls.all (fun d => d.toNat < 0x20) = true := by decide +kernel
  exact of_decide_eq_true (List.all_eq_true.mp hall c h)

theorem noControls_of_all {s : Str} (h : s.all (fun c => 0x20 ≤ c.toNat) = true) :
    NoControls s := by
  intro c hc hcontrol
  have hle : 0x20 ≤ c.toNat := of_decide_eq_true (List.all_eq_true.mp h c hc)
  exact Nat.not_le.mpr (lt_of_mem_mircControls hcontrol) hle

/-- The effects of an inert text. -/
def textActions : Str → List Action
  | '%' :: c :: rest =>
    (if c = 'Z' || c = 'z' then [.restyle id] else []) ++ .push '%' :: .push c :: textActions rest
  | c :: rest => .push c :: textActions rest
  | [] => []

theorem round_plain {c : Char} (hp : c ≠ '%') (hc : c ∉ mircControls) (s : Str) :
    round (c :: s) = ([.push c], 1) := by
  have hcode : code (Utf8.encode (c :: s)) = none := by
    by_cases hlt : c.toNat < 128
    · rw [Utf8.encode_cons_of_lt hlt]
      have hne : ∀ d : Char, d.toNat < 128 → c ≠ d → UInt8.ofNat c.toNat ≠ UInt8.ofNat d.toNat :=
        fun d hd h he => h (Utf8.eq_of_ofNat_toNat_eq hlt hd he)
      have hctl : ∀ d ∈ mircControls, UInt8.ofNat c.toNat ≠ UInt8.ofNat d.toNat := by
        intro d hd
        have hlt := lt_of_mem_mircControls hd
        exact hne d (by omega) (fun h => hc (h ▸ hd))
      have h25 : UInt8.ofNat c.toNat ≠ 0x25 := hne '%' (by decide) hp
      have hbyte : ∀ b ∈ ([0x02, 0x03, 0x04, 0x0F, 0x16, 0x1D, 0x1E, 0x1F, 0x11] : List UInt8),
          UInt8.ofNat c.toNat ≠ b := by
        simpa [mircControls] using hctl
      simp only [List.forall_mem_cons] at hbyte
      obtain ⟨h02, h03, h04, h0F, h16, h1D, h1E, h1F, h11, -⟩ := hbyte
      rw [code, if_neg h25, if_neg h02, if_neg h03, if_neg h04, if_neg h0F, if_neg h16, if_neg h1D,
        if_neg h1E, if_neg h1F, if_neg h11]
    · obtain ⟨b, b', bs, he, hall⟩ := Utf8.encodeChar_of_le (Nat.le_of_not_lt hlt)
      rw [Utf8.encode_cons, he]
      exact code_of_le (hall b List.mem_cons_self) _
  rw [round, hcode]
  rfl

theorem asChar_ofNat {c : Char} (h : c.toNat < 128) : asChar (UInt8.ofNat c.toNat) = c := by
  rw [asChar, UInt8.toNat_ofNat', Nat.mod_eq_of_lt (by omega), Char.ofNat_toNat]

theorem round_percent {c : Char} (hc : c.toNat < 128) (s : Str) :
    round ('%' :: c :: s) = percentCode (UInt8.ofNat c.toNat :: Utf8.encode s) := by
  rw [round, Utf8.encode_cons_of_lt (by decide), Utf8.encode_cons_of_lt hc]
  rfl

theorem round_unknown {c : Char} (h : isUnknownCode c = true) (s : Str) :
    round ('%' :: c :: s) = ([.push '%', .push c], 2) := by
  rw [isUnknownCode, Bool.and_eq_true, decide_eq_true_eq] at h
  obtain ⟨hlt, hno⟩ := h
  rw [round_percent hlt, percentCode, asChar_ofNat hlt]
  have hmem : c ∉ plainCodes ++ ['Z', 'z'] := by simpa using hno
  have hcolor : colorMap c = none := by
    unfold colorMap
    split
    all_goals first
      | rfl
      | exact absurd (by decide) hmem
  split
  all_goals first
    | exact absurd (by decide) hmem
    | skip
  rw [hcolor]

/-- Six hexadecimal bytes are six hexadecimal digits. -/
theorem exists_of_readHex6 {s hex : Str} (h : readHex6 (Utf8.encode s) = some hex) :
    6 ≤ s.length ∧ ∀ c ∈ s.take 6, isHexChar c = true := by
  have hargs := args_of_readHex6 h
  obtain ⟨a, t, rfl, hlen, hplain⟩ := exists_of_args hargs
  rw [← hlen, List.take_left, List.length_append]
  refine ⟨Nat.le_add_right _ _, fun c hc => ?_⟩
  have hlt := (hplain c hc).1
  have htake : (Utf8.encode (a ++ t)).take 6 = Utf8.encode a := by
    rw [Utf8.encode_append, ← hlen, ← Utf8.byteLen_of_ascii (fun c hc => (hplain c hc).1)]
    exact List.take_left' (Utf8.length_encode a)
  have hmem : UInt8.ofNat c.toNat ∈ Utf8.encode a := by
    refine List.mem_flatMap.mpr ⟨c, hc, ?_⟩
    rw [Utf8.encodeChar_of_lt hlt]
    exact List.mem_singleton_self _
  unfold readHex6 at h
  dsimp only at h
  split at h
  · rename_i hall
    rw [htake] at hall
    rw [isHexChar, decide_eq_true hlt, Bool.true_and]
    exact List.all_eq_true.mp hall.2 _ hmem
  · cases h

theorem readHex6_of_breaksHex {rest : Str} (h : breaksHex rest = true) (post : Str) :
    readHex6 (Utf8.encode (rest ++ post)) = none := by
  by_contra hne
  obtain ⟨hex, hhex⟩ := Option.ne_none_iff_exists'.mp hne
  obtain ⟨-, hall⟩ := exists_of_readHex6 hhex
  obtain ⟨c, hc, hno⟩ := List.any_eq_true.mp h
  have hmem : c ∈ (rest ++ post).take 6 := by
    rw [List.take_append]
    exact List.mem_append_left _ hc
  rw [hall c hmem] at hno
  cases hno

theorem round_brokenHex {c : Char} (hc : c = 'Z' ∨ c = 'z') {rest : Str}
    (h : breaksHex rest = true) (post : Str) :
    round ('%' :: c :: (rest ++ post)) = ([.restyle id, .push '%', .push c], 2) := by
  have hhex := readHex6_of_breaksHex h post
  rcases hc with rfl | rfl
  · rw [round_percent (by decide)]
    show hexCode 'Z' StyleState.setFg (Utf8.encode (rest ++ post)) = _
    rw [hexCode, hhex]
  · rw [round_percent (by decide)]
    show hexCode 'z' StyleState.setBg (Utf8.encode (rest ++ post)) = _
    rw [hexCode, hhex]

theorem ne_of_isUnknownCode {c : Char} (h : isUnknownCode c = true) :
    c.toNat < 128 ∧ ¬ (c = 'Z' ∨ c = 'z') := by
  rw [isUnknownCode, Bool.and_eq_true, decide_eq_true_eq] at h
  refine ⟨h.1, ?_⟩
  rintro (rfl | rfl) <;> exact absurd h.2 (by decide)

/-- The pairs of an inert text: a `%` and a character that makes no code of it. -/
def isPair (c : Char) (rest : Str) : Bool :=
  isUnknownCode c || (c = 'Z' || c = 'z') && breaksHex rest

theorem isPair_cases {c : Char} {rest : Str} (h : isPair c rest = true) :
    isUnknownCode c = true ∨ (c = 'Z' ∨ c = 'z') ∧ breaksHex rest = true := by
  simpa [isPair] using h

theorem isPair_ascii {c : Char} {rest : Str} (h : isPair c rest = true) : c.toNat < 128 := by
  rcases isPair_cases h with hunknown | ⟨rfl | rfl, -⟩
  · exact (ne_of_isUnknownCode hunknown).1
  · decide
  · decide

/-- A pair of an inert text is written out, whatever follows. -/
theorem round_pair {c : Char} {rest : Str} (h : isPair c rest = true) (post : Str) :
    round ('%' :: c :: (rest ++ post)) =
      ((if c = 'Z' || c = 'z' then [.restyle id] else []) ++ [.push '%', .push c], 2) := by
  rcases isPair_cases h with hunknown | ⟨hz, hbreaks⟩
  · rw [if_neg (by simpa using (ne_of_isUnknownCode hunknown).2)]
    exact round_unknown hunknown (rest ++ post)
  · rw [if_pos (by simpa using hz)]
    exact round_brokenHex hz hbreaks post

@[simp] theorem inert_pair (c : Char) (rest : Str) :
    inert ('%' :: c :: rest) = (isPair c rest && inert rest) := rfl

/-- The last case of a recursion over the pairs of a text is a character that is no `%`. -/
theorem ne_percent {c : Char} {rest : Str}
    (hpair : ∀ (d : Char) (rest' : Str), c = '%' → rest = d :: rest' → False)
    (hlast : c = '%' → rest = [] → False) : c ≠ '%' := by
  intro hc
  cases rest with
  | nil => exact hlast hc rfl
  | cons d rest => exact hpair d rest hc rfl

theorem inert_cons_of_ne {c : Char} (h : c ≠ '%') (rest : Str) :
    inert (c :: rest) = inert rest := by
  rw [inert]
  · exact fun d rest' hc _ => h hc
  · exact fun hc _ => h hc

theorem textActions_cons_of_ne {c : Char} (h : c ≠ '%') (rest : Str) :
    textActions (c :: rest) = .push c :: textActions rest := by
  rw [textActions]
  exact fun d rest' hc _ => h hc

/-! ### An inert text is read character by character -/

theorem NoControls.tail {c : Char} {s : Str} (h : NoControls (c :: s)) : NoControls s :=
  fun d hd => h d (List.mem_cons_of_mem c hd)

/-- **An inert text** is read character by character, whatever follows. -/
theorem actions_inert_append {t : Str} (hc : NoControls t) (h : inert t = true) (post : Str) :
    actions (t ++ post) = textActions t ++ actions post := by
  induction t using inert.induct with
  | case1 c rest ih =>
    rw [inert_pair, Bool.and_eq_true] at h
    have hround := round_pair h.1 post
    have hactions := @actions_append ['%', c] (rest ++ post) (List.cons_ne_nil _ _)
      (congrArg Prod.snd hround).symm
    show actions (['%', c] ++ (rest ++ post)) = _
    rw [hactions, ih hc.tail.tail h.2, textActions, List.append_assoc]
    show (round ('%' :: c :: (rest ++ post))).1 ++ _ = _
    rw [hround, List.append_assoc]
    rfl
  | case2 => cases h
  | case3 c rest hpair hlast ih =>
    have hp := ne_percent hpair hlast
    rw [inert_cons_of_ne hp] at h
    have hround := round_plain hp (hc c List.mem_cons_self) (rest ++ post)
    have hactions := @actions_append [c] (rest ++ post) (List.cons_ne_nil _ _)
      (congrArg Prod.snd hround).symm
    show actions ([c] ++ (rest ++ post)) = _
    rw [hactions, ih hc.tail h, textActions_cons_of_ne hp]
    show (round (c :: (rest ++ post))).1 ++ _ = _
    rw [hround]
    rfl
  | case4 => rfl

theorem actions_inert {t : Str} (hc : NoControls t) (h : inert t = true) :
    actions t = textActions t := by
  have hactions := actions_inert_append hc h []
  rwa [List.append_nil, actions_nil, List.append_nil] at hactions

theorem hasStray_inert_append {t : Str} (h : inert t = true) (post : Str) :
    hasStray (t ++ post) = hasStray post := by
  induction t using inert.induct with
  | case1 c rest ih =>
    rw [inert_pair, Bool.and_eq_true] at h
    rw [List.cons_append, List.cons_append, hasStray, ih h.2,
      decide_eq_false (Nat.not_le.mpr (isPair_ascii h.1)), Bool.false_or]
  | case2 => cases h
  | case3 c rest hpair hlast ih =>
    have hp := ne_percent hpair hlast
    rw [List.cons_append, hasStray_cons_of_ne hp, ih (inert_cons_of_ne hp rest ▸ h)]
  | case4 => rfl

/-! ### What the pen writes -/

namespace Pen

theorem written_push (p : Pen) (c : Char) : (p.push c).written = p.written ++ [(c, p.current)] := by
  simp [written, push, List.append_assoc]

theorem written_restyle (p : Pen) (f : StyleState → StyleState) :
    (p.restyle f).written = p.written := by
  have h := p.styled_flush
  rw [written, restyle]
  simpa using h

end Pen

/-- The characters that an effect writes. -/
def Action.text : Action → Str
  | .push c => [c]
  | .restyle _ => []

/-- Effects that keep the style write their text in it. -/
theorem written_foldl {acts : List Action} (p : Pen)
    (h : ∀ a ∈ acts, a.isPush = true ∨ a = .restyle id) :
    (acts.foldl Pen.act p).current = p.current ∧
      (acts.foldl Pen.act p).written =
        p.written ++ (acts.flatMap Action.text).map (fun c => (c, p.current)) := by
  induction acts generalizing p with
  | nil => simp
  | cons a acts ih =>
    rw [List.forall_mem_cons] at h
    have hcur : (p.act a).current = p.current := by
      rcases h.1 with hpush | rfl
      · cases a with
        | push c => rfl
        | restyle f => cases hpush
      · rfl
    have hwritten : (p.act a).written = p.written ++ a.text.map (fun c => (c, p.current)) := by
      cases a with
      | push c => exact Pen.written_push p c
      | restyle f =>
        rw [Action.text, List.map_nil, List.append_nil]
        exact Pen.written_restyle p f
    obtain ⟨ihcur, ihwritten⟩ := ih (p.act a) h.2
    rw [List.foldl_cons, ihcur, ihwritten, hcur, hwritten]
    simp

theorem textActions_quiet (t : Str) :
    (∀ a ∈ textActions t, a.isPush = true ∨ a = .restyle id) ∧
      (textActions t).flatMap Action.text = t := by
  induction t using textActions.induct with
  | case1 c rest ih =>
    rw [textActions]
    split
    · exact ⟨by simpa [Action.isPush] using ih.1, by simpa [Action.text] using ih.2⟩
    · exact ⟨by simpa [Action.isPush] using ih.1, by simpa [Action.text] using ih.2⟩
  | case2 c rest hne ih =>
    rw [textActions]
    · exact ⟨by simpa [Action.isPush] using ih.1, by simpa [Action.text] using ih.2⟩
    · exact hne
  | case3 => exact ⟨nofun, rfl⟩

/-! ### Counting characters -/

/-- How many characters some effects write. -/
def shown (acts : List Action) : Nat := (acts.flatMap Action.text).length

@[simp] theorem shown_nil : shown [] = 0 := rfl

@[simp] theorem shown_push (c : Char) (acts : List Action) :
    shown (.push c :: acts) = 1 + shown acts := by
  simp [shown, Action.text, Nat.add_comm]

@[simp] theorem shown_restyle (f : StyleState → StyleState) (acts : List Action) :
    shown (.restyle f :: acts) = shown acts := rfl

@[simp] theorem shown_append (a b : List Action) : shown (a ++ b) = shown a + shown b := by
  simp [shown]

theorem shown_percentCode_le (bs : List UInt8) :
    shown (percentCode bs).1 ≤ (percentCode bs).2 := by
  have hhex : ∀ letter set rest,
      shown (hexCode letter set rest).1 ≤ (hexCode letter set rest).2 := by
    intro letter set rest
    unfold hexCode
    split <;> simp
  unfold percentCode
  split
  · simp
  · split
    case h_7 => exact hhex _ _ _
    case h_8 => exact hhex _ _ _
    case h_11 => split <;> simp
    all_goals simp

/-- A control character and its arguments show nothing. -/
theorem shown_control {b : UInt8} {rest : List UInt8} {r : List Action × Nat}
    (h : code (b :: rest) = some r) (hb : b ≠ 0x25) : shown r.1 = 0 := by
  rw [code, if_neg hb] at h
  have hmirc : shown (mircCode rest).1 = 0 := by
    unfold mircCode
    split
    · rfl
    · split <;> rfl
  have hcolor : shown (hexColorCode rest).1 = 0 := by
    unfold hexColorCode
    split
    · rfl
    · split <;> rfl
  -- the control characters, in the order of the source
  obtain ⟨-, rfl⟩ | ⟨-, h⟩ := arm_cases h
  · rfl
  obtain ⟨-, rfl⟩ | ⟨-, h⟩ := arm_cases h
  · exact hmirc
  obtain ⟨-, rfl⟩ | ⟨-, h⟩ := arm_cases h
  · exact hcolor
  obtain ⟨-, rfl⟩ | ⟨-, h⟩ := arm_cases h
  · rfl
  obtain ⟨-, rfl⟩ | ⟨-, h⟩ := arm_cases h
  · rfl
  obtain ⟨-, rfl⟩ | ⟨-, h⟩ := arm_cases h
  · rfl
  obtain ⟨-, rfl⟩ | ⟨-, h⟩ := arm_cases h
  · rfl
  obtain ⟨-, rfl⟩ | ⟨-, h⟩ := arm_cases h
  · rfl
  obtain ⟨-, rfl⟩ | ⟨-, h⟩ := arm_cases h
  · rfl
  exact absurd h.symm (Option.some_ne_none r)

/-- A round shows no more characters than it reads. -/
theorem shown_round_le (s : Str) : shown (round s).1 ≤ (round s).2 := by
  rw [round]
  cases hb : Utf8.encode s with
  | nil =>
    cases Utf8.encode_eq_nil_iff.mp hb
    exact Nat.zero_le _
  | cons b rest =>
    cases hcode : code (b :: rest) with
    | none => cases s <;> simp
    | some r =>
      by_cases hpct : b = 0x25
      · rw [code, if_pos hpct] at hcode
        cases hcode
        exact shown_percentCode_le rest
      · exact (shown_control hcode hpct).le.trans (Nat.zero_le _)

/-- A text shows no more characters than it has. -/
theorem shown_actions_le {s : Str} (h : hasStray s = false) : shown (actions s) ≤ s.length := by
  induction hn : s.length using Nat.strong_induction_on generalizing s with
  | h n ih =>
    by_cases hs : s = []
    · subst hs
      simp
    have hhead : strayHead s = false := by
      rw [← Bool.not_eq_true]
      intro hh
      rw [hasStray_of_strayHead hh] at h
      cases h
    obtain ⟨a, t, rfl, ha, hlen, hstray, -⟩ := exists_round hs hhead
    have hpos := List.length_pos_iff.mpr ha
    rw [List.length_append] at hn
    have ht := ih t.length (by omega) (hstray ▸ h) rfl
    have hround := shown_round_le (a ++ t)
    rw [actions_append ha hlen, shown_append]
    omega

/-- Behind a round, a text shows no more characters than it has. -/
theorem shown_actions_round {s : Str} (hs : s ≠ []) (h : hasStray s = false) :
    shown (actions s) + (round s).2 ≤ shown (round s).1 + s.length := by
  have hhead : strayHead s = false := by
    rw [← Bool.not_eq_true]
    intro hh
    rw [hasStray_of_strayHead hh] at h
    cases h
  obtain ⟨a, t, rfl, ha, hlen, hstray, -⟩ := exists_round hs hhead
  have ht := shown_actions_le (hstray ▸ h)
  rw [actions_append ha hlen, shown_append, ← hlen, List.length_append]
  omega

/-! ### Texts with codes -/

/-- The text behind `t` crashes the parser, or `t` and the text behind it show fewer characters
than `t` has. -/
def Spoils (t post : Str) : Prop :=
  hasStray (t ++ post) = true ∨ shown (actions (t ++ post)) < t.length

/-- What spoils a text with a round in front of it spoils the whole. -/
theorem Spoils.cons {a t post : Str} (ha : a ≠ [])
    (hlen : a.length = (round (a ++ (t ++ post))).2)
    (hstray : hasStray (a ++ (t ++ post)) = hasStray (t ++ post)) (h : Spoils t post) :
    Spoils (a ++ t) post := by
  rw [Spoils, List.append_assoc, hstray]
  refine h.imp_right (fun hlt => ?_)
  have hround := shown_round_le (a ++ (t ++ post))
  rw [actions_append ha hlen, shown_append, List.length_append]
  omega

/-- A code without an argument shows one character at most. -/
theorem percentCode_plain {c : Char} (hc : c ∈ plainCodes) (bs : List UInt8) :
    c.toNat < 128 ∧ (percentCode (UInt8.ofNat c.toNat :: bs)).2 = 2 ∧
      shown (percentCode (UInt8.ofNat c.toNat :: bs)).1 ≤ 1 := by
  revert c
  have hcodes : plainCodes = ['N', 'n', '_', 'u', 'i', 'd', '|', '%', 'k', 'K', 'r', 'R', 'g', 'G',
      'y', 'Y', 'b', 'B', 'm', 'M', 'c', 'C', 'w', 'W'] := by decide
  rw [hcodes]
  simp only [List.forall_mem_cons]
  and_intros
  all_goals first
    | decide
    | rfl
    | exact Nat.zero_le 1
    | exact Nat.le_refl 1
    | exact nofun

/-- Six hexadecimal digits are read as an argument. -/
theorem isSome_readHex6 {s : Str} (hlen : 6 ≤ s.length) (h : ∀ c ∈ s.take 6, isHexChar c = true) :
    (readHex6 (Utf8.encode s)).isSome = true := by
  have hascii : ∀ c ∈ s.take 6, c.toNat < 128 ∧ isAsciiHexdigit (UInt8.ofNat c.toNat) = true := by
    intro c hc
    simpa [isHexChar] using h c hc
  have hbytes : Utf8.byteLen (s.take 6) = 6 := by
    rw [Utf8.byteLen_of_ascii (fun c hc => (hascii c hc).1), List.length_take]
    omega
  have htake : (Utf8.encode s).take 6 = Utf8.encode (s.take 6) := by
    conv_lhs => rw [← List.take_append_drop 6 s, Utf8.encode_append]
    exact List.take_left' ((Utf8.length_encode _).trans hbytes)
  have hlength : (Utf8.encode (s.take 6)).length = 6 := (Utf8.length_encode _).trans hbytes
  have hall : (Utf8.encode (s.take 6)).all isAsciiHexdigit = true := by
    rw [List.all_eq_true]
    intro b hb
    obtain ⟨c, hc, hbc⟩ := List.mem_flatMap.mp hb
    rw [Utf8.encodeChar_of_lt (hascii c hc).1, List.mem_singleton] at hbc
    exact hbc ▸ (hascii c hc).2
  simp only [readHex6, htake, hlength, hall, and_self, if_true]
  rfl

theorem round_hex {c : Char} (hc : c = 'Z' ∨ c = 'z') {s : Str}
    (h : (readHex6 (Utf8.encode s)).isSome = true) :
    (round ('%' :: c :: s)).2 = 8 ∧ shown (round ('%' :: c :: s)).1 = 0 := by
  obtain ⟨hex, hhex⟩ := Option.isSome_iff_exists.mp h
  rcases hc with rfl | rfl
  · rw [round_percent (by decide)]
    show (hexCode 'Z' StyleState.setFg (Utf8.encode s)).2 = 8 ∧
      shown (hexCode 'Z' StyleState.setFg (Utf8.encode s)).1 = 0
    rw [hexCode, hhex]
    exact ⟨rfl, rfl⟩
  · rw [round_percent (by decide)]
    show (hexCode 'z' StyleState.setBg (Utf8.encode s)).2 = 8 ∧
      shown (hexCode 'z' StyleState.setBg (Utf8.encode s)).1 = 0
    rw [hexCode, hhex]
    exact ⟨rfl, rfl⟩

/-- A code in front spoils a text, if it reads more than it shows and all that is behind the
text. -/
theorem spoils_of_round {t post : Str} (ht : t ≠ [])
    (h : shown (round (t ++ post)).1 + post.length < (round (t ++ post)).2) : Spoils t post := by
  cases hstray : hasStray (t ++ post) with
  | true => exact .inl hstray
  | false =>
    have hle := shown_actions_round (fun hnil => ht (List.append_eq_nil_iff.mp hnil).1) hstray
    rw [List.length_append] at hle
    exact .inr (by omega)

/-- The texts that spoil: nothing, a letter that is a code, and six hexadecimal digits. -/
def spoilers : List Str := [[], str "b", str "bbbbbb"]

theorem not_isUnknownCode {c : Char} (hlt : c.toNat < 128) (h : isUnknownCode c = false) :
    c ∈ plainCodes ∨ c = 'Z' ∨ c = 'z' := by
  rw [isUnknownCode, decide_eq_true hlt, Bool.true_and, Bool.not_eq_false', List.contains_iff_mem,
    List.mem_append] at h
  simpa using h

theorem not_breaksHex {rest : Str} (h : breaksHex rest = false) :
    ∀ c ∈ (rest ++ str "bbbbbb").take 6, isHexChar c = true := by
  intro c hc
  rw [List.take_append] at hc
  rcases List.mem_append.mp hc with hc | hc
  · have hno := List.any_eq_false.mp h c hc
    simpa using hno
  · rw [List.eq_of_mem_replicate (n := 6) (a := 'b') (List.mem_of_mem_take hc)]
    decide

/-- A code without an argument spoils the text behind it. -/
theorem spoils_of_plainCode {c : Char} (hc : c ∈ plainCodes) (rest : Str) :
    Spoils ('%' :: c :: rest) [] := by
  obtain ⟨hlt, hlen, hshown⟩ := percentCode_plain hc (Utf8.encode (rest ++ []))
  refine spoils_of_round (List.cons_ne_nil _ _) ?_
  rw [List.cons_append, List.cons_append, round_percent hlt, hlen]
  exact Nat.lt_succ_of_le hshown

/-- **A text that is not inert** is spoiled by one of three texts behind it. -/
theorem exists_spoiler {t : Str} (hc : NoControls t) (h : inert t = false) :
    ∃ post ∈ spoilers, Spoils t post := by
  induction t using inert.induct with
  | case1 c rest ih =>
    by_cases hlt : c.toNat < 128
    · cases hpair : isPair c rest with
      | true =>
        rw [inert_pair, hpair, Bool.true_and] at h
        obtain ⟨post, hpost, hspoils⟩ := ih hc.tail.tail h
        refine ⟨post, hpost, hspoils.cons (List.cons_ne_nil '%' [c]) ?_ ?_⟩
        · exact (congrArg Prod.snd (round_pair hpair post)).symm
        · show hasStray ('%' :: c :: (rest ++ post)) = _
          rw [hasStray, decide_eq_false (Nat.not_le.mpr hlt), Bool.false_or]
      | false =>
        rw [isPair, Bool.or_eq_false_iff, Bool.and_eq_false_iff] at hpair
        obtain ⟨hknown, hhex⟩ := hpair
        rcases not_isUnknownCode hlt hknown with hplain | hz
        · exact ⟨[], by simp [spoilers], spoils_of_plainCode hplain rest⟩
        · have hbreaks : breaksHex rest = false := hhex.resolve_left (by
            rcases hz with rfl | rfl <;> decide)
          have hround := round_hex hz (isSome_readHex6 (by simp [str]) (not_breaksHex hbreaks))
          refine ⟨str "bbbbbb", by simp [spoilers], spoils_of_round (List.cons_ne_nil _ _) ?_⟩
          rw [List.cons_append, List.cons_append, hround.1, hround.2]
          decide
    · refine ⟨[], by simp [spoilers], .inl ?_⟩
      show hasStray ('%' :: c :: (rest ++ [])) = true
      rw [hasStray, decide_eq_true (Nat.le_of_not_lt hlt), Bool.true_or]
  | case2 =>
    -- the letter behind the last `%` makes a code of it
    refine ⟨str "b", by simp [spoilers], spoils_of_round (List.cons_ne_nil _ _) ?_⟩
    decide +kernel
  | case3 c rest hpair hlast ih =>
    have hp := ne_percent hpair hlast
    rw [inert_cons_of_ne hp] at h
    obtain ⟨post, hpost, hspoils⟩ := ih hc.tail h
    refine ⟨post, hpost, hspoils.cons (List.cons_ne_nil c []) ?_ (hasStray_cons_of_ne hp _)⟩
    exact (congrArg Prod.snd (round_plain hp (hc c List.mem_cons_self) (rest ++ post))).symm
  | case4 => cases h

end Repartee.Theme
