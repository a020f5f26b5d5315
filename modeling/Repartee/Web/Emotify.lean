import Repartee.Lib.Bytes
import Repartee.Ui.Emotes
import Repartee.Web.Format

/-!
# The two emote tokenizers

`tokenize_with` of `emotes/parse.rs` and `emotify_spans_with` of the web client scan the bytes of a
text for `:name:`. The two are separate copies of one loop.

## Main definitions

- `Layout.tokenizeBytes`: `tokenize_with`, with byte ranges
- `emotifySpansWith`: the copy of the web client
- `Layout.Partitions`: tokens that make up a text

## Main results

- `Layout.tokenizeBytes_eq`: the loop over bytes is the tokenizer over characters
- `emotifyLoop_eq`: the two loops are in lockstep
- `tokenizers_agree`: both give the same fragments and emotes
-/

set_option autoImplicit false

namespace Repartee

open Utf8

/-- The end of a candidate name that begins behind the colon at `i`: the next byte that belongs to
no name, if it is a colon and not the first one. -/
def candidateEnd (isName : UInt8 → Bool) (bytes : List UInt8) (i : Nat) : Option Nat :=
  let nameStart := i + 1
  let j := nameStart + ((bytes.drop nameStart).takeWhile isName).length
  if bytes[i]? = some 58 ∧ bytes[j]? = some 58 ∧ nameStart < j then some j else none

namespace Layout

/-! ### The terminal's tokenizer -/

/-- A byte range of the text, or a known emote name. -/
inductive ByteSegment where
  | text (start stop : Nat)
  | emote (name : Str)
  deriving DecidableEq

/-- `is_name_byte` -/
def isNameByte (b : UInt8) : Bool := (97 ≤ b && b ≤ 122) || (48 ≤ b && b ≤ 57) || b = 95

/-- The text before an emote, or behind the last one. -/
def pendingText (textStart i : Nat) : List ByteSegment :=
  if textStart < i then [.text textStart i] else []

/-- `while i < bytes.len()` of `tokenize_with`. A slice beside a character boundary is a panic. -/
def tokenizeLoop (isKnown : Str → Bool) (text : Str) :
    (fuel : Nat) → (textStart i : Nat) → Option (List ByteSegment)
  | 0, _, _ => none
  | fuel + 1, textStart, i =>
    if i < (encode text).length then
      match candidateEnd isNameByte (encode text) i with
      | some j =>
        match slice text (i + 1) j with
        | none => none
        | some name =>
          if isKnown name then
            (tokenizeLoop isKnown text fuel (j + 1) (j + 1)).map
              (fun rest => pendingText textStart i ++ .emote name :: rest)
          else tokenizeLoop isKnown text fuel textStart (i + 1)
      | none => tokenizeLoop isKnown text fuel textStart (i + 1)
    else some (pendingText textStart (encode text).length)

/-- `tokenize_with` -/
def tokenizeBytes (isKnown : Str → Bool) (text : Str) : Option (List ByteSegment) :=
  tokenizeLoop isKnown text ((encode text).length + 1) 0 0

end Layout

namespace Web

/-! ### The web client's tokenizer -/

/-- The bytes of a name, as the loop of the web client has them. -/
def isNameByte (b : UInt8) : Bool := (97 ≤ b && b ≤ 122) || (48 ≤ b && b ≤ 57) || b = 95

/-- A slice of the text of a span, in the style of the span. -/
def textSpan (span : StyledSpan) (a b : Nat) : Option StyledSpan :=
  (slice span.text a b).map (fun s => { span with text := s })

/-- The text before an emote, or behind the last one. -/
def pendingSpan (span : StyledSpan) (textStart i : Nat) : Option (List StyledSpan) :=
  if textStart < i then (textSpan span textStart i).map (fun s => [s]) else some []

/-- The span of an emote; `text` has the token as it was typed. -/
def emoteSpan (stemFor : Str → Str) (code name : Str) : StyledSpan :=
  { text := code, style := {}, emoteName := some (stemFor name) }

/-- `while i < bytes.len()` of `emotify_spans_with`. -/
def emotifyLoop (isKnown : Str → Bool) (stemFor : Str → Str) (span : StyledSpan) :
    (fuel : Nat) → (textStart i : Nat) → Option (List StyledSpan)
  | 0, _, _ => none
  | fuel + 1, textStart, i =>
    if i < (encode span.text).length then
      match candidateEnd isNameByte (encode span.text) i with
      | some j =>
        match slice span.text (i + 1) j with
        | none => none
        | some name =>
          if isKnown name then
            match pendingSpan span textStart i, slice span.text i (j + 1) with
            | some before, some code =>
              (emotifyLoop isKnown stemFor span fuel (j + 1) (j + 1)).map
                (fun rest => before ++ emoteSpan stemFor code name :: rest)
            | _, _ => none
          else emotifyLoop isKnown stemFor span fuel textStart (i + 1)
      | none => emotifyLoop isKnown stemFor span fuel textStart (i + 1)
    else pendingSpan span textStart (encode span.text).length

/-- Whether `emotify_spans_with` passes a span through. -/
def passesThrough (span : StyledSpan) : Bool :=
  span.link.isSome || span.emoteName.isSome || !span.text.contains ':'

/-- What becomes of one span. -/
def emotifySpan (isKnown : Str → Bool) (stemFor : Str → Str) (span : StyledSpan) :
    Option (List StyledSpan) :=
  if passesThrough span then some [span]
  else emotifyLoop isKnown stemFor span ((encode span.text).length + 1) 0 0

/-- `emotify_spans_with` -/
def emotifySpansWith (isKnown : Str → Bool) (stemFor : Str → Str) (spans : List StyledSpan) :
    Option (List StyledSpan) :=
  (spans.mapM (emotifySpan isKnown stemFor)).map List.flatten

end Web

namespace Layout

/-! ### The loop over bytes -/

theorem agrees_isNameByte : Agrees isNameByte isNameChar := by
  refine @agrees_of_ascii _ _ false (by decide) (fun b hb => ?_) (fun c hc => ?_)
  · rw [UInt8.le_iff_toNat_le] at hb
    have h80 : (0x80 : UInt8).toNat = 128 := rfl
    simp only [isNameByte, Bool.or_eq_false_iff, Bool.and_eq_false_iff, decide_eq_false_iff_not,
      UInt8.le_iff_toNat_le, ← UInt8.toNat_inj, UInt8.reduceToNat]
    omega
  · have hval : 128 ≤ c.val.toNat := hc
    simp only [isNameChar, Char.isDigit, Bool.or_eq_false_iff, Bool.and_eq_false_iff,
      decide_eq_false_iff_not, Char.le_def, UInt32.le_iff_toNat_le, ← Char.toNat_inj]
    have h9 : ('9' : Char).val.toNat = 57 := rfl
    have hz : ('z' : Char).val.toNat = 122 := rfl
    have hu : ('_' : Char).toNat = 95 := rfl
    refine ⟨⟨.inr ?_, .inr ?_⟩, ?_⟩
    · rw [hz]
      omega
    · rw [h9]
      omega
    · rw [hu]
      omega

/-- A candidate behind a colon is what the characters say. -/
theorem candidateEnd_colon (pre rest : Str) :
    candidateEnd isNameByte (encode (pre ++ ':' :: rest)) (byteLen pre) =
      if rest.takeWhile isNameChar ≠ [] ∧ (rest.dropWhile isNameChar).head? = some ':' then
        some (byteLen pre + 1 + byteLen (rest.takeWhile isNameChar))
      else none := by
  have hcolon : (58 : UInt8) = UInt8.ofNat ':'.toNat := rfl
  have hone : byteLen (pre ++ [':']) = byteLen pre + 1 := byteLen_append pre [':']
  have htext : pre ++ ':' :: rest = pre ++ [':'] ++ rest := List.append_cons pre ':' rest
  have hname : ((encode (pre ++ ':' :: rest)).drop (byteLen pre + 1)).takeWhile isNameByte =
      encode (rest.takeWhile isNameChar) := by
    rw [htext, ← hone, drop_encode_append, agrees_isNameByte.takeWhile_encode]
  have hat : (encode (pre ++ ':' :: rest))[byteLen pre]? = some 58 := by
    rw [getElem?_encode, hcolon, head?_encode_eq_iff (by decide)]
    rfl
  have hbehind : (encode (pre ++ ':' :: rest))[byteLen pre + 1 +
      byteLen (rest.takeWhile isNameChar)]? = some 58 ↔
        (rest.dropWhile isNameChar).head? = some ':' := by
    rw [← hone, ← byteLen_append, ← @head?_encode_eq_iff ':' (by decide), ← hcolon,
      ← getElem?_encode (pre ++ [':'] ++ rest.takeWhile isNameChar), htext,
      List.append_assoc _ _ (List.dropWhile isNameChar rest), List.takeWhile_append_dropWhile]
  have hpos : byteLen pre + 1 < byteLen pre + 1 + byteLen (rest.takeWhile isNameChar) ↔
      rest.takeWhile isNameChar ≠ [] := by
    rw [← byteLen_pos_iff]
    omega
  simp only [candidateEnd, hname, length_encode, hat, hbehind, hpos, true_and]
  exact if_congr and_comm rfl rfl

/-- There is no candidate at any other byte. -/
theorem candidateEnd_of_ne {isName : UInt8 → Bool} {bytes : List UInt8} {i : Nat}
    (h : bytes[i]? ≠ some 58) : candidateEnd isName bytes i = none :=
  if_neg (fun hcand => h hcand.1)

/-- The bytes of a character other than a colon are no colons. -/
theorem ne_colon_of_mem {c : Char} (hc : c ≠ ':') {b : UInt8}
    (hb : b ∈ String.utf8EncodeChar c) : b ≠ 58 := by
  rcases encodeChar_cases c with ⟨hlt, heq⟩ | ⟨-, hall⟩
  · rw [heq, List.mem_singleton] at hb
    intro h58
    exact hc (eq_of_ofNat_toNat_eq hlt (by decide) (hb.symm.trans h58))
  · rintro rfl
    exact absurd (hall 58 hb) (by decide)

/-- A loop that goes on by one byte where there is no colon goes on by a character. -/
theorem skip_char {β : Type} {loop : Nat → Nat → β} {bytes : List UInt8}
    (hstep : ∀ fuel i, i < bytes.length → bytes[i]? ≠ some 58 →
      loop (fuel + 1) i = loop fuel (i + 1))
    {pre cs : List UInt8} {rest : List UInt8} (hbytes : bytes = pre ++ cs ++ rest)
    (hcs : ∀ b ∈ cs, b ≠ 58) (fuel : Nat) :
    loop (fuel + cs.length) pre.length = loop fuel (pre.length + cs.length) := by
  induction cs generalizing pre with
  | nil => rfl
  | cons b cs ih =>
    have hbytes' : bytes = pre ++ [b] ++ cs ++ rest := by
      rw [hbytes, List.append_cons pre b cs]
    have hat : bytes[pre.length]? = some b := by
      rw [hbytes, List.append_assoc, List.getElem?_append_right (Nat.le_refl _), Nat.sub_self]
      rfl
    have hlt : pre.length < bytes.length := (List.getElem?_eq_some_iff.mp hat).1
    have hne : bytes[pre.length]? ≠ some 58 := by
      rw [hat]
      exact fun h => hcs b List.mem_cons_self (Option.some.inj h)
    have hrest := ih hbytes' (fun b' hb' => hcs b' (List.mem_cons_of_mem b hb'))
    rw [List.length_append, List.length_singleton] at hrest
    rw [List.length_cons, ← Nat.add_assoc, hstep _ _ hlt hne, hrest]
    congr 1
    omega

/-! ### The tokenizer over characters -/

/-- Segments with their byte ranges, of which the first is at `off`. -/
def place (off : Nat) : List Segment → List ByteSegment
  | [] => []
  | .text s :: segs => .text off (off + byteLen s) :: place (off + byteLen s) segs
  | .emote name :: segs => .emote name :: place (off + byteLen name + 2) segs

theorem place_textSegment (off : Nat) (s : Str) (segs : List Segment) :
    place off (textSegment s ++ segs) =
      pendingText off (off + byteLen s) ++ place (off + byteLen s) segs := by
  unfold textSegment pendingText
  have hpos : off < off + byteLen s ↔ s ≠ [] := by
    rw [← byteLen_pos_iff]
    omega
  by_cases hs : s = []
  · subst hs
    rw [if_pos rfl, if_neg (fun h => hpos.mp h rfl)]
    rfl
  · rw [if_neg hs, if_pos (hpos.mpr hs)]
    rfl

theorem tokenizeLoop_step {isKnown : Str → Bool} {text : Str} (ts fuel i : Nat)
    (hlt : i < (encode text).length) (h : (encode text)[i]? ≠ some 58) :
    tokenizeLoop isKnown text (fuel + 1) ts i = tokenizeLoop isKnown text fuel ts (i + 1) := by
  rw [tokenizeLoop, if_pos hlt, candidateEnd_of_ne h]

theorem tokenizeLoop_end (isKnown : Str → Bool) {text : Str} {fuel : Nat} (ts : Nat)
    (hfuel : 0 < fuel) :
    tokenizeLoop isKnown text fuel ts (byteLen text) = some (pendingText ts (byteLen text)) := by
  obtain ⟨f, rfl⟩ := Nat.exists_eq_succ_of_ne_zero (Nat.ne_of_gt hfuel)
  have hend : ¬ byteLen text < (encode text).length := by
    rw [length_encode]
    exact Nat.lt_irrefl _
  rw [Nat.succ_eq_add_one, tokenizeLoop, if_neg hend, length_encode]

theorem place_pending (off : Nat) (s : Str) :
    place off (textSegment s) = pendingText off (off + byteLen s) := by
  have h := place_textSegment off s []
  rwa [List.append_nil, place, List.append_nil] at h

/-- The tokenizer over characters, at a colon. -/
theorem tokenizeFrom_colon (isKnown : Str → Bool) (n : Nat) (pending rest : Str) :
    tokenizeFrom isKnown (n + 1) pending (':' :: rest) =
      if rest.takeWhile isNameChar ≠ [] ∧ (rest.dropWhile isNameChar).head? = some ':' ∧
          isKnown (rest.takeWhile isNameChar) = true then
        textSegment pending ++ .emote (rest.takeWhile isNameChar) ::
          tokenizeFrom isKnown n [] ((rest.dropWhile isNameChar).tail)
      else tokenizeFrom isKnown n (pending ++ [':']) rest := by
  rw [tokenizeFrom, if_pos rfl]
  cases hdrop : rest.dropWhile isNameChar with
  | nil => simp
  | cons d after =>
    by_cases hd : d = ':'
    · subst hd
      simp
    · have hhead : ¬ (d :: after).head? = some ':' := fun h => hd (Option.some.inj h)
      rw [if_neg (fun h => hhead h.2.1)]
      split
      · rename_i heq
        exact absurd (List.cons.inj heq).1 hd
      · rfl

/-- The name of a candidate, behind its colon. -/
theorem slice_candidate {text pre rest : Str} (htext : text = pre ++ [':'] ++ rest) :
    slice text (byteLen pre + 1) (byteLen pre + 1 + byteLen (rest.takeWhile isNameChar)) =
      some (rest.takeWhile isNameChar) := by
  have hcolon : byteLen (pre ++ [':']) = byteLen pre + 1 := byteLen_append pre [':']
  have h := slice_append (pre ++ [':']) (rest.takeWhile isNameChar) (rest.dropWhile isNameChar)
  rwa [List.append_assoc _ _ (List.dropWhile isNameChar rest), List.takeWhile_append_dropWhile,
    ← htext, hcolon] at h

/-- **The loop over the bytes** finds what the tokenizer over the characters finds, and never cuts
a character. -/
theorem tokenizeLoop_eq (isKnown : Str → Bool) {text : Str} {n fuel : Nat} {pre pending rest : Str}
    (htext : text = pre ++ pending ++ rest) (hfuel : byteLen rest < fuel) (hn : rest.length ≤ n) :
    tokenizeLoop isKnown text fuel (byteLen pre) (byteLen (pre ++ pending)) =
      some (place (byteLen pre) (tokenizeFrom isKnown n pending rest)) := by
  -- The induction is on the characters that are left; a character is one round for each byte.
  induction n generalizing fuel pre pending rest with
  | zero =>
    obtain rfl := List.eq_nil_of_length_eq_zero (Nat.le_zero.mp hn)
    rw [List.append_nil] at htext
    rw [← htext, tokenizeLoop_end isKnown _ (Nat.zero_lt_of_lt hfuel), tokenizeFrom,
      List.append_nil, place_pending, htext, byteLen_append]
  | succ n ih =>
    cases rest with
    | nil =>
      rw [List.append_nil] at htext
      rw [← htext, tokenizeLoop_end isKnown _ (Nat.zero_lt_of_lt hfuel), tokenizeFrom,
        place_pending, htext, byteLen_append]
    | cons c rest =>
      rw [List.length_cons] at hn
      have hlen : rest.length ≤ n := Nat.le_of_succ_le_succ hn
      have hshift : text = pre ++ (pending ++ [c]) ++ rest := by
        rw [htext]
        simp
      have hsize : byteLen (c :: rest) = c.utf8Size + byteLen rest := rfl
      have hnext : byteLen (pre ++ (pending ++ [c])) = byteLen (pre ++ pending) + c.utf8Size := by
        rw [← List.append_assoc, byteLen_append]
        rfl
      by_cases hc : c = ':'
      · subst hc
        obtain ⟨f, rfl⟩ := Nat.exists_eq_succ_of_ne_zero (Nat.ne_of_gt (Nat.zero_lt_of_lt hfuel))
        have hcolon : (':' : Char).utf8Size = 1 := rfl
        have hskip : tokenizeLoop isKnown text f (byteLen pre) (byteLen (pre ++ pending) + 1) =
            some (place (byteLen pre) (tokenizeFrom isKnown n (pending ++ [':']) rest)) := by
          have h := ih hshift (show byteLen rest < f by omega) hlen
          rwa [hnext, hcolon] at h
        have hlt : byteLen (pre ++ pending) < (encode text).length := by
          rw [htext, length_encode, byteLen_append (pre ++ pending), hsize, hcolon]
          omega
        rw [Nat.succ_eq_add_one, tokenizeLoop, if_pos hlt, htext, candidateEnd_colon, ← htext,
          tokenizeFrom_colon]
        by_cases hcand : rest.takeWhile isNameChar ≠ [] ∧
            (rest.dropWhile isNameChar).head? = some ':'
        · have hdrop : rest.dropWhile isNameChar = ':' :: (rest.dropWhile isNameChar).tail :=
            List.eq_cons_of_mem_head? hcand.2
          have hrest : rest = rest.takeWhile isNameChar ++ ':' ::
              (rest.dropWhile isNameChar).tail := by
            rw [← hdrop, List.takeWhile_append_dropWhile]
          have hslice := slice_candidate
            (show text = pre ++ pending ++ [':'] ++ rest by rw [hshift]; simp)
          rw [if_pos hcand]
          dsimp only
          rw [hslice]
          dsimp only
          generalize rest.takeWhile isNameChar = name at hcand hrest hslice ⊢
          generalize (rest.dropWhile isNameChar).tail = after at hrest ⊢
          by_cases hknown : isKnown name = true
          -- an emote: the loop goes on behind its second colon
          · have hafter : text = pre ++ pending ++ ':' :: name ++ [':'] ++ [] ++ after := by
              rw [htext, hrest]
              simp
            have hend : byteLen (pre ++ pending ++ ':' :: name ++ [':']) =
                byteLen (pre ++ pending) + 1 + byteLen name + 1 := by
              rw [byteLen_append, byteLen_append _ (':' :: name)]
              show _ + (1 + byteLen name) + (1 + 0) = _
              omega
            have hcount : rest.length = name.length + (after.length + 1) := by
              rw [hrest, List.length_append, List.length_cons]
            have hbytes : byteLen rest = byteLen name + (1 + byteLen after) := by
              rw [hrest, byteLen_append]
              rfl
            have hloop := ih hafter (show byteLen after < f by omega)
              (show after.length ≤ n by omega)
            have hoff : byteLen pre + byteLen pending + byteLen name + 2 =
                byteLen (pre ++ pending) + 1 + byteLen name + 1 := by
              rw [byteLen_append]
              omega
            rw [List.append_nil, hend] at hloop
            rw [if_pos hknown, hloop, if_pos ⟨hcand.1, hcand.2, hknown⟩, Option.map_some,
              place_textSegment, place, hoff, ← byteLen_append]
          · rw [if_neg hknown, hskip, if_neg (fun h => hknown h.2.2)]
        · rw [if_neg hcand]
          dsimp only
          rw [hskip, if_neg (fun h => hcand ⟨h.1, h.2.1⟩)]
      -- any other character is passed byte by byte
      · have hbytes : encode text =
            encode (pre ++ pending) ++ String.utf8EncodeChar c ++ encode rest := by
          rw [htext, encode_append, encode_cons, List.append_assoc]
        have hskip := @skip_char _ (fun fuel i => tokenizeLoop isKnown text fuel (byteLen pre) i) _
          (tokenizeLoop_step (byteLen pre)) _ _ _ hbytes
          (fun b hb => ne_colon_of_mem hc hb) (fuel - c.utf8Size)
        rw [length_encode, String.length_utf8EncodeChar,
          Nat.sub_add_cancel (show c.utf8Size ≤ fuel by omega)] at hskip
        rw [hskip, ← hnext, ih hshift (by omega) hlen, tokenizeFrom, if_neg hc]

/-- `tokenize_with` is the tokenizer over characters, with byte ranges. -/
theorem tokenizeBytes_eq (isKnown : Str → Bool) (text : Str) :
    tokenizeBytes isKnown text = some (place 0 (tokenizeWith isKnown text)) := by
  have h := @tokenizeLoop_eq isKnown text text.length ((encode text).length + 1) [] [] text rfl
    (by rw [length_encode]; exact Nat.lt_succ_self _) (Nat.le_refl _)
  exact h

/-! ### What the tokens make up -/

/-- Tokens that make up a text from an offset on: each begins where the one before it ends, on a
boundary of characters; a range of text is not empty, and an emote has its name between colons. -/
def Partitions (text : Str) : (off : Nat) → List ByteSegment → Prop
  | off, [] => off = byteLen text
  | off, .text a b :: segs =>
    a = off ∧ a < b ∧ (slice text a b).isSome = true ∧ Partitions text b segs
  | off, .emote name :: segs =>
    slice text off (off + byteLen name + 2) = some (':' :: (name ++ [':'])) ∧
      Partitions text (off + byteLen name + 2) segs

theorem byteLen_code (name : Str) : byteLen (':' :: (name ++ [':'])) = byteLen name + 2 := by
  have hcolon : (':' : Char).utf8Size = 1 := rfl
  have hone : byteLen [':'] = 1 := rfl
  rw [byteLen, byteLen_append, hcolon, hone]
  omega

theorem slice_code (pre name post : Str) :
    slice (pre ++ ':' :: (name ++ [':']) ++ post) (byteLen pre)
      (byteLen pre + byteLen name + 2) = some (':' :: (name ++ [':'])) := by
  have h := slice_append pre (':' :: (name ++ [':'])) post
  rwa [byteLen_code, ← Nat.add_assoc] at h

/-- Induction over the segments of a text, with what stands before them. -/
theorem source_induction {text : Str} {motive : Str → List Segment → Prop}
    (nil : motive text [])
    (piece : ∀ pre s segs, text = pre ++ s ++ segs.flatMap Segment.source →
      motive (pre ++ s) segs → motive pre (.text s :: segs))
    (emote : ∀ pre name segs,
      text = pre ++ ':' :: (name ++ [':']) ++ segs.flatMap Segment.source →
      motive (pre ++ ':' :: (name ++ [':'])) segs → motive pre (.emote name :: segs))
    {pre : Str} {segs : List Segment} (htext : text = pre ++ segs.flatMap Segment.source) :
    motive pre segs := by
  induction segs generalizing pre with
  | nil =>
    rw [List.flatMap_nil, List.append_nil] at htext
    exact htext ▸ nil
  | cons seg segs ih =>
    have htext' : text = pre ++ seg.source ++ segs.flatMap Segment.source := by
      rw [htext, List.flatMap_cons, List.append_assoc]
    cases seg with
    | text s => exact piece pre s segs htext' (ih htext')
    | emote name => exact emote pre name segs htext' (ih htext')

theorem partitions_place {text pre : Str} {segs : List Segment}
    (htext : text = pre ++ segs.flatMap Segment.source) (hsome : ∀ seg ∈ segs, seg ≠ .text []) :
    Partitions text (byteLen pre) (place (byteLen pre) segs) := by
  revert hsome
  refine source_induction (motive := fun pre segs => (∀ seg ∈ segs, seg ≠ .text []) →
    Partitions text (byteLen pre) (place (byteLen pre) segs)) ?_ ?_ ?_ htext
  · exact fun _ => rfl
  · intro pre s segs htext ih hsome
    obtain ⟨hseg, hsegs⟩ := List.forall_mem_cons.mp hsome
    have hpos := byteLen_pos_iff.mpr (fun hs => hseg (hs ▸ rfl) : s ≠ [])
    have hrest := ih hsegs
    rw [byteLen_append] at hrest
    refine ⟨rfl, by omega, ?_, hrest⟩
    rw [htext, slice_append]
    rfl
  · intro pre name segs htext ih hsome
    have hrest := ih (List.forall_mem_cons.mp hsome).2
    rw [byteLen_append, byteLen_code, ← Nat.add_assoc] at hrest
    refine ⟨?_, hrest⟩
    rw [htext, slice_code]

/-- No fragment of text is empty. -/
theorem ne_of_mem_tokenizeFrom (isKnown : Str → Bool) (n : Nat) (pending rest : Str) :
    ∀ seg ∈ tokenizeFrom isKnown n pending rest, seg ≠ .text [] := by
  have hsegment : ∀ s, ∀ seg ∈ textSegment s, seg ≠ .text [] := by
    intro s seg hseg heq
    unfold textSegment at hseg
    split_ifs at hseg with hs
    · exact absurd hseg List.not_mem_nil
    · rw [List.mem_singleton.mp hseg] at heq
      exact hs (Segment.text.inj heq)
  induction n generalizing pending rest with
  | zero => exact hsegment (pending ++ rest)
  | succ n ih =>
    cases rest with
    | nil => exact hsegment pending
    | cons c rest =>
      by_cases hc : c = ':'
      · subst hc
        rw [tokenizeFrom_colon]
        split_ifs
        · intro seg hseg
          rcases List.mem_append.mp hseg with hseg | hseg
          · exact hsegment pending seg hseg
          · rcases List.mem_cons.mp hseg with rfl | hseg
            · exact fun h => nomatch h
            · exact ih _ _ seg hseg
        · exact ih _ _
      · rw [tokenizeFrom, if_neg hc]
        exact ih _ _

theorem source_tokenizeWith (isKnown : Str → Bool) (text : Str) :
    (tokenizeWith isKnown text).flatMap Segment.source = text :=
  source_tokenizeFrom isKnown text.length [] text (Nat.le_refl _)

theorem partitions_tokenizeBytes (isKnown : Str → Bool) (text : Str) :
    Partitions text 0 (place 0 (tokenizeWith isKnown text)) :=
  @partitions_place text [] _ (source_tokenizeWith isKnown text).symm
    (ne_of_mem_tokenizeFrom isKnown _ _ _)

/-- Without a colon there is only text. -/
theorem tokenizeFrom_of_notMem (isKnown : Str → Bool) {n : Nat} {pending rest : Str}
    (h : ':' ∉ rest) (hn : rest.length ≤ n) :
    tokenizeFrom isKnown n pending rest = textSegment (pending ++ rest) := by
  induction n generalizing pending rest with
  | zero => rfl
  | succ n ih =>
    cases rest with
    | nil => rw [tokenizeFrom, List.append_nil]
    | cons c rest =>
      rw [List.mem_cons, not_or] at h
      rw [tokenizeFrom, if_neg (Ne.symm h.1), ih h.2 (Nat.le_of_succ_le_succ hn)]
      simp

end Layout

namespace Web

open Layout (ByteSegment Segment tokenizeLoop tokenizeWith tokenizeBytes pendingText place
  Partitions byteLen_code slice_code)

/-! ### In lockstep -/

/-- The spans of some tokens, of which the first begins at `off`. -/
def spansOf (stemFor : Str → Str) (span : StyledSpan) :
    (off : Nat) → List ByteSegment → Option (List StyledSpan)
  | _, [] => some []
  | _, .text a b :: segs =>
    (textSpan span a b).bind (fun s => (spansOf stemFor span b segs).map (fun rest => s :: rest))
  | off, .emote name :: segs =>
    (slice span.text off (off + byteLen name + 2)).bind (fun code =>
      (spansOf stemFor span (off + byteLen name + 2) segs).map
        (fun rest => emoteSpan stemFor code name :: rest))

theorem spansOf_pendingText (stemFor : Str → Str) (span : StyledSpan) {ts i : Nat} (h : ts ≤ i)
    (segs : List ByteSegment) :
    spansOf stemFor span ts (pendingText ts i ++ segs) =
      (pendingSpan span ts i).bind (fun before =>
        (spansOf stemFor span i segs).map (fun rest => before ++ rest)) := by
  unfold pendingText pendingSpan
  by_cases hlt : ts < i
  · rw [if_pos hlt, if_pos hlt, List.singleton_append, spansOf]
    cases textSpan span ts i with
    | none => rfl
    | some s => rfl
  · obtain rfl : ts = i := le_antisymm h (Nat.le_of_not_lt hlt)
    rw [if_neg hlt, if_neg hlt, List.nil_append, Option.bind_some]
    simp

theorem candidateEnd_lt {isName : UInt8 → Bool} {s : Str} {i j : Nat}
    (h : candidateEnd isName (encode s) i = some j) : j < byteLen s := by
  unfold candidateEnd at h
  dsimp only at h
  split_ifs at h with hcand
  obtain rfl := Option.some.inj h
  rw [← length_encode]
  exact (List.getElem?_eq_some_iff.mp hcand.2.1).1

/-- **The two loops are in lockstep**: the web client's loop makes spans of the terminal's
tokens. -/
theorem emotifyLoop_eq (isKnown : Str → Bool) (stemFor : Str → Str) (span : StyledSpan)
    {fuel ts i : Nat} (h : ts ≤ i) (hi : i ≤ byteLen span.text) :
    emotifyLoop isKnown stemFor span fuel ts i =
      (tokenizeLoop isKnown span.text fuel ts i).bind (spansOf stemFor span ts) := by
  induction fuel generalizing ts i with
  | zero => rfl
  | succ fuel ih =>
    have hsame : candidateEnd isNameByte = candidateEnd Layout.isNameByte := rfl
    rw [emotifyLoop, tokenizeLoop, hsame, length_encode]
    by_cases hlt : i < byteLen span.text
    · have hskip := ih (Nat.le_succ_of_le h) hlt
      rw [if_pos hlt, if_pos hlt]
      cases hcand : candidateEnd Layout.isNameByte (encode span.text) i with
      | none => exact hskip
      | some j =>
        dsimp only
        cases hname : slice span.text (i + 1) j with
        | none => rfl
        | some name =>
          obtain ⟨p, q, htext, hp, hj⟩ := slice_eq_some_iff.mp hname
          dsimp only
          by_cases hknown : isKnown name = true
          · rw [if_pos hknown, if_pos hknown, Option.bind_map]
            have hstop : j + 1 = i + byteLen name + 2 := by omega
            have hloop := ih (Nat.le_refl (j + 1)) (candidateEnd_lt hcand)
            have hspans : ∀ rest, spansOf stemFor span ts (pendingText ts i ++ .emote name :: rest) =
                (pendingSpan span ts i).bind (fun before =>
                  (slice span.text i (j + 1)).bind (fun code =>
                    (spansOf stemFor span (j + 1) rest).map
                      (fun spans => before ++ emoteSpan stemFor code name :: spans))) := by
              intro rest
              rw [spansOf_pendingText stemFor span h, spansOf, ← hstop]
              cases slice span.text i (j + 1) with
              | none => rfl
              | some code => simp only [Option.bind_some, Option.map_map]; rfl
            rw [hloop]
            cases tokenizeLoop isKnown span.text fuel (j + 1) (j + 1) with
            | none => cases pendingSpan span ts i <;> cases slice span.text i (j + 1) <;> rfl
            | some rest =>
              rw [Option.bind_some, Option.bind_some, Function.comp_apply, hspans]
              cases pendingSpan span ts i <;> cases slice span.text i (j + 1) <;> rfl
          · rw [if_neg hknown, if_neg hknown]
            exact hskip
    · have hend : i = byteLen span.text := le_antisymm hi (Nat.le_of_not_lt hlt)
      have hpending := spansOf_pendingText stemFor span h []
      rw [if_neg hlt, if_neg hlt, Option.bind_some, ← hend]
      rw [List.append_nil] at hpending
      rw [hpending]
      cases pendingSpan span ts i <;> simp [spansOf]

/-- What a segment becomes in the web client. -/
def render (stemFor : Str → Str) (span : StyledSpan) : Segment → StyledSpan
  | .text s => { span with text := s }
  | .emote name => emoteSpan stemFor (':' :: (name ++ [':'])) name

theorem spansOf_place (stemFor : Str → Str) {span : StyledSpan} {pre : Str} {segs : List Segment}
    (htext : span.text = pre ++ segs.flatMap Segment.source) :
    spansOf stemFor span (byteLen pre) (place (byteLen pre) segs) =
      some (segs.map (render stemFor span)) := by
  refine Layout.source_induction (motive := fun pre segs =>
    spansOf stemFor span (byteLen pre) (place (byteLen pre) segs) =
      some (segs.map (render stemFor span))) rfl ?_ ?_ htext
  · intro pre s segs htext ih
    rw [byteLen_append] at ih
    rw [place, spansOf, textSpan, ih, htext, slice_append]
    rfl
  · intro pre name segs htext ih
    rw [byteLen_append, byteLen_code, ← Nat.add_assoc] at ih
    rw [place, spansOf, ih, htext, slice_code]
    rfl

/-- What becomes of a span that is not passed through. -/
theorem emotifyLoop_render (isKnown : Str → Bool) (stemFor : Str → Str) (span : StyledSpan) :
    emotifyLoop isKnown stemFor span ((encode span.text).length + 1) 0 0 =
      some ((tokenizeWith isKnown span.text).map (render stemFor span)) := by
  have hbytes : tokenizeLoop isKnown span.text ((encode span.text).length + 1) 0 0 =
      some (place 0 (tokenizeWith isKnown span.text)) := Layout.tokenizeBytes_eq isKnown span.text
  rw [emotifyLoop_eq isKnown stemFor span (Nat.le_refl 0) (Nat.zero_le _), hbytes,
    Option.bind_some]
  exact @spansOf_place stemFor span [] _ (Layout.source_tokenizeWith isKnown span.text).symm

/-! ### The same fragments -/

/-- What both tokenizers are to give: a fragment of text, or an emote as it was typed, with the
stem of its file. -/
inductive Fragment where
  | text (s : Str)
  | emote (code stem : Str)
  deriving DecidableEq

/-- What the terminal's token is in a text. -/
def byteFragment (stemFor : Str → Str) (text : Str) : ByteSegment → Option Fragment
  | .text a b => (slice text a b).map .text
  | .emote name => some (.emote (':' :: (name ++ [':'])) (stemFor name))

/-- What a span of the web client is. -/
def webFragment (span : StyledSpan) : Fragment :=
  match span.emoteName with
  | none => .text span.text
  | some stem => .emote span.text stem

def segmentFragment (stemFor : Str → Str) : Segment → Fragment
  | .text s => .text s
  | .emote name => .emote (':' :: (name ++ [':'])) (stemFor name)

/-- A span without style, link and emote. -/
def plainSpan (text : Str) : StyledSpan := { text := text, style := {} }

theorem mapM_byteFragment (stemFor : Str → Str) {text pre : Str} {segs : List Segment}
    (htext : text = pre ++ segs.flatMap Segment.source) :
    (place (byteLen pre) segs).mapM (byteFragment stemFor text) =
      some (segs.map (segmentFragment stemFor)) := by
  refine Layout.source_induction (motive := fun pre segs =>
    (place (byteLen pre) segs).mapM (byteFragment stemFor text) =
      some (segs.map (segmentFragment stemFor))) rfl ?_ ?_ htext
  · intro pre s segs htext ih
    have hhead : byteFragment stemFor text (.text (byteLen pre) (byteLen pre + byteLen s)) =
        some (.text s) := by
      rw [byteFragment, htext, slice_append]
      rfl
    rw [byteLen_append] at ih
    rw [place, List.mapM_cons, hhead, ih]
    rfl
  · intro pre name segs htext ih
    rw [byteLen_append, byteLen_code, ← Nat.add_assoc] at ih
    rw [place, List.mapM_cons, ih]
    rfl

/-- The web client's spans of a text that is not empty. -/
theorem emotifySpan_plain (isKnown : Str → Bool) (stemFor : Str → Str) {text : Str}
    (h : text ≠ []) :
    emotifySpan isKnown stemFor (plainSpan text) =
      some ((tokenizeWith isKnown text).map (render stemFor (plainSpan text))) := by
  unfold emotifySpan
  by_cases hcolon : ':' ∈ text
  · have hpass : passesThrough (plainSpan text) = false := by
      simp [passesThrough, plainSpan, hcolon]
    rw [hpass]
    exact emotifyLoop_render isKnown stemFor (plainSpan text)
  · have hpass : passesThrough (plainSpan text) = true := by
      simp [passesThrough, plainSpan, hcolon]
    rw [if_pos hpass, tokenizeWith, Layout.tokenizeFrom_of_notMem isKnown hcolon (Nat.le_refl _),
      List.nil_append, Layout.textSegment, if_neg h]
    rfl

/-- **The two tokenizers agree**: of every text that is not empty the terminal's tokens and the web
client's spans are the same fragments and emotes in the same order, and the tokens make up the
text. -/
theorem tokenizers_agree (isKnown : Str → Bool) (stemFor : Str → Str) {text : Str}
    (h : text ≠ []) :
    ∃ segs spans, tokenizeBytes isKnown text = some segs ∧ Partitions text 0 segs ∧
      emotifySpansWith isKnown stemFor [plainSpan text] = some spans ∧
      segs.mapM (byteFragment stemFor text) = some (spans.map webFragment) := by
  refine ⟨_, (tokenizeWith isKnown text).map (render stemFor (plainSpan text)),
    Layout.tokenizeBytes_eq isKnown text, Layout.partitions_tokenizeBytes isKnown text, ?_, ?_⟩
  · rw [emotifySpansWith, List.mapM_cons, emotifySpan_plain isKnown stemFor h]
    simp
  · have hmap : (tokenizeWith isKnown text).map (segmentFragment stemFor) =
        ((tokenizeWith isKnown text).map (render stemFor (plainSpan text))).map webFragment := by
      rw [List.map_map]
      refine List.map_congr_left (fun seg _ => ?_)
      cases seg <;> rfl
    rw [← hmap]
    exact @mapM_byteFragment stemFor text [] _ (Layout.source_tokenizeWith isKnown text).symm

theorem lol_is_an_emote_in_both :
    ∃ segs spans, tokenizeBytes (fun name => name = str "lol") (str "a:lol:") = some segs ∧
      Partitions (str "a:lol:") 0 segs ∧
      emotifySpansWith (fun name => name = str "lol") id [plainSpan (str "a:lol:")] = some spans ∧
      segs.mapM (byteFragment id (str "a:lol:")) = some (spans.map webFragment) :=
  tokenizers_agree (fun name => name = str "lol") id (by decide)

/-- Of the empty text the terminal has no token, and the web client passes the span through. -/
theorem empty_span_is_kept :
    ¬ ∃ segs spans, tokenizeBytes (fun _ => false) [] = some segs ∧ Partitions [] 0 segs ∧
      emotifySpansWith (fun _ => false) id [plainSpan []] = some spans ∧
      segs.mapM (byteFragment id []) = some (spans.map webFragment) := by
  rintro ⟨segs, spans, hsegs, -, hspans, hsame⟩
  obtain rfl : segs = [] := (Option.some.inj hsegs).symm
  obtain rfl : spans = [plainSpan []] := (Option.some.inj hspans).symm
  exact absurd hsame (by decide)

end Web

end Repartee
