import Repartee.Lib.Matches
import Repartee.Web.Emotify

/-!
# Links in messages

The web client scans the bytes of a text for URLs, the server looks for previews with a regular
expression. The doc comment of `linkify_spans` says that the two stay in sync.

## Main definitions

- `findUrlMatches`: the scanner of the web client
- `serverMatches`: the matches of `URL_RE`
- `linkifySpans`: the links of the web client
- `Misread`: a URL that the two end in different places

## Main results

- `findUrlMatches_eq`: the scanner over bytes matches a pattern
- `text_emotify_linkify`: no text is lost
- `links_agree_iff`: when the two find the same URLs
-/

set_option autoImplicit false

namespace Repartee.Web

open Utf8

/-! ### The server -/

/-- Angle brackets, quotes and closing brackets. -/
def closers : Str := ['<', '>', Char.ofNat 0x22, Char.ofNat 0x27, ')', ']']

/-- What the class behind the scheme leaves out: the Unicode property `White_Space`, and closers. -/
def urlReStop (c : Char) : Bool := Text.isWhitespace c || closers.contains c

/-- `URL_RE.find_iter(text)`, as byte ranges. -/
def serverMatches (text : Str) : List (Nat × Nat) :=
  Matcher.ranges 0 ((Urls.pattern urlReStop).pieces text)

/-! ### The web client -/

/-- `is_url_terminator`: space, tab, line feed, carriage return, closers and a closing brace. -/
def isUrlTerminator (c : UInt8) : Bool := [32, 9, 10, 13, 60, 62, 34, 39, 41, 93, 125].contains c

def httpsBytes : List UInt8 := encode Urls.https

def httpBytes : List UInt8 := encode Urls.http

/-- The `while` of `match_url` behind a scheme. -/
def matchBody (b : List UInt8) (startBody : Nat) : Option Nat :=
  let j := startBody + ((b.drop startBody).takeWhile (fun c => !isUrlTerminator c)).length
  if j = startBody then none else some j

def matchUrl (b : List UInt8) (i : Nat) : Option Nat :=
  let rem := b.drop i
  if httpsBytes.isPrefixOf rem then matchBody b (i + 8)
  else if httpBytes.isPrefixOf rem then matchBody b (i + 7)
  else none

/-- `utf8_char_len`, of a byte. -/
def utf8CharLen (c : UInt8) : Nat :=
  if c < 0x80 then 1
  else if c < 0xC0 then 1
  else if c < 0xE0 then 2
  else if c < 0xF0 then 3
  else 4

/-- `while i < bytes.len()` of `find_url_matches`. -/
def findUrlLoop (bytes : List UInt8) : (fuel : Nat) → (i : Nat) → List (Nat × Nat)
  | 0, _ => []
  | fuel + 1, i =>
    match bytes[i]? with
    | none => []
    | some c =>
      match matchUrl bytes i with
      | some stop => (i, stop) :: findUrlLoop bytes fuel stop
      | none => findUrlLoop bytes fuel (i + utf8CharLen c)

def findUrlMatches (text : Str) : List (Nat × Nat) :=
  findUrlLoop (encode text) ((encode text).length + 1) 0

def childSpan (parent : StyledSpan) (text : Str) (link : Option Str) : StyledSpan :=
  { text := text, style := parent.style, link := link, emoteName := none }

/-- The loop of `split_one`, with the cursor it leaves. A slice beside a character boundary is a
panic. -/
def splitLoop (span : StyledSpan) :
    (cursor : Nat) → List (Nat × Nat) → Option (List StyledSpan × Nat)
  | cursor, [] => some ([], cursor)
  | cursor, (start, stop) :: ms =>
    (if cursor < start then
        (slice span.text cursor start).map (fun s => [childSpan span s none])
      else some []).bind (fun before =>
        (slice span.text start stop).bind (fun url =>
          (splitLoop span stop ms).map
            (fun p => (before ++ childSpan span url (some url) :: p.1, p.2))))

def splitOne (span : StyledSpan) : Option (List StyledSpan) :=
  match findUrlMatches span.text with
  | [] => some [span]
  | ms =>
    (splitLoop span 0 ms).bind (fun p =>
      if p.2 < byteLen span.text then
        (slice span.text p.2 (byteLen span.text)).map (fun s => p.1 ++ [childSpan span s none])
      else some p.1)

/-- What becomes of one span. -/
def linkifySpan (span : StyledSpan) : Option (List StyledSpan) :=
  if span.link.isSome then some [span]
  else if !decide (str "http" <:+: span.text) then some [span]
  else splitOne span

/-- `linkify_spans` -/
def linkifySpans (spans : List StyledSpan) : Option (List StyledSpan) :=
  (spans.mapM linkifySpan).map List.flatten

/-! ### Where the two differ -/

/-- The whitespace that the web client does not take for one: everything but space, tab, line feed
and carriage return. -/
def isOtherWhitespace (c : Char) : Bool :=
  Text.isWhitespace c && !([' ', '\t', '\n', '\r'].contains c)

/-- A scheme, some characters that can be part of a URL for both, and then a closing brace or
whitespace that is not a space, a tab, a line feed or a carriage return. -/
def Misread (text : Str) : Prop :=
  ∃ a p u x b, text = a ++ p ++ u ++ x :: b ∧ (p = str "https://" ∨ p = str "http://") ∧
    (∀ c ∈ u, Text.isWhitespace c = false ∧ c ∉ closers ∧ c ≠ '}') ∧
    (x = '}' ∨ isOtherWhitespace x = true)

/-! ### The scanner over characters -/

/-- The four characters that the web client takes for whitespace. -/
def webSpaces : Str := [' ', '\t', '\n', '\r']

/-- `is_url_terminator`, of a character. -/
def webStop (c : Char) : Bool := webSpaces.contains c || closers.contains c || c = '}'

theorem lt_of_webStop {c : Char} (h : webStop c = true) : c.toNat < 128 := by
  have hall : ∀ d ∈ '}' :: (webSpaces ++ closers), d.toNat < 128 :=
    List.forall_of_all (by decide)
  refine hall c ?_
  simp only [webStop, Bool.or_eq_true, List.contains_iff_mem, decide_eq_true_eq] at h
  rw [List.mem_cons, List.mem_append]
  exact h.elim .inr .inl

theorem agrees_webStop : Agrees (fun b => !isUrlTerminator b) (fun c => !webStop c) := by
  refine @agrees_of_ascii _ _ true (by decide) (fun b hb => ?_) (fun c hc => ?_)
  · have hall : ∀ d ∈ [32, 9, 10, 13, 60, 62, 34, 39, 41, 93, 125], d < (0x80 : UInt8) :=
      List.forall_of_all (by decide)
    rw [Bool.not_eq_true']
    refine Bool.eq_false_iff.mpr (fun hterm => ?_)
    exact absurd hb (UInt8.not_le.mpr (hall b (List.contains_iff_mem.mp hterm)))
  · rw [Bool.not_eq_true']
    refine Bool.eq_false_iff.mpr (fun hstop => ?_)
    exact absurd (lt_of_webStop hstop) (Nat.not_lt.mpr hc)

theorem isPrefixOf_encode {p : Str} (hp : ∀ c ∈ p, c.toNat < 128) (s : Str) :
    (encode p).isPrefixOf (encode s) = true ↔ ∃ r, s = p ++ r := by
  have hbytes : ∀ b ∈ encode p, b < 0x80 := by
    intro b hb
    obtain ⟨c, hc, hb⟩ := List.mem_flatMap.mp hb
    rw [encodeChar_of_lt (hp c hc), List.mem_singleton] at hb
    rw [hb, UInt8.lt_iff_toNat_lt, UInt8.toNat_ofNat']
    have hlt := hp c hc
    have h80 : (0x80 : UInt8).toNat = 128 := rfl
    omega
  rw [List.isPrefixOf_iff_prefix]
  constructor
  · rintro ⟨r, hr⟩
    obtain ⟨a, t, rfl, ha, -, -⟩ := exists_of_encode_eq_append hr.symm hbytes
    exact ⟨t, by rw [encode_injective ha]⟩
  · rintro ⟨r, rfl⟩
    exact ⟨encode r, (encode_append p r).symm⟩

theorem matchBody_eq (pre p r : Str) :
    matchBody (encode (pre ++ (p ++ r))) (byteLen pre + byteLen p) =
      if r.takeWhile (fun c => !webStop c) = [] then none
      else some (byteLen pre + byteLen (p ++ r.takeWhile (fun c => !webStop c))) := by
  have hdrop : (encode (pre ++ (p ++ r))).drop (byteLen pre + byteLen p) = encode r := by
    rw [← List.append_assoc, ← byteLen_append, drop_encode_append]
  unfold matchBody
  rw [hdrop, agrees_webStop.takeWhile_encode, length_encode]
  dsimp only
  have hempty : byteLen pre + byteLen p + byteLen (r.takeWhile (fun c => !webStop c)) =
      byteLen pre + byteLen p ↔ r.takeWhile (fun c => !webStop c) = [] := by
    rw [← byteLen_eq_zero_iff]
    omega
  rw [byteLen_append, ← Nat.add_assoc]
  exact if_congr hempty rfl rfl

/-- `match_url` matches the pattern of the web client. -/
theorem matchUrl_eq (pre s : Str) :
    matchUrl (encode (pre ++ s)) (byteLen pre) =
      ((Urls.pattern webStop).front s).map (fun q => byteLen pre + byteLen q.1) := by
  have hascii : ∀ c ∈ Urls.https, c.toNat < 128 := List.forall_of_all (by decide)
  have hascii' : ∀ c ∈ Urls.http, c.toNat < 128 := List.forall_of_all (by decide)
  have hlen : byteLen Urls.https = 8 := rfl
  have hlen' : byteLen Urls.http = 7 := rfl
  have hfront : ∀ p r : Str, p = Urls.https ∨ p = Urls.http →
      matchBody (encode (pre ++ (p ++ r))) (byteLen pre + byteLen p) =
        ((Urls.pattern webStop).front (p ++ r)).map (fun q => byteLen pre + byteLen q.1) := by
    intro p r hp
    have h : (Urls.pattern webStop).front (p ++ r) = _ := Urls.front_of_scheme hp
    rw [h, matchBody_eq]
    split_ifs <;> rfl
  unfold matchUrl
  dsimp only
  rw [drop_encode_append, httpsBytes, httpBytes]
  by_cases hs : ∃ r, s = Urls.https ++ r
  · obtain ⟨r, rfl⟩ := hs
    rw [if_pos ((isPrefixOf_encode hascii _).mpr ⟨r, rfl⟩), ← hlen, hfront _ r (.inl rfl)]
  · rw [if_neg (fun h => hs ((isPrefixOf_encode hascii _).mp h))]
    by_cases hs' : ∃ r, s = Urls.http ++ r
    · obtain ⟨r, rfl⟩ := hs'
      rw [if_pos ((isPrefixOf_encode hascii' _).mpr ⟨r, rfl⟩), ← hlen', hfront _ r (.inr rfl)]
    · rw [if_neg (fun h => hs' ((isPrefixOf_encode hascii' _).mp h))]
      have hnone : (Urls.pattern webStop).front s = none := by
        refine Option.eq_none_iff_forall_not_mem.mpr ?_
        rintro ⟨m, r⟩ h
        obtain ⟨p, b, rfl, rfl, rfl | rfl, -⟩ := Urls.front_eq_some_iff.mp h
        · exact hs ⟨b ++ r, List.append_assoc _ b r⟩
        · exact hs' ⟨b ++ r, List.append_assoc _ b r⟩
      rw [hnone]
      rfl

/-- The length that the first byte of a character gives. -/
theorem utf8CharLen_ofNat {v : Nat} :
    (v < 0x80 → utf8CharLen (UInt8.ofNat v) = 1) ∧
      (0xc0 ≤ v → v < 0xe0 → utf8CharLen (UInt8.ofNat v) = 2) ∧
      (0xe0 ≤ v → v < 0xf0 → utf8CharLen (UInt8.ofNat v) = 3) ∧
      (0xf0 ≤ v → v < 0x100 → utf8CharLen (UInt8.ofNat v) = 4) := by
  unfold utf8CharLen
  simp only [UInt8.lt_iff_toNat_lt, UInt8.toNat_ofNat', UInt8.reduceToNat]
  refine ⟨fun h => ?_, fun h h' => ?_, fun h h' => ?_, fun h h' => ?_⟩ <;> split_ifs <;> omega

theorem utf8CharLen_head {c : Char} {b : UInt8} {bs : List UInt8}
    (h : String.utf8EncodeChar c = b :: bs) : utf8CharLen b = c.utf8Size := by
  have hlen := String.length_utf8EncodeChar c
  rw [h, List.length_cons] at hlen
  rw [← hlen]
  simp only [String.utf8EncodeChar] at h
  generalize c.val.toNat = v at h
  split_ifs at h <;> obtain ⟨rfl, rfl⟩ := List.cons.inj h
  · exact utf8CharLen_ofNat.1 (by omega)
  · exact utf8CharLen_ofNat.2.1 (by omega) (by omega)
  · exact utf8CharLen_ofNat.2.2.1 (by omega) (by omega)
  · exact utf8CharLen_ofNat.2.2.2 (by omega) (by omega)

theorem findUrlLoop_eq {text pre s : Str} (htext : text = pre ++ s) {fuel : Nat}
    (hfuel : byteLen s < fuel) :
    findUrlLoop (encode text) fuel (byteLen pre) =
      Matcher.ranges (byteLen pre) ((Urls.pattern webStop).pieces s) := by
  induction s using (Urls.pattern webStop).pieces_induction generalizing pre fuel with
  | nil =>
    cases fuel with
    | zero => rfl
    | succ fuel =>
      rw [findUrlLoop, htext, getElem?_encode]
      rfl
  | gap c s h ih =>
    obtain ⟨fuel, rfl⟩ := Nat.exists_eq_add_one_of_ne_zero (Nat.ne_zero_of_lt hfuel)
    have htext' : text = pre ++ [c] ++ s := by rw [htext, List.append_cons pre c s]
    have hsize : byteLen [c] = c.utf8Size := Nat.add_zero _
    have hpos := Char.utf8Size_pos c
    have hcons : byteLen (c :: s) = c.utf8Size + byteLen s := rfl
    have hrest : findUrlLoop (encode text) fuel (byteLen (pre ++ [c])) = _ :=
      ih htext' (by omega)
    rw [byteLen_append, hsize] at hrest
    cases hbytes : String.utf8EncodeChar c with
    | nil => exact absurd hbytes (encodeChar_ne_nil c)
    | cons b bs =>
      have hhead : (encode text)[byteLen pre]? = some b := by
        rw [htext, getElem?_encode, encode_cons, hbytes]
        rfl
      rw [findUrlLoop, hhead]
      dsimp only
      rw [htext, matchUrl_eq, h, ← htext, Option.map_none]
      dsimp only
      rw [utf8CharLen_head hbytes, hrest, Matcher.pieces_of_none h, Matcher.ranges]
  | hit s m r h ih =>
    obtain ⟨fuel, rfl⟩ := Nat.exists_eq_add_one_of_ne_zero (Nat.ne_zero_of_lt hfuel)
    have hsplit := (Urls.pattern webStop).split h
    have htext' : text = pre ++ m ++ r := by rw [htext, hsplit, List.append_assoc]
    have hpos := byteLen_pos_iff.mpr ((Urls.pattern webStop).nonempty h)
    have hlen : byteLen s = byteLen m + byteLen r := by rw [hsplit, byteLen_append]
    have hrest : findUrlLoop (encode text) fuel (byteLen (pre ++ m)) = _ := ih htext' (by omega)
    rw [byteLen_append] at hrest
    obtain ⟨b, hhead⟩ : ∃ b, (encode text)[byteLen pre]? = some b := by
      refine ⟨_, List.getElem?_eq_getElem ?_⟩
      rw [length_encode, htext, byteLen_append]
      omega
    rw [findUrlLoop, hhead]
    dsimp only
    rw [htext, matchUrl_eq, h, ← htext, Option.map_some]
    dsimp only
    rw [hrest, Matcher.pieces_of_some h, Matcher.ranges]

/-- The scanner over bytes matches a pattern. -/
theorem findUrlMatches_eq (text : Str) :
    findUrlMatches text = Matcher.ranges 0 ((Urls.pattern webStop).pieces text) :=
  @findUrlLoop_eq text [] text rfl _ (by rw [length_encode]; exact Nat.lt_succ_self _)

/-! ### What the web client shows -/

theorem splitLoop_eq (span : StyledSpan) {pre g : Str} {ps : List (Matcher.Piece Char)}
    (htext : span.text = pre ++ g ++ ps.flatMap Matcher.Piece.source) :
    ∃ out done tail, splitLoop span (byteLen pre) (Matcher.ranges (byteLen (pre ++ g)) ps) =
        some (out, byteLen (pre ++ done)) ∧
      g ++ ps.flatMap Matcher.Piece.source = done ++ tail ∧
      out.flatMap StyledSpan.text = done := by
  induction ps generalizing pre g with
  | nil => exact ⟨[], [], g, by rw [List.append_nil]; rfl, by simp, rfl⟩
  | cons piece ps ih =>
    cases piece with
    | gap c =>
      have htext' : span.text = pre ++ (g ++ [c]) ++ ps.flatMap Matcher.Piece.source := by
        rw [htext]
        simp [Matcher.Piece.source]
      obtain ⟨out, done, tail, hloop, hsource, hout⟩ := ih htext'
      refine ⟨out, done, tail, ?_, ?_, hout⟩
      · rw [← hloop, Matcher.ranges, ← List.append_assoc, byteLen_append (pre ++ g)]
        rfl
      · rw [← hsource]
        simp [Matcher.Piece.source]
    | hit m =>
      have htext' : span.text = pre ++ g ++ m ++ [] ++ ps.flatMap Matcher.Piece.source := by
        rw [htext]
        simp [Matcher.Piece.source]
      obtain ⟨out, done, tail, hloop, hsource, hout⟩ := ih htext'
      rw [List.append_nil, byteLen_append (pre ++ g)] at hloop
      have hmatch : slice span.text (byteLen (pre ++ g)) (byteLen (pre ++ g) + byteLen m) =
          some m := by
        rw [htext', List.append_nil, slice_append]
      obtain ⟨before, hbefore, hgap⟩ : ∃ before : List StyledSpan,
          (if byteLen pre < byteLen (pre ++ g) then
            (slice span.text (byteLen pre) (byteLen (pre ++ g))).map
              (fun s => [childSpan span s none])
          else some []) = some before ∧ before.flatMap StyledSpan.text = g := by
        rw [byteLen_append]
        by_cases hg : g = []
        · exact ⟨[], if_neg (by simp [hg, byteLen]), hg.symm⟩
        · have hpos := byteLen_pos_iff.mpr hg
          rw [if_pos (by omega), htext, slice_append]
          exact ⟨_, rfl, by simp [childSpan]⟩
      refine ⟨before ++ childSpan span m (some m) :: out, g ++ m ++ done, tail, ?_, ?_, ?_⟩
      · rw [Matcher.ranges, splitLoop, hbefore, hmatch, hloop]
        simp
      · rw [List.flatMap_cons, List.append_assoc _ done, ← hsource]
        simp [Matcher.Piece.source]
      · rw [List.flatMap_append, List.flatMap_cons, hgap, hout]
        simp [childSpan]

theorem text_splitOne (span : StyledSpan) :
    ∃ out, splitOne span = some out ∧ out.flatMap StyledSpan.text = span.text := by
  unfold splitOne
  split
  · exact ⟨[span], rfl, by simp⟩
  · have hsource : span.text = [] ++ [] ++ ((Urls.pattern webStop).pieces span.text).flatMap
        Matcher.Piece.source := (Matcher.source_pieces _ _).symm
    obtain ⟨out, done, tail, hloop, hdone, hout⟩ := splitLoop_eq span hsource
    have htext : span.text = done ++ tail := hsource.trans hdone
    have hloop' : splitLoop span 0 (findUrlMatches span.text) = some (out, byteLen done) := by
      rw [findUrlMatches_eq]
      exact hloop
    rw [hloop', Option.bind_some]
    dsimp only
    by_cases htail : tail = []
    · rw [htext, htail, List.append_nil, if_neg (Nat.lt_irrefl _)]
      exact ⟨out, rfl, hout⟩
    · have hpos := byteLen_pos_iff.mpr htail
      have hslice : slice span.text (byteLen done) (byteLen span.text) = some tail := by
        have h := slice_append done tail []
        rwa [List.append_nil, ← byteLen_append, ← htext] at h
      have hlt : byteLen done < byteLen span.text := by
        rw [htext, byteLen_append]
        omega
      rw [if_pos hlt, hslice]
      refine ⟨out ++ [childSpan span tail none], rfl, ?_⟩
      rw [List.flatMap_append, hout, htext]
      simp [childSpan]

/-- Links leave the text of a span what it is. -/
theorem text_linkifySpan (span : StyledSpan) :
    ∃ out, linkifySpan span = some out ∧ out.flatMap StyledSpan.text = span.text := by
  have hkept : ∃ out, some [span] = some out ∧ out.flatMap StyledSpan.text = span.text :=
    ⟨[span], rfl, by simp⟩
  unfold linkifySpan
  split_ifs
  · exact hkept
  · exact hkept
  · exact text_splitOne span

/-- Emotes leave it what it is. -/
theorem text_emotifySpan (isKnown : Str → Bool) (stemFor : Str → Str) (span : StyledSpan) :
    ∃ out, emotifySpan isKnown stemFor span = some out ∧
      out.flatMap StyledSpan.text = span.text := by
  unfold emotifySpan
  split_ifs
  · exact ⟨[span], rfl, by simp⟩
  · refine ⟨_, emotifyLoop_render isKnown stemFor span, ?_⟩
    rw [List.flatMap_map]
    refine Eq.trans (List.flatMap_congr (fun seg _ => ?_)) (Layout.source_tokenizeWith isKnown _)
    cases seg <;> rfl

/-- What leaves each span its text leaves the spans theirs. -/
theorem text_mapM {f : StyledSpan → Option (List StyledSpan)}
    (h : ∀ span, ∃ out, f span = some out ∧ out.flatMap StyledSpan.text = span.text)
    (spans : List StyledSpan) :
    ∃ out, (spans.mapM f).map List.flatten = some out ∧
      out.flatMap StyledSpan.text = spans.flatMap StyledSpan.text := by
  induction spans with
  | nil => exact ⟨[], rfl, rfl⟩
  | cons span spans ih =>
    obtain ⟨out, hout, htext⟩ := h span
    obtain ⟨outs, houts, htexts⟩ := ih
    obtain ⟨parts, hparts, rfl⟩ := Option.map_eq_some_iff.mp houts
    refine ⟨out ++ parts.flatten, ?_, ?_⟩
    · rw [List.mapM_cons, hout, hparts]
      rfl
    · rw [List.flatMap_append, htext, htexts, List.flatMap_cons]

/-- No text is lost. -/
theorem text_emotify_linkify (isKnown : Str → Bool) (stemFor : Str → Str)
    (spans : List StyledSpan) :
    ∃ linked out, linkifySpans spans = some linked ∧
      emotifySpansWith isKnown stemFor linked = some out ∧
      out.flatMap StyledSpan.text = spans.flatMap StyledSpan.text := by
  obtain ⟨linked, hlinked, htext⟩ := text_mapM text_linkifySpan spans
  obtain ⟨out, hout, htext'⟩ := text_mapM (text_emotifySpan isKnown stemFor) linked
  exact ⟨linked, out, hlinked, hout, htext'.trans htext⟩

/-! ### In sync -/

theorem stops_eq_false_iff (c : Char) :
    webStop c = false ∧ urlReStop c = false ↔
      Text.isWhitespace c = false ∧ c ∉ closers ∧ c ≠ '}' := by
  have hspaces : c ∈ webSpaces → Text.isWhitespace c = true := by
    have hall : ∀ d ∈ webSpaces, Text.isWhitespace d = true := List.forall_of_all (by decide)
    exact hall c
  simp only [← Bool.not_eq_true, webStop, urlReStop, Bool.or_eq_true, List.contains_iff_mem,
    decide_eq_true_eq]
  tauto

theorem stops_ne_iff (x : Char) :
    webStop x ≠ urlReStop x ↔ x = '}' ∨ isOtherWhitespace x = true := by
  have hspaces : x ∈ webSpaces → Text.isWhitespace x = true := by
    have hall : ∀ d ∈ webSpaces, Text.isWhitespace d = true := List.forall_of_all (by decide)
    exact hall x
  have hclosers : x ∈ closers → x ≠ '}' ∧ Text.isWhitespace x = false := by
    have hall : ∀ d ∈ closers, d ≠ '}' ∧ Text.isWhitespace d = false :=
      List.forall_of_all (by decide)
    exact hall x
  have hbrace : x = '}' → Text.isWhitespace x = false := by
    rintro rfl
    decide
  have hother : isOtherWhitespace x = true ↔ Text.isWhitespace x = true ∧ x ∉ webSpaces := by
    simp only [isOtherWhitespace, Bool.and_eq_true, Bool.not_eq_true', ← Bool.not_eq_true,
      List.contains_iff_mem]
    rfl
  rw [hother, Ne, Bool.eq_iff_iff]
  simp only [webStop, urlReStop, Bool.or_eq_true, List.contains_iff_mem, decide_eq_true_eq]
  rw [← Bool.not_eq_true] at hclosers hbrace
  tauto

/-- What one of the two patterns stops at and the other does not is a misread URL. -/
theorem clashes_iff (text : Str) : Urls.Clashes webStop urlReStop text ↔ Misread text := by
  have hhttps : str "https://" = Urls.https := rfl
  have hhttp : str "http://" = Urls.http := rfl
  unfold Urls.Clashes Urls.ClashesAt Misread
  simp only [stops_eq_false_iff, stops_ne_iff, hhttps, hhttp]
  constructor
  · rintro ⟨a, t, rfl, p, u, x, b, rfl, h⟩
    exact ⟨a, p, u, x, b, by simp, h⟩
  · rintro ⟨a, p, u, x, b, rfl, h⟩
    exact ⟨a, p ++ (u ++ x :: b), by simp, p, u, x, b, rfl, h⟩

theorem isCharBoundary_of_mem {text : Str} {range : Nat × Nat}
    (h : range ∈ findUrlMatches text) :
    isCharBoundary text range.1 = true ∧ isCharBoundary text range.2 = true := by
  rw [findUrlMatches_eq] at h
  obtain ⟨a, m, b, hsource, rfl⟩ := Matcher.exists_of_mem_ranges h
  rw [Matcher.source_pieces] at hsource
  simp only [Nat.zero_add]
  exact (isSome_slice_iff.mp (by rw [hsource, slice_append]; rfl)).2

/-- **The web client and the server find the same URLs** in a text exactly when no URL in it is
misread. The slices of the web client are at character boundaries and lose nothing, of any text and
any spans. -/
theorem links_agree_iff (isKnown : Str → Bool) (stemFor : Str → Str) (text : Str)
    (spans : List StyledSpan) :
    (findUrlMatches text = serverMatches text ∧
      (∀ range ∈ findUrlMatches text,
        isCharBoundary text range.1 = true ∧ isCharBoundary text range.2 = true) ∧
      ∃ linked out, linkifySpans spans = some linked ∧
        emotifySpansWith isKnown stemFor linked = some out ∧
        out.flatMap StyledSpan.text = spans.flatMap StyledSpan.text) ↔ ¬ Misread text := by
  have hfree : ∀ c ∈ Urls.https, webStop c = false ∧ urlReStop c = false :=
    List.forall_of_all (by decide)
  have hsame : findUrlMatches text = serverMatches text ↔ ¬ Misread text := by
    rw [findUrlMatches_eq, ← clashes_iff]
    exact Urls.ranges_eq_iff hfree 0 text
  rw [hsame]
  exact ⟨fun h => h.1, fun h => ⟨h, fun range hrange => isCharBoundary_of_mem hrange,
    text_emotify_linkify isKnown stemFor spans⟩⟩

/-- A closing brace ends the link of the web client, but not the URL that the server asks for. -/
theorem brace_ends_the_link :
    ¬ (findUrlMatches (str "https://a\x7db") = serverMatches (str "https://a\x7db") ∧
      (∀ range ∈ findUrlMatches (str "https://a\x7db"),
        isCharBoundary (str "https://a\x7db") range.1 = true ∧
          isCharBoundary (str "https://a\x7db") range.2 = true) ∧
      ∃ linked out, linkifySpans [plainSpan (str "https://a\x7db")] = some linked ∧
        emotifySpansWith (fun _ => false) id linked = some out ∧
        out.flatMap StyledSpan.text = str "https://a\x7db") := by
  have hweb : findUrlMatches (str "https://a\x7db") = [(0, 9)] := by decide
  have hserver : serverMatches (str "https://a\x7db") = [(0, 11)] := by decide
  rintro ⟨hsame, -, -⟩
  rw [hweb, hserver] at hsame
  exact absurd hsame (by decide)

end Repartee.Web
