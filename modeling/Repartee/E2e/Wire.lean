import Repartee.E2e.Chunker
import Repartee.E2e.Crypto

/-!
# The RPE2E01 wire format

`wire.rs`: one chunk of a message is one line
`+RPE2E01 <msgid> <ts> <part>/<total> <nonce_b64>:<ct_b64>`, and its associated data binds the
protocol, the channel and every field of the header.

## Main results

- `WireChunk.parse_encode`: parsing inverts encoding
- `buildAad_channel_injective`: for one header, the associated data determines the channel
-/

set_option autoImplicit false

namespace Repartee

/-- Protocol version string embedded in wire format and AAD. -/
def proto : Str := str "RPE2E01"

/-- Wire prefix magic. -/
def wirePrefix : Str := str "+RPE2E01"

/-- Bounds of Rust's `i64`. -/
def i64Min : Int := -9223372036854775808

def i64Max : Int := 9223372036854775807

/-- The text of `std::num::ParseIntError`. -/
def parseIntErrorText : Text.ParseIntError → Str
  | .empty => str "cannot parse integer from empty string"
  | .invalidDigit => str "invalid digit found in string"
  | .posOverflow => str "number too large to fit in target type"
  | .negOverflow => str "number too small to fit in target type"

/-- Parsed components of a single RPE2E01 chunk. -/
structure WireChunk where
  msgid : Bytes 8
  ts : Int
  part : UInt8
  total : UInt8
  nonce : Nonce
  ciphertext : List UInt8
  deriving DecidableEq

namespace WireChunk

variable (cr : Crates)

/-- Serialize into an IRC-safe one-line payload. -/
def encode (w : WireChunk) : Result Str :=
  if w.total = 0 || w.total.toNat > maxChunks then .error (.chunkLimit w.total)
  else if w.part = 0 || w.part > w.total then
    .error (.wire (str "invalid part/total: " ++ fmtNat w.part.toNat ++ str "/" ++
      fmtNat w.total.toNat))
  else
    .ok (wirePrefix ++ ' ' :: (cr.hexEncode w.msgid.1 ++ ' ' :: (fmtInt w.ts ++ ' ' ::
      ((fmtNat w.part.toNat ++ '/' :: fmtNat w.total.toNat) ++ ' ' ::
        (cr.b64Encode w.nonce.1 ++ ':' :: cr.b64Encode w.ciphertext)))))

def parseU8 (what : String) (s : Str) : Result UInt8 :=
  match Text.parseInt 0 255 s with
  | .ok n => .ok (UInt8.ofNat n.toNat)
  | .error e => .error (.wire (str what ++ parseIntErrorText e))

def parseMsgid (msgidHex : Str) : Result (Bytes 8) :=
  if Utf8.byteLen msgidHex ≠ 16 then .error (.wire (str "msgid must be 16 hex chars"))
  else
    match cr.hexDecode msgidHex with
    | .error e => .error (.hex e)
    | .ok v =>
      match Bytes.ofList? 8 v with
      | some msgid => .ok msgid
      -- sixteen hex digits decode to eight bytes
      | none => .error (.hex (str "Invalid string length"))

def parseTs (tsStr : Str) : Result Int :=
  match Text.parseInt i64Min i64Max tsStr with
  | .ok ts => .ok ts
  | .error e => .error (.wire (str "bad ts: " ++ parseIntErrorText e))

def parsePartTotal (parttot : Str) : Result (UInt8 × UInt8) :=
  match Text.splitOnce '/' parttot with
  | none => .error (.wire (str "part/total missing slash"))
  | some (p, t) => do
    let part ← parseU8 "bad part: " p
    let total ← parseU8 "bad total: " t
    if total = 0 || total.toNat > maxChunks || part = 0 || part > total then
      .error (.wire (str "bad part/total " ++ fmtNat part.toNat ++ str "/" ++
        fmtNat total.toNat))
    else .ok (part, total)

def parseBody (body : Str) : Result (Nonce × List UInt8) :=
  match Text.splitOnce ':' body with
  | none => .error (.wire (str "missing nonce:ct separator"))
  | some (nonceB64, ctB64) =>
    match cr.b64Decode nonceB64 with
    | .error e => .error (.base64 e)
    | .ok nonceVec =>
      match Bytes.ofList? 24 nonceVec with
      | none =>
        .error (.wire (str "nonce must be 24 bytes, got " ++ fmtNat nonceVec.length))
      | some nonce =>
        match cr.b64Decode ctB64 with
        | .error e => .error (.base64 e)
        | .ok ciphertext => .ok (nonce, ciphertext)

/-- Parse an incoming wire line; `none` if the line does not start with the RPE2E01 prefix. -/
def parse (line : Str) : Result (Option WireChunk) :=
  match Text.stripPrefix wirePrefix line with
  | none => .ok none
  | some rest =>
    match Text.splitWhitespace (Text.trimStart rest) with
    | [] => .error (.wire (str "missing msgid"))
    | [_] => .error (.wire (str "missing ts"))
    | [_, _] => .error (.wire (str "missing part/total"))
    | [_, _, _] => .error (.wire (str "missing body"))
    | [msgidHex, tsStr, parttot, body] => do
      let msgid ← parseMsgid cr msgidHex
      let ts ← parseTs tsStr
      let (part, total) ← parsePartTotal parttot
      let (nonce, ciphertext) ← parseBody cr body
      .ok (some { msgid, ts, part, total, nonce, ciphertext })
    | _ => .error (.wire (str "extra fields"))

end WireChunk

/-! ### Associated data -/

/-- `u16::to_be_bytes` -/
def be16 (n : Nat) : List UInt8 := [UInt8.ofNat (n / 256), UInt8.ofNat n]

/-- The last `k` base-256 digits of a number, most significant first. -/
def beBytes : Nat → Nat → List UInt8
  | 0, _ => []
  | k + 1, n => beBytes k (n / 256) ++ [UInt8.ofNat n]

/-- `i64::to_be_bytes` -/
def i64Be (t : Int) : List UInt8 := beBytes 8 (t.emod 18446744073709551616).toNat

/-- Construct the AAD for a chunk. -/
def buildAad (channel : Str) (msgid : Bytes 8) (ts : Int) (part total : UInt8) : List UInt8 :=
  let chan := Utf8.encode channel
  Utf8.encode proto ++ be16 (min chan.length 65535) ++ chan ++ be16 8 ++ msgid.1 ++ be16 8 ++
    i64Be ts ++ be16 1 ++ [part] ++ be16 1 ++ [total]

@[simp] theorem length_beBytes (k n : Nat) : (beBytes k n).length = k := by
  induction k generalizing n with
  | zero => rfl
  | succ k ih => simp [beBytes, ih]

@[simp] theorem length_i64Be (t : Int) : (i64Be t).length = 8 := length_beBytes 8 _

/-- The associated data separates channels: the header behind the channel has a fixed size. -/
theorem buildAad_channel_injective {c c' : Str} {msgid : Bytes 8} {ts : Int} {part total : UInt8}
    (h : buildAad c msgid ts part total = buildAad c' msgid ts part total) : c = c' := by
  have hlen := congrArg List.length h
  simp only [buildAad, be16, List.length_append, List.length_cons, List.length_nil] at hlen
  have hc : (Utf8.encode c).length = (Utf8.encode c').length := by omega
  simp only [buildAad, hc, List.append_assoc, List.append_cancel_left_eq] at h
  exact Utf8.encode_injective (List.append_inj h hc).1

/-! ### Round trip -/

namespace WireChunk

variable {cr : Crates}

theorem isWord_hexEncode (h : cr.Codecs) {b : List UInt8} (hb : b ≠ []) :
    Text.IsWord (cr.hexEncode b) := by
  refine ⟨fun hn => ?_, fun c hc => (h.hex_token b c hc).1⟩
  have hl := h.hex_length b
  rw [hn] at hl
  simp only [Utf8.byteLen] at hl
  exact hb (List.length_eq_zero_iff.mp (by omega))

theorem parseMsgid_hexEncode (h : cr.Codecs) (msgid : Bytes 8) :
    parseMsgid cr (cr.hexEncode msgid.1) = .ok msgid := by
  unfold parseMsgid
  rw [if_neg (by rw [h.hex_length, msgid.2]; simp), h.hex_decode]
  simp

theorem parseTs_fmtInt {ts : Int} (hmin : i64Min ≤ ts) (hmax : ts ≤ i64Max) :
    parseTs (fmtInt ts) = .ok ts := by
  unfold parseTs fmtInt
  rw [Text.parseInt_formatInt (by decide) (by decide) hmin hmax]

theorem parseU8_fmtNat (what : String) (b : UInt8) : parseU8 what (fmtNat b.toNat) = .ok b := by
  have hb : b.toNat < 256 := b.toNat_lt
  unfold parseU8 fmtNat
  rw [Text.parseInt_formatInt (by decide) (by decide) (by omega) (by omega)]
  simp

theorem slash_not_mem_fmtNat (n : Nat) : '/' ∉ fmtNat n := by
  intro h
  have hd := @Text.toDigits_isDigit n '/' h
  revert hd
  decide

theorem isWord_fmtNat_slash (p t : Nat) : Text.IsWord (fmtNat p ++ '/' :: fmtNat t) := by
  refine ⟨by simp, fun c hc => ?_⟩
  rcases List.mem_append.mp hc with hc | hc
  · exact (Text.isWord_formatInt p).2 c hc
  rcases List.mem_cons.mp hc with rfl | hc
  · decide
  · exact (Text.isWord_formatInt t).2 c hc

theorem isWord_body (h : cr.Codecs) (n c : List UInt8) :
    Text.IsWord (cr.b64Encode n ++ ':' :: cr.b64Encode c) := by
  refine ⟨by simp, fun d hd => ?_⟩
  rcases List.mem_append.mp hd with hd | hd
  · exact (h.b64_token n d hd).1
  rcases List.mem_cons.mp hd with rfl | hd
  · decide
  · exact (h.b64_token c d hd).1

theorem parseBody_b64Encode (h : cr.Codecs) (nonce : Nonce) (ct : List UInt8) :
    parseBody cr (cr.b64Encode nonce.1 ++ ':' :: cr.b64Encode ct) = .ok (nonce, ct) := by
  have hcolon : ':' ∉ cr.b64Encode nonce.1 := fun hm => (h.b64_token nonce.1 ':' hm).2 rfl
  unfold parseBody
  rw [Text.splitOnce_append hcolon]
  simp [h.b64_decode]

/-- Parsing inverts encoding. -/
theorem parse_encode (h : cr.Codecs) {w : WireChunk} {line : Str} (hmin : i64Min ≤ w.ts)
    (hmax : w.ts ≤ i64Max) (he : w.encode cr = .ok line) : parse cr line = .ok (some w) := by
  unfold encode at he
  split at he
  · simp at he
  rename_i htotal
  split at he
  · simp at he
  rename_i hpart
  have hmsgid : Text.IsWord (cr.hexEncode w.msgid.1) := by
    refine isWord_hexEncode h (fun hn => ?_)
    have hl := w.msgid.2
    rw [hn] at hl
    simp at hl
  have hsp : Text.isWhitespace ' ' = true := by decide
  have hpt : parsePartTotal (fmtNat w.part.toNat ++ '/' :: fmtNat w.total.toNat)
      = .ok (w.part, w.total) := by
    unfold parsePartTotal
    rw [Text.splitOnce_append (slash_not_mem_fmtNat _)]
    simp only [parseU8_fmtNat, bind, Except.bind]
    refine if_neg ?_
    simp only [Bool.or_eq_true, decide_eq_true_eq, not_or] at htotal hpart ⊢
    exact ⟨⟨htotal, hpart.1⟩, hpart.2⟩
  cases he
  rw [parse, Text.stripPrefix_append]
  simp only [Text.trimStart_space, Text.trimStart_of_isWord hmsgid,
    Text.splitWhitespace_append hmsgid hsp,
    Text.splitWhitespace_append (Text.isWord_formatInt _) hsp,
    fmtInt, Text.splitWhitespace_append (isWord_fmtNat_slash _ _) hsp,
    Text.splitWhitespace_of_isWord (isWord_body h _ _)]
  simp only [parseMsgid_hexEncode h, hpt, parseBody_b64Encode h, bind, Except.bind]
  have hts := parseTs_fmtInt hmin hmax
  rw [fmtInt] at hts
  rw [hts]

end WireChunk

end Repartee
