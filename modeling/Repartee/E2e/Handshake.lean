import Repartee.Lib.Table
import Repartee.E2e.Wire

/-!
# The CTCP handshake messages

`handshake.rs`: the KEYREQ, KEYRSP and REKEY messages, the payloads their signatures cover,
their one-line text form `RPEE2E <kind> v=1 c=<channel> …` and the rate limiter.

## Main results

- `HandshakeMsg.parse_encode`: parsing inverts encoding for a channel without whitespace
-/

set_option autoImplicit false

namespace Repartee

def ctcpTag : Str := str "RPEE2E"

def protoVersion : Nat := 1

structure KeyReq where
  channel : Str
  pubkey : Bytes 32
  ephX25519 : Bytes 32
  nonce : Bytes 16
  sig : Bytes 64
  deriving DecidableEq

structure KeyRsp where
  channel : Str
  pubkey : Bytes 32
  ephemeralPub : Bytes 32
  wrapNonce : Bytes 24
  wrapCt : List UInt8
  nonce : Bytes 16
  sig : Bytes 64
  deriving DecidableEq

structure KeyRekey where
  channel : Str
  pubkey : Bytes 32
  ephPub : Bytes 32
  wrapNonce : Bytes 24
  wrapCt : List UInt8
  nonce : Bytes 16
  sig : Bytes 64
  deriving DecidableEq

inductive HandshakeMsg where
  | req (r : KeyReq)
  | rsp (r : KeyRsp)
  | rekey (r : KeyRekey)
  deriving DecidableEq

/-! ### Signed payloads -/

/-- Fields behind a tag, each after a colon. -/
def sigPayload (tag : String) (fields : List (List UInt8)) : List UInt8 :=
  Utf8.encode (str tag) ++ (fields.map (fun f => Utf8.encode (str ":") ++ f)).flatten

def signedKeyreqPayload (channel : Str) (pubkey ephX25519 : Bytes 32) (nonce : Bytes 16) :
    List UInt8 :=
  sigPayload "KEYREQ" [Utf8.encode channel, pubkey.1, ephX25519.1, nonce.1]

def signedKeyrspPayload (channel : Str) (pubkey ephPub : Bytes 32) (wrapNonce : Bytes 24)
    (wrapCt : List UInt8) (nonce : Bytes 16) : List UInt8 :=
  sigPayload "KEYRSP" [Utf8.encode channel, pubkey.1, ephPub.1, wrapNonce.1, wrapCt, nonce.1]

def signedKeyrekeyPayload (channel : Str) (pubkey ephPub : Bytes 32) (wrapNonce : Bytes 24)
    (wrapCt : List UInt8) (nonce : Bytes 16) : List UInt8 :=
  sigPayload "REKEY" [Utf8.encode channel, pubkey.1, ephPub.1, wrapNonce.1, wrapCt, nonce.1]

/-! ### Text form -/

variable (cr : Crates)

/-- One `k=v` field. -/
def kvField (kv : Str × Str) : Str := kv.1 ++ '=' :: kv.2

/-- A message: the tag, the kind and the fields. -/
def encodeFields (kind : String) (fields : List (Str × Str)) : Str :=
  Text.unwords (ctcpTag :: str kind :: fields.map kvField)

def keyreqFields (req : KeyReq) : List (Str × Str) :=
  [(str "v", fmtNat protoVersion), (str "c", req.channel),
    (str "p", cr.b64UrlEncode req.pubkey.1), (str "e", cr.b64UrlEncode req.ephX25519.1),
    (str "n", cr.b64UrlEncode req.nonce.1), (str "s", cr.b64UrlEncode req.sig.1)]

/-- KEYRSP and REKEY have the same fields. -/
def wrapFields (channel : Str) (pubkey ephPub : Bytes 32) (wrapNonce : Bytes 24)
    (wrapCt : List UInt8) (nonce : Bytes 16) (sig : Bytes 64) : List (Str × Str) :=
  [(str "v", fmtNat protoVersion), (str "c", channel),
    (str "p", cr.b64UrlEncode pubkey.1), (str "e", cr.b64UrlEncode ephPub.1),
    (str "wn", cr.b64UrlEncode wrapNonce.1), (str "w", cr.b64UrlEncode wrapCt),
    (str "n", cr.b64UrlEncode nonce.1), (str "s", cr.b64UrlEncode sig.1)]

def encodeKeyreq (req : KeyReq) : Str := encodeFields "KEYREQ" (keyreqFields cr req)

def encodeKeyrsp (rsp : KeyRsp) : Str :=
  encodeFields "KEYRSP" (wrapFields cr rsp.channel rsp.pubkey rsp.ephemeralPub rsp.wrapNonce
    rsp.wrapCt rsp.nonce rsp.sig)

def encodeKeyrekey (rk : KeyRekey) : Str :=
  encodeFields "REKEY" (wrapFields cr rk.channel rk.pubkey rk.ephPub rk.wrapNonce rk.wrapCt
    rk.nonce rk.sig)

/-- The body of a message, without CTCP framing. -/
def HandshakeMsg.encode : HandshakeMsg → Str
  | .req r => encodeKeyreq cr r
  | .rsp r => encodeKeyrsp cr r
  | .rekey r => encodeKeyrekey cr r

/-- A message in CTCP framing, ready for NOTICE dispatch. -/
def HandshakeMsg.encodeCtcp (m : HandshakeMsg) : Str :=
  Char.ofNat 1 :: (m.encode cr ++ [Char.ofNat 1])

/-- The fields of a message; a repeated key is refused. -/
def parseKv : List Str → Dict Str Str → Result (Dict Str Str)
  | [], out => .ok out
  | f :: fields, out =>
    match Text.splitOnce '=' f with
    | none => parseKv fields out
    | some (k, v) =>
      if (out.lookup k).isSome then .error (.wire (str "duplicate key: " ++ k))
      else parseKv fields (out.insert k v)

def kvGet (kv : Dict Str Str) (key : String) : Result Str :=
  match kv.lookup (str key) with
  | some v => .ok v
  | none => .error (.handshake (str key))

def b64Decode (s : Str) : Result (List UInt8) :=
  match cr.b64UrlDecode s with
  | .ok b => .ok b
  | .error e => .error (.handshake (str "bad b64: " ++ e))

def b64Fixed (n : Nat) (s : Str) : Result (Bytes n) := do
  let raw ← b64Decode cr s
  match Bytes.ofList? n raw with
  | some b => .ok b
  | none => .error (.handshake (str "expected " ++ fmtNat n ++ str " bytes, got " ++
      fmtNat raw.length))

def parseWrapNonce (kv : Dict Str Str) : Result (Bytes 24) := do
  let raw ← b64Decode cr (← kvGet kv "wn")
  match Bytes.ofList? 24 raw with
  | some b => .ok b
  | none => .error (.handshake (str "wn len " ++ fmtNat raw.length ++ str " != " ++ fmtNat 24))

def parseWrapCt (kv : Dict Str Str) : Result (List UInt8) := do
  match cr.b64UrlDecode (← kvGet kv "w") with
  | .ok b => .ok b
  | .error e => .error (.handshake (str "bad wrap b64: " ++ e))

def parseKeyreq (kv : Dict Str Str) : Result KeyReq := do
  let channel ← kvGet kv "c"
  let pubkey ← b64Fixed cr 32 (← kvGet kv "p")
  let ephX25519 ← b64Fixed cr 32 (← kvGet kv "e")
  let nonce ← b64Fixed cr 16 (← kvGet kv "n")
  let sig ← b64Fixed cr 64 (← kvGet kv "s")
  .ok { channel, pubkey, ephX25519, nonce, sig }

def parseKeyrsp (kv : Dict Str Str) : Result KeyRsp := do
  let channel ← kvGet kv "c"
  let pubkey ← b64Fixed cr 32 (← kvGet kv "p")
  let ephemeralPub ← b64Fixed cr 32 (← kvGet kv "e")
  let wrapNonce ← parseWrapNonce cr kv
  let wrapCt ← parseWrapCt cr kv
  let nonce ← b64Fixed cr 16 (← kvGet kv "n")
  let sig ← b64Fixed cr 64 (← kvGet kv "s")
  .ok { channel, pubkey, ephemeralPub, wrapNonce, wrapCt, nonce, sig }

def parseKeyrekey (kv : Dict Str Str) : Result KeyRekey := do
  let channel ← kvGet kv "c"
  let pubkey ← b64Fixed cr 32 (← kvGet kv "p")
  let ephPub ← b64Fixed cr 32 (← kvGet kv "e")
  let wrapNonce ← parseWrapNonce cr kv
  let wrapCt ← parseWrapCt cr kv
  let nonce ← b64Fixed cr 16 (← kvGet kv "n")
  let sig ← b64Fixed cr 64 (← kvGet kv "s")
  .ok { channel, pubkey, ephPub, wrapNonce, wrapCt, nonce, sig }

/-- The protocol version of a message must be ours. -/
def checkVersion (kv : Dict Str Str) : Result Unit :=
  match kv.lookup (str "v") with
  | none => .error (.handshake (str "missing v"))
  | some s =>
    match Text.parseInt 0 255 s with
    | .error e => .error (.handshake (str "bad v: " ++ parseIntErrorText e))
    | .ok v =>
      if v = protoVersion then .ok ()
      else .error (.handshake (str "unsupported version " ++ fmtInt v))

/-- Parse a single RPE2E handshake body; `none` when it does not start with the tag. -/
def HandshakeMsg.parse (body : Str) : Result (Option HandshakeMsg) :=
  match Text.splitWhitespace body with
  | [] => .ok none
  | tag :: parts =>
    if tag ≠ ctcpTag then .ok none
    else
      match parts with
      | [] => .error (.handshake (str "missing type"))
      | kind :: rest => do
        let kv ← parseKv rest Table.empty
        checkVersion kv
        if kind = str "KEYREQ" then do return some (.req (← parseKeyreq cr kv))
        else if kind = str "KEYRSP" then do return some (.rsp (← parseKeyrsp cr kv))
        else if kind = str "REKEY" then do return some (.rekey (← parseKeyrekey cr kv))
        else .error (.handshake (str "unknown type " ++ kind))

/-! ### Round trip -/

/-- Reading distinct keys back yields a map with exactly the written fields. -/
theorem parseKv_map_kvField {fields : List (Str × Str)} {out : Dict Str Str}
    (heq : ∀ kv ∈ fields, '=' ∉ kv.1) (hnd : (fields.map Prod.fst).Nodup)
    (hout : ∀ kv ∈ fields, out.lookup kv.1 = none) :
    ∃ d, parseKv (fields.map kvField) out = .ok d ∧
      (∀ kv ∈ fields, d.lookup kv.1 = some kv.2) ∧
      ∀ k, k ∉ fields.map Prod.fst → d.lookup k = out.lookup k := by
  induction fields generalizing out with
  | nil => exact ⟨out, rfl, by simp, fun _ _ => rfl⟩
  | cons kv fields ih =>
    obtain ⟨hk, hnd⟩ := List.nodup_cons.mp hnd
    have hfresh : ∀ kv' ∈ fields, (out.insert kv.1 kv.2).lookup kv'.1 = none := by
      intro kv' hkv'
      rw [Dict.lookup_insert, if_neg]
      · exact hout kv' (List.mem_cons_of_mem kv hkv')
      · rintro he
        exact hk (he ▸ List.mem_map_of_mem hkv')
    obtain ⟨d, hd, hmem, hframe⟩ :=
      ih (fun kv' h => heq kv' (List.mem_cons_of_mem kv h)) hnd hfresh
    have hself : d.lookup kv.1 = some kv.2 := by
      rw [hframe kv.1 hk, Dict.lookup_insert, if_pos rfl]
    refine ⟨d, ?_, ?_, ?_⟩
    · rw [List.map_cons, parseKv, kvField, Text.splitOnce_append (heq kv List.mem_cons_self)]
      simpa [hout kv List.mem_cons_self] using hd
    · intro kv' hkv'
      rcases List.mem_cons.mp hkv' with rfl | hkv'
      · exact hself
      · exact hmem kv' hkv'
    · intro k hnk
      rw [List.map_cons, List.mem_cons, not_or] at hnk
      rw [hframe k hnk.2, Dict.lookup_insert, if_neg (Ne.symm hnk.1)]

variable {cr}

theorem isWord_kvField {kv : Str × Str} (hk : ∀ c ∈ kv.1, Text.isWhitespace c = false)
    (hv : ∀ c ∈ kv.2, Text.isWhitespace c = false) : Text.IsWord (kvField kv) := by
  refine ⟨by simp [kvField], fun c hc => ?_⟩
  rcases List.mem_append.mp hc with hc | hc
  · exact hk c hc
  rcases List.mem_cons.mp hc with rfl | hc
  · decide
  · exact hv c hc

theorem kvGet_of_lookup {d : Dict Str Str} {k : String} {v : Str}
    (h : d.lookup (str k) = some v) : kvGet d k = .ok v := by
  rw [kvGet, h]

theorem b64Fixed_b64UrlEncode (h : cr.Codecs) {n : Nat} (b : Bytes n) :
    b64Fixed cr n (cr.b64UrlEncode b.1) = .ok b := by
  simp [b64Fixed, b64Decode, h.b64_url_decode, bind, Except.bind]

theorem parseWrapNonce_of_lookup (h : cr.Codecs) {d : Dict Str Str} {n : Bytes 24}
    (hd : d.lookup (str "wn") = some (cr.b64UrlEncode n.1)) : parseWrapNonce cr d = .ok n := by
  simp [parseWrapNonce, kvGet_of_lookup hd, b64Decode, h.b64_url_decode, bind, Except.bind]

theorem parseWrapCt_of_lookup (h : cr.Codecs) {d : Dict Str Str} {ct : List UInt8}
    (hd : d.lookup (str "w") = some (cr.b64UrlEncode ct)) : parseWrapCt cr d = .ok ct := by
  simp [parseWrapCt, kvGet_of_lookup hd, h.b64_url_decode, bind, Except.bind]

theorem checkVersion_of_lookup {d : Dict Str Str}
    (hd : d.lookup (str "v") = some (fmtNat protoVersion)) : checkVersion d = .ok () := by
  rw [checkVersion, hd]
  decide

/-- A field that survives the text form. -/
def FieldOk (kv : Str × Str) : Prop :=
  '=' ∉ kv.1 ∧ (∀ c ∈ kv.1, Text.isWhitespace c = false) ∧
    ∀ c ∈ kv.2, Text.isWhitespace c = false

theorem fieldOk_b64Url (h : cr.Codecs) (k : Str) (b : List UInt8)
    (hk : '=' ∉ k ∧ k.all (fun c => !Text.isWhitespace c) = true) :
    FieldOk (k, cr.b64UrlEncode b) :=
  ⟨hk.1, Text.noWhitespace_of_all hk.2, fun c hc => (h.b64_url_token b c hc).1⟩

theorem fieldOk_version : FieldOk (str "v", fmtNat protoVersion) :=
  ⟨by decide, Text.noWhitespace_of_all (by decide), Text.noWhitespace_of_all (by decide)⟩

theorem fieldOk_channel {channel : Str} (hc : ∀ c ∈ channel, Text.isWhitespace c = false) :
    FieldOk (str "c", channel) := by
  have hk : '=' ∉ str "c" := by decide
  have hw : (str "c").all (fun c => !Text.isWhitespace c) = true := by decide
  exact ⟨hk, Text.noWhitespace_of_all hw, hc⟩

/-- The fields of a message are read back from its text. -/
theorem parseKv_encodeFields (kind : String) (hkind : Text.IsWord (str kind))
    {fields : List (Str × Str)} (hfields : ∀ kv ∈ fields, FieldOk kv)
    (hnd : (fields.map Prod.fst).Nodup) :
    ∃ d, Text.splitWhitespace (encodeFields kind fields) =
        ctcpTag :: str kind :: fields.map kvField ∧
      parseKv (fields.map kvField) Table.empty = .ok d ∧
      ∀ kv ∈ fields, d.lookup kv.1 = some kv.2 := by
  have hwords : ∀ w ∈ ctcpTag :: str kind :: fields.map kvField, Text.IsWord w := by
    intro w hw
    rcases List.mem_cons.mp hw with rfl | hw
    · exact Text.isWord_of_all (by decide) (by decide)
    rcases List.mem_cons.mp hw with rfl | hw
    · exact hkind
    · obtain ⟨kv, hkv, rfl⟩ := List.mem_map.mp hw
      exact isWord_kvField (hfields kv hkv).2.1 (hfields kv hkv).2.2
  obtain ⟨d, hd, hmem, -⟩ := parseKv_map_kvField (fun kv hkv => (hfields kv hkv).1) hnd
    (fun _ _ => Dict.lookup_empty _)
  exact ⟨d, Text.splitWhitespace_unwords hwords, hd, hmem⟩

theorem keyreqFields_ok (h : cr.Codecs) {req : KeyReq}
    (hc : ∀ c ∈ req.channel, Text.isWhitespace c = false) :
    (∀ kv ∈ keyreqFields cr req, FieldOk kv) ∧
      ((keyreqFields cr req).map Prod.fst).Nodup := by
  refine ⟨?_, ?_⟩
  · simp only [keyreqFields, List.forall_mem_cons]
    exact ⟨fieldOk_version, fieldOk_channel hc, fieldOk_b64Url h _ _ (by decide),
      fieldOk_b64Url h _ _ (by decide), fieldOk_b64Url h _ _ (by decide),
      fieldOk_b64Url h _ _ (by decide), by simp⟩
  · show [str "v", str "c", str "p", str "e", str "n", str "s"].Nodup
    decide

theorem wrapFields_ok (h : cr.Codecs) {channel : Str} (pubkey ephPub : Bytes 32)
    (wrapNonce : Bytes 24) (wrapCt : List UInt8) (nonce : Bytes 16) (sig : Bytes 64)
    (hc : ∀ c ∈ channel, Text.isWhitespace c = false) :
    (∀ kv ∈ wrapFields cr channel pubkey ephPub wrapNonce wrapCt nonce sig, FieldOk kv) ∧
      ((wrapFields cr channel pubkey ephPub wrapNonce wrapCt nonce sig).map Prod.fst).Nodup := by
  refine ⟨?_, ?_⟩
  · simp only [wrapFields, List.forall_mem_cons]
    exact ⟨fieldOk_version, fieldOk_channel hc, fieldOk_b64Url h _ _ (by decide),
      fieldOk_b64Url h _ _ (by decide), fieldOk_b64Url h _ _ (by decide),
      fieldOk_b64Url h _ _ (by decide), fieldOk_b64Url h _ _ (by decide),
      fieldOk_b64Url h _ _ (by decide), by simp⟩
  · show [str "v", str "c", str "p", str "e", str "wn", str "w", str "n", str "s"].Nodup
    decide

theorem parseKeyreq_of_lookup (h : cr.Codecs) {req : KeyReq} {d : Dict Str Str}
    (hd : ∀ kv ∈ keyreqFields cr req, d.lookup kv.1 = some kv.2) :
    parseKeyreq cr d = .ok req := by
  simp only [keyreqFields, List.forall_mem_cons] at hd
  obtain ⟨-, hc, hp, he, hn, hs, -⟩ := hd
  simp only [parseKeyreq, kvGet_of_lookup hc, kvGet_of_lookup hp, kvGet_of_lookup he,
    kvGet_of_lookup hn, kvGet_of_lookup hs, b64Fixed_b64UrlEncode h, bind, Except.bind]

theorem parseKeyrsp_of_lookup (h : cr.Codecs) {rsp : KeyRsp} {d : Dict Str Str}
    (hd : ∀ kv ∈ wrapFields cr rsp.channel rsp.pubkey rsp.ephemeralPub rsp.wrapNonce rsp.wrapCt
      rsp.nonce rsp.sig, d.lookup kv.1 = some kv.2) : parseKeyrsp cr d = .ok rsp := by
  simp only [wrapFields, List.forall_mem_cons] at hd
  obtain ⟨-, hc, hp, he, hwn, hw, hn, hs, -⟩ := hd
  simp only [parseKeyrsp, kvGet_of_lookup hc, kvGet_of_lookup hp, kvGet_of_lookup he,
    parseWrapNonce_of_lookup h hwn, parseWrapCt_of_lookup h hw, kvGet_of_lookup hn,
    kvGet_of_lookup hs, b64Fixed_b64UrlEncode h, bind, Except.bind]

theorem parseKeyrekey_of_lookup (h : cr.Codecs) {rk : KeyRekey} {d : Dict Str Str}
    (hd : ∀ kv ∈ wrapFields cr rk.channel rk.pubkey rk.ephPub rk.wrapNonce rk.wrapCt
      rk.nonce rk.sig, d.lookup kv.1 = some kv.2) : parseKeyrekey cr d = .ok rk := by
  simp only [wrapFields, List.forall_mem_cons] at hd
  obtain ⟨-, hc, hp, he, hwn, hw, hn, hs, -⟩ := hd
  simp only [parseKeyrekey, kvGet_of_lookup hc, kvGet_of_lookup hp, kvGet_of_lookup he,
    parseWrapNonce_of_lookup h hwn, parseWrapCt_of_lookup h hw, kvGet_of_lookup hn,
    kvGet_of_lookup hs, b64Fixed_b64UrlEncode h, bind, Except.bind]

def HandshakeMsg.channel : HandshakeMsg → Str
  | .req r => r.channel
  | .rsp r => r.channel
  | .rekey r => r.channel

/-- Parsing inverts encoding. -/
theorem HandshakeMsg.parse_encode (h : cr.Codecs) (m : HandshakeMsg)
    (hc : ∀ c ∈ m.channel, Text.isWhitespace c = false) :
    HandshakeMsg.parse cr (m.encode cr) = .ok (some m) := by
  cases m with
  | req r =>
    obtain ⟨d, hw, hkv, hd⟩ := parseKv_encodeFields "KEYREQ"
      (Text.isWord_of_all (by decide) (by decide))
      (keyreqFields_ok h hc).1 (keyreqFields_ok h hc).2
    have hv := hd _ List.mem_cons_self
    rw [HandshakeMsg.encode, encodeKeyreq, HandshakeMsg.parse, hw]
    simp only [ne_eq, not_true_eq_false, if_false, if_true, hkv, checkVersion_of_lookup hv,
      parseKeyreq_of_lookup h hd, bind, Except.bind, pure, Except.pure]
  | rsp r =>
    have hc : ∀ c ∈ r.channel, Text.isWhitespace c = false := hc
    have hok := wrapFields_ok h r.pubkey r.ephemeralPub r.wrapNonce r.wrapCt r.nonce r.sig hc
    obtain ⟨d, hw, hkv, hd⟩ := parseKv_encodeFields "KEYRSP"
      (Text.isWord_of_all (by decide) (by decide)) hok.1 hok.2
    have hv := hd _ List.mem_cons_self
    have hk : str "KEYRSP" ≠ str "KEYREQ" := by decide
    rw [HandshakeMsg.encode, encodeKeyrsp, HandshakeMsg.parse, hw]
    simp only [ne_eq, not_true_eq_false, if_false, if_true, hkv, checkVersion_of_lookup hv,
      parseKeyrsp_of_lookup h hd, bind, Except.bind, pure, Except.pure, hk]
  | rekey r =>
    have hc : ∀ c ∈ r.channel, Text.isWhitespace c = false := hc
    have hok := wrapFields_ok h r.pubkey r.ephPub r.wrapNonce r.wrapCt r.nonce r.sig hc
    obtain ⟨d, hw, hkv, hd⟩ := parseKv_encodeFields "REKEY"
      (Text.isWord_of_all (by decide) (by decide)) hok.1 hok.2
    have hv := hd _ List.mem_cons_self
    have hk : str "REKEY" ≠ str "KEYREQ" := by decide
    have hk' : str "REKEY" ≠ str "KEYRSP" := by decide
    rw [HandshakeMsg.encode, encodeKeyrekey, HandshakeMsg.parse, hw]
    simp only [ne_eq, not_true_eq_false, if_false, if_true, hkv, checkVersion_of_lookup hv,
      parseKeyrekey_of_lookup h hd, bind, Except.bind, pure, Except.pure, hk, hk']

variable (cr)

/-! ### Rate limiter -/

/-- Nanoseconds of a second. -/
def second : Nat := 1000000000

/-- Minimum gap between outgoing KEYREQ to the same peer. -/
def rateLimitWindow : Nat := 30 * second

/-- Sliding-window length for the incoming limiter. -/
def incomingWindow : Nat := 60 * second

/-- Maximum incoming KEYREQs per peer within the window. -/
def incomingMaxPerWindow : Nat := 3

/-- Backoff applied after a peer exceeds the incoming window. -/
def incomingBackoff : Nat := 300 * second

/-- Recent arrivals of a peer, oldest first, and the end of its backoff. -/
structure IncomingBucket where
  recent : List Nat
  backoffUntil : Option Nat
  deriving DecidableEq

structure RateLimiter where
  lastSent : Dict Str Nat
  incoming : Dict Str IncomingBucket
  deriving DecidableEq

namespace RateLimiter

def new : RateLimiter := ⟨Table.empty, Table.empty⟩

/-- Whether sending to a peer is allowed right now; records the attempt. -/
def allowOutgoing (now : Nat) (rl : RateLimiter) (peer : Str) : Bool × RateLimiter :=
  let tooSoon := match rl.lastSent.lookup peer with
    | some ts => decide (now - ts < rateLimitWindow)
    | none => false
  if tooSoon then (false, rl) else (true, { rl with lastSent := rl.lastSent.insert peer now })

/-- Evict the arrivals that are older than the window and admit `now` if there is room. -/
def admitArrival (now : Nat) (recent : List Nat) : Bool × IncomingBucket :=
  let recent := recent.dropWhile (fun t => now - t > incomingWindow)
  if recent.length ≥ incomingMaxPerWindow then (false, ⟨recent, some (now + incomingBackoff)⟩)
  else (true, ⟨recent ++ [now], none⟩)

/-- One arrival in a bucket. -/
def IncomingBucket.arrive (now : Nat) (b : IncomingBucket) : Bool × IncomingBucket :=
  match b.backoffUntil with
  | some until_ => if now < until_ then (false, b) else admitArrival now []
  | none => admitArrival now b.recent

/-- Whether to respond to an incoming KEYREQ from a peer. -/
def allowIncoming (now : Nat) (rl : RateLimiter) (peer : Str) : Bool × RateLimiter :=
  let bucket := (rl.incoming.lookup peer).getD ⟨[], none⟩
  let r := IncomingBucket.arrive now bucket
  (r.1, { rl with incoming := rl.incoming.insert peer r.2 })

end RateLimiter

end Repartee
