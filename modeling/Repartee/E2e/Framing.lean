import Repartee.E2e.Sample
import Repartee.E2e.Traffic

/-!
# What seals and signatures bind

The associated data of a chunk, the payloads that the handshake signs, and the window of
timestamps in front of the session lookup.

## Main definitions

- `HandshakeMsg.payload`: the bytes that the signature of a message covers
- `HandshakeMsg.Unambiguous`: only one channel can be read off a payload
- `E2eManager.lookUp`: what is done with a chunk whose timestamp is accepted
- `checkedSkew`: the age of a chunk, where an overflow is a panic

## Main results

- `buildAad_injective`: the associated data binds its channel and header, however long
- `payload_determines_iff`: when a payload belongs to one message only
- `window_iff`: when the window measures the distance of a timestamp
-/

set_option autoImplicit false

namespace Repartee

/-! ### Associated data -/

theorem uint8_ofNat_inj {a b : Nat} (h : UInt8.ofNat a = UInt8.ofNat b) : a % 256 = b % 256 := by
  have hnat := congrArg UInt8.toNat h
  rw [UInt8.toNat_ofNat', UInt8.toNat_ofNat'] at hnat
  exact hnat

/-- The digits of a number determine it. -/
theorem beBytes_inj {k a b : Nat} (ha : a < 256 ^ k) (hb : b < 256 ^ k)
    (h : beBytes k a = beBytes k b) : a = b := by
  induction k generalizing a b with
  | zero =>
    rw [Nat.pow_zero] at ha hb
    omega
  | succ k ih =>
    rw [Nat.pow_succ] at ha hb
    rw [beBytes, beBytes] at h
    obtain ⟨hhigh, hlow⟩ := List.append_inj h (by rw [length_beBytes, length_beBytes])
    have hquot : a / 256 = b / 256 := ih (by omega) (by omega) hhigh
    have hrem : a % 256 = b % 256 := uint8_ofNat_inj (List.cons.inj hlow).1
    omega

theorem i64Be_inj {t t' : Int} (ht : i64Min ≤ t ∧ t ≤ i64Max) (ht' : i64Min ≤ t' ∧ t' ≤ i64Max)
    (h : i64Be t = i64Be t') : t = t' := by
  rw [i64Min, i64Max] at ht ht'
  have hlt : ∀ x : Int, (x % 18446744073709551616).toNat < 256 ^ 8 := by
    intro x
    have hpow : 256 ^ 8 = 18446744073709551616 := by decide
    rw [hpow]
    omega
  have hres : (t % 18446744073709551616).toNat = (t' % 18446744073709551616).toNat :=
    beBytes_inj (hlt t) (hlt t') h
  omega

/-- **The associated data is injective**: it determines the channel, the message id, the timestamp
and the numbers of the part and the total, for channels of any length. -/
theorem buildAad_injective {c c' : Str} {msgid msgid' : Bytes 8} {ts ts' : Int}
    {part part' total total' : UInt8} (hts : i64Min ≤ ts ∧ ts ≤ i64Max)
    (hts' : i64Min ≤ ts' ∧ ts' ≤ i64Max) :
    buildAad c msgid ts part total = buildAad c' msgid' ts' part' total' ↔
      c = c' ∧ msgid = msgid' ∧ ts = ts' ∧ part = part' ∧ total = total' := by
  constructor
  · intro h
    -- the header behind the channel has a fixed size, so the channels are equally long
    have hlen := congrArg List.length h
    simp only [buildAad, be16, List.length_append, List.length_cons, List.length_nil,
      length_i64Be, msgid.2, msgid'.2] at hlen
    have hc : (Utf8.encode c).length = (Utf8.encode c').length := by omega
    simp only [buildAad, hc, List.append_assoc, List.append_cancel_left_eq] at h
    obtain ⟨hchan, h⟩ := List.append_inj h hc
    obtain ⟨hmsgid, h⟩ := List.append_inj (List.append_cancel_left h) (by rw [msgid.2, msgid'.2])
    obtain ⟨htime, h⟩ := List.append_inj (List.append_cancel_left h)
      (by rw [length_i64Be, length_i64Be])
    obtain ⟨hpart, h⟩ := List.append_inj (List.append_cancel_left h) rfl
    have htotal := List.append_cancel_left h
    exact ⟨Utf8.encode_injective hchan, Subtype.ext hmsgid, i64Be_inj hts hts' htime,
      (List.cons.inj hpart).1, (List.cons.inj htotal).1⟩
  · rintro ⟨rfl, rfl, rfl, rfl, rfl⟩
    rfl

/-- A channel that goes on with a colon has associated data of its own. -/
theorem buildAad_injective_colon :
    buildAad (str "#c") (Bytes.fill 8 0) 0 1 1 ≠ buildAad (str "#c:") (Bytes.fill 8 0) 0 1 1 :=
  fun heq => absurd ((buildAad_injective (by decide) (by decide)).mp heq).1 (by decide)

/-! ### Signed payloads -/

namespace HandshakeMsg

/-- The bytes that the signature of a message covers. -/
def payload : HandshakeMsg → List UInt8
  | .req r => signedKeyreqPayload r.channel r.pubkey r.ephX25519 r.nonce
  | .rsp r =>
    signedKeyrspPayload r.channel r.pubkey r.ephemeralPub r.wrapNonce r.wrapCt r.nonce
  | .rekey r => signedKeyrekeyPayload r.channel r.pubkey r.ephPub r.wrapNonce r.wrapCt r.nonce

/-- The kind and the fields of a message, apart from the signature. -/
def unsigned : HandshakeMsg → HandshakeMsg
  | .req r => .req { r with sig := Bytes.fill 64 0 }
  | .rsp r => .rsp { r with sig := Bytes.fill 64 0 }
  | .rekey r => .rekey { r with sig := Bytes.fill 64 0 }

end HandshakeMsg

/-- The byte of `:`. -/
def colon : UInt8 := 58

/-- What a payload with a wrapped key has between its tag and its nonce. -/
def wrapBody (chan pub eph wn ct : List UInt8) : List UInt8 :=
  chan ++ colon :: (pub ++ colon :: (eph ++ colon :: (wn ++ colon :: ct)))

/-- A channel may end at an offset: there is a text in front of it, and colons stand where the
separators of a public key, an ephemeral key and a nonce belong. -/
structure Splits (body : List UInt8) (n : Nat) : Prop where
  text : ∃ c : Str, Utf8.encode c = body.take n
  channel : body[n]? = some colon
  pubkey : body[n + 33]? = some colon
  ephemeral : body[n + 66]? = some colon
  nonce : body[n + 91]? = some colon

/-- A channel may end only where it does. -/
def SplitsOnce (channel : Str) (body : List UInt8) : Prop :=
  ∀ n, Splits body n → n = Utf8.byteLen channel

/-- A message without a wrapped key has no variable part behind its channel; in any other one, the
channel may end only where it does. -/
def HandshakeMsg.Unambiguous : HandshakeMsg → Prop
  | .req _ => True
  | .rsp r => SplitsOnce r.channel
      (wrapBody (Utf8.encode r.channel) r.pubkey.1 r.ephemeralPub.1 r.wrapNonce.1 r.wrapCt)
  | .rekey r => SplitsOnce r.channel
      (wrapBody (Utf8.encode r.channel) r.pubkey.1 r.ephPub.1 r.wrapNonce.1 r.wrapCt)

theorem signedKeyreqPayload_eq (channel : Str) (pubkey eph : Bytes 32) (nonce : Bytes 16) :
    signedKeyreqPayload channel pubkey eph nonce = Utf8.encode (str "KEYREQ") ++
      colon :: (Utf8.encode channel ++ colon :: (pubkey.1 ++ colon :: (eph.1 ++
        colon :: nonce.1))) := by
  have hcolon : Utf8.encode (str ":") = [colon] := by decide
  simp [signedKeyreqPayload, sigPayload, hcolon]

theorem sigPayload_wrap (tag : String) (chan pub eph wn ct nonce : List UInt8) :
    sigPayload tag [chan, pub, eph, wn, ct, nonce] =
      Utf8.encode (str tag) ++ colon :: (wrapBody chan pub eph wn ct ++ colon :: nonce) := by
  have hcolon : Utf8.encode (str ":") = [colon] := by decide
  simp [sigPayload, wrapBody, hcolon]

section Wrap

variable {chan chan' pub pub' eph eph' wn wn' ct ct' : List UInt8}

/-- Bodies whose channels are equally long agree field by field. -/
theorem wrapBody_inj (hchan : chan.length = chan'.length) (hpub : pub.length = pub'.length)
    (heph : eph.length = eph'.length) (hwn : wn.length = wn'.length)
    (h : wrapBody chan pub eph wn ct = wrapBody chan' pub' eph' wn' ct') :
    chan = chan' ∧ pub = pub' ∧ eph = eph' ∧ wn = wn' ∧ ct = ct' := by
  obtain ⟨h₁, h⟩ := List.append_inj h hchan
  obtain ⟨h₂, h⟩ := List.append_inj (List.cons.inj h).2 hpub
  obtain ⟨h₃, h⟩ := List.append_inj (List.cons.inj h).2 heph
  obtain ⟨h₄, h⟩ := List.append_inj (List.cons.inj h).2 hwn
  exact ⟨h₁, h₂, h₃, h₄, (List.cons.inj h).2⟩

/-- A channel may end where it does. -/
theorem splits_wrapBody (c : Str) (hpub : pub.length = 32) (heph : eph.length = 32)
    (hwn : wn.length = 24) : Splits (wrapBody (Utf8.encode c) pub eph wn ct) (Utf8.byteLen c) := by
  have hlen := Utf8.length_encode c
  constructor
  · refine ⟨c, ?_⟩
    rw [wrapBody, ← hlen, List.take_left]
  all_goals
    rw [wrapBody, ← hlen]
    simp [List.getElem?_append, hpub, heph, hwn]

/-- The fields of a body, once its channel ends at an offset. -/
theorem Splits.fields {body : List UInt8} {n : Nat} (h : Splits body n) :
    ∃ (c : Str) (pub eph : Bytes 32) (wn : Bytes 24) (ct : List UInt8),
      Utf8.byteLen c = n ∧ body = wrapBody (Utf8.encode c) pub.1 eph.1 wn.1 ct := by
  obtain ⟨⟨c, hc⟩, h₀, h₁, h₂, h₃⟩ := h
  obtain ⟨hlt₀, -⟩ := List.getElem?_eq_some_iff.mp h₀
  obtain ⟨hlt₃, -⟩ := List.getElem?_eq_some_iff.mp h₃
  have hlen : Utf8.byteLen c = n := by
    rw [← Utf8.length_encode, hc, List.length_take]
    omega
  -- what is behind an offset is some bytes, a colon and the rest
  have hcut : ∀ m k, body[m + k]? = some colon →
      body.drop m = (body.drop m).take k ++ colon :: body.drop (m + k + 1) := by
    intro m k hk
    obtain ⟨hlt, hget⟩ := List.getElem?_eq_some_iff.mp hk
    have hrest : body.drop (m + k) = colon :: body.drop (m + k + 1) := by
      rw [← hget]
      exact List.drop_eq_getElem_cons hlt
    rw [← hrest, ← List.drop_drop, List.take_append_drop]
  have hcut₀ : body = body.take n ++ colon :: body.drop (n + 1) := by
    have hcut := hcut 0 n (by rw [Nat.zero_add]; exact h₀)
    rw [List.drop_zero, Nat.zero_add] at hcut
    exact hcut
  have hcut₁ : body.drop (n + 1) = (body.drop (n + 1)).take 32 ++ colon :: body.drop (n + 34) :=
    hcut (n + 1) 32 h₁
  have hcut₂ : body.drop (n + 34) = (body.drop (n + 34)).take 32 ++ colon :: body.drop (n + 67) :=
    hcut (n + 34) 32 h₂
  have hcut₃ : body.drop (n + 67) = (body.drop (n + 67)).take 24 ++ colon :: body.drop (n + 92) :=
    hcut (n + 67) 24 h₃
  refine ⟨c, ⟨(body.drop (n + 1)).take 32, ?_⟩, ⟨(body.drop (n + 34)).take 32, ?_⟩,
    ⟨(body.drop (n + 67)).take 24, ?_⟩, body.drop (n + 92), hlen, ?_⟩
  · rw [List.length_take, List.length_drop]
    omega
  · rw [List.length_take, List.length_drop]
    omega
  · rw [List.length_take, List.length_drop]
    omega
  · rw [wrapBody, hc, ← hcut₃, ← hcut₂, ← hcut₁]
    exact hcut₀

/-- A payload with a wrapped key has these fields only if its channel may end only where it
does. -/
theorem wrap_determines_iff (tag : String) (c : Str) (pub eph : Bytes 32) (wn : Bytes 24)
    (ct : List UInt8) (nonce : Bytes 16) :
    (∀ (c' : Str) (pub' eph' : Bytes 32) (wn' : Bytes 24) (ct' : List UInt8) (nonce' : Bytes 16),
      sigPayload tag [Utf8.encode c', pub'.1, eph'.1, wn'.1, ct', nonce'.1] =
        sigPayload tag [Utf8.encode c, pub.1, eph.1, wn.1, ct, nonce.1] →
      c' = c ∧ pub' = pub ∧ eph' = eph ∧ wn' = wn ∧ ct' = ct ∧ nonce' = nonce) ↔
      SplitsOnce c (wrapBody (Utf8.encode c) pub.1 eph.1 wn.1 ct) := by
  simp only [sigPayload_wrap]
  constructor
  · intro hdetermines n hn
    obtain ⟨c', pub', eph', wn', ct', rfl, hbody⟩ := hn.fields
    rw [hbody] at hdetermines
    rw [(hdetermines c' pub' eph' wn' ct' nonce rfl).1]
  · intro honce c' pub' eph' wn' ct' nonce' h
    have hrest := (List.cons.inj (List.append_cancel_left h)).2
    -- the nonces are equally long, so the bodies in front of them agree
    have htail : (colon :: nonce'.1).length = (colon :: nonce.1).length := by
      rw [List.length_cons, List.length_cons, nonce.2, nonce'.2]
    obtain ⟨hbody, hnonce⟩ := List.append_inj' hrest htail
    have hsplits : Splits (wrapBody (Utf8.encode c') pub'.1 eph'.1 wn'.1 ct') (Utf8.byteLen c') :=
      splits_wrapBody c' pub'.2 eph'.2 wn'.2
    rw [hbody] at hsplits
    have hlen : (Utf8.encode c').length = (Utf8.encode c).length := by
      rw [Utf8.length_encode, Utf8.length_encode]
      exact honce _ hsplits
    obtain ⟨hc, hpub, heph, hwn, hct⟩ := wrapBody_inj hlen (pub'.2.trans pub.2.symm)
      (eph'.2.trans eph.2.symm) (wn'.2.trans wn.2.symm) hbody
    exact ⟨Utf8.encode_injective hc, Subtype.ext hpub, Subtype.ext heph, Subtype.ext hwn, hct,
      Subtype.ext (List.cons.inj hnonce).2⟩

end Wrap

/-- A payload without a wrapped key determines its fields. -/
theorem keyreq_determines {c c' : Str} {pub pub' eph eph' : Bytes 32} {nonce nonce' : Bytes 16}
    (h : signedKeyreqPayload c' pub' eph' nonce' = signedKeyreqPayload c pub eph nonce) :
    c' = c ∧ pub' = pub ∧ eph' = eph ∧ nonce' = nonce := by
  rw [signedKeyreqPayload_eq, signedKeyreqPayload_eq] at h
  have hrest := (List.cons.inj (List.append_cancel_left h)).2
  have htail : (colon :: (pub'.1 ++ colon :: (eph'.1 ++ colon :: nonce'.1))).length =
      (colon :: (pub.1 ++ colon :: (eph.1 ++ colon :: nonce.1))).length := by
    simp [pub.2, pub'.2, eph.2, eph'.2, nonce.2, nonce'.2]
  obtain ⟨hc, h⟩ := List.append_inj' hrest htail
  obtain ⟨hpub, h⟩ := List.append_inj (List.cons.inj h).2 (pub'.2.trans pub.2.symm)
  obtain ⟨heph, h⟩ := List.append_inj (List.cons.inj h).2 (eph'.2.trans eph.2.symm)
  exact ⟨Utf8.encode_injective hc, Subtype.ext hpub, Subtype.ext heph,
    Subtype.ext (List.cons.inj h).2⟩

/-- Payloads with different tags differ. -/
theorem payload_tag_ne {tag tag' : String} {fields fields' : List (List UInt8)}
    (hhead : (Utf8.encode (str tag)).take 5 ≠ (Utf8.encode (str tag')).take 5)
    (hlong : 5 ≤ (Utf8.encode (str tag)).length) (hlong' : 5 ≤ (Utf8.encode (str tag')).length) :
    sigPayload tag fields ≠ sigPayload tag' fields' := by
  intro h
  have htake := congrArg (List.take 5) h
  rw [sigPayload, sigPayload, List.take_append_of_le_length hlong,
    List.take_append_of_le_length hlong'] at htake
  exact hhead htake

/-- **When a payload belongs to one message only**: exactly if the message is unambiguous. -/
theorem payload_determines_iff (m : HandshakeMsg) :
    (∀ m' : HandshakeMsg, m'.payload = m.payload → m'.unsigned = m.unsigned) ↔
      m.Unambiguous := by
  have hreq_rsp : ∀ {fields fields'}, sigPayload "KEYREQ" fields ≠ sigPayload "KEYRSP" fields' :=
    payload_tag_ne (by decide) (by decide) (by decide)
  have hreq_rekey : ∀ {fields fields'}, sigPayload "KEYREQ" fields ≠ sigPayload "REKEY" fields' :=
    payload_tag_ne (by decide) (by decide) (by decide)
  have hrsp_rekey : ∀ {fields fields'}, sigPayload "KEYRSP" fields ≠ sigPayload "REKEY" fields' :=
    payload_tag_ne (by decide) (by decide) (by decide)
  cases m with
  | req r =>
    refine iff_of_true ?_ trivial
    intro m' h
    cases m' with
    | req r' =>
      obtain ⟨hc, hp, he, hn⟩ := keyreq_determines h
      simp only [HandshakeMsg.unsigned, hc, hp, he, hn]
    | rsp r' => exact absurd h.symm hreq_rsp
    | rekey r' => exact absurd h.symm hreq_rekey
  | rsp r =>
    rw [HandshakeMsg.Unambiguous, ← wrap_determines_iff "KEYRSP" r.channel r.pubkey r.ephemeralPub
      r.wrapNonce r.wrapCt r.nonce]
    constructor
    · intro h c' pub' eph' wn' ct' nonce' hpayload
      have hsame := h (.rsp ⟨c', pub', eph', wn', ct', nonce', r.sig⟩) hpayload
      simpa only [HandshakeMsg.unsigned, HandshakeMsg.rsp.injEq, KeyRsp.mk.injEq, and_true]
        using hsame
    · intro h m' hpayload
      cases m' with
      | req r' => exact absurd hpayload hreq_rsp
      | rsp r' =>
        obtain ⟨hc, hp, he, hw, hct, hn⟩ := h _ _ _ _ _ _ hpayload
        simp only [HandshakeMsg.unsigned, hc, hp, he, hw, hct, hn]
      | rekey r' => exact absurd hpayload.symm hrsp_rekey
  | rekey r =>
    rw [HandshakeMsg.Unambiguous, ← wrap_determines_iff "REKEY" r.channel r.pubkey r.ephPub
      r.wrapNonce r.wrapCt r.nonce]
    constructor
    · intro h c' pub' eph' wn' ct' nonce' hpayload
      have hsame := h (.rekey ⟨c', pub', eph', wn', ct', nonce', r.sig⟩) hpayload
      simpa only [HandshakeMsg.unsigned, HandshakeMsg.rekey.injEq, KeyRekey.mk.injEq, and_true]
        using hsame
    · intro h m' hpayload
      cases m' with
      | req r' => exact absurd hpayload hreq_rekey
      | rsp r' => exact absurd hpayload hrsp_rekey
      | rekey r' =>
        obtain ⟨hc, hp, he, hw, hct, hn⟩ := h _ _ _ _ _ _ hpayload
        simp only [HandshakeMsg.unsigned, hc, hp, he, hw, hct, hn]

/-- A response whose ciphertext has colons where the separators would stand if its channel went on
with its public key. -/
def foldedRsp : KeyRsp where
  channel := str "#c"
  pubkey := Bytes.fill 32 97
  ephemeralPub := Bytes.fill 32 98
  wrapNonce := Bytes.fill 24 119
  wrapCt := List.replicate 7 120 ++ colon :: (List.replicate 24 121 ++ colon :: List.replicate 15 122)
  nonce := Bytes.fill 16 0
  sig := Bytes.fill 64 0

/-- The response that is read if the channel goes on. -/
def unfoldedRsp : KeyRsp where
  channel := str "#c:" ++ List.replicate 32 'a'
  pubkey := Bytes.fill 32 98
  ephemeralPub := ⟨List.replicate 24 119 ++ colon :: List.replicate 7 120, by decide⟩
  wrapNonce := Bytes.fill 24 121
  wrapCt := List.replicate 15 122
  nonce := Bytes.fill 16 0
  sig := Bytes.fill 64 0

/-- One signature covers two responses for different channels. -/
theorem payload_is_ambiguous :
    (HandshakeMsg.rsp foldedRsp).payload = (HandshakeMsg.rsp unfoldedRsp).payload ∧
      (HandshakeMsg.rsp foldedRsp).unsigned ≠ (HandshakeMsg.rsp unfoldedRsp).unsigned := by
  constructor
  · decide +kernel
  · simp only [HandshakeMsg.unsigned, ne_eq, HandshakeMsg.rsp.injEq, KeyRsp.mk.injEq]
    intro hsame
    exact absurd hsame.1 (by decide)

/-! ### The window of timestamps -/

/-- `(now - ts).abs()` where an overflow is a panic. -/
def checkedSkew (now ts : Int) : Option Int :=
  if i64Min < now - ts ∧ now - ts ≤ i64Max then some (now - ts).natAbs else none

namespace E2eManager

variable (cr : Crates) (e : Env)

/-- What `decrypt_incoming` does with a chunk whose timestamp it accepts. -/
def lookUp (m : E2eManager) (senderHandle channel : Str) (wire : WireChunk) :
    Result DecryptOutcome := do
  match ← m.keyring.getIncomingSession e senderHandle channel with
  | none => return .missingKey senderHandle channel
  | some sess =>
    if sess.status ≠ .trusted then
      return .rejected (str "peer not trusted (status=" ++ sess.status.debug ++ str ")")
    let aad := buildAad channel wire.msgid wire.ts wire.part wire.total
    match Aead.decrypt cr sess.sk wire.nonce aad wire.ciphertext with
    | .ok pt =>
      match Utf8.decode pt with
      | some s => return .plaintext s
      | none => return .rejected (str "utf8: " ++ cr.utf8Error pt)
    | .error err => return .rejected (str "aead failed: " ++ err.display)

/-- The text of a rejected timestamp. -/
def outsideText (skew : Int) : Str :=
  str "ts outside tolerance window (" ++ fmtInt skew ++ str "s skew)"

variable {cr e} {m : E2eManager} {senderHandle channel wireLine : Str} {wire : WireChunk}

theorem decryptIncoming_of_parse (hparse : WireChunk.parse cr wireLine = .ok (some wire)) :
    decryptIncoming cr e m senderHandle channel wireLine =
      if skew e.now wire.ts > m.tsToleranceSecs then
        .ok (.rejected (outsideText (skew e.now wire.ts)))
      else lookUp cr e m senderHandle channel wire := by
  unfold decryptIncoming outsideText
  simp only [hparse, bind, Except.bind, pure, Except.pure]
  by_cases houtside : skew e.now wire.ts > m.tsToleranceSecs
  · rw [if_pos houtside, if_pos houtside]
  · rw [if_neg houtside, if_neg houtside]
    rfl

/-- A rejected timestamp is not mistaken for the outcome of a lookup. -/
theorem lookUp_ne_outside (x : Int) :
    lookUp cr e m senderHandle channel wire ≠ .ok (.rejected (outsideText x)) := by
  have hhead : ∀ t rest : Str, ∀ c : Char, c ≠ 't' →
      (Except.ok (.rejected (c :: t ++ rest)) : Result DecryptOutcome) ≠
        .ok (.rejected (outsideText x)) := by
    intro t rest c hc h
    have htext := DecryptOutcome.rejected.inj (Except.ok.inj h)
    exact hc (List.cons.inj htext).1
  unfold lookUp
  simp only [bind, Except.bind, pure, Except.pure]
  cases m.keyring.getIncomingSession e senderHandle channel with
  | error err => exact nofun
  | ok found =>
    cases found with
    | none => exact nofun
    | some sess =>
      dsimp only
      by_cases htrusted : sess.status ≠ TrustStatus.trusted
      · rw [if_pos htrusted]
        exact hhead _ _ 'p' (by decide)
      · rw [if_neg htrusted]
        cases Aead.decrypt cr sess.sk wire.nonce
            (buildAad channel wire.msgid wire.ts wire.part wire.total) wire.ciphertext with
        | error err => exact hhead (str "ead failed: ") _ 'a' (by decide)
        | ok pt =>
          cases hpt : Utf8.decode pt with
          | none =>
            simp only [hpt]
            exact hhead _ _ 'u' (by decide)
          | some s =>
            simp only [hpt]
            exact nofun

/-- A chunk is looked up exactly if its age is within the tolerance, as it is computed. -/
theorem decryptIncoming_eq_lookUp_iff (hparse : WireChunk.parse cr wireLine = .ok (some wire)) :
    decryptIncoming cr e m senderHandle channel wireLine =
      lookUp cr e m senderHandle channel wire ↔ skew e.now wire.ts ≤ m.tsToleranceSecs := by
  rw [decryptIncoming_of_parse hparse]
  by_cases houtside : skew e.now wire.ts > m.tsToleranceSecs
  · rw [if_pos houtside]
    exact iff_of_false (lookUp_ne_outside _).symm (Int.not_le.mpr houtside)
  · rw [if_neg houtside]
    exact iff_of_true rfl (Int.not_lt.mp houtside)

variable (cr e m senderHandle channel wireLine wire) in
/-- The window measures the distance of a timestamp: it is computed without an overflow, and the
session is looked up only if the timestamp is within the tolerance. -/
structure WindowSound : Prop where
  computed : checkedSkew e.now wire.ts ≠ none
  within : decryptIncoming cr e m senderHandle channel wireLine =
    lookUp cr e m senderHandle channel wire → (e.now - wire.ts).natAbs ≤ m.tsToleranceSecs

theorem skew_of_noOverflow {now ts : Int} (h : i64Min < now - ts ∧ now - ts ≤ i64Max) :
    skew now ts = (now - ts).natAbs := by
  have hwrap : ∀ x : Int, i64Min ≤ x → x ≤ i64Max → i64Wrap x = x := by
    intro x hmin hmax
    unfold i64Min at hmin
    unfold i64Max at hmax
    rw [i64Wrap]
    apply Int.bmod_eq_of_le <;> omega
  obtain ⟨hmin, hmax⟩ := h
  rw [skew, hwrap (now - ts) (Int.le_of_lt hmin) hmax]
  unfold i64Min at hmin
  unfold i64Max at hmax
  apply hwrap
  · unfold i64Min
    omega
  · unfold i64Max
    omega

end E2eManager

namespace WireChunk

variable {cr : Crates}

/-- A timestamp is an `i64`. -/
theorem ts_of_parse {line : Str} {wire : WireChunk} (h : parse cr line = .ok (some wire)) :
    i64Min ≤ wire.ts ∧ wire.ts ≤ i64Max := by
  unfold parse at h
  split at h
  · cases h
  split at h
  all_goals try cases h
  obtain ⟨msgid, -, h⟩ := except_bind_eq_ok_iff.mp h
  obtain ⟨ts, hts, h⟩ := except_bind_eq_ok_iff.mp h
  obtain ⟨⟨part, total⟩, -, h⟩ := except_bind_eq_ok_iff.mp h
  obtain ⟨⟨nonce, ciphertext⟩, -, h⟩ := except_bind_eq_ok_iff.mp h
  cases h
  unfold parseTs at hts
  split at hts
  · cases hts
    exact Text.parseInt_range (by decide) (by decide) ‹_›
  · cases hts

end WireChunk

namespace E2eManager

variable {cr : Crates} {e : Env} {m : E2eManager} {senderHandle channel wireLine : Str}
  {wire : WireChunk}

/-- **When the window measures the distance**: exactly if the timestamp is not so far in the past
that the difference overflows. -/
theorem window_iff (hparse : WireChunk.parse cr wireLine = .ok (some wire))
    (hnow : 0 ≤ e.now ∧ e.now ≤ i64Max) :
    WindowSound cr e m senderHandle channel wireLine wire ↔ e.now - wire.ts ≤ i64Max := by
  obtain ⟨hmin, hmax⟩ := WireChunk.ts_of_parse hparse
  have hlow : i64Min < e.now - wire.ts := by
    unfold i64Max at hmax
    unfold i64Min
    omega
  constructor
  · intro hsound
    by_contra hover
    apply hsound.computed
    rw [checkedSkew, if_neg (fun h => hover h.2)]
  · intro hhigh
    constructor
    · rw [checkedSkew, if_pos ⟨hlow, hhigh⟩]
      exact Option.some_ne_none _
    · intro hlooked
      rw [decryptIncoming_eq_lookUp_iff hparse, skew_of_noOverflow ⟨hlow, hhigh⟩] at hlooked
      exact hlooked

/-- A chunk with a timestamp. -/
def datedLine (ts : String) : Str :=
  str "+RPE2E01 AAAAAAAAAAAAAAAA " ++ str ts ++ str " 1/1 " ++ List.replicate 48 'A' ++ str ":"

def datedChunk (ts : Int) : WireChunk := ⟨Bytes.fill 8 0, ts, 1, 1, Bytes.fill 24 0, []⟩

/-- A manager without keys. -/
def keyless : E2eManager := init (Bytes.fill 32 0) Keyring.empty defaultTsToleranceSecs

/-- A recent timestamp is measured. -/
theorem window_iff_recent :
    WindowSound sample (sampleEnv 1700000000 0) keyless (str "~bob@b.host") (str "#c")
      (datedLine "1699999990") (datedChunk 1699999990) :=
  (window_iff (by decide +kernel) (by decide)).mpr (by decide)

/-- A timestamp from the beginning of time is looked up, far outside the tolerance. -/
theorem window_lets_overflow_through :
    WireChunk.parse sample (datedLine "-9223372035154775808") =
        .ok (some (datedChunk (-9223372035154775808))) ∧
      decryptIncoming sample (sampleEnv 1700000000 0) keyless (str "~bob@b.host") (str "#c")
        (datedLine "-9223372035154775808") = .ok (.missingKey (str "~bob@b.host") (str "#c")) ∧
      ¬ WindowSound sample (sampleEnv 1700000000 0) keyless (str "~bob@b.host") (str "#c")
        (datedLine "-9223372035154775808") (datedChunk (-9223372035154775808)) := by
  refine ⟨by decide +kernel, by decide +kernel, ?_⟩
  intro hsound
  exact absurd hsound.computed (by decide)

end E2eManager

end Repartee
