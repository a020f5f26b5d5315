import Repartee.Lib.Exec
import Repartee.E2e.Sample

/-!
# What the handshake parser accepts

`handshake.rs`, `parse`: a body is read word by word, each word split at its first `=`, into a
map without duplicates from which the fields of the message are taken. `WellFormed` says which
bodies pass, in terms of the fields alone; everything that `parse` returns comes from such a
body, so a repeated key, a missing key or a field of the wrong length is an error.

## Main results

- `wellFormed_of_parse`: a parsed body has distinct keys, all that its kind requires, and
  fields of the right lengths
- `HandshakeMsg.codec_exact`: encoded messages are read back, ill-formed bodies are refused
-/

set_option autoImplicit false

namespace Repartee

open Exec

variable (cr : Crates)

/-! ### Well-formed bodies -/

/-- The `k=v` fields among the words after the kind; a word without `=` is not a field. -/
def fieldsOf (words : List Str) : List (Str × Str) := words.filterMap (Text.splitOnce '=')

def keysOf (words : List Str) : List Str := (fieldsOf words).map Prod.fst

/-- The keys a message of some kind must have. -/
def requiredKeys (kind : Str) : List String :=
  if kind = str "KEYREQ" then ["v", "c", "p", "e", "n", "s"]
  else ["v", "c", "p", "e", "wn", "w", "n", "s"]

/-- The decoded lengths of the fields that have a fixed one. -/
def fixedLengths (kind : Str) : List (String × Nat) :=
  if kind = str "KEYREQ" then [("p", 32), ("e", 32), ("n", 16), ("s", 64)]
  else [("p", 32), ("e", 32), ("wn", 24), ("n", 16), ("s", 64)]

/-- A key stands in two words of a body. -/
def RepeatsKey (words : List Str) : Prop := ¬ (keysOf words).Nodup

/-- A key that the kind requires stands in no word. -/
def LacksKey (kind : Str) (words : List Str) : Prop :=
  ∃ k ∈ requiredKeys kind, str k ∉ keysOf words

/-- A field of the kind decodes to a wrong number of bytes. -/
def HasWrongLength (kind : Str) (words : List Str) : Prop :=
  ∃ kn ∈ fixedLengths kind, ∃ v raw, (str kn.1, v) ∈ fieldsOf words ∧
    cr.b64UrlDecode v = .ok raw ∧ raw.length ≠ kn.2

structure WellFormed (kind : Str) (words : List Str) : Prop where
  distinct : (keysOf words).Nodup
  complete : ∀ k ∈ requiredKeys kind, str k ∈ keysOf words
  sized : ∀ kn ∈ fixedLengths kind, ∀ v raw, (str kn.1, v) ∈ fieldsOf words →
    cr.b64UrlDecode v = .ok raw → raw.length = kn.2

variable {cr}

theorem not_wellFormed {kind : Str} {words : List Str}
    (h : RepeatsKey words ∨ LacksKey kind words ∨ HasWrongLength cr kind words) :
    ¬ WellFormed cr kind words := by
  intro hw
  rcases h with h | ⟨k, hk, hlack⟩ | ⟨kn, hkn, v, raw, hv, hraw, hlen⟩
  · exact h hw.distinct
  · exact hlack (hw.complete k hk)
  · exact hlen (hw.sized kn hkn v raw hv hraw)

/-! ### The map of a body -/

theorem fieldsOf_cons_none {w : Str} {words : List Str} (h : Text.splitOnce '=' w = none) :
    fieldsOf (w :: words) = fieldsOf words := by
  rw [fieldsOf, List.filterMap_cons_none h, fieldsOf]

theorem fieldsOf_cons_some {w : Str} {words : List Str} {kv : Str × Str}
    (h : Text.splitOnce '=' w = some kv) : fieldsOf (w :: words) = kv :: fieldsOf words := by
  rw [fieldsOf, List.filterMap_cons_some h, fieldsOf]

/-- The map that was built holds exactly the fields, which have distinct keys, over the map
that was there before. -/
theorem parseKv_ok {words : List Str} {out d : Dict Str Str} (h : parseKv words out = .ok d) :
    (keysOf words).Nodup ∧
      (∀ kv ∈ fieldsOf words, d.lookup kv.1 = some kv.2 ∧ out.lookup kv.1 = none) ∧
      ∀ k, k ∉ keysOf words → d.lookup k = out.lookup k := by
  induction words generalizing out with
  | nil =>
    rw [parseKv, Except.ok.injEq] at h
    subst h
    exact ⟨List.nodup_nil, by simp [fieldsOf], fun _ _ => rfl⟩
  | cons w words ih =>
    rw [parseKv] at h
    cases hw : Text.splitOnce '=' w with
    | none =>
      rw [hw] at h
      rw [keysOf, fieldsOf_cons_none hw]
      exact ih h
    | some kv =>
      obtain ⟨k, v⟩ := kv
      simp only [hw] at h
      -- a key that is in the map already ends the parse
      cases hout : out.lookup k with
      | some x => simp [hout] at h
      | none =>
        simp only [hout, Option.isSome_none, Bool.false_eq_true, if_false] at h
        obtain ⟨hnd, hmem, hframe⟩ := ih h
        have hk : k ∉ keysOf words := by
          intro hk
          obtain ⟨kv, hkv, rfl⟩ := List.mem_map.mp hk
          have hnone := (hmem kv hkv).2
          simp [Dict.lookup_insert] at hnone
        rw [keysOf, fieldsOf_cons_some hw, List.map_cons, List.nodup_cons]
        refine ⟨⟨hk, hnd⟩, ?_, ?_⟩
        · intro kv hkv
          rcases List.mem_cons.mp hkv with rfl | hkv
          · exact ⟨by rw [hframe k hk, Dict.lookup_insert, if_pos rfl], hout⟩
          · have hne : k ≠ kv.1 := fun he => hk (he ▸ List.mem_map_of_mem hkv)
            have hfield := hmem kv hkv
            rw [Dict.lookup_insert, if_neg hne] at hfield
            exact hfield
        · intro k' hk'
          rw [List.mem_cons, not_or] at hk'
          rw [hframe k' hk'.2, Dict.lookup_insert, if_neg (Ne.symm hk'.1)]

/-- What the map has for a key is a field of the body. -/
theorem mem_fieldsOf_iff {words : List Str} {d : Dict Str Str}
    (h : parseKv words Table.empty = .ok d) {k v : Str} :
    (k, v) ∈ fieldsOf words ↔ d.lookup k = some v := by
  obtain ⟨-, hmem, hframe⟩ := parseKv_ok h
  constructor
  · intro hkv
    exact (hmem (k, v) hkv).1
  · intro hk
    have hin : k ∈ keysOf words := by
      by_contra hnot
      rw [hframe k hnot, Dict.lookup_empty] at hk
      cases hk
    obtain ⟨kv, hkv, rfl⟩ := List.mem_map.mp hin
    have hv := (hmem kv hkv).1.symm.trans hk
    rw [Option.some.injEq] at hv
    rw [← hv]
    exact hkv

/-! ### What is read from the map -/

theorem lookup_of_kvGet {d : Dict Str Str} {k : String} {v : Str} (h : kvGet d k = .ok v) :
    d.lookup (str k) = some v := by
  unfold kvGet at h
  split at h
  · rename_i x hx
    rw [hx, Except.ok.inj h]
  · cases h

/-- A key of a map, with a value of a fixed decoded length. -/
def FieldOfLength (cr : Crates) (d : Dict Str Str) (k : String) (n : Nat) : Prop :=
  ∃ v raw, d.lookup (str k) = some v ∧ cr.b64UrlDecode v = .ok raw ∧ raw.length = n

theorem decoded_of_b64Decode {s : Str} {raw : List UInt8} (h : b64Decode cr s = .ok raw) :
    cr.b64UrlDecode s = .ok raw := by
  unfold b64Decode at h
  split at h
  · rename_i b hb
    rw [hb, Except.ok.inj h]
  · cases h

theorem length_of_ofList? {n : Nat} {raw : List UInt8} {b : Bytes n}
    (h : Bytes.ofList? n raw = some b) : raw.length = n := by
  unfold Bytes.ofList? at h
  split at h
  · assumption
  · cases h

/-- Where a field is read and decoded, it has the length that it is decoded to. -/
theorem fieldOfLength_of_bind {α : Type} {d : Dict Str Str} {k : String} {n : Nat}
    {f : Bytes n → Except E2eError α} {r : α}
    (h : (kvGet d k >>= fun v => b64Fixed cr n v >>= f) = .ok r) :
    FieldOfLength cr d k n ∧ ∃ b, f b = .ok r := by
  obtain ⟨v, hv, h⟩ := except_bind_ok h
  obtain ⟨b, hdec, h⟩ := except_bind_ok h
  refine ⟨?_, b, h⟩
  obtain ⟨raw, hraw, hb⟩ := except_bind_ok hdec
  refine ⟨v, raw, lookup_of_kvGet hv, decoded_of_b64Decode hraw, ?_⟩
  split at hb
  · rename_i hlen
    exact length_of_ofList? hlen
  · cases hb

theorem fieldOfLength_of_parseWrapNonce {d : Dict Str Str} {b : Bytes 24}
    (h : parseWrapNonce cr d = .ok b) : FieldOfLength cr d "wn" 24 := by
  obtain ⟨v, hv, h⟩ := except_bind_ok h
  obtain ⟨raw, hraw, hb⟩ := except_bind_ok h
  refine ⟨v, raw, lookup_of_kvGet hv, decoded_of_b64Decode hraw, ?_⟩
  split at hb
  · rename_i hlen
    exact length_of_ofList? hlen
  · cases hb

theorem isSome_of_parseWrapCt {d : Dict Str Str} {ct : List UInt8}
    (h : parseWrapCt cr d = .ok ct) : (d.lookup (str "w")).isSome := by
  obtain ⟨v, hv, -⟩ := except_bind_ok h
  rw [lookup_of_kvGet hv]
  rfl

/-! ### What a parsed body has -/

/-- The map holds what a message of its kind is made of. -/
structure Readable (cr : Crates) (kind : Str) (d : Dict Str Str) : Prop where
  present : ∀ k ∈ requiredKeys kind, (d.lookup (str k)).isSome
  sized : ∀ kn ∈ fixedLengths kind, FieldOfLength cr d kn.1 kn.2

theorem FieldOfLength.isSome {d : Dict Str Str} {k : String} {n : Nat}
    (h : FieldOfLength cr d k n) : (d.lookup (str k)).isSome := by
  obtain ⟨v, raw, hv, -, -⟩ := h
  rw [hv]
  rfl

theorem isSome_of_checkVersion {d : Dict Str Str} {u : Unit} (h : checkVersion d = .ok u) :
    (d.lookup (str "v")).isSome := by
  unfold checkVersion at h
  split at h
  · cases h
  · rename_i s hs
    rw [hs]
    rfl

theorem isSome_of_kvGet {d : Dict Str Str} {k : String} {v : Str} (h : kvGet d k = .ok v) :
    (d.lookup (str k)).isSome := by
  rw [lookup_of_kvGet h]
  rfl

theorem readable_of_parseKeyreq {d : Dict Str Str} {req : KeyReq}
    (hv : (d.lookup (str "v")).isSome) (h : parseKeyreq cr d = .ok req) :
    Readable cr (str "KEYREQ") d := by
  obtain ⟨c, hc, h⟩ := except_bind_ok h
  obtain ⟨hp, pubkey, h⟩ := fieldOfLength_of_bind h
  obtain ⟨he, eph, h⟩ := fieldOfLength_of_bind h
  obtain ⟨hn, nonce, h⟩ := fieldOfLength_of_bind h
  obtain ⟨hs, sig, -⟩ := fieldOfLength_of_bind h
  constructor
  · simp only [requiredKeys, if_true, List.forall_mem_cons]
    exact ⟨hv, isSome_of_kvGet hc, hp.isSome, he.isSome, hn.isSome, hs.isSome, by simp⟩
  · simp only [fixedLengths, if_true, List.forall_mem_cons]
    exact ⟨hp, he, hn, hs, by simp⟩

/-- KEYRSP and REKEY read the same fields. -/
theorem readable_of_wrapFields {d : Dict Str Str} {kind : Str} (hkind : kind ≠ str "KEYREQ")
    (hv : (d.lookup (str "v")).isSome) {c : Str} (hc : kvGet d "c" = .ok c)
    (hp : FieldOfLength cr d "p" 32) (he : FieldOfLength cr d "e" 32)
    (hwn : FieldOfLength cr d "wn" 24) (hw : (d.lookup (str "w")).isSome)
    (hn : FieldOfLength cr d "n" 16) (hs : FieldOfLength cr d "s" 64) :
    Readable cr kind d := by
  constructor
  · simp only [requiredKeys, if_neg hkind, List.forall_mem_cons]
    exact ⟨hv, isSome_of_kvGet hc, hp.isSome, he.isSome, hwn.isSome, hw, hn.isSome, hs.isSome,
      by simp⟩
  · simp only [fixedLengths, if_neg hkind, List.forall_mem_cons]
    exact ⟨hp, he, hwn, hn, hs, by simp⟩

theorem readable_of_parseKeyrsp {d : Dict Str Str} {rsp : KeyRsp}
    (hv : (d.lookup (str "v")).isSome) (h : parseKeyrsp cr d = .ok rsp) :
    Readable cr (str "KEYRSP") d := by
  obtain ⟨c, hc, h⟩ := except_bind_ok h
  obtain ⟨hp, pubkey, h⟩ := fieldOfLength_of_bind h
  obtain ⟨he, eph, h⟩ := fieldOfLength_of_bind h
  obtain ⟨wn, hwn, h⟩ := except_bind_ok h
  obtain ⟨ct, hw, h⟩ := except_bind_ok h
  obtain ⟨hn, nonce, h⟩ := fieldOfLength_of_bind h
  obtain ⟨hs, sig, -⟩ := fieldOfLength_of_bind h
  exact readable_of_wrapFields (by decide) hv hc hp he (fieldOfLength_of_parseWrapNonce hwn)
    (isSome_of_parseWrapCt hw) hn hs

theorem readable_of_parseKeyrekey {d : Dict Str Str} {rk : KeyRekey}
    (hv : (d.lookup (str "v")).isSome) (h : parseKeyrekey cr d = .ok rk) :
    Readable cr (str "REKEY") d := by
  obtain ⟨c, hc, h⟩ := except_bind_ok h
  obtain ⟨hp, pubkey, h⟩ := fieldOfLength_of_bind h
  obtain ⟨he, eph, h⟩ := fieldOfLength_of_bind h
  obtain ⟨wn, hwn, h⟩ := except_bind_ok h
  obtain ⟨ct, hw, h⟩ := except_bind_ok h
  obtain ⟨hn, nonce, h⟩ := fieldOfLength_of_bind h
  obtain ⟨hs, sig, -⟩ := fieldOfLength_of_bind h
  exact readable_of_wrapFields (by decide) hv hc hp he (fieldOfLength_of_parseWrapNonce hwn)
    (isSome_of_parseWrapCt hw) hn hs

/-- The fields that a map was built from are as good as the map. -/
theorem wellFormed_of_readable {kind : Str} {words : List Str} {d : Dict Str Str}
    (hd : parseKv words Table.empty = .ok d) (h : Readable cr kind d) :
    WellFormed cr kind words := by
  refine ⟨(parseKv_ok hd).1, ?_, ?_⟩
  · intro k hk
    obtain ⟨v, hv⟩ := Option.isSome_iff_exists.mp (h.present k hk)
    exact List.mem_map_of_mem ((mem_fieldsOf_iff hd).mpr hv)
  · intro kn hkn v raw hv hraw
    obtain ⟨v', raw', hv', hraw', hlen⟩ := h.sized kn hkn
    have hvv := (mem_fieldsOf_iff hd).mp hv
    rw [hv', Option.some.injEq] at hvv
    rw [hvv, hraw, Except.ok.injEq] at hraw'
    rw [hraw', hlen]

/-- Only a well-formed body behind the tag is parsed. -/
theorem wellFormed_of_parse {body : Str} {m : HandshakeMsg}
    (h : HandshakeMsg.parse cr body = .ok (some m)) :
    ∃ kind words, Text.splitWhitespace body = ctcpTag :: kind :: words ∧
      WellFormed cr kind words := by
  unfold HandshakeMsg.parse at h
  split at h
  · simp at h
  rename_i tag parts hbody
  split at h
  · simp at h
  rename_i htag
  split at h
  · simp at h
  rename_i kind words
  rw [hbody, not_not.mp htag]
  refine ⟨kind, words, rfl, ?_⟩
  obtain ⟨d, hd, h⟩ := except_bind_ok h
  obtain ⟨u, hv, h⟩ := except_bind_ok h
  apply wellFormed_of_readable hd
  have hv := isSome_of_checkVersion hv
  split at h
  · rename_i hkind
    obtain ⟨req, hreq, -⟩ := except_bind_ok h
    exact hkind ▸ readable_of_parseKeyreq hv hreq
  split at h
  · rename_i hkind
    obtain ⟨rsp, hrsp, -⟩ := except_bind_ok h
    exact hkind ▸ readable_of_parseKeyrsp hv hrsp
  split at h
  · rename_i hkind
    obtain ⟨rk, hrk, -⟩ := except_bind_ok h
    exact hkind ▸ readable_of_parseKeyrekey hv hrk
  · simp at h

/-- A body behind the tag is a message or an error. -/
theorem parse_ne_none_of_tag {body kind : Str} {words : List Str}
    (hbody : Text.splitWhitespace body = ctcpTag :: kind :: words) :
    HandshakeMsg.parse cr body ≠ .ok none := by
  intro h
  rw [HandshakeMsg.parse, hbody] at h
  simp only [ne_eq, not_true_eq_false, if_false] at h
  obtain ⟨d, -, h⟩ := except_bind_ok h
  obtain ⟨u, -, h⟩ := except_bind_ok h
  split at h
  · obtain ⟨req, -, h⟩ := except_bind_ok h
    cases h
  split at h
  · obtain ⟨rsp, -, h⟩ := except_bind_ok h
    cases h
  split at h
  · obtain ⟨rk, -, h⟩ := except_bind_ok h
    cases h
  · cases h

theorem parse_error_of_not_wellFormed {body kind : Str} {words : List Str}
    (hbody : Text.splitWhitespace body = ctcpTag :: kind :: words)
    (hbad : ¬ WellFormed cr kind words) : ∃ e, HandshakeMsg.parse cr body = .error e := by
  cases hp : HandshakeMsg.parse cr body with
  | error e => exact ⟨e, rfl⟩
  | ok o =>
    cases o with
    | none => exact absurd hp (parse_ne_none_of_tag hbody)
    | some m =>
      obtain ⟨kind', words', hbody', hw⟩ := wellFormed_of_parse hp
      rw [hbody, List.cons.injEq, List.cons.injEq] at hbody'
      obtain ⟨-, rfl, rfl⟩ := hbody'
      exact absurd hw hbad

/-- The codec is exact: a message whose channel has no whitespace is read back field by field,
and a body behind the tag with a repeated key, without a required key or with a field of the
wrong decoded length is an error, as is one without a kind. What does not start with the tag is
no handshake body and is never read as a message. -/
theorem HandshakeMsg.codec_exact (h : cr.Codecs) :
    (∀ m : HandshakeMsg, (∀ c ∈ m.channel, Text.isWhitespace c = false) →
      HandshakeMsg.parse cr (m.encode cr) = .ok (some m)) ∧
    (∀ body kind words, Text.splitWhitespace body = ctcpTag :: kind :: words →
      RepeatsKey words ∨ LacksKey kind words ∨ HasWrongLength cr kind words →
      ∃ e, HandshakeMsg.parse cr body = .error e) ∧
    (∀ body, Text.splitWhitespace body = [ctcpTag] →
      ∃ e, HandshakeMsg.parse cr body = .error e) ∧
    ∀ body, (Text.splitWhitespace body).head? ≠ some ctcpTag →
      ∀ m, HandshakeMsg.parse cr body ≠ .ok (some m) := by
  refine ⟨fun m hc => HandshakeMsg.parse_encode h m hc, ?_, ?_, ?_⟩
  · intro body kind words hbody hbad
    exact parse_error_of_not_wellFormed hbody (not_wellFormed hbad)
  · intro body hbody
    exact ⟨.handshake (str "missing type"), by simp [HandshakeMsg.parse, hbody]⟩
  · intro body hhead m hm
    obtain ⟨kind, words, hbody, -⟩ := wellFormed_of_parse hm
    rw [hbody] at hhead
    exact hhead rfl

/-- The channel `#a=v=1` looks like a field, and the wrapped key is empty. -/
theorem keyrsp_with_a_field_in_its_channel :
    let m : HandshakeMsg := .rsp
      { channel := str "#a=v=1"
        pubkey := Bytes.fill 32 1
        ephemeralPub := Bytes.fill 32 2
        wrapNonce := Bytes.fill 24 3
        wrapCt := []
        nonce := Bytes.fill 16 4
        sig := Bytes.fill 64 5 }
    HandshakeMsg.parse sample (m.encode sample) = .ok (some m) :=
  (HandshakeMsg.codec_exact sample_codecs).1 _ (Text.noWhitespace_of_all (by decide))

end Repartee
