import Repartee.E2e.Encryption
import Repartee.E2e.Sample

/-!
# The round trip of a message

What `encrypt_outgoing` makes of a text, a receiver with the key turns back into the text. The
chunks are independent: they can be decrypted in any order, each to a text of its own.

## Main definitions

- `CanRead`: a receiver has a trusted session with the key, and its clock is close enough
- `CarriesMessage`: lines that such a receiver reads as a text

## Main results

- `encryptOutgoing_round_trip`: the lines of a text carry it; other texts yield no line
-/

set_option autoImplicit false

namespace Repartee

/-- Sealing does not fail, and what is sealed opens. -/
structure Crates.InverseAead (cr : Crates) : Prop where
  encrypt_ok : ∀ k n a m, ∃ c, cr.xchachaEncrypt k n a m = .ok c
  decrypt_encrypt : ∀ {k n a m c}, cr.xchachaEncrypt k n a m = .ok c →
    cr.xchachaDecrypt k n a c = .ok m

theorem Crates.Honest.inverseAead {cr : Crates} (h : cr.Honest) : cr.InverseAead :=
  ⟨h.encrypt_ok, h.decrypt_encrypt⟩

namespace E2eManager

open Exec

variable {cr : Crates} {e : Env}

/-! ### The receiver -/

/-- A client with the key `sk` of a sender, whose clock is close enough to the time `ts`. -/
structure CanRead (e : Env) (r : E2eManager) (handle channel : Str) (sk : SessionKey)
    (ts : Int) : Prop where
  session : ∃ s, r.keyring.incoming.get? (handle, channel) = some s ∧ s.status = .trusted ∧
    s.sk = sk
  stored : e.fault .getIncomingSession = none
  clock : skew e.now ts ≤ r.tsToleranceSecs

/-- Decrypt the lines of a sender as they arrive, each in its own surroundings. -/
def receive (cr : Crates) (handle channel : Str) : List (Env × Str) → M (List DecryptOutcome)
  | [] => return []
  | (e, line) :: rest => do
    let outcome ← query (fun m => decryptIncoming cr e m handle channel line)
    let outcomes ← receive cr handle channel rest
    return outcome :: outcomes

/-- The lines are chunks `1`, `2`, … of one message. -/
def Numbered (cr : Crates) (lines : List Str) : Prop :=
  ∃ msgid, ∀ i line, lines[i]? = some line → ∃ w : WireChunk,
    w.encode cr = .ok line ∧ WireChunk.parse cr line = .ok (some w) ∧ w.msgid = msgid ∧
    w.part.toNat = i + 1 ∧ w.total.toNat = lines.length

/-- In whichever order the lines of a message sent at `ts` arrive, a receiver with the key reads
the fragments of the text. -/
def ReadAs (cr : Crates) (channel : Str) (sk : SessionKey) (ts : Int) (lines fragments : List Str) :
    Prop :=
  ∀ (r : E2eManager) (handle : Str) (arrivals : List (Env × Nat)),
    (∀ a ∈ arrivals, a.2 < lines.length ∧ CanRead a.1 r handle channel sk ts) →
    (receive cr handle channel (arrivals.map (fun a => (a.1, lines.getD a.2 [])))).run r =
      .ok (arrivals.map (fun a => .plaintext (fragments.getD a.2 []))) r

/-- The lines carry a text. -/
structure CarriesMessage (cr : Crates) (channel text : Str) (sk : SessionKey) (ts : Int)
    (lines : List Str) : Prop where
  count : 1 ≤ lines.length ∧ lines.length ≤ maxChunks
  numbered : Numbered cr lines
  read : ∃ fragments : List Str, fragments.flatten = text ∧ fragments.length = lines.length ∧
    ReadAs cr channel sk ts lines fragments

/-- A sealed chunk is parsed as it was encoded. -/
theorem parse_of_isSealedChunk (hc : cr.Codecs) {sk : SessionKey} {channel : Str}
    {msgid : Bytes 8} {ts : Int} {total : UInt8} {part : Nat} {plain : List UInt8} {line : Str}
    (hmin : i64Min ≤ ts) (hmax : ts ≤ i64Max)
    (h : IsSealedChunk cr sk channel msgid ts total part plain line) :
    ∃ nonce ct,
      Aead.encrypt cr sk nonce (buildAad channel msgid ts (UInt8.ofNat part) total) plain =
        .ok ct ∧
      (chunkOf msgid ts total part nonce ct).encode cr = .ok line ∧
      WireChunk.parse cr line = .ok (some (chunkOf msgid ts total part nonce ct)) := by
  obtain ⟨nonce, ct, hct, hline⟩ := h
  exact ⟨nonce, ct, hct, hline, WireChunk.parse_encode hc hmin hmax hline⟩

/-- A chunk that opens under a trusted session is read. -/
theorem decryptIncoming_of_open {r : E2eManager} {handle channel line text : Str}
    {wire : WireChunk} {s : IncomingSession} (hparse : WireChunk.parse cr line = .ok (some wire))
    (hclock : skew e.now wire.ts ≤ r.tsToleranceSecs)
    (hget : r.keyring.getIncomingSession e handle channel = .ok (some s))
    (htrusted : s.status = .trusted)
    (hopen : Aead.decrypt cr s.sk wire.nonce
      (buildAad channel wire.msgid wire.ts wire.part wire.total) wire.ciphertext =
        .ok (Utf8.encode text)) :
    decryptIncoming cr e r handle channel line = .ok (.plaintext text) := by
  simp only [decryptIncoming, hparse, bind, Except.bind, pure, Except.pure]
  rw [if_neg (Int.not_lt.mpr hclock)]
  simp only [hget, htrusted, hopen, Utf8.decode_encode, ne_eq, not_true_eq_false, if_false]

/-- A receiver with the key reads a sealed chunk. -/
theorem decryptIncoming_of_isSealedChunk (hc : cr.Codecs) (ha : cr.InverseAead)
    {sk : SessionKey} {channel handle text : Str} {msgid : Bytes 8} {ts : Int} {total : UInt8}
    {part : Nat} {line : Str} {r : E2eManager} (hmin : i64Min ≤ ts) (hmax : ts ≤ i64Max)
    (h : IsSealedChunk cr sk channel msgid ts total part (Utf8.encode text) line)
    (hr : CanRead e r handle channel sk ts) :
    decryptIncoming cr e r handle channel line = .ok (.plaintext text) := by
  obtain ⟨nonce, ct, hct, -, hparse⟩ := parse_of_isSealedChunk hc hmin hmax h
  obtain ⟨s, hs, htrusted, rfl⟩ := hr.session
  have hget : r.keyring.getIncomingSession e handle channel = .ok (some s) :=
    Env.exec_eq_ok_iff.mpr ⟨hr.stored, hs⟩
  have hopen : Aead.decrypt cr s.sk nonce (buildAad channel msgid ts (UInt8.ofNat part) total) ct
      = .ok (Utf8.encode text) :=
    Aead.decrypt_eq_ok_iff.mpr (ha.decrypt_encrypt (Aead.encrypt_eq_ok_iff.mp hct))
  exact decryptIncoming_of_open hparse hr.clock hget htrusted hopen

/-- Receiving reads, line by line, and leaves the state as it was. -/
theorem run_receive {handle channel : Str} {r : E2eManager} {arrivals : List (Env × Nat)}
    {line : Nat → Str} {outcome : Nat → DecryptOutcome}
    (h : ∀ a ∈ arrivals, decryptIncoming cr a.1 r handle channel (line a.2) =
      .ok (outcome a.2)) :
    (receive cr handle channel (arrivals.map (fun a => (a.1, line a.2)))).run r =
      .ok (arrivals.map (fun a => outcome a.2)) r := by
  induction arrivals with
  | nil => rfl
  | cons a rest ih =>
    have hrest := ih (fun b hb => h b (List.mem_cons_of_mem a hb))
    have hfirst : (query (fun m => decryptIncoming cr a.1 m handle channel (line a.2))).run r =
        .ok (outcome a.2) r := run_query_of_ok (h a List.mem_cons_self)
    rw [List.map_cons, List.map_cons, receive, bind_of_ok hfirst, bind_of_ok hrest]
    rfl

/-! ### The sender -/

/-- After its lookup, the key of a channel is stored. -/
theorem sk_keyed {m : E2eManager} {channel : Str} (h : KeyReady e m channel) :
    ((keyed cr e m channel).keyring.outgoing.get? channel).map OutgoingSession.sk =
      some (nextKey e m channel) := by
  unfold keyed nextKey
  cases hs : usableSession m channel with
  | some s =>
    rw [final_of_ok (run_getOrGenerateOutgoingKey_of_usable h.fetched hs)]
    obtain ⟨hget, -⟩ := Option.filter_eq_some_iff.mp hs
    rw [hget]
    rfl
  | none =>
    obtain ⟨hagain, hstore⟩ := h.stored hs
    rw [← keyed, keyring_keyed_of_minted hs h.fetched hagain hstore]
    show Option.map _ ((m.keyring.outgoing.replace _).get? channel) = _
    rw [Table.get?_replace, if_pos rfl]
    rfl

/-- The stored key is the one that the lines are sealed under. -/
theorem sk_encryptOutgoing {m m' : E2eManager} {channel text : Str} {lines : List Str}
    (h : (encryptOutgoing cr e channel text).run m = .ok lines m') :
    (m'.keyring.outgoing.get? channel).map OutgoingSession.sk = some (nextKey e m channel) := by
  have hready := (returns_encryptOutgoing_iff.mp (returns_of_ok h)).key
  have hframe : Frame E2eManager.keyring (keyed cr e m channel)
      (final (encryptOutgoing cr e channel text) m) :=
    encryptOutgoing_after_key (R := Frame E2eManager.keyring) (fun _ => rfl) channel text m
  have hkeyring : m'.keyring = (keyed cr e m channel).keyring := by
    rw [final_of_ok h] at hframe
    exact hframe
  rw [hkeyring, sk_keyed hready]

/-- The lines of a text carry it. -/
theorem carriesMessage_of_encryptOutgoing (hc : cr.Codecs) (ha : cr.InverseAead)
    (hmin : i64Min ≤ e.now) (hmax : e.now ≤ i64Max) {m m' : E2eManager} {channel text : Str}
    {lines : List Str} (h : (encryptOutgoing cr e channel text).run m = .ok lines m') :
    CarriesMessage cr channel text (nextKey e m channel) e.now lines := by
  obtain ⟨msgid, chunks, hsplit, hlen, hsealed⟩ := encryptOutgoing_chunks h
  obtain ⟨texts, rfl, hflat, hpos, hcount, -⟩ := splitPlaintext_texts hsplit
  rw [List.length_map] at hlen
  have htotal : (UInt8.ofNat (texts.map Utf8.encode).length).toNat = lines.length := by
    rw [List.length_map, ← hlen, UInt8.toNat_ofNat', Nat.mod_eq_of_lt]
    rw [maxChunks] at hcount
    omega
  refine ⟨⟨hlen ▸ hpos, hlen ▸ hcount⟩, ⟨msgid, fun i line hi => ?_⟩, texts, hflat, hlen.symm,
    fun r handle arrivals hall => ?_⟩
  · obtain ⟨plain, -, hchunk⟩ := hsealed i line hi
    obtain ⟨nonce, ct, -, hline, hparse⟩ := parse_of_isSealedChunk hc hmin hmax hchunk
    have hlt := (List.getElem?_eq_some_iff.mp hi).1
    refine ⟨_, hline, hparse, rfl, ?_, htotal⟩
    show (UInt8.ofNat (1 + i)).toNat = i + 1
    rw [UInt8.toNat_ofNat', Nat.mod_eq_of_lt, Nat.add_comm]
    rw [maxChunks] at hcount
    omega
  · refine @run_receive cr handle channel r arrivals (fun i => lines.getD i [])
      (fun i => .plaintext (texts.getD i [])) (fun a hmem => ?_)
    obtain ⟨hlt, hread⟩ := hall a hmem
    have hline : lines[a.2]? = some (lines.getD a.2 []) := by simp [hlt]
    obtain ⟨plain, hplain, hchunk⟩ := hsealed a.2 _ hline
    have htext : texts[a.2]? = some (texts.getD a.2 []) := by simp [hlen ▸ hlt]
    rw [List.getElem?_map, htext] at hplain
    cases hplain
    exact decryptIncoming_of_isSealedChunk hc ha hmin hmax hchunk hread

/-- **The lines of a text with few enough pieces carry it to every receiver with the stored key;
any other text yields an error and no line.** -/
theorem encryptOutgoing_round_trip (hc : cr.Codecs) (ha : cr.InverseAead)
    (hmin : i64Min ≤ e.now) (hmax : e.now ≤ i64Max) (m : E2eManager) (channel text : Str) :
    (text ≠ [] → (Chunker.pieces text).length ≤ maxChunks → KeyReady e m channel →
      ∃ lines m' sk, (encryptOutgoing cr e channel text).run m = .ok lines m' ∧
        (m'.keyring.outgoing.get? channel).map OutgoingSession.sk = some sk ∧
        CarriesMessage cr channel text sk e.now lines) ∧
    (text = [] ∨ maxChunks < (Chunker.pieces text).length →
      ∃ err m', (encryptOutgoing cr e channel text).run m = .error err m') := by
  constructor
  · intro hne hcount hready
    have hsplit := splitPlaintext_eq_ok_iff.mpr ⟨hne, hcount, rfl⟩
    have hcan : CanEncrypt cr e m channel text := by
      refine ⟨hready, _, hsplit, fun i plain _ => ?_⟩
      obtain ⟨ct, hct⟩ := ha.encrypt_ok (nextKey e m channel) _ _ plain
      exact ⟨ct, Aead.encrypt_eq_ok_iff.mpr hct⟩
    obtain ⟨lines, m', hrun⟩ := returns_encryptOutgoing_iff.mpr hcan
    exact ⟨lines, m', _, hrun, sk_encryptOutgoing hrun,
      carriesMessage_of_encryptOutgoing hc ha hmin hmax hrun⟩
  · intro hbad
    cases hrun : (encryptOutgoing cr e channel text).run m with
    | error err m' => exact ⟨err, m', rfl⟩
    | ok lines m' =>
      obtain ⟨-, chunks, hsplit, -⟩ := run_encryptOutgoing_eq_ok_iff.mp hrun
      obtain ⟨hne, hcount, -⟩ := splitPlaintext_eq_ok_iff.mp hsplit
      rcases hbad with rfl | hmany
      · exact absurd rfl hne
      · exact absurd hcount (Nat.not_le_of_lt hmany)

/-- A text whose two-byte character does not fit behind the rest of the first piece. -/
def longGreeting : Str := List.replicate 179 'a' ++ str "é🦀"

theorem greeting_round_trip :
    splitPlaintext longGreeting = .ok [List.replicate 179 97, Utf8.encode (str "é🦀")] ∧
    ∃ lines m' sk,
      (encryptOutgoing sample (sampleEnv 1000 0) (str "#rust") longGreeting).run
        (E2eManager.init (Bytes.fill 32 9) Keyring.empty defaultTsToleranceSecs) =
          .ok lines m' ∧
      (m'.keyring.outgoing.get? (str "#rust")).map OutgoingSession.sk = some sk ∧
      CarriesMessage sample (str "#rust") longGreeting sk 1000 lines := by
  have hsplit : splitPlaintext longGreeting =
      .ok [List.replicate 179 97, Utf8.encode (str "é🦀")] := by
    decide +kernel
  exact ⟨hsplit, (encryptOutgoing_round_trip sample_codecs sample_honest.inverseAead (by decide)
    (by decide) _ _ _).1 (by decide) (splitPlaintext_eq_ok_iff.mp hsplit).2.1
      (Env.Healthy.keyReady (sampleEnv_healthy 1000 0) _ _)⟩

end E2eManager

end Repartee
