import Repartee.E2e.Footprint

/-!
# When encryption succeeds, and what it yields

`encrypt_outgoing` fetches the key of the channel, splits the text and seals the chunks. Its
outcome is determined by the statements that the key needs, by the number of chunks, and by the
third-party cipher.

## Main definitions

- `nextKey`: the key that the next message of a channel is sealed under
- `KeyReady`, `Seals`, `CanEncrypt`: what an encryption needs

## Main results

- `returns_encryptOutgoing_iff`: an encryption succeeds if and only if its needs are met
- `encryptOutgoing_chunks`: the lines are the chunks, sealed under the key
-/

set_option autoImplicit false

namespace Repartee.E2eManager

open Exec

variable {cr : Crates} {e : Env}

/-! ### The key -/

/-- The outgoing session of a channel, unless it is flagged for rotation. -/
def usableSession (m : E2eManager) (channel : Str) : Option OutgoingSession :=
  (m.keyring.outgoing.get? channel).filter (fun s => !s.pendingRotation)

/-- The key that the next message of a channel is sealed under. -/
def nextKey (e : Env) (m : E2eManager) (channel : Str) : SessionKey :=
  match usableSession m channel with
  | some s => s.sk
  | none => e.random m.draws 32

/-- The state in which a fresh key has been stored. -/
def minted (e : Env) (m : E2eManager) (channel : Str) : E2eManager :=
  { m with
    draws := m.draws + 1
    keyring := { m.keyring with
      outgoing := m.keyring.outgoing.replace ⟨channel, e.random m.draws 32, e.now, false⟩ } }

/-- The statements that fetching the key of a channel needs do not fail. -/
structure KeyReady (e : Env) (m : E2eManager) (channel : Str) : Prop where
  fetched : e.fault .getOutgoingSession = none
  stored : usableSession m channel = none →
    e.fault (.again .getOutgoingSession) = none ∧ e.fault .setOutgoingSession = none
  distributed : RotationPending m channel →
    e.fault .listOutgoingRecipients = none ∧
      ∀ q ∈ m.keyring.recipientsOf channel,
        e.fault (.again (.again (.getPeerByFingerprint q.fingerprint))) = none

theorem Env.Healthy.keyReady (h : e.Healthy) (m : E2eManager) (channel : Str) :
    KeyReady e m channel where
  fetched := h _
  stored _ := ⟨h _, h _⟩
  distributed _ := ⟨h _, fun _ _ => h _⟩

/-- A key flagged for rotation is not usable. -/
theorem usableSession_of_rotationPending {m : E2eManager} {channel : Str}
    (h : RotationPending m channel) : usableSession m channel = none := by
  unfold RotationPending at h
  unfold usableSession
  cases hs : m.keyring.outgoing.get? channel with
  | none => rfl
  | some s =>
    rw [hs] at h
    have hp : s.pendingRotation = true := h
    simp [hp]

theorem run_getOrGenerateOutgoingKey_of_usable {m : E2eManager} {channel : Str}
    {s : OutgoingSession} (hf : e.fault .getOutgoingSession = none)
    (hs : usableSession m channel = some s) :
    (getOrGenerateOutgoingKey cr e channel).run m = .ok s.sk m := by
  have hget : m.keyring.getOutgoingSession e channel =
    .ok (m.keyring.outgoing.get? channel) := Env.exec_eq_ok_iff.mpr ⟨hf, rfl⟩
  unfold getOrGenerateOutgoingKey
  rw [bind_of_ok (run_ask_of_ok hget)]
  rw [usableSession] at hs
  rw [hs]
  rfl

/-- The distribution of a fresh key that has been stored. -/
def finishMint (cr : Crates) (e : Env) (m : E2eManager) (channel : Str) : M SessionKey := do
  runIf ((m.keyring.outgoing.get? channel).any (fun s => s.pendingRotation))
    (distributeRekeys cr e channel (e.random m.draws 32))
  return e.random m.draws 32

/-- A key that is not usable is minted: looked up again, stored, and distributed. -/
theorem run_getOrGenerateOutgoingKey_of_minted {m : E2eManager} {channel : Str}
    (hs : usableSession m channel = none) (hf : e.fault .getOutgoingSession = none)
    (hagain : e.fault (.again .getOutgoingSession) = none)
    (hstore : e.fault .setOutgoingSession = none) :
    (getOrGenerateOutgoingKey cr e channel).run m =
      (finishMint cr e m channel).run (minted e m channel) := by
  have hget : m.keyring.getOutgoingSession e channel =
    .ok (m.keyring.outgoing.get? channel) := Env.exec_eq_ok_iff.mpr ⟨hf, rfl⟩
  have hget' : m.keyring.getOutgoingSession e.again channel =
    .ok (m.keyring.outgoing.get? channel) := Env.exec_eq_ok_iff.mpr ⟨hagain, rfl⟩
  have hdraw : (draw e 32).run m =
    .ok (e.random m.draws 32) { m with draws := m.draws + 1 } := rfl
  have hset : m.keyring.setOutgoingSession e channel (e.random m.draws 32) e.now =
    .ok (minted e m channel).keyring := Env.exec_eq_ok_iff.mpr ⟨hstore, rfl⟩
  unfold getOrGenerateOutgoingKey
  rw [bind_of_ok (run_ask_of_ok hget)]
  rw [usableSession] at hs
  rw [hs]
  dsimp only
  rw [bind_of_ok (run_ask_of_ok hget'), bind_of_ok hdraw, bind_of_ok (run_tell_of_ok hset)]
  rfl

theorem returns_distributeTo_iff {channel : Str} {fresh : SessionKey}
    (recipient : Str × Fingerprint) (m : E2eManager) :
    Returns (distributeTo cr e channel fresh recipient) m ↔
      e.fault (.again (.again (.getPeerByFingerprint recipient.2))) = none := by
  unfold distributeTo
  rw [returns_bind_iff]
  constructor
  · rintro ⟨peer, m', hask, -⟩
    obtain ⟨hget, -⟩ := run_ask_eq_ok_iff.mp hask
    exact (Env.exec_eq_ok_iff.mp hget).1
  · intro hf
    refine ⟨_, m, run_ask_of_ok (Env.exec_eq_ok_iff.mpr ⟨hf, rfl⟩), ?_⟩
    cases m.keyring.peers.get? recipient.2 with
    | none => exact returns_pure _ _
    | some peer =>
      obtain ⟨built, hbuilt⟩ := exists_run_attempt (buildRekeyForPeer cr e channel peer fresh) m
      refine (returns_bind_of_ok hbuilt).mpr ?_
      cases built with
      | ok rk => exact ⟨_, _, rfl⟩
      | error err => exact returns_pure _ _

theorem returns_distributeRekeys_iff {channel : Str} {fresh : SessionKey} (m : E2eManager) :
    Returns (distributeRekeys cr e channel fresh) m ↔
      e.fault .listOutgoingRecipients = none ∧
        ∀ q ∈ m.keyring.recipientsOf channel,
          e.fault (.again (.again (.getPeerByFingerprint q.fingerprint))) = none := by
  unfold distributeRekeys
  rw [returns_bind_iff]
  have hloop := returns_forM_iff (fun r s => @returns_distributeTo_iff cr e channel fresh r s)
    ((m.keyring.recipientsOf channel).map (fun r => (r.handle, r.fingerprint)))
  simp only [List.forall_mem_map] at hloop
  constructor
  · rintro ⟨recipients, m', hask, hret⟩
    obtain ⟨hlist, rfl⟩ := run_ask_eq_ok_iff.mp hask
    obtain ⟨hf, rfl⟩ := Env.exec_eq_ok_iff.mp hlist
    exact ⟨hf, (hloop m').mp hret⟩
  · rintro ⟨hf, hpeers⟩
    exact ⟨_, m, run_ask_of_ok (Env.exec_eq_ok_iff.mpr ⟨hf, rfl⟩), (hloop m).mpr hpeers⟩

/-- Fetching a key returns if and only if its statements do not fail. -/
theorem returns_getOrGenerateOutgoingKey_iff {m : E2eManager} {channel : Str} :
    Returns (getOrGenerateOutgoingKey cr e channel) m ↔ KeyReady e m channel := by
  by_cases hf : e.fault .getOutgoingSession = none
  swap
  · refine iff_of_false ?_ (fun h => hf h.fetched)
    rintro ⟨sk, m', h⟩
    obtain ⟨sess, m1, hask, -⟩ := bind_eq_ok_iff.mp h
    exact hf (Env.exec_eq_ok_iff.mp (run_ask_eq_ok_iff.mp hask).1).1
  cases hs : usableSession m channel with
  | some s =>
    refine iff_of_true (returns_of_ok (run_getOrGenerateOutgoingKey_of_usable hf hs)) ?_
    refine ⟨hf, fun hn => by simp [hs] at hn, fun hp => ?_⟩
    simp [usableSession_of_rotationPending hp] at hs
  | none =>
    by_cases hstore : e.fault (.again .getOutgoingSession) = none ∧
      e.fault .setOutgoingSession = none
    · rw [Returns, run_getOrGenerateOutgoingKey_of_minted hs hf hstore.1 hstore.2, ← Returns,
        finishMint, returns_bind_pure (f := fun _ => e.random m.draws 32), returns_runIf_iff,
        returns_distributeRekeys_iff]
      exact ⟨fun h => ⟨hf, fun _ => hstore, h⟩, fun h => h.distributed⟩
    · refine iff_of_false ?_ (fun h => hstore (h.stored hs))
      rintro ⟨sk, m', h⟩
      obtain ⟨sess, m1, hask, h⟩ := bind_eq_ok_iff.mp h
      obtain ⟨hget, rfl⟩ := run_ask_eq_ok_iff.mp hask
      obtain ⟨-, rfl⟩ := Env.exec_eq_ok_iff.mp hget
      rw [usableSession] at hs
      rw [hs] at h
      obtain ⟨sess', m2, hask', h⟩ := bind_eq_ok_iff.mp h
      obtain ⟨fresh, m3, -, h⟩ := bind_eq_ok_iff.mp h
      obtain ⟨u, m4, htell, -⟩ := bind_eq_ok_iff.mp h
      obtain ⟨k, hk, -⟩ := run_tell_eq_ok_iff.mp htell
      exact hstore ⟨(Env.exec_eq_ok_iff.mp (run_ask_eq_ok_iff.mp hask').1).1,
        (Env.exec_eq_ok_iff.mp hk).1⟩

/-- A fetched key is the one that was stored, or the one that was drawn. -/
theorem eq_nextKey {m m' : E2eManager} {channel : Str} {sk : SessionKey}
    (h : (getOrGenerateOutgoingKey cr e channel).run m = .ok sk m') :
    sk = nextKey e m channel := by
  have hready := (returns_getOrGenerateOutgoingKey_iff).mp (returns_of_ok h)
  unfold nextKey
  cases hs : usableSession m channel with
  | some s =>
    rw [run_getOrGenerateOutgoingKey_of_usable hready.fetched hs] at h
    cases h
    rfl
  | none =>
    obtain ⟨hagain, hstore⟩ := hready.stored hs
    rw [run_getOrGenerateOutgoingKey_of_minted hs hready.fetched hagain hstore] at h
    obtain ⟨u, m1, -, h⟩ := bind_eq_ok_iff.mp h
    cases h
    rfl

/-! ### The chunks -/

/-- The state after one more random value has been drawn. -/
def drawn (m : E2eManager) : E2eManager := { m with draws := m.draws + 1 }

@[simp] theorem drawn_draws (m : E2eManager) : (drawn m).draws = m.draws + 1 := rfl

/-- A sealing that returns has drawn its nonce. -/
theorem run_aeadEncrypt_eq_ok_iff {key : SessionKey} {aad plaintext : List UInt8}
    {wrapped : Nonce × List UInt8} {m m' : E2eManager} :
    (aeadEncrypt cr e key aad plaintext).run m = .ok wrapped m' ↔
      Aead.encrypt cr key (e.random m.draws 24) aad plaintext = .ok wrapped.2 ∧
        wrapped.1 = e.random m.draws 24 ∧ m' = drawn m := by
  have hdraw : (draw e 24).run m = .ok (e.random m.draws 24) (drawn m) := rfl
  unfold aeadEncrypt
  rw [bind_of_ok hdraw, bind_eq_ok_iff]
  constructor
  · rintro ⟨ct, m1, hlift, h⟩
    obtain ⟨hct, rfl⟩ := run_lift_eq_ok_iff.mp hlift
    cases h
    exact ⟨hct, rfl, rfl⟩
  · rintro ⟨hct, hn, rfl⟩
    refine ⟨wrapped.2, drawn m, run_lift_eq_ok_iff.mpr ⟨hct, rfl⟩, ?_⟩
    rw [← hn]
    rfl

/-- A chunk whose number is within the total is encoded. -/
theorem exists_encode {w : WireChunk} (hpart : 0 < w.part.toNat)
    (hle : w.part.toNat ≤ w.total.toNat) (hmax : w.total.toNat ≤ maxChunks) :
    ∃ line, w.encode cr = .ok line := by
  have htotal : ¬ (decide (w.total = 0) || decide (w.total.toNat > maxChunks)) = true := by
    simp only [Bool.or_eq_true, decide_eq_true_eq, not_or]
    refine ⟨fun h0 => ?_, Nat.not_lt.mpr hmax⟩
    rw [h0] at hle
    exact absurd hpart (Nat.not_lt.mpr hle)
  have hnumber : ¬ (decide (w.part = 0) || decide (w.part > w.total)) = true := by
    simp only [Bool.or_eq_true, decide_eq_true_eq, not_or]
    refine ⟨fun h0 => ?_, fun hgt => ?_⟩
    · simp [h0] at hpart
    · exact absurd (UInt8.lt_iff_toNat_lt.mp hgt) (Nat.not_lt.mpr hle)
  unfold WireChunk.encode
  rw [if_neg htotal, if_neg hnumber]
  exact ⟨_, rfl⟩

/-- The chunk with number `part` of a message. -/
def chunkOf (msgid : Bytes 8) (ts : Int) (total : UInt8) (part : Nat) (nonce : Nonce)
    (ciphertext : List UInt8) : WireChunk where
  msgid := msgid
  ts := ts
  part := UInt8.ofNat part
  total := total
  nonce := nonce
  ciphertext := ciphertext

/-- One round of the loop of `encrypt_outgoing`. -/
theorem run_encryptChunks_cons {sk : SessionKey} {channel : Str} {msgid : Bytes 8}
    {total : UInt8} {part : Nat} {plain : List UInt8} {rest : List (List UInt8)}
    {lines : List Str} {m m' : E2eManager} :
    (encryptChunks cr e sk channel msgid total part (plain :: rest)).run m = .ok lines m' ↔
      ∃ ct line tail,
        Aead.encrypt cr sk (e.random m.draws 24)
          (buildAad channel msgid e.now (UInt8.ofNat part) total) plain = .ok ct ∧
        (chunkOf msgid e.now total part (e.random m.draws 24) ct).encode cr = .ok line ∧
        (encryptChunks cr e sk channel msgid total (part + 1) rest).run (drawn m) =
          .ok tail m' ∧
        lines = line :: tail := by
  rw [encryptChunks]
  dsimp only
  rw [bind_eq_ok_iff]
  constructor
  · rintro ⟨⟨nonce, ct⟩, m1, haead, h⟩
    obtain ⟨hct, rfl, rfl⟩ := (run_aeadEncrypt_eq_ok_iff).mp haead
    obtain ⟨line, m2, hlift, h⟩ := bind_eq_ok_iff.mp h
    obtain ⟨hline, rfl⟩ := run_lift_eq_ok_iff.mp hlift
    obtain ⟨tail, m3, htail, h⟩ := bind_eq_ok_iff.mp h
    cases h
    exact ⟨ct, line, tail, hct, hline, htail, rfl⟩
  · rintro ⟨ct, line, tail, hct, hline, htail, rfl⟩
    refine ⟨(e.random m.draws 24, ct), drawn m,
      (run_aeadEncrypt_eq_ok_iff).mpr ⟨hct, rfl, rfl⟩, ?_⟩
    refine bind_eq_ok_iff.mpr ⟨line, drawn m, run_lift_eq_ok_iff.mpr ⟨hline, rfl⟩, ?_⟩
    exact bind_eq_ok_iff.mpr ⟨tail, m', htail, rfl⟩

/-- The cipher takes each chunk from number `part` on, with the nonce that is drawn for it. -/
def Seals (cr : Crates) (e : Env) (sk : SessionKey) (channel : Str) (msgid : Bytes 8)
    (total : UInt8) (part draws : Nat) (chunks : List (List UInt8)) : Prop :=
  ∀ i plain, chunks[i]? = some plain →
    ∃ ct, Aead.encrypt cr sk (e.random (draws + i) 24)
      (buildAad channel msgid e.now (UInt8.ofNat (part + i)) total) plain = .ok ct

theorem seals_cons {sk : SessionKey} {channel : Str} {msgid : Bytes 8} {total : UInt8}
    {part draws : Nat} {plain : List UInt8} {rest : List (List UInt8)} :
    Seals cr e sk channel msgid total part draws (plain :: rest) ↔
      (∃ ct, Aead.encrypt cr sk (e.random draws 24)
        (buildAad channel msgid e.now (UInt8.ofNat part) total) plain = .ok ct) ∧
      Seals cr e sk channel msgid total (part + 1) (draws + 1) rest := by
  constructor
  · intro h
    refine ⟨h 0 plain rfl, fun i p hi => ?_⟩
    rw [Nat.add_right_comm, Nat.add_right_comm part]
    exact h (i + 1) p hi
  · rintro ⟨h0, hrest⟩ i p hi
    cases i with
    | zero =>
      cases hi
      exact h0
    | succ i =>
      have hs := hrest i p hi
      rwa [Nat.add_right_comm, Nat.add_right_comm part] at hs

/-- The chunks from number `part` on become lines if and only if the cipher takes them. -/
theorem returns_encryptChunks_iff {sk : SessionKey} {channel : Str} {msgid : Bytes 8}
    {total : UInt8} {chunks : List (List UInt8)} {part : Nat} (hpart : 0 < part)
    (hcount : part + chunks.length ≤ total.toNat + 1) (hmax : total.toNat ≤ maxChunks)
    (m : E2eManager) :
    Returns (encryptChunks cr e sk channel msgid total part chunks) m ↔
      Seals cr e sk channel msgid total part m.draws chunks := by
  induction chunks generalizing part m with
  | nil =>
    refine iff_of_true (returns_pure _ _) (fun i plain hi => ?_)
    simp at hi
  | cons plain rest ih =>
    rw [List.length_cons] at hcount
    have ih := ih (Nat.succ_pos part) (by omega) (drawn m)
    rw [seals_cons]
    constructor
    · rintro ⟨lines, m', h⟩
      obtain ⟨ct, line, tail, hct, -, htail, -⟩ := (run_encryptChunks_cons).mp h
      exact ⟨⟨ct, hct⟩, ih.mp (returns_of_ok htail)⟩
    · rintro ⟨⟨ct, hct⟩, hrest⟩
      obtain ⟨tail, m', htail⟩ := ih.mpr hrest
      have hnum : (UInt8.ofNat part).toNat = part := by
        rw [UInt8.toNat_ofNat', Nat.mod_eq_of_lt]
        rw [maxChunks] at hmax
        omega
      obtain ⟨line, hline⟩ := @exists_encode cr
        (chunkOf msgid e.now total part (e.random m.draws 24) ct)
        (by rw [chunkOf, hnum]; exact hpart) (by rw [chunkOf, hnum]; dsimp only; omega) hmax
      exact ⟨line :: tail, m', (run_encryptChunks_cons).mpr
        ⟨ct, line, tail, hct, hline, htail, rfl⟩⟩

/-- A line that carries chunk number `part` of a message, sealed under `sk`. -/
def IsSealedChunk (cr : Crates) (sk : SessionKey) (channel : Str) (msgid : Bytes 8) (ts : Int)
    (total : UInt8) (part : Nat) (plain : List UInt8) (line : Str) : Prop :=
  ∃ nonce ct,
    Aead.encrypt cr sk nonce (buildAad channel msgid ts (UInt8.ofNat part) total) plain =
      .ok ct ∧
    (chunkOf msgid ts total part nonce ct).encode cr = .ok line

/-- Every line is a chunk, sealed under the key. -/
theorem encryptChunks_sealed {sk : SessionKey} {channel : Str} {msgid : Bytes 8}
    {total : UInt8} {part : Nat} {chunks : List (List UInt8)} {lines : List Str}
    {m m' : E2eManager}
    (h : (encryptChunks cr e sk channel msgid total part chunks).run m = .ok lines m') :
    lines.length = chunks.length ∧ ∀ i line, lines[i]? = some line →
      ∃ plain, chunks[i]? = some plain ∧
        IsSealedChunk cr sk channel msgid e.now total (part + i) plain line := by
  induction chunks generalizing part m lines with
  | nil =>
    cases h
    simp
  | cons plain rest ih =>
    obtain ⟨ct, line, tail, hct, hline, htail, rfl⟩ := (run_encryptChunks_cons).mp h
    obtain ⟨hlen, ih⟩ := ih htail
    refine ⟨congrArg (· + 1) hlen, fun i l hi => ?_⟩
    cases i with
    | zero =>
      cases hi
      exact ⟨plain, rfl, _, ct, hct, hline⟩
    | succ i =>
      obtain ⟨p, hp, hsealed⟩ := ih i l hi
      rw [Nat.add_right_comm] at hsealed
      exact ⟨p, hp, hsealed⟩

/-! ### A message -/

/-- The state after the key of a channel has been fetched. -/
def keyed (cr : Crates) (e : Env) (m : E2eManager) (channel : Str) : E2eManager :=
  final (getOrGenerateOutgoingKey cr e channel) m

/-- A key that is minted is stored, and its distribution leaves the keyring alone. -/
theorem keyring_keyed_of_minted {m : E2eManager} {channel : Str}
    (hs : usableSession m channel = none) (hf : e.fault .getOutgoingSession = none)
    (hagain : e.fault (.again .getOutgoingSession) = none)
    (hstore : e.fault .setOutgoingSession = none) :
    (keyed cr e m channel).keyring = (minted e m channel).keyring := by
  have hframe : Frame E2eManager.keyring (minted e m channel)
      (final (finishMint cr e m channel) (minted e m channel)) := by
    apply Moves.bind (Moves.runIf (fun _ => ?_)) (fun _ => Moves.pure _)
    exact distributeRekeys_moves (R := Frame E2eManager.keyring) (fun _ => rfl)
      (fun _ _ => rfl) channel _
  rw [keyed, final, run_getOrGenerateOutgoingKey_of_minted hs hf hagain hstore, ← final]
  exact hframe

/-- What the encryption of a text for a channel needs: the statements of its key, a text of at
most `MAX_CHUNKS` chunks, and a cipher that takes the chunks. -/
structure CanEncrypt (cr : Crates) (e : Env) (m : E2eManager) (channel text : Str) : Prop where
  key : KeyReady e m channel
  sealable : ∃ chunks, splitPlaintext text = .ok chunks ∧
    Seals cr e (nextKey e m channel) channel (e.random (keyed cr e m channel).draws 8)
      (UInt8.ofNat chunks.length) 1 ((keyed cr e m channel).draws + 1) chunks

/-- The outcome of an encryption, from the key and the chunks on. -/
theorem run_encryptOutgoing_eq_ok_iff {m m' : E2eManager} {channel text : Str}
    {lines : List Str} :
    (encryptOutgoing cr e channel text).run m = .ok lines m' ↔
      KeyReady e m channel ∧ ∃ chunks, splitPlaintext text = .ok chunks ∧
        (encryptChunks cr e (nextKey e m channel) channel
          (e.random (keyed cr e m channel).draws 8) (UInt8.ofNat chunks.length) 1 chunks).run
            (drawn (keyed cr e m channel)) = .ok lines m' := by
  unfold encryptOutgoing
  rw [bind_eq_ok_iff]
  constructor
  · rintro ⟨sk, m1, hkey, h⟩
    have hsk := eq_nextKey hkey
    have hm1 : keyed cr e m channel = m1 := final_of_ok hkey
    subst hsk hm1
    refine ⟨(returns_getOrGenerateOutgoingKey_iff).mp (returns_of_ok hkey), ?_⟩
    obtain ⟨chunks, m2, hlift, h⟩ := bind_eq_ok_iff.mp h
    obtain ⟨hsplit, rfl⟩ := run_lift_eq_ok_iff.mp hlift
    obtain ⟨u, m3, h255, h⟩ := bind_eq_ok_iff.mp h
    obtain ⟨-, rfl⟩ := run_require_eq_ok_iff.mp h255
    obtain ⟨u', m4, hzero, h⟩ := bind_eq_ok_iff.mp h
    obtain ⟨-, rfl⟩ := run_require_eq_ok_iff.mp hzero
    exact ⟨chunks, hsplit, h⟩
  · rintro ⟨hready, chunks, hsplit, h⟩
    obtain ⟨sk, m1, hkey⟩ := (@returns_getOrGenerateOutgoingKey_iff cr e m channel).mpr hready
    have hsk := eq_nextKey hkey
    have hm1 : keyed cr e m channel = m1 := final_of_ok hkey
    subst hsk hm1
    obtain ⟨hpos, hmax⟩ := length_splitPlaintext hsplit
    rw [maxChunks] at hmax
    refine ⟨_, _, hkey, ?_⟩
    rw [bind_of_ok (run_lift_eq_ok_iff.mpr ⟨hsplit, rfl⟩),
      bind_of_ok (run_require_of_true (by simpa using by omega) _ _),
      bind_of_ok (run_require_of_true (by simpa using hpos) _ _)]
    exact h

/-- An encryption succeeds if and only if its needs are met. -/
theorem returns_encryptOutgoing_iff {m : E2eManager} {channel text : Str} :
    Returns (encryptOutgoing cr e channel text) m ↔ CanEncrypt cr e m channel text := by
  have hchunks : ∀ {chunks}, splitPlaintext text = .ok chunks →
      (Returns (encryptChunks cr e (nextKey e m channel) channel
        (e.random (keyed cr e m channel).draws 8) (UInt8.ofNat chunks.length) 1 chunks)
        (drawn (keyed cr e m channel)) ↔
      Seals cr e (nextKey e m channel) channel (e.random (keyed cr e m channel).draws 8)
        (UInt8.ofNat chunks.length) 1 ((keyed cr e m channel).draws + 1) chunks) := by
    intro chunks hsplit
    obtain ⟨-, hmax⟩ := length_splitPlaintext hsplit
    have hnum : (UInt8.ofNat chunks.length).toNat = chunks.length := by
      rw [UInt8.toNat_ofNat', Nat.mod_eq_of_lt]
      rw [maxChunks] at hmax
      omega
    exact returns_encryptChunks_iff Nat.one_pos (by omega) (by rwa [hnum]) _
  constructor
  · rintro ⟨lines, m', h⟩
    obtain ⟨hready, chunks, hsplit, h⟩ := (run_encryptOutgoing_eq_ok_iff).mp h
    exact ⟨hready, chunks, hsplit, (hchunks hsplit).mp (returns_of_ok h)⟩
  · rintro ⟨hready, chunks, hsplit, hseals⟩
    obtain ⟨lines, m', h⟩ := (hchunks hsplit).mpr hseals
    exact ⟨lines, m', (run_encryptOutgoing_eq_ok_iff).mpr ⟨hready, chunks, hsplit, h⟩⟩

/-- Where storage works and the cipher does, every text that can be split is encrypted. -/
theorem canEncrypt_of_honest {m : E2eManager} {channel text : Str} {chunks : List (List UInt8)}
    (he : e.Healthy) (hcr : cr.Honest) (hsplit : splitPlaintext text = .ok chunks) :
    CanEncrypt cr e m channel text :=
  ⟨Env.Healthy.keyReady he m channel, chunks, hsplit, fun _ _ _ => hcr.aead_encrypt _ _ _ _⟩

/-- The lines of a message are its chunks, sealed under the key of the channel. -/
theorem encryptOutgoing_chunks {m m' : E2eManager} {channel text : Str} {lines : List Str}
    (h : (encryptOutgoing cr e channel text).run m = .ok lines m') :
    ∃ msgid chunks, splitPlaintext text = .ok chunks ∧ lines.length = chunks.length ∧
      ∀ i line, lines[i]? = some line → ∃ plain, chunks[i]? = some plain ∧
        IsSealedChunk cr (nextKey e m channel) channel msgid e.now (UInt8.ofNat chunks.length)
          (1 + i) plain line := by
  obtain ⟨-, chunks, hsplit, h⟩ := (run_encryptOutgoing_eq_ok_iff).mp h
  obtain ⟨hlen, hlines⟩ := encryptChunks_sealed h
  exact ⟨_, chunks, hsplit, hlen, hlines⟩

/-- No random value is drawn twice. -/
def DrawsMore (m m' : E2eManager) : Prop := m.draws ≤ m'.draws

instance : Std.Refl DrawsMore := ⟨fun m => Nat.le_refl m.draws⟩

instance : IsTrans E2eManager DrawsMore := ⟨fun _ _ _ h h' => Nat.le_trans h h'⟩

/-- An encryption that succeeds has drawn random values. -/
theorem draws_lt_of_encryptOutgoing {m m' : E2eManager} {channel text : Str}
    {lines : List Str} (h : (encryptOutgoing cr e channel text).run m = .ok lines m') :
    m.draws < m'.draws := by
  obtain ⟨-, chunks, -, h⟩ := (run_encryptOutgoing_eq_ok_iff).mp h
  have hmono : Moves DrawsMore
      (encryptChunks cr e (nextKey e m channel) channel
        (e.random (keyed cr e m channel).draws 8) (UInt8.ofNat chunks.length) 1 chunks) :=
    encryptChunks_draws (fun m => Nat.le_succ m.draws) _ _ _ _ _ _
  have hkey : m.draws ≤ (keyed cr e m channel).draws :=
    getOrGenerateOutgoingKey_moves (R := DrawsMore) (fun m => Nat.le_succ m.draws)
      (fun m _ => Nat.le_refl m.draws) (fun m _ => Nat.le_refl m.draws) channel m
  exact Nat.lt_of_lt_of_le (Nat.lt_succ_of_le hkey) (hmono.of_ok h)

end Repartee.E2eManager
