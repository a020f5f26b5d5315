import Repartee.E2e.System

/-!
# What the manager's operations write

Frame conditions. `keyMask` blanks the parts that minting an outgoing key may write, and
`serveMask` the parts that serving a KEYRSP may write; an operation within a footprint keeps the
masked state. The REKEY queue is tracked by `QueuesRekeys`, the handshakes in flight by
`pendingOf`.

## Main results

- `getOrGenerateOutgoingKey_keyMask`, `serveKeyrsp_serveMask`: the footprints
- `getOrGenerateOutgoingKey_queues`: REKEYs are queued for recorded recipients only
- `serveKeyrsp_pendingOf`: handshakes are started for the served channel only
-/

set_option autoImplicit false

namespace Repartee.E2eManager

open Exec

variable {cr : Crates} {e : Env}

/-! ### Primitive operations -/

section

variable {α : Type} {R : E2eManager → E2eManager → Prop}

theorem moves_ask [Std.Refl R] (f : Keyring → Result α) : Moves R (ask f) := Moves.query _

theorem moves_lift [Std.Refl R] (r : Result α) : Moves R (lift r) := Moves.query _

theorem moves_tell [Std.Refl R] {f : Keyring → Result Keyring}
    (h : ∀ m k, f m.keyring = .ok k → R m { m with keyring := k }) : Moves R (tell f) := by
  refine Moves.update (fun m m' hm => ?_)
  cases hf : f m.keyring with
  | error err => simp [hf, Except.map] at hm
  | ok k =>
    have hk : { m with keyring := k } = m' := by simpa [hf, Except.map] using hm
    exact hk ▸ h m k hf

theorem moves_draw (h : ∀ m, R m { m with draws := m.draws + 1 }) (n : Nat) :
    Moves R (draw e n) := Moves.modifyGet h

theorem moves_aeadEncrypt [Std.Refl R] [IsTrans E2eManager R]
    (h : ∀ m, R m { m with draws := m.draws + 1 }) (key : SessionKey)
    (aad plaintext : List UInt8) : Moves R (aeadEncrypt cr e key aad plaintext) := by
  refine (moves_draw h 24).bind (fun nonce => ?_)
  exact (moves_lift _).bind (fun _ => Moves.pure _)

end

/-- A statement that succeeds changes the keyring alone. -/
theorem run_tell_eq_ok_iff {f : Keyring → Result Keyring} {m m' : E2eManager} {u : Unit} :
    (tell f).run m = .ok u m' ↔ ∃ k, f m.keyring = .ok k ∧ m' = { m with keyring := k } := by
  rw [tell, run_update_eq_ok_iff]
  cases f m.keyring with
  | error err => simp [Except.map]
  | ok k => simp [Except.map, eq_comm]

theorem run_ask_eq_ok_iff {α : Type} {f : Keyring → Result α} {m m' : E2eManager} {a : α} :
    (ask f).run m = .ok a m' ↔ f m.keyring = .ok a ∧ m' = m := run_query_eq_ok_iff

theorem run_ask_of_ok {α : Type} {f : Keyring → Result α} {m : E2eManager} {a : α}
    (h : f m.keyring = .ok a) : (ask f).run m = .ok a m := run_query_of_ok h

theorem run_ask_of_error {α : Type} {f : Keyring → Result α} {m : E2eManager} {err : E2eError}
    (h : f m.keyring = .error err) : (ask f).run m = .error err m := run_query_of_error h

theorem run_tell_of_ok {f : Keyring → Result Keyring} {m : E2eManager} {k : Keyring}
    (h : f m.keyring = .ok k) : (tell f).run m = .ok () { m with keyring := k } :=
  (run_tell_eq_ok_iff).mpr ⟨k, h, rfl⟩

theorem run_tell_of_error {f : Keyring → Result Keyring} {m : E2eManager} {err : E2eError}
    (h : f m.keyring = .error err) : (tell f).run m = .error err m := by
  rw [tell, run_update, h]
  rfl

theorem run_tellCount_of_ok {f : Keyring → Result (Nat × Keyring)} {m : E2eManager} {n : Nat}
    {k : Keyring} (h : f m.keyring = .ok (n, k)) :
    (tellCount f).run m = .ok n { m with keyring := k } := by
  unfold tellCount
  rw [bind_of_ok (run_ask_of_ok h)]
  dsimp only
  rw [bind_of_ok (run_tell_of_ok (by rw [h]; rfl))]
  rfl

theorem moves_tellCount {R : E2eManager → E2eManager → Prop} [Std.Refl R]
    [IsTrans E2eManager R] {f : Keyring → Result (Nat × Keyring)}
    (h : ∀ m r, f m.keyring = .ok r → R m { m with keyring := r.2 }) :
    Moves R (tellCount f) := by
  refine (moves_ask f).bind (fun r => Moves.bind (moves_tell (fun m k hk => ?_)) ?_)
  · cases hf : f m.keyring with
    | error err => simp [hf, Except.map] at hk
    | ok r =>
      have hrk : r.2 = k := by simpa [hf, Except.map] using hk
      exact hrk ▸ h m r hf
  · exact fun _ => Moves.pure _

theorem run_lift_ok {α : Type} (a : α) (m : E2eManager) : (lift (.ok a)).run m = .ok a m := rfl

theorem run_lift_error {α : Type} (err : E2eError) (m : E2eManager) :
    (lift (.error err : Result α)).run m = .error err m := rfl

theorem run_lift_eq_ok_iff {α : Type} {r : Result α} {m m' : E2eManager} {a : α} :
    (lift r).run m = .ok a m' ↔ r = .ok a ∧ m' = m := run_query_eq_ok_iff

theorem final_tell (f : Keyring → Result Keyring) (m : E2eManager) :
    final (tell f) m =
      match f m.keyring with
      | .ok k => { m with keyring := k }
      | .error _ => m := by
  rw [tell, final_update]
  cases f m.keyring <;> rfl

/-! ### Minting an outgoing key -/

/-- The state without what minting an outgoing key writes. -/
def keyMask (m : E2eManager) : E2eManager :=
  { m with draws := 0, pendingRekeySends := [],
           keyring := { m.keyring with outgoing := Table.empty } }

theorem buildRekeyForPeer_draws {R : E2eManager → E2eManager → Prop} [Std.Refl R]
    [IsTrans E2eManager R] (h : ∀ m, R m { m with draws := m.draws + 1 }) (channel : Str)
    (peer : PeerRecord) (newSk : SessionKey) :
    Moves R (buildRekeyForPeer cr e channel peer newSk) := by
  refine (moves_draw h 32).bind (fun ephSk => ?_)
  refine (moves_lift _).bind (fun peerX25519Pub => ?_)
  refine (moves_aeadEncrypt h _ _ _).bind (fun wrapped => ?_)
  refine (moves_draw h 16).bind (fun nonce => ?_)
  exact Moves.get.bind (fun m => Moves.pure _)

/-- Distributing a key draws random values and queues REKEYs. -/
theorem distributeRekeys_moves {R : E2eManager → E2eManager → Prop} [Std.Refl R]
    [IsTrans E2eManager R] (hdraw : ∀ m, R m { m with draws := m.draws + 1 })
    (hqueue : ∀ m q, R m { m with pendingRekeySends := q }) (channel : Str)
    (fresh : SessionKey) : Moves R (distributeRekeys cr e channel fresh) := by
  refine (moves_ask _).bind (fun recipients => Moves.forM (fun recipient => ?_) recipients)
  refine (moves_ask _).bind (fun peer => ?_)
  cases peer with
  | none => exact Moves.pure _
  | some peer =>
    refine (Moves.attempt (buildRekeyForPeer_draws hdraw channel peer fresh)).bind ?_
    intro built
    cases built with
    | ok rk => exact Moves.modify (fun m => hqueue m _)
    | error err => exact Moves.pure _

/-- Fetching a key draws random values, stores a fresh key and queues REKEYs. -/
theorem getOrGenerateOutgoingKey_moves {R : E2eManager → E2eManager → Prop} [Std.Refl R]
    [IsTrans E2eManager R] (hdraw : ∀ m, R m { m with draws := m.draws + 1 })
    (hstore : ∀ m t, R m { m with keyring := { m.keyring with outgoing := t } })
    (hqueue : ∀ m q, R m { m with pendingRekeySends := q }) (channel : Str) :
    Moves R (getOrGenerateOutgoingKey cr e channel) := by
  refine (moves_ask _).bind (fun sess => ?_)
  dsimp only
  split
  · exact Moves.pure _
  · refine (moves_ask _).bind (fun sess' => ?_)
    refine (moves_draw hdraw 32).bind (fun fresh => ?_)
    refine Moves.bind (moves_tell (fun m k hk => ?_)) (fun _ => ?_)
    · obtain ⟨-, rfl⟩ := Env.exec_eq_ok_iff.mp hk
      exact hstore m _
    refine (Moves.runIf (fun _ => ?_)).bind (fun _ => Moves.pure _)
    exact distributeRekeys_moves hdraw hqueue channel fresh

theorem getOrGenerateOutgoingKey_keyMask (channel : Str) :
    Moves (Frame keyMask) (getOrGenerateOutgoingKey cr e channel) :=
  getOrGenerateOutgoingKey_moves (R := Frame keyMask) (fun _ => rfl) (fun _ _ => rfl)
    (fun _ _ => rfl) channel

theorem encryptChunks_draws {R : E2eManager → E2eManager → Prop} [Std.Refl R]
    [IsTrans E2eManager R] (h : ∀ m, R m { m with draws := m.draws + 1 }) (sk : SessionKey)
    (channel : Str) (msgid : Bytes 8) (total : UInt8) (part : Nat)
    (chunks : List (List UInt8)) :
    Moves R (encryptChunks cr e sk channel msgid total part chunks) := by
  induction chunks generalizing part with
  | nil => exact Moves.pure _
  | cons plain rest ih =>
    refine (moves_aeadEncrypt h _ _ _).bind (fun wrapped => ?_)
    refine (moves_lift _).bind (fun line => ?_)
    exact (ih (part + 1)).bind (fun lines => Moves.pure _)

/-- After its key lookup, an encryption only draws random values. -/
theorem encryptOutgoing_after_key {R : E2eManager → E2eManager → Prop} [Std.Refl R]
    [IsTrans E2eManager R] (h : ∀ m, R m { m with draws := m.draws + 1 }) (channel plaintext : Str)
    (m : E2eManager) :
    R (final (getOrGenerateOutgoingKey cr e channel) m)
      (final (E2eManager.encryptOutgoing cr e channel plaintext) m) := by
  unfold E2eManager.encryptOutgoing
  rw [final_bind]
  cases hkey : (getOrGenerateOutgoingKey cr e channel).run m with
  | error err m' =>
    rw [final_of_error hkey]
    exact Std.Refl.refl m'
  | ok sk m' =>
    rw [final_of_ok hkey]
    refine Moves.bind (moves_lift _) (fun chunks => ?_) m'
    refine (Moves.require _ _).bind (fun _ => ?_)
    refine (Moves.require _ _).bind (fun _ => ?_)
    refine (moves_draw h 8).bind (fun msgid => ?_)
    exact encryptChunks_draws h sk channel msgid _ 1 chunks

/-- An encryption writes what its key lookup writes, and draws random values. -/
theorem encryptOutgoing_of_key {R : E2eManager → E2eManager → Prop} [Std.Refl R]
    [IsTrans E2eManager R] (h : ∀ m, R m { m with draws := m.draws + 1 }) {channel : Str}
    {m : E2eManager} (hkey : R m (final (getOrGenerateOutgoingKey cr e channel) m))
    (plaintext : Str) : R m (final (E2eManager.encryptOutgoing cr e channel plaintext) m) :=
  IsTrans.trans _ _ _ hkey (encryptOutgoing_after_key h channel plaintext m)

theorem encryptOutgoing_keyMask (channel plaintext : Str) :
    Moves (Frame keyMask) (E2eManager.encryptOutgoing cr e channel plaintext) := fun m =>
  encryptOutgoing_of_key (R := Frame keyMask) (fun _ => rfl)
    (getOrGenerateOutgoingKey_keyMask channel m) plaintext

/-- The REKEY queue grows by entries of `channel` whose targets satisfy `P`. -/
def QueuesRekeys (channel : Str) (P : Str → Prop) (m m' : E2eManager) : Prop :=
  ∃ sent, m'.pendingRekeySends = m.pendingRekeySends ++ sent ∧
    ∀ s ∈ sent, s.rekey.channel = channel ∧ P s.targetHandle

section

variable {channel : Str} {P : Str → Prop}

theorem QueuesRekeys.of_eq {m m' : E2eManager}
    (h : m'.pendingRekeySends = m.pendingRekeySends) : QueuesRekeys channel P m m' :=
  ⟨[], by simp [h], by simp⟩

instance : Std.Refl (QueuesRekeys channel P) := ⟨fun _ => .of_eq rfl⟩

instance : IsTrans E2eManager (QueuesRekeys channel P) := ⟨by
  rintro m m' m'' ⟨s, hs, hP⟩ ⟨s', hs', hP'⟩
  refine ⟨s ++ s', by rw [hs', hs, List.append_assoc], fun x hx => ?_⟩
  exact (List.mem_append.mp hx).elim (hP x) (hP' x)⟩

end

/-- A built REKEY is for the channel it was built for. -/
theorem channel_of_buildRekeyForPeer {channel : Str} {peer : PeerRecord} {newSk : SessionKey}
    {m m' : E2eManager} {rk : KeyRekey}
    (h : (buildRekeyForPeer cr e channel peer newSk).run m = .ok rk m') :
    rk.channel = channel := by
  obtain ⟨ephSk, m1, -, h⟩ := bind_eq_ok_iff.mp h
  obtain ⟨peerX25519Pub, m2, -, h⟩ := bind_eq_ok_iff.mp h
  obtain ⟨wrapped, m3, -, h⟩ := bind_eq_ok_iff.mp h
  obtain ⟨nonce, m4, -, h⟩ := bind_eq_ok_iff.mp h
  obtain ⟨m5, m6, -, h⟩ := bind_eq_ok_iff.mp h
  cases h
  rfl

theorem distributeTo_queues {channel : Str} {P : Str → Prop} (fresh : SessionKey)
    (recipient : Str × Fingerprint) (hP : P recipient.1) :
    Moves (QueuesRekeys channel P) (distributeTo cr e channel fresh recipient) := by
  refine (moves_ask _).bind (fun peer => ?_)
  cases peer with
  | none => exact Moves.pure _
  | some peer =>
    intro m
    refine rel_final_bind ?_ (fun built m' hbuilt => ?_)
    · refine Moves.attempt ?_ m
      exact buildRekeyForPeer_draws (fun _ => .of_eq rfl) channel peer fresh
    · cases built with
      | error err => exact Moves.pure _ m'
      | ok rk =>
        refine ⟨[⟨recipient.1, rk⟩], rfl, ?_⟩
        rw [run_attempt] at hbuilt
        cases hrun : (buildRekeyForPeer cr e channel peer fresh).run m with
        | error err m1 => simp [hrun] at hbuilt
        | ok rk' m1 =>
          simp only [hrun, EStateM.Result.ok.injEq, Except.ok.injEq] at hbuilt
          obtain ⟨rfl, -⟩ := hbuilt
          simpa using ⟨channel_of_buildRekeyForPeer hrun, hP⟩

/-- The recorded recipients of our outgoing key of a channel. -/
def IsRecipient (m : E2eManager) (channel handle : Str) : Prop :=
  ∃ q ∈ m.keyring.recipients.rows, q.channel = channel ∧ q.handle = handle

theorem mem_recipientsOf {k : Keyring} {channel : Str} {q : OutgoingRecipient} :
    q ∈ k.recipientsOf channel ↔ q ∈ k.recipients.rows ∧ q.channel = channel := by
  simp [Keyring.recipientsOf]

theorem distributeRekeys_queues (channel : Str) (fresh : SessionKey) (m : E2eManager) :
    QueuesRekeys channel (IsRecipient m channel) m
      (final (distributeRekeys cr e channel fresh) m) := by
  refine rel_final_query_bind (fun recipients hrec => ?_)
  obtain ⟨-, rfl⟩ := Env.exec_eq_ok_iff.mp hrec
  refine Moves.forM_mem _ (fun recipient hmem => distributeTo_queues fresh recipient ?_) m
  obtain ⟨q, hq, rfl⟩ := List.mem_map.mp hmem
  obtain ⟨hq, hc⟩ := (mem_recipientsOf).mp hq
  exact ⟨q, hq, hc, rfl⟩

/-- Whether the outgoing key of a channel is flagged for rotation. -/
def RotationPending (m : E2eManager) (channel : Str) : Prop :=
  (m.keyring.outgoing.get? channel).any (fun s => s.pendingRotation) = true

instance (m : E2eManager) (channel : Str) : Decidable (RotationPending m channel) :=
  inferInstanceAs (Decidable (_ = true))

theorem QueuesRekeys.imp {channel : Str} {P Q : Str → Prop} {m m' : E2eManager}
    (h : QueuesRekeys channel P m m') (hPQ : ∀ x, P x → Q x) : QueuesRekeys channel Q m m' := by
  obtain ⟨sent, hs, hP⟩ := h
  exact ⟨sent, hs, fun x hx => ⟨(hP x hx).1, hPQ _ (hP x hx).2⟩⟩

/-- REKEYs are queued only when the key is flagged for rotation, and only for recipients. -/
theorem getOrGenerateOutgoingKey_queues (channel : Str) (m : E2eManager) :
    QueuesRekeys channel (fun h => RotationPending m channel ∧ IsRecipient m channel h) m
      (final (getOrGenerateOutgoingKey cr e channel) m) := by
  refine rel_final_query_bind (fun sess _ => ?_)
  dsimp only
  split
  · exact Moves.pure _ m
  · refine rel_final_query_bind (fun sess' hsess' => ?_)
    obtain ⟨-, rfl⟩ := Env.exec_eq_ok_iff.mp hsess'
    refine rel_final_bind (.of_eq rfl) (fun fresh m1 hm1 => ?_)
    cases hm1
    refine rel_final_bind ?_ (fun _ m2 hm2 => ?_)
    · rw [final_tell]
      split <;> exact .of_eq rfl
    obtain ⟨k, hk, rfl⟩ := (run_tell_eq_ok_iff).mp hm2
    obtain ⟨-, rfl⟩ := Env.exec_eq_ok_iff.mp hk
    refine rel_final_bind ?_ (fun _ m3 _ => Moves.pure _ m3)
    rw [final_runIf]
    split
    · rename_i hrot
      exact (distributeRekeys_queues channel _ _).imp (fun x hx => ⟨hrot, hx⟩)
    · exact .of_eq rfl

/-- Encrypting queues what its key lookup queues. -/
theorem encryptOutgoing_queues (channel plaintext : Str) (m : E2eManager) :
    QueuesRekeys channel (fun h => RotationPending m channel ∧ IsRecipient m channel h) m
      (final (E2eManager.encryptOutgoing cr e channel plaintext) m) :=
  encryptOutgoing_of_key (fun _ => .of_eq rfl) (getOrGenerateOutgoingKey_queues channel m)
    plaintext

/-! ### Serving a KEYRSP -/

/-- The state without what serving a KEYRSP writes. -/
def serveMask (m : E2eManager) : E2eManager :=
  { m with draws := 0, rateLimiter := RateLimiter.new, pending := Table.empty,
           pendingRekeySends := [], pendingOutboundKeyreqs := [],
           keyring := { m.keyring with outgoing := Table.empty, recipients := Table.empty } }

theorem frame_serveMask_of_keyMask {m m' : E2eManager} (h : Frame keyMask m m') :
    Frame serveMask m m' := by
  have hs := congrArg serveMask (show keyMask m' = keyMask m from h)
  exact hs

/-- Building a KEYREQ draws random values and stashes the ephemeral secret. -/
theorem buildKeyreqForPeer_moves {R : E2eManager → E2eManager → Prop} [Std.Refl R]
    [IsTrans E2eManager R] (hdraw : ∀ m, R m { m with draws := m.draws + 1 }) {channel : Str}
    (hstash : ∀ m nonce ph, R m { m with pending := m.pending.insert (channel, nonce) ph })
    (peerHandle : Option Str) : Moves R (buildKeyreqForPeer cr e channel peerHandle) := by
  refine (moves_draw hdraw 16).bind (fun nonce => ?_)
  refine (moves_draw hdraw 32).bind (fun ephSecret => ?_)
  refine Moves.get.bind (fun m => ?_)
  exact Moves.bind (Moves.modify (fun d => hstash d _ _)) (fun _ => Moves.pure _)

theorem moves_isTrusted {R : E2eManager → E2eManager → Prop} [Std.Refl R]
    [IsTrans E2eManager R] (e : Env) (senderHandle channel : Str) :
    Moves R (isTrusted e senderHandle channel) :=
  (moves_ask _).bind (fun _ => Moves.pure _)

/-- After its key lookup, serving a KEYRSP records the initiator as a recipient, and writes what
queueing a reciprocal KEYREQ writes. -/
theorem serveKeyrsp_recording {R : E2eManager → E2eManager → Prop} [Std.Refl R]
    [IsTrans E2eManager R] (hdraw : ∀ m, R m { m with draws := m.draws + 1 })
    {senderHandle : Str} {req : KeyReq}
    (hrecord : ∀ m k, m.keyring.recordOutgoingRecipient e req.channel senderHandle
      (fingerprint cr req.pubkey) e.now = .ok k → R m { m with keyring := k })
    (hlimit : ∀ m r, R m { m with rateLimiter := r })
    (hqueue : Moves R (queueReciprocal cr e senderHandle req.channel)) (m : E2eManager) :
    R (final (getOrGenerateOutgoingKey cr e req.channel) m)
      (final (serveKeyrsp cr e senderHandle req) m) := by
  unfold serveKeyrsp
  rw [final_bind]
  cases hkey : (getOrGenerateOutgoingKey cr e req.channel).run m with
  | error err m' =>
    rw [final_of_error hkey]
    exact Std.Refl.refl m'
  | ok ourSk m' =>
    rw [final_of_ok hkey]
    refine Moves.bind (moves_tell hrecord) (fun _ => ?_) m'
    refine (moves_draw hdraw 32).bind (fun ourEphSecret => ?_)
    refine (moves_aeadEncrypt hdraw _ _ _).bind (fun wrapped => ?_)
    refine Moves.get.bind (fun m => ?_)
    refine (moves_draw hdraw 16).bind (fun rspNonce => ?_)
    refine (moves_isTrusted e.again senderHandle req.channel).bind (fun alreadyIncoming => ?_)
    refine Moves.bind (Moves.modifyGet (fun m => hlimit m _)) (fun allowOut => ?_)
    exact (Moves.runIf (fun _ => hqueue)).bind (fun _ => Moves.pure _)

/-- After its key lookup, serving a KEYRSP writes the recipient row and what queueing a reciprocal
KEYREQ writes. -/
theorem serveKeyrsp_after_key {R : E2eManager → E2eManager → Prop} [Std.Refl R]
    [IsTrans E2eManager R] (hdraw : ∀ m, R m { m with draws := m.draws + 1 })
    (hrecord : ∀ m t, R m { m with keyring := { m.keyring with recipients := t } })
    (hlimit : ∀ m r, R m { m with rateLimiter := r })
    {senderHandle : Str} {req : KeyReq}
    (hqueue : Moves R (queueReciprocal cr e senderHandle req.channel)) (m : E2eManager) :
    R (final (getOrGenerateOutgoingKey cr e req.channel) m)
      (final (serveKeyrsp cr e senderHandle req) m) := by
  refine serveKeyrsp_recording hdraw (fun m k hk => ?_) hlimit hqueue m
  obtain ⟨-, rfl⟩ := Env.exec_eq_ok_iff.mp hk
  exact hrecord m _

/-- Serving a KEYRSP writes what its key lookup writes, the recipient row, and what queueing a
reciprocal KEYREQ writes. -/
theorem serveKeyrsp_of_key {R : E2eManager → E2eManager → Prop} [Std.Refl R]
    [IsTrans E2eManager R] (hdraw : ∀ m, R m { m with draws := m.draws + 1 })
    (hrecord : ∀ m t, R m { m with keyring := { m.keyring with recipients := t } })
    (hlimit : ∀ m r, R m { m with rateLimiter := r })
    {senderHandle : Str} {req : KeyReq}
    (hqueue : Moves R (queueReciprocal cr e senderHandle req.channel)) {m : E2eManager}
    (hkey : R m (final (getOrGenerateOutgoingKey cr e req.channel) m)) :
    R m (final (serveKeyrsp cr e senderHandle req) m) :=
  IsTrans.trans _ _ _ hkey (serveKeyrsp_after_key hdraw hrecord hlimit hqueue m)

theorem queueReciprocal_moves {R : E2eManager → E2eManager → Prop} [Std.Refl R]
    [IsTrans E2eManager R] (hdraw : ∀ m, R m { m with draws := m.draws + 1 }) {channel : Str}
    (hstash : ∀ m nonce ph, R m { m with pending := m.pending.insert (channel, nonce) ph })
    (hqueue : ∀ m q, R m { m with pendingOutboundKeyreqs := q }) (senderHandle : Str) :
    Moves R (queueReciprocal cr e senderHandle channel) := by
  refine (buildKeyreqForPeer_moves hdraw hstash _).bind (fun _ => ?_)
  exact Moves.modify (fun m => hqueue m _)

theorem serveKeyrsp_serveMask (senderHandle : Str) (req : KeyReq) :
    Moves (Frame serveMask) (serveKeyrsp cr e senderHandle req) := fun m => by
  refine serveKeyrsp_of_key (R := Frame serveMask) (fun _ => rfl) (fun _ _ => rfl)
    (fun _ _ => rfl) ?_ ?_
  · exact queueReciprocal_moves (R := Frame serveMask) (fun _ => rfl) (fun _ _ _ => rfl)
      (fun _ _ => rfl) _
  · exact frame_serveMask_of_keyMask (getOrGenerateOutgoingKey_keyMask req.channel m)

/-- The handshakes in flight for a channel, by nonce. -/
def pendingOf (channel : Str) (m : E2eManager) : Bytes 16 → Option PendingHandshake :=
  fun nonce => m.pending.lookup (channel, nonce)

theorem frame_pendingOf_of_keyMask {channel : Str} {m m' : E2eManager}
    (h : Frame keyMask m m') : Frame (pendingOf channel) m m' := by
  have hp := congrArg (pendingOf channel) (show keyMask m' = keyMask m from h)
  exact hp

theorem frame_pendingOf_stash {channel other : Str} (hne : other ≠ channel) (m : E2eManager)
    (nonce : Bytes 16) (ph : PendingHandshake) :
    Frame (pendingOf channel) m { m with pending := m.pending.insert (other, nonce) ph } := by
  show pendingOf channel _ = _
  funext n
  rw [pendingOf, Dict.lookup_insert, if_neg (fun he => hne (congrArg Prod.fst he))]
  rfl

/-- A KEYRSP starts handshakes for its own channel only. -/
theorem serveKeyrsp_pendingOf {channel : Str} (senderHandle : Str) {req : KeyReq}
    (hne : req.channel ≠ channel) :
    Moves (Frame (pendingOf channel)) (serveKeyrsp cr e senderHandle req) := fun m => by
  refine serveKeyrsp_of_key (R := Frame (pendingOf channel)) (fun _ => rfl) (fun _ _ => rfl)
    (fun _ _ => rfl) ?_ ?_
  · exact queueReciprocal_moves (R := Frame (pendingOf channel)) (fun _ => rfl)
      (frame_pendingOf_stash hne) (fun _ _ => rfl) _
  · exact frame_pendingOf_of_keyMask (getOrGenerateOutgoingKey_keyMask req.channel m)

/-- Serving a KEYRSP queues REKEYs only when the key is flagged for rotation, and only for
recipients. -/
theorem serveKeyrsp_queues (senderHandle : Str) (req : KeyReq) (m : E2eManager) :
    QueuesRekeys req.channel
      (fun h => RotationPending m req.channel ∧ IsRecipient m req.channel h) m
      (final (serveKeyrsp cr e senderHandle req) m) := by
  refine serveKeyrsp_of_key (fun _ => .of_eq rfl) (fun _ _ => .of_eq rfl)
    (fun _ _ => .of_eq rfl) ?_ (getOrGenerateOutgoingKey_queues req.channel m)
  exact queueReciprocal_moves (fun _ => .of_eq rfl) (fun _ _ _ => .of_eq rfl)
    (fun _ _ => .of_eq rfl) _

end Repartee.E2eManager
