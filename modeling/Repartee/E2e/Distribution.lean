import Repartee.E2e.Encryption

/-!
# What a rotation queues

The distribution loop of `get_or_generate_outgoing_key` visits the recipients of a channel in
order. It stops at the first one whose peer row cannot be read, and passes over the ones without
a peer row or with an unusable public key.

## Main definitions

- `Keyring.deliverable`: a REKEY can be built for a recipient
- `reached`, `rotationTargets`: the recipients that a rotation queues REKEYs for

## Main results

- `targets_encryptOutgoing`: an encryption queues REKEYs for exactly these
-/

set_option autoImplicit false

namespace Repartee

/-- A REKEY can be built for the identity with a fingerprint. -/
def Keyring.deliverable (cr : Crates) (k : Keyring) (fp : Fingerprint) : Bool :=
  (k.peers.get? fp).any (fun peer => (cr.edDecode peer.pubkey).isOk)

/-- The recipients before the first one whose peer row cannot be read. -/
def reached (e : Env) (recipients : List (Str × Fingerprint)) : List (Str × Fingerprint) :=
  recipients.takeWhile (fun r => (e.fault (.again (.again (.getPeerByFingerprint r.2)))).isNone)

/-- The handles that the distribution of a channel's fresh key queues REKEYs for. -/
def distributionTargets (cr : Crates) (e : Env) (k : Keyring) (channel : Str) : List Str :=
  if e.fault .listOutgoingRecipients = none then
    ((reached e ((k.recipientsOf channel).map (fun q => (q.handle, q.fingerprint)))).filter
      (fun r => k.deliverable cr r.2)).map Prod.fst
  else []

namespace E2eManager

open Exec

variable {cr : Crates} {e : Env}

/-- The targets in the REKEY queue. -/
def queuedTargets (m : E2eManager) : List Str :=
  m.pendingRekeySends.map PendingRekeySend.targetHandle

/-- The part of the state that the distribution reads and the queue it writes. -/
def distributionView (m : E2eManager) : Keyring × List PendingRekeySend :=
  (m.keyring, m.pendingRekeySends)

/-- A REKEY can be built for a peer if and only if its public key is valid. -/
theorem returns_buildRekeyForPeer_iff (hcr : cr.Honest) {channel : Str} {peer : PeerRecord}
    {newSk : SessionKey} {m : E2eManager} :
    Returns (buildRekeyForPeer cr e channel peer newSk) m ↔
      (cr.edDecode peer.pubkey).isOk = true := by
  have hdraw : (draw e 32).run m = .ok (e.random m.draws 32) (drawn m) := rfl
  unfold buildRekeyForPeer
  rw [returns_bind_of_ok hdraw]
  cases hdec : cr.edDecode peer.pubkey with
  | error err =>
    have hpub : Ecdh.ed25519PubToX25519 cr peer.pubkey =
        .error (.crypto (str "invalid ed25519 pub: " ++ err)) := by
      simp [Ecdh.ed25519PubToX25519, hdec]
    refine iff_of_false ?_ (by simp [Except.isOk, Except.toBool])
    rintro ⟨rk, m', h⟩
    obtain ⟨pub, m₁, hlift, -⟩ := bind_eq_ok_iff.mp h
    rw [hpub] at hlift
    simp [run_lift_error] at hlift
  | ok u =>
    have hpub : Ecdh.ed25519PubToX25519 cr peer.pubkey = .ok (cr.edMontgomery peer.pubkey) := by
      simp [Ecdh.ed25519PubToX25519, hdec]
    refine iff_of_true ?_ rfl
    rw [hpub, returns_bind_of_ok (run_lift_ok _ _)]
    dsimp only
    obtain ⟨ct, hct⟩ := hcr.aead_encrypt
      (deriveWrapKey cr (e.random m.draws 32) (cr.edMontgomery peer.pubkey)
        (Utf8.encode (rekeyInfo channel)))
      (e.random (m.draws + 1) 24) (Utf8.encode (rekeyInfo channel)) newSk.1
    rw [returns_bind_of_ok (run_aeadEncrypt_eq_ok_iff.mpr
      (show _ ∧ ((e.random (m.draws + 1) 24, ct) : Nonce × List UInt8).1 = _ ∧ _ from
        ⟨hct, rfl, rfl⟩))]
    exact ⟨_, _, rfl⟩

/-- One round of the loop. -/
theorem distributeTo_targets (hcr : cr.Honest) (channel : Str) (fresh : SessionKey)
    (r : Str × Fingerprint) (m : E2eManager) :
    let m' := final (distributeTo cr e channel fresh r) m
    m'.keyring = m.keyring ∧
      queuedTargets m' = queuedTargets m ++
        if (e.fault (.again (.again (.getPeerByFingerprint r.2)))).isNone &&
          m.keyring.deliverable cr r.2 then [r.1] else [] := by
  intro m'
  cases hf : e.fault (.again (.again (.getPeerByFingerprint r.2))) with
  | some err =>
    have hm' : m' = m := by
      have hget : m.keyring.getPeerByFingerprint e.again.again r.2 = .error err := by
        simp [Keyring.getPeerByFingerprint, Env.exec, Env.again, hf]
      exact final_bind_of_error (run_ask_of_error hget)
    rw [hm']
    simp
  | none =>
    have hget : m.keyring.getPeerByFingerprint e.again.again r.2 =
        .ok (m.keyring.peers.get? r.2) := Env.exec_eq_ok_iff.mpr ⟨hf, rfl⟩
    have hm' : m' = _ := final_bind_of_ok (run_ask_of_ok hget)
    unfold Keyring.deliverable
    cases hp : m.keyring.peers.get? r.2 with
    | none =>
      rw [hp] at hm'
      rw [hm']
      simp
    | some peer =>
      rw [hp] at hm'
      have hview : Frame distributionView m
          (final (buildRekeyForPeer cr e channel peer fresh) m) :=
        buildRekeyForPeer_draws (R := Frame distributionView) (fun _ => rfl) channel peer fresh m
      have hret := @returns_buildRekeyForPeer_iff cr e hcr channel peer fresh m
      cases hrun : (buildRekeyForPeer cr e channel peer fresh).run m with
      | ok rk m₁ =>
        rw [final_of_ok hrun] at hview
        obtain ⟨hk, hq⟩ := Prod.mk.inj hview
        have hok := hret.mp ⟨rk, m₁, hrun⟩
        rw [final_bind_of_ok (by rw [run_attempt, hrun])] at hm'
        rw [hm']
        simp [hok, queuedTargets, hk, hq]
      | error err m₁ =>
        rw [final_of_error hrun] at hview
        obtain ⟨hk, hq⟩ := Prod.mk.inj hview
        have hno : (cr.edDecode peer.pubkey).isOk = false := by
          rw [Bool.eq_false_iff]
          intro hok
          obtain ⟨rk, m₂, hrun'⟩ := hret.mpr hok
          simp [hrun] at hrun'
        rw [final_bind_of_ok (by rw [run_attempt, hrun])] at hm'
        rw [hm']
        simp [hno, queuedTargets, hk, hq]

/-- The loop visits the recipients that it reaches. -/
theorem distributeLoop_targets (hcr : cr.Honest) (channel : Str) (fresh : SessionKey)
    (recipients : List (Str × Fingerprint)) (m : E2eManager) :
    let m' := final (recipients.forM (distributeTo cr e channel fresh)) m
    m'.keyring = m.keyring ∧
      queuedTargets m' = queuedTargets m ++
        ((reached e recipients).filter (fun r => m.keyring.deliverable cr r.2)).map Prod.fst := by
  induction recipients generalizing m with
  | nil => exact ⟨rfl, by simp [reached]⟩
  | cons r rest ih =>
    obtain ⟨hk, hq⟩ := distributeTo_targets (e := e) hcr channel fresh r m
    have hret := @returns_distributeTo_iff cr e channel fresh r m
    show (final (distributeTo cr e channel fresh r >>= fun _ => rest.forM _) m).keyring = _ ∧ _
    cases hf : e.fault (.again (.again (.getPeerByFingerprint r.2))) with
    | some err =>
      -- the loop ends here
      cases hrun : (distributeTo cr e channel fresh r).run m with
      | ok u m₁ =>
        have hnone := hret.mp ⟨u, m₁, hrun⟩
        simp [hf] at hnone
      | error err' m₁ =>
        rw [final_of_error hrun] at hk hq
        have hfin : final ((r :: rest).forM (distributeTo cr e channel fresh)) m = m₁ :=
          final_bind_of_error hrun
        refine ⟨(congrArg E2eManager.keyring (final_bind_of_error hrun)).trans hk, ?_⟩
        rw [hfin, hq]
        simp [reached, hf]
    | none =>
      obtain ⟨u, m₁, hrun⟩ := hret.mpr hf
      rw [final_of_ok hrun] at hk hq
      obtain ⟨hk', hq'⟩ := ih m₁
      have hfin : final ((r :: rest).forM (distributeTo cr e channel fresh)) m =
          final (rest.forM (distributeTo cr e channel fresh)) m₁ := final_bind_of_ok hrun
      refine ⟨(congrArg E2eManager.keyring (final_bind_of_ok hrun)).trans (hk'.trans hk), ?_⟩
      rw [hfin, hq', hq, hk]
      simp only [reached, hf, Option.isNone_none, Bool.true_and, List.takeWhile_cons_of_pos,
        List.append_assoc, List.filter_cons]
      split <;> rfl

theorem distributeRekeys_targets (hcr : cr.Honest) (channel : Str) (fresh : SessionKey)
    (m : E2eManager) :
    queuedTargets (final (distributeRekeys cr e channel fresh) m) =
      queuedTargets m ++ distributionTargets cr e m.keyring channel := by
  unfold distributeRekeys distributionTargets
  cases hf : e.fault .listOutgoingRecipients with
  | some err =>
    have hlist : m.keyring.listOutgoingRecipients e channel = .error err := by
      simp [Keyring.listOutgoingRecipients, Env.exec, hf]
    rw [final_bind_of_error (run_ask_of_error hlist)]
    simp
  | none =>
    have hlist : m.keyring.listOutgoingRecipients e channel =
        .ok ((m.keyring.recipientsOf channel).map (fun q => (q.handle, q.fingerprint))) :=
      Env.exec_eq_ok_iff.mpr ⟨hf, rfl⟩
    rw [final_bind_of_ok (run_ask_of_ok hlist), if_pos rfl]
    exact (distributeLoop_targets hcr channel fresh _ m).2

/-- The statements that storing a fresh key needs do not fail. -/
def KeyStored (e : Env) : Prop :=
  e.fault .getOutgoingSession = none ∧ e.fault (.again .getOutgoingSession) = none ∧
    e.fault .setOutgoingSession = none

instance (e : Env) : Decidable (KeyStored e) := inferInstanceAs (Decidable (_ ∧ _ ∧ _))

/-- The handles that fetching the key of a channel queues REKEYs for. -/
def rotationTargets (cr : Crates) (e : Env) (m : E2eManager) (channel : Str) : List Str :=
  if RotationPending m channel ∧ KeyStored e then distributionTargets cr e m.keyring channel
  else []

/-- Without a pending rotation, or with a failing statement, no REKEY is queued. -/
theorem rekeys_getOrGenerateOutgoingKey_of_not {channel : Str} {m : E2eManager}
    (h : ¬ (RotationPending m channel ∧ KeyStored e)) :
    (final (getOrGenerateOutgoingKey cr e channel) m).pendingRekeySends =
      m.pendingRekeySends := by
  have hframe : Frame E2eManager.pendingRekeySends m
      (final (getOrGenerateOutgoingKey cr e channel) m) := by
    refine rel_final_query_bind (fun sess hsess => ?_)
    have hget := (Env.exec_eq_ok_iff.mp hsess).1
    dsimp only
    split
    · exact Moves.pure _ m
    · refine rel_final_query_bind (fun sess' hsess' => ?_)
      obtain ⟨hagain, rfl⟩ := Env.exec_eq_ok_iff.mp hsess'
      refine rel_final_bind rfl (fun fresh m₁ hm₁ => ?_)
      cases hm₁
      refine rel_final_bind ?_ (fun _ m₂ hm₂ => ?_)
      · rw [final_tell]
        split <;> rfl
      obtain ⟨k, hk, rfl⟩ := run_tell_eq_ok_iff.mp hm₂
      obtain ⟨hset, rfl⟩ := Env.exec_eq_ok_iff.mp hk
      -- every statement has succeeded, so the key was not flagged
      have hnot : ¬ RotationPending m channel := fun hp => h ⟨hp, hget, hagain, hset⟩
      refine rel_final_bind ?_ (fun _ m₃ _ => Moves.pure _ m₃)
      rw [final_runIf]
      split
      · rename_i hrot
        exact absurd hrot hnot
      · rfl
  exact hframe

theorem getOrGenerateOutgoingKey_targets (hcr : cr.Honest) (channel : Str) (m : E2eManager) :
    queuedTargets (final (getOrGenerateOutgoingKey cr e channel) m) =
      queuedTargets m ++ rotationTargets cr e m channel := by
  unfold rotationTargets
  by_cases hrot : RotationPending m channel ∧ KeyStored e
  · obtain ⟨hpending, hget, hagain, hset⟩ := hrot
    rw [if_pos ⟨hpending, hget, hagain, hset⟩]
    have hrun := @run_getOrGenerateOutgoingKey_of_minted cr e m channel
      (usableSession_of_rotationPending hpending) hget hagain hset
    have hfin : final (getOrGenerateOutgoingKey cr e channel) m =
        final (finishMint cr e m channel) (minted e m channel) := by
      rw [final, hrun, ← final]
    rw [hfin, finishMint, final_bind_pure, final_runIf,
      if_pos (show _ = true from hpending), distributeRekeys_targets hcr]
    rfl
  · rw [if_neg hrot, List.append_nil]
    exact congrArg (List.map _) (rekeys_getOrGenerateOutgoingKey_of_not hrot)

/-- After its key lookup, an encryption queues nothing. -/
theorem targets_encryptOutgoing (hcr : cr.Honest) (channel text : Str) (m : E2eManager) :
    queuedTargets (final (encryptOutgoing cr e channel text) m) =
      queuedTargets m ++ rotationTargets cr e m channel := by
  have hafter : Frame queuedTargets (final (getOrGenerateOutgoingKey cr e channel) m)
      (final (encryptOutgoing cr e channel text) m) :=
    encryptOutgoing_after_key (R := Frame queuedTargets) (fun _ => rfl) channel text m
  exact hafter.trans (getOrGenerateOutgoingKey_targets hcr channel m)

end E2eManager

end Repartee
