import Repartee.E2e.Revocation
import Repartee.Irc.Dispatch

/-!
# Reverify

`/e2e reverify` looks for the warning that it is advertised in, but the dispatcher has drained the
warnings to show them, so the command falls back to purging the handle. That neither applies a
changed fingerprint nor removes the row that a known key has under another handle.

## Main results

- `core_of_rejected`: a rejected handshake leaves the trust state alone
- `reverify_never_resolves`: reverifying never resolves the warning
-/

set_option autoImplicit false

namespace Repartee.E2eManager

open Exec

variable {cr : Crates} {e : Env}

/-- The identity that a handshake message carries. -/
def msgPubkey : HandshakeMsg → Bytes 32
  | .req req => req.pubkey
  | .rsp rsp => rsp.pubkey
  | .rekey rekey => rekey.pubkey

/-- A handshake message passes the gates before its classification as `change`. -/
inductive ClassifiedAs (cr : Crates) (e : Env) (m : E2eManager) (handle : Str)
    (change : TrustChange) : HandshakeMsg → Prop where
  | req {req : KeyReq} {mode : ChannelMode} :
      (m.rateLimiter.allowIncoming e.instant handle).1 = true → verifyKeyreq cr req = .ok () →
      effectiveChannelMode cr e m.keyring handle req.channel = .ok (some mode) →
      classifyPeerChange e m.keyring (fingerprint cr req.pubkey) handle = .ok change →
      ClassifiedAs cr e m handle change (.req req)
  | rsp {rsp : KeyRsp} {r : SessionKey × (Str × Bytes 16)} : verifyKeyrsp cr rsp = .ok () →
      matchKeyrsp cr e m.pending rsp = some r →
      classifyPeerChange e m.keyring (fingerprint cr rsp.pubkey) handle = .ok change →
      ClassifiedAs cr e m handle change (.rsp rsp)
  | rekey {rekey : KeyRekey} : verifyRekey cr rekey = .ok () →
      classifyPeerChange e m.keyring (fingerprint cr rekey.pubkey) handle = .ok change →
      ClassifiedAs cr e m handle change (.rekey rekey)

theorem ClassifiedAs.classify {m : E2eManager} {handle : Str} {change : TrustChange}
    {msg : HandshakeMsg} (h : ClassifiedAs cr e m handle change msg) :
    classifyPeerChange e m.keyring (fingerprint cr (msgPubkey msg)) handle = .ok change := by
  cases h <;> assumption

/-! ### A rejected message -/

/-- A handshake message whose classification does not admit it leaves the trust state alone. -/
theorem core_of_rejected {m : E2eManager} {handle nick : Str} {change : TrustChange}
    {msg : HandshakeMsg} (ha : change.admits = false)
    (hc : classifyPeerChange e m.keyring (fingerprint cr (msgPubkey msg)) handle = .ok change) :
    core (step cr m (e, handshakeOp handle nick msg)) = core m := by
  cases msg with
  | req req =>
    have heff := @keyreq_effect cr e m handle (some nick) req
    rw [handshakeOp]
    generalize core (step cr m (e, .keyreq handle (some nick) req)) = c at heff
    have hpin : ∀ k, pinOnKeyreq cr e m.keyring handle (some nick) req ≠ .ok k := by
      intro k hk
      obtain ⟨change', rec, hc', ha', -⟩ := pinOnKeyreq_eq_ok hk
      obtain rfl := Except.ok.inj (hc.symm.trans hc')
      simp [ha] at ha'
    cases heff with
    | kept => rfl
    | pinned hp => exact absurd hp (hpin _)
    | cached had ht => exact absurd had.pinned (hpin _)
  | rsp rsp =>
    have heff := @keyrsp_effect cr e m handle rsp
    rw [handshakeOp]
    generalize core (step cr m (e, .keyrsp handle rsp)) = c at heff
    have hadm : ∀ sk key change', ¬ KeyrspAdmitted cr e m handle rsp sk key change' := by
      intro sk key change' had
      obtain rfl := Except.ok.inj (hc.symm.trans had.classified)
      exact absurd had.admitted (by simp [ha])
    cases heff with
    | kept => rfl
    | pinned had => exact absurd had (hadm _ _ _)
    | installed had hi => exact absurd had (hadm _ _ _)
  | rekey rekey =>
    have heff := @rekey_effect cr e m handle rekey
    rw [handshakeOp]
    generalize core (step cr m (e, .rekey handle rekey)) = c at heff
    cases heff with
    | kept => rfl
    | installed had =>
      obtain rfl := Except.ok.inj (hc.symm.trans had.classified)
      simp [TrustChange.admits] at ha

/-! ### Reverify after the drain -/

/-- The state without the queued warnings of a handle. -/
def withoutNotices (m : E2eManager) (handle : Str) : E2eManager :=
  { m with
    pendingTrustChange := m.pendingTrustChange.filter (fun n => n.handle ≠ handle) }

/-- Without a queued identity change, reverifying purges the handle. -/
theorem run_reverifyPeer_of_none {m : E2eManager} {handle : Str}
    (ha : appliedNotice m.pendingTrustChange handle = none) :
    (E2eManager.reverifyPeer e handle).run m =
      (do
        let deleted ← E2eManager.purgeHandle e handle
        if deleted = 0 then return .notFound else return .cleared deleted :
          M ReverifyOutcome).run (withoutNotices m handle) := by
  unfold E2eManager.reverifyPeer
  rw [bind_of_ok (rfl : (get : M E2eManager).run m = .ok m m)]
  dsimp only
  rw [bind_of_ok (rfl : (set _ : M Unit).run m = .ok () _), ha]
  rfl

/-- Without a queued warning, reverifying applies nothing. -/
theorem reverify_not_applied {m : E2eManager} {handle : Str} {oldFp newFp : Fingerprint}
    (hd : m.pendingTrustChange = []) :
    value? (E2eManager.reverifyPeer e handle) m ≠ some (.applied oldFp newFp) := by
  intro hv
  have hrun := value?_eq_some_iff.mp hv
  rw [run_reverifyPeer_of_none (by rw [hd]; rfl)] at hrun
  obtain ⟨deleted, m', -, hrun⟩ := bind_eq_ok_iff.mp hrun
  split at hrun <;> cases hrun

theorem sweeps_otherPeer {handle : Str} {fp : Fingerprint} {p : PeerRecord}
    (hp : p.lastHandle ≠ some handle) :
    Sweeps (Keeps (fun m => m.keyring.peers.get? fp = some p)) handle where
  peers m peer hat hg := by
    show (m.keyring.peers.deleteWhere _).get? fp = some p
    rw [Table.get?_deleteWhere, hg]
    have hne : p.fingerprint ≠ peer.fingerprint := by
      intro he
      obtain ⟨hmem, hh⟩ := List.mem_filter.mp hat
      have hsame : m.keyring.peers.get? p.fingerprint = some peer :=
        he ▸ Table.get?_of_mem hmem
      have hfp : p.fingerprint = fp := Table.key_of_get? hg
      obtain rfl := Option.some.inj ((hfp ▸ hg).symm.trans hsame)
      exact hp (by simpa using hh)
    simp [Option.filter, hne]
  incoming _ := id
  recipients _ := id
  entries _ := id

/-- Without a queued warning, reverifying keeps a row that is pinned under another handle. -/
theorem reverify_keeps_other {m : E2eManager} {handle : Str} {fp : Fingerprint} {p : PeerRecord}
    (hd : m.pendingTrustChange = []) (hg : m.keyring.peers.get? fp = some p)
    (hp : p.lastHandle ≠ some handle) :
    (final (E2eManager.reverifyPeer e handle) m).keyring.peers.get? fp = some p := by
  rw [final, run_reverifyPeer_of_none (by rw [hd]; rfl)]
  refine ((sweeps_otherPeer hp).purgeHandle.bind (fun deleted => ?_) :
    Moves (Keeps (fun m => m.keyring.peers.get? fp = some p)) _) (withoutNotices m handle) hg
  exact Moves.ite (fun _ => Moves.pure _) (fun _ => Moves.pure _)

/-! ### The warning -/

/-- The changes of identity that a warning advertises `/e2e reverify` for. -/
def Advertised (change : TrustChange) : Prop :=
  (∃ handle oldFp newFp, change = .fingerprintChanged handle oldFp newFp) ∨
    ∃ oldHandle newHandle fp, change = .handleChanged oldHandle newHandle fp

/-- Reverifying the handle, in surroundings `e`, resolves the warning about `change`: later, in
surroundings `e'`, the identity is admitted; a changed fingerprint is applied and pinned. -/
structure ReverifyResolves (e e' : Env) (m : E2eManager) (handle : Str) (fp : Fingerprint)
    (change : TrustChange) : Prop where
  admitted : ∃ change',
    classifyPeerChange e' (final (E2eManager.reverifyPeer e handle) m).keyring fp handle =
      .ok change' ∧ change'.admits = true
  applied : ∀ h oldFp newFp, change = .fingerprintChanged h oldFp newFp →
    value? (E2eManager.reverifyPeer e handle) m = some (.applied oldFp newFp) ∧
      ∃ p, (final (E2eManager.reverifyPeer e handle) m).keyring.peers.get? newFp = some p ∧
        p.lastHandle = some handle ∧ p.globalStatus = .trusted

/-- An admitted identity is pinned at its handle, if it is pinned. -/
theorem lastHandle_of_admits {k : Keyring} {fp : Fingerprint} {handle : Str}
    {change : TrustChange} {p : PeerRecord}
    (hc : classifyPeerChange e k fp handle = .ok change) (ha : change.admits = true)
    (hp : k.peers.get? fp = some p) : p.lastHandle = some handle := by
  cases change with
  | new => simp [(classify_new hc).1] at hp
  | known =>
    obtain ⟨q, hq, hl⟩ := classify_known hc
    obtain rfl := Option.some.inj (hp.symm.trans hq)
    exact hl
  | _ => simp [TrustChange.admits] at ha

/-- **Reverifying never resolves the warning it is advertised in**, whatever the state and the
message. -/
theorem reverify_never_resolves (m : E2eManager) (e e₁ e₂ : Env) (connId nick handle : Str)
    (msg : HandshakeMsg) (change : TrustChange) (hmsg : ClassifiedAs cr e m handle change msg)
    (hchange : Advertised change) :
    ¬ ReverifyResolves e₁ e₂ (final (dispatchMsg cr e connId nick handle msg) m) handle
      (fingerprint cr (msgPubkey msg)) change := by
  intro h
  obtain ⟨outbound, accepts, hfinal⟩ := final_dispatchMsg cr e m connId nick handle msg
  have hdrained :
      (final (dispatchMsg cr e connId nick handle msg) m).pendingTrustChange = [] := by
    rw [hfinal]
  rcases hchange with ⟨h', oldFp, newFp, rfl⟩ | ⟨oldHandle, newHandle, fp, rfl⟩
  · exact reverify_not_applied hdrained (h.applied h' oldFp newFp rfl).1
  · -- the row under the old handle survives the message and the purge
    obtain ⟨p, hp, hl⟩ := classify_handleChanged hmsg.classify
    have hcore := @core_of_rejected cr e m handle nick _ msg rfl hmsg.classify
    have hkept : (final (dispatchMsg cr e connId nick handle msg) m).keyring.peers =
        m.keyring.peers := by
      rw [hfinal]
      exact congrArg Core.peers hcore
    have hp' := reverify_keeps_other (e := e₁) hdrained (hkept ▸ hp) hl
    obtain ⟨change', hc, ha⟩ := h.admitted
    exact hl (lastHandle_of_admits hc ha hp')

/-- A run after which the stranger's handle is pinned. -/
def pinnedRun : List Input :=
  [(sampleEnv 1000 0, .setChannelConfig ⟨str "#rust", true, .normal⟩), strangerKeyreq 1001]

/-- A KEYREQ of another identity for the same channel. -/
def otherKeyreq : KeyReq :=
  Sample.keyreq (Bytes.fill 32 8) (str "#rust") (Bytes.fill 32 1) (Bytes.fill 16 2)

set_option maxRecDepth 100000 in
/-- A new fingerprint under the stranger's handle. -/
theorem reverify_never_resolves_new_key :
    ¬ ReverifyResolves (sampleEnv 1200 0) (sampleEnv 1300 0)
      (final (dispatchMsg sample (sampleEnv 1100 0) (str "libera") (str "eve") (str "eve@host")
        (.req otherKeyreq)) (runOps sample newcomer pinnedRun)) (str "eve@host")
      (fingerprint sample (Bytes.fill 32 8))
      (.fingerprintChanged (str "eve@host") (fingerprint sample (Bytes.fill 32 7))
        (fingerprint sample (Bytes.fill 32 8))) := by
  refine @reverify_never_resolves sample _ _ _ _ _ (str "eve") _ (.req otherKeyreq) _
    (@ClassifiedAs.req _ _ _ _ _ _ .normal ?_ ?_ ?_ ?_) (.inl ⟨_, _, _, rfl⟩) <;> decide +kernel

set_option maxRecDepth 100000 in
/-- The stranger's key under another handle is still rejected after `/e2e reverify`. -/
theorem known_key_is_rejected_again :
    let m := runOps sample newcomer pinnedRun
    let req := Sample.keyreq (Bytes.fill 32 7) (str "#rust") (Bytes.fill 32 1) (Bytes.fill 16 2)
    let fp := fingerprint sample (Bytes.fill 32 7)
    let change := .handleChanged (str "eve@host") (str "eve@vpn") fp
    ClassifiedAs sample (sampleEnv 1100 0) m (str "eve@vpn") change (.req req) ∧
      ¬ ReverifyResolves (sampleEnv 1200 0) (sampleEnv 1300 0)
        (final (dispatchMsg sample (sampleEnv 1100 0) (str "libera") (str "eve") (str "eve@vpn")
          (.req req)) m) (str "eve@vpn") fp change := by
  refine ⟨@ClassifiedAs.req _ _ _ _ _ _ .normal (by decide +kernel) (by decide +kernel) (by decide +kernel)
    (by decide +kernel), fun h => ?_⟩
  obtain ⟨change', hc, ha⟩ := h.admitted
  have hstill : classifyPeerChange (sampleEnv 1300 0)
      (final (E2eManager.reverifyPeer (sampleEnv 1200 0) (str "eve@vpn"))
        (final (dispatchMsg sample (sampleEnv 1100 0) (str "libera") (str "eve") (str "eve@vpn")
          (.req (Sample.keyreq (Bytes.fill 32 7) (str "#rust") (Bytes.fill 32 1)
            (Bytes.fill 16 2)))) (runOps sample newcomer pinnedRun))).keyring
      (fingerprint sample (Bytes.fill 32 7)) (str "eve@vpn") =
        .ok (.handleChanged (str "eve@host") (str "eve@vpn")
          (fingerprint sample (Bytes.fill 32 7))) := by decide +kernel
  obtain rfl := Except.ok.inj (hc.symm.trans hstill)
  exact absurd ha (by decide)

end Repartee.E2eManager
