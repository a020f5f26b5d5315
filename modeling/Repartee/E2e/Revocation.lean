import Repartee.E2e.Consent

/-!
# Revocation

A revoked session row survives a step unless the step is one of the user's commands that lift the
revocation, or a handshake that overwrites the row because only its fingerprint is compared. Our
key still reaches the peer when an AutoAccept channel serves its KEYREQ, or when a rotation finds
its recipient row.

## Main results

- `revocation_step`: what one step keeps of a revocation
- `revocation_holds`: the runs in which a revocation holds
-/

set_option autoImplicit false

namespace Repartee.E2eManager

open Exec

variable {cr : Crates} {e : Env}

/-- The session row of a handle on a channel is `s`. -/
def HasRow (handle channel : Str) (s : IncomingSession) (m : E2eManager) : Prop :=
  (core m).incoming.get? (handle, channel) = some s

/-- The queued REKEYs of a channel for a handle. -/
def rekeysFor (channel handle : Str) (m : E2eManager) : List PendingRekeySend :=
  m.pendingRekeySends.filter (fun q => q.rekey.channel = channel && q.targetHandle = handle)

/-- The user's commands that lift a revocation. -/
def UserLifts (handle channel : Str) : Op → Prop
  | .updateIncomingStatus h c status => h = handle ∧ c = channel ∧ status ≠ .revoked
  | .acceptPendingInbound h c => h = handle ∧ c = channel
  | .reverifyPeer h => h = handle
  | .forgetPeerOnChannel h c => h = handle ∧ c = channel
  | .forgetPeerEverywhere h => h = handle
  | .importAll _ => True
  | _ => False

/-- The steps that fetch our key of a channel. -/
inductive FetchesKey (cr : Crates) (channel : Str) (m : E2eManager) : Input → Prop where
  | typed (e : Env) (text : Str) : FetchesKey cr channel m (e, .encryptOutgoing channel text)
  | served {e : Env} {h : Str} {nick : Option Str} {req : KeyReq} {mode : ChannelMode}
      {k : Keyring} : req.channel = channel → KeyreqAdmitted cr e m h nick req mode k →
      (mode = .autoAccept ∨ trustedRow (m.keyring.incoming.get? (h, req.channel)) = true) →
      FetchesKey cr channel m (e, .keyreq h nick req)
  | accepted (e : Env) (h : Str) : FetchesKey cr channel m (e, .acceptPendingInbound h channel)

/-- The steps that undo a revocation without the user: the row is overwritten, a KEYREQ is served
under AutoAccept, or a rotation runs while the peer is still a recipient. -/
inductive Undoes (cr : Crates) (handle channel : Str) (m : E2eManager) : Input → Prop where
  | served {e : Env} {nick : Option Str} {req : KeyReq} {k : Keyring} : req.channel = channel →
      KeyreqAdmitted cr e m handle nick req .autoAccept k →
      Undoes cr handle channel m (e, .keyreq handle nick req)
  | cached {e : Env} {nick : Option Str} {req : KeyReq} {k k' : Keyring} :
      req.channel = channel → KeyreqAdmitted cr e m handle nick req .normal k →
      k.installIncomingSessionStrict e cr (placeholder cr e handle req) = .ok k' →
      Undoes cr handle channel m (e, .keyreq handle nick req)
  | keyrsp {e : Env} {rsp : KeyRsp} {sk : SessionKey} {key : Str × Bytes 16}
      {change : TrustChange} {k : Keyring} : rsp.channel = channel →
      KeyrspAdmitted cr e m handle rsp sk key change →
      (m.keyring.putPeer (responder cr e handle rsp)).installIncomingSessionStrict e cr
        (rspSession cr e handle rsp sk) = .ok k →
      Undoes cr handle channel m (e, .keyrsp handle rsp)
  | rekey {e : Env} {rekey : KeyRekey} {sk : SessionKey} {k : Keyring} :
      rekey.channel = channel → RekeyAdmitted cr e m handle rekey sk k →
      Undoes cr handle channel m (e, .rekey handle rekey)
  | rotated {i : Input} : FetchesKey cr channel m i → RotationPending m channel →
      IsRecipient m channel handle → Undoes cr handle channel m i

/-- What is promised of a revoked session at one step. -/
structure RevocationHolds (cr : Crates) (handle channel : Str) (m : E2eManager) (i : Input) :
    Prop where
  status : ∃ s, (step cr m i).keyring.incoming.get? (handle, channel) = some s ∧
    s.status = .revoked
  unread : ∀ e line wire text, WireChunk.parse cr line = .ok (some wire) →
    decryptIncoming cr e (step cr m i) handle channel line ≠ .ok (.plaintext text)
  unserved : ∀ nick req rsp, i.2 = .keyreq handle nick req → req.channel = channel →
    value? (handleKeyreqWithNick cr i.1 handle nick req) m ≠ some (some rsp)
  unrekeyed : rekeysFor channel handle (step cr m i) = rekeysFor channel handle m ∨
    rekeysFor channel handle (step cr m i) = []

/-! ### The row -/

section

variable {handle channel : Str} {s : IncomingSession}

theorem row_replace_ne {t : Sessions} {s' : IncomingSession}
    (hne : ¬ (s'.handle = handle ∧ s'.channel = channel)) :
    (t.replace s').get? (handle, channel) = t.get? (handle, channel) := by
  refine Table.get?_replace_ne t (fun hk => hne ?_)
  exact Prod.mk.inj hk

theorem row_deleteWhere {t : Sessions} {p : IncomingSession → Bool}
    (h : t.get? (handle, channel) = some s) (hp : p s = false) :
    (t.deleteWhere p).get? (handle, channel) = some s := by
  rw [Table.get?_deleteWhere, h]
  simp [Option.filter, hp]

theorem key_of_row {t : Sessions} (h : t.get? (handle, channel) = some s) :
    s.handle = handle ∧ s.channel = channel :=
  Prod.mk.inj ((Table.get?_eq_some_iff t _ s).mp h).2

theorem sweeps_hasRow {other : Str} (hne : other ≠ handle) :
    Sweeps (Keeps (HasRow handle channel s)) other where
  peers _ _ _ := id
  incoming m h := by
    refine row_deleteWhere h ?_
    simpa [(key_of_row h).1] using Ne.symm hne
  recipients _ := id
  entries _ := id

theorem row_updateStatus {t : Sessions} {h c : Str} {status : TrustStatus}
    (hs : t.get? (handle, channel) = some s) (hrev : s.status = .revoked)
    (hst : ¬ (h = handle ∧ c = channel ∧ status ≠ .revoked)) :
    (t.updateWhere (fun s => s.handle = h && s.channel = c)
      (fun s => { s with status := status }) (fun _ => rfl)).get? (handle, channel) = some s := by
  obtain ⟨hh, hc⟩ := key_of_row hs
  rw [Table.get?_updateWhere, hs, Option.map_some]
  by_cases hsel : s.handle = h ∧ s.channel = c
  · obtain ⟨rfl, rfl⟩ := hsel
    have hstatus : status = s.status := by
      rw [hrev]
      by_contra hne
      exact hst ⟨hh, hc, hne⟩
    subst hstatus
    simp
  · simp only [Bool.and_eq_true, decide_eq_true_eq, hsel, if_false]

/-- A revoked row survives every step that neither the user nor a handshake undoes it with. -/
theorem hasRow_step {m : E2eManager} {i : Input} (h : HasRow handle channel s m)
    (hrev : s.status = .revoked) (hu : ¬ UserLifts handle channel i.2)
    (hn : ¬ Undoes cr handle channel m i) : HasRow handle channel s (step cr m i) := by
  obtain ⟨e, op⟩ := i
  unfold HasRow
  cases op with
  | keyreq hd nick req =>
    have heff := @keyreq_effect cr e m hd nick req
    generalize core (step cr m (e, .keyreq hd nick req)) = c at heff
    cases heff with
    | kept => exact h
    | pinned hp => exact h
    | @cached k had ht =>
      have hk : k.incoming = m.keyring.incoming := by
        obtain ⟨change, rec, -, -, -, -, rfl⟩ := pinOnKeyreq_eq_ok had.pinned
        rfl
      show (installed cr e k (placeholder cr e hd req)).incoming.get? (handle, channel) = some s
      unfold installed
      cases hi : k.installIncomingSessionStrict e cr (placeholder cr e hd req) with
      | error err => exact hk ▸ h
      | ok k' =>
        have hne : ¬ (hd = handle ∧ req.channel = channel) := by
          rintro ⟨rfl, rfl⟩
          exact hn (.cached rfl had hi)
        obtain ⟨rfl, -⟩ := install_eq_ok hi
        exact (row_replace_ne hne).trans (hk ▸ h)
  | keyrsp hd rsp =>
    have heff := @keyrsp_effect cr e m hd rsp
    generalize core (step cr m (e, .keyrsp hd rsp)) = c at heff
    cases heff with
    | kept => exact h
    | pinned had => exact h
    | installed had hi =>
      have hne : ¬ (hd = handle ∧ rsp.channel = channel) := by
        rintro ⟨rfl, rfl⟩
        exact hn (.keyrsp rfl had hi)
      exact (row_replace_ne hne).trans h
  | rekey hd rekey =>
    have heff := @rekey_effect cr e m hd rekey
    generalize core (step cr m (e, .rekey hd rekey)) = c at heff
    cases heff with
    | kept => exact h
    | installed had =>
      have hne : ¬ (hd = handle ∧ rekey.channel = channel) := by
        rintro ⟨rfl, rfl⟩
        exact hn (.rekey rfl had)
      exact (row_replace_ne hne).trans h
  | acceptPendingInbound hd c =>
    have heff := @accept_effect cr e m hd c
    generalize core (step cr m (e, .acceptPendingInbound hd c)) = c at heff
    cases heff <;> exact h
  | reverifyPeer hd =>
    rw [step, Op.exec, final_discard]
    exact (sweeps_hasRow hu).reverifyPeer (fun _ _ => id) (fun _ _ => id) (fun _ _ => id) m h
  | forgetPeerOnChannel hd c =>
    obtain ⟨incoming, inbound, hc, hi, -⟩ := @forgetOn_effect cr e m hd c
    rw [hc]
    rcases hi with rfl | rfl
    · exact h
    · refine row_deleteWhere h ?_
      obtain ⟨rfl, rfl⟩ := key_of_row h
      have hne : ¬ (s.handle = hd ∧ s.channel = c) := fun hk => hu ⟨hk.1.symm, hk.2.symm⟩
      simpa using hne
  | forgetPeerEverywhere hd =>
    rw [step, Op.exec, final_discard]
    exact (sweeps_hasRow hu).purgeHandle m h
  | updateIncomingStatus hd c status =>
    rcases @status_effect cr e m hd c status with hc | hc
    · exact hc ▸ h
    · rw [hc]
      exact row_updateStatus h hrev hu
  | importAll rows => exact absurd trivial hu
  | _ =>
    rw [core_step_of_silent (by trivial)]
    exact h

end

/-! ### The REKEY queue -/

section

variable {handle channel : Str}

theorem rekeysFor_of_queues {c : Str} {P : Str → Prop} {m m' : E2eManager}
    (hq : QueuesRekeys c P m m') (hne : c = channel → ¬ P handle) :
    rekeysFor channel handle m' = rekeysFor channel handle m := by
  obtain ⟨sent, hs, hP⟩ := hq
  have hnil : sent.filter
      (fun q => q.rekey.channel = channel && q.targetHandle = handle) = [] := by
    refine List.filter_eq_nil_iff.mpr (fun q hq hsel => ?_)
    simp only [Bool.and_eq_true, decide_eq_true_eq] at hsel
    obtain ⟨hc, hPq⟩ := hP q hq
    exact hne (hc.symm.trans hsel.1) (hsel.2 ▸ hPq)
  rw [rekeysFor, rekeysFor, hs, List.filter_append, hnil, List.append_nil]

theorem rekeysFor_serve {senderHandle : Str} {req : KeyReq} {m : E2eManager}
    (hn : req.channel = channel →
      ¬ (RotationPending m req.channel ∧ IsRecipient m req.channel handle)) :
    rekeysFor channel handle
        (final (do return some (← serveKeyrsp cr e senderHandle req) : M (Option KeyRsp)) m) =
      rekeysFor channel handle m := by
  rw [final_bind_pure]
  exact rekeysFor_of_queues (serveKeyrsp_queues senderHandle req m) hn

theorem sends_warned (m : E2eManager) (h c : Str) (pubkey : Bytes 32) :
    (warned cr e m h c pubkey).pendingRekeySends = m.pendingRekeySends := by
  unfold warned
  split
  · split <;> rfl
  · rfl

theorem sweeps_rekeysFor (other : Str) : Sweeps (Frame (rekeysFor channel handle)) other where
  peers _ _ _ := rfl
  incoming _ := rfl
  recipients _ := rfl
  entries _ := rfl

/-- A step queues no REKEY of a channel for a handle, unless it rotates the channel's key while
the handle is a recipient. -/
theorem rekeysFor_step {m : E2eManager} {i : Input} (hf : InboundFiled m)
    (hn : ¬ (FetchesKey cr channel m i ∧ RotationPending m channel ∧
      IsRecipient m channel handle)) :
    rekeysFor channel handle (step cr m i) = rekeysFor channel handle m ∨
      rekeysFor channel handle (step cr m i) = [] := by
  obtain ⟨e, op⟩ := i
  cases op with
  | takePendingRekeySends => exact .inr rfl
  | keyreq h nick req =>
    refine .inl ?_
    rw [step, Op.exec, final_discard, final]
    have hrun := @run_handleKeyreq cr e m h nick req
    generalize (handleKeyreqWithNick cr e h nick req).run m = r at hrun
    cases hrun with
    | @served mode k had ht =>
      have hserve := @rekeysFor_serve cr e handle channel h req
        { limited e m h with keyring := k }
      obtain ⟨change, rec, -, -, -, -, rfl⟩ := pinOnKeyreq_eq_ok had.pinned
      refine (hserve ?_).trans rfl
      rintro rfl ⟨hrot, hrec⟩
      exact hn ⟨.served rfl had ht, hrot, hrec⟩
    | rejected err =>
      exact congrArg (List.filter _) (sends_warned (limited e m h) _ _ _)
    | _ => rfl
  | keyrsp h rsp =>
    refine .inl ?_
    rw [step, Op.exec, final]
    have hrun := @run_handleKeyrsp cr e m h rsp
    generalize (handleKeyrsp cr e h rsp).run m = r at hrun
    cases hrun <;> rfl
  | rekey h rekey =>
    refine .inl ?_
    rw [step, Op.exec, final]
    have hrun := @run_handleRekey cr e m h rekey
    generalize (handleRekey cr e h rekey).run m = r at hrun
    cases hrun <;> rfl
  | encryptOutgoing c text =>
    refine .inl ?_
    rw [step, Op.exec, final_discard]
    refine rekeysFor_of_queues (encryptOutgoing_queues c text m) ?_
    rintro rfl ⟨hrot, hrec⟩
    exact hn ⟨.typed e text, hrot, hrec⟩
  | acceptPendingInbound h c =>
    refine .inl ?_
    rw [step, Op.exec, final_discard, final]
    have hrun := @run_acceptPendingInbound cr e m h c
    generalize (acceptPendingInbound cr e h c).run m = r at hrun
    cases hrun with
    | @served req rec hl hfp hh =>
      have hserve := @rekeysFor_serve cr e handle channel h req { m with
        pendingInbound := m.pendingInbound.erase (h, c)
        keyring := m.keyring.putPeer rec }
      refine (hserve ?_).trans rfl
      rintro rfl ⟨hrot, hrec⟩
      have hc : req.channel = c := hf _ _ hl
      subst hc
      exact hn ⟨.accepted e h, hrot, hrec⟩
    | _ => rfl
  | buildKeyreq c peer =>
    refine .inl ?_
    rw [step, Op.exec, final_discard]
    exact buildKeyreqForPeer_moves (R := Frame (rekeysFor channel handle)) (fun _ => rfl)
      (fun _ _ _ => rfl) peer m
  | reverifyPeer h =>
    refine .inl ?_
    rw [step, Op.exec, final_discard]
    exact (sweeps_rekeysFor h).reverifyPeer (fun _ _ => rfl) (fun _ _ => rfl)
      (fun _ _ => rfl) m
  | forgetPeerOnChannel h c =>
    refine .inl ?_
    rw [step, Op.exec, final_discard]
    refine (moves_ask (R := Frame (rekeysFor channel handle)) _).bind (fun sess => ?_) m
    refine Moves.bind (Moves.runIf (fun _ => moves_tell (fun _ _ _ => rfl))) (fun _ => ?_)
    exact Moves.bind (Moves.modifyGet (fun _ => rfl)) (fun _ => Moves.pure _)
  | forgetPeerEverywhere h =>
    refine .inl ?_
    rw [step, Op.exec, final_discard]
    exact (sweeps_rekeysFor h).purgeHandle m
  | ciphertext h c line =>
    refine .inl ?_
    rw [step, Op.exec, final_discard, final_query]
  | updateIncomingStatus | removeOutgoingRecipient | markOutgoingPendingRotation
  | setChannelConfig | addAutotrust | removeAutotrust | importAll =>
    refine .inl ?_
    rw [step, Op.exec]
    exact moves_tell (R := Frame (rekeysFor channel handle)) (fun _ _ _ => rfl) m
  | _ => exact .inl rfl

end

/-! ### Runs -/

/-- A wire line of a session that is not trusted is never shown. -/
theorem decryptIncoming_of_not_trusted {m : E2eManager} {handle channel line text : Str}
    {s : IncomingSession} {wire : WireChunk} (hs : HasRow handle channel s m)
    (hst : s.status ≠ .trusted) (hw : WireChunk.parse cr line = .ok (some wire)) :
    decryptIncoming cr e m handle channel line ≠ .ok (.plaintext text) := by
  intro h
  have hg : m.keyring.incoming.get? (handle, channel) = some s := hs
  simp only [decryptIncoming, hw, bind, Except.bind, Keyring.getIncomingSession, hg, Env.exec,
    pure, Except.pure] at h
  split at h
  · simp at h
  · cases hf : e.fault .getIncomingSession <;> simp [hf, hst] at h

/-- A KEYREQ on a revoked session is not served, unless the channel is in AutoAccept mode. -/
theorem unserved_of_revoked {m : E2eManager} {handle : Str} {nick : Option Str} {req : KeyReq}
    {rsp : KeyRsp} {s : IncomingSession} (hs : HasRow handle req.channel s m)
    (hrev : s.status = .revoked)
    (hn : ¬ Undoes cr handle req.channel m (e, .keyreq handle nick req)) :
    value? (handleKeyreqWithNick cr e handle nick req) m ≠ some (some rsp) := by
  intro hv
  have hrun := @run_handleKeyreq cr e m handle nick req
  rw [value?] at hv
  generalize (handleKeyreqWithNick cr e handle nick req).run m = r at hrun hv
  cases hrun with
  | served had ht =>
    rcases ht with rfl | ht
    · exact hn (.served rfl had)
    · have hg : m.keyring.incoming.get? (handle, req.channel) = some s := hs
      simp [trustedRow, hg, hrev] at ht
  | _ => simp at hv

/-- What one step keeps of a revocation. -/
theorem revocation_step {m : E2eManager} {i : Input} {handle channel : Str}
    {s : IncomingSession} (hs : HasRow handle channel s m) (hrev : s.status = .revoked)
    (hf : InboundFiled m) (hu : ¬ UserLifts handle channel i.2)
    (hn : ¬ Undoes cr handle channel m i) : RevocationHolds cr handle channel m i := by
  have hrow := hasRow_step hs hrev hu hn
  refine ⟨⟨s, hrow, hrev⟩, ?_, ?_, ?_⟩
  · intro e line wire text hw
    exact decryptIncoming_of_not_trusted hrow (by simp [hrev]) hw
  · rintro nick req rsp hop rfl
    obtain ⟨e, op⟩ := i
    subst hop
    exact unserved_of_revoked hs hrev hn
  · exact rekeysFor_step hf (fun h => hn (.rotated h.1 h.2.1 h.2.2))

/-- **A revocation holds at every step of every run in which neither the user lifts it nor a step
undoes it.** -/
theorem revocation_holds (identity : Bytes 32) (keyring : Keyring) (tolerance : Int)
    (history is : List Input) (handle channel : Str) (s : IncomingSession)
    (hs : HasRow handle channel s
      (runOps cr (E2eManager.init identity keyring tolerance) history))
    (hrev : s.status = .revoked)
    (hg : Run.Guarded (step cr)
      (fun m i => ¬ UserLifts handle channel i.2 ∧ ¬ Undoes cr handle channel m i)
      (runOps cr (E2eManager.init identity keyring tolerance) history) is)
    (pre : List Input) (i : Input) (post : List Input) (his : is = pre ++ i :: post) :
    RevocationHolds cr handle channel
      (runOps cr (E2eManager.init identity keyring tolerance) (history ++ pre)) i := by
  subst his
  obtain ⟨hpre, hi⟩ := Run.guarded_append.mp hg
  have hinv : ∀ m, HasRow handle channel s m ∧ InboundFiled m → ∀ i,
      (¬ UserLifts handle channel i.2 ∧ ¬ Undoes cr handle channel m i) →
      HasRow handle channel s (step cr m i) ∧ InboundFiled (step cr m i) :=
    fun m h i hi => ⟨hasRow_step h.1 hrev hi.1 hi.2, inboundFiled_step i h.2⟩
  have hstart : InboundFiled (runOps cr (E2eManager.init identity keyring tolerance) history) :=
    Run.invariant (fun _ i => inboundFiled_step i) (inboundFiled_init _ _ _) history
  obtain ⟨hrow, hf⟩ := Run.Guarded.invariant (fun m i h hi => hinv m h i hi) ⟨hs, hstart⟩ hpre
  rw [runOps, Run.run_append]
  exact revocation_step hrow hrev hf hi.1.1 hi.1.2

/-- A KEYREQ of the same stranger, at a given time. -/
def strangerKeyreq (now : Int) : Input :=
  (sampleEnv now 0, .keyreq (str "eve@host") none
    (Sample.keyreq (Bytes.fill 32 7) (str "#rust") (Bytes.fill 32 1) (Bytes.fill 16 2)))

/-- On a Normal-mode channel, a KEYREQ that the user declines. -/
def declinedRun : List Input :=
  [(sampleEnv 1000 0, .setChannelConfig ⟨str "#rust", true, .normal⟩), strangerKeyreq 1001,
    (sampleEnv 1002 0, .updateIncomingStatus (str "eve@host") (str "#rust") .revoked)]

/-- The declined run, and then the channel in Quiet mode. -/
def quietRun : List Input :=
  declinedRun ++ [(sampleEnv 1003 0, .setChannelConfig ⟨str "#rust", true, .quiet⟩)]

/-- The row that a declined KEYREQ leaves. -/
def declinedRow : IncomingSession :=
  { placeholder sample (sampleEnv 1001 0) (str "eve@host")
      (Sample.keyreq (Bytes.fill 32 7) (str "#rust") (Bytes.fill 32 1) (Bytes.fill 16 2)) with
    status := .revoked }

set_option maxRecDepth 100000 in
/-- In Quiet mode the declined stranger's next KEYREQ leaves the revocation in place. -/
theorem revocation_holds_quiet :
    RevocationHolds sample (str "eve@host") (str "#rust") (runOps sample newcomer quietRun)
      (strangerKeyreq 1100) := by
  refine revocation_holds (Bytes.fill 32 9) Keyring.empty 300 quietRun [strangerKeyreq 1100]
    (str "eve@host") (str "#rust") declinedRow (by unfold HasRow; decide +kernel) rfl
    ⟨⟨id, ?_⟩, trivial⟩ [] _ [] rfl
  have hmode : effectiveChannelMode sample (sampleEnv 1100 0)
      (runOps sample newcomer quietRun).keyring (str "eve@host") (str "#rust") =
        .ok (some .quiet) := by decide +kernel
  have hrot : ¬ RotationPending (runOps sample newcomer quietRun) (str "#rust") := by
    decide +kernel
  intro h
  cases h with
  | served hc had => exact absurd (hmode.symm.trans had.policy) (by decide)
  | cached hc had hi => exact absurd (hmode.symm.trans had.policy) (by decide)
  | rotated hfetch hr hrec => exact hrot hr

set_option maxRecDepth 100000 in
/-- In Normal mode the declined stranger's next KEYREQ lifts the revocation: the row is pending
again. -/
theorem declined_is_pending_again :
    HasRow (str "eve@host") (str "#rust") declinedRow (runOps sample newcomer declinedRun) ∧
      declinedRow.status = .revoked ∧
      ¬ UserLifts (str "eve@host") (str "#rust") (strangerKeyreq 1100).2 ∧
      ¬ RevocationHolds sample (str "eve@host") (str "#rust")
        (runOps sample newcomer declinedRun) (strangerKeyreq 1100) := by
  refine ⟨by unfold HasRow; decide +kernel, rfl, id, fun h => ?_⟩
  obtain ⟨s, hs, hst⟩ := h.status
  have hpending : (((step sample (runOps sample newcomer declinedRun)
      (strangerKeyreq 1100)).keyring.incoming.get? (str "eve@host", str "#rust")).map
        IncomingSession.status) = some .pending := by decide +kernel
  rw [hs, Option.map_some, hst] at hpending
  exact absurd hpending (by decide)

end Repartee.E2eManager
