import Repartee.E2e.Effects

/-!
# Steps on the trust state

The trust state (`Core`) is the part of a client that decides whom it trusts: the pinned peers,
the incoming sessions and the cached requests. Most operations leave it alone; for the others
this module says what a step makes of it.

## Main results

- `core_step_of_silent`: the operations that leave the trust state alone
- `keyreq_effect`, `keyrsp_effect`, `rekey_effect`, `accept_effect`: the handshake steps
- `Sweeps.purgeHandle`, `Sweeps.reverifyPeer`: the writes of the removal commands
- `settings_step`: what is written by configuration commands alone
-/

set_option autoImplicit false

namespace Repartee

/-- The part of a client's state that trust decisions are made on. -/
structure Core where
  peers : Table PeerRecord PeerRecord.fingerprint
  incoming : Table IncomingSession (fun s => (s.handle, s.channel))
  inbound : Dict (Str × Str) KeyReq

namespace E2eManager

open Exec

variable {cr : Crates} {e : Env}

def core (m : E2eManager) : Core := ⟨m.keyring.peers, m.keyring.incoming, m.pendingInbound⟩

theorem frame_core_of_serveMask {m m' : E2eManager} (h : Frame serveMask m m') :
    Frame core m m' := by
  have hc := congrArg core (show serveMask m' = serveMask m from h)
  exact hc

theorem frame_core_of_keyMask {m m' : E2eManager} (h : Frame keyMask m m') : Frame core m m' :=
  frame_core_of_serveMask (frame_serveMask_of_keyMask h)

/-- A statement that writes neither peers nor incoming sessions. -/
theorem tell_core {f : Keyring → Result Keyring}
    (h : ∀ k k', f k = .ok k' → k'.peers = k.peers ∧ k'.incoming = k.incoming) :
    Moves (Frame core) (tell f) := by
  refine moves_tell (fun m k hk => ?_)
  obtain ⟨hp, hi⟩ := h _ _ hk
  show core _ = core m
  rw [core, core, hp, hi]

/-- The operations that leave the trust state alone. -/
def Silent : Op → Prop
  | .ciphertext .. | .encryptOutgoing .. | .buildKeyreq .. | .allowKeyreq _
  | .takePendingTrustChanges | .takePendingRekeySends | .takePendingOutboundKeyreqs
  | .takePendingAcceptRequests | .removeOutgoingRecipient .. | .markOutgoingPendingRotation _
  | .setChannelConfig _ | .addAutotrust .. | .removeAutotrust _ => True
  | _ => False

theorem final_discard {α : Type} (x : M α) (m : E2eManager) :
    final (do let _ ← x : M Unit) m = final x m := final_bind_pure x _ m

theorem core_step_of_silent {m : E2eManager} {i : Input} (h : Silent i.2) :
    core (step cr m i) = core m := by
  obtain ⟨e, op⟩ := i
  cases op with
  | ciphertext h c line =>
    rw [step, Op.exec, final_discard, final_query]
  | encryptOutgoing c text =>
    rw [step, Op.exec, final_discard]
    exact frame_core_of_keyMask (encryptOutgoing_keyMask c text m)
  | buildKeyreq c peer =>
    rw [step, Op.exec, final_discard]
    exact buildKeyreqForPeer_moves (R := Frame core) (fun _ => rfl) (fun _ _ _ => rfl) peer m
  | removeOutgoingRecipient | markOutgoingPendingRotation | setChannelConfig | addAutotrust
  | removeAutotrust =>
    rw [step, Op.exec]
    refine tell_core (fun k k' hk => ?_) m
    obtain ⟨-, rfl⟩ := Env.exec_eq_ok_iff.mp hk
    exact ⟨rfl, rfl⟩
  | _ => first | rfl | exact h.elim

/-! ### Handshake steps -/

theorem core_serve (senderHandle : Str) (req : KeyReq) (m : E2eManager) :
    core (final (do return some (← serveKeyrsp cr e senderHandle req) : M (Option KeyRsp)) m) =
      core m := by
  rw [final_bind_pure]
  exact frame_core_of_serveMask (serveKeyrsp_serveMask senderHandle req m)

/-- What a KEYREQ makes of the trust state. -/
inductive KeyreqEffect (cr : Crates) (e : Env) (senderHandle : Str) (senderNick : Option Str)
    (req : KeyReq) (m : E2eManager) : Core → Prop where
  | kept : KeyreqEffect cr e senderHandle senderNick req m (core m)
  | pinned {k : Keyring} : pinOnKeyreq cr e m.keyring senderHandle senderNick req = .ok k →
      KeyreqEffect cr e senderHandle senderNick req m { core m with peers := k.peers }
  | cached {k : Keyring} : KeyreqAdmitted cr e m senderHandle senderNick req .normal k →
      trustedRow (m.keyring.incoming.get? (senderHandle, req.channel)) = false →
      KeyreqEffect cr e senderHandle senderNick req m
        { peers := k.peers
          incoming := (installed cr e k (placeholder cr e senderHandle req)).incoming
          inbound := m.pendingInbound.insert (senderHandle, req.channel) req }

theorem core_warned (m : E2eManager) (handle channel : Str) (pubkey : Bytes 32) :
    core (warned cr e m handle channel pubkey) = core m := by
  unfold warned
  split
  · split <;> rfl
  · rfl

theorem core_with_pin {m : E2eManager} {k : Keyring} {senderHandle : Str}
    {senderNick : Option Str} {req : KeyReq} (m' : E2eManager)
    (hm' : m'.pendingInbound = m.pendingInbound)
    (h : pinOnKeyreq cr e m.keyring senderHandle senderNick req = .ok k) :
    core { m' with keyring := k } = { core m with peers := k.peers } := by
  obtain ⟨change, rec, -, -, -, -, rfl⟩ := pinOnKeyreq_eq_ok h
  simp only [core, hm', Keyring.putPeer]

theorem installed_peers (k : Keyring) (s : IncomingSession) :
    (installed cr e k s).peers = k.peers := by
  unfold installed
  cases hi : k.installIncomingSessionStrict e cr s with
  | error err => rfl
  | ok k' =>
    obtain ⟨rfl, -⟩ := install_eq_ok hi
    rfl

theorem keyreq_effect (m : E2eManager) (senderHandle : Str) (senderNick : Option Str)
    (req : KeyReq) :
    KeyreqEffect cr e senderHandle senderNick req m
      (core (step cr m (e, .keyreq senderHandle senderNick req))) := by
  rw [step, Op.exec, final_discard, final]
  have h := @run_handleKeyreq cr e m senderHandle senderNick req
  generalize (handleKeyreqWithNick cr e senderHandle senderNick req).run m = r at h
  cases h with
  | refused err => exact .kept
  | disabled => exact .kept
  | rejected err => exact core_warned (limited e m senderHandle) _ _ _ ▸ .kept
  | broken err hp => exact core_with_pin (limited e m senderHandle) rfl hp ▸ .pinned hp
  | @served mode k had ht =>
    have hc := @core_serve cr e senderHandle req { limited e m senderHandle with keyring := k }
    exact hc.trans (core_with_pin _ rfl had.pinned) ▸ .pinned had.pinned
  | cached had ht =>
    have hc := KeyreqEffect.cached had ht
    rw [← installed_peers _ (placeholder cr e senderHandle req)] at hc
    exact hc
  | dropped had ht =>
    exact core_with_pin (limited e m senderHandle) rfl had.pinned ▸ .pinned had.pinned

/-- What a KEYRSP makes of the trust state. -/
inductive KeyrspEffect (cr : Crates) (e : Env) (senderHandle : Str) (rsp : KeyRsp)
    (m : E2eManager) : Core → Prop where
  | kept : KeyrspEffect cr e senderHandle rsp m (core m)
  | pinned {sk : SessionKey} {key : Str × Bytes 16} {change : TrustChange} :
      KeyrspAdmitted cr e m senderHandle rsp sk key change →
      KeyrspEffect cr e senderHandle rsp m
        { core m with peers := (m.keyring.putPeer (responder cr e senderHandle rsp)).peers }
  | installed {sk : SessionKey} {key : Str × Bytes 16} {change : TrustChange} {k : Keyring} :
      KeyrspAdmitted cr e m senderHandle rsp sk key change →
      (m.keyring.putPeer (responder cr e senderHandle rsp)).installIncomingSessionStrict e cr
        (rspSession cr e senderHandle rsp sk) = .ok k →
      KeyrspEffect cr e senderHandle rsp m
        { core m with
          peers := (m.keyring.putPeer (responder cr e senderHandle rsp)).peers
          incoming := m.keyring.incoming.replace (rspSession cr e senderHandle rsp sk) }

theorem keyrsp_effect (m : E2eManager) (senderHandle : Str) (rsp : KeyRsp) :
    KeyrspEffect cr e senderHandle rsp m (core (step cr m (e, .keyrsp senderHandle rsp))) := by
  rw [step, Op.exec, final]
  have h := @run_handleKeyrsp cr e m senderHandle rsp
  generalize (handleKeyrsp cr e senderHandle rsp).run m = r at h
  cases h with
  | refused err => exact .kept
  | rejected err key notices => exact .kept
  | pinned err notices had => exact .pinned had
  | installed had hi =>
    have hi' := hi
    obtain ⟨rfl, -⟩ := install_eq_ok hi'
    exact .installed had hi

/-- What a REKEY makes of the trust state. -/
inductive RekeyEffect (cr : Crates) (e : Env) (senderHandle : Str) (rekey : KeyRekey)
    (m : E2eManager) : Core → Prop where
  | kept : RekeyEffect cr e senderHandle rekey m (core m)
  | installed {sk : SessionKey} {k : Keyring} : RekeyAdmitted cr e m senderHandle rekey sk k →
      RekeyEffect cr e senderHandle rekey m
        { core m with
          incoming := m.keyring.incoming.replace (rekeySession cr e senderHandle rekey sk) }

theorem rekey_effect (m : E2eManager) (senderHandle : Str) (rekey : KeyRekey) :
    RekeyEffect cr e senderHandle rekey m (core (step cr m (e, .rekey senderHandle rekey))) := by
  rw [step, Op.exec, final]
  have h := @run_handleRekey cr e m senderHandle rekey
  generalize (handleRekey cr e senderHandle rekey).run m = r at h
  cases h with
  | refused err notices => exact .kept
  | installed had =>
    have hi := had.installed
    obtain ⟨rfl, -⟩ := install_eq_ok hi
    exact .installed had

/-- What accepting a cached KEYREQ makes of the trust state. -/
inductive AcceptEffect (cr : Crates) (senderHandle channel : Str) (m : E2eManager) :
    Core → Prop where
  | kept : AcceptEffect cr senderHandle channel m (core m)
  | failed : AcceptEffect cr senderHandle channel m
      { core m with inbound := m.pendingInbound.erase (senderHandle, channel) }
  | served {req : KeyReq} {rec : PeerRecord} :
      m.pendingInbound.lookup (senderHandle, channel) = some req →
      rec.fingerprint = fingerprint cr req.pubkey → rec.lastHandle = some senderHandle →
      AcceptEffect cr senderHandle channel m
        { core m with
          peers := (m.keyring.putPeer rec).peers
          inbound := m.pendingInbound.erase (senderHandle, channel) }

theorem accept_effect (m : E2eManager) (senderHandle channel : Str) :
    AcceptEffect cr senderHandle channel m
      (core (step cr m (e, .acceptPendingInbound senderHandle channel))) := by
  rw [step, Op.exec, final_discard, final]
  have h := @run_acceptPendingInbound cr e m senderHandle channel
  generalize (acceptPendingInbound cr e senderHandle channel).run m = r at h
  cases h with
  | missing => exact .kept
  | failed err => exact .failed
  | @served req rec hl hfp hh =>
    have hc := @core_serve cr e senderHandle req
      { m with
        pendingInbound := m.pendingInbound.erase (senderHandle, channel)
        keyring := m.keyring.putPeer rec }
    exact hc ▸ .served hl hfp hh

/-! ### Removal steps -/

theorem run_clearPendingStateForHandle (m : E2eManager) (handle : Str) :
    ∃ n m', (clearPendingStateForHandle handle).run m = .ok n m' ∧ m'.keyring = m.keyring ∧
      m'.pendingInbound = m.pendingInbound.retain (fun k _ => k.1 ≠ handle) :=
  ⟨_, _, rfl, rfl, rfl⟩

theorem mem_of_mostRecent {ps : List PeerRecord} {p : PeerRecord}
    (h : Keyring.mostRecent ps = some p) : p ∈ ps := by
  induction ps with
  | nil => simp [Keyring.mostRecent] at h
  | cons q ps ih =>
    rw [Keyring.mostRecent] at h
    cases hr : Keyring.mostRecent ps with
    | none =>
      simp only [hr, Option.some.injEq] at h
      exact h ▸ List.mem_cons_self
    | some r =>
      simp only [hr] at h
      by_cases hl : q.lastSeen < r.lastSeen
      · simp only [hl, if_true, Option.some.injEq] at h
        exact List.mem_cons_of_mem q (ih (h ▸ hr))
      · simp only [hl, if_false, Option.some.injEq] at h
        exact h ▸ List.mem_cons_self

section

variable {R : E2eManager → E2eManager → Prop} {handle : Str}

/-- The sweep of a handle: its sessions, its recipient rows and its entries in memory. -/
structure Sweeps (R : E2eManager → E2eManager → Prop) (handle : Str) : Prop where
  peers : ∀ m peer, peer ∈ m.keyring.peersAt handle → R m { m with keyring := { m.keyring with
    peers := m.keyring.peers.deleteWhere (fun p => p.fingerprint = peer.fingerprint) } }
  incoming : ∀ m, R m { m with keyring := { m.keyring with
    incoming := m.keyring.incoming.deleteWhere (fun s => s.handle = handle) } }
  recipients : ∀ m, R m { m with keyring := { m.keyring with
    recipients := m.keyring.recipients.deleteWhere (fun r => r.handle = handle) } }
  entries : ∀ m, R m (final (clearPendingStateForHandle handle) m)

variable [Std.Refl R]

theorem Sweeps.deletePeerAt [IsTrans E2eManager R] (h : Sweeps R handle) :
    Moves R (deletePeerAt e handle) := by
  intro m
  refine rel_final_query_bind (fun peer hpeer => ?_)
  obtain ⟨-, rfl⟩ := Env.exec_eq_ok_iff.mp hpeer
  cases hrec : Keyring.mostRecent (m.keyring.peersAt handle) with
  | none => exact Moves.pure _ m
  | some peer =>
    refine rel_final_bind ?_ (fun _ m' _ => Moves.pure _ m')
    rw [final_tell]
    split
    · rename_i k hk
      obtain ⟨-, rfl⟩ := Env.exec_eq_ok_iff.mp hk
      exact h.peers m peer (mem_of_mostRecent hrec)
    · exact Std.Refl.refl m

variable [IsTrans E2eManager R]

theorem Sweeps.deleteSessions (h : Sweeps R handle) :
    Moves R (tellCount (fun k => k.deleteIncomingSessionsForHandle e handle)) := by
  refine moves_tellCount (fun m r hr => ?_)
  obtain ⟨-, rfl⟩ := Env.exec_eq_ok_iff.mp hr
  exact h.incoming m

theorem Sweeps.deleteRecipients (h : Sweeps R handle) :
    Moves R (tellCount (fun k => k.deleteOutgoingRecipientsForHandle e handle)) := by
  refine moves_tellCount (fun m r hr => ?_)
  obtain ⟨-, rfl⟩ := Env.exec_eq_ok_iff.mp hr
  exact h.recipients m

/-- Forgetting a handle deletes rows and entries. -/
theorem Sweeps.purgeHandle (h : Sweeps R handle) : Moves R (purgeHandle e handle) := by
  refine h.deletePeerAt.bind (fun purged => ?_)
  refine h.deleteSessions.bind (fun _ => h.deleteRecipients.bind (fun _ => ?_))
  exact Moves.bind h.entries (fun _ => Moves.pure _)

/-- Reverifying a handle deletes rows and entries, and may pin another identity. -/
theorem Sweeps.reverifyPeer (h : Sweeps R handle)
    (hdel : ∀ m fp, R m { m with keyring := { m.keyring with
      peers := m.keyring.peers.deleteWhere (fun p => p.fingerprint = fp) } })
    (hnotes : ∀ m ns, R m { m with pendingTrustChange := ns })
    (hpin : ∀ m rec, R m { m with keyring := m.keyring.putPeer rec }) :
    Moves R (reverifyPeer e handle) := by
  intro m
  unfold E2eManager.reverifyPeer
  rw [final_bind_of_ok (rfl : (get : M E2eManager).run m = .ok m m)]
  refine rel_final_bind (hnotes m _) (fun _ m' _ => ?_)
  refine (?_ : Moves R _) m'
  cases appliedNotice m.pendingTrustChange handle with
  | none =>
    refine h.purgeHandle.bind (fun deleted => ?_)
    exact Moves.ite (fun _ => Moves.pure _) (fun _ => Moves.pure _)
  | some notice =>
    refine Moves.bind (moves_tell (fun m k hk => ?_)) (fun _ => ?_)
    · obtain ⟨-, rfl⟩ := Env.exec_eq_ok_iff.mp hk
      exact hdel m notice.1
    refine h.deleteSessions.bind (fun _ => ?_)
    refine h.deleteRecipients.bind (fun _ => Moves.bind h.entries (fun _ => ?_))
    refine Moves.bind (moves_tell (fun m k hk => ?_)) (fun _ => Moves.pure _)
    obtain ⟨-, rfl⟩ := Env.exec_eq_ok_iff.mp hk
    exact hpin m _

end

/-- What forgetting a peer on one channel makes of the trust state. -/
theorem forgetOn_effect (m : E2eManager) (handle channel : Str) :
    ∃ incoming inbound,
      core (step cr m (e, .forgetPeerOnChannel handle channel)) =
        { core m with incoming := incoming, inbound := inbound } ∧
      (incoming = m.keyring.incoming ∨ incoming = m.keyring.incoming.deleteWhere
        (fun s => s.handle = handle && s.channel = channel)) ∧
      (inbound = m.pendingInbound ∨ inbound = m.pendingInbound.erase (handle, channel)) := by
  rw [step, Op.exec, final_discard]
  unfold E2eManager.forgetPeerOnChannel
  dsimp only
  cases hg : m.keyring.getIncomingSession e handle channel with
  | error err =>
    rw [final_bind_of_error (run_ask_of_error hg)]
    exact ⟨_, _, rfl, .inl rfl, .inl rfl⟩
  | ok sess =>
    rw [final_bind_of_ok (run_ask_of_ok hg)]
    cases sess with
    | none => exact ⟨_, _, rfl, .inl rfl, .inr rfl⟩
    | some s =>
      cases hd : m.keyring.deleteIncomingSession e handle channel with
      | error err =>
        rw [Option.isSome_some, runIf_true, final_bind_of_error (run_tell_of_error hd)]
        exact ⟨_, _, rfl, .inl rfl, .inl rfl⟩
      | ok k =>
        rw [Option.isSome_some, runIf_true, final_bind_of_ok (run_tell_of_ok hd)]
        obtain ⟨-, rfl⟩ := Env.exec_eq_ok_iff.mp hd
        exact ⟨_, _, rfl, .inr rfl, .inr rfl⟩

/-- What setting the status of a session makes of the trust state. -/
theorem status_effect (m : E2eManager) (handle channel : Str) (status : TrustStatus) :
    core (step cr m (e, .updateIncomingStatus handle channel status)) = core m ∨
    core (step cr m (e, .updateIncomingStatus handle channel status)) =
      { core m with
        incoming := m.keyring.incoming.updateWhere
          (fun s => s.handle = handle && s.channel = channel)
          (fun s => { s with status := status }) (fun _ => rfl) } := by
  rw [step, Op.exec, final_tell]
  split
  · rename_i k hk
    obtain ⟨-, rfl⟩ := Env.exec_eq_ok_iff.mp hk
    exact .inr rfl
  · exact .inl rfl

/-! ### Cached requests -/

/-- A cached request is filed under its own channel. -/
def InboundFiled (m : E2eManager) : Prop :=
  ∀ key req, (core m).inbound.lookup key = some req → req.channel = key.2

theorem sweeps_inboundFiled (handle : Str) : Sweeps (Keeps InboundFiled) handle where
  peers _ _ _ := id
  incoming _ := id
  recipients _ := id
  entries _ h := fun key req hl => h key req (Dict.lookup_of_retain hl).1

theorem inboundFiled_step {m : E2eManager} (i : Input) (h : InboundFiled m) :
    InboundFiled (step cr m i) := by
  obtain ⟨e, op⟩ := i
  intro key req' hl
  cases op with
  | keyreq hd nick req =>
    have heff := @keyreq_effect cr e m hd nick req
    generalize core (step cr m (e, .keyreq hd nick req)) = c at heff hl
    cases heff with
    | kept => exact h key req' hl
    | pinned hp => exact h key req' hl
    | cached had ht =>
      rw [Dict.lookup_insert] at hl
      split at hl
      · rename_i hk
        obtain rfl := Option.some.inj hl
        exact hk ▸ rfl
      · exact h key req' hl
  | keyrsp hd rsp =>
    have heff := @keyrsp_effect cr e m hd rsp
    generalize core (step cr m (e, .keyrsp hd rsp)) = c at heff hl
    cases heff <;> exact h key req' hl
  | rekey hd rekey =>
    have heff := @rekey_effect cr e m hd rekey
    generalize core (step cr m (e, .rekey hd rekey)) = c at heff hl
    cases heff <;> exact h key req' hl
  | acceptPendingInbound hd c =>
    have heff := @accept_effect cr e m hd c
    generalize core (step cr m (e, .acceptPendingInbound hd c)) = c at heff hl
    cases heff with
    | kept => exact h key req' hl
    | failed => exact h key req' (Dict.lookup_of_erase hl).1
    | served => exact h key req' (Dict.lookup_of_erase hl).1
  | reverifyPeer hd =>
    rw [step, Op.exec, final_discard] at hl
    exact (sweeps_inboundFiled hd).reverifyPeer (e := e) (fun _ _ => id) (fun _ _ => id)
      (fun _ _ => id) m h key req' hl
  | forgetPeerOnChannel hd c =>
    obtain ⟨incoming, inbound, hc, -, hi⟩ := @forgetOn_effect cr e m hd c
    rw [hc] at hl
    rcases hi with rfl | rfl
    · exact h key req' hl
    · exact h key req' (Dict.lookup_of_erase hl).1
  | forgetPeerEverywhere hd =>
    rw [step, Op.exec, final_discard] at hl
    exact (sweeps_inboundFiled hd).purgeHandle (e := e) m h key req' hl
  | updateIncomingStatus hd c status =>
    rcases @status_effect cr e m hd c status with hc | hc <;>
    · rw [hc] at hl
      exact h key req' hl
  | importAll rows =>
    rw [step, Op.exec, final_tell] at hl
    refine h key req' ?_
    split at hl <;> exact hl
  | _ =>
    rw [core_step_of_silent (by trivial)] at hl
    exact h key req' hl

/-! ### Settings -/

/-- The identity of a client and its configuration of each context. -/
def settings (m : E2eManager) : Bytes 32 × Table ChannelConfig ChannelConfig.channel :=
  (m.identity, m.keyring.channels)

/-- The operations that write configurations. -/
def Configures : Op → Prop
  | .setChannelConfig _ | .importAll _ => True
  | _ => False

theorem settings_of_serveMask {m m' : E2eManager} (h : Frame serveMask m m') :
    settings m' = settings m := by
  have hs := congrArg settings (show serveMask m' = serveMask m from h)
  exact hs

theorem sweeps_settings (handle : Str) : Sweeps (Frame settings) handle where
  peers _ _ _ := rfl
  incoming _ := rfl
  recipients _ := rfl
  entries _ := rfl

/-- Serving a KEYREQ leaves the settings alone. -/
theorem settings_serve (senderHandle : Str) (req : KeyReq) (m : E2eManager) :
    settings
      (final (do return some (← serveKeyrsp cr e senderHandle req) : M (Option KeyRsp)) m) =
        settings m := by
  rw [final_bind_pure]
  exact settings_of_serveMask (serveKeyrsp_serveMask senderHandle req m)

theorem channels_of_install {k k' : Keyring} {s : IncomingSession}
    (h : k.installIncomingSessionStrict e cr s = .ok k') : k'.channels = k.channels := by
  rw [(install_eq_ok h).1]

theorem channels_installed (k : Keyring) (s : IncomingSession) :
    (installed cr e k s).channels = k.channels := by
  unfold installed
  split
  · rename_i hi
    exact channels_of_install hi
  · rfl

theorem channels_of_pinOnKeyreq {k k' : Keyring} {senderHandle : Str} {senderNick : Option Str}
    {req : KeyReq} (h : pinOnKeyreq cr e k senderHandle senderNick req = .ok k') :
    k'.channels = k.channels := by
  obtain ⟨change, rec, -, -, -, -, rfl⟩ := pinOnKeyreq_eq_ok h
  rfl

theorem settings_tell {f : Keyring → Result Keyring}
    (h : ∀ k k', f k = .ok k' → k'.channels = k.channels) : Moves (Frame settings) (tell f) :=
  moves_tell (fun m _ hk => congrArg (Prod.mk m.identity) (h _ _ hk))

/-- Every other operation leaves the settings of a client alone. -/
theorem settings_step {m : E2eManager} {i : Input} (hc : ¬ Configures i.2) :
    settings (step cr m i) = settings m := by
  obtain ⟨e, op⟩ := i
  cases op with
  | keyreq hd nick req =>
    rw [step, Op.exec, final_discard, final]
    have h := @run_handleKeyreq cr e m hd nick req
    generalize (handleKeyreqWithNick cr e hd nick req).run m = r at h
    cases h with
    | refused err => rfl
    | disabled => rfl
    | rejected err =>
      show settings (warned cr e (limited e m hd) hd req.channel req.pubkey) = _
      unfold warned
      split
      · split <;> rfl
      · rfl
    | broken err hp => exact congrArg (Prod.mk m.identity) (channels_of_pinOnKeyreq hp)
    | @served mode k had ht =>
      have hserve := @settings_serve cr e hd req { limited e m hd with keyring := k }
      have hpin : settings { limited e m hd with keyring := k } = settings m :=
        congrArg (Prod.mk m.identity) (channels_of_pinOnKeyreq had.pinned)
      exact hserve.trans hpin
    | cached had ht =>
      have hpin := channels_of_pinOnKeyreq had.pinned
      exact congrArg (Prod.mk m.identity) ((channels_installed _ _).trans hpin)
    | dropped had ht =>
      exact congrArg (Prod.mk m.identity) (channels_of_pinOnKeyreq had.pinned)
  | keyrsp hd rsp =>
    rw [step, Op.exec, final]
    have h := @run_handleKeyrsp cr e m hd rsp
    generalize (handleKeyrsp cr e hd rsp).run m = r at h
    cases h with
    | @installed sk key change k had hi =>
      have hk := channels_of_install hi
      exact congrArg (Prod.mk m.identity) hk
    | _ => rfl
  | rekey hd rekey =>
    rw [step, Op.exec, final]
    have h := @run_handleRekey cr e m hd rekey
    generalize (handleRekey cr e hd rekey).run m = r at h
    cases h with
    | installed had => exact congrArg (Prod.mk m.identity) (channels_of_install had.installed)
    | refused err notices => rfl
  | ciphertext h c line =>
    rw [step, Op.exec, final_discard, final_query]
  | encryptOutgoing c text =>
    rw [step, Op.exec, final_discard]
    exact settings_of_serveMask (frame_serveMask_of_keyMask (encryptOutgoing_keyMask c text m))
  | buildKeyreq c peer =>
    rw [step, Op.exec, final_discard]
    exact buildKeyreqForPeer_moves (R := Frame settings) (fun _ => rfl) (fun _ _ _ => rfl) peer m
  | acceptPendingInbound hd c =>
    rw [step, Op.exec, final_discard, final]
    have h := @run_acceptPendingInbound cr e m hd c
    generalize (acceptPendingInbound cr e hd c).run m = r at h
    cases h with
    | missing => rfl
    | failed err => rfl
    | @served req rec hl hfp hh =>
      exact settings_serve hd req
        { m with
          pendingInbound := m.pendingInbound.erase (hd, c)
          keyring := m.keyring.putPeer rec }
  | reverifyPeer hd =>
    rw [step, Op.exec, final_discard]
    exact (sweeps_settings hd).reverifyPeer (e := e) (fun _ _ => rfl) (fun _ _ => rfl)
      (fun _ _ => rfl) m
  | forgetPeerOnChannel hd c =>
    rw [step, Op.exec, final_discard]
    have htell : ∀ f : Keyring → Result Keyring,
        (∀ k k', f k = .ok k' → k'.channels = k.channels) → Moves (Frame settings) (tell f) :=
      fun _ => settings_tell
    have hframe : Moves (Frame settings) (E2eManager.forgetPeerOnChannel e hd c) := by
      refine (moves_ask _).bind (fun sess => ?_)
      refine Moves.bind (Moves.runIf (fun _ => htell _ (fun k k' hk => ?_))) (fun _ => ?_)
      · obtain ⟨-, rfl⟩ := Env.exec_eq_ok_iff.mp hk
        rfl
      · exact Moves.bind (Moves.modifyGet (fun _ => rfl)) (fun _ => Moves.pure _)
    exact hframe m
  | forgetPeerEverywhere hd =>
    rw [step, Op.exec, final_discard]
    exact (sweeps_settings hd).purgeHandle (e := e) m
  | allowKeyreq | takePendingTrustChanges | takePendingRekeySends | takePendingOutboundKeyreqs
  | takePendingAcceptRequests => rfl
  | updateIncomingStatus | removeOutgoingRecipient | markOutgoingPendingRotation | addAutotrust
  | removeAutotrust =>
    rw [step, Op.exec]
    refine settings_tell (fun k k' hk => ?_) m
    obtain ⟨-, rfl⟩ := Env.exec_eq_ok_iff.mp hk
    rfl
  | setChannelConfig | importAll => exact absurd trivial hc

end E2eManager

end Repartee
