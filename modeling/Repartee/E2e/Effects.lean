import Repartee.E2e.Footprint

/-!
# What the handshake handlers do to the trust state

Each handler has one lemma that says everything it can come to, with the guards it did it under.
The invariants of the following modules are case analyses of these lemmas; none of them unfolds
a handler.

## Main results

- `run_handleKeyreq`, `run_handleKeyrsp`, `run_handleRekey`, `run_acceptPendingInbound`
- `pinOnKeyreq_eq_ok`, `install_eq_ok`: what pinning a peer and installing a session write
-/

set_option autoImplicit false

namespace Repartee

namespace E2eManager

open Exec

variable {cr : Crates} {e : Env}

/-! ### Classification -/

/-- What a classification says of the keyring: by the row of the fingerprint, and without one by
the row of the handle. -/
theorem classify_eq_ok {k : Keyring} {fp : Fingerprint} {handle : Str} {change : TrustChange}
    (h : classifyPeerChange e k fp handle = .ok change) :
    (∃ p, k.peers.get? fp = some p ∧ change =
      if p.globalStatus = .revoked then .revoked handle fp
      else if p.lastHandle ≠ some handle then
        .handleChanged (p.lastHandle.getD []) handle fp
      else .known) ∨
    k.peers.get? fp = none ∧ change =
      match Keyring.mostRecent (k.peersAt handle) with
      | some existing => .fingerprintChanged handle existing.fingerprint fp
      | none => .new := by
  unfold classifyPeerChange at h
  obtain ⟨peer, hpeer, h⟩ := except_bind_eq_ok_iff.mp h
  obtain ⟨-, rfl⟩ := Env.exec_eq_ok_iff.mp hpeer
  cases hp : k.peers.get? fp with
  | some p =>
    refine .inl ⟨p, rfl, ?_⟩
    rw [hp] at h
    dsimp only at h
    split_ifs at h ⊢ <;> exact (Except.ok.inj h).symm
  | none =>
    refine .inr ⟨rfl, ?_⟩
    rw [hp] at h
    obtain ⟨other, hother, h⟩ := except_bind_eq_ok_iff.mp h
    obtain ⟨-, rfl⟩ := Env.exec_eq_ok_iff.mp hother
    cases hm : Keyring.mostRecent (k.peersAt handle) <;>
    · rw [hm] at h
      exact (Except.ok.inj h).symm

/-- A known identity is pinned at its handle. -/
theorem classify_known {k : Keyring} {fp : Fingerprint} {handle : Str}
    (h : classifyPeerChange e k fp handle = .ok .known) :
    ∃ p, k.peers.get? fp = some p ∧ p.lastHandle = some handle := by
  obtain ⟨p, hp, hc⟩ | ⟨-, hc⟩ := classify_eq_ok h
  · refine ⟨p, hp, ?_⟩
    by_contra hl
    by_cases hr : p.globalStatus = .revoked <;> simp [hr, hl] at hc
  · cases hm : Keyring.mostRecent (k.peersAt handle) <;> simp [hm] at hc

/-- A known key under a new handle is pinned under another one. -/
theorem classify_handleChanged {k : Keyring} {fp fp' : Fingerprint}
    {handle oldHandle newHandle : Str}
    (h : classifyPeerChange e k fp handle = .ok (.handleChanged oldHandle newHandle fp')) :
    ∃ p, k.peers.get? fp = some p ∧ p.lastHandle ≠ some handle := by
  obtain ⟨p, hp, hc⟩ | ⟨-, hc⟩ := classify_eq_ok h
  · refine ⟨p, hp, fun hl => ?_⟩
    by_cases hr : p.globalStatus = .revoked <;> simp [hr, hl] at hc
  · cases hm : Keyring.mostRecent (k.peersAt handle) <;> simp [hm] at hc

theorem mostRecent_eq_none_iff {ps : List PeerRecord} :
    Keyring.mostRecent ps = none ↔ ps = [] := by
  cases ps with
  | nil => simp [Keyring.mostRecent]
  | cons p ps =>
    rw [Keyring.mostRecent]
    cases Keyring.mostRecent ps with
    | none => simp
    | some q => by_cases hl : p.lastSeen < q.lastSeen <;> simp [hl]

/-- A new identity has no pinned row, and neither has its handle. -/
theorem classify_new {k : Keyring} {fp : Fingerprint} {handle : Str}
    (h : classifyPeerChange e k fp handle = .ok .new) :
    k.peers.get? fp = none ∧ ∀ p ∈ k.peers.rows, p.lastHandle ≠ some handle := by
  obtain ⟨p, hp, hc⟩ | ⟨hp, hc⟩ := classify_eq_ok h
  · split_ifs at hc
  · refine ⟨hp, fun p hmem hl => ?_⟩
    have hat : p ∈ k.peersAt handle := List.mem_filter.mpr ⟨hmem, by simpa using hl⟩
    cases hm : Keyring.mostRecent (k.peersAt handle) with
    | some q => simp [hm] at hc
    | none =>
      rw [(mostRecent_eq_none_iff).mp hm] at hat
      simp at hat

/-- The state after the warning about a rejected identity. -/
def warned (cr : Crates) (e : Env) (m : E2eManager) (handle channel : Str)
    (pubkey : Bytes 32) : E2eManager :=
  match classifyPeerChange e m.keyring (fingerprint cr pubkey) handle with
  | .ok change =>
    if change.admits then m
    else { m with pendingTrustChange :=
      m.pendingTrustChange ++ [⟨handle, channel, change, change.noticePubkey pubkey⟩] }
  | .error _ => m

/-! ### KEYREQ -/

/-- The status that a KEYREQ pins its sender with. -/
def pinStatus (e : Env) (k : Keyring) (change : TrustChange) (fp : Fingerprint) :
    Result TrustStatus :=
  if change = .known then
    (k.getPeerByFingerprint e.again fp).map
      (fun peer => (peer.map PeerRecord.globalStatus).getD .pending)
  else .ok .pending

/-- The keyring in which a KEYREQ has pinned its sender. -/
def pinOnKeyreq (cr : Crates) (e : Env) (k : Keyring) (senderHandle : Str)
    (senderNick : Option Str) (req : KeyReq) : Result Keyring :=
  (classifyPeerChange e k (fingerprint cr req.pubkey) senderHandle).bind (fun change =>
    if change.admits then
      (pinStatus e k change (fingerprint cr req.pubkey)).bind (fun globalStatus =>
        k.upsertPeer e
          { fingerprint := fingerprint cr req.pubkey, pubkey := req.pubkey, lastHandle := some senderHandle,
            lastNick := senderNick, firstSeen := e.now, lastSeen := e.now, globalStatus })
    else .error (handleMismatchFor cr change senderHandle))

theorem run_statusOnKeyreq (m : E2eManager) (change : TrustChange) (fp : Fingerprint) :
    (statusOnKeyreq e change fp).run m =
      match pinStatus e m.keyring change fp with
      | .ok s => .ok s m
      | .error err => .error err m := by
  unfold statusOnKeyreq pinStatus
  by_cases hk : change = .known
  · rw [if_pos hk, if_pos hk]
    cases hp : m.keyring.getPeerByFingerprint e.again fp with
    | ok p => exact bind_of_ok (run_ask_of_ok hp)
    | error err => exact bind_of_error (run_ask_of_error hp)
  · rw [if_neg hk, if_neg hk]
    rfl

theorem run_tofuUpsertOnKeyreq (m : E2eManager) (senderHandle : Str)
    (senderNick : Option Str) (req : KeyReq) :
    (tofuUpsertOnKeyreq cr e senderHandle senderNick req (fingerprint cr req.pubkey)).run m =
      match pinOnKeyreq cr e m.keyring senderHandle senderNick req with
      | .ok k => .ok () { m with keyring := k }
      | .error err => .error err (warned cr e m senderHandle req.channel req.pubkey) := by
  unfold tofuUpsertOnKeyreq pinOnKeyreq warned
  cases hc : classifyPeerChange e m.keyring (fingerprint cr req.pubkey) senderHandle with
  | error err =>
    rw [bind_of_error (run_ask_of_error hc)]
    rfl
  | ok change =>
    rw [bind_of_ok (run_ask_of_ok hc)]
    dsimp only [Except.bind]
    by_cases ha : change.admits
    · simp only [ha, if_true]
      have hs := run_statusOnKeyreq (e := e) m change (fingerprint cr req.pubkey)
      cases hp : pinStatus e m.keyring change (fingerprint cr req.pubkey) with
      | error err =>
        rw [hp] at hs
        rw [bind_of_error hs]
      | ok status =>
        rw [hp] at hs
        rw [bind_of_ok hs]
        simp only []
        split
        · exact run_tell_of_ok ‹_›
        · exact run_tell_of_error ‹_›
    · simp only [ha]
      rfl

/-- A pinned KEYREQ has put a row of its sender's identity at its handle. -/
theorem pinOnKeyreq_eq_ok {k k' : Keyring} {senderHandle : Str} {senderNick : Option Str}
    {req : KeyReq} (h : pinOnKeyreq cr e k senderHandle senderNick req = .ok k') :
    ∃ change rec, classifyPeerChange e k (fingerprint cr req.pubkey) senderHandle = .ok change ∧
      change.admits = true ∧ rec.fingerprint = fingerprint cr req.pubkey ∧
      rec.lastHandle = some senderHandle ∧ k' = k.putPeer rec := by
  unfold pinOnKeyreq at h
  cases hc : classifyPeerChange e k (fingerprint cr req.pubkey) senderHandle with
  | error err => simp [hc, Except.bind] at h
  | ok change =>
    by_cases ha : change.admits
    · cases hs : pinStatus e k change (fingerprint cr req.pubkey) with
      | error err => simp [hc, ha, hs, Except.bind] at h
      | ok status =>
        simp only [hc, ha, hs, Except.bind, if_true] at h
        obtain ⟨-, rfl⟩ := Env.exec_eq_ok_iff.mp h
        exact ⟨change, _, rfl, ha, rfl, rfl, rfl⟩
    · simp [hc, ha, Except.bind] at h

/-- The gates of a KEYREQ are passed: it is served, cached or dropped by the channel's `mode`,
over the keyring `k` in which its sender is pinned. -/
structure KeyreqAdmitted (cr : Crates) (e : Env) (m : E2eManager) (senderHandle : Str)
    (senderNick : Option Str) (req : KeyReq) (mode : ChannelMode) (k : Keyring) : Prop where
  allowed : (m.rateLimiter.allowIncoming e.instant senderHandle).1 = true
  signed : verifyKeyreq cr req = .ok ()
  policy : effectiveChannelMode cr e m.keyring senderHandle req.channel = .ok (some mode)
  pinned : pinOnKeyreq cr e m.keyring senderHandle senderNick req = .ok k
  session : e.fault .getIncomingSession = none

/-- The placeholder row of a cached KEYREQ. -/
def placeholder (cr : Crates) (e : Env) (senderHandle : Str) (req : KeyReq) : IncomingSession :=
  { handle := senderHandle, channel := req.channel, fingerprint := fingerprint cr req.pubkey,
    sk := Bytes.fill 32 0, status := .pending, createdAt := e.now }

/-- The keyring after an installation whose failure is ignored. -/
def installed (cr : Crates) (e : Env) (k : Keyring) (s : IncomingSession) : Keyring :=
  match k.installIncomingSessionStrict e cr s with
  | .ok k' => k'
  | .error _ => k

/-- Whether a session row is trusted. -/
def trustedRow (row : Option IncomingSession) : Bool := row.any (fun s => s.status = .trusted)

/-- The state after a KEYREQ has been counted by the rate limiter. -/
def limited (e : Env) (m : E2eManager) (senderHandle : Str) : E2eManager :=
  { m with rateLimiter := (m.rateLimiter.allowIncoming e.instant senderHandle).2 }

/-- The state in which a KEYREQ waits for `/e2e accept`. -/
def cached (cr : Crates) (e : Env) (m : E2eManager) (senderHandle : Str)
    (senderNick : Option Str) (req : KeyReq) : E2eManager :=
  { m with
    keyring := installed cr e m.keyring (placeholder cr e senderHandle req)
    pendingInbound := m.pendingInbound.insert (senderHandle, req.channel) req
    pendingAcceptRequests :=
      m.pendingAcceptRequests ++ [⟨senderNick, senderHandle, req.channel⟩] }

theorem run_cachePendingInboundNormalMode (m : E2eManager) (senderHandle : Str)
    (senderNick : Option Str) (req : KeyReq) :
    (cachePendingInboundNormalMode cr e senderHandle senderNick req
      (fingerprint cr req.pubkey)).run m = .ok () (cached cr e m senderHandle senderNick req) := by
  unfold cachePendingInboundNormalMode cached installed
  cases hi : m.keyring.installIncomingSessionStrict e cr (placeholder cr e senderHandle req) with
  | ok k => rw [bind_of_ok (by rw [run_attempt, run_tell_of_ok hi])]; rfl
  | error err => rw [bind_of_ok (by rw [run_attempt, run_tell_of_error hi])]; rfl

theorem run_isTrusted (m : E2eManager) (senderHandle channel : Str)
    (hf : e.fault .getIncomingSession = none) :
    (isTrusted e senderHandle channel).run m =
      .ok (trustedRow (m.keyring.incoming.get? (senderHandle, channel))) m :=
  bind_of_ok (run_ask_of_ok (Env.exec_eq_ok_iff.mpr ⟨hf, rfl⟩))

/-- Everything that the handling of a KEYREQ can come to. -/
inductive KeyreqRun (cr : Crates) (e : Env) (senderHandle : Str) (senderNick : Option Str)
    (req : KeyReq) (m : E2eManager) :
    EStateM.Result E2eError E2eManager (Option KeyRsp) → Prop where
  | refused (err : E2eError) :
      KeyreqRun cr e senderHandle senderNick req m (.error err (limited e m senderHandle))
  | disabled : KeyreqRun cr e senderHandle senderNick req m (.ok none (limited e m senderHandle))
  | rejected (err : E2eError) : KeyreqRun cr e senderHandle senderNick req m
      (.error err (warned cr e (limited e m senderHandle) senderHandle req.channel req.pubkey))
  | broken (err : E2eError) {k : Keyring} :
      pinOnKeyreq cr e m.keyring senderHandle senderNick req = .ok k →
      KeyreqRun cr e senderHandle senderNick req m
        (.error err { limited e m senderHandle with keyring := k })
  | served {mode : ChannelMode} {k : Keyring} :
      KeyreqAdmitted cr e m senderHandle senderNick req mode k →
      (mode = .autoAccept ∨
        trustedRow (m.keyring.incoming.get? (senderHandle, req.channel)) = true) →
      KeyreqRun cr e senderHandle senderNick req m
        ((do return some (← serveKeyrsp cr e senderHandle req) : M (Option KeyRsp)).run
          { limited e m senderHandle with keyring := k })
  | cached {k : Keyring} : KeyreqAdmitted cr e m senderHandle senderNick req .normal k →
      trustedRow (m.keyring.incoming.get? (senderHandle, req.channel)) = false →
      KeyreqRun cr e senderHandle senderNick req m
        (.ok none (cached cr e { limited e m senderHandle with keyring := k } senderHandle
          senderNick req))
  | dropped {k : Keyring} : KeyreqAdmitted cr e m senderHandle senderNick req .quiet k →
      trustedRow (m.keyring.incoming.get? (senderHandle, req.channel)) = false →
      KeyreqRun cr e senderHandle senderNick req m
        (.ok none { limited e m senderHandle with keyring := k })

/-- A KEYREQ has passed the gates up to the pin of its sender: it is answered in the channel's
`mode`, over the keyring `k` in which the sender is pinned. -/
structure KeyreqPinned (cr : Crates) (e : Env) (m : E2eManager) (senderHandle : Str)
    (senderNick : Option Str) (req : KeyReq) (mode : ChannelMode) (k : Keyring) : Prop where
  allowed : (m.rateLimiter.allowIncoming e.instant senderHandle).1 = true
  signed : verifyKeyreq cr req = .ok ()
  policy : effectiveChannelMode cr e m.keyring senderHandle req.channel = .ok (some mode)
  pinned : pinOnKeyreq cr e m.keyring senderHandle senderNick req = .ok k

/-- The end of `handle_keyreq_with_nick`, after the pin. -/
def answerKeyreq (cr : Crates) (e : Env) (senderHandle : Str) (senderNick : Option Str)
    (req : KeyReq) (mode : ChannelMode) : M (Option KeyRsp) := do
  let alreadyTrusted ← isTrusted e senderHandle req.channel
  match mode with
  | .autoAccept => return some (← serveKeyrsp cr e senderHandle req)
  | .normal =>
    if alreadyTrusted then return some (← serveKeyrsp cr e senderHandle req)
    else
      cachePendingInboundNormalMode cr e senderHandle senderNick req (fingerprint cr req.pubkey)
      return none
  | .quiet =>
    if alreadyTrusted then return some (← serveKeyrsp cr e senderHandle req)
    else return none

theorem run_handleKeyreq_of_pinned {m : E2eManager} {senderHandle : Str}
    {senderNick : Option Str} {req : KeyReq} {mode : ChannelMode} {k : Keyring}
    (h : KeyreqPinned cr e m senderHandle senderNick req mode k) :
    (handleKeyreqWithNick cr e senderHandle senderNick req).run m =
      (answerKeyreq cr e senderHandle senderNick req mode).run
        { limited e m senderHandle with keyring := k } := by
  have hallow : (allowIncomingKeyreq e senderHandle).run m = .ok true (limited e m senderHandle) :=
    h.allowed ▸ rfl
  have htofu := @run_tofuUpsertOnKeyreq cr e (limited e m senderHandle) senderHandle senderNick req
  have hpin : pinOnKeyreq cr e (limited e m senderHandle).keyring senderHandle senderNick req =
    .ok k := h.pinned
  have hpolicy : effectiveChannelMode cr e (limited e m senderHandle).keyring senderHandle
    req.channel = .ok (some mode) := h.policy
  rw [hpin] at htofu
  unfold handleKeyreqWithNick
  rw [bind_of_ok hallow, bind_of_ok (run_require_of_true rfl _ _), h.signed,
    bind_of_ok (run_lift_ok () _), bind_of_ok (run_ask_of_ok hpolicy)]
  dsimp only
  rw [bind_of_ok htofu]
  rfl

/-- A KEYREQ that does not get to the pin of its sender writes a warning at most. -/
theorem run_handleKeyreq_of_not_pinned {m : E2eManager} {senderHandle : Str}
    {senderNick : Option Str} {req : KeyReq}
    (h : ∀ mode k, ¬ KeyreqPinned cr e m senderHandle senderNick req mode k) :
    (∃ err, (handleKeyreqWithNick cr e senderHandle senderNick req).run m =
      .error err (limited e m senderHandle)) ∨
    (handleKeyreqWithNick cr e senderHandle senderNick req).run m =
      .ok none (limited e m senderHandle) ∨
    ∃ err, (handleKeyreqWithNick cr e senderHandle senderNick req).run m = .error err
      (warned cr e (limited e m senderHandle) senderHandle req.channel req.pubkey) := by
  have hallow : (allowIncomingKeyreq e senderHandle).run m =
    .ok (m.rateLimiter.allowIncoming e.instant senderHandle).1 (limited e m senderHandle) := rfl
  unfold handleKeyreqWithNick
  rw [bind_of_ok hallow]
  cases ha : (m.rateLimiter.allowIncoming e.instant senderHandle).1 with
  | false => exact .inl ⟨_, bind_of_error (run_require_of_false rfl _ _)⟩
  | true =>
    rw [bind_of_ok (run_require_of_true rfl _ _)]
    cases hs : verifyKeyreq cr req with
    | error err => exact .inl ⟨err, bind_of_error (run_lift_error err _)⟩
    | ok u =>
      rw [bind_of_ok (run_lift_ok u _)]
      cases hp : effectiveChannelMode cr e m.keyring senderHandle req.channel with
      | error err => exact .inl ⟨err, bind_of_error (run_ask_of_error hp)⟩
      | ok policy =>
        rw [bind_of_ok (run_ask_of_ok hp)]
        cases policy with
        | none => exact .inr (.inl rfl)
        | some mode =>
          have htofu := @run_tofuUpsertOnKeyreq cr e (limited e m senderHandle) senderHandle
            senderNick req
          cases hpin : pinOnKeyreq cr e (limited e m senderHandle).keyring senderHandle
              senderNick req with
          | error err =>
            rw [hpin] at htofu
            exact .inr (.inr ⟨err, bind_of_error htofu⟩)
          | ok k => exact absurd ⟨ha, hs, hp, hpin⟩ (h mode k)

/-- Pinning a peer leaves the sessions alone. -/
theorem incoming_of_pinOnKeyreq {k k' : Keyring} {senderHandle : Str} {senderNick : Option Str}
    {req : KeyReq} (h : pinOnKeyreq cr e k senderHandle senderNick req = .ok k') :
    k'.incoming = k.incoming := by
  obtain ⟨change, rec, -, -, -, -, rfl⟩ := pinOnKeyreq_eq_ok h
  rfl

theorem run_handleKeyreq (m : E2eManager) (senderHandle : Str) (senderNick : Option Str)
    (req : KeyReq) :
    KeyreqRun cr e senderHandle senderNick req m
      ((handleKeyreqWithNick cr e senderHandle senderNick req).run m) := by
  by_cases hpinned : ∃ mode k, KeyreqPinned cr e m senderHandle senderNick req mode k
  swap
  · obtain ⟨err, hrun⟩ | hrun | ⟨err, hrun⟩ :=
      run_handleKeyreq_of_not_pinned (fun mode k h => hpinned ⟨mode, k, h⟩)
    · exact hrun ▸ .refused err
    · exact hrun ▸ .disabled
    · exact hrun ▸ .rejected err
  obtain ⟨mode, k, h⟩ := hpinned
  rw [run_handleKeyreq_of_pinned h, answerKeyreq]
  cases hf : e.fault .getIncomingSession with
  | some err =>
    have herr : (isTrusted e senderHandle req.channel).run
        { limited e m senderHandle with keyring := k } =
        .error err { limited e m senderHandle with keyring := k } :=
      bind_of_error (run_ask_of_error (by simp [Keyring.getIncomingSession, Env.exec, hf]))
    rw [bind_of_error herr]
    exact .broken err h.pinned
  | none =>
    have had : KeyreqAdmitted cr e m senderHandle senderNick req mode k :=
      ⟨h.allowed, h.signed, h.policy, h.pinned, hf⟩
    rw [bind_of_ok (run_isTrusted _ _ _ hf)]
    simp only [incoming_of_pinOnKeyreq h.pinned]
    cases ht : trustedRow (m.keyring.incoming.get? (senderHandle, req.channel)) with
    | true => cases mode <;> exact .served had (.inr ht)
    | false =>
      cases mode with
      | autoAccept => exact .served had (.inl rfl)
      | quiet => exact .dropped had ht
      | normal =>
        have hcache := @run_cachePendingInboundNormalMode cr e
          { limited e m senderHandle with keyring := k } senderHandle senderNick req
        exact bind_of_ok hcache ▸ .cached had ht

/-! ### KEYRSP -/

/-- The gates of a KEYRSP are passed: it unwraps to `sk` under our in-flight handshake `key`, and
its responder may be pinned. -/
structure KeyrspAdmitted (cr : Crates) (e : Env) (m : E2eManager) (senderHandle : Str)
    (rsp : KeyRsp) (sk : SessionKey) (key : Str × Bytes 16) (change : TrustChange) : Prop where
  signed : verifyKeyrsp cr rsp = .ok ()
  matched : matchKeyrsp cr e m.pending rsp = some (sk, key)
  classified : classifyPeerChange e m.keyring (fingerprint cr rsp.pubkey) senderHandle = .ok change
  admitted : change.admits = true
  stored : e.fault .upsertPeer = none

/-- The row that a KEYRSP pins its responder with. -/
def responder (cr : Crates) (e : Env) (senderHandle : Str) (rsp : KeyRsp) : PeerRecord :=
  { fingerprint := fingerprint cr rsp.pubkey, pubkey := rsp.pubkey,
    lastHandle := some senderHandle, lastNick := none, firstSeen := e.now, lastSeen := e.now,
    globalStatus := .trusted }

/-- The session that a KEYRSP delivers. -/
def rspSession (cr : Crates) (e : Env) (senderHandle : Str) (rsp : KeyRsp) (sk : SessionKey) :
    IncomingSession :=
  { handle := senderHandle, channel := rsp.channel, fingerprint := fingerprint cr rsp.pubkey,
    sk := sk, status := .trusted, createdAt := e.now }

/-- Everything that the handling of a KEYRSP can come to. -/
inductive KeyrspRun (cr : Crates) (e : Env) (senderHandle : Str) (rsp : KeyRsp)
    (m : E2eManager) : EStateM.Result E2eError E2eManager Unit → Prop where
  | refused (err : E2eError) : KeyrspRun cr e senderHandle rsp m (.error err m)
  | rejected (err : E2eError) (key : Str × Bytes 16) (notices : List PendingTrustNotice) :
      KeyrspRun cr e senderHandle rsp m
        (.error err { m with pending := m.pending.erase key, pendingTrustChange := notices })
  | pinned (err : E2eError) (notices : List PendingTrustNotice) {sk : SessionKey}
      {key : Str × Bytes 16} {change : TrustChange} :
      KeyrspAdmitted cr e m senderHandle rsp sk key change →
      KeyrspRun cr e senderHandle rsp m
        (.error err { m with
          pending := m.pending.erase key
          pendingTrustChange := notices
          keyring := m.keyring.putPeer (responder cr e senderHandle rsp) })
  | installed {sk : SessionKey} {key : Str × Bytes 16} {change : TrustChange} {k : Keyring} :
      KeyrspAdmitted cr e m senderHandle rsp sk key change →
      (m.keyring.putPeer (responder cr e senderHandle rsp)).installIncomingSessionStrict e cr
        (rspSession cr e senderHandle rsp sk) = .ok k →
      KeyrspRun cr e senderHandle rsp m
        (.ok () { m with pending := m.pending.erase key, keyring := k })

/-- The installation of a KEYRSP's session fails without a change, but for a warning. -/
theorem run_installKeyrspSession (m : E2eManager) (senderHandle : Str) (rsp : KeyRsp)
    (sk : SessionKey) :
    (∃ k, m.keyring.installIncomingSessionStrict e cr (rspSession cr e senderHandle rsp sk) =
        .ok k ∧
      (installKeyrspSession cr e senderHandle rsp (fingerprint cr rsp.pubkey) sk).run m =
        .ok () { m with keyring := k }) ∨
    ∃ err notices,
      (installKeyrspSession cr e senderHandle rsp (fingerprint cr rsp.pubkey) sk).run m =
        .error err { m with pendingTrustChange := notices } := by
  unfold installKeyrspSession
  cases hi : m.keyring.installIncomingSessionStrict e cr (rspSession cr e senderHandle rsp sk) with
  | ok k =>
    refine .inl ⟨k, rfl, ?_⟩
    rw [bind_of_ok (by rw [run_attempt, run_tell_of_ok hi])]
    rfl
  | error err =>
    refine .inr ?_
    rw [bind_of_ok (by rw [run_attempt, run_tell_of_error hi])]
    cases err with
    | handleMismatch expected got =>
      cases hg : m.keyring.getIncomingSession e senderHandle rsp.channel with
      | ok existing => exact ⟨_, _, bind_of_ok (run_ask_of_ok hg)⟩
      | error err =>
        exact ⟨err, m.pendingTrustChange, bind_of_error (run_ask_of_error hg)⟩
    | _ => exact ⟨_, m.pendingTrustChange, rfl⟩

theorem run_rejectTrustChange {α : Type} (m : E2eManager) (senderHandle channel : Str)
    (change : TrustChange) (pubkey : Bytes 32) :
    (rejectTrustChange cr senderHandle channel change pubkey : M α).run m =
      .error (handleMismatchFor cr change senderHandle) { m with pendingTrustChange :=
        m.pendingTrustChange ++ [⟨senderHandle, channel, change, change.noticePubkey pubkey⟩] } :=
  rfl

/-- A KEYRSP consumes the in-flight handshake that unwraps it, and fails without a change
otherwise. -/
theorem run_consumeMatchingPending (m : E2eManager) (rsp : KeyRsp) :
    (∃ sk key, matchKeyrsp cr e m.pending rsp = some (sk, key) ∧
      (consumeMatchingPendingForKeyrsp cr e rsp).run m =
        .ok sk { m with pending := m.pending.erase key }) ∨
    ∃ err, (consumeMatchingPendingForKeyrsp cr e rsp).run m = .error err m := by
  unfold consumeMatchingPendingForKeyrsp
  rw [bind_of_ok (rfl : (get : M E2eManager).run m = .ok m m)]
  cases hc : (candidateKeys e m.pending rsp.channel).isEmpty with
  | true => exact .inr ⟨_, bind_of_error (run_require_of_false rfl _ _)⟩
  | false =>
    rw [bind_of_ok (run_require_of_true (by rfl) _ _)]
    cases hm : matchKeyrsp cr e m.pending rsp with
    | none => exact .inr ⟨_, rfl⟩
    | some r => exact .inl ⟨r.1, r.2, rfl, rfl⟩

theorem run_handleKeyrsp (m : E2eManager) (senderHandle : Str) (rsp : KeyRsp) :
    KeyrspRun cr e senderHandle rsp m ((handleKeyrsp cr e senderHandle rsp).run m) := by
  unfold handleKeyrsp
  cases hs : verifyKeyrsp cr rsp with
  | error err => exact .refused err
  | ok u =>
    rw [bind_of_ok (run_lift_ok u m)]
    obtain ⟨sk, key, hm, hrun⟩ | ⟨err, hrun⟩ := @run_consumeMatchingPending cr e m rsp
    · rw [bind_of_ok hrun]
      cases hc : classifyPeerChange e m.keyring (fingerprint cr rsp.pubkey) senderHandle with
      | error err =>
        rw [bind_of_error (run_ask_of_error hc)]
        exact .rejected err key m.pendingTrustChange
      | ok change =>
        rw [bind_of_ok (run_ask_of_ok hc)]
        by_cases ha : change.admits
        · rw [if_pos ha]
          cases hu : m.keyring.upsertPeer e (responder cr e senderHandle rsp) with
          | error err =>
            rw [bind_of_error (run_tell_of_error hu)]
            exact .rejected err key m.pendingTrustChange
          | ok k =>
            rw [bind_of_ok (run_tell_of_ok hu)]
            obtain ⟨hf, rfl⟩ := Env.exec_eq_ok_iff.mp hu
            have had : KeyrspAdmitted cr e m senderHandle rsp sk key change :=
              ⟨hs, hm, hc, ha, hf⟩
            obtain ⟨k, hi, hrun⟩ | ⟨err, notices, hrun⟩ := @run_installKeyrspSession cr e
              { m with
                pending := m.pending.erase key
                keyring := m.keyring.putPeer (responder cr e senderHandle rsp) }
              senderHandle rsp sk
            · rw [hrun]
              exact .installed had hi
            · rw [hrun]
              exact .pinned err notices had
        · rw [if_neg ha, run_rejectTrustChange]
          exact .rejected _ key _
    · rw [bind_of_error hrun]
      exact .refused err

/-! ### REKEY -/

/-- The session that a REKEY delivers. -/
def rekeySession (cr : Crates) (e : Env) (senderHandle : Str) (rekey : KeyRekey)
    (sk : SessionKey) : IncomingSession :=
  { handle := senderHandle, channel := rekey.channel, fingerprint := fingerprint cr rekey.pubkey,
    sk := sk, status := .trusted, createdAt := e.now }

/-- The gates of a REKEY are passed: its sender is known and it unwraps to `sk`, which is
installed in the keyring `k`. -/
structure RekeyAdmitted (cr : Crates) (e : Env) (m : E2eManager) (senderHandle : Str)
    (rekey : KeyRekey) (sk : SessionKey) (k : Keyring) : Prop where
  signed : verifyRekey cr rekey = .ok ()
  classified :
    classifyPeerChange e m.keyring (fingerprint cr rekey.pubkey) senderHandle = .ok .known
  unwrapped : unwrapRekey cr m.identity rekey = .ok sk
  installed : m.keyring.installIncomingSessionStrict e cr
    (rekeySession cr e senderHandle rekey sk) = .ok k

/-- Everything that the handling of a REKEY can come to. -/
inductive RekeyRun (cr : Crates) (e : Env) (senderHandle : Str) (rekey : KeyRekey)
    (m : E2eManager) : EStateM.Result E2eError E2eManager Unit → Prop where
  | refused (err : E2eError) (notices : List PendingTrustNotice) :
      RekeyRun cr e senderHandle rekey m (.error err { m with pendingTrustChange := notices })
  | installed {sk : SessionKey} {k : Keyring} : RekeyAdmitted cr e m senderHandle rekey sk k →
      RekeyRun cr e senderHandle rekey m (.ok () { m with keyring := k })

theorem run_handleRekey (m : E2eManager) (senderHandle : Str) (rekey : KeyRekey) :
    RekeyRun cr e senderHandle rekey m ((handleRekey cr e senderHandle rekey).run m) := by
  unfold handleRekey
  cases hs : verifyRekey cr rekey with
  | error err => exact .refused err m.pendingTrustChange
  | ok u =>
    rw [bind_of_ok (run_lift_ok u m)]
    dsimp only
    cases hc : classifyPeerChange e m.keyring (fingerprint cr rekey.pubkey) senderHandle with
    | error err =>
      rw [bind_of_error (run_ask_of_error hc)]
      exact .refused err m.pendingTrustChange
    | ok change =>
      rw [bind_of_ok (run_ask_of_ok hc)]
      cases change with
      | new => exact .refused _ m.pendingTrustChange
      | known =>
        dsimp only
        rw [bind_of_ok (rfl : (get : M E2eManager).run m = .ok m m)]
        cases hu : unwrapRekey cr m.identity rekey with
        | error err => exact .refused err m.pendingTrustChange
        | ok sk =>
          rw [bind_of_ok (run_lift_ok sk m)]
          cases hi : m.keyring.installIncomingSessionStrict e cr
              (rekeySession cr e senderHandle rekey sk) with
          | error err =>
            rw [run_tell_of_error hi]
            exact .refused err m.pendingTrustChange
          | ok k =>
            rw [run_tell_of_ok hi]
            exact .installed ⟨hs, hc, hu, hi⟩
      | handleChanged => exact .refused _ _
      | fingerprintChanged => exact .refused _ _
      | revoked => exact .refused _ _

/-- An installed session evicts the row of its handle and channel, which had its fingerprint. -/
theorem install_eq_ok {k k' : Keyring} {s : IncomingSession}
    (h : k.installIncomingSessionStrict e cr s = .ok k') :
    k' = { k with incoming := k.incoming.replace s } ∧
      ∀ s', k.incoming.get? (s.handle, s.channel) = some s' → s'.fingerprint = s.fingerprint := by
  unfold Keyring.installIncomingSessionStrict at h
  cases hf : e.fault .installIncomingSession with
  | some err => simp [hf] at h
  | none =>
    cases hg : k.incoming.get? (s.handle, s.channel) with
    | none => exact ⟨by simpa [hf, hg, eq_comm] using h, by simp⟩
    | some s' =>
      by_cases hfp : s'.fingerprint = s.fingerprint
      · exact ⟨by simpa [hf, hg, hfp, eq_comm] using h, fun s'' hs => Option.some.inj hs ▸ hfp⟩
      · simp [hf, hg, hfp] at h

theorem install_ok {k : Keyring} {s : IncomingSession}
    (hf : e.fault .installIncomingSession = none)
    (hs : ∀ s', k.incoming.get? (s.handle, s.channel) = some s' →
      s'.fingerprint = s.fingerprint) :
    k.installIncomingSessionStrict e cr s =
      .ok { k with incoming := k.incoming.replace s } := by
  unfold Keyring.installIncomingSessionStrict
  cases hg : k.incoming.get? (s.handle, s.channel) with
  | none => simp [hf]
  | some s' => simp [hf, hs s' hg]

/-! ### Accept -/

/-- Everything that accepting a cached KEYREQ can come to. -/
inductive AcceptRun (cr : Crates) (e : Env) (senderHandle channel : Str) (m : E2eManager) :
    EStateM.Result E2eError E2eManager (Option KeyRsp) → Prop where
  | missing : AcceptRun cr e senderHandle channel m (.ok none m)
  | failed (err : E2eError) : AcceptRun cr e senderHandle channel m
      (.error err { m with pendingInbound := m.pendingInbound.erase (senderHandle, channel) })
  | served {req : KeyReq} {rec : PeerRecord} :
      m.pendingInbound.lookup (senderHandle, channel) = some req →
      rec.fingerprint = fingerprint cr req.pubkey → rec.lastHandle = some senderHandle →
      AcceptRun cr e senderHandle channel m
        ((do return some (← serveKeyrsp cr e senderHandle req) : M (Option KeyRsp)).run
          { m with
            pendingInbound := m.pendingInbound.erase (senderHandle, channel)
            keyring := m.keyring.putPeer rec })

/-- The row that `/e2e accept` pins the initiator with. -/
def accepted (cr : Crates) (e : Env) (existing : Option PeerRecord) (senderHandle : Str)
    (req : KeyReq) : PeerRecord :=
  { fingerprint := fingerprint cr req.pubkey, pubkey := req.pubkey,
    lastHandle := some senderHandle, lastNick := existing.bind PeerRecord.lastNick,
    firstSeen := (existing.map PeerRecord.firstSeen).getD e.now, lastSeen := e.now,
    globalStatus := .trusted }

theorem run_buildKeyrspForAccepted (m : E2eManager) (senderHandle : Str) (req : KeyReq) :
    (∃ err, (buildKeyrspForAcceptedRequest cr e senderHandle req).run m = .error err m) ∨
    ∃ rec : PeerRecord, rec.fingerprint = fingerprint cr req.pubkey ∧
      rec.lastHandle = some senderHandle ∧
      (buildKeyrspForAcceptedRequest cr e senderHandle req).run m =
        (serveKeyrsp cr e senderHandle req).run { m with keyring := m.keyring.putPeer rec } := by
  unfold buildKeyrspForAcceptedRequest
  cases hg : m.keyring.getPeerByFingerprint e (fingerprint cr req.pubkey) with
  | error err => exact .inl ⟨err, bind_of_error (run_ask_of_error hg)⟩
  | ok existing =>
    dsimp only
    rw [bind_of_ok (run_ask_of_ok hg)]
    cases hf : e.fault .upsertPeer with
    | some err => exact .inl ⟨err, bind_of_error (run_tell_of_error (by
        simp [Keyring.upsertPeer, Env.exec, hf]))⟩
    | none =>
      refine .inr ⟨accepted cr e existing senderHandle req, rfl, rfl, ?_⟩
      exact bind_of_ok (run_tell_of_ok (Env.exec_eq_ok_iff.mpr ⟨hf, rfl⟩))

theorem run_acceptPendingInbound (m : E2eManager) (senderHandle channel : Str) :
    AcceptRun cr e senderHandle channel m
      ((acceptPendingInbound cr e senderHandle channel).run m) := by
  unfold acceptPendingInbound
  rw [bind_of_ok (rfl : (get : M E2eManager).run m = .ok m m)]
  cases hl : m.pendingInbound.lookup (senderHandle, channel) with
  | none => exact .missing
  | some req =>
    dsimp only
    rw [bind_of_ok (rfl : (set _ : M Unit).run m = .ok () _)]
    obtain ⟨err, hrun⟩ | ⟨rec, hfp, hh, hrun⟩ := @run_buildKeyrspForAccepted cr e
      { m with pendingInbound := m.pendingInbound.erase (senderHandle, channel) } senderHandle req
    · rw [bind_of_error hrun]
      exact .failed err
    · rw [bind_of_run_eq hrun]
      exact .served hl hfp hh

end E2eManager

end Repartee
