import Repartee.E2e.Reverify

/-!
# The binding of handles to fingerprints

No two peer rows share a last known handle, and every incoming session belongs to a peer row
pinned at its handle. Handshakes keep this because a row is only written for an identity that is
free or already pinned where it speaks from. Applying a queued identity change checks neither, and
a removal that fails half-way leaves sessions behind.

## Main results

- `bound_step`: what keeps the binding
- `handles_bound`: the runs in which the binding holds
-/

set_option autoImplicit false

namespace Repartee.E2eManager

open Exec

variable {cr : Crates} {e : Env}

/-- The table of the pinned peers. -/
abbrev Peers := Table PeerRecord PeerRecord.fingerprint

/-- A fingerprint is pinned at a handle. -/
def Pinned (t : Peers) (fp : Fingerprint) (handle : Str) : Prop :=
  ∃ p, t.get? fp = some p ∧ p.lastHandle = some handle

/-- A fingerprint may be pinned at a handle: it is already, or both are free. -/
def Pinnable (t : Peers) (fp : Fingerprint) (handle : Str) : Prop :=
  Pinned t fp handle ∨ (t.get? fp = none ∧ ∀ p ∈ t.rows, p.lastHandle ≠ some handle)

/-- At most one row has any given last known handle. -/
def OneHandle (t : Peers) : Prop :=
  ∀ p ∈ t.rows, ∀ q ∈ t.rows, p.lastHandle = q.lastHandle → p = q

/-- The binding of handles to fingerprints. -/
structure HandlesBound (m : E2eManager) : Prop where
  oneHandle : OneHandle m.keyring.peers
  sessions : ∀ s ∈ m.keyring.incoming.rows, Pinned m.keyring.peers s.fingerprint s.handle

/-- The binding, together with that of the cached requests. -/
structure Bound (cr : Crates) (c : Core) : Prop where
  oneHandle : OneHandle c.peers
  sessions : ∀ s ∈ c.incoming.rows, Pinned c.peers s.fingerprint s.handle
  cached : ∀ key req, c.inbound.lookup key = some req →
    Pinned c.peers (fingerprint cr req.pubkey) key.1

/-! ### Pinning a peer -/

theorem pinnable_of_admits {k : Keyring} {fp : Fingerprint} {handle : Str} {change : TrustChange}
    (hc : classifyPeerChange e k fp handle = .ok change) (ha : change.admits = true) :
    Pinnable k.peers fp handle := by
  cases change with
  | new => exact .inr (classify_new hc)
  | known => exact .inl (classify_known hc)
  | _ => simp [TrustChange.admits] at ha

section

variable {k : Keyring} {rec : PeerRecord} {handle : Str}

theorem mem_putPeer {p : PeerRecord} (hl : rec.lastHandle = some handle)
    (hp : p ∈ (k.putPeer rec).peers.rows) :
    (p ∈ k.peers.rows ∧ p.fingerprint ≠ rec.fingerprint) ∨
      (p.fingerprint = rec.fingerprint ∧ p.lastHandle = some handle) := by
  rcases Table.mem_upsert_iff.mp hp with h | rfl
  · exact .inl h
  · refine .inr ?_
    cases hg : k.peers.get? rec.fingerprint with
    | none => exact ⟨rfl, hl⟩
    | some old =>
      have hf : old.fingerprint = rec.fingerprint := Table.key_of_get? hg
      exact ⟨hf, hl⟩

theorem pinned_putPeer_self (hl : rec.lastHandle = some handle) :
    Pinned (k.putPeer rec).peers rec.fingerprint handle := by
  refine ⟨_, (Table.get?_upsert _ _ _ _ _).trans (if_pos rfl), ?_⟩
  cases k.peers.get? rec.fingerprint <;> exact hl

theorem oneHandle_putPeer (hl : rec.lastHandle = some handle)
    (hfree : Pinnable k.peers rec.fingerprint handle) (h : OneHandle k.peers) :
    OneHandle (k.putPeer rec).peers := by
  -- no other row has the handle
  have hother : ∀ p ∈ k.peers.rows, p.fingerprint ≠ rec.fingerprint →
      p.lastHandle ≠ some handle := by
    intro p hp hne hph
    rcases hfree with ⟨q, hq, hqh⟩ | ⟨-, hnone⟩
    · obtain rfl := h p hp q (Table.mem_of_get? hq) (hph.trans hqh.symm)
      exact hne (Table.key_of_get? hq)
    · exact hnone p hp hph
  intro p hp q hq hpq
  rcases mem_putPeer hl hp with ⟨hp', hpf⟩ | ⟨hpf, hph⟩ <;>
    rcases mem_putPeer hl hq with ⟨hq', hqf⟩ | ⟨hqf, hqh⟩
  · exact h p hp' q hq' hpq
  · exact absurd (hpq.trans hqh) (hother p hp' hpf)
  · exact absurd (hpq.symm.trans hph) (hother q hq' hqf)
  · exact Option.some.inj ((Table.get?_of_mem hp).symm.trans
      ((congrArg _ (hpf.trans hqf.symm)).trans (Table.get?_of_mem hq)))

theorem pinned_putPeer {fp : Fingerprint} {other : Str} (hl : rec.lastHandle = some handle)
    (hfree : Pinnable k.peers rec.fingerprint handle) (h : Pinned k.peers fp other) :
    Pinned (k.putPeer rec).peers fp other := by
  by_cases hfp : rec.fingerprint = fp
  · subst hfp
    obtain ⟨p, hp, hph⟩ := h
    rcases hfree with ⟨q, hq, hqh⟩ | ⟨hnone, -⟩
    · obtain rfl := Option.some.inj (hp.symm.trans hq)
      obtain rfl := Option.some.inj (hph.symm.trans hqh)
      exact pinned_putPeer_self hl
    · simp [hnone] at hp
  · obtain ⟨p, hp, hph⟩ := h
    exact ⟨p, (Table.get?_upsert _ _ _ _ _).trans ((if_neg hfp).trans hp), hph⟩

/-- Pinning a peer keeps the binding. -/
theorem Bound.putPeer {c : Core} (h : Bound cr c) (hc : c.peers = k.peers)
    (hl : rec.lastHandle = some handle) (hfree : Pinnable k.peers rec.fingerprint handle) :
    Bound cr { c with peers := (k.putPeer rec).peers } where
  oneHandle := oneHandle_putPeer hl hfree (hc ▸ h.oneHandle)
  sessions s hs := pinned_putPeer hl hfree (hc ▸ h.sessions s hs)
  cached key req hr := pinned_putPeer hl hfree (hc ▸ h.cached key req hr)

end

/-! ### Sessions and requests -/

section

variable {c : Core}

/-- Installing the session of a pinned identity keeps the binding. -/
theorem Bound.install (h : Bound cr c) {s : IncomingSession}
    (hs : Pinned c.peers s.fingerprint s.handle) :
    Bound cr { c with incoming := c.incoming.replace s } where
  oneHandle := h.oneHandle
  sessions s' hs' := by
    rcases Table.mem_replace.mp hs' with rfl | ⟨hmem, -⟩
    · exact hs
    · exact h.sessions s' hmem
  cached := h.cached

/-- Fewer sessions keep the binding. -/
theorem Bound.subset (h : Bound cr c) {t : Sessions}
    (ht : ∀ s ∈ t.rows, ∃ s' ∈ c.incoming.rows, s.fingerprint = s'.fingerprint ∧
      s.handle = s'.handle) : Bound cr { c with incoming := t } where
  oneHandle := h.oneHandle
  sessions s hs := by
    obtain ⟨s', hs', hfp, hh⟩ := ht s hs
    exact hfp ▸ hh ▸ h.sessions s' hs'
  cached := h.cached

/-- Fewer requests keep the binding. -/
theorem Bound.requests (h : Bound cr c) {d : Dict (Str × Str) KeyReq}
    (hd : ∀ key req, d.lookup key = some req → c.inbound.lookup key = some req) :
    Bound cr { c with inbound := d } where
  oneHandle := h.oneHandle
  sessions := h.sessions
  cached key req hr := h.cached key req (hd key req hr)

/-- Caching the request of a pinned identity keeps the binding. -/
theorem Bound.cache (h : Bound cr c) {handle channel : Str} {req : KeyReq}
    (hp : Pinned c.peers (fingerprint cr req.pubkey) handle) :
    Bound cr { c with inbound := c.inbound.insert (handle, channel) req } where
  oneHandle := h.oneHandle
  sessions := h.sessions
  cached key req' hr := by
    rw [Dict.lookup_insert] at hr
    split at hr
    · rename_i hk
      obtain rfl := Option.some.inj hr
      exact hk ▸ hp
    · exact h.cached key req' hr

end

/-! ### Removals -/

/-- The statements that delete the sessions and the recipient rows of a handle succeed. -/
structure SweepStored (e : Env) : Prop where
  sessions : e.fault .deleteIncomingSessionsForHandle = none
  recipients : e.fault .deleteOutgoingRecipientsForHandle = none

/-- The trust state without the sessions and the cached requests of a handle. -/
def swept (handle : Str) (c : Core) : Core where
  peers := c.peers
  incoming := c.incoming.deleteWhere (fun s => s.handle = handle)
  inbound := c.inbound.retain (fun k _ => k.1 ≠ handle)

/-- A sweep whose statements succeed runs to its end. -/
theorem run_sweep (hs : SweepStored e) {α : Type} (handle : Str) (f : Nat → Nat → Nat → M α)
    (m : E2eManager) : ∃ n₁ n₂ n₃ m', core m' = swept handle (core m) ∧
      (do
        let n₁ ← tellCount (fun k => k.deleteIncomingSessionsForHandle e handle)
        let n₂ ← tellCount (fun k => k.deleteOutgoingRecipientsForHandle e handle)
        let n₃ ← clearPendingStateForHandle handle
        f n₁ n₂ n₃ : M α).run m = (f n₁ n₂ n₃).run m' := by
  have hsess : ∀ m : E2eManager, m.keyring.deleteIncomingSessionsForHandle e handle = .ok _ :=
    fun _ => Env.exec_eq_ok_iff.mpr ⟨hs.sessions, rfl⟩
  have hrec : ∀ m : E2eManager, m.keyring.deleteOutgoingRecipientsForHandle e handle = .ok _ :=
    fun _ => Env.exec_eq_ok_iff.mpr ⟨hs.recipients, rfl⟩
  rw [bind_of_ok (run_tellCount_of_ok (hsess m)), bind_of_ok (run_tellCount_of_ok (hrec _))]
  obtain ⟨n₃, m', hrun, hk, hi⟩ := run_clearPendingStateForHandle _ handle
  rw [bind_of_ok hrun]
  refine ⟨_, _, n₃, m', ?_, rfl⟩
  rw [core, hk, hi]
  rfl

/-- Removing the row of a fingerprint that is pinned at no other handle, and sweeping the handle,
keeps the binding. -/
theorem Bound.remove {c : Core} (h : Bound cr c) {handle : Str} {fp : Fingerprint}
    (hfp : ∀ p ∈ c.peers.rows, p.fingerprint = fp → p.lastHandle = some handle) :
    Bound cr (swept handle
      { c with peers := c.peers.deleteWhere (fun p => p.fingerprint = fp) }) := by
  have hkeep : ∀ fp' other, Pinned c.peers fp' other → other ≠ handle →
      Pinned (c.peers.deleteWhere (fun p => p.fingerprint = fp)) fp' other := by
    rintro fp' other ⟨p, hp, hph⟩ hne
    refine ⟨p, ?_, hph⟩
    have hpf : p.fingerprint ≠ fp := by
      intro he
      exact hne (Option.some.inj (hph.symm.trans (hfp p (Table.mem_of_get? hp) he)))
    rw [Table.get?_deleteWhere, hp]
    simp [Option.filter, hpf]
  refine ⟨?_, ?_, ?_⟩
  · intro p hp q hq hpq
    exact h.oneHandle p (Table.mem_deleteWhere.mp hp).1 q (Table.mem_deleteWhere.mp hq).1 hpq
  · intro s hs
    obtain ⟨hmem, hne⟩ := Table.mem_deleteWhere.mp hs
    exact hkeep _ _ (h.sessions s hmem) (by simpa using hne)
  · intro key req hr
    obtain ⟨hl, hne⟩ := Dict.lookup_of_retain hr
    exact hkeep _ _ (h.cached key req hl) (by simpa using hne)

/-- Sweeping a handle keeps the binding. -/
theorem Bound.sweep {c : Core} (h : Bound cr c) (handle : Str) : Bound cr (swept handle c) := by
  refine (h.subset (t := (swept handle c).incoming) ?_).requests ?_
  · intro s hs
    exact ⟨s, (Table.mem_deleteWhere.mp hs).1, rfl, rfl⟩
  · intro key req hr
    exact (Dict.lookup_of_retain hr).1

/-- The queued identity change that reverifying a handle applies, if any, fits the keyring: the
rows of the two fingerprints and of the handle are no others. -/
def ReverifyFits (m : E2eManager) (handle : Str) : Prop :=
  ∀ oldFp newFp pubkey, appliedNotice m.pendingTrustChange handle = some (oldFp, newFp, pubkey) →
    ∀ p ∈ m.keyring.peers.rows,
      (p.fingerprint = oldFp ∨ p.fingerprint = newFp) ↔ p.lastHandle = some handle

theorem bound_deletePeerAt {m : E2eManager} (handle : Str) (h : Bound cr (core m)) :
    (∃ err, (deletePeerAt e handle).run m = .error err m) ∨
    ∃ n m', (deletePeerAt e handle).run m = .ok n m' ∧ Bound cr (swept handle (core m')) := by
  unfold deletePeerAt
  cases hf : e.fault .getPeerByHandle with
  | some err =>
    refine .inl ⟨err, bind_of_error (run_ask_of_error ?_)⟩
    simp [Keyring.getPeerByHandle, Env.exec, hf]
  | none =>
    have hask : m.keyring.getPeerByHandle e handle = .ok _ :=
      Env.exec_eq_ok_iff.mpr ⟨hf, rfl⟩
    rw [bind_of_ok (run_ask_of_ok hask)]
    cases hrec : Keyring.mostRecent (m.keyring.peersAt handle) with
    | none => exact .inr ⟨0, m, rfl, h.sweep handle⟩
    | some peer =>
      dsimp only
      obtain ⟨hmem, hh⟩ := List.mem_filter.mp (mem_of_mostRecent hrec)
      cases hd : e.fault .deletePeerByFingerprint with
      | some err =>
        refine .inl ⟨err, bind_of_error (run_tell_of_error ?_)⟩
        simp [Keyring.deletePeerByFingerprint, Env.exec, hd]
      | none =>
        have hdel : m.keyring.deletePeerByFingerprint e peer.fingerprint = .ok _ :=
          Env.exec_eq_ok_iff.mpr ⟨hd, rfl⟩
        refine .inr ⟨1, _, bind_of_ok (run_tell_of_ok hdel), ?_⟩
        refine Bound.remove h (fun p hp hfp => ?_)
        have hsame := (Table.get?_of_mem hp).symm.trans
          ((congrArg _ hfp).trans (Table.get?_of_mem hmem))
        obtain rfl := Option.some.inj hsame
        simpa using hh

theorem bound_purgeHandle {m : E2eManager} (hs : SweepStored e) (handle : Str)
    (h : Bound cr (core m)) : Bound cr (core (final (E2eManager.purgeHandle e handle) m)) := by
  unfold E2eManager.purgeHandle
  obtain ⟨err, hrun⟩ | ⟨n, m', hrun, hb⟩ := @bound_deletePeerAt cr e m handle h
  · rw [final_bind_of_error hrun]
    exact h
  · rw [final_bind_of_ok hrun, final]
    obtain ⟨n₁, n₂, n₃, m'', hc, hsweep⟩ := run_sweep hs handle
      (fun n₁ n₂ n₃ => (pure (n + n₁ + n₂ + n₃) : M Nat)) m'
    rw [hsweep]
    exact hc ▸ hb

/-- Without the row of the old fingerprint, the new one may be pinned at the handle. -/
theorem pinnable_of_fits {t : Peers} {handle : Str} {oldFp newFp : Fingerprint}
    (hfit : ∀ p ∈ t.rows,
      (p.fingerprint = oldFp ∨ p.fingerprint = newFp) ↔ p.lastHandle = some handle) :
    Pinnable (t.deleteWhere (fun p => p.fingerprint = oldFp)) newFp handle := by
  cases hg : (t.deleteWhere (fun p => p.fingerprint = oldFp)).get? newFp with
  | some p =>
    have hmem := (Table.mem_deleteWhere.mp (Table.mem_of_get? hg)).1
    exact .inl ⟨p, hg, (hfit p hmem).mp (.inr (Table.key_of_get? hg))⟩
  | none =>
    refine .inr ⟨hg, fun p hp hl => ?_⟩
    obtain ⟨hmem, hne⟩ := Table.mem_deleteWhere.mp hp
    rcases (hfit p hmem).mpr hl with hold | hnew
    · exact absurd hold (by simpa using hne)
    · exact (Table.get?_eq_none_iff _ _).mp hg p hp hnew

theorem final_purge_outcome (m : E2eManager) (handle : Str) :
    final (do
      let deleted ← E2eManager.purgeHandle e handle
      if deleted = 0 then return .notFound else return .cleared deleted : M ReverifyOutcome) m =
      final (E2eManager.purgeHandle e handle) m := by
  rw [final_bind, final]
  cases (E2eManager.purgeHandle e handle).run m with
  | ok n m' =>
    dsimp only
    split <;> rfl
  | error err m' => rfl

theorem bound_reverifyPeer {m : E2eManager} (hs : SweepStored e) {handle : Str}
    (hfit : ReverifyFits m handle) (h : Bound cr (core m)) :
    Bound cr (core (final (E2eManager.reverifyPeer e handle) m)) := by
  cases ha : appliedNotice m.pendingTrustChange handle with
  | none =>
    have hb : Bound cr (core (final (E2eManager.purgeHandle e handle)
      (withoutNotices m handle))) := bound_purgeHandle hs handle h
    rw [← final_purge_outcome] at hb
    rw [final, run_reverifyPeer_of_none ha]
    exact hb
  | some notice =>
    obtain ⟨oldFp, newFp, pubkey⟩ := notice
    have hfit := hfit oldFp newFp pubkey ha
    unfold E2eManager.reverifyPeer
    rw [final_bind_of_ok (rfl : (get : M E2eManager).run m = .ok m m)]
    dsimp only
    rw [final_bind_of_ok (rfl : (set _ : M Unit).run m = .ok () _), ha]
    dsimp only
    cases hd : m.keyring.deletePeerByFingerprint e oldFp with
    | error err =>
      rw [final_bind_of_error (run_tell_of_error hd)]
      exact h
    | ok k =>
      rw [final_bind_of_ok (run_tell_of_ok hd), final]
      obtain ⟨-, rfl⟩ := Env.exec_eq_ok_iff.mp hd
      have hb := h.remove (fun p hp hfp => (hfit p hp).mp (.inl hfp))
      obtain ⟨n₁, n₂, n₃, m', hc, hsweep⟩ := run_sweep hs handle (fun _ _ _ => (do
        tell (fun k => k.upsertPeer e
          { fingerprint := newFp, pubkey := pubkey, lastHandle := some handle, lastNick := none,
            firstSeen := e.now, lastSeen := e.now, globalStatus := .trusted })
        return .applied oldFp newFp : M ReverifyOutcome)) _
      rw [hsweep]
      have hb' : Bound cr (core m') := hc ▸ hb
      have hpeers : m'.keyring.peers =
          m.keyring.peers.deleteWhere (fun p => p.fingerprint = oldFp) := congrArg Core.peers hc
      show Bound cr (core (final _ m'))
      rw [final_bind_pure, final_tell]
      split
      · rename_i k hk
        obtain ⟨-, rfl⟩ := Env.exec_eq_ok_iff.mp hk
        exact hb'.putPeer rfl rfl (hpeers ▸ pinnable_of_fits hfit)
      · exact hb'

/-! ### Steps and runs -/

/-- The steps that may break the binding: applying an identity change that does not fit the
keyring, a sweep that fails half-way, and an import. -/
inductive Unbinds (m : E2eManager) : Input → Prop where
  | stale {e : Env} {handle : Str} : ¬ ReverifyFits m handle → Unbinds m (e, .reverifyPeer handle)
  | reverify {e : Env} (handle : Str) : ¬ SweepStored e → Unbinds m (e, .reverifyPeer handle)
  | forget {e : Env} (handle : Str) : ¬ SweepStored e →
      Unbinds m (e, .forgetPeerEverywhere handle)
  | imported (e : Env) (rows : Keyring.ImportRows) : Unbinds m (e, .importAll rows)

/-- **What keeps the binding.** -/
theorem bound_step {m : E2eManager} {i : Input} (h : Bound cr (core m)) (hn : ¬ Unbinds m i) :
    Bound cr (core (step cr m i)) := by
  obtain ⟨e, op⟩ := i
  cases op with
  | keyreq hd nick req =>
    have heff := @keyreq_effect cr e m hd nick req
    generalize core (step cr m (e, .keyreq hd nick req)) = c at heff
    cases heff with
    | kept => exact h
    | pinned hp =>
      obtain ⟨change, rec, hc, ha, hfp, hl, rfl⟩ := pinOnKeyreq_eq_ok hp
      exact h.putPeer rfl hl (hfp ▸ pinnable_of_admits hc ha)
    | @cached k had ht =>
      obtain ⟨change, rec, hc, ha, hfp, hl, rfl⟩ := pinOnKeyreq_eq_ok had.pinned
      have hpin : Pinned (m.keyring.putPeer rec).peers (fingerprint cr req.pubkey) hd :=
        hfp ▸ pinned_putPeer_self hl
      have hput := h.putPeer rfl hl (hfp ▸ pinnable_of_admits hc ha)
      have hb := @Bound.cache cr _ hput hd req.channel req hpin
      unfold installed
      cases hi : (m.keyring.putPeer rec).installIncomingSessionStrict e cr
          (placeholder cr e hd req) with
      | error err => exact hb
      | ok k' =>
        obtain ⟨rfl, -⟩ := install_eq_ok hi
        exact hb.install (s := placeholder cr e hd req) hpin
  | keyrsp hd rsp =>
    have heff := @keyrsp_effect cr e m hd rsp
    generalize core (step cr m (e, .keyrsp hd rsp)) = c at heff
    cases heff with
    | kept => exact h
    | pinned had =>
      exact h.putPeer rfl rfl (pinnable_of_admits had.classified had.admitted)
    | installed had hi =>
      have hb : Bound cr { core m with
          peers := (m.keyring.putPeer (responder cr e hd rsp)).peers } :=
        h.putPeer rfl rfl (pinnable_of_admits had.classified had.admitted)
      exact hb.install (s := rspSession cr e hd rsp _) (pinned_putPeer_self rfl)
  | rekey hd rekey =>
    have heff := @rekey_effect cr e m hd rekey
    generalize core (step cr m (e, .rekey hd rekey)) = c at heff
    cases heff with
    | kept => exact h
    | installed had =>
      exact h.install (s := rekeySession cr e hd rekey _) (classify_known had.classified)
  | acceptPendingInbound hd c =>
    have heff := @accept_effect cr e m hd c
    generalize core (step cr m (e, .acceptPendingInbound hd c)) = c' at heff
    have hreq := h.requests (d := m.pendingInbound.erase (hd, c))
      (fun key req hr => (Dict.lookup_of_erase hr).1)
    cases heff with
    | kept => exact h
    | failed => exact hreq
    | served hl hfp hh =>
      exact hreq.putPeer rfl hh (.inl (hfp ▸ h.cached _ _ hl))
  | reverifyPeer hd =>
    rw [step, Op.exec, final_discard]
    refine bound_reverifyPeer ?_ ?_ h
    · by_contra hs
      exact hn (.reverify hd hs)
    · by_contra hfit
      exact hn (.stale hfit)
  | forgetPeerOnChannel hd c =>
    obtain ⟨incoming, inbound, hc, hi, hr⟩ := @forgetOn_effect cr e m hd c
    rw [hc]
    refine (h.subset (t := incoming) ?_).requests ?_
    · rcases hi with rfl | rfl
      · exact fun s hs => ⟨s, hs, rfl, rfl⟩
      · exact fun s hs => ⟨s, (Table.mem_deleteWhere.mp hs).1, rfl, rfl⟩
    · rcases hr with rfl | rfl
      · exact fun _ _ => id
      · exact fun key req hr => (Dict.lookup_of_erase hr).1
  | forgetPeerEverywhere hd =>
    rw [step, Op.exec, final_discard]
    refine bound_purgeHandle ?_ hd h
    by_contra hs
    exact hn (.forget hd hs)
  | updateIncomingStatus hd c status =>
    rcases @status_effect cr e m hd c status with hc | hc
    · exact hc ▸ h
    · rw [hc]
      refine h.subset (fun s hs => ?_)
      obtain ⟨s', hs', rfl⟩ := Table.mem_updateWhere.mp hs
      refine ⟨s', hs', ?_⟩
      split <;> exact ⟨rfl, rfl⟩
  | importAll rows => exact absurd (.imported e rows) hn
  | _ =>
    rw [core_step_of_silent (by trivial)]
    exact h

theorem bound_init (identity : Bytes 32) (tolerance : Int) :
    Bound cr (core (E2eManager.init identity Keyring.empty tolerance)) where
  oneHandle p hp := by simp [core, E2eManager.init, Keyring.empty] at hp
  sessions s hs := by simp [core, E2eManager.init, Keyring.empty] at hs
  cached key req hr := by simp [core, E2eManager.init] at hr

/-- **The binding holds in every state of every run from an empty keyring in which no step
unbinds it.** -/
theorem handles_bound (identity : Bytes 32) (tolerance : Int) (is : List Input)
    (hg : Run.Guarded (step cr) (fun m i => ¬ Unbinds m i)
      (E2eManager.init identity Keyring.empty tolerance) is) :
    HandlesBound (runOps cr (E2eManager.init identity Keyring.empty tolerance) is) := by
  have hb : Bound cr (core (runOps cr (E2eManager.init identity Keyring.empty tolerance) is)) :=
    Run.Guarded.invariant (P := fun m => Bound cr (core m)) (fun m i h hi => bound_step h hi)
      (bound_init identity tolerance) hg
  exact ⟨hb.oneHandle, hb.sessions⟩

set_option maxRecDepth 100000 in
/-- The stranger is pinned, and then purged again. -/
theorem handles_bound_purged :
    HandlesBound (runOps sample newcomer
      (pinnedRun ++ [(sampleEnv 1200 0, .reverifyPeer (str "eve@host"))])) := by
  refine handles_bound (Bytes.fill 32 9) 300 _ ⟨?_, ?_, ?_, trivial⟩
  · exact fun h => nomatch h
  · exact fun h => nomatch h
  · have hnone : appliedNotice (runOps sample newcomer pinnedRun).pendingTrustChange
        (str "eve@host") = none := by decide +kernel
    intro h
    cases h with
    | stale hfit => exact hfit (fun oldFp newFp pubkey ha => nomatch hnone.symm.trans ha)
    | reverify _ hs => exact hs ⟨rfl, rfl⟩

/-- A second identity speaks from the stranger's handle, then pins another handle, and then the
queued change of the first handle is applied. -/
def staleRun : List Input :=
  pinnedRun ++
    [(sampleEnv 1100 0, .keyreq (str "eve@host") none otherKeyreq),
      (sampleEnv 1101 0, .keyreq (str "eve@vpn") none otherKeyreq),
      (sampleEnv 1200 0, .reverifyPeer (str "eve@host"))]

set_option maxRecDepth 100000 in
/-- The session under the other handle has lost its peer row. -/
theorem stale_change_unbinds : ¬ HandlesBound (runOps sample newcomer staleRun) := by
  intro h
  have hrow : ∃ s ∈ (runOps sample newcomer staleRun).keyring.incoming.rows,
      s.handle = str "eve@vpn" ∧
        ((runOps sample newcomer staleRun).keyring.peers.get? s.fingerprint).map
          PeerRecord.lastHandle = some (some (str "eve@host")) := by decide +kernel
  obtain ⟨s, hs, hh, hl⟩ := hrow
  obtain ⟨p, hp, hph⟩ := h.sessions s hs
  rw [hp, Option.map_some, hph, hh] at hl
  exact absurd hl (by decide)

end Repartee.E2eManager
