import Repartee.E2e.Revocation

/-!
# Forgetting a peer

`manager.rs`: `forget_peer_on_channel` and `forget_peer_everywhere`. What the client keeps for a
handle on a channel is spread over two tables and four queues; `pairState` collects it. Forgetting
on one channel empties all of it but the recipient row, so the peer still gets our key at the next
rotation if it had one. Forgetting everywhere empties it for all channels, and deletes the peer
row that was seen last with the handle.

## Main results

- `pairState_forgotOn`, `pairState_purged_of_ne`: what is left of the handle, and of the other pairs
- `forgetting_complete_iff`: when nothing is left
-/

set_option autoImplicit false

namespace Repartee.E2eManager

open Exec

variable {cr : Crates} {e : Env}

/-! ### The state of a pair -/

/-- What is kept for a handle on a channel. -/
@[ext] structure PairState where
  session : Option IncomingSession
  recipient : Option OutgoingRecipient
  inbound : Option KeyReq
  prompts : List PendingAcceptRequest
  handshakes : Bytes 16 → Option PendingHandshake
  reciprocal : List PendingOutboundKeyReq

def PairState.none : PairState where
  session := Option.none
  recipient := Option.none
  inbound := Option.none
  prompts := []
  handshakes := fun _ => Option.none
  reciprocal := []

def pairState (handle channel : Str) (m : E2eManager) : PairState where
  session := m.keyring.incoming.get? (handle, channel)
  recipient := m.keyring.recipients.get? (channel, handle)
  inbound := m.pendingInbound.lookup (handle, channel)
  prompts := m.pendingAcceptRequests.filter (fun r => r.handle = handle && r.channel = channel)
  handshakes := fun nonce =>
    (m.pending.lookup (channel, nonce)).filter (fun ph => ph.peerHandle = some handle)
  reciprocal := m.pendingOutboundKeyreqs.filter
    (fun r => r.peerHandle = handle && r.channel = channel)

/-- Nothing is kept for the handle on the channel. -/
def Forgotten (handle channel : Str) (m : E2eManager) : Prop :=
  pairState handle channel m = PairState.none

/-- Until the handle is recorded as a recipient again, no REKEY of the channel is queued for it. -/
def GetsNoKey (cr : Crates) (handle channel : Str) (m : E2eManager) : Prop :=
  ∀ later, (∀ pre i post, later = pre ++ i :: post →
      ¬ IsRecipient (runOps cr m pre) channel handle) →
    ∀ q ∈ rekeysFor channel handle (runOps cr m later), q ∈ rekeysFor channel handle m

section

variable {handle channel : Str} {m m' : E2eManager} {n : Nat}

/-- No run queues a key for a handle that is no recipient. -/
theorem getsNoKey (hf : InboundFiled m) : GetsNoKey cr handle channel m := by
  intro later
  induction later generalizing m with
  | nil => exact fun _ q hq => hq
  | cons i later ih =>
    intro hnot q hq
    have hfirst : ¬ IsRecipient m channel handle := hnot [] i later rfl
    have hmem := ih (inboundFiled_step i hf) (fun pre j post hsplit =>
      hnot (i :: pre) j post (by rw [hsplit]; rfl)) q hq
    have hstep : rekeysFor channel handle (step cr m i) = rekeysFor channel handle m ∨
        rekeysFor channel handle (step cr m i) = [] :=
      rekeysFor_step hf fun h => hfirst h.2.2
    rcases hstep with hsame | hnil
    · exact hsame ▸ hmem
    · rw [hnil] at hmem
      cases hmem

/-! ### On one channel -/

/-- What `forget_peer_on_channel` leaves. -/
def forgotOn (handle channel : Str) (m : E2eManager) : E2eManager :=
  { m with
    keyring := { m.keyring with
      incoming := m.keyring.incoming.deleteWhere
        (fun s => s.handle = handle && s.channel = channel) }
    pendingInbound := m.pendingInbound.erase (handle, channel)
    pendingAcceptRequests := m.pendingAcceptRequests.filter (fun r =>
      !(r.handle = handle && r.channel = channel))
    pending := m.pending.retain (fun k ph => !(k.1 = channel && ph.peerHandle = some handle))
    pendingOutboundKeyreqs := m.pendingOutboundKeyreqs.filter (fun r =>
      !(r.peerHandle = handle && r.channel = channel)) }

theorem deleteWhere_of_no_session (hnone : m.keyring.incoming.get? (handle, channel) = none) :
    m.keyring.incoming.deleteWhere (fun s => s.handle = handle && s.channel = channel) =
      m.keyring.incoming := by
  apply Table.ext
  rw [Table.deleteWhere, List.filter_eq_self]
  intro s hs
  have hne := (Table.get?_eq_none_iff _ _).mp hnone s hs
  simp only [Bool.not_eq_true', Bool.and_eq_false_imp, decide_eq_true_eq, decide_eq_false_iff_not]
  intro hh hc
  exact hne (by rw [hh, hc])

theorem forgotOn_of_run (h : (forgetPeerOnChannel e handle channel).run m = .ok n m') :
    m' = forgotOn handle channel m := by
  obtain ⟨sess, m₁, hsess, h⟩ := bind_eq_ok_iff.mp h
  obtain ⟨hget, rfl⟩ := run_ask_eq_ok_iff.mp hsess
  obtain ⟨-, rfl⟩ := Env.exec_eq_ok_iff.mp hget
  obtain ⟨u, m₂, hdel, h⟩ := bind_eq_ok_iff.mp h
  have hm₂ : m₂ = { m₁ with keyring := { m₁.keyring with
      incoming := m₁.keyring.incoming.deleteWhere
        (fun s => s.handle = handle && s.channel = channel) } } := by
    cases hs : m₁.keyring.incoming.get? (handle, channel) with
    | none =>
      rw [hs] at hdel
      cases hdel
      rw [deleteWhere_of_no_session hs]
    | some s =>
      rw [hs, Option.isSome_some, runIf_true] at hdel
      obtain ⟨k, hk, rfl⟩ := run_tell_eq_ok_iff.mp hdel
      obtain ⟨-, rfl⟩ := Env.exec_eq_ok_iff.mp hk
      rfl
  subst hm₂
  cases h
  rfl

/-- Nothing stops it when storage works. -/
theorem exists_run_forgetPeerOnChannel (he : e.Healthy) (m : E2eManager)
    (handle channel : Str) : ∃ n, (forgetPeerOnChannel e handle channel).run m =
      .ok n (forgotOn handle channel m) := by
  cases h : (forgetPeerOnChannel e handle channel).run m with
  | ok n m' => exact ⟨n, by rw [forgotOn_of_run h]⟩
  | error err m' =>
    exfalso
    have hask : ∀ k, (ask (fun k => k.getIncomingSession e handle channel)).run k =
        .ok (k.keyring.incoming.get? (handle, channel)) k := fun k =>
      run_ask_of_ok (he.exec _ _)
    rcases bind_eq_error_iff.mp h with h | ⟨sess, m₁, -, h⟩
    · rw [hask] at h
      cases h
    rcases bind_eq_error_iff.mp h with h | ⟨u, m₂, -, h⟩
    · cases sess with
      | none => cases h
      | some s =>
        rw [Option.isSome_some, runIf_true,
          run_tell_of_ok (f := fun k => k.deleteIncomingSession e handle channel)
            (he.exec _ _)] at h
        cases h
    · cases h

theorem filter_and_not {α : Type} (l : List α) (p : α → Bool) :
    (l.filter (fun a => !p a)).filter p = [] := by
  rw [List.filter_filter, List.filter_eq_nil_iff]
  intro a _ ha
  simp at ha

/-- Two filters of which the second one keeps nothing that the first one drops. -/
theorem filter_of_kept {α : Type} {l : List α} {p q : α → Bool}
    (h : ∀ a ∈ l, q a = true → p a = true) : (l.filter p).filter q = l.filter q := by
  rw [List.filter_filter]
  refine List.filter_congr (fun a ha => ?_)
  cases hq : q a with
  | false => rfl
  | true => rw [h a ha hq]; rfl

/-- On the channel only the recipient row is left. -/
theorem pairState_forgotOn : pairState handle channel (forgotOn handle channel m) =
    { PairState.none with recipient := m.keyring.recipients.get? (channel, handle) } := by
  apply PairState.ext
  · rw [pairState, forgotOn, Table.get?_deleteWhere]
    refine Option.filter_eq_none_iff.mpr (fun s hs => ?_)
    have hkey := Table.key_of_get? hs
    rw [Prod.mk.injEq] at hkey
    simp [hkey.1, hkey.2]
  · rfl
  · rw [pairState, forgotOn, Dict.lookup_erase, if_pos rfl]
    rfl
  · exact filter_and_not _ _
  · funext nonce
    change Option.filter _ ((m.pending.retain _).lookup (channel, nonce)) = Option.none
    rw [Dict.lookup_retain, Option.filter_filter]
    refine Option.filter_eq_none_iff.mpr (fun ph _ => ?_)
    simp
  · exact filter_and_not _ _

/-- Every other pair keeps what it has. -/
theorem pairState_forgotOn_of_ne {h c : Str} (hne : (h, c) ≠ (handle, channel)) :
    pairState h c (forgotOn handle channel m) = pairState h c m := by
  have hother : ∀ h' c' : Str, h' = h → c' = c →
      (decide (h' = handle) && decide (c' = channel)) = false := by
    rintro _ _ rfl rfl
    rw [Bool.eq_false_iff]
    simp only [ne_eq, Bool.and_eq_true, decide_eq_true_eq]
    rintro ⟨rfl, rfl⟩
    exact hne rfl
  apply PairState.ext
  · rw [pairState, forgotOn, Table.get?_deleteWhere_of_kept]
    · rfl
    · intro s hs
      rw [Prod.mk.injEq] at hs
      exact hother _ _ hs.1 hs.2
  · rfl
  · rw [pairState, forgotOn, Dict.lookup_erase, if_neg (Ne.symm hne)]
    rfl
  · refine filter_of_kept (fun r _ hr => ?_)
    simp only [Bool.and_eq_true, decide_eq_true_eq] at hr
    rw [hother _ _ hr.1 hr.2]
    rfl
  · funext nonce
    change Option.filter _ ((m.pending.retain _).lookup (c, nonce)) = Option.filter _ _
    rw [Dict.lookup_retain, Option.filter_filter]
    congr 1
    funext ph
    by_cases hp : ph.peerHandle = some h
    · have hnot := hother h c rfl rfl
      rw [Bool.and_comm] at hnot
      simp [hp, hnot]
    · simp [hp]
  · refine filter_of_kept (fun r _ hr => ?_)
    simp only [Bool.and_eq_true, decide_eq_true_eq] at hr
    rw [hother _ _ hr.1 hr.2]
    rfl

/-! ### Everywhere -/

/-- The peer table without the row that a handle resolves to. -/
def withoutPeer (handle : Str) (k : Keyring) : Table PeerRecord PeerRecord.fingerprint :=
  match Keyring.mostRecent (k.peersAt handle) with
  | some peer => k.peers.deleteWhere (fun p => p.fingerprint = peer.fingerprint)
  | none => k.peers

/-- What `forget_peer_everywhere` leaves. -/
def purged (handle : Str) (m : E2eManager) : E2eManager :=
  { m with
    keyring := { m.keyring with
      peers := withoutPeer handle m.keyring
      incoming := m.keyring.incoming.deleteWhere (fun s => s.handle = handle)
      recipients := m.keyring.recipients.deleteWhere (fun r => r.handle = handle) }
    pending := m.pending.retain (fun _ ph => ph.peerHandle ≠ some handle)
    pendingInbound := m.pendingInbound.retain (fun k _ => k.1 ≠ handle)
    pendingAcceptRequests := m.pendingAcceptRequests.filter (fun r => r.handle ≠ handle)
    pendingTrustChange := m.pendingTrustChange.filter (fun n => n.handle ≠ handle)
    pendingOutboundKeyreqs := m.pendingOutboundKeyreqs.filter (fun r => r.peerHandle ≠ handle) }

theorem keyring_of_tellCount {f : Keyring → Result (Nat × Keyring)}
    (h : (tellCount f).run m = .ok n m') :
    ∃ k, f m.keyring = .ok (n, k) ∧ m' = { m with keyring := k } := by
  obtain ⟨⟨count, k⟩, m₁, hask, hrest⟩ := bind_eq_ok_iff.mp h
  obtain ⟨hr, -⟩ := run_ask_eq_ok_iff.mp hask
  rw [run_tellCount_of_ok hr, EStateM.Result.ok.injEq] at h
  obtain ⟨rfl, rfl⟩ := h
  exact ⟨k, hr, rfl⟩

theorem peers_of_deletePeerAt (h : (deletePeerAt e handle).run m = .ok n m') :
    m' = { m with keyring := { m.keyring with peers := withoutPeer handle m.keyring } } := by
  obtain ⟨peer, m₁, hask, h⟩ := bind_eq_ok_iff.mp h
  obtain ⟨hpeer, rfl⟩ := run_ask_eq_ok_iff.mp hask
  obtain ⟨-, rfl⟩ := Env.exec_eq_ok_iff.mp hpeer
  unfold withoutPeer
  cases hrec : Keyring.mostRecent (m₁.keyring.peersAt handle) with
  | none =>
    rw [hrec] at h
    cases h
    rfl
  | some peer =>
    rw [hrec] at h
    obtain ⟨u, m₂, htell, h⟩ := bind_eq_ok_iff.mp h
    obtain ⟨k, hk, rfl⟩ := run_tell_eq_ok_iff.mp htell
    obtain ⟨-, rfl⟩ := Env.exec_eq_ok_iff.mp hk
    cases h
    rfl

theorem purged_of_run (h : (forgetPeerEverywhere e handle).run m = .ok n m') :
    m' = purged handle m := by
  obtain ⟨n₁, m₁, hpeer, h⟩ := bind_eq_ok_iff.mp h
  have hm₁ := peers_of_deletePeerAt hpeer
  obtain ⟨n₂, m₂, hsessions, h⟩ := bind_eq_ok_iff.mp h
  obtain ⟨k₂, hk₂, rfl⟩ := keyring_of_tellCount hsessions
  obtain ⟨-, hk₂⟩ := Env.exec_eq_ok_iff.mp hk₂
  obtain ⟨n₃, m₃, hrecipients, h⟩ := bind_eq_ok_iff.mp h
  obtain ⟨k₃, hk₃, rfl⟩ := keyring_of_tellCount hrecipients
  obtain ⟨-, hk₃⟩ := Env.exec_eq_ok_iff.mp hk₃
  rw [Prod.mk.injEq] at hk₂ hk₃
  obtain ⟨-, rfl⟩ := hk₂
  obtain ⟨-, rfl⟩ := hk₃
  subst hm₁
  cases h
  rfl

theorem exists_run_deletePeerAt (he : e.Healthy) (m : E2eManager) (handle : Str) :
    ∃ n, (deletePeerAt e handle).run m =
      .ok n { m with keyring := { m.keyring with peers := withoutPeer handle m.keyring } } := by
  have hask := run_ask_of_ok (f := fun k => k.getPeerByHandle e handle) (m := m) (he.exec _ _)
  unfold deletePeerAt withoutPeer
  rw [bind_of_ok hask]
  cases Keyring.mostRecent (m.keyring.peersAt handle) with
  | none => exact ⟨0, rfl⟩
  | some peer =>
    refine ⟨1, ?_⟩
    dsimp only
    rw [bind_of_ok (run_tell_of_ok
      (f := fun k => k.deletePeerByFingerprint e peer.fingerprint) (he.exec _ _))]
    rfl

/-- Nothing stops it when storage works. -/
theorem exists_run_forgetPeerEverywhere (he : e.Healthy) (m : E2eManager) (handle : Str) :
    ∃ n, (forgetPeerEverywhere e handle).run m = .ok n (purged handle m) := by
  obtain ⟨n₁, hpeer⟩ := exists_run_deletePeerAt he m handle
  have hsessions := fun m => run_tellCount_of_ok (m := m)
    (f := fun k => k.deleteIncomingSessionsForHandle e handle) (he.exec _ _)
  have hrecipients := fun m => run_tellCount_of_ok (m := m)
    (f := fun k => k.deleteOutgoingRecipientsForHandle e handle) (he.exec _ _)
  exact ⟨_, (bind_of_ok hpeer).trans ((bind_of_ok (hsessions _)).trans
    ((bind_of_ok (hrecipients _)).trans rfl))⟩

/-- Nothing is left of the handle on any channel. -/
theorem forgotten_purged (channel : Str) : Forgotten handle channel (purged handle m) := by
  apply PairState.ext
  · change (m.keyring.incoming.deleteWhere _).get? (handle, channel) = Option.none
    rw [Table.get?_deleteWhere]
    refine Option.filter_eq_none_iff.mpr (fun s hs => ?_)
    have hkey := Table.key_of_get? hs
    rw [Prod.mk.injEq] at hkey
    simp [hkey.1]
  · change (m.keyring.recipients.deleteWhere _).get? (channel, handle) = Option.none
    rw [Table.get?_deleteWhere]
    refine Option.filter_eq_none_iff.mpr (fun r hr => ?_)
    have hkey := Table.key_of_get? hr
    rw [Prod.mk.injEq] at hkey
    simp [hkey.2]
  · change (m.pendingInbound.retain _).lookup (handle, channel) = Option.none
    rw [Dict.lookup_retain]
    refine Option.filter_eq_none_iff.mpr (fun _ _ => ?_)
    simp
  · refine List.filter_eq_nil_iff.mpr (fun r hr => ?_)
    have hne := (List.mem_filter.mp hr).2
    simp_all
  · funext nonce
    change Option.filter _ ((m.pending.retain _).lookup (channel, nonce)) = Option.none
    rw [Dict.lookup_retain, Option.filter_filter]
    refine Option.filter_eq_none_iff.mpr (fun ph _ => ?_)
    simp
  · refine List.filter_eq_nil_iff.mpr (fun r hr => ?_)
    have hne := (List.mem_filter.mp hr).2
    simp_all

/-- Every other handle keeps what it has. -/
theorem pairState_purged_of_ne {h c : Str} (hne : h ≠ handle) :
    pairState h c (purged handle m) = pairState h c m := by
  have hother : ∀ h' : Str, h' = h → decide (h' = handle) = false := by
    rintro _ rfl
    exact decide_eq_false hne
  apply PairState.ext
  · refine Table.get?_deleteWhere_of_kept _ (fun s hs => ?_)
    rw [Prod.mk.injEq] at hs
    exact hother _ hs.1
  · refine Table.get?_deleteWhere_of_kept _ (fun r hr => ?_)
    rw [Prod.mk.injEq] at hr
    exact hother _ hr.2
  · change (m.pendingInbound.retain _).lookup (h, c) = m.pendingInbound.lookup (h, c)
    rw [Dict.lookup_retain]
    cases m.pendingInbound.lookup (h, c) with
    | none => rfl
    | some req => simp [hne]
  · refine filter_of_kept (fun r _ hr => ?_)
    simp only [Bool.and_eq_true, decide_eq_true_eq] at hr
    simpa [hr.1] using hne
  · funext nonce
    change Option.filter _ ((m.pending.retain _).lookup (c, nonce)) = Option.filter _ _
    rw [Dict.lookup_retain, Option.filter_filter]
    congr 1
    funext ph
    by_cases hp : ph.peerHandle = some h
    · simp [hp, hne]
    · simp [hp]
  · refine filter_of_kept (fun r _ hr => ?_)
    simp only [Bool.and_eq_true, decide_eq_true_eq] at hr
    simpa [hr.1] using hne

theorem length_le_one_of_const {α : Type} {l : List α} {a : α} (hconst : ∀ b ∈ l, b = a)
    (hnodup : l.Nodup) : l.length ≤ 1 := by
  rw [List.eq_replicate_of_mem hconst, List.nodup_replicate] at hnodup
  exact hnodup

/-- No row with the handle is left exactly if there was at most one. -/
theorem peersAt_purged_eq_nil_iff :
    (purged handle m).keyring.peersAt handle = [] ↔
      (m.keyring.peersAt handle).length ≤ 1 := by
  cases hrec : Keyring.mostRecent (m.keyring.peersAt handle) with
  | none =>
    have hnil := mostRecent_eq_none_iff.mp hrec
    have hsame : withoutPeer handle m.keyring = m.keyring.peers := by rw [withoutPeer, hrec]
    change (withoutPeer handle m.keyring).rows.filter _ = [] ↔ _
    rw [hsame]
    change m.keyring.peersAt handle = [] ↔ _
    rw [hnil]
    simp
  | some peer =>
    have hpeers : (purged handle m).keyring.peersAt handle =
        (m.keyring.peersAt handle).filter (fun p => p.fingerprint ≠ peer.fingerprint) := by
      have hdel : withoutPeer handle m.keyring =
          m.keyring.peers.deleteWhere (fun p => p.fingerprint = peer.fingerprint) := by
        rw [withoutPeer, hrec]
      change (withoutPeer handle m.keyring).rows.filter _ = _
      rw [hdel, Table.deleteWhere, Keyring.peersAt, List.filter_filter, List.filter_filter]
      refine List.filter_congr (fun p _ => ?_)
      rw [Bool.and_comm]
      simp
    have hmem := mem_of_mostRecent hrec
    have hnodup : ((m.keyring.peersAt handle).map PeerRecord.fingerprint).Nodup :=
      m.keyring.peers.nodup.sublist (List.filter_sublist.map _)
    rw [hpeers, List.filter_eq_nil_iff]
    generalize m.keyring.peersAt handle = ps at hmem hnodup
    -- the rows have distinct fingerprints, and only the one of `peer` is deleted
    constructor
    · intro hall
      have hconst : ∀ fp ∈ ps.map PeerRecord.fingerprint, fp = peer.fingerprint := by
        rintro _ hfp
        obtain ⟨p, hp, rfl⟩ := List.mem_map.mp hfp
        simpa using hall p hp
      rw [← List.length_map (f := PeerRecord.fingerprint)]
      exact length_le_one_of_const hconst hnodup
    · intro hlen p hp
      obtain ⟨q, rfl⟩ := List.length_eq_one_iff.mp
        (Nat.le_antisymm hlen (List.length_pos_of_mem hmem))
      rw [List.mem_singleton.mp hp, List.mem_singleton.mp hmem]
      simp

end

/-! ### Runs -/

/-- What forgetting a handle on a channel promises. -/
structure ForgottenOn (cr : Crates) (handle channel : Str) (m m' : E2eManager) : Prop where
  gone : Forgotten handle channel m'
  unkeyed : GetsNoKey cr handle channel m'
  others : ∀ h c, (h, c) ≠ (handle, channel) → pairState h c m' = pairState h c m

/-- What forgetting a handle everywhere promises. -/
structure ForgottenEverywhere (cr : Crates) (handle : Str) (m m' : E2eManager) : Prop where
  gone : ∀ channel, Forgotten handle channel m'
  unkeyed : ∀ channel, GetsNoKey cr handle channel m'
  peers : m'.keyring.peersAt handle = []
  notices : ∀ notice ∈ m'.pendingTrustChange, notice.handle ≠ handle
  others : ∀ h c, h ≠ handle → pairState h c m' = pairState h c m

/-- After any run, forgetting a handle on a channel keeps its promise exactly if the handle is not
recorded as a recipient of the channel's key, and forgetting it everywhere exactly if at most one
peer row has the handle as its last one. -/
theorem forgetting_complete_iff (cr : Crates) (identity : Bytes 32) (keyring : Keyring)
    (tolerance : Int) (past : List Input) (e : Env) (handle : Str) :
    let m := runOps cr (E2eManager.init identity keyring tolerance) past
    (∀ channel n m', (forgetPeerOnChannel e handle channel).run m = .ok n m' →
      (ForgottenOn cr handle channel m m' ↔
        m.keyring.recipients.get? (channel, handle) = none)) ∧
    ∀ n m', (forgetPeerEverywhere e handle).run m = .ok n m' →
      (ForgottenEverywhere cr handle m m' ↔ (m.keyring.peersAt handle).length ≤ 1) := by
  intro m
  have hf : InboundFiled m :=
    Run.invariant (fun _ i => inboundFiled_step i) (inboundFiled_init _ _ _) past
  constructor
  · intro channel n m' hrun
    have hf' : InboundFiled m' := by
      have hstep := @inboundFiled_step cr m (e, .forgetPeerOnChannel handle channel) hf
      rwa [step, Op.exec, final_discard, final, hrun] at hstep
    obtain rfl := forgotOn_of_run hrun
    constructor
    · intro h
      have hgone := h.gone
      rw [Forgotten, pairState_forgotOn] at hgone
      exact congrArg PairState.recipient hgone
    · intro hnone
      refine ⟨?_, getsNoKey hf', fun h c hne => pairState_forgotOn_of_ne hne⟩
      rw [Forgotten, pairState_forgotOn, hnone]
      rfl
  · intro n m' hrun
    have hf' : InboundFiled m' := by
      have hstep := @inboundFiled_step cr m (e, .forgetPeerEverywhere handle) hf
      rwa [step, Op.exec, final_discard, final, hrun] at hstep
    obtain rfl := purged_of_run hrun
    constructor
    · intro h
      exact peersAt_purged_eq_nil_iff.mp h.peers
    · intro hone
      refine ⟨forgotten_purged, fun _ => getsNoKey hf', peersAt_purged_eq_nil_iff.mpr hone,
        ?_, fun h c hne => pairState_purged_of_ne hne⟩
      intro notice hnotice
      simpa using (List.mem_filter.mp hnotice).2

/-- A stranger's KEYREQ is served on an AutoAccept channel. -/
def servedRun : List Input :=
  [(sampleEnv 1000 0, .setChannelConfig ⟨str "#rust", true, .autoAccept⟩), strangerKeyreq 1001]

/-- The stranger asks for our key on a channel in normal mode, where we have asked for its key, and
is served on another one. -/
def waitingStrangerRun : List Input :=
  [(sampleEnv 1000 0, .setChannelConfig ⟨str "#rust", true, .normal⟩),
    (sampleEnv 1000 0, .setChannelConfig ⟨str "#lean", true, .autoAccept⟩),
    (sampleEnv 1001 20, .buildKeyreq (str "#rust") (some (str "eve@host"))), strangerKeyreq 1002,
    (sampleEnv 1003 40, .keyreq (str "eve@host") none
      (Sample.keyreq (Bytes.fill 32 7) (str "#lean") (Bytes.fill 32 1) (Bytes.fill 16 2)))]

set_option maxRecDepth 100000 in
/-- The session, the cached KEYREQ, the prompt and the handshake of the stranger on the channel are
forgotten, and what is kept of it elsewhere when it is forgotten everywhere. -/
theorem stranger_forgotten :
    let m := runOps sample newcomer waitingStrangerRun
    let kept := pairState (str "eve@host") (str "#rust") m
    (kept.session.isSome ∧ kept.inbound.isSome ∧ kept.prompts ≠ [] ∧
      (kept.handshakes (Bytes.fill 16 20)).isSome ∧
      (m.keyring.peersAt (str "eve@host")).length = 1 ∧
      (m.keyring.recipients.get? (str "#lean", str "eve@host")).isSome) ∧
    ForgottenOn sample (str "eve@host") (str "#rust") m
      (forgotOn (str "eve@host") (str "#rust") m) ∧
    ForgottenEverywhere sample (str "eve@host") m (purged (str "eve@host") m) := by
  intro m
  obtain ⟨n, hon⟩ := exists_run_forgetPeerOnChannel (sampleEnv_healthy 1004 0) m
    (str "eve@host") (str "#rust")
  obtain ⟨n', heverywhere⟩ := exists_run_forgetPeerEverywhere (sampleEnv_healthy 1004 0) m
    (str "eve@host")
  have hcomplete := forgetting_complete_iff sample (Bytes.fill 32 9) Keyring.empty 300
    waitingStrangerRun (sampleEnv 1004 0) (str "eve@host")
  exact ⟨by decide +kernel, (hcomplete.1 _ n _ hon).mpr (by decide +kernel),
    (hcomplete.2 n' _ heverywhere).mpr (by decide +kernel)⟩

set_option maxRecDepth 100000 in
/-- The stranger is forgotten on the channel, and gets the next key when it is rotated. -/
theorem forgotten_peer_gets_the_next_key :
    let m := runOps sample newcomer servedRun
    let m' := forgotOn (str "eve@host") (str "#rust") m
    (∃ n, (forgetPeerOnChannel (sampleEnv 1002 0) (str "eve@host") (str "#rust")).run m =
        .ok n m') ∧
      m'.keyring.recipients.get? (str "#rust", str "eve@host") ≠ none ∧
      (rekeysFor (str "#rust") (str "eve@host") (runOps sample m'
        [(sampleEnv 1003 0, .markOutgoingPendingRotation (str "#rust")),
          (sampleEnv 1004 0, .encryptOutgoing (str "#rust") (str "hi"))])).length = 1 := by
  refine ⟨?_, by decide +kernel, by decide +kernel⟩
  exact exists_run_forgetPeerOnChannel (sampleEnv_healthy 1002 0) _ _ _

end Repartee.E2eManager
