import Repartee.E2e.Exchange

/-!
# A client in an undisturbed exchange

A client is steady towards a peer while the channel is enabled in AutoAccept mode, the peer is the
only one it has pinned, its outgoing key is not flagged for rotation and its session with the peer
is trusted. Serving the peer's KEYREQs and consuming its KEYRSPs keeps it steady.

## Main definitions

- `Steady`: the invariant of one client
- `usableKey`, `hasSession`: its outgoing key, and whether it has a trusted session of the peer

## Main results

- `Steady.run_receive_keyreq`: a KEYREQ is served, and answered with a KEYREQ without a session
- `Steady.run_receive_keyrsp`: a KEYRSP is consumed, or nothing changes
-/

set_option autoImplicit false

namespace Repartee

open Exec E2eManager

variable {cr : Crates} {e : Env}

/-- The usable outgoing key of a channel. -/
def usableKey (m : E2eManager) (channel : Str) : Option SessionKey :=
  (usableSession m channel).map OutgoingSession.sk

/-- Whether there is a trusted session of a handle. -/
def hasSession (m : E2eManager) (handle channel : Str) : Bool :=
  trustedRow (m.keyring.incoming.get? (handle, channel))

theorem hasSession_of_incoming {m m' : E2eManager}
    (h : m'.keyring.incoming = m.keyring.incoming) (handle channel : Str) :
    hasSession m' handle channel = hasSession m handle channel := by
  rw [hasSession, h]
  rfl

/-- A row of the peer, who has the key `peer` at `handle`. -/
def Fits (cr : Crates) (handle : Str) (peer : Bytes 32) (p : PeerRecord) : Prop :=
  p.fingerprint = fingerprint cr peer ∧ p.lastHandle = some handle ∧ p.globalStatus ≠ .revoked

/-- A client that has pinned no one but the peer, who has the key `peer` at `handle`. -/
structure Steady (cr : Crates) (channel handle : Str) (peer : Bytes 32) (m : E2eManager) :
    Prop where
  enabled : m.keyring.channels.get? channel = some ⟨channel, true, .autoAccept⟩
  pinned : ∀ p ∈ m.keyring.peers.rows, Fits cr handle peer p
  stable : ¬ RotationPending m channel
  session : ∀ s, m.keyring.incoming.get? (handle, channel) = some s →
    s.status = .trusted ∧ s.fingerprint = fingerprint cr peer
  drained : m.pendingOutboundKeyreqs = []

/-! ### The outgoing key -/

/-- The key of a channel has been provided, and what a handshake reads is as before. -/
structure Provided (e : Env) (channel : Str) (m m' : E2eManager) : Prop where
  key : usableKey m' channel = some (nextKey e m channel)
  draws : m.draws ≤ m'.draws
  identity : m'.identity = m.identity
  rateLimiter : m'.rateLimiter = m.rateLimiter
  pending : m'.pending = m.pending
  outbound : m'.pendingOutboundKeyreqs = m.pendingOutboundKeyreqs
  peers : m'.keyring.peers = m.keyring.peers
  channels : m'.keyring.channels = m.keyring.channels
  incoming : m'.keyring.incoming = m.keyring.incoming

theorem usableSession_eq_none {m : E2eManager} {channel : Str} (hs : usableSession m channel = none)
    (hrot : ¬ RotationPending m channel) : m.keyring.outgoing.get? channel = none := by
  cases hget : m.keyring.outgoing.get? channel with
  | none => rfl
  | some o =>
    unfold RotationPending at hrot
    rw [hget] at hrot
    rw [usableSession, hget] at hs
    have hfalse : o.pendingRotation = false := by simpa using hrot
    simp [Option.filter, hfalse] at hs

/-- A key that is not flagged for rotation is used, and a missing one is minted. -/
theorem run_getOrGenerateOutgoingKey (hh : e.Healthy) {m : E2eManager} {channel : Str}
    (hrot : ¬ RotationPending m channel) :
    ∃ m', (getOrGenerateOutgoingKey cr e channel).run m = .ok (nextKey e m channel) m' ∧
      Provided e channel m m' := by
  cases hs : usableSession m channel with
  | some o =>
    have hnext : nextKey e m channel = o.sk := by rw [nextKey, hs]
    refine ⟨m, ?_, ?_, Nat.le_refl _, rfl, rfl, rfl, rfl, rfl, rfl, rfl⟩
    · rw [hnext]
      exact run_getOrGenerateOutgoingKey_of_usable (hh _) hs
    · rw [usableKey, hs, hnext]
      rfl
  | none =>
    have hnext : nextKey e m channel = e.random m.draws 32 := by rw [nextKey, hs]
    have hget := usableSession_eq_none hs hrot
    refine ⟨minted e m channel, ?_, ?_, Nat.le_succ _, rfl, rfl, rfl, rfl, rfl, rfl, rfl⟩
    · rw [run_getOrGenerateOutgoingKey_of_minted hs (hh _) (hh _) (hh _), finishMint, hget, hnext]
      rfl
    · have hself : (minted e m channel).keyring.outgoing.get? channel =
          some ⟨channel, e.random m.draws 32, e.now, false⟩ :=
        Table.get?_replace_self m.keyring.outgoing ⟨channel, e.random m.draws 32, e.now, false⟩
      rw [usableKey, usableSession, hself, hnext]
      rfl

/-- A usable key is the next one. -/
theorem nextKey_of_usableKey {m : E2eManager} {channel : Str} {sk : SessionKey}
    (h : usableKey m channel = some sk) : nextKey e m channel = sk := by
  obtain ⟨o, hs, rfl⟩ := Option.map_eq_some_iff.mp h
  rw [nextKey, hs]

/-- A usable key is not flagged for rotation. -/
theorem not_rotationPending_of_usableKey {m : E2eManager} {channel : Str} {sk : SessionKey}
    (h : usableKey m channel = some sk) : ¬ RotationPending m channel := by
  intro hrot
  rw [usableKey, usableSession_of_rotationPending hrot] at h
  cases h

/-- A client that can fetch its key serves a KEYRSP. -/
theorem run_serveKeyrsp (hon : cr.Honest) (hh : e.Healthy) {m : E2eManager} {handle : Str}
    {req : KeyReq} (hrot : ¬ RotationPending m req.channel)
    (hallow : (m.rateLimiter.allowOutgoing e.instant handle).1 = true) :
    ∃ rsp m', Provided e req.channel m m' ∧
      (serveKeyrsp cr e handle req).run m = .ok rsp
        (if hasSession m handle req.channel then wrapping e m' handle
        else reciprocated cr e m' handle req.channel) ∧
      IsKeyrsp cr m.identity req.channel req.ephX25519 (nextKey e m req.channel) rsp := by
  obtain ⟨m₁, hkey, hprovided⟩ := @run_getOrGenerateOutgoingKey cr e hh m req.channel hrot
  let m₂ := { m₁ with keyring := { m₁.keyring with
    recipients := m₁.keyring.recipients.upsert
      ⟨req.channel, handle, fingerprint cr req.pubkey, e.now⟩
      (fun old => { old with fingerprint := fingerprint cr req.pubkey }) (fun _ => rfl) } }
  have hrecord : recordRecipient cr e handle req m₁.keyring = .ok m₂.keyring :=
    Env.exec_eq_ok_iff.mpr ⟨hh _, rfl⟩
  have hprovided₂ : Provided e req.channel m m₂ :=
    { hprovided with }
  obtain ⟨rsp, hsend, hrsp⟩ := @run_sendKeyrsp cr e hon hh m₂ handle req (nextKey e m req.channel)
    (hprovided₂.rateLimiter ▸ hallow)
  rw [hprovided₂.incoming] at hsend
  refine ⟨rsp, m₂, hprovided₂, ?_, hprovided₂.identity ▸ hrsp⟩
  rw [serveKeyrsp_eq, bind_of_ok hkey, bind_of_ok (run_tell_of_ok hrecord)]
  exact hsend

/-! ### The gates of a steady client -/

namespace Steady

variable {channel handle : Str} {peer : Bytes 32} {m : E2eManager}

/-- The peer is new, or known. -/
theorem classify (h : Steady cr channel handle peer m) (hh : e.Healthy) :
    ∃ change, classifyPeerChange e m.keyring (fingerprint cr peer) handle = .ok change ∧
      change.admits = true ∧ (change = .known →
        ∃ p, m.keyring.peers.get? (fingerprint cr peer) = some p ∧ p.globalStatus ≠ .revoked) := by
  unfold classifyPeerChange
  rw [Keyring.getPeerByFingerprint, hh.exec]
  cases hp : m.keyring.peers.get? (fingerprint cr peer) with
  | some p =>
    obtain ⟨-, hl, hr⟩ := h.pinned p (Table.mem_of_get? hp)
    refine ⟨.known, ?_, rfl, fun _ => ⟨p, rfl, hr⟩⟩
    show (if p.globalStatus = .revoked then _ else _) = _
    rw [if_neg hr, if_neg (not_not.mpr hl)]
    rfl
  | none =>
    have hat : m.keyring.peersAt handle = [] := by
      apply List.filter_eq_nil_iff.mpr
      intro p hmem
      exact absurd (h.pinned p hmem).1 ((Table.get?_eq_none_iff _ _).mp hp p hmem)
    refine ⟨.new, ?_, rfl, nofun⟩
    show (m.keyring.getPeerByHandle e handle).bind _ = _
    rw [Keyring.getPeerByHandle, hh.exec, hat]
    rfl

theorem policy (h : Steady cr channel handle peer m) (hh : e.Healthy) :
    effectiveChannelMode cr e m.keyring handle channel = .ok (some .autoAccept) := by
  unfold effectiveChannelMode
  rw [Keyring.getChannelConfig, hh.exec, h.enabled]
  show (m.keyring.autotrustMatches e cr handle channel).bind _ = _
  rw [Keyring.autotrustMatches, hh.exec]
  show (if _ then _ else _) = _
  split <;> rfl

theorem fits_putPeer {k : Keyring} {rec : PeerRecord}
    (h : ∀ p ∈ k.peers.rows, Fits cr handle peer p) (hrec : Fits cr handle peer rec) :
    ∀ p ∈ (k.putPeer rec).peers.rows, Fits cr handle peer p := by
  intro p hp
  rcases Table.mem_upsert_iff.mp hp with ⟨hmem, -⟩ | rfl
  · exact h p hmem
  · cases hg : k.peers.get? rec.fingerprint with
    | none => exact hrec
    | some old => exact ⟨(h old (Table.mem_of_get? hg)).1, hrec.2⟩

/-- A KEYREQ pins the peer. -/
theorem pin (h : Steady cr channel handle peer m) (hh : e.Healthy) {nick : Option Str}
    {req : KeyReq} (hpub : req.pubkey = peer) :
    ∃ rec, pinOnKeyreq cr e m.keyring handle nick req = .ok (m.keyring.putPeer rec) ∧
      Fits cr handle peer rec := by
  obtain ⟨change, hclass, hadmits, hknown⟩ := @classify cr e channel handle peer m h hh
  have hstatus : ∃ status, pinStatus e m.keyring change (fingerprint cr peer) = .ok status ∧
      status ≠ .revoked := by
    unfold pinStatus
    split
    · rename_i hk
      obtain ⟨p, hp, hr⟩ := hknown hk
      refine ⟨p.globalStatus, ?_, hr⟩
      rw [Keyring.getPeerByFingerprint, hh.again.exec, hp]
      rfl
    · exact ⟨.pending, rfl, nofun⟩
  obtain ⟨status, hpin, hr⟩ := hstatus
  subst hpub
  refine ⟨⟨fingerprint cr req.pubkey, req.pubkey, some handle, nick, e.now, e.now, status⟩, ?_,
    rfl, rfl, hr⟩
  unfold pinOnKeyreq
  rw [hclass]
  show (if change.admits then _ else _) = _
  rw [if_pos hadmits, hpin]
  exact hh.exec _ _

end Steady

/-! ### What a step of a client keeps -/

/-- A handshake that has been started from an ephemeral secret is in flight. -/
def Awaits (m : E2eManager) (channel : Str) (secret : Bytes 32) : Prop :=
  ∃ nonce ph, pendingOf channel m nonce = some ph ∧ ph.ephX25519Secret = secret

/-- What later steps of a client keep: its key and its session, and without a session its
handshakes in flight. -/
structure Continues (channel handle : Str) (m m' : E2eManager) : Prop where
  identity : m'.identity = m.identity
  key : ∀ sk, usableKey m channel = some sk → usableKey m' channel = some sk
  session : hasSession m handle channel = true → hasSession m' handle channel = true
  awaits : hasSession m' handle channel = false →
    ∀ secret, Awaits m channel secret → Awaits m' channel secret

/-- A fresh nonce evicts no handshake in flight. -/
theorem awaits_insert {m : E2eManager} {channel : Str} {nonce : Bytes 16} {ph : PendingHandshake}
    (hfresh : pendingOf channel m nonce = none) {m' : E2eManager}
    (hpending : m'.pending = m.pending.insert (channel, nonce) ph) :
    Awaits m' channel ph.ephX25519Secret ∧
      ∀ secret, Awaits m channel secret → Awaits m' channel secret := by
  have hlookup : ∀ nonce', pendingOf channel m' nonce' =
      if nonce = nonce' then some ph else pendingOf channel m nonce' := by
    intro nonce'
    rw [pendingOf, hpending, Dict.lookup_insert]
    simp [pendingOf]
  constructor
  · exact ⟨nonce, ph, by rw [hlookup, if_pos rfl], rfl⟩
  · rintro secret ⟨nonce', ph', hph', rfl⟩
    refine ⟨nonce', ph', ?_, rfl⟩
    rw [hlookup, if_neg (fun he => by rw [he, hph'] at hfresh; cases hfresh), hph']

namespace Steady

variable {channel handle : Str} {peer : Bytes 32} {m : E2eManager}

/-- A KEYREQ is built. -/
theorem run_initiate (hon : cr.Honest) (h : Steady cr channel handle peer m)
    (hfresh : pendingOf channel m (e.random m.draws 16) = none) (peerHandle : Option Str) :
    ∃ req secret m', (buildKeyreqForPeer cr e channel peerHandle).run m = .ok req m' ∧
      Steady cr channel handle peer m' ∧ Continues channel handle m m' ∧
      m'.keyring = m.keyring ∧ IsKeyreq cr m.identity channel secret req ∧
      Awaits m' channel secret := by
  obtain ⟨hawaits, hkept⟩ := @awaits_insert m channel _
    ⟨channel, peerHandle, e.random (m.draws + 1) 32⟩ hfresh (stashed e m channel peerHandle) rfl
  exact ⟨_, _, _, run_buildKeyreqForPeer m channel peerHandle,
    ⟨h.enabled, h.pinned, h.stable, h.session, h.drained⟩,
    ⟨rfl, fun _ hsk => hsk, id, fun _ => hkept⟩, rfl, isKeyreq_keyreqOf hon _ _ _ _, hawaits⟩

/-- An arrival does not count against the KEYREQs that go out. -/
theorem allowOutgoing_limited (e : Env) (m : E2eManager) (handle : Str) :
    ((limited e m handle).rateLimiter.allowOutgoing e.instant handle).1 =
      (m.rateLimiter.allowOutgoing e.instant handle).1 := by
  have hsame : (limited e m handle).rateLimiter.lastSent = m.rateLimiter.lastSent := rfl
  simp only [RateLimiter.allowOutgoing, hsame, apply_ite Prod.fst]

/-- The state in which the queues of a client have been drained. -/
def drainQueues (m : E2eManager) : E2eManager :=
  { m with pendingTrustChange := [], pendingAcceptRequests := [], pendingOutboundKeyreqs := [] }

/-- The KEYRSP of a served KEYREQ goes out with the KEYREQs that are queued. -/
theorem run_receive_of_served {m' : E2eManager} {nick : Str} {req : KeyReq} {rsp : KeyRsp}
    (h : (handleKeyreqWithNick cr e handle (some nick) req).run m = .ok (some rsp) m') :
    (receive cr e nick handle (.req req)).run m =
      .ok (.rsp rsp :: m'.pendingOutboundKeyreqs.map (fun out => .req out.req))
        (drainQueues m') := by
  have hattempt : (Exec.attempt (handleKeyreqWithNick cr e handle (some nick) req)).run m =
      .ok (.ok (some rsp)) m' := by rw [run_attempt, h]
  unfold receive
  rw [bind_of_ok hattempt]
  rfl

/-- A KEYREQ of the peer is served, and answered with a KEYREQ unless there is a session. -/
theorem run_receive_keyreq (hon : cr.Honest) (hh : e.Healthy)
    (h : Steady cr channel handle peer m)
    (hfresh : ∀ k, m.draws ≤ k → pendingOf channel m (e.random k 16) = none) {nick : Str}
    {req : KeyReq} (hchannel : req.channel = channel) (hpub : req.pubkey = peer)
    (hsigned : verifyKeyreq cr req = .ok ())
    (hin : (m.rateLimiter.allowIncoming e.instant handle).1 = true)
    (hout : (m.rateLimiter.allowOutgoing e.instant handle).1 = true) :
    ∃ rsp answers sk m', (receive cr e nick handle (.req req)).run m =
        .ok (.rsp rsp :: answers) m' ∧
      Steady cr channel handle peer m' ∧ Continues channel handle m m' ∧
      m'.keyring.incoming = m.keyring.incoming ∧ usableKey m' channel = some sk ∧
      IsKeyrsp cr m.identity channel req.ephX25519 sk rsp ∧
      (hasSession m handle channel = true ∧ answers = [] ∨
        hasSession m handle channel = false ∧ ∃ req' secret, answers = [.req req'] ∧
          IsKeyreq cr m.identity channel secret req' ∧ Awaits m' channel secret) := by
  subst hchannel
  obtain ⟨rec, hpin, hrec⟩ := @pin cr e req.channel handle peer m h hh (some nick) req hpub
  let m₀ := { limited e m handle with keyring := m.keyring.putPeer rec }
  have hpinned : KeyreqPinned cr e m handle (some nick) req .autoAccept (m.keyring.putPeer rec) :=
    ⟨hin, hsigned, h.policy hh, hpin⟩
  obtain ⟨rsp, m₁, hprovided, hserve, hrsp⟩ := @run_serveKeyrsp cr e hon hh m₀ handle req h.stable
    ((allowOutgoing_limited e m handle).trans hout)
  have hhandle : (handleKeyreqWithNick cr e handle (some nick) req).run m = .ok (some rsp)
      (if hasSession m handle req.channel then wrapping e m₁ handle
        else reciprocated cr e m₁ handle req.channel) := by
    rw [run_handleKeyreq_of_pinned hpinned, answerKeyreq,
      bind_of_ok (run_isTrusted _ _ _ (hh _))]
    exact bind_of_ok hserve
  have hkey : ∀ sk, usableKey m req.channel = some sk → usableKey m₁ req.channel = some sk := by
    intro sk hsk
    rw [hprovided.key, @nextKey_of_usableKey e m₀ req.channel sk hsk]
  have hsteady : ∀ m' : E2eManager, m'.keyring = m₁.keyring → m'.pendingOutboundKeyreqs = [] →
      Steady cr req.channel handle peer m' := by
    intro m' hk hdrained
    refine ⟨?_, ?_, ?_, ?_, hdrained⟩
    · rw [hk, hprovided.channels]
      exact h.enabled
    · rw [hk, hprovided.peers]
      exact fits_putPeer h.pinned hrec
    · unfold RotationPending
      rw [hk]
      exact not_rotationPending_of_usableKey hprovided.key
    · rw [hk, hprovided.incoming]
      exact h.session
  have houtbound : m₁.pendingOutboundKeyreqs = [] := hprovided.outbound.trans h.drained
  have hreceive := @run_receive_of_served cr e handle m _ nick req rsp hhandle
  cases hs : hasSession m handle req.channel with
  | true =>
    rw [hs, if_pos rfl] at hreceive
    have hqueue : (wrapping e m₁ handle).pendingOutboundKeyreqs = [] := houtbound
    rw [hqueue] at hreceive
    refine ⟨rsp, [], nextKey e m₀ req.channel, _, hreceive, hsteady _ rfl rfl,
      ⟨hprovided.identity, hkey, ?_, ?_⟩, hprovided.incoming, hprovided.key, hrsp,
      .inl ⟨rfl, rfl⟩⟩
    · intro _
      exact (hasSession_of_incoming hprovided.incoming handle req.channel).trans hs
    · intro hnone
      have hsome : hasSession (drainQueues (wrapping e m₁ handle)) handle req.channel = true :=
        (hasSession_of_incoming hprovided.incoming handle req.channel).trans hs
      rw [hsome] at hnone
      cases hnone
  | false =>
    rw [hs, if_neg Bool.false_ne_true] at hreceive
    let secret := e.random (m₁.draws + 4) 32
    let req' := keyreqOf cr m₁.identity req.channel (e.random (m₁.draws + 3) 16) secret
    have hqueue : (reciprocated cr e m₁ handle req.channel).pendingOutboundKeyreqs =
        [⟨handle, req.channel, req'⟩] := by
      show m₁.pendingOutboundKeyreqs ++ _ = _
      rw [houtbound]
      rfl
    rw [hqueue] at hreceive
    have hpending : (drainQueues (reciprocated cr e m₁ handle req.channel)).pending =
        m.pending.insert (req.channel, e.random (m₁.draws + 3) 16)
          ⟨req.channel, some handle, secret⟩ := by
      show m₁.pending.insert _ _ = _
      rw [hprovided.pending]
      rfl
    have hdraws : m.draws ≤ m₁.draws + 3 := Nat.le_trans hprovided.draws (Nat.le_add_right _ 3)
    obtain ⟨hawaits, hkept⟩ := awaits_insert (hfresh _ hdraws) hpending
    refine ⟨rsp, [.req req'], nextKey e m₀ req.channel, _, hreceive, hsteady _ rfl rfl,
      ⟨hprovided.identity, hkey, ?_, fun _ => hkept⟩, hprovided.incoming, hprovided.key, hrsp,
      .inr ⟨rfl, req', secret, rfl, ?_, hawaits⟩⟩
    · intro hsome
      exact (hasSession_of_incoming hprovided.incoming handle req.channel).trans hsome
    · have hidentity : m₁.identity = m.identity := hprovided.identity
      rw [← hidentity]
      exact isKeyreq_keyreqOf hon _ _ _ _

/-! ### KEYRSPs -/

/-- A KEYRSP unwraps to its key under the secret that it was wrapped for. -/
theorem unwrap_of_isKeyrsp (hon : cr.Honest) {identity secret : Bytes 32} {sk : SessionKey}
    {rsp : KeyRsp} (h : IsKeyrsp cr identity channel (cr.xPublic secret) sk rsp) :
    unwrapKeyrsp cr rsp secret = some sk := by
  obtain ⟨theirs, heph, hct⟩ := h.wrapped
  have hopen := hon.aead_decrypt hct
  rw [hon.wrapKey_comm, ← heph, ← h.channel] at hopen
  simp only [unwrapKeyrsp, hopen]
  exact Bytes.ofList?_val sk

/-- Whatever a KEYRSP unwraps under, it unwraps to its key. -/
theorem eq_of_unwrap (hideal : cr.IdealAead) {identity ephPub secret : Bytes 32}
    {sk sk' : SessionKey} {rsp : KeyRsp} (h : IsKeyrsp cr identity channel ephPub sk rsp)
    (hunwrap : unwrapKeyrsp cr rsp secret = some sk') : sk' = sk := by
  obtain ⟨theirs, heph, hct⟩ := h.wrapped
  rw [← h.channel] at hct
  unfold unwrapKeyrsp at hunwrap
  dsimp only at hunwrap
  split at hunwrap
  · rename_i skBytes hopen
    obtain ⟨-, -, -, rfl⟩ := hideal.aead_open hct hopen
    rw [Bytes.ofList?_val] at hunwrap
    exact (Option.some.inj hunwrap).symm
  · cases hunwrap

/-- A KEYRSP for a handshake in flight has a match. -/
theorem isSome_matchKeyrsp (hon : cr.Honest) {identity secret : Bytes 32} {sk : SessionKey}
    {rsp : KeyRsp} (h : IsKeyrsp cr identity channel (cr.xPublic secret) sk rsp)
    (hawaits : Awaits m channel secret) :
    ∃ sk' key, matchKeyrsp cr e m.pending rsp = some (sk', key) := by
  obtain ⟨nonce, ph, hph, rfl⟩ := hawaits
  have hlookup : m.pending.lookup (channel, nonce) = some ph := hph
  have hcandidate : (channel, nonce) ∈ candidateKeys e m.pending rsp.channel := by
    apply (e.shuffle_perm _).mem_iff.mpr
    apply List.mem_filter.mpr
    refine ⟨?_, by simp [h.channel]⟩
    exact List.mem_map_of_mem (f := Prod.fst) (Dict.mem_rows_iff_lookup.mpr hlookup)
  cases hmatch : matchKeyrsp cr e m.pending rsp with
  | some r => exact ⟨r.1, r.2, rfl⟩
  | none =>
    have hnone := List.findSome?_eq_none_iff.mp hmatch _ hcandidate
    rw [hlookup] at hnone
    simp [unwrap_of_isKeyrsp hon h] at hnone

/-- The state in which a KEYRSP of the peer has been consumed. -/
def consumed (cr : Crates) (e : Env) (m : E2eManager) (handle : Str) (rsp : KeyRsp)
    (sk : SessionKey) (key : Str × Bytes 16) : E2eManager :=
  { m with
    pending := m.pending.erase key
    keyring := { m.keyring.putPeer (responder cr e handle rsp) with
      incoming := m.keyring.incoming.replace (rspSession cr e handle rsp sk) } }

/-- A KEYRSP of the peer that has a match is consumed. -/
theorem run_handleKeyrsp_of_match (h : Steady cr channel handle peer m) (hh : e.Healthy)
    {rsp : KeyRsp} {sk : SessionKey} {key : Str × Bytes 16} (hchannel : rsp.channel = channel)
    (hpub : rsp.pubkey = peer) (hsigned : verifyKeyrsp cr rsp = .ok ())
    (hmatch : matchKeyrsp cr e m.pending rsp = some (sk, key)) :
    (handleKeyrsp cr e handle rsp).run m = .ok () (consumed cr e m handle rsp sk key) := by
  subst hchannel hpub
  obtain ⟨change, hclass, hadmits, -⟩ := @classify cr e rsp.channel handle rsp.pubkey m h hh
  have hupsert : m.keyring.upsertPeer e (responder cr e handle rsp) =
      .ok (m.keyring.putPeer (responder cr e handle rsp)) := hh.exec _ _
  have hinstall : (m.keyring.putPeer (responder cr e handle rsp)).installIncomingSessionStrict e cr
      (rspSession cr e handle rsp sk) = .ok (consumed cr e m handle rsp sk key).keyring :=
    install_ok (hh _) (fun s' hs' => (h.session s' hs').2)
  unfold handleKeyrsp
  rw [hsigned, bind_of_ok (run_lift_ok () m), bind_of_ok (run_consume_of_match hmatch),
    bind_of_ok (run_ask_of_ok hclass), if_pos hadmits]
  rw [bind_of_ok (run_tell_of_ok hupsert)]
  unfold installKeyrspSession
  rw [bind_of_ok (by rw [run_attempt, run_tell_of_ok hinstall])]
  rfl

/-- The session that has been consumed is the peer's. -/
theorem get?_consumed {rsp : KeyRsp} {sk : SessionKey} {key : Str × Bytes 16}
    (hchannel : rsp.channel = channel) :
    (consumed cr e m handle rsp sk key).keyring.incoming.get? (handle, channel) =
      some (rspSession cr e handle rsp sk) := by
  subst hchannel
  exact Table.get?_replace_self m.keyring.incoming (rspSession cr e handle rsp sk)

theorem consume (h : Steady cr channel handle peer m) {rsp : KeyRsp} {sk : SessionKey}
    {key : Str × Bytes 16} (hchannel : rsp.channel = channel) (hpub : rsp.pubkey = peer) :
    Steady cr channel handle peer (consumed cr e m handle rsp sk key) := by
  have hfits : Fits cr handle peer (responder cr e handle rsp) :=
    ⟨congrArg (fingerprint cr) hpub, rfl, nofun⟩
  refine ⟨h.enabled, fits_putPeer h.pinned hfits, h.stable, ?_, h.drained⟩
  intro row hrow
  rw [get?_consumed hchannel, Option.some.injEq] at hrow
  subst hrow
  exact ⟨rfl, congrArg (fingerprint cr) hpub⟩

/-- A KEYRSP of the peer installs its key, and it does so if its handshake is in flight. -/
theorem run_receive_keyrsp (hon : cr.Honest) (hideal : cr.IdealAead) (hh : e.Healthy)
    {identity : Bytes 32} (h : Steady cr channel handle (cr.edPublic identity) m) {nick : Str}
    {ephPub : Bytes 32} {sk : SessionKey} {rsp : KeyRsp}
    (hrsp : IsKeyrsp cr identity channel ephPub sk rsp) :
    ∃ m', (receive cr e nick handle (.rsp rsp)).run m = .ok [] m' ∧
      Steady cr channel handle (cr.edPublic identity) m' ∧ Continues channel handle m m' ∧
      (∀ row, m'.keyring.incoming.get? (handle, channel) = some row →
        m.keyring.incoming.get? (handle, channel) = some row ∨ row.sk = sk) ∧
      ∀ secret, ephPub = cr.xPublic secret → Awaits m channel secret →
        hasSession m' handle channel = true := by
  cases hmatch : matchKeyrsp cr e m.pending rsp with
  | none =>
    obtain ⟨err, hconsume⟩ := run_consume_of_no_match hmatch
    have hhandle : (Exec.attempt (handleKeyrsp cr e handle rsp)).run m = .ok (.error err) m := by
      rw [run_attempt, handleKeyrsp, hrsp.signed, bind_of_ok (run_lift_ok () m),
        bind_of_error hconsume]
    refine ⟨{ m with pendingTrustChange := [] }, ?_, ?_, ?_, ?_, ?_⟩
    · unfold receive
      rw [bind_of_ok hhandle]
      rfl
    · exact ⟨h.enabled, h.pinned, h.stable, h.session, h.drained⟩
    · exact ⟨rfl, fun _ hsk => hsk, id, fun _ _ ha => ha⟩
    · exact fun row hrow => .inl hrow
    · rintro secret rfl hawaits
      obtain ⟨sk', key, hsome⟩ := @isSome_matchKeyrsp cr e channel m hon identity secret sk rsp
        hrsp hawaits
      rw [hmatch] at hsome
      cases hsome
  | some r =>
    obtain ⟨sk', key⟩ := r
    obtain ⟨-, ph, -, hunwrap⟩ := matchKeyrsp_eq_some hmatch
    obtain rfl := eq_of_unwrap hideal hrsp hunwrap
    have hrun := run_handleKeyrsp_of_match h hh hrsp.channel hrsp.pubkey hrsp.signed hmatch
    have hhandle : (Exec.attempt (handleKeyrsp cr e handle rsp)).run m =
        .ok (.ok ()) (consumed cr e m handle rsp sk' key) := by rw [run_attempt, hrun]
    have hsteady := @consume cr e channel handle _ m h rsp sk' key hrsp.channel hrsp.pubkey
    have hget := @get?_consumed cr e channel handle m rsp sk' key hrsp.channel
    have hsome : hasSession (consumed cr e m handle rsp sk' key) handle channel = true := by
      rw [hasSession, hget]
      rfl
    refine ⟨{ consumed cr e m handle rsp sk' key with pendingTrustChange := [] },
      ?_, ?_, ?_, ?_, ?_⟩
    · unfold receive
      rw [bind_of_ok hhandle]
      rfl
    · exact ⟨hsteady.enabled, hsteady.pinned, hsteady.stable, hsteady.session, hsteady.drained⟩
    · refine ⟨rfl, fun _ hsk => hsk, fun _ => hsome, fun hnone => ?_⟩
      exact absurd (hsome.symm.trans hnone) Bool.true_eq_false.mp
    · intro row hrow
      obtain rfl := Option.some.inj (hget.symm.trans hrow)
      exact .inr rfl
    · exact fun _ _ _ => hsome

end Steady

end Repartee
