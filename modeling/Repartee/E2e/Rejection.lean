import Repartee.E2e.Encryption
import Repartee.E2e.Replay

/-!
# What a rejected handshake leaves behind

A handler that fails keeps the writes it has made. A REKEY is checked before anything is written.
A KEYRSP consumes the handshake that it answers before its responder is checked, and a KEYREQ
pins its sender before the answer can fail.

## Main definitions

- `traceMask`: the state without what a rejection may change
- `Handshake.Traceless`: when a rejection of a message leaves no trace

## Main results

- `rejection_traceless_iff`: exactly then
-/

set_option autoImplicit false

namespace Repartee

namespace E2eManager

open Exec

variable {cr : Crates} {e : Env}

/-- The state without what a rejection may change: the rate limiter and the warnings, and the
number of random values drawn. -/
def traceMask (m : E2eManager) : E2eManager :=
  { m with rateLimiter := RateLimiter.new, pendingTrustChange := [], draws := 0 }

/-- A rejection has changed nothing but the rate limiter and the warnings. -/
def NoTrace (m m' : E2eManager) : Prop := Frame traceMask m m'

theorem NoTrace.keyring {m m' : E2eManager} (h : NoTrace m m') : m'.keyring = m.keyring := by
  have hk := congrArg E2eManager.keyring (show traceMask m' = traceMask m from h)
  exact hk

theorem NoTrace.pending {m m' : E2eManager} (h : NoTrace m m') : m'.pending = m.pending := by
  have hp := congrArg E2eManager.pending (show traceMask m' = traceMask m from h)
  exact hp

/-! ### KEYRSP -/

/-- A KEYRSP that matches consumes the handshake. -/
theorem run_consume_of_match {m : E2eManager} {rsp : KeyRsp} {sk : SessionKey}
    {key : Str × Bytes 16} (h : matchKeyrsp cr e m.pending rsp = some (sk, key)) :
    (consumeMatchingPendingForKeyrsp cr e rsp).run m =
      .ok sk { m with pending := m.pending.erase key } := by
  have hne : (candidateKeys e m.pending rsp.channel).isEmpty = false := by
    rw [List.isEmpty_eq_false_iff]
    intro hnil
    simp [matchKeyrsp, hnil] at h
  unfold consumeMatchingPendingForKeyrsp
  rw [bind_of_ok (rfl : (get : M E2eManager).run m = .ok m m), hne,
    bind_of_ok (run_require_of_true (by rfl) _ _), h]
  rfl

/-- A KEYRSP without a match consumes nothing. -/
theorem run_consume_of_no_match {m : E2eManager} {rsp : KeyRsp}
    (h : matchKeyrsp cr e m.pending rsp = none) :
    ∃ err, (consumeMatchingPendingForKeyrsp cr e rsp).run m = .error err m := by
  obtain ⟨sk, key, hm, -⟩ | herr := @run_consumeMatchingPending cr e m rsp
  · rw [h] at hm
    cases hm
  · exact herr

/-- After the match, the handshakes in flight are left alone. -/
theorem pending_after_match {m : E2eManager} {handle : Str} {rsp : KeyRsp} {sk : SessionKey}
    {key : Str × Bytes 16} (hs : verifyKeyrsp cr rsp = .ok ())
    (h : matchKeyrsp cr e m.pending rsp = some (sk, key)) :
    (final (handleKeyrsp cr e handle rsp) m).pending = m.pending.erase key := by
  have hframe : Frame E2eManager.pending { m with pending := m.pending.erase key }
      (final (handleKeyrsp cr e handle rsp) m) := by
    unfold handleKeyrsp
    rw [hs, final_bind_of_ok (run_lift_ok () m), final_bind_of_ok (run_consume_of_match h)]
    refine Moves.bind (R := Frame E2eManager.pending) (moves_ask _) (fun change => ?_) _
    refine Moves.ite (fun _ => ?_) (fun _ => ?_)
    · refine Moves.bind (moves_tell (fun _ _ _ => rfl)) (fun _ => ?_)
      refine Moves.bind (Moves.attempt (moves_tell (fun _ _ _ => rfl))) (fun installed => ?_)
      cases installed with
      | ok u => exact Moves.pure _
      | error err =>
        cases err with
        | handleMismatch expected got =>
          refine (moves_ask _).bind (fun existing => ?_)
          exact Moves.bind (Moves.modify (fun _ => rfl)) (fun _ => Moves.throw _)
        | _ => exact Moves.throw _
    · exact Moves.bind (Moves.modify (fun _ => rfl)) (fun _ => Moves.throw _)
  exact hframe

/-- A rejected KEYRSP leaves no trace if and only if it is not authentic or answers nothing. -/
theorem keyrsp_traceless_iff {m m' : E2eManager} {handle : Str} {rsp : KeyRsp} {err : E2eError}
    (h : (handleKeyrsp cr e handle rsp).run m = .error err m') :
    NoTrace m m' ↔ verifyKeyrsp cr rsp ≠ .ok () ∨ matchKeyrsp cr e m.pending rsp = none := by
  cases hs : verifyKeyrsp cr rsp with
  | error err' =>
    refine iff_of_true ?_ (.inl (by simp))
    rw [handleKeyrsp, hs, bind_of_error (run_lift_error err' m)] at h
    cases h
    rfl
  | ok u =>
    cases hm : matchKeyrsp cr e m.pending rsp with
    | none =>
      refine iff_of_true ?_ (.inr rfl)
      obtain ⟨err', hrun⟩ := run_consume_of_no_match hm
      rw [handleKeyrsp, hs, bind_of_ok (run_lift_ok u m), bind_of_error hrun] at h
      cases h
      rfl
    | some r =>
      refine iff_of_false (fun hn => ?_) (by simp)
      obtain ⟨-, ph, hph, -⟩ := matchKeyrsp_eq_some hm
      have hp := @pending_after_match cr e m handle rsp r.1 r.2 hs hm
      rw [final_of_error h, hn.pending] at hp
      have hl := Dict.lookup_erase m.pending r.2 r.2
      rw [← hp, hph] at hl
      simp at hl

/-! ### REKEY -/

/-- A rejected REKEY leaves no trace. -/
theorem rekey_traceless {m m' : E2eManager} {handle : Str} {rekey : KeyRekey} {err : E2eError}
    (h : (handleRekey cr e handle rekey).run m = .error err m') : NoTrace m m' := by
  have hrun := @run_handleRekey cr e m handle rekey
  rw [h] at hrun
  cases hrun with
  | refused err notices => rfl

/-! ### KEYREQ -/

/-- The end of `serveKeyrsp`, after the recipient row. -/
def sendKeyrsp (cr : Crates) (e : Env) (senderHandle : Str) (req : KeyReq)
    (ourSk : SessionKey) : M KeyRsp := do
  let ourEphSecret ← draw e 32
  let ourEphPub := cr.xPublic ourEphSecret
  let info := Utf8.encode (wrapInfo req.channel)
  let wrapKey := deriveWrapKey cr ourEphSecret req.ephX25519 info
  let (wrapNonce, wrapCt) ← aeadEncrypt cr e wrapKey info ourSk.1
  let m ← get
  let ourPubkey := m.publicBytes cr
  let rspNonce ← draw e 16
  let sigPayload :=
    signedKeyrspPayload req.channel ourPubkey ourEphPub wrapNonce wrapCt rspNonce
  let alreadyIncoming ← isTrusted e.again senderHandle req.channel
  let allowOut ← allowKeyreq e senderHandle
  runIf (!alreadyIncoming && allowOut) (queueReciprocal cr e senderHandle req.channel)
  return { channel := req.channel, pubkey := ourPubkey, ephemeralPub := ourEphPub, wrapNonce,
           wrapCt, nonce := rspNonce, sig := cr.edSign m.identity sigPayload }

/-- The statement that records the recipient of a KEYRSP. -/
def recordRecipient (cr : Crates) (e : Env) (senderHandle : Str) (req : KeyReq)
    (k : Keyring) : Result Keyring :=
  k.recordOutgoingRecipient e req.channel senderHandle (fingerprint cr req.pubkey) e.now

theorem serveKeyrsp_eq (senderHandle : Str) (req : KeyReq) :
    serveKeyrsp cr e senderHandle req = (do
      let ourSk ← getOrGenerateOutgoingKey cr e req.channel
      tell (recordRecipient cr e senderHandle req)
      sendKeyrsp cr e senderHandle req ourSk) := rfl

/-- The end of `serveKeyrsp` fails before it queues anything. -/
theorem sendKeyrsp_error {m m' : E2eManager} {handle : Str} {req : KeyReq} {ourSk : SessionKey}
    {err : E2eError} (h : (sendKeyrsp cr e handle req ourSk).run m = .error err m') :
    NoTrace m m' := by
  have hdraw : ∀ m, Frame traceMask m { m with draws := m.draws + 1 } := fun _ => rfl
  unfold sendKeyrsp at h
  rcases bind_eq_error_iff.mp h with h₁ | ⟨ourEphSecret, m₁, h₁, hrest₁⟩
  · cases h₁
  cases h₁
  rcases bind_eq_error_iff.mp hrest₁ with h₂ | ⟨wrapped, m₂, h₂, hrest₂⟩
  · exact final_of_error h₂ ▸ moves_aeadEncrypt (R := Frame traceMask) hdraw _ _ _ _
  have hm₂ : Frame traceMask m m₂ :=
    final_of_ok h₂ ▸ moves_aeadEncrypt (R := Frame traceMask) hdraw _ _ _ _
  rcases bind_eq_error_iff.mp hrest₂ with h₃ | ⟨m₂', m₃, h₃, hrest₃⟩
  · cases h₃
  cases h₃
  rcases bind_eq_error_iff.mp hrest₃ with h₄ | ⟨rspNonce, m₄, h₄, hrest₄⟩
  · cases h₄
  cases h₄
  rcases bind_eq_error_iff.mp hrest₄ with h₅ | ⟨already, m₅, h₅, hrest₅⟩
  · have hq : Frame traceMask _ _ := final_of_error h₅ ▸
      moves_isTrusted (R := Frame traceMask) e.again handle req.channel _
    exact hq.trans hm₂
  -- from here on nothing fails
  rcases bind_eq_error_iff.mp hrest₅ with h₆ | ⟨allowOut, m₆, -, hrest₆⟩
  · cases h₆
  rcases bind_eq_error_iff.mp hrest₆ with h₇ | ⟨u, m₇, -, h₈⟩
  · have hret : Returns (runIf (!already && allowOut)
        (queueReciprocal cr e handle req.channel)) m₆ :=
      returns_runIf_iff.mpr (fun _ => ⟨_, _, rfl⟩)
    obtain ⟨a, m₈, hok⟩ := hret
    rw [hok] at h₇
    cases h₇
  · cases h₈

/-- Fetching the key of a channel does not mint one, or fails before it is stored. -/
def KeyKept (e : Env) (m : E2eManager) (channel : Str) : Prop :=
  usableSession m channel = none → e.fault .getOutgoingSession ≠ none ∨
    e.fault (.again .getOutgoingSession) ≠ none ∨ e.fault .setOutgoingSession ≠ none

/-- The KEYRSP to a KEYREQ, if it fails, does so before it writes: no key is minted, and the
recipient row, if the key could be fetched, cannot be written or is there already. -/
def ServedTraceless (cr : Crates) (e : Env) (m : E2eManager) (handle : Str) (req : KeyReq) :
    Prop :=
  KeyKept e m req.channel ∧
    (e.fault .getOutgoingSession = none → (usableSession m req.channel).isSome = true →
      e.fault .recordOutgoingRecipient = none →
      ∃ q, m.keyring.recipients.get? (req.channel, handle) = some q ∧
        q.fingerprint = fingerprint cr req.pubkey)

/-- A key that is minted stays stored, whatever fails afterwards. -/
theorem outgoing_serve_of_minted {m : E2eManager} {handle : Str} {req : KeyReq}
    (hs : usableSession m req.channel = none) (hf : e.fault .getOutgoingSession = none)
    (hagain : e.fault (.again .getOutgoingSession) = none)
    (hstore : e.fault .setOutgoingSession = none) :
    (final (serveKeyrsp cr e handle req) m).keyring.outgoing =
      (minted e m req.channel).keyring.outgoing := by
  have hframe : Frame (fun m : E2eManager => m.keyring.outgoing)
      (keyed cr e m req.channel) (final (serveKeyrsp cr e handle req) m) := by
    refine serveKeyrsp_after_key (R := Frame (fun m : E2eManager => m.keyring.outgoing))
      (fun _ => rfl) (fun _ _ => rfl) (fun _ _ => rfl) ?_ m
    exact queueReciprocal_moves (R := Frame (fun m : E2eManager => m.keyring.outgoing))
      (fun _ => rfl) (fun _ _ _ => rfl) (fun _ _ => rfl) _
  have hkeyed := @keyring_keyed_of_minted cr e m req.channel hs hf hagain hstore
  exact hframe.trans (congrArg Keyring.outgoing hkeyed)

/-- A minted key is usable. -/
theorem usableSession_minted (m : E2eManager) (channel : Str) :
    (usableSession (minted e m channel) channel).isSome = true := by
  have hget : (minted e m channel).keyring.outgoing.get? channel =
      some ⟨channel, e.random m.draws 32, e.now, false⟩ :=
    Table.get?_replace_self m.keyring.outgoing ⟨channel, e.random m.draws 32, e.now, false⟩
  rw [usableSession, hget]
  rfl

/-- A key that cannot be fetched and is not minted leaves no trace. -/
theorem key_traceless {m : E2eManager} {channel : Str}
    (h : e.fault .getOutgoingSession ≠ none ∨ e.fault (.again .getOutgoingSession) ≠ none ∨
      e.fault .setOutgoingSession ≠ none) :
    NoTrace m (final (getOrGenerateOutgoingKey cr e channel) m) := by
  refine rel_final_query_bind (R := Frame traceMask) (fun sess hsess => ?_)
  have hget := (Env.exec_eq_ok_iff.mp hsess).1
  dsimp only
  split
  · exact Moves.pure (R := Frame traceMask) _ m
  · refine rel_final_query_bind (fun sess' hsess' => ?_)
    have hagain := (Env.exec_eq_ok_iff.mp hsess').1
    have hset : e.fault .setOutgoingSession ≠ none :=
      h.elim (absurd hget) (fun h' => h'.elim (absurd hagain) id)
    refine rel_final_bind rfl (fun fresh m₁ hm₁ => ?_)
    cases hm₁
    refine rel_final_bind ?_ (fun _ m₂ hm₂ => ?_)
    · rw [final_tell]
      split
      · rename_i k hk
        exact absurd (Env.exec_eq_ok_iff.mp hk).1 hset
      · rfl
    · obtain ⟨k, hk, rfl⟩ := run_tell_eq_ok_iff.mp hm₂
      exact absurd (Env.exec_eq_ok_iff.mp hk).1 hset

/-- Recording a recipient changes nothing if and only if it is recorded already. -/
theorem recordRecipient_eq_self_iff {k : Keyring} {handle : Str} {req : KeyReq} {k' : Keyring}
    (h : recordRecipient cr e handle req k = .ok k') :
    k' = k ↔ ∃ q, k.recipients.get? (req.channel, handle) = some q ∧
      q.fingerprint = fingerprint cr req.pubkey := by
  obtain ⟨-, rfl⟩ := Env.exec_eq_ok_iff.mp h
  have hself := @Table.upsert_eq_self_iff _ _ (fun r : OutgoingRecipient => (r.channel, r.handle))
    _ k.recipients ⟨req.channel, handle, fingerprint cr req.pubkey, e.now⟩
    (fun old => { old with fingerprint := fingerprint cr req.pubkey }) (fun _ => rfl)
  constructor
  · intro hk
    obtain ⟨q, hq, hmerge⟩ := hself.mp (congrArg Keyring.recipients hk)
    exact ⟨q, hq, (congrArg OutgoingRecipient.fingerprint hmerge).symm⟩
  · rintro ⟨q, hq, hfp⟩
    have ht := hself.mpr ⟨q, hq, by rw [← hfp]⟩
    show { k with recipients := _ } = k
    rw [ht]

/-- A KEYRSP for which a key is minted leaves a trace. -/
theorem not_noTrace_of_minted {m m' : E2eManager} {handle : Str} {req : KeyReq} {err : E2eError}
    (h : (serveKeyrsp cr e handle req).run m = .error err m')
    (hs : usableSession m req.channel = none) (hf : e.fault .getOutgoingSession = none)
    (hagain : e.fault (.again .getOutgoingSession) = none)
    (hstore : e.fault .setOutgoingSession = none) :
    ¬ NoTrace m m' ∧ ¬ ServedTraceless cr e m handle req := by
  constructor
  · intro hn
    have hout := @outgoing_serve_of_minted cr e m handle req hs hf hagain hstore
    rw [final_of_error h, hn.keyring] at hout
    have husable := @usableSession_minted e m req.channel
    rw [usableSession, ← hout, ← usableSession, hs] at husable
    cases husable
  · intro ht
    rcases ht.1 hs with h₁ | h₁ | h₁
    · exact h₁ hf
    · exact h₁ hagain
    · exact h₁ hstore

/-- With a usable key, a KEYRSP that cannot be built leaves no trace if and only if its recipient
is recorded already, or cannot be. -/
theorem serve_traceless_of_usable {m m' : E2eManager} {handle : Str} {req : KeyReq}
    {err : E2eError} {s : OutgoingSession}
    (h : (serveKeyrsp cr e handle req).run m = .error err m')
    (hf : e.fault .getOutgoingSession = none) (hs : usableSession m req.channel = some s) :
    NoTrace m m' ↔ ServedTraceless cr e m handle req := by
  have hkept : KeyKept e m req.channel := fun hn => by simp [hs] at hn
  rw [serveKeyrsp_eq, bind_of_ok (run_getOrGenerateOutgoingKey_of_usable hf hs)] at h
  cases hrec : recordRecipient cr e handle req m.keyring with
  | error err' =>
    rw [bind_of_error (run_tell_of_error hrec)] at h
    cases h
    refine iff_of_true rfl ⟨hkept, fun _ _ hnone => ?_⟩
    simp [recordRecipient, Keyring.recordOutgoingRecipient, Env.exec, hnone] at hrec
  | ok k =>
    rw [bind_of_ok (run_tell_of_ok hrec)] at h
    have hsent := sendKeyrsp_error h
    rw [ServedTraceless, ← recordRecipient_eq_self_iff hrec]
    constructor
    · intro hn
      exact ⟨hkept, fun _ _ _ => hsent.keyring.symm.trans hn.keyring⟩
    · rintro ⟨-, hrow⟩
      rw [hrow hf (by rw [hs]; rfl) (Env.exec_eq_ok_iff.mp hrec).1] at hsent
      exact hsent

/-- A KEYRSP that cannot be built leaves no trace under that condition only. -/
theorem serve_traceless_iff {m m' : E2eManager} {handle : Str} {req : KeyReq} {err : E2eError}
    (h : (serveKeyrsp cr e handle req).run m = .error err m') :
    NoTrace m m' ↔ ServedTraceless cr e m handle req := by
  by_cases hbad : e.fault .getOutgoingSession ≠ none ∨ e.fault (.again .getOutgoingSession) ≠ none ∨
    e.fault .setOutgoingSession ≠ none
  · cases hkey : (getOrGenerateOutgoingKey cr e req.channel).run m with
    | error err' m₁ =>
      have hno := @key_traceless cr e m req.channel hbad
      rw [serveKeyrsp_eq, bind_of_error hkey] at h
      cases h
      refine iff_of_true (final_of_error hkey ▸ hno) ⟨fun _ => hbad, fun hf hsome => ?_⟩
      obtain ⟨s, hs⟩ := Option.isSome_iff_exists.mp hsome
      rw [run_getOrGenerateOutgoingKey_of_usable hf hs] at hkey
      cases hkey
    | ok sk m₁ =>
      have hready := returns_getOrGenerateOutgoingKey_iff.mp (returns_of_ok hkey)
      cases hs : usableSession m req.channel with
      | some s => exact serve_traceless_of_usable h hready.fetched hs
      | none =>
        obtain ⟨hagain, hstore⟩ := hready.stored hs
        rcases hbad with h₁ | h₁ | h₁
        · exact absurd hready.fetched h₁
        · exact absurd hagain h₁
        · exact absurd hstore h₁
  · simp only [not_or, not_not] at hbad
    obtain ⟨hf, hagain, hstore⟩ := hbad
    cases hs : usableSession m req.channel with
    | some s => exact serve_traceless_of_usable h hf hs
    | none =>
      obtain ⟨h₁, h₂⟩ := not_noTrace_of_minted h hs hf hagain hstore
      exact iff_of_false h₁ h₂

/-- A rejected KEYREQ leaves no trace if its sender is not pinned, or if pinning changes nothing
and the answer fails before it writes. -/
def KeyreqTraceless (cr : Crates) (e : Env) (m : E2eManager) (handle : Str)
    (nick : Option Str) (req : KeyReq) : Prop :=
  ∀ mode k, KeyreqPinned cr e m handle nick req mode k →
    k = m.keyring ∧
      (e.fault .getIncomingSession = none → ServedTraceless cr e m handle req)

/-- After the pin, a KEYREQ fails when its session row cannot be read, or with its KEYRSP. -/
theorem answer_error {m m' : E2eManager} {handle : Str} {nick : Option Str} {req : KeyReq}
    {mode : ChannelMode} {err : E2eError}
    (h : (answerKeyreq cr e handle nick req mode).run m = .error err m') :
    (e.fault .getIncomingSession ≠ none ∧ m' = m) ∨
      (e.fault .getIncomingSession = none ∧
        (serveKeyrsp cr e handle req).run m = .error err m') := by
  have hserve : ∀ {m₁ : E2eManager},
      (do return some (← serveKeyrsp cr e handle req) : M (Option KeyRsp)).run m₁ =
        .error err m' → (serveKeyrsp cr e handle req).run m₁ = .error err m' := by
    intro m₁ hs
    rcases bind_eq_error_iff.mp hs with hs | ⟨rsp, m₂, -, hs⟩
    · exact hs
    · cases hs
  cases hf : e.fault .getIncomingSession with
  | some err' =>
    have herr : (isTrusted e handle req.channel).run m = .error err' m :=
      bind_of_error (run_ask_of_error (by simp [Keyring.getIncomingSession, Env.exec, hf]))
    rw [answerKeyreq, bind_of_error herr] at h
    cases h
    exact .inl ⟨by simp, rfl⟩
  | none =>
    refine .inr ⟨rfl, ?_⟩
    rw [answerKeyreq, bind_of_ok (run_isTrusted m handle req.channel hf)] at h
    cases mode with
    | autoAccept => exact hserve h
    | normal =>
      dsimp only at h
      split at h
      · exact hserve h
      · rw [bind_of_ok (run_cachePendingInboundNormalMode m handle nick req)] at h
        cases h
    | quiet =>
      dsimp only at h
      split at h
      · exact hserve h
      · cases h

theorem peers_of_serve_error {m m' : E2eManager} {handle : Str} {req : KeyReq} {err : E2eError}
    (h : (serveKeyrsp cr e handle req).run m = .error err m') :
    m'.keyring.peers = m.keyring.peers := by
  have hframe := @serveKeyrsp_serveMask cr e handle req m
  rw [final_of_error h] at hframe
  have hp := congrArg (fun s => s.keyring.peers) (show serveMask m' = serveMask m from hframe)
  exact hp

/-- Pinning writes the peers alone. -/
theorem eq_of_pinOnKeyreq_peers {k k' : Keyring} {handle : Str} {nick : Option Str}
    {req : KeyReq} (h : pinOnKeyreq cr e k handle nick req = .ok k') (hp : k'.peers = k.peers) :
    k' = k := by
  obtain ⟨change, rec, -, -, -, -, rfl⟩ := pinOnKeyreq_eq_ok h
  have hpeers : (k.putPeer rec).peers = k.peers := hp
  show { k with peers := (k.putPeer rec).peers } = k
  rw [hpeers]

/-- A rejected KEYREQ leaves no trace under that condition only. -/
theorem keyreq_traceless_iff {m m' : E2eManager} {handle : Str} {nick : Option Str}
    {req : KeyReq} {err : E2eError}
    (h : (handleKeyreqWithNick cr e handle nick req).run m = .error err m') :
    NoTrace m m' ↔ KeyreqTraceless cr e m handle nick req := by
  by_cases hpinned : ∃ mode k, KeyreqPinned cr e m handle nick req mode k
  swap
  · refine iff_of_true ?_ (fun mode k hk => absurd ⟨mode, k, hk⟩ hpinned)
    obtain ⟨err', hrun⟩ | hrun | ⟨err', hrun⟩ :=
      run_handleKeyreq_of_not_pinned (fun mode k hk => hpinned ⟨mode, k, hk⟩)
    · rw [hrun] at h
      cases h
      rfl
    · rw [hrun] at h
      cases h
    · rw [hrun] at h
      cases h
      show traceMask (warned cr e (limited e m handle) handle req.channel req.pubkey) = _
      unfold warned
      split
      · split <;> rfl
      · rfl
  obtain ⟨mode, k, hk⟩ := hpinned
  rw [run_handleKeyreq_of_pinned hk] at h
  have hall : KeyreqTraceless cr e m handle nick req ↔ k = m.keyring ∧
      (e.fault .getIncomingSession = none → ServedTraceless cr e m handle req) := by
    constructor
    · intro ht
      exact ht mode k hk
    · rintro ht mode' k' hk'
      obtain rfl : k = k' := Except.ok.inj (hk.pinned.symm.trans hk'.pinned)
      exact ht
  rw [hall]
  obtain ⟨hf, rfl⟩ | ⟨hf, hserve⟩ := answer_error h
  · constructor
    · intro hn
      exact ⟨hn.keyring, fun hnone => absurd hnone hf⟩
    · rintro ⟨rfl, -⟩
      rfl
  · have hiff := serve_traceless_iff hserve
    constructor
    · intro hn
      have hpeers : k.peers = m.keyring.peers :=
        (peers_of_serve_error hserve).symm.trans (congrArg Keyring.peers hn.keyring)
      obtain rfl := eq_of_pinOnKeyreq_peers hk.pinned hpeers
      have hn' : NoTrace { limited e m handle with keyring := m.keyring } m' := hn
      exact ⟨rfl, fun _ => hiff.mp hn'⟩
    · rintro ⟨rfl, ht⟩
      have hn' : NoTrace { limited e m handle with keyring := m.keyring } m' :=
        hiff.mpr (ht hf)
      exact hn'

/-! ### All three messages -/

/-- A handshake message, as its handler receives it. -/
inductive Handshake where
  | keyreq (handle : Str) (nick : Option Str) (req : KeyReq)
  | keyrsp (handle : Str) (rsp : KeyRsp)
  | rekey (handle : Str) (rekey : KeyRekey)

/-- The handler of a message. -/
def Handshake.handle (cr : Crates) (e : Env) : Handshake → M Unit
  | .keyreq h nick req => do let _ ← handleKeyreqWithNick cr e h nick req
  | .keyrsp h rsp => handleKeyrsp cr e h rsp
  | .rekey h rk => handleRekey cr e h rk

/-- When the rejection of a message leaves no trace. -/
def Handshake.Traceless (cr : Crates) (e : Env) (m : E2eManager) : Handshake → Prop
  | .keyreq h nick req => KeyreqTraceless cr e m h nick req
  | .keyrsp _ rsp => verifyKeyrsp cr rsp ≠ .ok () ∨ matchKeyrsp cr e m.pending rsp = none
  | .rekey _ _ => True

/-- **A rejected handshake leaves no trace if and only if the checks that it fails come before
the writes.** -/
theorem rejection_traceless_iff {m m' : E2eManager} {msg : Handshake} {err : E2eError}
    (h : (msg.handle cr e).run m = .error err m') :
    NoTrace m m' ↔ msg.Traceless cr e m := by
  cases msg with
  | keyreq hd nick req =>
    rcases bind_eq_error_iff.mp h with h | ⟨rsp, m₁, -, h⟩
    · exact keyreq_traceless_iff h
    · cases h
  | keyrsp hd rsp => exact keyrsp_traceless_iff h
  | rekey hd rekey => exact iff_of_true (rekey_traceless h) trivial

/-! ### Samples -/

instance (m m' : E2eManager) : Decidable (NoTrace m m') :=
  inferInstanceAs (Decidable (traceMask m' = traceMask m))

/-- A KEYRSP of the identity `seed` to the KEYREQ with the ephemeral secret `ours`. -/
def sampleKeyrsp (seed ours : Bytes 32) : KeyRsp :=
  let channel := str "#rust"
  let eph := Bytes.fill 32 5
  let info := Utf8.encode (wrapInfo channel)
  let wrapCt := Sample.wrap (deriveWrapKey sample eph (sample.xPublic ours) info) info
    (Bytes.fill 32 51)
  { channel := channel, pubkey := sample.edPublic seed, ephemeralPub := sample.xPublic eph,
    wrapNonce := Bytes.fill 24 0, wrapCt := wrapCt, nonce := Bytes.fill 16 0,
    sig := sample.edSign seed
      (signedKeyrspPayload channel (sample.edPublic seed) (sample.xPublic eph) (Bytes.fill 24 0)
        wrapCt (Bytes.fill 16 0)) }

/-- A client with a KEYREQ in flight, whose peer is pinned with another identity. -/
def waitingRun : List Input :=
  [(sampleEnv 1000 20, .buildKeyreq (str "#rust") none),
    (sampleEnv 1001 0, .setChannelConfig ⟨str "#rust", true, .quiet⟩),
    (sampleEnv 1002 0, .keyreq (str "bob@host") none
      (Sample.keyreq (Bytes.fill 32 7) (str "#rust") (Bytes.fill 32 1) (Bytes.fill 16 2)))]

set_option maxRecDepth 100000 in
/-- A KEYRSP of an identity that its handle is not pinned with is rejected, and has consumed the
handshake that it answers. -/
theorem rejected_keyrsp_leaves_trace :
    ¬ Returns ((Handshake.keyrsp (str "bob@host") (sampleKeyrsp (Bytes.fill 32 8)
        (Bytes.fill 32 21))).handle sample (sampleEnv 1003 0))
      (runOps sample newcomer waitingRun) ∧
    ¬ NoTrace (runOps sample newcomer waitingRun)
      (final ((Handshake.keyrsp (str "bob@host") (sampleKeyrsp (Bytes.fill 32 8)
        (Bytes.fill 32 21))).handle sample (sampleEnv 1003 0))
        (runOps sample newcomer waitingRun)) := by
  constructor <;> decide +kernel

set_option maxRecDepth 100000 in
/-- A KEYRSP that answers nothing leaves no trace. -/
theorem unsolicited_keyrsp_leaves_no_trace :
    NoTrace newcomer
      (final ((Handshake.keyrsp (str "bob@host") (sampleKeyrsp (Bytes.fill 32 8)
        (Bytes.fill 32 21))).handle sample (sampleEnv 1003 0)) newcomer) := by
  have hfail : ¬ Returns ((Handshake.keyrsp (str "bob@host") (sampleKeyrsp (Bytes.fill 32 8)
      (Bytes.fill 32 21))).handle sample (sampleEnv 1003 0)) newcomer := by decide +kernel
  obtain ⟨err, h⟩ := exists_error_of_not_returns hfail
  exact (rejection_traceless_iff h).mpr (.inr rfl)

end E2eManager

end Repartee
