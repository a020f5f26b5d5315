import Repartee.Lib.Noninterference
import Repartee.E2e.Steps

/-!
# What an operation on a context reads and writes

The outgoing keys, the incoming sessions, the configurations and the recipients are filed by
context. For a set `P` of contexts, `Keyring.restrict P` drops the rows of the others, and
`Keyring.rowsOf P` is what it keeps of these four tables. An operation on a context of `P` sees
the restricted state only, and an operation on a context outside of `Q` leaves the rows of `Q`
as they are. Both are proved at once, as confinement.

## Main definitions

- `Keyring.rowsOf`, `Keyring.restrict`: the rows of some contexts
- `Op.about`: the context that an operation is about

## Main results

- `confined_handleKeyreq`, `confined_handleKeyrsp`, `confined_handleRekey`,
  `confined_encryptOutgoing`: the operations on one context
- `agree_exec`: an operation on contexts of `P` ends alike in states with the same `P`-part
- `rowsAt_step`: an operation outside of `Q` keeps the rows of `Q`
-/

set_option autoImplicit false

namespace Repartee

/-- The rows of the tables that are filed by context. -/
structure ContextRows where
  outgoing : Table OutgoingSession OutgoingSession.channel
  incoming : Table IncomingSession (fun s => (s.handle, s.channel))
  channels : Table ChannelConfig ChannelConfig.channel
  recipients : Table OutgoingRecipient (fun r => (r.channel, r.handle))

namespace Keyring

/-- The rows of the contexts of `P`. -/
def rowsOf (P : Str → Bool) (k : Keyring) : ContextRows where
  outgoing := k.outgoing.deleteWhere (fun s => !P s.channel)
  incoming := k.incoming.deleteWhere (fun s => !P s.channel)
  channels := k.channels.deleteWhere (fun c => !P c.channel)
  recipients := k.recipients.deleteWhere (fun r => !P r.channel)

/-- The keyring without the rows of contexts outside of `P`. The identity, the peers and the
autotrust rules belong to no context. -/
def restrict (P : Str → Bool) (k : Keyring) : Keyring :=
  { k with
    outgoing := (k.rowsOf P).outgoing
    incoming := (k.rowsOf P).incoming
    channels := (k.rowsOf P).channels
    recipients := (k.rowsOf P).recipients }

variable {P Q : Str → Bool} {ch : Str} (k : Keyring)

/-! ### Rows of a context of the set -/

section

variable (hP : P ch = true)

include hP

theorem outgoing_restrict : (k.restrict P).outgoing.get? ch = k.outgoing.get? ch := by
  apply Table.get?_deleteWhere_of_kept
  rintro s rfl
  simp [hP]

theorem incoming_restrict (handle : Str) :
    (k.restrict P).incoming.get? (handle, ch) = k.incoming.get? (handle, ch) := by
  apply Table.get?_deleteWhere_of_kept
  intro s hs
  obtain rfl : s.channel = ch := congrArg Prod.snd hs
  simp [hP]

theorem channels_restrict : (k.restrict P).channels.get? ch = k.channels.get? ch := by
  apply Table.get?_deleteWhere_of_kept
  rintro s rfl
  simp [hP]

theorem recipientsOf_restrict : (k.restrict P).recipientsOf ch = k.recipientsOf ch := by
  unfold recipientsOf
  congr 1
  show (List.filter _ (List.filter _ k.recipients.rows)) = _
  rw [List.filter_filter]
  refine List.filter_congr (fun r _ => ?_)
  by_cases hr : r.channel = ch
  · simp [hr, hP]
  · simp [hr]

end

/-! ### Statements on one context -/

/-- A change to the rows of one context: it does not read those of the others, and does not write
them. -/
structure LocalTo (ch : Str) (g : Keyring → Keyring) : Prop where
  inside : ∀ P : Str → Bool, P ch = true → ∀ k : Keyring, g (k.restrict P) = (g k).restrict P
  outside : ∀ Q : Str → Bool, Q ch = false → ∀ k : Keyring, (g k).rowsOf Q = k.rowsOf Q

theorem localTo_outgoing {sk : SessionKey} {createdAt : Int} :
    LocalTo ch (fun k =>
      { k with outgoing := k.outgoing.replace ⟨ch, sk, createdAt, false⟩ }) where
  inside P hP k := by
    have ht := Table.replace_deleteWhere_of_kept k.outgoing (p := fun s => !P s.channel)
      (r := ⟨ch, sk, createdAt, false⟩) (by simp [hP])
    simp only [restrict, rowsOf, ht]
  outside Q hQ k := by
    have ht := Table.deleteWhere_replace_of_gone k.outgoing (p := fun s => !Q s.channel)
      (r := ⟨ch, sk, createdAt, false⟩) (by rintro r rfl; simp [hQ])
    simp only [rowsOf, ht]

theorem localTo_rotation :
    LocalTo ch (fun k =>
      { k with
        outgoing := k.outgoing.updateWhere (fun s => s.channel = ch)
          (fun s => { s with pendingRotation := true }) (fun _ => rfl) }) where
  inside P hP k := by
    simp only [restrict, rowsOf, Table.updateWhere_deleteWhere k.outgoing
      (p := fun s => !P s.channel) (f := fun s => { s with pendingRotation := true })
      (fun _ => rfl) (fun _ => rfl)]
  outside Q hQ k := by
    have ht := Table.deleteWhere_updateWhere_of_gone k.outgoing (p := fun s => !Q s.channel)
      (q := fun s => s.channel = ch) (f := fun s => { s with pendingRotation := true })
      (fun _ => rfl) (fun _ => rfl) (fun s hs => by simp [of_decide_eq_true hs, hQ])
    simp only [rowsOf, ht]

theorem localTo_config {cfg : ChannelConfig} :
    LocalTo cfg.channel (fun k => { k with channels := k.channels.replace cfg }) where
  inside P hP k := by
    have ht := Table.replace_deleteWhere_of_kept k.channels (p := fun c => !P c.channel)
      (r := cfg) (by simp [hP])
    simp only [restrict, rowsOf, ht]
  outside Q hQ k := by
    have ht := Table.deleteWhere_replace_of_gone k.channels (p := fun c => !Q c.channel)
      (r := cfg) (fun c hc => by simp [hc, hQ])
    simp only [rowsOf, ht]

theorem localTo_session {s : IncomingSession} :
    LocalTo s.channel (fun k => { k with incoming := k.incoming.replace s }) where
  inside P hP k := by
    have ht := Table.replace_deleteWhere_of_kept k.incoming (p := fun s => !P s.channel)
      (r := s) (by simp [hP])
    simp only [restrict, rowsOf, ht]
  outside Q hQ k := by
    have ht := Table.deleteWhere_replace_of_gone k.incoming (p := fun s => !Q s.channel)
      (r := s) (fun s' hs' => by simp [(Prod.mk.inj hs').2, hQ])
    simp only [rowsOf, ht]

theorem localTo_status {handle : Str} {status : TrustStatus} :
    LocalTo ch (fun k =>
      { k with
        incoming := k.incoming.updateWhere (fun s => s.handle = handle && s.channel = ch)
          (fun s => { s with status := status }) (fun _ => rfl) }) where
  inside P hP k := by
    simp only [restrict, rowsOf, Table.updateWhere_deleteWhere k.incoming
      (p := fun s => !P s.channel) (f := fun s => { s with status := status })
      (fun _ => rfl) (fun _ => rfl)]
  outside Q hQ k := by
    have ht := Table.deleteWhere_updateWhere_of_gone k.incoming (p := fun s => !Q s.channel)
      (q := fun s => s.handle = handle && s.channel = ch)
      (f := fun s => { s with status := status }) (fun _ => rfl) (fun _ => rfl) (by
        intro s hs
        simp only [Bool.and_eq_true, decide_eq_true_eq] at hs
        simp [hs.2, hQ])
    simp only [rowsOf, ht]

theorem localTo_forget {handle : Str} :
    LocalTo ch (fun k =>
      { k with
        incoming := k.incoming.deleteWhere (fun s => s.handle = handle && s.channel = ch) }) where
  inside P hP k := by
    simp only [restrict, rowsOf, Table.deleteWhere_comm k.incoming (fun s => !P s.channel)]
  outside Q hQ k := by
    have ht := Table.deleteWhere_deleteWhere_of_imp k.incoming (p := fun s => !Q s.channel)
      (q := fun s => s.handle = handle && s.channel = ch) (by
        intro s hs
        simp only [Bool.and_eq_true, decide_eq_true_eq] at hs
        simp [hs.2, hQ])
    simp only [rowsOf, ht]

theorem localTo_record {handle : Str} {fp : Fingerprint} {firstSentAt : Int} :
    LocalTo ch (fun k =>
      { k with
        recipients := k.recipients.upsert ⟨ch, handle, fp, firstSentAt⟩
          (fun old => { old with fingerprint := fp }) (fun _ => rfl) }) where
  inside P hP k := by
    have ht := Table.upsert_deleteWhere_of_kept k.recipients (p := fun r => !P r.channel)
      (r := ⟨ch, handle, fp, firstSentAt⟩) (f := fun old => { old with fingerprint := fp })
      (fun _ => rfl) (fun _ => rfl) (fun r hr => by simp [(Prod.mk.inj hr).1, hP])
    simp only [restrict, rowsOf, ht]
  outside Q hQ k := by
    have ht := Table.deleteWhere_upsert_of_gone k.recipients (p := fun r => !Q r.channel)
      (r := ⟨ch, handle, fp, firstSentAt⟩) (f := fun old => { old with fingerprint := fp })
      (fun _ => rfl) (fun _ => rfl) (fun r hr => by simp [(Prod.mk.inj hr).1, hQ])
    simp only [rowsOf, ht]

theorem localTo_unrecord {handle : Str} :
    LocalTo ch (fun k =>
      { k with
        recipients :=
          k.recipients.deleteWhere (fun r => r.channel = ch && r.handle = handle) }) where
  inside P hP k := by
    simp only [restrict, rowsOf, Table.deleteWhere_comm k.recipients (fun r => !P r.channel)]
  outside Q hQ k := by
    have ht := Table.deleteWhere_deleteWhere_of_imp k.recipients (p := fun r => !Q r.channel)
      (q := fun r => r.channel = ch && r.handle = handle) (by
        intro r hr
        simp only [Bool.and_eq_true, decide_eq_true_eq] at hr
        simp [hr.1, hQ])
    simp only [rowsOf, ht]

end Keyring

namespace E2eManager

open Exec

variable {cr : Crates} {e : Env} {P Q : Str → Bool} {ch : Str}

/-- The state without the rows of contexts outside of `P`. -/
def seen (P : Str → Bool) (m : E2eManager) : E2eManager :=
  { m with keyring := m.keyring.restrict P }

/-- The rows of the contexts of `Q`, and the replay window. -/
def rowsAt (Q : Str → Bool) (m : E2eManager) : ContextRows × Int :=
  (m.keyring.rowsOf Q, m.tsToleranceSecs)

theorem identity_of_seen {m m' : E2eManager} (h : seen P m = seen P m') :
    m.identity = m'.identity := by
  have hid := congrArg E2eManager.identity h
  exact hid

theorem restrict_of_seen {m m' : E2eManager} (h : seen P m = seen P m') :
    m.keyring.restrict P = m'.keyring.restrict P := by
  have hk := congrArg E2eManager.keyring h
  exact hk

/-! ### Primitive operations -/

theorem confined_ask {α : Type} {f : Keyring → Result α}
    (h : ∀ k : Keyring, f (k.restrict P) = f k) : Confined (seen P) (rowsAt Q) (ask f) := by
  apply Confined.query
  intro m m' hm
  rw [← h, restrict_of_seen hm, h]

theorem confined_lift {α : Type} (r : Result α) : Confined (seen P) (rowsAt Q) (lift r) :=
  Confined.query (fun _ _ _ => rfl)

/-- A statement whose restriction is the statement on the restricted keyring. -/
theorem sees_tell {f : Keyring → Result Keyring}
    (h : ∀ k : Keyring, f (k.restrict P) = (f k).map (Keyring.restrict P)) :
    Sees (seen P) (tell f) := by
  apply Sees.update
  intro m m' hm
  have hview : ∀ m : E2eManager,
      ((f m.keyring).map (fun k => { m with keyring := k })).map (seen P) =
        (f (seen P m).keyring).map (fun k => { seen P m with keyring := k }) := by
    intro m
    show _ = (f (m.keyring.restrict P)).map _
    rw [h]
    cases f m.keyring <;> rfl
  rw [hview, hview, hm]

theorem confined_tell {f : Keyring → Result Keyring}
    (h : ∀ k : Keyring, f (k.restrict P) = (f k).map (Keyring.restrict P))
    (hQ : ∀ k k', f k = .ok k' → k'.rowsOf Q = k.rowsOf Q) :
    Confined (seen P) (rowsAt Q) (tell f) :=
  ⟨sees_tell h, moves_tell (fun m k hk => Prod.ext (hQ m.keyring k hk) rfl)⟩

theorem exec_map {α β : Type} (s : Stmt) (x : α) (g : α → β) :
    e.exec s (g x) = (e.exec s x).map g := by
  unfold Env.exec
  cases e.fault s <;> rfl

/-- A statement on one context is confined to it. -/
theorem confined_localTo {s : Stmt} {g : Keyring → Keyring} (h : Keyring.LocalTo ch g)
    (hP : P ch = true) (hQ : Q ch = false) :
    Confined (seen P) (rowsAt Q) (tell (fun k => e.exec s (g k))) := by
  apply confined_tell
  · intro k
    rw [h.inside P hP]
    exact exec_map s (g k) _
  · intro k k' hk
    obtain ⟨-, rfl⟩ := Env.exec_eq_ok_iff.mp hk
    exact h.outside Q hQ k

/-- A statement on the tables that belong to no context. -/
theorem confined_shared {s : Stmt} {g : Keyring → Keyring}
    (h : ∀ (P : Str → Bool) (k : Keyring), g (k.restrict P) = (g k).restrict P)
    (hrows : ∀ k : Keyring, (g k).rowsOf Q = k.rowsOf Q) :
    Confined (seen P) (rowsAt Q) (tell (fun k => e.exec s (g k))) := by
  apply confined_tell
  · intro k
    rw [h]
    exact exec_map s (g k) _
  · intro k k' hk
    obtain ⟨-, rfl⟩ := Env.exec_eq_ok_iff.mp hk
    exact hrows k

/-- A change to the state outside of the keyring. -/
theorem confined_modifyGet {α : Type} {f : E2eManager → α × E2eManager}
    (h : ∀ m, f (seen P m) = ((f m).1, seen P (f m).2))
    (hQ : ∀ m, rowsAt Q (f m).2 = rowsAt Q m) :
    Confined (seen P) (rowsAt Q) (modifyGet f : M α) := by
  apply Confined.modifyGet
  · intro m m' hm
    have hf := (h m).symm.trans ((congrArg f hm).trans (h m'))
    exact Prod.mk.inj hf
  · exact hQ

theorem confined_modify {f : E2eManager → E2eManager} (h : ∀ m, f (seen P m) = seen P (f m))
    (hQ : ∀ m, rowsAt Q (f m) = rowsAt Q m) :
    Confined (seen P) (rowsAt Q) (modify f : M Unit) :=
  confined_modifyGet (fun m => congrArg (Prod.mk ()) (h m)) hQ

theorem confined_draw (n : Nat) : Confined (seen P) (rowsAt Q) (draw e n) :=
  confined_modifyGet (fun _ => rfl) (fun _ => rfl)

theorem confined_aeadEncrypt (key : SessionKey) (aad plaintext : List UInt8) :
    Confined (seen P) (rowsAt Q) (aeadEncrypt cr e key aad plaintext) := by
  refine (confined_draw 24).bind (fun nonce => ?_)
  exact (confined_lift _).bind (fun ct => Confined.pure _)

/-! ### Message traffic -/

theorem confined_buildRekeyForPeer (channel : Str) (peer : PeerRecord) (newSk : SessionKey) :
    Confined (seen P) (rowsAt Q) (buildRekeyForPeer cr e channel peer newSk) := by
  refine (confined_draw 32).bind (fun ephSk => ?_)
  refine (confined_lift _).bind (fun peerX25519Pub => ?_)
  refine (confined_aeadEncrypt _ _ _).bind (fun wrapped => ?_)
  refine (confined_draw 16).bind (fun nonce => ?_)
  refine Confined.get_bind (fun m m' hm => ?_) (fun m => Confined.pure _)
  simp only [publicBytes, identity_of_seen hm]

theorem confined_distributeTo (channel : Str) (fresh : SessionKey)
    (recipient : Str × Fingerprint) :
    Confined (seen P) (rowsAt Q) (distributeTo cr e channel fresh recipient) := by
  refine (confined_ask (fun _ => rfl)).bind (fun peer => ?_)
  cases peer with
  | none => exact Confined.pure _
  | some peer =>
    refine (confined_buildRekeyForPeer channel peer fresh).attempt.bind (fun built => ?_)
    cases built with
    | ok rk => exact confined_modify (fun _ => rfl) (fun _ => rfl)
    | error err => exact Confined.pure _

section

variable (hP : P ch = true)

include hP

theorem confined_distributeRekeys (fresh : SessionKey) :
    Confined (seen P) (rowsAt Q) (distributeRekeys cr e ch fresh) := by
  refine Confined.bind (confined_ask (fun k => ?_)) (fun recipients => ?_)
  · unfold Keyring.listOutgoingRecipients
    rw [k.recipientsOf_restrict hP]
  · exact Confined.forM (confined_distributeTo ch fresh) recipients

variable (hQ : Q ch = false)

include hQ

theorem confined_getOrGenerateOutgoingKey :
    Confined (seen P) (rowsAt Q) (getOrGenerateOutgoingKey cr e ch) := by
  have hask : ∀ (e : Env) (k : Keyring), (k.restrict P).getOutgoingSession e ch =
      k.getOutgoingSession e ch := by
    intro e k
    unfold Keyring.getOutgoingSession
    rw [k.outgoing_restrict hP]
  refine (confined_ask (hask e)).bind (fun sess => ?_)
  dsimp only
  split
  · exact Confined.pure _
  · refine (confined_ask (hask e.again)).bind (fun sess' => ?_)
    refine (confined_draw 32).bind (fun fresh => ?_)
    refine (confined_localTo Keyring.localTo_outgoing hP hQ).bind (fun _ => ?_)
    refine Confined.bind (Confined.runIf ?_) (fun _ => Confined.pure _)
    exact confined_distributeRekeys hP fresh

end

theorem confined_encryptChunks (sk : SessionKey) (channel : Str) (msgid : Bytes 8)
    (total : UInt8) (plains : List (List UInt8)) (part : Nat) :
    Confined (seen P) (rowsAt Q) (encryptChunks cr e sk channel msgid total part plains) := by
  induction plains generalizing part with
  | nil => exact Confined.pure _
  | cons plain rest ih =>
    refine (confined_aeadEncrypt _ _ _).bind (fun sealed => ?_)
    refine (confined_lift _).bind (fun line => ?_)
    exact (ih (part + 1)).bind (fun lines => Confined.pure _)

theorem confined_encryptOutgoing (hP : P ch = true) (hQ : Q ch = false) (plaintext : Str) :
    Confined (seen P) (rowsAt Q) (encryptOutgoing cr e ch plaintext) := by
  refine (confined_getOrGenerateOutgoingKey hP hQ).bind (fun sk => ?_)
  refine (confined_lift _).bind (fun chunks => ?_)
  refine (Confined.require _ _).bind (fun _ => (Confined.require _ _).bind (fun _ => ?_))
  refine (confined_draw 8).bind (fun msgid => ?_)
  exact confined_encryptChunks sk ch msgid _ chunks 1

/-! ### Handshakes -/

theorem confined_buildKeyreqForPeer (channel : Str) (peerHandle : Option Str) :
    Confined (seen P) (rowsAt Q) (buildKeyreqForPeer cr e channel peerHandle) := by
  refine (confined_draw 16).bind (fun nonce => (confined_draw 32).bind (fun ephSecret => ?_))
  refine Confined.get_bind (fun m m' hm => ?_) (fun m => ?_)
  · simp only [publicBytes, identity_of_seen hm]
  · refine Confined.bind ?_ (fun _ => Confined.pure _)
    exact confined_modify (fun _ => rfl) (fun _ => rfl)

theorem confined_isTrusted (hP : P ch = true) (e : Env) (senderHandle : Str) :
    Confined (seen P) (rowsAt Q) (isTrusted e senderHandle ch) := by
  refine Confined.bind (confined_ask (fun k => ?_)) (fun sess => Confined.pure _)
  unfold Keyring.getIncomingSession
  rw [k.incoming_restrict hP]

theorem confined_allowKeyreq (peerHandle : Str) :
    Confined (seen P) (rowsAt Q) (E2eManager.allowKeyreq e peerHandle) :=
  confined_modifyGet (fun _ => rfl) (fun _ => rfl)

theorem confined_rejectTrustChange {α : Type} (senderHandle channel : Str) (change : TrustChange)
    (pubkey : Bytes 32) :
    Confined (seen P) (rowsAt Q)
      (rejectTrustChange cr senderHandle channel change pubkey : M α) := by
  refine Confined.bind ?_ (fun _ => Confined.throw _)
  exact confined_modify (fun _ => rfl) (fun _ => rfl)

/-- The peers belong to no context. -/
theorem confined_upsertPeer (rec : PeerRecord) :
    Confined (seen P) (rowsAt Q) (tell (fun k => k.upsertPeer e rec)) :=
  confined_shared (fun _ _ => rfl) (fun _ => rfl)

theorem confined_deletePeer (fp : Fingerprint) :
    Confined (seen P) (rowsAt Q) (tell (fun k => k.deletePeerByFingerprint e fp)) :=
  confined_shared (fun _ _ => rfl) (fun _ => rfl)

theorem confined_tofuUpsertOnKeyreq (senderHandle : Str) (senderNick : Option Str) (req : KeyReq)
    (fp : Fingerprint) :
    Confined (seen P) (rowsAt Q) (tofuUpsertOnKeyreq cr e senderHandle senderNick req fp) := by
  refine Confined.bind (confined_ask (fun _ => rfl)) (fun change => ?_)
  apply Confined.ite
  · refine Confined.bind ?_ (fun globalStatus => confined_upsertPeer _)
    apply Confined.ite
    · exact (confined_ask (fun _ => rfl)).bind (fun peer => Confined.pure _)
    · exact Confined.pure _
  · exact confined_rejectTrustChange _ _ _ _

section

variable (hP : P ch = true)

include hP

theorem effectiveChannelMode_restrict (k : Keyring) (senderHandle : Str) :
    effectiveChannelMode cr e (k.restrict P) senderHandle ch =
      effectiveChannelMode cr e k senderHandle ch := by
  have hcfg : (k.restrict P).getChannelConfig e ch = k.getChannelConfig e ch := by
    unfold Keyring.getChannelConfig
    rw [k.channels_restrict hP]
  unfold effectiveChannelMode
  rw [hcfg]
  rfl

/-- Installing a session reads and writes its own row. -/
theorem install_restrict {s : IncomingSession} (hs : s.channel = ch) (k : Keyring) :
    (k.restrict P).installIncomingSessionStrict e cr s =
      (k.installIncomingSessionStrict e cr s).map (Keyring.restrict P) := by
  subst hs
  have hput := Keyring.localTo_session.inside P hP k
  unfold Keyring.installIncomingSessionStrict
  rw [k.incoming_restrict hP]
  cases e.fault .installIncomingSession with
  | some err => rfl
  | none =>
    cases k.incoming.get? (s.handle, s.channel) with
    | none => exact congrArg Except.ok hput
    | some existing =>
      dsimp only
      split
      · rfl
      · exact congrArg Except.ok hput

variable (hQ : Q ch = false)

include hQ

theorem confined_install {s : IncomingSession} (hs : s.channel = ch) :
    Confined (seen P) (rowsAt Q) (tell (fun k => k.installIncomingSessionStrict e cr s)) := by
  apply confined_tell (install_restrict hP hs)
  intro k k' hk
  obtain rfl := (install_eq_ok hk).1
  subst hs
  exact Keyring.localTo_session.outside Q hQ k

end

/-! ### Serving a KEYRSP -/

section

variable {req : KeyReq} (hP : P req.channel = true) (hQ : Q req.channel = false)

include hP hQ

theorem confined_serveKeyrsp (senderHandle : Str) :
    Confined (seen P) (rowsAt Q) (serveKeyrsp cr e senderHandle req) := by
  refine (confined_getOrGenerateOutgoingKey hP hQ).bind (fun ourSk => ?_)
  refine (confined_localTo Keyring.localTo_record hP hQ).bind (fun _ => ?_)
  refine (confined_draw 32).bind (fun ourEphSecret => ?_)
  refine (confined_aeadEncrypt _ _ _).bind (fun wrapped => ?_)
  refine Confined.get_bind (fun m m' hm => ?_) (fun m => ?_)
  · simp only [publicBytes, identity_of_seen hm]
  refine (confined_draw 16).bind (fun rspNonce => ?_)
  refine (confined_isTrusted hP e.again senderHandle).bind (fun alreadyIncoming => ?_)
  refine (confined_allowKeyreq senderHandle).bind (fun allowOut => ?_)
  refine Confined.bind (Confined.runIf ?_) (fun _ => Confined.pure _)
  refine (confined_buildKeyreqForPeer _ _).bind (fun reciprocal => ?_)
  exact confined_modify (fun _ => rfl) (fun _ => rfl)

theorem confined_cachePending (senderHandle : Str) (senderNick : Option Str) (fp : Fingerprint) :
    Confined (seen P) (rowsAt Q)
      (cachePendingInboundNormalMode cr e senderHandle senderNick req fp) := by
  refine (confined_install hP hQ rfl).attempt.bind (fun _ => ?_)
  exact confined_modify (fun _ => rfl) (fun _ => rfl)

theorem confined_handleKeyreq (senderHandle : Str) (senderNick : Option Str) :
    Confined (seen P) (rowsAt Q) (handleKeyreqWithNick cr e senderHandle senderNick req) := by
  refine (confined_modifyGet (fun _ => rfl) (fun _ => rfl)).bind (fun allowed => ?_)
  refine (Confined.require _ _).bind (fun _ => (confined_lift _).bind (fun _ => ?_))
  refine Confined.bind (confined_ask (fun k => effectiveChannelMode_restrict hP k senderHandle))
    (fun mode => ?_)
  have hserve : Confined (seen P) (rowsAt Q)
      (do return some (← serveKeyrsp cr e senderHandle req) : M (Option KeyRsp)) :=
    (confined_serveKeyrsp hP hQ senderHandle).bind (fun _ => Confined.pure _)
  cases mode with
  | none => exact Confined.pure _
  | some effectiveMode =>
    refine (confined_tofuUpsertOnKeyreq _ _ _ _).bind (fun _ => ?_)
    refine (confined_isTrusted hP e senderHandle).bind (fun alreadyTrusted => ?_)
    cases effectiveMode with
    | autoAccept => exact hserve
    | normal =>
      apply Confined.ite hserve
      exact (confined_cachePending hP hQ _ _ _).bind (fun _ => Confined.pure _)
    | quiet => exact Confined.ite hserve (Confined.pure _)

theorem confined_buildKeyrspForAccepted (senderHandle : Str) :
    Confined (seen P) (rowsAt Q) (buildKeyrspForAcceptedRequest cr e senderHandle req) := by
  refine (confined_ask (fun _ => rfl)).bind (fun existingPeer => ?_)
  exact (confined_upsertPeer _).bind (fun _ => confined_serveKeyrsp hP hQ senderHandle)

end

/-! ### Consuming a KEYRSP or a REKEY -/

/-- The handshakes in flight are not rows of the keyring. -/
theorem confined_consumeMatching (rsp : KeyRsp) :
    Confined (seen P) (rowsAt Q) (consumeMatchingPendingForKeyrsp cr e rsp) := by
  refine ⟨Sim.get_bind (fun m m' hm => ?_), fun m => ?_⟩
  · have hp : m.pending = m'.pending := by
      have hp := congrArg E2eManager.pending hm
      exact hp
    rw [hp]
    refine Sim.bind (Confined.require (ψ := rowsAt Q) _ _).sees (fun _ _ _ => ?_)
    cases matchKeyrsp cr e m'.pending rsp with
    | none => exact Sees.throw _
    | some r =>
      refine Sim.bind (Sim.set ?_) (fun _ _ _ => Sim.pure rfl)
      exact congrArg (fun m : E2eManager => { m with pending := m'.pending.erase r.2 }) hm
  · obtain ⟨sk, key, -, hrun⟩ | ⟨err, hrun⟩ := @run_consumeMatchingPending cr e m rsp
    · rw [final_of_ok hrun]
      rfl
    · rw [final_of_error hrun]
      rfl

section

variable {rsp : KeyRsp} (hP : P rsp.channel = true) (hQ : Q rsp.channel = false)

include hP hQ

theorem confined_installKeyrspSession (senderHandle : Str) (fp : Fingerprint) (sk : SessionKey) :
    Confined (seen P) (rowsAt Q) (installKeyrspSession cr e senderHandle rsp fp sk) := by
  refine (confined_install hP hQ rfl).attempt.bind (fun installed => ?_)
  cases installed with
  | ok _ => exact Confined.pure _
  | error err =>
    cases err with
    | handleMismatch expected got =>
      refine Confined.bind (confined_ask (fun k => ?_)) (fun existing => ?_)
      · unfold Keyring.getIncomingSession
        rw [k.incoming_restrict hP]
      · refine Confined.bind ?_ (fun _ => Confined.throw _)
        exact confined_modify (fun _ => rfl) (fun _ => rfl)
    | _ => exact Confined.throw _

theorem confined_handleKeyrsp (senderHandle : Str) :
    Confined (seen P) (rowsAt Q) (handleKeyrsp cr e senderHandle rsp) := by
  refine (confined_lift _).bind (fun _ => (confined_consumeMatching rsp).bind (fun sk => ?_))
  refine Confined.bind (confined_ask (fun _ => rfl)) (fun change => ?_)
  apply Confined.ite
  · exact (confined_upsertPeer _).bind (fun _ => confined_installKeyrspSession hP hQ _ _ sk)
  · exact confined_rejectTrustChange _ _ _ _

end

theorem confined_handleRekey {rekey : KeyRekey} (hP : P rekey.channel = true)
    (hQ : Q rekey.channel = false) (senderHandle : Str) :
    Confined (seen P) (rowsAt Q) (handleRekey cr e senderHandle rekey) := by
  refine (confined_lift _).bind (fun _ => ?_)
  refine Confined.bind (confined_ask (fun _ => rfl)) (fun change => ?_)
  cases change with
  | new => exact Confined.throw _
  | known =>
    refine Confined.get_bind (fun m m' hm => ?_) (fun m => ?_)
    · rw [identity_of_seen hm]
    · exact (confined_lift _).bind (fun newSk => confined_install hP hQ rfl)
  | _ => exact confined_rejectTrustChange _ _ _ _

/-! ### Accepting and forgetting -/

section

variable (hP : P ch = true)

include hP

/-- A request that is cached for a context is about that context. -/
theorem agree_acceptPendingInbound {m m' : E2eManager} (hf : InboundFiled m)
    (hm : seen P m = seen P m') (senderHandle : Str) :
    Agree (seen P) Eq ((acceptPendingInbound cr e senderHandle ch).run m)
      ((acceptPendingInbound cr e senderHandle ch).run m') := by
  have hlookup : m.pendingInbound = m'.pendingInbound := by
    have hp := congrArg E2eManager.pendingInbound hm
    exact hp
  unfold acceptPendingInbound
  rw [bind_of_ok (rfl : (get : M E2eManager).run m = .ok m m),
    bind_of_ok (rfl : (get : M E2eManager).run m' = .ok m' m'), hlookup]
  cases hl : m'.pendingInbound.lookup (senderHandle, ch) with
  | none => exact .ok rfl hm
  | some req =>
    have hch : req.channel = ch := by
      refine hf (senderHandle, ch) req ?_
      show m.pendingInbound.lookup _ = some req
      rw [hlookup, hl]
    have hsees : Sees (seen P) (do
        return some (← buildKeyrspForAcceptedRequest cr e senderHandle req) : M (Option KeyRsp)) :=
      ((confined_buildKeyrspForAccepted (Q := fun _ => false) (hch ▸ hP) rfl senderHandle).bind
        (fun _ => Confined.pure _)).sees
    exact hsees _ _ (congrArg (fun m : E2eManager =>
      { m with pendingInbound := m'.pendingInbound.erase (senderHandle, ch) }) hm)

variable (hQ : Q ch = false)

include hQ

theorem confined_forgetPeerOnChannel (handle : Str) :
    Confined (seen P) (rowsAt Q) (forgetPeerOnChannel e handle ch) := by
  refine Confined.bind (confined_ask (fun k => ?_)) (fun sess => ?_)
  · unfold Keyring.getIncomingSession
    rw [k.incoming_restrict hP]
  refine Confined.bind (Confined.runIf ?_) (fun _ => ?_)
  · exact confined_localTo Keyring.localTo_forget hP hQ
  · refine Confined.bind ?_ (fun _ => Confined.pure _)
    exact confined_modifyGet (fun _ => rfl) (fun _ => rfl)

end

theorem rowsAt_acceptPendingInbound {m : E2eManager} (hf : InboundFiled m) (hQ : Q ch = false)
    (senderHandle : Str) :
    rowsAt Q (final (acceptPendingInbound cr e senderHandle ch) m) = rowsAt Q m := by
  unfold acceptPendingInbound
  rw [final_bind_of_ok (rfl : (get : M E2eManager).run m = .ok m m)]
  cases hl : m.pendingInbound.lookup (senderHandle, ch) with
  | none => rfl
  | some req =>
    have hch : req.channel = ch := hf (senderHandle, ch) req hl
    have hmoves : Moves (Frame (rowsAt Q)) (buildKeyrspForAcceptedRequest cr e senderHandle req) :=
      (confined_buildKeyrspForAccepted (P := fun _ => true) rfl (hch ▸ hQ) senderHandle).frame
    have hframe := hmoves
      { m with pendingInbound := m.pendingInbound.erase (senderHandle, ch) }
    dsimp only
    rw [final_bind_of_ok (rfl : (set _ : M Unit).run m = .ok () _), final_bind_pure]
    exact hframe

/-! ### Forgetting a handle everywhere -/

/-- The numbers of deleted rows are not compared. -/
theorem sim_tellCount {s : Stmt} {c : Keyring → Nat} {g : Keyring → Keyring}
    (h : ∀ k : Keyring, g (k.restrict P) = (g k).restrict P) :
    Sim (seen P) (fun _ _ => True) (tellCount (fun k => e.exec s (c k, g k)))
      (tellCount (fun k => e.exec s (c k, g k))) := by
  refine Sim.bind (V := fun _ _ => True) ?_ (fun r r' _ => ?_)
  · intro m m' hm
    unfold ask
    rw [run_query, run_query]
    unfold Env.exec
    cases e.fault s with
    | some err => exact .error hm
    | none => exact .ok trivial hm
  · refine Sim.bind (V := Eq) (sees_tell (fun k => ?_)) (fun _ _ _ => Sim.pure trivial)
    unfold Env.exec
    cases e.fault s with
    | some err => rfl
    | none => exact congrArg Except.ok (h k)

theorem sim_sweepSessions (handle : Str) :
    Sim (seen P) (fun _ _ => True)
      (tellCount (fun k => k.deleteIncomingSessionsForHandle e handle))
      (tellCount (fun k => k.deleteIncomingSessionsForHandle e handle)) := by
  refine sim_tellCount (fun k => ?_)
  simp only [Keyring.restrict, Keyring.rowsOf,
    Table.deleteWhere_comm k.incoming (fun s => !P s.channel)]

theorem sim_sweepRecipients (handle : Str) :
    Sim (seen P) (fun _ _ => True)
      (tellCount (fun k => k.deleteOutgoingRecipientsForHandle e handle))
      (tellCount (fun k => k.deleteOutgoingRecipientsForHandle e handle)) := by
  refine sim_tellCount (fun k => ?_)
  simp only [Keyring.restrict, Keyring.rowsOf,
    Table.deleteWhere_comm k.recipients (fun r => !P r.channel)]

theorem sees_clearPendingState (handle : Str) :
    Sees (seen P) (clearPendingStateForHandle handle) :=
  (confined_modifyGet (Q := fun _ => false) (fun _ => rfl) (fun _ => rfl)).sees

theorem sim_purgeHandle (handle : Str) :
    Sim (seen P) (fun _ _ => True) (purgeHandle e handle) (purgeHandle e handle) := by
  have hpeer : Sees (seen P) (deletePeerAt e handle) := by
    refine (confined_ask (Q := fun _ => false) (fun _ => rfl)).sees.bind (fun peer => ?_)
    cases peer with
    | none => exact Sim.pure rfl
    | some peer =>
      refine Sees.bind ?_ (fun _ => Sim.pure rfl)
      exact (confined_deletePeer (Q := fun _ => false) peer.fingerprint).sees
  refine Sim.bind hpeer (fun _ _ _ => ?_)
  refine Sim.bind (sim_sweepSessions handle) (fun _ _ _ => ?_)
  refine Sim.bind (sim_sweepRecipients handle) (fun _ _ _ => ?_)
  exact Sim.bind (sees_clearPendingState handle) (fun _ _ _ => Sim.pure trivial)

theorem sim_reverifyPeer (handle : Str) :
    Sim (seen P) (fun _ _ => True) (reverifyPeer e handle) (reverifyPeer e handle) := by
  apply Sim.get_bind
  intro m m' hm
  have hn : m.pendingTrustChange = m'.pendingTrustChange := by
    have hn := congrArg E2eManager.pendingTrustChange hm
    exact hn
  rw [hn]
  refine Sim.bind (Sim.set (congrArg (fun m : E2eManager => { m with
    pendingTrustChange := m'.pendingTrustChange.filter (fun n => n.handle ≠ handle) }) hm))
    (fun _ _ _ => ?_)
  cases appliedNotice m'.pendingTrustChange handle with
  | none =>
    refine Sim.bind (sim_purgeHandle handle) (fun deleted deleted' _ => ?_)
    by_cases h : deleted = 0 <;> by_cases h' : deleted' = 0 <;>
    · simp only [h, h', if_true, if_false]
      exact Sim.pure trivial
  | some notice =>
    refine Sim.bind (confined_deletePeer (Q := fun _ => false) _).sees (fun _ _ _ => ?_)
    refine Sim.bind (sim_sweepSessions handle) (fun _ _ _ => ?_)
    refine Sim.bind (sim_sweepRecipients handle) (fun _ _ _ => ?_)
    refine Sim.bind (sees_clearPendingState handle) (fun _ _ _ => ?_)
    refine Sim.bind (confined_upsertPeer (Q := fun _ => false) _).sees (fun _ _ _ => ?_)
    exact Sim.pure trivial

end E2eManager

/-! ### Operations -/

/-- The context that an operation is about. The drains of the queues, the rate limiter, and the
commands on a peer or on the whole keyring are about none. -/
def Op.about : Op → Option Str
  | .keyreq _ _ req => some req.channel
  | .keyrsp _ rsp => some rsp.channel
  | .rekey _ rk => some rk.channel
  | .ciphertext _ c _ | .encryptOutgoing c _ | .buildKeyreq c _ | .acceptPendingInbound _ c
  | .forgetPeerOnChannel _ c | .updateIncomingStatus _ c _ | .removeOutgoingRecipient c _
  | .markOutgoingPendingRotation c => some c
  | .setChannelConfig cfg => some cfg.channel
  | _ => none

namespace E2eManager

open Exec

variable {cr : Crates} {e : Env} {P Q : Str → Bool} {ch : Str}

theorem decryptIncoming_of_seen {m m' : E2eManager} (hP : P ch = true)
    (hm : seen P m = seen P m') (handle line : Str) :
    decryptIncoming cr e m handle ch line = decryptIncoming cr e m' handle ch line := by
  have hview : ∀ m : E2eManager, decryptIncoming cr e (seen P m) handle ch line =
      decryptIncoming cr e m handle ch line := by
    intro m
    have hget : (m.keyring.restrict P).getIncomingSession e handle ch =
        m.keyring.getIncomingSession e handle ch := by
      unfold Keyring.getIncomingSession
      rw [m.keyring.incoming_restrict hP]
    unfold decryptIncoming
    simp only [seen, hget]
  rw [← hview m, hm, hview m']

/-- The rows of a context decide which lines are decrypted, whether it is enabled, and which key
its lines are encrypted under. -/
theorem decryptIncoming_of_rowsAt {m m' : E2eManager} (hQ : Q ch = true)
    (h : rowsAt Q m = rowsAt Q m') (handle line : Str) :
    decryptIncoming cr e m handle ch line = decryptIncoming cr e m' handle ch line := by
  obtain ⟨hrows, htol⟩ := Prod.mk.inj h
  have hget : m.keyring.getIncomingSession e handle ch =
      m'.keyring.getIncomingSession e handle ch := by
    have hi := congrArg (fun r : ContextRows => r.incoming.get? (handle, ch)) hrows
    unfold Keyring.getIncomingSession
    rw [← m.keyring.incoming_restrict hQ, ← m'.keyring.incoming_restrict hQ]
    exact congrArg (e.exec .getIncomingSession) hi
  unfold decryptIncoming
  simp only [hget, htol]

theorem sees_discard {α : Type} {x : M α} (h : Sim (seen P) (fun _ _ => True) x x) :
    Sees (seen P) (do let _ ← x : M Unit) :=
  Sim.bind h (fun _ _ _ => Sim.pure rfl)

theorem sim_of_confined {α : Type} {x : M α} (h : Confined (seen P) (rowsAt fun _ => false) x) :
    Sim (seen P) (fun _ _ => True) x x := h.sees.mono (fun _ _ _ => trivial)

/-- Operations on contexts of `P` end alike in states with the same `P`-part. -/
theorem agree_exec {m m' : E2eManager} {i : Input}
    (hP : ∀ ch, i.2.about = some ch → P ch = true)
    (hf : InboundFiled m) (hm : seen P m = seen P m') :
    Agree (seen P) Eq ((i.2.exec cr i.1).run m) ((i.2.exec cr i.1).run m') := by
  obtain ⟨e, op⟩ := i
  have hsees : ∀ x : M Unit, Sees (seen P) x → Agree (seen P) Eq (x.run m) (x.run m') :=
    fun x hx => hx m m' hm
  cases op with
  | keyreq h nick req =>
    exact hsees _ (sees_discard (sim_of_confined (confined_handleKeyreq (hP _ rfl) rfl h nick)))
  | keyrsp h rsp =>
    exact hsees _ (confined_handleKeyrsp (Q := fun _ => false) (hP _ rfl) rfl h).sees
  | rekey h rekey =>
    exact hsees _ (confined_handleRekey (Q := fun _ => false) (hP _ rfl) rfl h).sees
  | ciphertext h c line =>
    refine hsees _ (sees_discard ?_)
    refine Sim.mono (Sees.query (fun n n' hn => ?_)) (fun _ _ _ => trivial)
    exact decryptIncoming_of_seen (hP _ rfl) hn h line
  | encryptOutgoing c text =>
    exact hsees _ (sees_discard (sim_of_confined (confined_encryptOutgoing (hP _ rfl) rfl text)))
  | buildKeyreq c peer =>
    exact hsees _ (sees_discard (sim_of_confined (confined_buildKeyreqForPeer c peer)))
  | allowKeyreq h => exact hsees _ (sees_discard (sim_of_confined (confined_allowKeyreq h)))
  | takePendingTrustChanges | takePendingRekeySends | takePendingOutboundKeyreqs
  | takePendingAcceptRequests =>
    exact hsees _ (sees_discard (sim_of_confined
      (confined_modifyGet (fun _ => rfl) (fun _ => rfl))))
  | acceptPendingInbound h c =>
    have hrun : Agree (seen P) Eq ((acceptPendingInbound cr e h c).run m)
        ((acceptPendingInbound cr e h c).run m') := agree_acceptPendingInbound (hP _ rfl) hf hm h
    rw [Op.exec, EStateM.run_bind, EStateM.run_bind]
    generalize (acceptPendingInbound cr e h c).run m = r at hrun
    generalize (acceptPendingInbound cr e h c).run m' = r' at hrun
    cases hrun with
    | ok _ hst => exact .ok rfl hst
    | error hst => exact .error hst
  | reverifyPeer h => exact hsees _ (sees_discard (sim_reverifyPeer h))
  | forgetPeerOnChannel h c =>
    exact hsees _ (sees_discard (sim_of_confined (confined_forgetPeerOnChannel (hP _ rfl) rfl h)))
  | forgetPeerEverywhere h => exact hsees _ (sees_discard (sim_purgeHandle h))
  | updateIncomingStatus h c status =>
    exact hsees _ (confined_localTo (Q := fun _ => false) Keyring.localTo_status (hP _ rfl)
      rfl).sees
  | removeOutgoingRecipient c h =>
    exact hsees _ (confined_localTo (Q := fun _ => false) Keyring.localTo_unrecord (hP _ rfl)
      rfl).sees
  | markOutgoingPendingRotation c =>
    exact hsees _ (confined_localTo (Q := fun _ => false) Keyring.localTo_rotation (hP _ rfl)
      rfl).sees
  | setChannelConfig cfg =>
    exact hsees _ (confined_localTo (Q := fun _ => false) Keyring.localTo_config (hP _ rfl)
      rfl).sees
  | addAutotrust scope pattern =>
    exact hsees _ (confined_shared (Q := fun _ => false)
      (g := fun k => { k with
        autotrust := k.autotrust.upsert ⟨scope, pattern, e.now⟩ id (fun _ => rfl) })
      (fun _ _ => rfl) (fun _ => rfl)).sees
  | removeAutotrust pattern =>
    exact hsees _ (confined_shared (Q := fun _ => false)
      (g := fun k => { k with
        autotrust := k.autotrust.deleteWhere (fun r => r.handlePattern = pattern) })
      (fun _ _ => rfl) (fun _ => rfl)).sees
  | importAll rows =>
    refine hsees _ (Sees.update (fun n n' hn => ?_))
    cases Keyring.replaceAllForImport e rows with
    | error err => rfl
    | ok k =>
      refine congrArg Except.ok ?_
      exact congrArg (fun n : E2eManager => { n with keyring := k.restrict P }) hn

/-- An operation on a context outside of `Q` leaves the rows of `Q` as they are. -/
theorem rowsAt_step {m : E2eManager} {i : Input} (hon : i.2.about = some ch) (hQ : Q ch = false)
    (hf : InboundFiled m) : rowsAt Q (step cr m i) = rowsAt Q m := by
  obtain ⟨e, op⟩ := i
  have hframe : ∀ x : M Unit, Confined (seen fun _ => true) (rowsAt Q) x →
      rowsAt Q (final x m) = rowsAt Q m := fun x hx => hx.frame m
  have hdiscard : ∀ {α : Type} (x : M α), Confined (seen fun _ => true) (rowsAt Q) x →
      rowsAt Q (final (do let _ ← x : M Unit) m) = rowsAt Q m :=
    fun x hx => hframe _ (hx.bind (fun _ => Confined.pure _))
  cases op with
  | keyreq h nick req =>
    obtain rfl := Option.some.inj hon
    exact hdiscard _ (confined_handleKeyreq rfl hQ h nick)
  | keyrsp h rsp =>
    obtain rfl := Option.some.inj hon
    exact hframe _ (confined_handleKeyrsp rfl hQ h)
  | rekey h rekey =>
    obtain rfl := Option.some.inj hon
    exact hframe _ (confined_handleRekey rfl hQ h)
  | ciphertext h c line =>
    rw [step, Op.exec, final_discard, final_query]
  | encryptOutgoing c text =>
    obtain rfl := Option.some.inj hon
    exact hdiscard _ (confined_encryptOutgoing rfl hQ text)
  | buildKeyreq c peer => exact hdiscard _ (confined_buildKeyreqForPeer c peer)
  | acceptPendingInbound h c =>
    obtain rfl := Option.some.inj hon
    rw [step, Op.exec, final_discard]
    exact rowsAt_acceptPendingInbound hf hQ h
  | forgetPeerOnChannel h c =>
    obtain rfl := Option.some.inj hon
    exact hdiscard _ (confined_forgetPeerOnChannel rfl hQ h)
  | updateIncomingStatus h c status =>
    obtain rfl := Option.some.inj hon
    exact hframe _ (confined_localTo Keyring.localTo_status rfl hQ)
  | removeOutgoingRecipient c h =>
    obtain rfl := Option.some.inj hon
    exact hframe _ (confined_localTo Keyring.localTo_unrecord rfl hQ)
  | markOutgoingPendingRotation c =>
    obtain rfl := Option.some.inj hon
    exact hframe _ (confined_localTo Keyring.localTo_rotation rfl hQ)
  | setChannelConfig cfg =>
    obtain rfl := Option.some.inj hon
    exact hframe _ (confined_localTo Keyring.localTo_config rfl hQ)
  | _ => cases hon

end E2eManager

end Repartee
