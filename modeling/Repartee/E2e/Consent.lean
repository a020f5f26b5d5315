import Repartee.E2e.Steps
import Repartee.E2e.Sample

/-!
# Consent

Which steps make the incoming session of a handle and channel trusted: a KEYRSP that answers a
KEYREQ of our own, the user, an import, and a REKEY from a pinned peer. The last one needs
nobody's consent, because a KEYREQ pins its sender before the channel's policy is applied.

## Main results

- `trustedBy_of_step`: the steps that establish trust
- `trustNeedsConsent_iff`: without unsolicited REKEYs, trust is established with consent only
-/

set_option autoImplicit false

namespace Repartee.E2eManager

open Exec

variable {cr : Crates} {e : Env}

/-- The incoming session of a handle on a channel is trusted. -/
def Trusted (m : E2eManager) (handle channel : Str) : Prop :=
  trustedRow (m.keyring.incoming.get? (handle, channel)) = true

instance (m : E2eManager) (handle channel : Str) : Decidable (Trusted m handle channel) :=
  inferInstanceAs (Decidable (_ = true))

/-- The steps that establish trust in a session. -/
inductive TrustedBy (cr : Crates) (handle channel : Str) (m : E2eManager) : Input → Prop where
  | keyrsp {e : Env} {rsp : KeyRsp} {sk : SessionKey} {key : Str × Bytes 16}
      {change : TrustChange} : rsp.channel = channel →
      KeyrspAdmitted cr e m handle rsp sk key change →
      TrustedBy cr handle channel m (e, .keyrsp handle rsp)
  | rekey {e : Env} {rekey : KeyRekey} {sk : SessionKey} {k : Keyring} :
      rekey.channel = channel → RekeyAdmitted cr e m handle rekey sk k →
      TrustedBy cr handle channel m (e, .rekey handle rekey)
  | user (e : Env) : TrustedBy cr handle channel m (e, .updateIncomingStatus handle channel .trusted)
  | imported (e : Env) (rows : Keyring.ImportRows) :
      TrustedBy cr handle channel m (e, .importAll rows)

/-! ### Rows -/

/-- The table of the incoming sessions. -/
abbrev Sessions := Table IncomingSession (fun s => (s.handle, s.channel))

theorem trustedRow_deleteWhere {t : Sessions} {p : IncomingSession → Bool} {key : Str × Str}
    (h : trustedRow ((t.deleteWhere p).get? key) = true) : trustedRow (t.get? key) = true := by
  rw [Table.get?_deleteWhere] at h
  cases hg : t.get? key with
  | none => simp [hg, trustedRow] at h
  | some s =>
    cases hp : p s with
    | true => simp [hg, hp, Option.filter, trustedRow] at h
    | false => simpa [hg, hp, Option.filter] using h

/-- An installed session makes its own row trusted at most. -/
theorem trustedRow_replace {t : Sessions} {s : IncomingSession} {key : Str × Str}
    (h : trustedRow ((t.replace s).get? key) = true) (hb : ¬ trustedRow (t.get? key) = true) :
    (s.handle, s.channel) = key ∧ s.status = .trusted := by
  rw [Table.get?_replace] at h
  split at h
  · exact ⟨‹_›, by simpa [trustedRow] using h⟩
  · exact absurd h hb

theorem trustedRow_installed {k : Keyring} {s : IncomingSession} {key : Str × Str}
    (hs : s.status ≠ .trusted)
    (h : trustedRow ((installed cr e k s).incoming.get? key) = true) :
    trustedRow (k.incoming.get? key) = true := by
  unfold installed at h
  cases hi : k.installIncomingSessionStrict e cr s with
  | error err => simpa [hi] using h
  | ok k' =>
    obtain ⟨rfl, -⟩ := install_eq_ok hi
    by_contra hb
    rw [hi] at h
    exact hs (trustedRow_replace h hb).2

/-- A status update makes the row it addresses trusted at most. -/
theorem trustedRow_updateStatus {t : Sessions} {h c handle channel : Str} {status : TrustStatus}
    (ha : trustedRow ((t.updateWhere (fun s => s.handle = h && s.channel = c)
      (fun s => { s with status := status }) (fun _ => rfl)).get? (handle, channel)) = true)
    (hb : ¬ trustedRow (t.get? (handle, channel)) = true) :
    h = handle ∧ c = channel ∧ status = .trusted := by
  rw [Table.get?_updateWhere] at ha
  cases hg : t.get? (handle, channel) with
  | none => simp [hg, trustedRow] at ha
  | some s =>
    have hkey := ((Table.get?_eq_some_iff t _ s).mp hg).2
    obtain ⟨rfl, rfl⟩ := Prod.mk.inj hkey
    by_cases hsel : s.handle = h ∧ s.channel = c
    · obtain ⟨rfl, rfl⟩ := hsel
      exact ⟨rfl, rfl, by simpa [hg, trustedRow] using ha⟩
    · simp only [hg, Option.map_some, Bool.and_eq_true, decide_eq_true_eq, hsel, if_false] at ha
      exact absurd (hg ▸ ha) hb

/-- Removals never make a session trusted. -/
theorem sweeps_keepsUntrusted (handle channel other : Str) :
    Sweeps (Keeps (fun m => ¬ Trusted m handle channel)) other where
  peers _ _ _ := id
  incoming _ h := fun ht => h (trustedRow_deleteWhere ht)
  recipients _ := id
  entries _ := id

/-! ### Steps -/

theorem trusted_iff_core (m : E2eManager) (handle channel : Str) :
    Trusted m handle channel ↔ trustedRow ((core m).incoming.get? (handle, channel)) = true :=
  Iff.rfl

/-- **The steps that establish trust in a session.** -/
theorem trustedBy_of_step {m : E2eManager} {i : Input} {handle channel : Str}
    (hb : ¬ Trusted m handle channel) (ha : Trusted (step cr m i) handle channel) :
    TrustedBy cr handle channel m i := by
  obtain ⟨e, op⟩ := i
  rw [trusted_iff_core] at ha
  cases op with
  | keyreq h nick req =>
    have heff := @keyreq_effect cr e m h nick req
    generalize core (step cr m (e, .keyreq h nick req)) = c at heff ha
    cases heff with
    | kept => exact absurd ha hb
    | pinned hp => exact absurd ha hb
    | cached had ht =>
      obtain ⟨change, rec, -, -, -, -, rfl⟩ := pinOnKeyreq_eq_ok had.pinned
      exact absurd (trustedRow_installed (by simp [placeholder]) ha) hb
  | keyrsp h rsp =>
    have heff := @keyrsp_effect cr e m h rsp
    generalize core (step cr m (e, .keyrsp h rsp)) = c at heff ha
    cases heff with
    | kept => exact absurd ha hb
    | pinned had => exact absurd ha hb
    | installed had hfp =>
      obtain ⟨hkey, -⟩ := trustedRow_replace ha hb
      obtain ⟨rfl, rfl⟩ := Prod.mk.inj hkey
      exact .keyrsp rfl had
  | rekey h rekey =>
    have heff := @rekey_effect cr e m h rekey
    generalize core (step cr m (e, .rekey h rekey)) = c at heff ha
    cases heff with
    | kept => exact absurd ha hb
    | installed had =>
      obtain ⟨hkey, -⟩ := trustedRow_replace ha hb
      obtain ⟨rfl, rfl⟩ := Prod.mk.inj hkey
      exact .rekey rfl had
  | acceptPendingInbound h c =>
    have heff := @accept_effect cr e m h c
    generalize core (step cr m (e, .acceptPendingInbound h c)) = c at heff ha
    cases heff <;> exact absurd ha hb
  | reverifyPeer h =>
    have hk := (sweeps_keepsUntrusted handle channel h).reverifyPeer (e := e)
      (fun _ _ => id) (fun _ _ => id) (fun _ _ => id) m hb
    rw [← trusted_iff_core, step, Op.exec, final_discard] at ha
    exact absurd ha hk
  | forgetPeerOnChannel h c =>
    obtain ⟨incoming, inbound, hc, hi, -⟩ := @forgetOn_effect cr e m h c
    rw [hc] at ha
    rcases hi with rfl | rfl
    · exact absurd ha hb
    · exact absurd (trustedRow_deleteWhere ha) hb
  | forgetPeerEverywhere h =>
    have hk := (sweeps_keepsUntrusted handle channel h).purgeHandle (e := e) m hb
    rw [← trusted_iff_core, step, Op.exec, final_discard] at ha
    exact absurd ha hk
  | updateIncomingStatus h c status =>
    rcases @status_effect cr e m h c status with hc | hc
    · rw [hc] at ha
      exact absurd ha hb
    · rw [hc] at ha
      obtain ⟨rfl, rfl, rfl⟩ := trustedRow_updateStatus ha hb
      exact .user e
  | importAll rows => exact .imported e rows
  | _ =>
    rw [core_step_of_silent (by trivial)] at ha
    exact absurd ha hb

/-! ### Handshakes of our own -/

/-- The operations that build a KEYREQ for a channel. -/
def BuildsKeyreq (channel : Str) : Op → Prop
  | .buildKeyreq c _ => c = channel
  | .keyreq _ _ req => req.channel = channel
  | .acceptPendingInbound _ c => c = channel
  | _ => False

/-- No handshake for the channel is started. -/
def StartsNone (channel : Str) (m m' : E2eManager) : Prop :=
  ∀ nonce ph, pendingOf channel m' nonce = some ph → pendingOf channel m nonce = some ph

section

variable {channel : Str}

theorem StartsNone.of_frame {m m' : E2eManager} (h : Frame (pendingOf channel) m m') :
    StartsNone channel m m' := by
  intro nonce ph hp
  have hf : pendingOf channel m' = pendingOf channel m := h
  exact hf ▸ hp

instance : Std.Refl (StartsNone channel) := ⟨fun _ _ _ h => h⟩

instance : IsTrans E2eManager (StartsNone channel) :=
  ⟨fun _ _ _ h h' nonce ph hp => h nonce ph (h' nonce ph hp)⟩

theorem sweeps_startsNone (handle : Str) : Sweeps (StartsNone channel) handle where
  peers _ _ _ _ _ := id
  incoming _ _ _ := id
  recipients _ _ _ := id
  entries _ _ _ h := (Dict.lookup_of_retain h).1

theorem startsNone_serve {req : KeyReq} (hne : req.channel ≠ channel) (senderHandle : Str) :
    Moves (StartsNone channel)
      (do return some (← serveKeyrsp cr e senderHandle req) : M (Option KeyRsp)) := by
  intro m
  rw [final_bind_pure]
  exact .of_frame (serveKeyrsp_pendingOf senderHandle hne m)

theorem pending_warned (m : E2eManager) (handle ch : Str) (pubkey : Bytes 32) :
    (warned cr e m handle ch pubkey).pending = m.pending := by
  unfold warned
  split
  · split <;> rfl
  · rfl

theorem startsNone_of_pending_eq {m m' : E2eManager} (h : m'.pending = m.pending) :
    StartsNone channel m m' := by
  intro nonce ph hp
  rw [pendingOf, h] at hp
  exact hp

/-- A step that builds no KEYREQ for a channel starts no handshake for it. -/
theorem startsNone_step {m : E2eManager} {i : Input} (hf : InboundFiled m)
    (hi : ¬ BuildsKeyreq channel i.2) : StartsNone channel m (step cr m i) := by
  obtain ⟨e, op⟩ := i
  cases op with
  | keyreq h nick req =>
    rw [step, Op.exec, final_discard, final]
    have hrun := @run_handleKeyreq cr e m h nick req
    generalize (handleKeyreqWithNick cr e h nick req).run m = r at hrun
    cases hrun with
    | @served mode k had ht =>
      have hm : StartsNone channel m { limited e m h with keyring := k } := fun _ _ => id
      exact IsTrans.trans _ _ _ hm (startsNone_serve hi h _)
    | rejected err => exact startsNone_of_pending_eq (pending_warned (limited e m h) _ _ _)
    | _ => exact fun _ _ => id
  | keyrsp h rsp =>
    rw [step, Op.exec, final]
    have hrun := @run_handleKeyrsp cr e m h rsp
    generalize (handleKeyrsp cr e h rsp).run m = r at hrun
    cases hrun with
    | refused err => exact fun _ _ => id
    | _ => exact fun _ _ hp => (Dict.lookup_of_erase hp).1
  | rekey h rekey =>
    rw [step, Op.exec, final]
    have hrun := @run_handleRekey cr e m h rekey
    generalize (handleRekey cr e h rekey).run m = r at hrun
    cases hrun <;> exact fun _ _ => id
  | encryptOutgoing c text =>
    rw [step, Op.exec, final_discard]
    exact .of_frame (frame_pendingOf_of_keyMask (encryptOutgoing_keyMask c text m))
  | buildKeyreq c peer =>
    rw [step, Op.exec, final_discard]
    exact buildKeyreqForPeer_moves (fun _ _ _ => id)
      (fun m n ph => .of_frame (frame_pendingOf_stash hi m n ph)) peer m
  | acceptPendingInbound h c =>
    rw [step, Op.exec, final_discard, final]
    have hrun := @run_acceptPendingInbound cr e m h c
    generalize (acceptPendingInbound cr e h c).run m = r at hrun
    cases hrun with
    | @served req rec hl hfp hh =>
      have hne : req.channel ≠ channel := fun hc => hi ((hf _ _ hl).symm.trans hc)
      have hm : StartsNone channel m { m with
          pendingInbound := m.pendingInbound.erase (h, c)
          keyring := m.keyring.putPeer rec } := fun _ _ => id
      exact IsTrans.trans _ _ _ hm (startsNone_serve hne h _)
    | _ => exact fun _ _ => id
  | reverifyPeer h =>
    rw [step, Op.exec, final_discard]
    exact (sweeps_startsNone h).reverifyPeer (fun _ _ _ _ => id) (fun _ _ _ _ => id)
      (fun _ _ _ _ => id) m
  | forgetPeerOnChannel h c =>
    rw [step, Op.exec, final_discard]
    refine (moves_ask _).bind (fun sess => ?_) m
    refine Moves.bind (Moves.runIf (fun _ => moves_tell (fun _ _ _ _ _ => id))) (fun _ => ?_)
    exact Moves.bind (Moves.modifyGet (fun _ _ _ hp => (Dict.lookup_of_retain hp).1))
      (fun _ => Moves.pure _)
  | forgetPeerEverywhere h =>
    rw [step, Op.exec, final_discard]
    exact (sweeps_startsNone h).purgeHandle m
  | ciphertext h c line =>
    rw [step, Op.exec, final_discard, final_query]
    exact fun _ _ => id
  | updateIncomingStatus | removeOutgoingRecipient | markOutgoingPendingRotation
  | setChannelConfig | addAutotrust | removeAutotrust | importAll =>
    rw [step, Op.exec]
    exact moves_tell (fun _ _ _ _ _ => id) m
  | _ => exact fun _ _ => id

end

/-! ### Runs -/

/-- The first in-flight handshake that unwraps a KEYRSP is one of its channel. -/
theorem matchKeyrsp_eq_some {pending : Dict (Str × Bytes 16) PendingHandshake} {rsp : KeyRsp}
    {sk : SessionKey} {key : Str × Bytes 16}
    (h : matchKeyrsp cr e pending rsp = some (sk, key)) :
    key.1 = rsp.channel ∧
      ∃ ph, pending.lookup key = some ph ∧ unwrapKeyrsp cr rsp ph.ephX25519Secret = some sk := by
  obtain ⟨key', hmem, hkey⟩ := List.exists_of_findSome?_eq_some h
  obtain ⟨ph, hl, hmap⟩ := Option.bind_eq_some_iff.mp hkey
  obtain ⟨sk', hu, he⟩ := Option.map_eq_some_iff.mp hmap
  obtain ⟨rfl, rfl⟩ := Prod.mk.inj he
  have hin := (e.shuffle_perm _).mem_iff.mp hmem
  exact ⟨by simpa using (List.mem_filter.mp hin).2, ph, hl, hu⟩

/-- After the run `pre`, the KEYRSP unwraps under the ephemeral secret of a KEYREQ that a step of
the run built for its channel. -/
def AnswersOwnKeyreq (cr : Crates) (start : E2eManager) (pre : List Input) (rsp : KeyRsp) :
    Prop :=
  ∃ nonce ph sk, (runOps cr start pre).pending.lookup (rsp.channel, nonce) = some ph ∧
    unwrapKeyrsp cr rsp ph.ephX25519Secret = some sk ∧
    ∃ pre' i post', pre = pre' ++ i :: post' ∧ BuildsKeyreq rsp.channel i.2 ∧
      (runOps cr start pre').pending.lookup (rsp.channel, nonce) ≠ some ph ∧
      (step cr (runOps cr start pre') i).pending.lookup (rsp.channel, nonce) = some ph

/-- The steps to which this client has consented. -/
inductive Consented (cr : Crates) (start : E2eManager) (handle channel : Str)
    (pre : List Input) : Input → Prop where
  | own {e : Env} {rsp : KeyRsp} : rsp.channel = channel → AnswersOwnKeyreq cr start pre rsp →
      Consented cr start handle channel pre (e, .keyrsp handle rsp)
  | user (e : Env) :
      Consented cr start handle channel pre (e, .updateIncomingStatus handle channel .trusted)
  | imported (e : Env) (rows : Keyring.ImportRows) :
      Consented cr start handle channel pre (e, .importAll rows)

/-- Every step of a run that makes the session trusted has been consented to. -/
def TrustNeedsConsent (cr : Crates) (start : E2eManager) (handle channel : Str)
    (is : List Input) : Prop :=
  ∀ pre i post, is = pre ++ i :: post → ¬ Trusted (runOps cr start pre) handle channel →
    Trusted (step cr (runOps cr start pre) i) handle channel →
    Consented cr start handle channel pre i

/-- A REKEY that passes every gate while its session is not trusted. -/
def UnsolicitedRekey (cr : Crates) (handle channel : Str) (m : E2eManager) (i : Input) : Prop :=
  ∃ rekey sk k, i.2 = .rekey handle rekey ∧ rekey.channel = channel ∧
    RekeyAdmitted cr i.1 m handle rekey sk k ∧ ¬ Trusted m handle channel

theorem inboundFiled_init (identity : Bytes 32) (keyring : Keyring) (tolerance : Int) :
    InboundFiled (E2eManager.init identity keyring tolerance) := fun key req hl => by
  exact absurd hl (by simp [core, E2eManager.init])

/-- A KEYRSP that is matched in a reachable state answers a KEYREQ of our own. -/
theorem answersOwnKeyreq_of_matched {identity : Bytes 32} {keyring : Keyring} {tolerance : Int}
    {pre : List Input} {rsp : KeyRsp} {sk : SessionKey} {key : Str × Bytes 16}
    (h : matchKeyrsp cr e
      (runOps cr (E2eManager.init identity keyring tolerance) pre).pending rsp =
        some (sk, key)) :
    AnswersOwnKeyreq cr (E2eManager.init identity keyring tolerance) pre rsp := by
  obtain ⟨hc, ph, hl, hu⟩ := matchKeyrsp_eq_some h
  obtain ⟨c, nonce⟩ := key
  subst hc
  refine ⟨nonce, ph, sk, hl, hu, ?_⟩
  -- the entry is absent at the start, so a step of the run has put it there
  obtain ⟨pre', i, post', hpre, hb, ha⟩ := Run.exists_step_of_switch
    (P := fun m : E2eManager => pendingOf rsp.channel m nonce = some ph)
    (by simp [pendingOf, E2eManager.init]) hl
  have hf : InboundFiled (runOps cr (E2eManager.init identity keyring tolerance) pre') :=
    Run.invariant (fun _ i => inboundFiled_step i) (inboundFiled_init _ _ _) pre'
  refine ⟨pre', i, post', hpre, ?_, hb, ha⟩
  by_contra hi
  exact hb (startsNone_step hf hi nonce ph ha)

/-- A REKEY that passes every gate is installed. -/
theorem run_handleRekey_of_admitted {m : E2eManager} {handle : Str} {rekey : KeyRekey}
    {sk : SessionKey} {k : Keyring} (h : RekeyAdmitted cr e m handle rekey sk k) :
    (handleRekey cr e handle rekey).run m = .ok () { m with keyring := k } := by
  unfold handleRekey
  rw [h.signed, bind_of_ok (run_lift_ok () m)]
  dsimp only
  rw [bind_of_ok (run_ask_of_ok h.classified)]
  dsimp only
  rw [bind_of_ok (rfl : (get : M E2eManager).run m = .ok m m), h.unwrapped,
    bind_of_ok (run_lift_ok sk m)]
  exact run_tell_of_ok h.installed

theorem trusted_of_unsolicitedRekey {m : E2eManager} {i : Input} {handle channel : Str}
    (h : UnsolicitedRekey cr handle channel m i) : Trusted (step cr m i) handle channel := by
  obtain ⟨e, op⟩ := i
  obtain ⟨rekey, sk, k, rfl, rfl, had, -⟩ := h
  rw [step, Op.exec, final_of_ok (run_handleRekey_of_admitted had)]
  obtain ⟨rfl, -⟩ := install_eq_ok had.installed
  have hs := Table.get?_replace_self m.keyring.incoming (rekeySession cr e handle rekey sk)
  show trustedRow (Table.get? _ (handle, rekey.channel)) = true
  exact (congrArg trustedRow hs).trans (by simp [trustedRow, rekeySession])

/-- **Trust is established with consent exactly when no unsolicited REKEY arrives.** -/
theorem trustNeedsConsent_iff (identity : Bytes 32) (keyring : Keyring) (tolerance : Int)
    (handle channel : Str) (is : List Input) :
    TrustNeedsConsent cr (E2eManager.init identity keyring tolerance) handle channel is ↔
      Run.Guarded (step cr) (fun m i => ¬ UnsolicitedRekey cr handle channel m i)
        (E2eManager.init identity keyring tolerance) is := by
  rw [Run.guarded_iff]
  constructor
  · intro h pre i post his hr
    have hb := hr
    obtain ⟨rekey, sk, k, hop, -, -, hb⟩ := hb
    have hc := h pre i post his hb (trusted_of_unsolicitedRekey hr)
    cases hc <;> simp at hop
  · intro h pre i post his hb ha
    cases trustedBy_of_step hb ha with
    | keyrsp hc had => exact .own hc (answersOwnKeyreq_of_matched had.matched)
    | rekey hc had => exact absurd ⟨_, _, _, rfl, hc, had, hb⟩ (h pre _ post his)
    | user e => exact .user e
    | imported e rows => exact .imported e rows

/-- A client that nobody has talked to yet. -/
def newcomer : E2eManager := E2eManager.init (Bytes.fill 32 9) Keyring.empty 300

/-- A stranger's KEYREQ on a Normal-mode channel, and then its unsolicited REKEY. -/
def strangerRun : List Input :=
  [(sampleEnv 1000 0, .setChannelConfig ⟨str "#rust", true, .normal⟩),
    (sampleEnv 1001 0, .keyreq (str "eve@host") none
      (Sample.keyreq (Bytes.fill 32 7) (str "#rust") (Bytes.fill 32 1) (Bytes.fill 16 2))),
    (sampleEnv 1002 0, .rekey (str "eve@host")
      (Sample.rekey (Bytes.fill 32 7) newcomer.identity (str "#rust") (Bytes.fill 32 3)
        (Bytes.fill 32 5)))]

set_option maxRecDepth 100000 in
/-- The stranger is trusted without consent, on a channel in Normal mode without autotrust. -/
theorem stranger_is_trusted :
    (runOps sample newcomer (strangerRun.take 1)).keyring.channels.rows =
        [⟨str "#rust", true, .normal⟩] ∧
      (runOps sample newcomer strangerRun).keyring.autotrust.rows = [] ∧
      ¬ TrustNeedsConsent sample newcomer (str "eve@host") (str "#rust") strangerRun := by
  refine ⟨by decide +kernel, by decide +kernel, fun h => ?_⟩
  have hc := h (strangerRun.take 2) _ [] rfl (by decide +kernel) (by decide +kernel)
  cases hc

end Repartee.E2eManager
