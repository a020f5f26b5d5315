import Repartee.E2e.Consent

/-!
# Replayed REKEYs

A REKEY carries a signed nonce, which nothing in the state remembers. Whether a REKEY that was
accepted before is accepted again depends on its sender and on the session row alone, so an old
key comes back as long as its sender is still known.

## Main definitions

- `Readmits`: what the acceptance of an old REKEY needs
- `Replay`: a run with two accepted REKEYs, the first of which arrives again

## Main results

- `replay_harmless_iff`: when a replay leaves the later key in place
-/

set_option autoImplicit false

namespace Repartee.E2eManager

open Exec

variable {cr : Crates} {e : Env}

/-! ### The identity -/

/-- No operation changes the identity of a client. -/
theorem identity_step (m : E2eManager) (i : Input) : (step cr m i).identity = m.identity := by
  by_cases hc : Configures i.2
  · obtain ⟨e, op⟩ := i
    cases op with
    | setChannelConfig | importAll =>
      rw [step, Op.exec, final_tell]
      split <;> rfl
    | _ => exact hc.elim
  · exact congrArg Prod.fst (settings_step hc)

theorem identity_runOps (m : E2eManager) (is : List Input) :
    (runOps cr m is).identity = m.identity :=
  Run.invariant (P := fun s => s.identity = m.identity)
    (fun s i hs => (identity_step s i).trans hs) rfl is

/-! ### Acceptance -/

/-- The key that we decrypt the messages of a handle on a channel with. -/
def sessionKey (m : E2eManager) (handle channel : Str) : Option SessionKey :=
  (m.keyring.incoming.get? (handle, channel)).map IncomingSession.sk

/-- An accepted REKEY has passed the gates. -/
theorem exists_admitted_of_returns {m : E2eManager} {handle : Str} {rekey : KeyRekey}
    (h : Returns (handleRekey cr e handle rekey) m) :
    ∃ sk k, RekeyAdmitted cr e m handle rekey sk k ∧
      (handleRekey cr e handle rekey).run m = .ok () { m with keyring := k } := by
  have hrun := @run_handleRekey cr e m handle rekey
  obtain ⟨u, m', hok⟩ := h
  rw [hok] at hrun
  cases hrun with
  | @installed sk k had => exact ⟨sk, k, had, hok⟩

/-- A REKEY that passes the gates is accepted. -/
theorem returns_of_admitted {m : E2eManager} {handle : Str} {rekey : KeyRekey} {sk : SessionKey}
    {k : Keyring} (h : RekeyAdmitted cr e m handle rekey sk k) :
    Returns (handleRekey cr e handle rekey) m := by
  have hget : (get : M E2eManager).run m = .ok m m := rfl
  unfold handleRekey
  rw [h.signed, returns_bind_of_ok (run_lift_ok () m)]
  dsimp only
  rw [returns_bind_of_ok (run_ask_of_ok h.classified)]
  dsimp only
  rw [returns_bind_of_ok hget, h.unwrapped, returns_bind_of_ok (run_lift_ok sk m)]
  exact returns_of_ok (run_tell_of_ok h.installed)

/-- What the acceptance of a REKEY needs, apart from its authenticity: a known sender, and a
session row that is not another identity's. -/
structure Readmits (cr : Crates) (e : Env) (m : E2eManager) (handle : Str)
    (rekey : KeyRekey) : Prop where
  known : classifyPeerChange e m.keyring (fingerprint cr rekey.pubkey) handle = .ok .known
  stored : e.fault .installIncomingSession = none
  row : ∀ s, m.keyring.incoming.get? (handle, rekey.channel) = some s →
    s.fingerprint = fingerprint cr rekey.pubkey

/-- A REKEY that was accepted once is accepted again if and only if its sender is known. -/
theorem returns_again_iff {e e' : Env} {m m' : E2eManager} {handle handle' : Str}
    {rekey : KeyRekey} (h : Returns (handleRekey cr e handle rekey) m)
    (hid : m'.identity = m.identity) :
    Returns (handleRekey cr e' handle' rekey) m' ↔ Readmits cr e' m' handle' rekey := by
  obtain ⟨sk, k, had, -⟩ := exists_admitted_of_returns h
  constructor
  · intro h'
    obtain ⟨sk', k', had', -⟩ := exists_admitted_of_returns h'
    have hstored : e'.fault .installIncomingSession = none := by
      have hi := had'.installed
      unfold Keyring.installIncomingSessionStrict at hi
      cases hf : e'.fault .installIncomingSession with
      | none => rfl
      | some err => simp [hf] at hi
    exact ⟨had'.classified, hstored, (install_eq_ok had'.installed).2⟩
  · intro hr
    exact returns_of_admitted ⟨had.signed, hr.known, hid ▸ had.unwrapped,
      install_ok (s := rekeySession cr e' handle' rekey sk) hr.stored hr.row⟩

/-- An accepted REKEY installs its key for its own handle and channel. -/
theorem sessionKey_of_admitted {m : E2eManager} {handle : Str} {rekey : KeyRekey}
    {sk : SessionKey} {k : Keyring} (had : RekeyAdmitted cr e m handle rekey sk k)
    (handle' channel : Str) :
    sessionKey (step cr m (e, .rekey handle rekey)) handle' channel =
      if (handle, rekey.channel) = (handle', channel) then some sk
      else sessionKey m handle' channel := by
  obtain ⟨sk', k', had', hrun⟩ := exists_admitted_of_returns (returns_of_admitted had)
  have hstep : step cr m (e, .rekey handle rekey) = { m with keyring := k' } := final_of_ok hrun
  obtain ⟨rfl, -⟩ := install_eq_ok had'.installed
  have hsk : sk' = sk := Except.ok.inj (had'.unwrapped.symm.trans had.unwrapped)
  subst hsk
  rw [hstep]
  show Option.map _ ((m.keyring.incoming.replace _).get? _) = _
  rw [Table.get?_replace]
  show Option.map _ (if (handle, rekey.channel) = (handle', channel) then _ else _) = _
  by_cases hk : (handle, rekey.channel) = (handle', channel)
  · rw [if_pos hk, if_pos hk]
    rfl
  · rw [if_neg hk, if_neg hk]
    rfl

/-- A refused REKEY leaves every session key alone. -/
theorem sessionKey_of_not_returns {m : E2eManager} {handle : Str} {rekey : KeyRekey}
    (h : ¬ Returns (handleRekey cr e handle rekey) m) (handle' channel : Str) :
    sessionKey (step cr m (e, .rekey handle rekey)) handle' channel =
      sessionKey m handle' channel := by
  have hrun := @run_handleRekey cr e m handle rekey
  rw [step, Op.exec, final]
  unfold Returns at h
  generalize (handleRekey cr e handle rekey).run m = r at h hrun
  cases hrun with
  | refused err notices => rfl
  | installed had => exact absurd ⟨(), _, rfl⟩ h

/-! ### Replays -/

/-- A run in which the REKEYs `r₁` and `r₂` arrive, and then `r₁` again. -/
structure Replay where
  pre : List Input
  e₁ : Env
  h₁ : Str
  r₁ : KeyRekey
  mid : List Input
  e₂ : Env
  h₂ : Str
  r₂ : KeyRekey
  post : List Input
  e₃ : Env
  h₃ : Str

namespace Replay

variable (cr) (m : E2eManager) (p : Replay)

/-- The state in which the first REKEY arrives, and the one after it. -/
def start : E2eManager := runOps cr m p.pre

def afterFirst : E2eManager := step cr (p.start cr m) (p.e₁, .rekey p.h₁ p.r₁)

/-- The state in which the second REKEY arrives, and the one after it. -/
def second : E2eManager := runOps cr (p.afterFirst cr m) p.mid

def afterSecond : E2eManager := step cr (p.second cr m) (p.e₂, .rekey p.h₂ p.r₂)

/-- The state in which the first REKEY arrives again. -/
def again : E2eManager := runOps cr (p.afterSecond cr m) p.post

/-- Both REKEYs are accepted, they are of one peer and for one channel, and the key of the second
is still in place when the first arrives again. -/
structure Happens : Prop where
  samePeer : p.r₁.pubkey = p.r₂.pubkey
  sameChannel : p.r₁.channel = p.r₂.channel
  firstAccepted : Returns (handleRekey cr p.e₁ p.h₁ p.r₁) (p.start cr m)
  secondAccepted : Returns (handleRekey cr p.e₂ p.h₂ p.r₂) (p.second cr m)
  held : sessionKey (p.again cr m) p.h₂ p.r₂.channel =
    sessionKey (p.afterSecond cr m) p.h₂ p.r₂.channel

/-- The replay does not replace the key of the second REKEY. -/
def Harmless : Prop :=
  sessionKey (step cr (p.again cr m) (p.e₃, .rekey p.h₃ p.r₁)) p.h₂ p.r₂.channel =
    sessionKey (p.again cr m) p.h₂ p.r₂.channel

/-- Both REKEYs delivered the same key. -/
def SameKey : Prop :=
  sessionKey (p.afterFirst cr m) p.h₁ p.r₁.channel =
    sessionKey (p.afterSecond cr m) p.h₂ p.r₂.channel

theorem identity_again : (p.again cr m).identity = (p.start cr m).identity := by
  unfold again afterSecond second afterFirst
  rw [identity_runOps, identity_step, identity_runOps, identity_step]

end Replay

/-- **A replayed REKEY leaves the later key in place if and only if it comes from another handle,
is not readmitted, or delivers the same key.** -/
theorem replay_harmless_iff {m : E2eManager} {p : Replay} (h : p.Happens cr m) :
    p.Harmless cr m ↔
      p.h₃ ≠ p.h₂ ∨ ¬ Readmits cr p.e₃ (p.again cr m) p.h₃ p.r₁ ∨ p.SameKey cr m := by
  have hagain := @returns_again_iff cr p.e₁ p.e₃ (p.start cr m) (p.again cr m) p.h₁ p.h₃ p.r₁
    h.firstAccepted (p.identity_again cr m)
  unfold Replay.Harmless
  by_cases hr : Readmits cr p.e₃ (p.again cr m) p.h₃ p.r₁
  swap
  · refine iff_of_true ?_ (.inr (.inl hr))
    exact sessionKey_of_not_returns (fun hret => hr (hagain.mp hret)) _ _
  obtain ⟨sk, k, had, -⟩ := exists_admitted_of_returns (hagain.mpr hr)
  rw [sessionKey_of_admitted had]
  by_cases hh : p.h₃ = p.h₂
  swap
  · rw [if_neg (fun heq => hh (Prod.mk.inj heq).1)]
    exact iff_of_true rfl (.inl hh)
  rw [if_pos (by rw [hh, h.sameChannel]), h.held]
  -- the replayed key is the one that the first acceptance installed
  obtain ⟨sk₁, k₁, had₁, -⟩ := exists_admitted_of_returns h.firstAccepted
  have hsk : sk₁ = sk := by
    have hu := had.unwrapped
    rw [p.identity_again cr m, had₁.unwrapped] at hu
    exact Except.ok.inj hu
  have hfirst : sessionKey (p.afterFirst cr m) p.h₁ p.r₁.channel = some sk := by
    rw [Replay.afterFirst, sessionKey_of_admitted had₁, if_pos rfl, hsk]
  unfold Replay.SameKey
  rw [hfirst]
  constructor
  · intro heq
    exact .inr (.inr heq)
  · rintro (hne | hnot | heq)
    · exact absurd hh hne
    · exact absurd hr hnot
    · exact heq

/-! ### Samples -/

/-- Two REKEYs of a known peer to the identity `9…9`, and the first of them again, from the
handle `h₃`. -/
def sampleReplay (h₃ : Str) : Replay where
  pre := [(sampleEnv 1000 0, .setChannelConfig ⟨str "#rust", true, .autoAccept⟩),
    (sampleEnv 1001 10, .keyreq (str "bob@host") none
      (Sample.keyreq (Bytes.fill 32 7) (str "#rust") (Bytes.fill 32 1)
        (Bytes.fill 16 2)))]
  e₁ := sampleEnv 1002 20
  h₁ := str "bob@host"
  r₁ := Sample.rekey (Bytes.fill 32 7) (Bytes.fill 32 9) (str "#rust")
    (Bytes.fill 32 3) (Bytes.fill 32 51)
  mid := []
  e₂ := sampleEnv 1003 30
  h₂ := str "bob@host"
  r₂ := Sample.rekey (Bytes.fill 32 7) (Bytes.fill 32 9) (str "#rust")
    (Bytes.fill 32 4) (Bytes.fill 32 52)
  post := []
  e₃ := sampleEnv 1004 40
  h₃ := h₃

set_option maxRecDepth 100000 in
theorem accepted_sample :
    Returns (handleRekey sample (sampleReplay []).e₁ (sampleReplay []).h₁ (sampleReplay []).r₁)
        ((sampleReplay []).start sample newcomer) ∧
      Returns (handleRekey sample (sampleReplay []).e₂ (sampleReplay []).h₂ (sampleReplay []).r₂)
        ((sampleReplay []).second sample newcomer) ∧
      ((sampleReplay []).again sample newcomer).sessionKey (sampleReplay []).h₂
          (sampleReplay []).r₂.channel =
        ((sampleReplay []).afterSecond sample newcomer).sessionKey (sampleReplay []).h₂
          (sampleReplay []).r₂.channel := by
  decide +kernel

theorem happens_sample (h₃ : Str) : (sampleReplay h₃).Happens sample newcomer where
  samePeer := rfl
  sameChannel := rfl
  firstAccepted := accepted_sample.1
  secondAccepted := accepted_sample.2.1
  held := accepted_sample.2.2

set_option maxRecDepth 100000 in
/-- The first REKEY, replayed by anyone at its sender's handle, brings its key back. -/
theorem replay_rolls_back :
    (sampleReplay (str "bob@host")).Happens sample newcomer ∧
      ¬ (sampleReplay (str "bob@host")).Harmless sample newcomer :=
  ⟨happens_sample _, by unfold Replay.Harmless; decide +kernel⟩

/-- Replayed from another handle, it leaves the later key in place. -/
theorem replay_harmless_elsewhere : (sampleReplay (str "eve@host")).Harmless sample newcomer :=
  (replay_harmless_iff (happens_sample (str "eve@host"))).mpr (.inl (by decide))

end Repartee.E2eManager
