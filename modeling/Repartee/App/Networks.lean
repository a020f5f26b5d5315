import Repartee.E2e.Confinement
import Repartee.E2e.Revocation
import Repartee.App.Passthrough

/-!
# Channels on two networks

The core files its rows by context, and a context is the name of a channel: neither the keyring
nor the queues know a connection. A channel therefore shares its state with the channels of the
same name on the other networks. Channels with different names do not share it. Enabling,
disabling, revoking and rotating one of them is not noticed by the other; sharing the key of one
leaves the rows of the other as they are; and the key of one is only handed to handles that have
asked for it there. What they do share is the peers, the rate limiter and the numbering of the
random values.

## Main definitions

- `NetEvent`: an operation with the connection that it comes from
- `SameFor`: two states of the core are alike for a context
- `Independent`: what two contexts have to do with each other

## Main results

- `channels_independent`: contexts with different names are independent
- `networks_share_channels`: channels of the same name on two networks are not
-/

set_option autoImplicit false

namespace Repartee

open E2eManager Exec

/-- An operation of the core with the connection that it comes from. -/
structure NetEvent where
  connection : Str
  input : Input

/-- The core after an event. -/
def arrive (cr : Crates) (m : E2eManager) (ev : NetEvent) : E2eManager := step cr m ev.input

/-- The commands that enable, disable, revoke or rotate: statements on the configuration, on the
status of a session, on a recipient and on the flag of a key. -/
def Op.Administers : Op → Prop
  | .setChannelConfig _ | .updateIncomingStatus .. | .removeOutgoingRecipient ..
  | .markOutgoingPendingRotation _ => True
  | _ => False

/-- The event is about a context. -/
def NetEvent.Concerns (ev : NetEvent) (context : Str) : Prop :=
  ev.input.2.about = some context

instance (ev : NetEvent) (context : Str) : Decidable (ev.Concerns context) :=
  inferInstanceAs (Decidable (_ = _))

/-- The steps that hand our key of a channel to a handle: its KEYREQ is served there, or the user
accepts its cached request. -/
inductive AdmittedBy (cr : Crates) (channel handle : Str) (m : E2eManager) : Input → Prop where
  | served {e : Env} {nick : Option Str} {req : KeyReq} {mode : ChannelMode} {k : Keyring} :
      req.channel = channel → KeyreqAdmitted cr e m handle nick req mode k →
      (mode = .autoAccept ∨ trustedRow (m.keyring.incoming.get? (handle, req.channel)) = true) →
      AdmittedBy cr channel handle m (e, .keyreq handle nick req)
  | accepted (e : Env) : AdmittedBy cr channel handle m (e, .acceptPendingInbound handle channel)

variable (cr : Crates)

/-- For a context, two states of the core answer alike: what becomes of a typed text, the KEYRSP
of a KEYREQ or of an accept, the fate of a KEYRSP or REKEY, and what a line decrypts to. -/
structure SameFor (context : Str) (m m' : E2eManager) : Prop where
  typed : ∀ (e : Env) (st : AppState) (bufferId bufferName : Str) (bufferType : BufferType)
    (text : Str) (captured : Option Str),
    st.keyringContext bufferId bufferName bufferType captured = context →
    (e2eEncryptOrPassthrough cr e { st with e2eManager := some m } bufferId bufferName bufferType
      text captured).1 =
    (e2eEncryptOrPassthrough cr e { st with e2eManager := some m' } bufferId bufferName bufferType
      text captured).1
  keyreq : ∀ e handle nick (req : KeyReq), req.channel = context →
    outcome (handleKeyreqWithNick cr e handle nick req) m =
      outcome (handleKeyreqWithNick cr e handle nick req) m'
  accepted : ∀ e handle, outcome (acceptPendingInbound cr e handle context) m =
    outcome (acceptPendingInbound cr e handle context) m'
  keyrsp : ∀ e handle (rsp : KeyRsp), rsp.channel = context →
    outcome (handleKeyrsp cr e handle rsp) m = outcome (handleKeyrsp cr e handle rsp) m'
  rekey : ∀ e handle (rekey : KeyRekey), rekey.channel = context →
    outcome (handleRekey cr e handle rekey) m = outcome (handleRekey cr e handle rekey) m'
  decrypted : ∀ e handle line, decryptIncoming cr e m handle context line =
    decryptIncoming cr e m' handle context line

variable {cr} {e : Env} {P : Str → Bool}

/-! ### One context -/

/-- Whether a context is enabled depends on its rows. -/
theorem e2eEnabled_of_seen {m m' : E2eManager} {context : Str} (hP : P context = true)
    (hm : seen P m = seen P m') :
    e2eEnabled e m.keyring context = e2eEnabled e m'.keyring context := by
  have hch := congrArg (fun k : Keyring => k.channels.get? context) (restrict_of_seen hm)
  simp only [Keyring.channels_restrict _ hP] at hch
  simp only [e2eEnabled, Keyring.getChannelConfig, hch]

/-- What goes out for a text depends on the rows of its context. -/
theorem encryptInContext_of_seen {st st' : AppState} {m m' : E2eManager}
    {bufferId context text : Str} (hP : P context = true) (hm : seen P m = seen P m') :
    (encryptInContext cr e st m bufferId context text).1 =
      (encryptInContext cr e st' m' bufferId context text).1 := by
  have hsees : Sees (seen P) (encryptOutgoing cr e context text) :=
    (confined_encryptOutgoing (Q := fun _ => false) hP rfl text).sees
  have hrun := hsees m m' hm
  unfold encryptInContext
  rw [e2eEnabled_of_seen hP hm]
  split
  · generalize (encryptOutgoing cr e context text).run m = r at hrun
    generalize (encryptOutgoing cr e context text).run m' = r' at hrun
    cases hrun with
    | ok hV _ => rw [hV]
    | error _ => rfl
  · rfl

theorem typed_of_seen {m m' : E2eManager} {context : Str} (hP : P context = true)
    (hm : seen P m = seen P m') (st : AppState) (bufferId bufferName : Str)
    (bufferType : BufferType) (text : Str) (captured : Option Str)
    (hctx : st.keyringContext bufferId bufferName bufferType captured = context) :
    (e2eEncryptOrPassthrough cr e { st with e2eManager := some m } bufferId bufferName bufferType
      text captured).1 =
    (e2eEncryptOrPassthrough cr e { st with e2eManager := some m' } bufferId bufferName bufferType
      text captured).1 := by
  unfold e2eEncryptOrPassthrough
  split
  · rfl
  · cases bufferType with
    | channel =>
      obtain rfl : bufferName = context := hctx
      exact encryptInContext_of_seen hP hm
    | query =>
      have hpeer : ∀ m : E2eManager, AppState.peerHandleOf { st with e2eManager := some m }
          bufferId captured = st.peerHandleOf bufferId captured := fun _ => rfl
      unfold AppState.keyringContext at hctx
      dsimp only
      rw [hpeer, hpeer]
      cases hp : st.peerHandleOf bufferId captured with
      | some peerHandle =>
        rw [hp] at hctx
        obtain rfl := hctx
        exact encryptInContext_of_seen hP hm
      | none =>
        rw [hp] at hctx
        obtain rfl : bufferName = context := hctx
        have henabled := e2eEnabled_of_seen (e := e) hP hm
        dsimp only
        rw [henabled]
        cases e2eEnabled e m'.keyring bufferName <;> rfl
    | _ => rfl

/-- States with the same `P`-part answer alike for the contexts of `P`. -/
theorem sameFor_of_seen {m m' : E2eManager} {context : Str} (hP : P context = true)
    (hf : InboundFiled m) (hm : seen P m = seen P m') : SameFor cr context m m' where
  typed _ := typed_of_seen hP hm
  keyreq e handle nick req hreq := by
    subst hreq
    exact ((confined_handleKeyreq (Q := fun _ => false) hP rfl handle nick).sees m m' hm).outcome_eq
  accepted e handle := (agree_acceptPendingInbound hP hf hm handle).outcome_eq
  keyrsp e handle rsp hrsp := by
    subst hrsp
    exact ((confined_handleKeyrsp (Q := fun _ => false) hP rfl handle).sees m m' hm).outcome_eq
  rekey e handle rekey hrekey := by
    subst hrekey
    exact ((confined_handleRekey (Q := fun _ => false) hP rfl handle).sees m m' hm).outcome_eq
  decrypted e handle line := decryptIncoming_of_seen hP hm handle line

/-! ### Events -/

theorem seen_of_rows {m : E2eManager} {k : Keyring} (hid : k.identity = m.keyring.identity)
    (hpeers : k.peers = m.keyring.peers) (hauto : k.autotrust = m.keyring.autotrust)
    (hrows : k.rowsOf P = m.keyring.rowsOf P) : seen P { m with keyring := k } = seen P m := by
  have hk : k.restrict P = m.keyring.restrict P := by
    simp only [Keyring.restrict, hid, hpeers, hauto, hrows]
  simp only [seen, hk]

/-- A command on a context outside of `P` is not noticed. -/
theorem seen_of_administers {m : E2eManager} {i : Input} {context : Str}
    (h : i.2.Administers) (hctx : i.2.about = some context) (hP : P context = false) :
    seen P (step cr m i) = seen P m := by
  obtain ⟨e, op⟩ := i
  cases op with
  | setChannelConfig cfg =>
    obtain rfl := Option.some.inj hctx
    rw [step, Op.exec, final_tell]
    split
    · rename_i k hk
      obtain ⟨-, rfl⟩ := Env.exec_eq_ok_iff.mp hk
      exact seen_of_rows rfl rfl rfl (Keyring.localTo_config.outside P hP m.keyring)
    · rfl
  | updateIncomingStatus handle c status =>
    obtain rfl := Option.some.inj hctx
    rw [step, Op.exec, final_tell]
    split
    · rename_i k hk
      obtain ⟨-, rfl⟩ := Env.exec_eq_ok_iff.mp hk
      exact seen_of_rows rfl rfl rfl (Keyring.localTo_status.outside P hP m.keyring)
    · rfl
  | removeOutgoingRecipient c handle =>
    obtain rfl := Option.some.inj hctx
    rw [step, Op.exec, final_tell]
    split
    · rename_i k hk
      obtain ⟨-, rfl⟩ := Env.exec_eq_ok_iff.mp hk
      exact seen_of_rows rfl rfl rfl (Keyring.localTo_unrecord.outside P hP m.keyring)
    · rfl
  | markOutgoingPendingRotation c =>
    obtain rfl := Option.some.inj hctx
    rw [step, Op.exec, final_tell]
    split
    · rename_i k hk
      obtain ⟨-, rfl⟩ := Env.exec_eq_ok_iff.mp hk
      exact seen_of_rows rfl rfl rfl (Keyring.localTo_rotation.outside P hP m.keyring)
    · rfl
  | _ => exact h.elim

theorem inboundFiled_run {m : E2eManager} (hf : InboundFiled m) (es : List NetEvent) :
    InboundFiled (Run.run (arrive cr) m es) :=
  Run.invariant (fun _ ev => inboundFiled_step ev.input) hf es

/-- The commands of a channel can be left out of a run: the rest of the state does not notice. -/
theorem seen_run_filter {channel : Str} {es : List NetEvent}
    (hadm : ∀ ev ∈ es, ev.Concerns channel → ev.input.2.Administers) {m m' : E2eManager}
    (hf : InboundFiled m)
    (hm : seen (fun c => c ≠ channel) m = seen (fun c => c ≠ channel) m') :
    seen (fun c => c ≠ channel) (Run.run (arrive cr) m es) =
      seen (fun c => c ≠ channel)
        (Run.run (arrive cr) m' (es.filter (fun ev => ¬ ev.Concerns channel))) := by
  induction es generalizing m m' with
  | nil => exact hm
  | cons ev es ih =>
    have hrest : ∀ ev ∈ es, ev.Concerns channel → ev.input.2.Administers :=
      fun ev hev => hadm ev (List.mem_cons_of_mem _ hev)
    have hf' : InboundFiled (arrive cr m ev) := inboundFiled_step ev.input hf
    by_cases hc : ev.Concerns channel
    · -- left out of the second run
      rw [List.filter_cons_of_neg (by simp [hc]), Run.run_cons]
      refine ih hrest hf' ?_
      have hstep : seen (fun c => c ≠ channel) (step cr m ev.input) = seen _ m :=
        seen_of_administers (hadm ev List.mem_cons_self hc) hc (by simp)
      exact hstep.trans hm
    · rw [List.filter_cons_of_pos (by simp [hc]), Run.run_cons, Run.run_cons]
      refine ih hrest hf' (agree_exec (fun c hctx => ?_) hf hm).final_eq
      rw [decide_eq_true_eq]
      rintro rfl
      exact hc hctx

/-! ### Recipients -/

/-- The handle has not been given our key of the channel. -/
def Unlisted (channel handle : Str) (m : E2eManager) : Prop := ¬ IsRecipient m channel handle

section

variable {channel handle : Str}

theorem unlisted_of_subset {m m' : E2eManager}
    (h : ∀ q ∈ m'.keyring.recipients.rows, q ∈ m.keyring.recipients.rows) :
    Keeps (Unlisted channel handle) m m' := by
  rintro hm ⟨q, hq, hkey⟩
  exact hm ⟨q, h q hq, hkey⟩

theorem unlisted_of_eq {m m' : E2eManager}
    (h : m'.keyring.recipients = m.keyring.recipients) :
    Keeps (Unlisted channel handle) m m' := unlisted_of_subset (fun _ hq => h ▸ hq)

theorem recipients_of_install {k k' : Keyring} {s : IncomingSession}
    (h : k.installIncomingSessionStrict e cr s = .ok k') : k'.recipients = k.recipients := by
  rw [(install_eq_ok h).1]

theorem recipients_of_pinOnKeyreq {k k' : Keyring} {senderHandle : Str}
    {senderNick : Option Str} {req : KeyReq}
    (h : pinOnKeyreq cr e k senderHandle senderNick req = .ok k') :
    k'.recipients = k.recipients := by
  obtain ⟨change, rec, -, -, -, -, rfl⟩ := pinOnKeyreq_eq_ok h
  rfl

/-- Serving somebody else, or serving on another channel. -/
theorem unlisted_serve {senderHandle : Str} {req : KeyReq}
    (hne : ¬ (senderHandle = handle ∧ req.channel = channel)) (m : E2eManager) :
    Keeps (Unlisted channel handle) m
      (final (do return some (← serveKeyrsp cr e senderHandle req) : M (Option KeyRsp)) m) := by
  rw [final_bind_pure]
  have hkey : Keeps (Unlisted channel handle) m
      (final (getOrGenerateOutgoingKey cr e req.channel) m) :=
    getOrGenerateOutgoingKey_moves (fun _ => id) (fun _ _ => id) (fun _ _ => id) req.channel m
  refine IsTrans.trans _ _ _ hkey (serveKeyrsp_recording (fun _ => id) (fun m k hk => ?_)
    (fun _ _ => id) ?_ m)
  · obtain ⟨-, rfl⟩ := Env.exec_eq_ok_iff.mp hk
    rintro hm ⟨q, hq, hqc, hqh⟩
    rcases Table.mem_upsert_iff.mp hq with ⟨hold, -⟩ | hnew
    · exact hm ⟨q, hold, hqc, hqh⟩
    · -- the row of the initiator
      have hkey : (q.channel, q.handle) = (req.channel, senderHandle) := by
        cases ho : m.keyring.recipients.get? (req.channel, senderHandle) with
        | none =>
          rw [hnew, ho]
          rfl
        | some old =>
          rw [hnew, ho]
          exact ((Table.get?_eq_some_iff m.keyring.recipients _ old).mp ho).2
      obtain ⟨hc, hh⟩ := Prod.mk.inj hkey
      exact hne ⟨hh.symm.trans hqh, hc.symm.trans hqc⟩
  · exact queueReciprocal_moves (fun _ => id) (fun _ _ _ => id) (fun _ _ => id) _

theorem sweeps_unlisted (other : Str) : Sweeps (Keeps (Unlisted channel handle)) other where
  peers _ _ _ := id
  incoming _ := id
  recipients _ := unlisted_of_subset (fun _ hq => (Table.mem_deleteWhere.mp hq).1)
  entries _ := id

theorem unlisted_tell {f : Keyring → Result Keyring}
    (h : ∀ k k', f k = .ok k' → ∀ q ∈ k'.recipients.rows, q ∈ k.recipients.rows) :
    Moves (Keeps (Unlisted channel handle)) (tell f) :=
  moves_tell (fun m k hk => unlisted_of_subset (h m.keyring k hk))

/-- A handle becomes a recipient by an event that admits it. -/
theorem unlisted_step {m : E2eManager} {i : Input} (hf : InboundFiled m)
    (hadm : ¬ AdmittedBy cr channel handle m i) :
    Keeps (Unlisted channel handle) m (step cr m i) := by
  obtain ⟨e, op⟩ := i
  cases op with
  | keyreq h nick req =>
    rw [step, Op.exec, final_discard, final]
    have hrun := @run_handleKeyreq cr e m h nick req
    generalize (handleKeyreqWithNick cr e h nick req).run m = r at hrun
    cases hrun with
    | refused err => exact id
    | disabled => exact id
    | rejected err =>
      show Keeps _ m (warned cr e (limited e m h) h req.channel req.pubkey)
      unfold warned
      split
      · split <;> exact id
      · exact id
    | broken err hp => exact unlisted_of_eq (recipients_of_pinOnKeyreq hp)
    | @served mode k had ht =>
      have hpin : Keeps (Unlisted channel handle) m { limited e m h with keyring := k } :=
        unlisted_of_eq (recipients_of_pinOnKeyreq had.pinned)
      have hne : ¬ (h = handle ∧ req.channel = channel) := by
        rintro ⟨rfl, hc⟩
        exact hadm (.served hc had ht)
      exact fun hm => unlisted_serve hne _ (hpin hm)
    | @cached k had ht =>
      refine unlisted_of_eq (Eq.trans ?_ (recipients_of_pinOnKeyreq had.pinned))
      show (installed cr e k (placeholder cr e h req)).recipients = k.recipients
      unfold installed
      split
      · rename_i hi
        exact recipients_of_install hi
      · rfl
    | dropped had ht => exact unlisted_of_eq (recipients_of_pinOnKeyreq had.pinned)
  | keyrsp h rsp =>
    rw [step, Op.exec, final]
    have hrun := @run_handleKeyrsp cr e m h rsp
    generalize (handleKeyrsp cr e h rsp).run m = r at hrun
    cases hrun with
    | installed had hi =>
      have hk := recipients_of_install hi
      exact unlisted_of_eq hk
    | _ => exact id
  | rekey h rekey =>
    rw [step, Op.exec, final]
    have hrun := @run_handleRekey cr e m h rekey
    generalize (handleRekey cr e h rekey).run m = r at hrun
    cases hrun with
    | installed had => exact unlisted_of_eq (recipients_of_install had.installed)
    | refused err notices => exact id
  | ciphertext h c line =>
    rw [step, Op.exec, final_discard, final_query]
    exact id
  | encryptOutgoing c text =>
    rw [step, Op.exec, final_discard]
    exact encryptOutgoing_of_key (fun _ => id)
      (getOrGenerateOutgoingKey_moves (fun _ => id) (fun _ _ => id) (fun _ _ => id) c m) text
  | buildKeyreq c peer =>
    rw [step, Op.exec, final_discard]
    exact buildKeyreqForPeer_moves (R := Keeps (Unlisted channel handle)) (fun _ => id)
      (fun _ _ _ => id) peer m
  | acceptPendingInbound h c =>
    rw [step, Op.exec, final_discard, final]
    have hrun := @run_acceptPendingInbound cr e m h c
    generalize (acceptPendingInbound cr e h c).run m = r at hrun
    cases hrun with
    | missing => exact id
    | failed err => exact id
    | @served req rec hl hfp hh =>
      have hc : req.channel = c := hf (h, c) req hl
      have hne : ¬ (h = handle ∧ req.channel = channel) := by
        rintro ⟨rfl, rfl⟩
        exact hadm (hc ▸ .accepted e)
      exact unlisted_serve hne { m with
        pendingInbound := m.pendingInbound.erase (h, c)
        keyring := m.keyring.putPeer rec }
  | reverifyPeer h =>
    rw [step, Op.exec, final_discard]
    exact (sweeps_unlisted h).reverifyPeer (fun _ _ => id) (fun _ _ => id) (fun _ _ => id) m
  | forgetPeerOnChannel h c =>
    rw [step, Op.exec, final_discard]
    refine Moves.bind (moves_ask (R := Keeps (Unlisted channel handle)) _) (fun sess => ?_) m
    refine Moves.bind (Moves.runIf (fun _ => unlisted_tell (fun k k' hk => ?_))) (fun _ => ?_)
    · obtain ⟨-, rfl⟩ := Env.exec_eq_ok_iff.mp hk
      exact fun _ => id
    · exact Moves.bind (Moves.modifyGet (fun _ => id)) (fun _ => Moves.pure _)
  | forgetPeerEverywhere h =>
    rw [step, Op.exec, final_discard]
    exact (sweeps_unlisted h).purgeHandle m
  | removeOutgoingRecipient c h =>
    rw [step, Op.exec]
    refine unlisted_tell (fun k k' hk => ?_) m
    obtain ⟨-, rfl⟩ := Env.exec_eq_ok_iff.mp hk
    exact fun _ hq => (Table.mem_deleteWhere.mp hq).1
  | updateIncomingStatus | markOutgoingPendingRotation | setChannelConfig | addAutotrust
  | removeAutotrust =>
    rw [step, Op.exec]
    refine unlisted_tell (fun k k' hk => ?_) m
    obtain ⟨-, rfl⟩ := Env.exec_eq_ok_iff.mp hk
    exact fun _ => id
  | importAll rows =>
    rw [step, Op.exec]
    refine unlisted_tell (fun k k' hk => ?_) m
    -- an import drops the recipients
    unfold Keyring.replaceAllForImport at hk
    split at hk <;> cases hk
    exact fun _ hq => (List.not_mem_nil hq).elim
  | _ => exact id

end

/-! ### Independence -/

/-- What the events of a channel have to do with another context, over every run from a state. -/
structure Independent (cr : Crates) (start : E2eManager) (channel other : Str) : Prop where
  /-- The commands on the channel, however they are interleaved with the events of other contexts,
  change no answer for the other context. -/
  administered : ∀ es : List NetEvent,
    (∀ ev ∈ es, ev.Concerns channel → ev.input.2.Administers) →
    SameFor cr other (Run.run (arrive cr) start es)
      (Run.run (arrive cr) start (es.filter (fun ev => ¬ ev.Concerns channel)))
  /-- No event of the channel, the sharing of its key included, touches what the other context
  has: its lines are decrypted as before, and encrypted as before and under the same key. -/
  shared : ∀ (es : List NetEvent) (ev : NetEvent), ev.Concerns channel →
    let m := Run.run (arrive cr) start es
    let m' := arrive cr m ev
    m'.keyring.rowsOf (fun c => c = other) = m.keyring.rowsOf (fun c => c = other) ∧
    (∀ e handle line, decryptIncoming cr e m' handle other line =
      decryptIncoming cr e m handle other line) ∧
    (∀ e, e2eEnabled e m'.keyring other = e2eEnabled e m.keyring other) ∧
    usableSession m' other = usableSession m other
  /-- Nothing that is answered for the channel depends on the rows of the other context. -/
  oblivious : ∀ (es : List NetEvent) (m' : E2eManager),
    seen (fun c => c ≠ other) (Run.run (arrive cr) start es) = seen (fun c => c ≠ other) m' →
    SameFor cr channel (Run.run (arrive cr) start es) m'
  /-- A handle that is never admitted to the other context is not sent its key: it is not a
  recipient, and no REKEY is queued for it. -/
  withheld : ∀ (es : List NetEvent) (handle : Str), ¬ IsRecipient start other handle →
    Run.Guarded (arrive cr) (fun m ev => ¬ AdmittedBy cr other handle m ev.input) start es →
    ¬ IsRecipient (Run.run (arrive cr) start es) other handle ∧
      rekeysFor other handle (Run.run (arrive cr) start es) = []

section

variable {channel other : Str}

/-- The rows of a context decide whether it is enabled, and its key. -/
theorem enabled_and_key_of_rowsAt {Q : Str → Bool} {m m' : E2eManager} (hQ : Q other = true)
    (h : rowsAt Q m = rowsAt Q m') :
    (∀ e, e2eEnabled e m.keyring other = e2eEnabled e m'.keyring other) ∧
      usableSession m other = usableSession m' other := by
  have hrows := (Prod.mk.inj h).1
  have hch := congrArg (fun r : ContextRows => r.channels.get? other) hrows
  have hout := congrArg (fun r : ContextRows => r.outgoing.get? other) hrows
  have hch' : m.keyring.channels.get? other = m'.keyring.channels.get? other := by
    rw [← m.keyring.channels_restrict hQ, ← m'.keyring.channels_restrict hQ]
    exact hch
  have hout' : m.keyring.outgoing.get? other = m'.keyring.outgoing.get? other := by
    rw [← m.keyring.outgoing_restrict hQ, ← m'.keyring.outgoing_restrict hQ]
    exact hout
  constructor
  · intro e
    simp only [e2eEnabled, Keyring.getChannelConfig, hch']
  · simp only [usableSession, hout']

/-- One event keeps a handle off the list, and its queue empty. -/
theorem withheld_step {handle : Str} {m : E2eManager} {ev : NetEvent}
    (h : InboundFiled m ∧ ¬ IsRecipient m other handle ∧ rekeysFor other handle m = [])
    (hadm : ¬ AdmittedBy cr other handle m ev.input) :
    InboundFiled (arrive cr m ev) ∧ ¬ IsRecipient (arrive cr m ev) other handle ∧
      rekeysFor other handle (arrive cr m ev) = [] := by
  obtain ⟨hf, hlist, hqueue⟩ := h
  refine ⟨inboundFiled_step ev.input hf, unlisted_step hf hadm hlist, ?_⟩
  rcases rekeysFor_step hf (fun hn => hlist hn.2.2) with hkept | hempty
  · exact hkept.trans hqueue
  · exact hempty

end

/-- Channels with different names are independent, on whichever connections they are joined. -/
theorem channels_independent (cr : Crates) (identity : Bytes 32) (keyring : Keyring)
    (tolerance : Int) {channel other : Str} (hne : channel ≠ other) :
    Independent cr (E2eManager.init identity keyring tolerance) channel other := by
  have hstart := inboundFiled_init identity keyring tolerance
  have hfiled : ∀ es, InboundFiled (Run.run (arrive cr) (E2eManager.init identity keyring tolerance)
      es) := inboundFiled_run hstart
  refine ⟨?_, ?_, ?_, ?_⟩
  · intro es hadm
    apply sameFor_of_seen (P := fun c => c ≠ channel) (by simp [Ne.symm hne]) (hfiled es)
    exact seen_run_filter hadm hstart rfl
  · intro es ev hc m m'
    have hrows : rowsAt (fun c => c = other) m' = rowsAt (fun c => c = other) m :=
      rowsAt_step hc (by simp [hne]) (hfiled es)
    have hother : decide (other = other) = true := decide_eq_true rfl
    obtain ⟨henabled, hkey⟩ := enabled_and_key_of_rowsAt hother hrows
    exact ⟨(Prod.mk.inj hrows).1, fun e => decryptIncoming_of_rowsAt hother hrows,
      henabled, hkey⟩
  · intro es m' hm
    exact sameFor_of_seen (P := fun c => c ≠ other) (by simp [hne]) (hfiled es) hm
  · intro es handle hno hg
    have hinv := Run.Guarded.invariant (P := fun m => InboundFiled m ∧
      ¬ IsRecipient m other handle ∧ rekeysFor other handle m = [])
      (fun m ev h hadm => withheld_step h hadm) ⟨hstart, hno, rfl⟩ hg
    exact hinv.2

/-- `#rust` and `#lean`, for a client that starts with an empty keyring. -/
theorem rust_and_lean_independent :
    Independent sample newcomer (str "#rust") (str "#lean") :=
  channels_independent sample (Bytes.fill 32 9) Keyring.empty 300 (by decide)

/-! ### Channels of the same name -/

namespace Sample

/-- On `libera`, encryption is enabled for `#rust`, and a message is sent there. -/
def liberaEvents : List NetEvent :=
  [⟨str "libera", (sampleEnv 1000 0, .setChannelConfig ⟨str "#rust", true, .autoAccept⟩)⟩,
    ⟨str "libera", (sampleEnv 1001 10, .encryptOutgoing (str "#rust") (str "hi"))⟩]

/-- A KEYREQ that Bob, who is on `oftc` only, sends for a channel. -/
def bobKeyreq (channel : Str) : KeyReq :=
  keyreq (Bytes.fill 32 7) channel (Bytes.fill 32 1) (Bytes.fill 16 2)

/-- The answer to the KEYREQ. -/
def answerToBob (m : E2eManager) (channel : Str) : Except E2eError (Option KeyRsp) :=
  outcome (handleKeyreqWithNick sample (sampleEnv 1010 20) (str "bob@oftc") (some (str "bob"))
    (bobKeyreq channel)) m

/-- The key of `#rust` that the answer carries. -/
def keySentToBob (m : E2eManager) : Option SessionKey :=
  match answerToBob m (str "#rust") with
  | .ok (some rsp) => unwrapKeyrsp sample rsp (Bytes.fill 32 1)
  | _ => none

/-- What a text becomes that is typed into `#rust` on `oftc`. -/
def typedOnOftc (m : E2eManager) : Option (List Str × Str) :=
  (e2eEncryptOrPassthrough sample (sampleEnv 1010 20)
    (appState m (buffer .channel (str "#rust") none)) (str "oftc/#rust") (str "#rust") .channel
    (str "hello") none).1

/-- Somebody with Bob's `ident@host` on `libera` asks for the key of `#rust` there, three times. -/
def liberaKeyreqs : List NetEvent :=
  List.replicate 3 ⟨str "libera", (sampleEnv 1009 0,
    .keyreq (str "bob@oftc") none (bobKeyreq (str "#rust")))⟩

end Sample

set_option maxRecDepth 100000 in
open Sample in
/-- Events on `libera` decide what happens to `#rust` on `oftc`: what is typed there is encrypted,
Bob's KEYREQ is answered, and the answer carries the key of the message sent on `libera`. KEYREQs
on `libera` also use up what the rate limiter grants the same handle for another channel. -/
theorem networks_share_channels :
    (∀ ev ∈ liberaEvents ++ liberaKeyreqs, ev.connection = str "libera" ∧
      ev.Concerns (str "#rust")) ∧
    typedOnOftc newcomer ≠ typedOnOftc (Run.run (arrive sample) newcomer liberaEvents) ∧
    answerToBob newcomer (str "#rust") ≠
      answerToBob (Run.run (arrive sample) newcomer liberaEvents) (str "#rust") ∧
    (keySentToBob (Run.run (arrive sample) newcomer liberaEvents)).isSome ∧
    keySentToBob (Run.run (arrive sample) newcomer liberaEvents) =
      (usableSession (Run.run (arrive sample) newcomer liberaEvents) (str "#rust")).map
        OutgoingSession.sk ∧
    answerToBob newcomer (str "#lean") ≠
      answerToBob (Run.run (arrive sample) newcomer liberaKeyreqs) (str "#lean") := by
  refine ⟨?_, ?_, ?_, ?_, ?_, ?_⟩ <;> decide +kernel

end Repartee
