import Mathlib.Data.List.TakeWhile
import Repartee.Lib.Codec
import Repartee.E2e.Distribution
import Repartee.E2e.Portable
import Repartee.E2e.Sample
import Repartee.E2e.Steps

/-!
# Moving a keyring to another client

What a document carries of a keyring, and what becomes of a keyring that is replaced by one. The
recipients of our outgoing keys are not part of a document, and an import deletes them.

## Main definitions

- `Migrates`: a keyring is the same after an export and an import, also in what is done later
- `Portable.Consistent`: the identity of a document belongs together

## Main results

- `shrinks_run`: what later operations leave of the recipients and of the peers
- `migrates_iff`: a keyring migrates unless somebody holds one of its keys
- `loads_after_import_iff`: an imported keyring loads if and only if its identity is consistent
-/

set_option autoImplicit false

namespace Repartee

variable {cr : Crates} {js : Json} {e : Env}

/-! ### The document of a keyring -/

theorem parseHexArray_hexEncode (hc : cr.Codecs) {n : Nat} (field : Str) (b : Bytes n) :
    parseHexArray cr n field (cr.hexEncode b.1) = .ok b := by
  rw [parseHexArray, hc.hex_decode]
  dsimp only
  rw [Bytes.ofList?_val]

theorem parseTrustStatus_asStr (field : Str) (s : TrustStatus) :
    parseTrustStatus field s.asStr = .ok s := by
  cases s <;> rfl

theorem parseChannelMode_asStr (field : Str) (mode : ChannelMode) :
    parseChannelMode field mode.asStr = .ok mode := by
  cases mode <;> rfl

/-- Validation inverts what it is given element by element. -/
theorem validateAll_map {α β : Type} {f : Nat → α → Result β} {g : β → α}
    (h : ∀ idx b, f idx (g b) = .ok b) (idx : Nat) (l : List β) :
    validateAll f idx (l.map g) = .ok l := by
  induction l generalizing idx with
  | nil => rfl
  | cons b l ih =>
    rw [List.map_cons, validateAll, h, ih]
    rfl

theorem validateIdentity_toPortable (hc : cr.Codecs) (i : IdentityRow) :
    validateIdentity cr (i.toPortable cr) = .ok i := by
  simp only [validateIdentity, IdentityRow.toPortable, parseHexArray_hexEncode hc]
  rfl

theorem validatePeer_toPortable (hc : cr.Codecs) (idx : Nat) (p : PeerRecord) :
    validatePeer cr idx (p.toPortable cr) = .ok p := by
  simp only [validatePeer, PeerRecord.toPortable, parseHexArray_hexEncode hc,
    parseTrustStatus_asStr]
  rfl

theorem validateIncoming_toPortable (hc : cr.Codecs) (idx : Nat) (s : IncomingSession) :
    validateIncoming cr idx (s.toPortable cr) = .ok s := by
  simp only [validateIncoming, IncomingSession.toPortable, parseHexArray_hexEncode hc,
    parseTrustStatus_asStr]
  rfl

theorem validateOutgoing_toPortable (hc : cr.Codecs) (idx : Nat) (o : OutgoingSession) :
    validateOutgoing cr idx (o.toPortable cr) = .ok o := by
  simp only [validateOutgoing, OutgoingSession.toPortable, parseHexArray_hexEncode hc]
  rfl

theorem validateChannel_toPortable (idx : Nat) (c : ChannelConfig) :
    validateChannel idx c.toPortable = .ok c := by
  simp only [validateChannel, ChannelConfig.toPortable, parseChannelMode_asStr]
  rfl

/-- The rows that an import of the document of a keyring stores. -/
structure IsExported (k : Keyring) (rows : Keyring.ImportRows) : Prop where
  identity : k.identity = some rows.identity
  peers : rows.peers.Perm k.peers.rows
  incoming : rows.incoming.Perm k.incoming.rows
  outgoing : rows.outgoing.Perm k.outgoing.rows
  channels : rows.channels.Perm k.channels.rows
  autotrust : ∃ at', rows.autotrust =
    k.autotrust.rows.map (fun r => { r with createdAt := at' })

/-- An exported document is valid. -/
theorem exists_validate_of_buildPortable (hc : cr.Codecs) {k : Keyring} {doc : Portable}
    (h : buildPortable cr e k = .ok doc) :
    ∃ rows, validate cr doc = .ok rows ∧ IsExported k rows := by
  obtain ⟨stored, hload, h⟩ := except_bind_eq_ok_iff.mp h
  obtain ⟨-, hid⟩ := Env.exec_eq_ok_iff.mp hload
  cases stored with
  | none => simp [throw, throwThe, MonadExceptOf.throw] at h
  | some i =>
    obtain ⟨peers, hpeers, h⟩ := except_bind_eq_ok_iff.mp h
    obtain ⟨incoming, hincoming, h⟩ := except_bind_eq_ok_iff.mp h
    obtain ⟨outgoing, houtgoing, h⟩ := except_bind_eq_ok_iff.mp h
    obtain ⟨channels, hchannels, h⟩ := except_bind_eq_ok_iff.mp h
    obtain ⟨autotrust, hautotrust, h⟩ := except_bind_eq_ok_iff.mp h
    cases h
    have hautotrust := (Env.exec_eq_ok_iff.mp hautotrust).2
    refine ⟨⟨i, peers, incoming, outgoing, channels,
      autotrust.map (fun a => ⟨a.1, a.2, e.now⟩)⟩, ?_, hid,
      (Env.exec_eq_ok_iff.mp hpeers).2 ▸ List.mergeSort_perm _ _,
      (Env.exec_eq_ok_iff.mp hincoming).2 ▸ List.mergeSort_perm _ _,
      (Env.exec_eq_ok_iff.mp houtgoing).2 ▸ List.mergeSort_perm _ _,
      (Env.exec_eq_ok_iff.mp hchannels).2 ▸ List.mergeSort_perm _ _, e.now, ?_⟩
    · unfold validate
      simp only [ne_eq, not_true_eq_false, if_false, validateIdentity_toPortable hc,
        validateAll_map (validatePeer_toPortable hc),
        validateAll_map (validateIncoming_toPortable hc),
        validateAll_map (validateOutgoing_toPortable hc),
        validateAll_map validateChannel_toPortable, List.map_map]
      rfl
    · rw [← hautotrust, List.map_map]
      rfl

/-! ### Keyrings that a document restores -/

/-- The tables that a document carries agree; of the autotrust rules, their scopes and
patterns. -/
structure SameTables (k k' : Keyring) : Prop where
  identity : k'.identity = k.identity
  peers : ∀ fp, k'.peers.get? fp = k.peers.get? fp
  incoming : ∀ key, k'.incoming.get? key = k.incoming.get? key
  outgoing : ∀ channel, k'.outgoing.get? channel = k.outgoing.get? channel
  channels : ∀ channel, k'.channels.get? channel = k.channels.get? channel
  autotrust : ∀ rule, (k'.autotrust.get? rule).isSome = (k.autotrust.get? rule).isSome

/-- The rows of an exported document restore the tables, without any recipients. -/
theorem exists_replaceAllForImport {k : Keyring} {rows : Keyring.ImportRows}
    (h : IsExported k rows) (hf : e.fault .replaceAllForImport = none) :
    ∃ k', Keyring.replaceAllForImport e rows = .ok k' ∧ SameTables k k' ∧
      k'.recipients = Table.empty := by
  obtain ⟨at', hat⟩ := h.autotrust
  obtain ⟨peers, hpeers, gpeers⟩ := k.peers.exists_ofRows?_of_perm (fun _ => rfl) h.peers
  obtain ⟨incoming, hincoming, gincoming⟩ :=
    k.incoming.exists_ofRows?_of_perm (fun _ => rfl) h.incoming
  obtain ⟨outgoing, houtgoing, goutgoing⟩ :=
    k.outgoing.exists_ofRows?_of_perm (fun _ => rfl) h.outgoing
  obtain ⟨channels, hchannels, gchannels⟩ :=
    k.channels.exists_ofRows?_of_perm (fun _ => rfl) h.channels
  obtain ⟨autotrust, hautotrust, gautotrust⟩ :=
    @Table.exists_ofRows?_of_perm _ _ _ _ k.autotrust (fun r => { r with createdAt := at' })
      (fun _ => rfl) _ (List.Perm.refl _)
  rw [List.map_id'] at hpeers hincoming houtgoing hchannels
  rw [← hat] at hautotrust
  refine ⟨⟨some rows.identity, peers, outgoing, incoming, channels, autotrust, Table.empty⟩, ?_,
    ⟨h.identity.symm, fun fp => ?_, fun key => ?_, fun c => ?_, fun c => ?_, fun rule => ?_⟩, rfl⟩
  · unfold Keyring.replaceAllForImport
    rw [hf, hpeers, hincoming, houtgoing, hchannels, hautotrust]
  · rw [gpeers, Option.map_id']
  · rw [gincoming, Option.map_id']
  · rw [goutgoing, Option.map_id']
  · rw [gchannels, Option.map_id']
  · rw [gautotrust, Option.isSome_map]

/-- Somebody holds our key of a channel, and can be told of a fresh one. -/
def Keyring.IsShared (cr : Crates) (k : Keyring) (channel : Str) : Prop :=
  ∃ q ∈ k.recipientsOf channel, k.deliverable cr q.fingerprint = true

namespace E2eManager

open Exec

/-- The handles that an encryption queues REKEYs for. -/
def rekeyed (cr : Crates) (e : Env) (m : E2eManager) (channel text : Str) : List Str :=
  (queuedTargets (final (encryptOutgoing cr e channel text) m)).drop (queuedTargets m).length

theorem rekeyed_eq (hcr : cr.Honest) (m : E2eManager) (channel text : Str) :
    rekeyed cr e m channel text = rotationTargets cr e m channel := by
  rw [rekeyed, targets_encryptOutgoing hcr, List.drop_left]

/-! ### Later operations -/

/-- The operations that may store the row of a peer. No others record recipients. -/
def StoresPeers : Op → Prop
  | .keyreq .. | .keyrsp .. | .acceptPendingInbound .. | .reverifyPeer _ | .importAll _ => True
  | _ => False

/-- The recipients and the peers are among those of before. -/
structure Shrinks (m m' : E2eManager) : Prop where
  recipients : ∀ q ∈ m'.keyring.recipients.rows, q ∈ m.keyring.recipients.rows
  peers : ∀ fp p, m'.keyring.peers.get? fp = some p → m.keyring.peers.get? fp = some p

instance : Std.Refl Shrinks := ⟨fun _ => ⟨fun _ => id, fun _ _ => id⟩⟩

instance : IsTrans E2eManager Shrinks :=
  ⟨fun _ _ _ h h' => ⟨fun q hq => h.recipients q (h'.recipients q hq),
    fun fp p hp => h.peers fp p (h'.peers fp p hp)⟩⟩

theorem Shrinks.of_eq {m m' : E2eManager} (hr : m'.keyring.recipients = m.keyring.recipients)
    (hp : m'.keyring.peers = m.keyring.peers) : Shrinks m m' :=
  ⟨fun _ hq => hr ▸ hq, fun _ _ h => hp ▸ h⟩

theorem sweeps_shrinks (handle : Str) : Sweeps Shrinks handle where
  peers m peer _ := by
    refine ⟨fun _ => id, fun fp p hp => ?_⟩
    have hp : (m.keyring.peers.deleteWhere (fun p => p.fingerprint = peer.fingerprint)).get? fp =
      some p := hp
    rw [Table.get?_deleteWhere, Option.filter_eq_some_iff] at hp
    exact hp.1
  incoming _ := .of_eq rfl rfl
  recipients _ := ⟨fun _ hq => (Table.mem_deleteWhere.mp hq).1, fun _ _ => id⟩
  entries _ := .of_eq rfl rfl

/-- **The step lemma**: no other operation adds a recipient or a peer. -/
theorem shrinks_step {m : E2eManager} {i : Input} (hi : ¬ StoresPeers i.2) :
    Shrinks m (step cr m i) := by
  obtain ⟨e, op⟩ := i
  cases op with
  | keyreq | keyrsp | acceptPendingInbound | reverifyPeer | importAll => exact absurd trivial hi
  | rekey hd rekey =>
    rw [step, Op.exec, final]
    have h := @run_handleRekey cr e m hd rekey
    generalize (handleRekey cr e hd rekey).run m = r at h
    cases h with
    | installed had =>
      obtain ⟨rfl, -⟩ := install_eq_ok had.installed
      exact .of_eq rfl rfl
    | refused err notices => exact .of_eq rfl rfl
  | ciphertext h c line =>
    rw [step, Op.exec, final_discard, final_query]
    exact .of_eq rfl rfl
  | encryptOutgoing c text =>
    rw [step, Op.exec, final_discard]
    have hmask := @encryptOutgoing_keyMask cr e c text m
    exact .of_eq (congrArg (fun m => m.keyring.recipients) hmask)
      (congrArg (fun m => m.keyring.peers) hmask)
  | buildKeyreq c peer =>
    rw [step, Op.exec, final_discard]
    exact buildKeyreqForPeer_moves (R := Shrinks) (fun _ => .of_eq rfl rfl)
      (fun _ _ _ => .of_eq rfl rfl) peer m
  | forgetPeerOnChannel hd c =>
    rw [step, Op.exec, final_discard]
    refine (?_ : Moves Shrinks (E2eManager.forgetPeerOnChannel e hd c)) m
    refine (moves_ask _).bind (fun sess => ?_)
    refine Moves.bind (Moves.runIf (fun _ => moves_tell (fun m k hk => ?_))) (fun _ => ?_)
    · obtain ⟨-, rfl⟩ := Env.exec_eq_ok_iff.mp hk
      exact .of_eq rfl rfl
    · exact Moves.bind (Moves.modifyGet (fun _ => .of_eq rfl rfl)) (fun _ => Moves.pure _)
  | forgetPeerEverywhere hd =>
    rw [step, Op.exec, final_discard]
    exact (sweeps_shrinks hd).purgeHandle (e := e) m
  | removeOutgoingRecipient c hd =>
    rw [step, Op.exec]
    refine moves_tell (R := Shrinks) (fun m k hk => ?_) m
    obtain ⟨-, rfl⟩ := Env.exec_eq_ok_iff.mp hk
    exact ⟨fun _ hq => (Table.mem_deleteWhere.mp hq).1, fun _ _ => id⟩
  | updateIncomingStatus | markOutgoingPendingRotation | setChannelConfig | addAutotrust
  | removeAutotrust =>
    rw [step, Op.exec]
    refine moves_tell (R := Shrinks) (fun m k hk => ?_) m
    obtain ⟨-, rfl⟩ := Env.exec_eq_ok_iff.mp hk
    exact .of_eq rfl rfl
  | allowKeyreq | takePendingTrustChanges | takePendingRekeySends | takePendingOutboundKeyreqs
  | takePendingAcceptRequests => exact .of_eq rfl rfl

theorem shrinks_run {is : List Input} (his : ∀ i ∈ is, ¬ StoresPeers i.2) (m : E2eManager) :
    Shrinks m (runOps cr m is) := by
  have hguard : Run.Guarded (step cr) (fun _ i => ¬ StoresPeers i.2) m is := by
    refine Run.guarded_iff.mpr (fun pre i post h => his i ?_)
    rw [h]
    exact List.mem_append_right pre List.mem_cons_self
  refine Run.Guarded.invariant (P := Shrinks m) (fun m' i h hi => ?_) (Std.Refl.refl m) hguard
  exact IsTrans.trans m m' (step cr m' i) h (shrinks_step hi)

/-- Who can be told of a fresh key later could be told before. -/
theorem Shrinks.isShared {m m' : E2eManager} (h : Shrinks m m') {channel : Str}
    (hs : m'.keyring.IsShared cr channel) : m.keyring.IsShared cr channel := by
  obtain ⟨q, hq, hdel⟩ := hs
  obtain ⟨hq, hc⟩ := mem_recipientsOf.mp hq
  refine ⟨q, mem_recipientsOf.mpr ⟨h.recipients q hq, hc⟩, ?_⟩
  rw [Keyring.deliverable, Option.any_eq_true] at hdel ⊢
  obtain ⟨p, hp, hok⟩ := hdel
  exact ⟨p, h.peers _ p hp, hok⟩

end E2eManager

open E2eManager Exec

/-- Whatever is done with the one keyring or the other before a peer is stored again, encryption
queues REKEYs for the same recipients. -/
def SameRekeys (cr : Crates) (k k' : Keyring) : Prop :=
  ∀ (m : E2eManager) (is : List Input) e channel text, m.keyring = k →
    (∀ i ∈ is, ¬ StoresPeers i.2) →
    rekeyed cr e (runOps cr { m with keyring := k' } is) channel text =
      rekeyed cr e (runOps cr m is) channel text

/-- The document of a keyring restores it over any other keyring, and a rejected document leaves
the keyring that it was to replace as it was. -/
structure Migrates (cr : Crates) (js : Json) (k : Keyring) : Prop where
  restores : ∀ e e' write text summary m, exportToPath cr js e write k = .ok (text, summary) →
    e'.fault .replaceAllForImport = none →
    ∃ counts m', (importFromPath cr js e' (.ok text)).run m = .ok counts m' ∧
      SameTables k m'.keyring ∧ SameRekeys cr k m'.keyring
  rejects : ∀ e file m err m', (importFromPath cr js e file).run m = .error err m' → m' = m

/-- The document that an export writes is the one that is read back. -/
theorem fromStr_of_exportToPath (hj : js.RoundTrips) {write : Str → Result Unit} {k : Keyring}
    {text : Str} {summary : ExportSummary}
    (h : exportToPath cr js e write k = .ok (text, summary)) :
    ∃ doc, buildPortable cr e k = .ok doc ∧ js.fromStr text = .ok doc := by
  obtain ⟨doc, hdoc, h⟩ := except_bind_eq_ok_iff.mp h
  obtain ⟨json, hjson, h⟩ := except_bind_eq_ok_iff.mp h
  obtain ⟨u, -, h⟩ := except_bind_eq_ok_iff.mp h
  cases h
  obtain ⟨text', htext⟩ := hj.writes doc
  rw [htext] at hjson
  cases hjson
  exact ⟨doc, hdoc, hj.reads htext⟩

/-- An accepted import has stored the rows of a valid document. -/
theorem run_importFromPath_eq_ok_iff {file : Result Str} {counts : ImportSummary}
    {m m' : E2eManager} :
    (importFromPath cr js e file).run m = .ok counts m' ↔
      ∃ raw doc rows k', file = .ok raw ∧ js.fromStr raw = .ok doc ∧
        validate cr doc = .ok rows ∧ Keyring.replaceAllForImport e rows = .ok k' ∧
        m' = { m with keyring := k' } ∧
        counts = ⟨true, rows.peers.length, rows.incoming.length, rows.outgoing.length,
          rows.channels.length, rows.autotrust.length⟩ := by
  unfold importFromPath
  rw [bind_eq_ok_iff]
  constructor
  · rintro ⟨raw, m₁, hlift, h₁⟩
    obtain ⟨hfile, rfl⟩ := run_lift_eq_ok_iff.mp hlift
    obtain ⟨doc, m₂, hlift₂, h₂⟩ := bind_eq_ok_iff.mp h₁
    obtain ⟨hdoc, rfl⟩ := run_lift_eq_ok_iff.mp hlift₂
    obtain ⟨rows, m₃, hlift₃, h₃⟩ := bind_eq_ok_iff.mp h₂
    obtain ⟨hrows, rfl⟩ := run_lift_eq_ok_iff.mp hlift₃
    obtain ⟨u, m₄, htell, h₄⟩ := bind_eq_ok_iff.mp h₃
    obtain ⟨k', hk', rfl⟩ := run_tell_eq_ok_iff.mp htell
    cases h₄
    cases hparse : js.fromStr raw with
    | error err => simp [hparse, Except.mapError] at hdoc
    | ok doc' =>
      rw [hparse] at hdoc
      cases hdoc
      exact ⟨raw, doc, rows, k', hfile, hparse, hrows, hk', rfl, rfl⟩
  · rintro ⟨raw, doc, rows, k', rfl, hdoc, hrows, hk', rfl, rfl⟩
    refine ⟨raw, m, rfl, ?_⟩
    rw [hdoc]
    refine bind_eq_ok_iff.mpr ⟨doc, m, rfl, ?_⟩
    refine bind_eq_ok_iff.mpr ⟨rows, m, run_lift_eq_ok_iff.mpr ⟨hrows, rfl⟩, ?_⟩
    exact bind_eq_ok_iff.mpr ⟨(), _, run_tell_of_ok hk', rfl⟩

/-- A document restores the tables of the keyring that it was exported from. -/
theorem exists_importFromPath (hc : cr.Codecs) (hj : js.RoundTrips) {e' : Env}
    {write : Str → Result Unit} {k : Keyring} {text : Str} {summary : ExportSummary}
    (h : exportToPath cr js e write k = .ok (text, summary))
    (hf : e'.fault .replaceAllForImport = none) (m : E2eManager) :
    ∃ counts m', (importFromPath cr js e' (.ok text)).run m = .ok counts m' ∧
      SameTables k m'.keyring ∧ m'.keyring.recipients = Table.empty := by
  obtain ⟨doc, hdoc, hread⟩ := fromStr_of_exportToPath hj h
  obtain ⟨rows, hrows, hexp⟩ := exists_validate_of_buildPortable hc hdoc
  obtain ⟨k', hk', hsame, hrec⟩ := exists_replaceAllForImport hexp hf
  exact ⟨_, { m with keyring := k' },
    (run_importFromPath_eq_ok_iff).mpr ⟨text, doc, rows, k', rfl, hread, hrows, hk', rfl, rfl⟩,
    hsame, hrec⟩

/-- A rejected import changes nothing. -/
theorem importFromPath_rejects {file : Result Str} {m m' : E2eManager} {err : E2eError}
    (h : (importFromPath cr js e file).run m = .error err m') : m' = m := by
  have hlift : ∀ {α : Type} (r : Result α) (f : α → M ImportSummary),
      (∀ a, (f a).run m = .error err m' → m' = m) → (lift r >>= f).run m = .error err m' →
      m' = m := by
    intro α r f hf hr
    cases r with
    | error err' =>
      rw [bind_of_error (run_lift_error err' m)] at hr
      cases hr
      rfl
    | ok a =>
      rw [bind_of_ok (run_lift_ok a m)] at hr
      exact hf a hr
  refine hlift _ _ (fun raw => hlift _ _ (fun doc => hlift _ _ (fun rows hr => ?_))) h
  cases hk : Keyring.replaceAllForImport e rows with
  | ok k' =>
    rw [bind_of_ok (run_tell_of_ok hk)] at hr
    cases hr
  | error err' =>
    rw [bind_of_error (run_tell_of_error hk)] at hr
    cases hr
    rfl

/-- Where nobody can be told of a fresh key, no REKEY is queued. -/
theorem rotationTargets_of_not_isShared {m : E2eManager} {channel : Str}
    (h : ¬ m.keyring.IsShared cr channel) : rotationTargets cr e m channel = [] := by
  unfold rotationTargets
  split
  · rw [distributionTargets]
    split
    · rw [List.map_eq_nil_iff, List.filter_eq_nil_iff]
      intro r hr hdel
      obtain ⟨q, hq, rfl⟩ := List.mem_map.mp ((List.takeWhile_sublist _).mem hr)
      exact h ⟨q, hq, hdel⟩
    · rfl
  · rfl

theorem not_isShared_of_recipients_empty {k : Keyring} (h : k.recipients = Table.empty)
    {channel : Str} : ¬ k.IsShared cr channel := by
  rintro ⟨q, hq, -⟩
  have hq := (mem_recipientsOf.mp hq).1
  rw [h] at hq
  exact List.not_mem_nil hq

/-- The same later on. -/
theorem rotationTargets_run {m : E2eManager} {channel : Str}
    (h : ¬ m.keyring.IsShared cr channel) {is : List Input} (his : ∀ i ∈ is, ¬ StoresPeers i.2) :
    rotationTargets cr e (runOps cr m is) channel = [] :=
  rotationTargets_of_not_isShared (fun hs => h ((shrinks_run his m).isShared hs))

/-- Where nothing fails, a recipient of a key that is flagged is told. -/
theorem rotationTargets_ne_nil (he : e.Healthy) {m : E2eManager} {channel : Str}
    (hrot : RotationPending m channel) (h : m.keyring.IsShared cr channel) :
    rotationTargets cr e m channel ≠ [] := by
  obtain ⟨q, hq, hdel⟩ := h
  have hreached : ∀ l, reached e l = l := fun l => by
    apply List.takeWhile_eq_self_iff.mpr
    intro r _
    rw [he]
    rfl
  have hready : RotationPending m channel ∧ KeyStored e := ⟨hrot, he _, he _, he _⟩
  rw [rotationTargets, if_pos hready, distributionTargets, if_pos (he _), hreached]
  intro hnil
  rw [List.map_eq_nil_iff, List.filter_eq_nil_iff] at hnil
  exact hnil (q.handle, q.fingerprint) (List.mem_map.mpr ⟨q, hq, rfl⟩) hdel

/-- A line that is typed, and a rotation that is asked for. -/
def lineThenRotation (e : Env) (channel : Str) : List Input :=
  [(e, .encryptOutgoing channel []), (e, .markOutgoingPendingRotation channel)]

theorem not_storesPeers_lineThenRotation (channel : Str) :
    ∀ i ∈ lineThenRotation e channel, ¬ StoresPeers i.2 := by
  intro i hi
  rcases List.mem_cons.mp hi with rfl | hi
  · exact id
  · rw [List.mem_singleton.mp hi]
    exact id

/-- The table of our keys. -/
def outgoingKeys (m : E2eManager) : Table OutgoingSession OutgoingSession.channel :=
  m.keyring.outgoing

/-- Encryption leaves a key of the channel behind. -/
theorem outgoing_encryptOutgoing (he : e.Healthy) (m : E2eManager) (channel text : Str) :
    ((outgoingKeys (final (encryptOutgoing cr e channel text) m)).get? channel).isSome := by
  have hafter : Frame outgoingKeys (final (getOrGenerateOutgoingKey cr e channel) m)
      (final (encryptOutgoing cr e channel text) m) :=
    encryptOutgoing_after_key (R := Frame outgoingKeys) (fun _ => rfl) channel text m
  rw [show outgoingKeys (final (encryptOutgoing cr e channel text) m) = _ from hafter]
  cases hs : usableSession m channel with
  | some s =>
    rw [final_of_ok (run_getOrGenerateOutgoingKey_of_usable (he _) hs)]
    exact Option.isSome_of_eq_some (Option.filter_eq_some_iff.mp hs).1
  | none =>
    have hrun := @run_getOrGenerateOutgoingKey_of_minted cr e m channel hs (he _) (he _) (he _)
    have hfinal : final (getOrGenerateOutgoingKey cr e channel) m =
        final (finishMint cr e m channel) (minted e m channel) := by
      rw [final, hrun, ← final]
    have hmint : Moves (Frame outgoingKeys) (finishMint cr e m channel) := by
      refine Moves.bind (Moves.runIf (fun _ => ?_)) (fun _ => Moves.pure _)
      exact distributeRekeys_moves (R := Frame outgoingKeys) (fun _ => rfl) (fun _ _ => rfl)
        channel _
    rw [hfinal, show outgoingKeys (final (finishMint cr e m channel) _) = _ from hmint _]
    exact Option.isSome_of_eq_some (Table.get?_replace_self _ _)

theorem runOps_lineThenRotation (m : E2eManager) (channel : Str) :
    runOps cr m (lineThenRotation e channel) =
      final (tell (fun k => k.markOutgoingPendingRotation e channel))
        (final (encryptOutgoing cr e channel []) m) := by
  show step cr (step cr m (e, .encryptOutgoing channel [])) _ = _
  rw [step, step, Op.exec, Op.exec, final_discard]

theorem isShared_lineThenRotation (m : E2eManager) (channel : Str) :
    (runOps cr m (lineThenRotation e channel)).keyring.IsShared cr channel ↔
      m.keyring.IsShared cr channel := by
  have hview : ∀ m' m : E2eManager, m'.keyring.recipients = m.keyring.recipients →
      m'.keyring.peers = m.keyring.peers →
      (m'.keyring.IsShared cr channel ↔ m.keyring.IsShared cr channel) := by
    intro m' m hr hp
    rw [Keyring.IsShared, Keyring.IsShared, Keyring.recipientsOf, Keyring.recipientsOf, hr]
    simp only [Keyring.deliverable, hp]
  have hmask := @encryptOutgoing_keyMask cr e channel [] m
  have hmark : Moves (Frame fun m : E2eManager => (m.keyring.recipients, m.keyring.peers))
      (tell (fun k => k.markOutgoingPendingRotation e channel)) := by
    refine moves_tell (fun m k hk => ?_)
    obtain ⟨-, rfl⟩ := Env.exec_eq_ok_iff.mp hk
    rfl
  obtain ⟨hr, hp⟩ := Prod.mk.inj (hmark (final (encryptOutgoing cr e channel []) m))
  rw [runOps_lineThenRotation]
  exact (hview _ _ hr hp).trans (hview _ _ (congrArg (fun m => m.keyring.recipients) hmask)
    (congrArg (fun m => m.keyring.peers) hmask))

theorem rotationPending_lineThenRotation (he : e.Healthy) (m : E2eManager) (channel : Str) :
    RotationPending (runOps cr m (lineThenRotation e channel)) channel := by
  have hsome := @outgoing_encryptOutgoing cr e he m channel []
  rw [runOps_lineThenRotation, final_tell]
  generalize final (encryptOutgoing cr e channel []) m = m' at hsome ⊢
  obtain ⟨s, hs⟩ := Option.isSome_iff_exists.mp hsome
  have hs : m'.keyring.outgoing.get? channel = some s := hs
  have hmark : m'.keyring.markOutgoingPendingRotation e channel = .ok _ :=
    Env.exec_eq_ok_iff.mpr ⟨he _, rfl⟩
  have hkey := Table.key_of_get? hs
  rw [hmark, RotationPending, Table.get?_updateWhere, hs]
  simp [hkey]

/-- Where nothing fails, a keyring with an identity is exported. -/
theorem exists_exportToPath (hj : js.RoundTrips) (he : e.Healthy) {k : Keyring}
    {i : IdentityRow} (hi : k.identity = some i) :
    ∃ text summary, exportToPath cr js e (fun _ => .ok ()) k = .ok (text, summary) := by
  have hdoc : ∃ doc, buildPortable cr e k = .ok doc := by
    simp only [buildPortable, Keyring.loadIdentity, Keyring.listAllPeers,
      Keyring.listAllIncomingSessions, Keyring.listAllOutgoingSessions,
      Keyring.listAllChannelConfigs, Keyring.listAutotrust, he.exec, hi]
    exact ⟨_, rfl⟩
  obtain ⟨doc, hdoc⟩ := hdoc
  obtain ⟨text, htext⟩ := hj.writes doc
  unfold exportToPath
  rw [hdoc]
  show ∃ text summary, ((js.toStringPretty doc).mapError _ >>= _) = Except.ok (text, summary)
  rw [htext]
  exact ⟨text, _, rfl⟩

/-- A keyring with a key that somebody holds does not migrate. -/
theorem not_migrates_of_isShared (hc : cr.Codecs) (hh : cr.Honest) (hj : js.RoundTrips)
    {k : Keyring} {i : IdentityRow} (hi : k.identity = some i) {channel : Str}
    (h : k.IsShared cr channel) : ¬ Migrates cr js k := by
  intro hmig
  have he := sampleEnv_healthy 0 0
  obtain ⟨text, summary, hexp⟩ := @exists_exportToPath cr js _ hj he k i hi
  let m := E2eManager.init i.privkey k defaultTsToleranceSecs
  obtain ⟨counts, m', hrun, -, hrekeys⟩ := hmig.restores _ _ _ text summary m hexp (he _)
  obtain ⟨counts', m'', hrun', -, hempty⟩ := exists_importFromPath hc hj hexp (he _) m
  rw [hrun'] at hrun
  cases hrun
  have hkeeps := not_storesPeers_lineThenRotation (e := sampleEnv 0 0) channel
  have hsame := hrekeys m _ (sampleEnv 0 0) channel [] rfl hkeeps
  rw [rekeyed_eq hh, rekeyed_eq hh,
    @rotationTargets_run cr _ { m with keyring := m'.keyring } channel
      (not_isShared_of_recipients_empty hempty) _ hkeeps] at hsame
  exact rotationTargets_ne_nil he (rotationPending_lineThenRotation he m channel)
    ((isShared_lineThenRotation m channel).mpr h) hsame.symm

/-- **A keyring migrates if and only if nobody holds a key of it** and can be told of a fresh
one. -/
theorem migrates_iff (hc : cr.Codecs) (hh : cr.Honest) (hj : js.RoundTrips) {k : Keyring}
    {i : IdentityRow} (hi : k.identity = some i) :
    Migrates cr js k ↔ ∀ channel, ¬ k.IsShared cr channel := by
  constructor
  · intro hmig channel h
    exact not_migrates_of_isShared hc hh hj hi h hmig
  · intro hall
    refine ⟨fun e e' write text summary m hexp hf => ?_, fun e file m err m' h => ?_⟩
    · obtain ⟨counts, m', hrun, hsame, hempty⟩ := exists_importFromPath hc hj hexp hf m
      refine ⟨counts, m', hrun, hsame, ?_⟩
      rintro m₁ is e channel plaintext rfl his
      rw [rekeyed_eq hh, rekeyed_eq hh, rotationTargets_run (hall channel) his,
        @rotationTargets_run cr e { m₁ with keyring := m'.keyring } channel
          (not_isShared_of_recipients_empty hempty) _ his]
    · exact importFromPath_rejects h

/-! ### Loading an imported keyring -/

/-- The identity of a document belongs together: its public key is that of its secret, and its
fingerprint that of its public key. -/
def Portable.Consistent (cr : Crates) (doc : Portable) : Prop :=
  ∃ i, validateIdentity cr doc.identity = .ok i ∧ cr.edPublic i.privkey = i.pubkey ∧
    fingerprint cr i.pubkey = i.fingerprint

/-- A keyring with an identity loads if and only if its row can be read and belongs together. -/
theorem loads_iff {k : Keyring} {i : IdentityRow} (hi : k.identity = some i) :
    (∃ m, E2eManager.loadOrInit cr e k = .ok m) ↔
      e.fault .loadIdentity = none ∧ cr.edPublic i.privkey = i.pubkey ∧
        fingerprint cr i.pubkey = i.fingerprint := by
  by_cases hf : e.fault .loadIdentity = none
  swap
  · refine iff_of_false ?_ (fun h => hf h.1)
    rintro ⟨m, hm⟩
    obtain ⟨stored, hload, -⟩ := except_bind_eq_ok_iff.mp hm
    exact hf (Env.exec_eq_ok_iff.mp hload).1
  have hload : k.loadIdentity e = .ok (some i) := Env.exec_eq_ok_iff.mpr ⟨hf, hi⟩
  unfold loadOrInit loadOrInitWithTolerance
  rw [hload]
  by_cases hpk : cr.edPublic i.privkey = i.pubkey
  · by_cases hfp : fingerprint cr i.pubkey = i.fingerprint
    · refine iff_of_true ⟨E2eManager.init i.privkey k defaultTsToleranceSecs, ?_⟩ ⟨hf, hpk, hfp⟩
      simp [bind, Except.bind, pure, Except.pure, hpk, hfp]
    · refine iff_of_false ?_ (fun h => hfp h.2.2)
      simp [bind, Except.bind, hpk, hfp]
  · refine iff_of_false ?_ (fun h => hpk h.2.1)
    simp [bind, Except.bind, hpk]

theorem identity_of_replaceAllForImport {rows : Keyring.ImportRows} {k' : Keyring}
    (h : Keyring.replaceAllForImport e rows = .ok k') : k'.identity = some rows.identity := by
  unfold Keyring.replaceAllForImport at h
  split at h
  · cases h
  · cases h
    rfl
  · cases h

/-- An import stores the identity that validation has read from the document. -/
theorem identity_of_importFromPath {raw : Str} {doc : Portable} {counts : ImportSummary}
    {m m' : E2eManager} (hdoc : js.fromStr raw = .ok doc)
    (h : (importFromPath cr js e (.ok raw)).run m = .ok counts m') :
    ∃ i, validateIdentity cr doc.identity = .ok i ∧ m'.keyring.identity = some i := by
  obtain ⟨raw', doc', rows, k', hraw, hdoc', hrows, hk', rfl, -⟩ :=
    (run_importFromPath_eq_ok_iff).mp h
  cases hraw
  rw [hdoc] at hdoc'
  cases hdoc'
  unfold validate at hrows
  by_cases hversion : doc.version ≠ exportVersion
  · rw [if_pos hversion] at hrows
    cases hrows
  · rw [if_neg hversion] at hrows
    obtain ⟨i, hi, hrest⟩ := except_bind_eq_ok_iff.mp hrows
    obtain ⟨peers, -, hrest⟩ := except_bind_eq_ok_iff.mp hrest
    obtain ⟨incoming, -, hrest⟩ := except_bind_eq_ok_iff.mp hrest
    obtain ⟨outgoing, -, hrest⟩ := except_bind_eq_ok_iff.mp hrest
    obtain ⟨channels, -, hrest⟩ := except_bind_eq_ok_iff.mp hrest
    cases hrest
    exact ⟨i, hi, identity_of_replaceAllForImport hk'⟩

/-- **An imported keyring loads if and only if it can be read and the identity of the document
belongs together.** -/
theorem loads_after_import_iff {e e' : Env} {raw : Str} {doc : Portable}
    {counts : ImportSummary} {m m' : E2eManager} (hdoc : js.fromStr raw = .ok doc)
    (h : (importFromPath cr js e (.ok raw)).run m = .ok counts m') :
    (∃ loaded, E2eManager.loadOrInit cr e' m'.keyring = .ok loaded) ↔
      e'.fault .loadIdentity = none ∧ doc.Consistent cr := by
  obtain ⟨i, hval, hi⟩ := identity_of_importFromPath hdoc h
  rw [loads_iff hi]
  apply and_congr_right
  intro _
  constructor
  · rintro ⟨hpk, hfp⟩
    exact ⟨i, hval, hpk, hfp⟩
  · rintro ⟨i', hval', hpk, hfp⟩
    rw [hval] at hval'
    cases hval'
    exact ⟨hpk, hfp⟩

/-! ### Samples -/

namespace Sample

open Codec

def identityCodec : Codec PortableIdentity :=
  (text.prod (text.prod (text.prod int))).map (fun t => ⟨t.1, t.2.1, t.2.2.1, t.2.2.2⟩)
    (fun i => (i.pubkey, i.privkey, i.fingerprint, i.createdAt)) (fun _ => rfl)

def peerCodec : Codec PortablePeer :=
  (text.prod (text.prod (text.option.prod (text.option.prod (int.prod (int.prod text)))))).map
    (fun t => ⟨t.1, t.2.1, t.2.2.1, t.2.2.2.1, t.2.2.2.2.1, t.2.2.2.2.2.1, t.2.2.2.2.2.2⟩)
    (fun p => (p.fingerprint, p.pubkey, p.lastHandle, p.lastNick, p.firstSeen, p.lastSeen,
      p.globalStatus)) (fun _ => rfl)

def incomingCodec : Codec PortableIncoming :=
  (text.prod (text.prod (text.prod (text.prod (text.prod int))))).map
    (fun t => ⟨t.1, t.2.1, t.2.2.1, t.2.2.2.1, t.2.2.2.2.1, t.2.2.2.2.2⟩)
    (fun s => (s.handle, s.channel, s.fingerprint, s.sk, s.status, s.createdAt)) (fun _ => rfl)

def outgoingCodec : Codec PortableOutgoing :=
  (text.prod (text.prod (int.prod bool))).map (fun t => ⟨t.1, t.2.1, t.2.2.1, t.2.2.2⟩)
    (fun o => (o.channel, o.sk, o.createdAt, o.pendingRotation)) (fun _ => rfl)

def channelCodec : Codec PortableChannel :=
  (text.prod (bool.prod text)).map (fun t => ⟨t.1, t.2.1, t.2.2⟩)
    (fun c => (c.channel, c.enabled, c.mode)) (fun _ => rfl)

def autotrustCodec : Codec PortableAutotrust :=
  (text.prod text).map (fun t => ⟨t.1, t.2⟩) (fun a => (a.scope, a.handlePattern))
    (fun _ => rfl)

def documentCodec : Codec Portable :=
  (nat.prod (int.prod (identityCodec.prod (peerCodec.list.prod (incomingCodec.list.prod
    (outgoingCodec.list.prod (channelCodec.list.prod autotrustCodec.list))))))).map
    (fun t => ⟨t.1, t.2.1, t.2.2.1, t.2.2.2.1, t.2.2.2.2.1, t.2.2.2.2.2.1, t.2.2.2.2.2.2.1,
      t.2.2.2.2.2.2.2⟩)
    (fun d => (d.version, d.exportedAt, d.identity, d.peers, d.incomingSessions,
      d.outgoingSessions, d.channels, d.autotrust)) (fun _ => rfl)

/-- A JSON crate that writes every field in order. -/
def json : Json where
  toStringPretty doc := .ok (documentCodec.write doc)
  fromStr raw :=
    match documentCodec.parse raw with
    | some doc => .ok doc
    | none => .error (str "expected value at line 1 column 1")

theorem json_roundTrips : json.RoundTrips where
  writes doc := ⟨_, rfl⟩
  reads := by
    intro doc text h
    cases h
    show (match documentCodec.parse (documentCodec.write doc) with
      | some doc => Except.ok doc | none => _) = _
    rw [documentCodec.parse_write]

/-- The manager of a client that has been started once. -/
def started : E2eManager :=
  { E2eManager.init (Bytes.fill 32 9)
      { Keyring.empty with
        identity := some ⟨Bytes.fill 32 9, Bytes.fill 32 9,
          fingerprint sample (Bytes.fill 32 9), 1⟩ } defaultTsToleranceSecs with draws := 1 }

/-- A peer asks for our key and waits for the user, who types a line and asks for a rotation. -/
def requestRun : List Input :=
  [(sampleEnv 2 20, .setChannelConfig ⟨str "#rust", true, .normal⟩),
    (sampleEnv 3 30, .addAutotrust (str "#rust") (str "*@friends")),
    (sampleEnv 4 40, .keyreq (str "bob@host") (some (str "bob"))
      (keyreq (Bytes.fill 32 7) (str "#rust") (Bytes.fill 32 1) (Bytes.fill 16 2))),
    (sampleEnv 5 50, .encryptOutgoing (str "#rust") (str "hello")),
    (sampleEnv 6 60, .markOutgoingPendingRotation (str "#rust"))]

/-- A peer is given our key, and the key is flagged for rotation. -/
def rotationRun : List Input :=
  [(sampleEnv 2 20, .setChannelConfig ⟨str "#rust", true, .autoAccept⟩),
    (sampleEnv 3 30, .keyreq (str "bob@host") none
      (keyreq (Bytes.fill 32 7) (str "#rust") (Bytes.fill 32 1) (Bytes.fill 16 2))),
    (sampleEnv 4 40, .markOutgoingPendingRotation (str "#rust"))]

end Sample

open Sample in
set_option maxRecDepth 100000 in
/-- A rotation that is pending when the keyring is exported is lost on its recipient. -/
theorem rotation_not_migrated :
    E2eManager.loadOrInit sample (sampleEnv 1 9) Keyring.empty = .ok started ∧
      ¬ Migrates sample json (runOps sample started rotationRun).keyring := by
  refine ⟨by decide +kernel, ?_⟩
  have hid : (runOps sample started rotationRun).keyring.identity =
      some ⟨Bytes.fill 32 9, Bytes.fill 32 9, fingerprint sample (Bytes.fill 32 9), 1⟩ := by
    decide +kernel
  apply not_migrates_of_isShared sample_codecs sample_honest json_roundTrips hid
  show Keyring.IsShared sample _ (str "#rust")
  unfold Keyring.IsShared
  decide +kernel

open Sample in
set_option maxRecDepth 100000 in
/-- A keyring with rows in all the tables of a document migrates, and a rotation is pending. -/
theorem requested_migrates :
    let k := (runOps sample started requestRun).keyring
    (k.peers.rows.length, k.incoming.rows.length, k.channels.rows.length,
      k.autotrust.rows.length, k.outgoing.rows.map OutgoingSession.pendingRotation) =
        (1, 1, 1, 1, [true]) ∧ Migrates sample json k := by
  refine ⟨by decide +kernel, (migrates_iff sample_codecs sample_honest json_roundTrips
    (i := ⟨Bytes.fill 32 9, Bytes.fill 32 9, fingerprint sample (Bytes.fill 32 9), 1⟩)
    (by decide +kernel)).mpr (fun channel => not_isShared_of_recipients_empty (Table.ext ?_))⟩
  exact List.isEmpty_iff.mp (by decide +kernel)

namespace Sample

/-- The identity row of `started` with the public key `pubkey`. -/
def identityRow (pubkey : Bytes 32) : IdentityRow :=
  ⟨pubkey, Bytes.fill 32 9, fingerprint sample (Bytes.fill 32 9), 1⟩

/-- A document without sessions for such an identity. -/
def document (pubkey : Bytes 32) : Portable where
  version := 1
  exportedAt := 1
  identity := (identityRow pubkey).toPortable sample
  peers := []
  incomingSessions := []
  outgoingSessions := []
  channels := []
  autotrust := []

/-- The client `started` after an import of the document. -/
def imported (pubkey : Bytes 32) : E2eManager :=
  { started with keyring := { Keyring.empty with identity := some (identityRow pubkey) } }

/-- The document is accepted, whatever its public key is. -/
theorem run_importFromPath_document (pubkey : Bytes 32) :
    (importFromPath sample json (sampleEnv 2 9)
      (.ok (documentCodec.write (document pubkey)))).run started =
      .ok ⟨true, 0, 0, 0, 0, 0⟩ (imported pubkey) := by
  have hvalid : validate sample (document pubkey) =
      .ok ⟨identityRow pubkey, [], [], [], [], []⟩ := by
    show (validateIdentity sample ((identityRow pubkey).toPortable sample) >>= _) = _
    rw [validateIdentity_toPortable sample_codecs]
    rfl
  exact (run_importFromPath_eq_ok_iff).mpr ⟨_, document pubkey, _, (imported pubkey).keyring, rfl,
    json_roundTrips.reads rfl, hvalid, rfl, rfl, rfl⟩

end Sample

open Sample in
/-- A document with a foreign public key is accepted, and its keyring does not load. -/
theorem import_does_not_load :
    (importFromPath sample json (sampleEnv 2 9)
      (.ok (documentCodec.write (document (Bytes.fill 32 8))))).run started =
      .ok ⟨true, 0, 0, 0, 0, 0⟩ (imported (Bytes.fill 32 8)) ∧
    ¬ ∃ loaded, E2eManager.loadOrInit sample (sampleEnv 3 9)
      (imported (Bytes.fill 32 8)).keyring = .ok loaded := by
  refine ⟨run_importFromPath_document _, fun h => ?_⟩
  have hpk := ((@loads_iff sample _ _ (identityRow (Bytes.fill 32 8)) rfl).mp h).2.1
  exact absurd hpk (by decide +kernel)

open Sample in
/-- A document with the right public key is accepted, and its keyring loads. -/
theorem loads_after_import_own :
    ∃ loaded, E2eManager.loadOrInit sample (sampleEnv 3 9)
      (imported (Bytes.fill 32 9)).keyring = .ok loaded :=
  (loads_after_import_iff (json_roundTrips.reads rfl)
    (run_importFromPath_document (Bytes.fill 32 9))).mpr
      ⟨rfl, identityRow (Bytes.fill 32 9), validateIdentity_toPortable sample_codecs _, rfl, rfl⟩

end Repartee
