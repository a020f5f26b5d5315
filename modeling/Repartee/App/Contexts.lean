import Repartee.App.E2eCommands
import Repartee.App.Talking

/-!
# The context of a conversation

Three layers derive the keyring context of a conversation: the `/e2e` commands from the name of
its buffer, the sender from the name and the handle of the peer, and the receiver from the target
and the handle of the sender. They agree on a channel that is spelled as its buffer is named, and
disagree on private conversations.

## Main definitions

- `UsesOnly`: a change of the core that uses one context
- `PeerMessage`: an incoming message of the peer of a conversation
- `ContextsAgree`, `SpelledAlike`
- `Later`: the client after `/e2e on` and whatever follows

## Main results

- `cmdE2e_uses`: the commands use the context that `currentChannel` names
- `contexts_agree_iff`
-/

set_option autoImplicit false

namespace Repartee

open E2eManager Exec

/-! ### The context of the commands -/

/-- The context that an operation is about. -/
def Op.context : Op → Option Str
  | .ciphertext _ c _ | .encryptOutgoing c _ | .buildKeyreq c _ | .acceptPendingInbound _ c
  | .forgetPeerOnChannel _ c | .updateIncomingStatus _ c _ | .removeOutgoingRecipient c _
  | .markOutgoingPendingRotation c => some c
  | .setChannelConfig cfg => some cfg.channel
  | _ => none

/-- The core has changed by operations that are about no other context. -/
def UsesOnly (cr : Crates) (context : Str) (app app' : App) : Prop :=
  ∃ is : List Input, (∀ i ∈ is, ∀ c, i.2.context = some c → c = context) ∧
    app'.state.e2eManager = app.state.e2eManager.map (fun m => runOps cr m is)

section

variable {w : World} {cr : Crates} {context : Str}

theorem UsesOnly.of_eq {app app' : App} (h : app'.state.e2eManager = app.state.e2eManager) :
    UsesOnly cr context app app' := by
  refine ⟨[], by simp, ?_⟩
  rw [h]
  cases app.state.e2eManager <;> rfl

theorem UsesOnly.trans {app app₁ app₂ : App} (h : UsesOnly cr context app app₁)
    (h' : UsesOnly cr context app₁ app₂) : UsesOnly cr context app app₂ := by
  obtain ⟨is, his, he⟩ := h
  obtain ⟨js, hjs, he'⟩ := h'
  refine ⟨is ++ js, ?_, ?_⟩
  · intro i hi
    exact (List.mem_append.mp hi).elim (his i) (hjs i)
  · rw [he', he, Option.map_map]
    congr 1
    funext m
    exact (Run.run_append m is js).symm

theorem withCore_e2eManager {α : Type} (app : App) (x : Env → M α) :
    (app.withCore w x).2.state.e2eManager =
      app.state.e2eManager.map (final (x (w.env app.clock))) := by
  cases hmgr : app.state.e2eManager with
  | none => rw [App.withCore, hmgr, hmgr, Option.map_none]
  | some mgr =>
    rw [App.withCore, hmgr, Option.map_some, final]
    dsimp only
    cases (x (w.env app.clock)).run mgr <;> rfl

/-- A call of the core that does some operations of a context. -/
theorem UsesOnly.withCore {α : Type} {app : App} {x : Env → M α}
    (h : ∀ m, ∃ ops : List Op, (∀ op ∈ ops, ∀ c, op.context = some c → c = context) ∧
      final (x (w.env app.clock)) m = runOps cr m (ops.map (Prod.mk (w.env app.clock)))) :
    UsesOnly cr context app (app.withCore w x).2 := by
  cases hmgr : app.state.e2eManager with
  | none =>
    apply UsesOnly.of_eq
    rw [withCore_e2eManager, hmgr]
    rfl
  | some mgr =>
    obtain ⟨ops, hctx, hfinal⟩ := h mgr
    refine ⟨ops.map (Prod.mk (w.env app.clock)), ?_, ?_⟩
    · intro i hi
      obtain ⟨op, hop, rfl⟩ := List.mem_map.mp hi
      exact hctx op hop
    · rw [withCore_e2eManager, hmgr, Option.map_some, Option.map_some, hfinal]

/-- A call of the core that is one operation. -/
theorem UsesOnly.call {α : Type} {app : App} {x : Env → M α} {op : Op}
    (hop : ∀ m, final (x (w.env app.clock)) m = step cr m (w.env app.clock, op))
    (hctx : ∀ c, op.context = some c → c = context) :
    UsesOnly cr context app (app.withCore w x).2 :=
  UsesOnly.withCore (fun m => ⟨[op], by simpa using hctx, hop m⟩)

theorem UsesOnly.queue {app app' : App} (h : UsesOnly cr context app app')
    (send : PendingE2eSend) : UsesOnly cr context app (app'.queueSend send) :=
  h.trans (UsesOnly.of_eq rfl)

theorem UsesOnly.queueAll {app : App} (connId nick : Str) (outs : List PendingOutboundKeyReq) :
    ∀ {app' : App}, UsesOnly cr context app app' →
      UsesOnly cr context app (outs.foldl (fun app' out =>
        app'.queueSend ⟨connId, nick, (HandshakeMsg.req out.req).encodeCtcp cr⟩) app') := by
  induction outs with
  | nil => exact id
  | cons out outs ih => exact fun h => ih (h.queue _)

theorem configure_uses (app : App) (cfg : ChannelConfig) :
    UsesOnly cr cfg.channel app (app.configure w cfg) :=
  @UsesOnly.call w cr cfg.channel Unit app _ (.setChannelConfig cfg) (fun _ => rfl)
    (fun _ h => (Option.some.inj h).symm)

theorem sendAccepted_uses (app : App) (connId nick : Str) (rsp : KeyRsp) :
    UsesOnly cr context app (app.sendAccepted w cr connId nick rsp) := by
  have hqueue : UsesOnly cr context app
      (app.queueSend ⟨connId, nick, (HandshakeMsg.rsp rsp).encodeCtcp cr⟩) := UsesOnly.of_eq rfl
  have htake := hqueue.trans (@UsesOnly.call w cr context _ _
    (fun _ => E2eManager.takePendingOutboundKeyreqs) .takePendingOutboundKeyreqs
    (fun _ => rfl) nofun)
  rw [App.sendAccepted]
  generalize App.withCore w _ _ = r at htake
  obtain ⟨r, app₁⟩ := r
  match r with
  | some (.ok outs) => exact htake.queueAll connId nick outs
  | some (.error _) => exact htake
  | none => exact htake

theorem accept_uses (app : App) (nick : Str) (h : app.currentChannel = some context) :
    UsesOnly cr context app (app.e2eAccept w cr nick) := by
  rw [App.e2eAccept, h]
  dsimp only
  split
  · exact UsesOnly.of_eq rfl
  · rename_i handle _
    have hacc := @UsesOnly.call w cr context _ app
      (fun e => E2eManager.acceptPendingInbound cr e handle context)
      (.acceptPendingInbound handle context) (fun m => (final_discard _ m).symm)
      (fun _ h => (Option.some.inj h).symm)
    generalize app.withCore w _ = r at hacc
    obtain ⟨r, app₁⟩ := r
    match r with
    | some (.ok (some rsp)) =>
      dsimp only
      split
      · exact hacc.trans (sendAccepted_uses _ _ _ _)
      · exact hacc
    | some (.ok none) =>
      exact hacc.trans (@UsesOnly.call w cr context Unit app₁ _
        (.updateIncomingStatus handle context .trusted) (fun _ => rfl)
        (fun _ h => (Option.some.inj h).symm))
    | some (.error _) => exact hacc
    | none => exact hacc

/-- A statement whose failure ends the command has been tried in any case. -/
theorem final_tell_bind (f : Keyring → Result Keyring) (rest : M Unit) (m : E2eManager) :
    final (do tell f; rest) m = final (tell f) m ∨
      final (do tell f; rest) m = final rest (final (tell f) m) := by
  cases hrun : (tell f).run m with
  | ok u m' =>
    right
    rw [final_bind_of_ok hrun, final_of_ok hrun]
  | error err m' =>
    left
    rw [final_bind_of_error hrun, final_of_error hrun]

theorem revoke_uses (app : App) (nick : Str) (h : app.currentChannel = some context) :
    UsesOnly cr context app (app.e2eRevoke w nick) := by
  rw [App.e2eRevoke, h]
  dsimp only
  split
  · exact UsesOnly.of_eq rfl
  rename_i handle _
  apply UsesOnly.withCore
  intro m
  let revoke : Op := .updateIncomingStatus handle context .revoked
  let drop : Op := .removeOutgoingRecipient context handle
  let mark : Op := .markOutgoingPendingRotation context
  have hctx : ∀ op ∈ [revoke, drop, mark], ∀ c, op.context = some c → c = context := by
    simp [revoke, drop, mark, Op.context]
  -- the command stops at the first statement that fails
  rcases final_tell_bind _ _ m with hfirst | hfirst
  · exact ⟨[revoke], fun op hop => hctx op (by simp_all), hfirst⟩
  rw [hfirst]
  rcases final_tell_bind _ _ (final (tell _) m) with hsecond | hsecond
  · exact ⟨[revoke, drop], fun op hop => hctx op (by simp at hop; grind), hsecond⟩
  · exact ⟨[revoke, drop, mark], hctx, hsecond⟩

theorem handshake_uses (app : App) (nick : Str) (h : app.currentChannel = some context) :
    UsesOnly cr context app (app.e2eHandshake w cr nick) := by
  rw [App.e2eHandshake, h]
  dsimp only
  split
  · exact UsesOnly.of_eq rfl
  · have hreq := @UsesOnly.call w cr context _ app (fun e => E2eManager.buildKeyreq cr e context)
      (.buildKeyreq context none) (fun m => (final_discard _ m).symm)
      (fun _ h => (Option.some.inj h).symm)
    generalize app.withCore w _ = r at hreq
    obtain ⟨r, app₁⟩ := r
    match r with
    | some (.ok req) => exact hreq.queue _
    | some (.error _) => exact hreq
    | none => exact hreq

theorem runE2eSub_uses (app : App) (sub : E2eSub) (h : app.currentChannel = some context) :
    UsesOnly cr context app (app.runE2eSub w cr sub) := by
  cases sub with
  | on =>
    rw [App.runE2eSub, App.e2eOn, h]
    exact configure_uses app ⟨context, true, .normal⟩
  | off =>
    rw [App.runE2eSub, App.e2eOff, h]
    exact configure_uses app ⟨context, false, .normal⟩
  | mode m =>
    rw [App.runE2eSub, App.e2eMode, h]
    dsimp only
    split
    · exact UsesOnly.of_eq rfl
    · exact configure_uses app ⟨context, true, _⟩
  | accept nick => exact accept_uses app nick h
  | revoke nick => exact revoke_uses app nick h
  | rotate =>
    rw [App.runE2eSub, App.e2eRotate, h]
    exact @UsesOnly.call w cr context Unit app _ (.markOutgoingPendingRotation context)
      (fun _ => rfl)
      (fun _ h => (Option.some.inj h).symm)
  | handshake nick => exact handshake_uses app nick h

/-- **The commands** use the context that the name of the active conversation is. -/
theorem cmdE2e_uses (app : App) (sub : E2eSub) (h : app.currentChannel = some context) :
    UsesOnly cr context app (app.cmdE2e w cr sub) := by
  rw [App.cmdE2e]
  split
  · exact runE2eSub_uses app sub h
  · refine (@runE2eSub_uses w cr context app sub h).trans (UsesOnly.of_eq ?_)
    rw [App.drainPendingE2eSends, (App.shipAll_handed _ _).2]

end

/-! ### The three contexts -/

variable (w : World) (cr : Crates)

/-- An incoming PRIVMSG of the peer of a conversation: on a channel of another user, in a query
of the user whose handle the buffer knows. -/
structure PeerMessage (app : App) (buf : Buffer) (nick ident host target : Str) : Prop where
  foreign : nick ≠ app.state.nickOf buf.connectionId
  routed : privmsgBuffer w buf.connectionId (app.state.nickOf buf.connectionId) nick target = buf.id
  channel : buf.bufferType = .channel → isChannel target = true
  query : buf.bufferType = .query →
    isChannel target = false ∧ buf.peerHandle = some (userhost ident host)

/-- The commands, the sender and the receiver of a message use one context. -/
def ContextsAgree (app : App) (buf : Buffer) (ident host target : Str) : Prop :=
  app.currentChannel = some (app.state.keyringContext buf.id buf.name buf.bufferType none) ∧
    app.state.keyringContext buf.id buf.name buf.bufferType none =
      decryptContext ident host target

/-- A channel is spelled as its buffer is named; a query is named by its pseudochannel. -/
def SpelledAlike (buf : Buffer) (ident host target : Str) : Prop :=
  buf.bufferType = .channel ∧ target = buf.name ∨
    buf.bufferType = .query ∧ buf.name = '@' :: userhost ident host

/-- An operation does not turn encryption off for a context. -/
def KeepsOn (context : Str) : Op → Prop
  | .setChannelConfig cfg => cfg.channel = context → cfg.enabled = true
  | .importAll _ => False
  | _ => True

/-- The client has run `/e2e on` in a conversation, and since then operations that do not turn
encryption off for the same context; the conversation still has its peer. -/
structure Later (app : App) (buf : Buffer) (later : AppState) (mgr' : E2eManager) : Prop where
  core : ∃ mgr is, (app.cmdE2e w cr .on).state.e2eManager = some mgr ∧
    (∀ i : Input, i ∈ is → KeepsOn buf.name i.2) ∧ mgr' = runOps cr mgr is
  manager : later.e2eManager = some mgr'
  peer : later.peerHandleOf buf.id none = buf.peerHandle

section

variable {w : World} {cr : Crates}

theorem peerHandleOf_active {app : App} {buf : Buffer} (h : app.state.activeBuffer = some buf) :
    app.state.peerHandleOf buf.id none = buf.peerHandle := by
  obtain ⟨id, -, hget⟩ := Option.bind_eq_some_iff.mp h
  have hid : buf.id = id := Table.key_of_get? hget
  rw [AppState.peerHandleOf, hid, hget, Option.bind_some]

theorem currentChannel_of_sendable {app : App} {buf : Buffer}
    (h : app.state.activeBuffer = some buf) (htype : buf.bufferType.Sendable) :
    app.currentChannel = some buf.name := by
  rw [App.currentChannel, h, Option.bind_some, if_pos]
  simpa [BufferType.Sendable] using htype

theorem contextKey_of_not_channel {target peerHandle : Str} (h : isChannel target = false) :
    contextKey target peerHandle = '@' :: peerHandle := by
  rw [contextKey, h]
  rfl

/-- The three contexts agree on a channel that is spelled as its buffer is named, and on a query
that is named by its pseudochannel. -/
theorem contextsAgree_iff {app : App} {buf : Buffer} {nick ident host target : Str}
    (hactive : app.state.activeBuffer = some buf) (htype : buf.bufferType.Sendable)
    (hmsg : PeerMessage w app buf nick ident host target) :
    ContextsAgree app buf ident host target ↔ SpelledAlike buf ident host target := by
  unfold ContextsAgree AppState.keyringContext SpelledAlike
  rw [currentChannel_of_sendable hactive htype, Option.some.injEq, peerHandleOf_active hactive]
  rcases htype with hch | hq
  · have htarget := hmsg.channel hch
    simp only [hch, decryptContext, contextKey, htarget, if_true, reduceCtorEq, false_and,
      or_false, true_and]
    exact eq_comm
  · obtain ⟨htarget, hpeer⟩ := hmsg.query hq
    simp only [hq, hpeer, decryptContext, contextKey_of_not_channel htarget, reduceCtorEq,
      false_and, false_or, true_and]
    constructor
    · rintro ⟨hname, hctx⟩
      exact hname.trans hctx
    · intro hname
      have hnot : isChannel buf.name = false := by
        rw [hname]
        rfl
      rw [contextKey_of_not_channel hnot]
      exact ⟨hname, rfl⟩

/-! ### After `/e2e on` -/

theorem hasE2e_step {context : Str} {m : E2eManager} {i : Input} (hkeep : KeepsOn context i.2)
    (h : HasE2e m.keyring context) : HasE2e (step cr m i).keyring context := by
  by_cases hc : Configures i.2
  · obtain ⟨e, op⟩ := i
    cases op with
    | setChannelConfig cfg =>
      rw [step, Op.exec, final_tell]
      split
      · rename_i k hk
        obtain ⟨-, rfl⟩ := Env.exec_eq_ok_iff.mp hk
        by_cases hcfg : cfg.channel = context
        · subst hcfg
          exact ⟨cfg, Table.get?_replace_self _ _, hkeep rfl⟩
        · obtain ⟨old, hold, hen⟩ := h
          exact ⟨old, (Table.get?_replace_ne _ hcfg).trans hold, hen⟩
      · exact h
    | importAll rows => exact hkeep.elim
    | _ => exact hc.elim
  · have hch : (step cr m i).keyring.channels = m.keyring.channels :=
      congrArg Prod.snd (settings_step hc)
    obtain ⟨cfg, hcfg, hen⟩ := h
    exact ⟨cfg, hch ▸ hcfg, hen⟩

theorem hasE2e_runOps {context : Str} {m : E2eManager} {is : List Input}
    (hkeep : ∀ i ∈ is, KeepsOn context i.2) (h : HasE2e m.keyring context) :
    HasE2e (runOps cr m is).keyring context := by
  induction is generalizing m with
  | nil => exact h
  | cons i is ih =>
    exact ih (fun j hj => hkeep j (List.mem_cons_of_mem i hj))
      (hasE2e_step (hkeep i List.mem_cons_self) h)

/-- `/e2e on` enables encryption under the name of the active conversation. -/
theorem hasE2e_on {app : App} {mgr mgr' : E2eManager} {chan : Str}
    (hchan : app.currentChannel = some chan) (hmgr : app.state.e2eManager = some mgr)
    (hstore : (w.env app.clock).fault .setChannelConfig = none)
    (hon : (app.cmdE2e w cr .on).state.e2eManager = some mgr') :
    HasE2e mgr'.keyring chan := by
  have hcore : (app.cmdE2e w cr .on).state.e2eManager =
      (app.configure w ⟨chan, true, .normal⟩).state.e2eManager := by
    rw [App.cmdE2e, App.runE2eSub, App.e2eOn, hchan]
    dsimp only
    split
    · rfl
    · rw [App.drainPendingE2eSends, (App.shipAll_handed _ _).2]
  rw [hcore, App.configure, withCore_e2eManager, hmgr, Option.map_some, Option.some.injEq,
    final_tell, show mgr.keyring.setChannelConfig (w.env app.clock) ⟨chan, true, .normal⟩ = .ok _
      from Env.exec_eq_ok_iff.mpr ⟨hstore, rfl⟩] at hon
  subst hon
  exact ⟨⟨chan, true, .normal⟩, Table.get?_replace_self _ _, rfl⟩

theorem Later.hasE2e {app : App} {buf : Buffer} {mgr mgr' : E2eManager} {later : AppState}
    (h : Later w cr app buf later mgr') (hchan : app.currentChannel = some buf.name)
    (hmgr : app.state.e2eManager = some mgr)
    (hstore : (w.env app.clock).fault .setChannelConfig = none) :
    HasE2e mgr'.keyring buf.name := by
  obtain ⟨mgr₁, is, hon, hkeep, rfl⟩ := h.core
  exact hasE2e_runOps hkeep (hasE2e_on hchan hmgr hstore hon)

/-- A message of the peer is received in the context of the commands and of the sender, and a
later text typed there is let out as ciphertext, if and only if the conversation is spelled alike
in all places and the text can be encrypted. -/
theorem contexts_agree_iff {app : App} {buf : Buffer} {mgr mgr' : E2eManager} {later : AppState}
    {e : Env} {nick ident host target text : Str} (hactive : app.state.activeBuffer = some buf)
    (htype : buf.bufferType.Sendable) (hmsg : PeerMessage w app buf nick ident host target)
    (hmgr : app.state.e2eManager = some mgr)
    (hstore : (w.env app.clock).fault .setChannelConfig = none)
    (hlater : Later w cr app buf later mgr') (htext : bypassesE2e text = false) :
    (ContextsAgree app buf ident host target ∧
      OnlyCiphertext cr e mgr' (later.keyringContext buf.id buf.name buf.bufferType none) text
        (e2eEncryptOrPassthrough cr e later buf.id buf.name buf.bufferType text none)) ↔
      SpelledAlike buf ident host target ∧
        StaysSecret cr e later mgr' buf.id buf.name buf.bufferType text none := by
  rw [contextsAgree_iff hactive htype hmsg]
  apply and_congr_right
  intro hspelled
  have hagree := (contextsAgree_iff hactive htype hmsg).mpr hspelled
  have hchan := currentChannel_of_sendable hactive htype
  -- the sender's context is still the one that `/e2e on` has enabled
  have hname : later.keyringContext buf.id buf.name buf.bufferType none = buf.name := by
    have hsame : later.keyringContext buf.id buf.name buf.bufferType none =
        app.state.keyringContext buf.id buf.name buf.bufferType none := by
      unfold AppState.keyringContext
      rw [hlater.peer, peerHandleOf_active hactive]
    rw [hsame]
    exact Option.some.inj (hagree.1.symm.trans hchan)
  refine onlyCiphertext_iff hlater.manager htype ?_ htext
  rw [hname]
  exact hlater.hasE2e hchan hmgr hstore

end

namespace Sample

/-- A client that has never used encryption, with one conversation. -/
def unencrypted (buf : Buffer) : App :=
  app (E2eManager.init (Bytes.fill 32 1) Keyring.empty defaultTsToleranceSecs) buf

def rust : Buffer := buffer .channel (str "#rust") none

def bob : Buffer := buffer .query (str "bob") (some (str "~bob@b.host"))

theorem later_rust :
    Later world sample (unencrypted rust) rust ((unencrypted rust).cmdE2e world sample .on).state
      (manager (str "#rust") .normal) where
  core := ⟨manager (str "#rust") .normal, [], by decide +kernel, nofun, rfl⟩
  manager := by decide +kernel
  peer := by decide +kernel

theorem message_rust :
    PeerMessage world (unencrypted rust) rust (str "bob") (str "~bob") (str "b.host")
      (str "#rust") where
  foreign := by decide +kernel
  routed := by decide +kernel
  channel _ := rfl
  query h := by cases h

end Sample

open Sample in
/-- In `#rust` a message of `bob` to `#rust` is received in the context that `/e2e on` has
enabled, and a text typed there is encrypted. -/
theorem contexts_agree_rust :
    ContextsAgree (unencrypted rust) rust (str "~bob") (str "b.host") (str "#rust") ∧
      OnlyCiphertext sample (sampleEnv 0 1) (manager (str "#rust") .normal)
        (((unencrypted rust).cmdE2e world sample .on).state.keyringContext rust.id rust.name
          rust.bufferType none) (str "hello")
        (e2eEncryptOrPassthrough sample (sampleEnv 0 1)
          ((unencrypted rust).cmdE2e world sample .on).state rust.id rust.name rust.bufferType
          (str "hello") none) := by
  have hcan : CanEncrypt sample (sampleEnv 0 1) (manager (str "#rust") .normal) (str "#rust")
      (str "hello") :=
    canEncrypt_of_honest (sampleEnv_healthy 0 1) sample_honest
      (show splitPlaintext (str "hello") = .ok [Utf8.encode (str "hello")] from rfl)
  exact (contexts_agree_iff rfl (.inl rfl) message_rust rfl rfl later_rust rfl).mpr
    ⟨.inl ⟨rfl, rfl⟩, .inr ⟨rfl, .inr hcan⟩⟩

open Sample in
/-- In the query of `bob`, `/e2e on` enables encryption for the nick, and a text typed after it
goes out in the clear. -/
theorem query_not_encrypted :
    PeerMessage world (unencrypted bob) bob (str "bob") (str "~bob") (str "b.host") (str "me") ∧
      ¬ ContextsAgree (unencrypted bob) bob (str "~bob") (str "b.host") (str "me") ∧
      (e2eEncryptOrPassthrough sample (sampleEnv 0 1)
        ((unencrypted bob).cmdE2e world sample .on).state bob.id bob.name bob.bufferType
        (str "hello") none).1 = some ([str "hello"], str "hello") := by
  refine ⟨⟨by decide +kernel, by decide +kernel, nofun, fun _ => by decide +kernel⟩, ?_, ?_⟩
  · rintro ⟨hname, -⟩
    revert hname
    decide +kernel
  · decide +kernel

end Repartee
