import Repartee.App.Commands
import Repartee.App.Passthrough

/-!
# Talking on an encrypted conversation

What each way of sending a message body hands to the IRC sender when the conversation has
encryption enabled. Plain input goes through the encryption; `/msg`, `/query` and `/me` do not.

## Main definitions

- `Sending`: a message body on its way to a conversation
- `Protected`: the conversation has encryption enabled
- `HonoursE2e`: every PRIVMSG that is handed over is ciphertext
- `KeptSecret`: what this needs

## Main results

- `submission_honours_iff`: for every submitted line, aliases included, and every message that
  comes back from the link shortener
- `msg_leaks`: `/msg` hands the body over in the clear
-/

set_option autoImplicit false

namespace Repartee

open E2eManager Exec

namespace App

variable {w : World}

/-! ### What is handed over -/

/-- The texts of the PRIVMSGs handed over between two states of a client. -/
def said (app app' : App) : List Str :=
  ((app'.handed.drop app.handed.length).filter (fun line => line.command = .privmsg)).map
    Handed.text

/-- A connection takes no line at a tick. -/
def Unsent (w : World) (app : App) (connId : Str) (clock : Nat) : Prop :=
  connId ∉ app.ircHandles ∨ w.sends clock = false

/-- A client has handed the first lines of a message over as PRIVMSGs: some of them, unless the
connection takes no line. The core stays as it is. -/
def HandsOver (w : World) (connId target : Str) (wires : List Str) (app app' : App) : Prop :=
  ∃ sent notices,
    app'.handed = app.handed ++ (sent.map (fun wire => ⟨connId, .privmsg, target, wire⟩) ++
      notices) ∧
    (∀ line ∈ notices, line.command = .notice) ∧ sent <+: wires ∧
    (sent = [] ↔ wires = [] ∨ Unsent w app connId app.clock) ∧
    app'.state.e2eManager = app.state.e2eManager

theorem HandsOver.said_eq {connId target : Str} {wires : List Str} {app app' : App}
    (h : HandsOver w connId target wires app app') :
    said app app' <+: wires ∧
      (said app app' = [] ↔ wires = [] ∨ Unsent w app connId app.clock) := by
  obtain ⟨sent, notices, hhanded, hnotices, hpre, hnil, -⟩ := h
  have hprivmsgs : (sent.map (fun wire => (⟨connId, .privmsg, target, wire⟩ : Handed))).filter
      (fun line => line.command = .privmsg) =
        sent.map (fun wire => ⟨connId, .privmsg, target, wire⟩) := by
    rw [List.filter_eq_self]
    simp
  have hrest : notices.filter (fun line => decide (line.command = .privmsg)) = [] := by
    rw [List.filter_eq_nil_iff]
    intro line hline
    simp [hnotices line hline]
  have hsaid : said app app' = sent := by
    rw [said, hhanded, List.drop_left, List.filter_append, hprivmsgs, hrest, List.append_nil,
      List.map_map]
    exact List.map_id _
  rw [hsaid]
  exact ⟨hpre, hnil⟩

theorem HandsOver.core {connId target : Str} {wires : List Str} {app app' : App}
    (h : HandsOver w connId target wires app app') :
    app'.state.e2eManager = app.state.e2eManager := by
  obtain ⟨-, -, -, -, -, -, hcore⟩ := h
  exact hcore

/-- What happens afterwards may only hand over NOTICEs, and keeps the core. -/
theorem HandsOver.followedBy {connId target : Str} {wires : List Str} {app app' app'' : App}
    (h : HandsOver w connId target wires app app')
    (hsent : ∃ sent, app''.handed = app'.handed ++ sent ∧ ∀ line ∈ sent, line.command = .notice)
    (hcore : app''.state.e2eManager = app'.state.e2eManager) :
    HandsOver w connId target wires app app'' := by
  obtain ⟨sent, notices, hhanded, hnotices, hpre, hnil, hcore'⟩ := h
  obtain ⟨more, hmore, hall⟩ := hsent
  refine ⟨sent, notices ++ more, ?_, ?_, hpre, hnil, hcore.trans hcore'⟩
  · rw [hmore, hhanded, List.append_assoc, List.append_assoc]
  · intro line hline
    exact (List.mem_append.mp hline).elim (hnotices line) (hall line)

/-- Nothing is handed over by a client whose connection takes no line. -/
theorem handsOver_nothing {connId target : Str} {wires : List Str} {app app' : App}
    (hun : wires = [] ∨ Unsent w app connId app.clock) (hhanded : app'.handed = app.handed)
    (hcore : app'.state.e2eManager = app.state.e2eManager) :
    HandsOver w connId target wires app app' :=
  ⟨[], [], by simp [hhanded], by simp, List.nil_prefix, by simp [hun], hcore⟩

/-- A line that is taken, and then the rest of the message. -/
theorem handsOver_cons {connId target wire : Str} {rest : List Str} {app app₁ app' : App}
    (hh : connId ∈ app.ircHandles) (hs : w.sends app.clock = true)
    (hrest : HandsOver w connId target rest app₁ app')
    (hhanded : app₁.handed = app.handed ++ [⟨connId, .privmsg, target, wire⟩])
    (hcore : app₁.state.e2eManager = app.state.e2eManager) :
    HandsOver w connId target (wire :: rest) app app' := by
  obtain ⟨sent, notices, hsent, hnotices, hpre, -, hcore'⟩ := hrest
  refine ⟨wire :: sent, notices, ?_, hnotices, ?_, ?_, hcore'.trans hcore⟩
  · rw [hsent, hhanded]
    simp
  · exact (List.prefix_cons_inj wire).mpr hpre
  · simp [Unsent, hh, hs]

theorem Unsent.congr {app app' : App} {connId : Str} {clock clock' : Nat}
    (h : Unsent w app connId clock) (hhandles : app'.ircHandles = app.ircHandles)
    (hclock : clock' = clock) : Unsent w app' connId clock' := by
  rw [Unsent, hhandles, hclock]
  exact h

theorem handsOver_sendWires (connId target : Str) (wires : List Str) (app : App) :
    HandsOver w connId target wires app (sendWires w connId target wires app).2 := by
  induction wires generalizing app with
  | nil => exact handsOver_nothing (.inl rfl) rfl rfl
  | cons wire rest ih =>
    by_cases hh : connId ∈ app.ircHandles
    · cases hs : w.sends app.clock with
      | false =>
        have hstep : sendWires w connId target (wire :: rest) app = (false, app.tick) := by
          simp [sendWires, App.send, hh, hs]
        rw [hstep]
        exact handsOver_nothing (.inr (.inr hs)) rfl rfl
      | true =>
        have hstep : sendWires w connId target (wire :: rest) app =
            sendWires w connId target rest (app.hand ⟨connId, .privmsg, target, wire⟩) := by
          simp [sendWires, App.send, hh, hs]
        rw [hstep]
        exact handsOver_cons hh hs (ih _) rfl rfl
    · -- without a handle every line is passed over
      have hskip : ∀ l : List Str, sendWires w connId target l app = (true, app) := by
        intro l
        induction l with
        | nil => rfl
        | cons wire l ih => simpa [sendWires, hh] using ih
      rw [hskip]
      exact handsOver_nothing (.inr (.inl hh)) rfl rfl

/-- The loop of `/msg` hands its chunks over in the same way. -/
theorem handsOver_msgChunks (connId target bufferId nick : Str) (echoMessageEnabled : Bool)
    (chunks : List Str) (app : App) :
    HandsOver w connId target chunks app
      (msgChunks w connId target bufferId nick echoMessageEnabled chunks app) := by
  induction chunks generalizing app with
  | nil => exact handsOver_nothing (.inl rfl) rfl rfl
  | cons chunk rest ih =>
    rw [msgChunks]
    by_cases hh : connId ∈ app.ircHandles
    · cases hs : w.sends app.clock with
      | false =>
        simp only [List.contains_eq_mem, hh, decide_true, if_true, App.send, hs]
        exact handsOver_nothing (.inr (.inr hs)) rfl rfl
      | true =>
        simp only [List.contains_eq_mem, hh, decide_true, if_true, App.send, hs]
        cases echoMessageEnabled with
        | true => exact handsOver_cons hh hs (ih _) rfl rfl
        | false => exact handsOver_cons hh hs (ih _) rfl rfl
    · simp only [List.contains_eq_mem, hh, decide_false]
      have hun : Unsent w app connId app.clock := .inl hh
      cases echoMessageEnabled with
      | true =>
        obtain ⟨sent, notices, hsent, hnotices, -, hnil, hcore⟩ := ih app
        obtain rfl := hnil.mpr (.inr hun)
        exact ⟨[], notices, hsent, hnotices, List.nil_prefix, by simp [hun], hcore⟩
      | false =>
        obtain ⟨sent, notices, hsent, hnotices, -, hnil, hcore⟩ :=
          ih { app with state := app.state.addMessage bufferId ⟨.message, some nick, chunk⟩ }
        obtain rfl := hnil.mpr (.inr hun)
        exact ⟨[], notices, hsent, hnotices, List.nil_prefix, by simp [hun], hcore⟩

theorem handsOver_sendAndShow (app : App) (connId target bufferId : Str)
    (messageType : MessageType) (wire text : Str) :
    HandsOver w connId target [wire] app
      (app.sendAndShow w connId target bufferId messageType wire text) := by
  unfold sendAndShow
  by_cases hh : connId ∈ app.ircHandles
  · cases hs : w.sends app.clock with
    | false =>
      have hsend : app.send w ⟨connId, .privmsg, target, wire⟩ = (false, app.tick) := by
        simp [App.send, hs]
      simp only [List.contains_eq_mem, hh, decide_true, if_true, hsend]
      exact handsOver_nothing (.inr (.inr hs)) rfl rfl
    | true =>
      have hsend : app.send w ⟨connId, .privmsg, target, wire⟩ =
          (true, app.hand ⟨connId, .privmsg, target, wire⟩) := by
        simp [App.send, hs]
      simp only [List.contains_eq_mem, hh, decide_true, if_true, hsend]
      split
      · exact handsOver_cons hh hs (handsOver_nothing (.inl rfl) rfl rfl) rfl rfl
      · exact handsOver_cons hh hs (handsOver_nothing (.inl rfl) rfl rfl) rfl rfl
  · simp only [List.contains_eq_mem, hh, decide_false, Bool.false_eq_true, if_false]
    split
    · exact handsOver_nothing (.inr (.inl hh)) rfl rfl
    · exact handsOver_nothing (.inr (.inl hh)) rfl rfl

/-- Shipping hands over NOTICEs only. -/
theorem shipAll_handed (sends : List PendingE2eSend) (app : App) :
    (∃ sent, (shipAll w sends app).handed = app.handed ++ sent ∧
      ∀ line ∈ sent, line.command = .notice) ∧ (shipAll w sends app).state = app.state := by
  induction sends generalizing app with
  | nil => exact ⟨⟨[], by simp [shipAll]⟩, rfl⟩
  | cons s rest ih =>
    rw [shipAll]
    split
    · obtain ⟨⟨sent, hsent, hall⟩, hstate⟩ :=
        ih (app.send w ⟨s.connectionId, .notice, s.target, s.noticeText⟩).2
      rw [hsent, hstate]
      cases hs : w.sends app.clock with
      | true =>
        simp only [App.send, hs, if_true]
        refine ⟨⟨⟨s.connectionId, .notice, s.target, s.noticeText⟩ :: sent, ?_, ?_⟩, rfl⟩
        · simp [hand]
        · simpa using hall
      | false =>
        simp only [App.send, hs]
        exact ⟨⟨sent, rfl, hall⟩, rfl⟩
    · exact ih app

@[simp] theorem echo_e2eManager (st : AppState) (bufferId nick : Str) (messageType : MessageType)
    (chunks : List Str) :
    (st.echo bufferId nick messageType chunks).e2eManager = st.e2eManager := by
  unfold AppState.echo
  induction chunks generalizing st with
  | nil => rfl
  | cons chunk rest ih => exact ih (st.addMessage bufferId ⟨messageType, some nick, chunk⟩)

/-- The lines of an encrypted or plain message, the REKEYs after them, and the echo. -/
theorem handsOver_sendAndEcho (app : App) (connId bufferId bufferName nick : Str)
    (wires : List Str) (plainEcho : Str) :
    HandsOver w connId bufferName wires app
      (sendAndEcho w app connId bufferId bufferName nick wires plainEcho) := by
  unfold sendAndEcho
  have hwires := @handsOver_sendWires w connId bufferName wires app
  cases hsend : sendWires w connId bufferName wires app with
  | mk taken app₁ =>
    rw [hsend] at hwires
    cases taken with
    | false => exact hwires
    | true =>
      obtain ⟨hsent, hstate⟩ := @shipAll_handed w app₁.state.pendingE2eSends
        { app₁ with state := { app₁.state with pendingE2eSends := [] } }
      have hcore : (app₁.drainPendingE2eSends w).state.e2eManager = app₁.state.e2eManager := by
        rw [drainPendingE2eSends, hstate]
      dsimp only
      split
      · exact hwires.followedBy hsent (by rw [echo_e2eManager, hcore])
      · exact hwires.followedBy hsent hcore

theorem handsOver_deliver {app : App} {connId bufferId bufferName nick plainEcho : Str}
    {wires : List Str} {st : AppState} :
    HandsOver w connId bufferName wires { app.tick with state := st }
      (deliver w app connId bufferId bufferName nick (some (wires, plainEcho), st)) :=
  handsOver_sendAndEcho _ _ _ _ _ _ _

end App

/-! ### Conversations -/

/-- A message body on its way to a conversation: the body, what is made of it for the
conversation, and the tick at which it would be encrypted. -/
structure Sending where
  connId : Str
  bufferId : Str
  bufferName : Str
  bufferType : BufferType
  peerHandle : Option Str
  body : Str
  message : Str
  tick : Nat

variable (w : World) (cr : Crates)

/-- The conversation with a target: its buffer, or the one that it would have. -/
def AppState.conversationAt (st : AppState) (connId target : Str) : Buffer :=
  (st.buffers.get? (makeBufferId w connId target)).getD
    { queryBuffer w connId target with
      bufferType := if isChannel target then .channel else .query }

/-- A body on its way to the conversation of a buffer. -/
def Buffer.sending (buf : Buffer) (connId body message : Str) (tick : Nat) : Sending where
  connId := connId
  bufferId := buf.id
  bufferName := buf.name
  bufferType := buf.bufferType
  peerHandle := none
  body := body
  message := message
  tick := tick

/-- The body that a piece of talking sends, and its conversation. -/
def Talk.sending (app : App) : Talk → Option Sending
  | .plain text => app.state.activeBuffer.map (fun buf =>
      buf.sending buf.connectionId text text
        (if app.qualifiesForShrink w text then app.clock + 1 else app.clock))
  | .substituted out text => some
      ⟨out.connId, out.bufferId, out.bufferName, out.bufferType, out.peerHandle, text, text,
        app.clock⟩
  | .msg (target :: text :: _) =>
    if Text.startsWith target ['='] then none
    else app.activeConnId.map (fun connId =>
      (app.state.conversationAt w connId target).sending connId text text app.clock)
  | .query (target :: text :: _) => app.activeConnId.map (fun connId =>
      (app.state.conversationAt w connId target).sending connId text text app.clock)
  | .me (text :: _) => app.state.activeBuffer.map (fun buf =>
      buf.sending buf.connectionId text (App.ctcpAction text) app.clock)
  | _ => none

/-- The keyring context of the conversation. -/
def Sending.context (s : Sending) (st : AppState) : Str :=
  st.keyringContext s.bufferId s.bufferName s.bufferType s.peerHandle

/-- A body is sent to a conversation that has encryption enabled. -/
structure Protected (app : App) (t : Talk) (mgr : E2eManager) (s : Sending) : Prop where
  sending : t.sending w app = some s
  core : app.state.e2eManager = some mgr
  sendable : s.bufferType.Sendable
  enabled : HasE2e mgr.keyring (s.context app.state)
  encryptable : bypassesE2e s.body = false

/-- Every PRIVMSG that is handed over for a protected body is ciphertext. -/
def HonoursE2e (app : App) (t : Talk) : Prop :=
  ∀ mgr s, Protected w app t mgr s → ∀ wire ∈ App.said app (t.run w cr app),
    IsCiphertext cr (w.env s.tick) mgr (s.context app.state) s.message (t.run w cr app).state wire

/-- The client has left a message to the link shortener. -/
def Deferred (app : App) (text : Str) : Prop :=
  app.qualifiesForShrink w text = true ∧ w.enqueues app.clock = true

/-- A message goes through the encryption, and can be encrypted. -/
def Sending.Encrypted (s : Sending) (st : AppState) (mgr : E2eManager) : Prop :=
  StaysSecret cr (w.env s.tick) st mgr s.bufferId s.bufferName s.bufferType s.message s.peerHandle

/-- What it takes for a body not to be handed over in the clear: plain input can be encrypted;
a messaging command hands nothing over. -/
def Talk.Safe (app : App) (mgr : E2eManager) (s : Sending) : Talk → Prop
  | .plain text => Deferred w app text ∨ App.Unsent w app s.connId (s.tick + 1) ∨
      s.Encrypted w cr app.state mgr
  | .substituted _ _ => App.Unsent w app s.connId (s.tick + 1) ∨ s.Encrypted w cr app.state mgr
  | .msg _ => App.Unsent w app s.connId s.tick ∨ Blank messageMaxBytes s.body
  | .query _ => App.Unsent w app s.connId s.tick
  | .me _ => App.Unsent w app s.connId s.tick

/-- Every protected body is kept secret. -/
def KeptSecret (app : App) (t : Talk) : Prop :=
  ∀ mgr s, Protected w app t mgr s → t.Safe w cr app mgr s

/-! ### Each way of talking -/

variable {w cr}

theorem IsCiphertext.congr {e : Env} {mgr : E2eManager} {context text wire : Str}
    {st st' : AppState} (h : IsCiphertext cr e mgr context text st wire)
    (hcore : st'.e2eManager = st.e2eManager) : IsCiphertext cr e mgr context text st' wire := by
  obtain ⟨lines, mgr', hrun, hst, hwire⟩ := h
  exact ⟨lines, mgr', hrun, hcore.trans hst, hwire⟩

theorem App.said_congr {app app₁ app' : App} (h : app₁.handed = app.handed) :
    App.said app app' = App.said app₁ app' := by
  rw [App.said, App.said, h]

theorem App.said_eq_nil {app app' : App} (h : app'.handed = app.handed) :
    App.said app app' = [] := by
  rw [App.said, h, List.drop_length]
  rfl

/-- Lines that are handed over while the core stays as it is are plaintext. -/
theorem honours_unmoved_iff {e : Env} {mgr : E2eManager} {context text connId target : Str}
    {wires : List Str} {app app' : App} (hmgr : app.state.e2eManager = some mgr)
    (h : App.HandsOver w connId target wires app app') :
    (∀ wire ∈ App.said app app', IsCiphertext cr e mgr context text app'.state wire) ↔
      wires = [] ∨ App.Unsent w app connId app.clock := by
  have hplain : ∀ wire, ¬ IsCiphertext cr e mgr context text app'.state wire :=
    not_isCiphertext_of_unmoved (h.core.trans hmgr)
  rw [← h.said_eq.2, List.eq_nil_iff_forall_not_mem]
  exact forall₂_congr (fun wire _ => iff_false_intro (hplain wire))

/-- What goes out for a message is ciphertext if and only if it can be encrypted, or nothing
goes out. -/
theorem honours_deliver_iff {e : Env} {mgr : E2eManager} {app : App} {s : Sending} {nick : Str}
    (hmgr : app.state.e2eManager = some mgr) (htype : s.bufferType.Sendable)
    (hen : HasE2e mgr.keyring (s.context app.state)) (htext : bypassesE2e s.message = false) :
    let app' := App.deliver w app s.connId s.bufferId s.bufferName nick
      (e2eEncryptOrPassthrough cr e app.state s.bufferId s.bufferName s.bufferType s.message
        s.peerHandle)
    (∀ wire ∈ App.said app app',
        IsCiphertext cr e mgr (s.context app.state) s.message app'.state wire) ↔
      App.Unsent w app s.connId (app.clock + 1) ∨
        StaysSecret cr e app.state mgr s.bufferId s.bufferName s.bufferType s.message
          s.peerHandle := by
  have honly := @onlyCiphertext_iff cr e app.state mgr s.bufferId s.bufferName s.bufferType
    s.message s.peerHandle hmgr htype hen htext
  have hone := fun wire => @onlyCiphertext_of_one cr e app.state mgr s.bufferId s.bufferName
    s.bufferType s.message wire s.peerHandle hmgr htype htext
  intro app'
  rw [← honly]
  cases hout : e2eEncryptOrPassthrough cr e app.state s.bufferId s.bufferName s.bufferType
      s.message s.peerHandle with
  | mk result st =>
    rw [hout] at honly hone
    cases result with
    | none =>
      have happ : app' = { app.tick with state := st } := by
        simp only [app', hout, App.deliver]
      have hnil : App.said app app' = [] := App.said_eq_nil (by rw [happ]; rfl)
      rw [hnil]
      exact iff_of_true (by simp) (.inr (.inl rfl))
    | some message =>
      obtain ⟨wires, plainEcho⟩ := message
      have hover : App.HandsOver w s.connId s.bufferName wires { app.tick with state := st }
          app' := by
        simp only [app', hout]
        exact App.handsOver_deliver
      obtain ⟨hpre, hnil⟩ := hover.said_eq
      have hcore : app'.state.e2eManager = st.e2eManager := hover.core
      have hunsent : App.Unsent w { app.tick with state := st } s.connId (app.clock + 1) ↔
          App.Unsent w app s.connId (app.clock + 1) := Iff.rfl
      rw [@App.said_congr app { app.tick with state := st } app' rfl]
      constructor
      · intro hall
        cases hsaid : App.said { app.tick with state := st } app' with
        | nil =>
          rcases hnil.mp hsaid with rfl | hun
          · exact .inr (.inr ⟨[], plainEcho, rfl, by simp⟩)
          · exact .inl (hunsent.mp hun)
        | cons wire rest =>
          have hwire := hall wire (by rw [hsaid]; exact List.mem_cons_self)
          exact .inr (hone wire (hwire.congr hcore.symm))
      · rintro (hun | hsecret) wire hwire
        · rw [hnil.mpr (.inr (hunsent.mpr hun))] at hwire
          simp at hwire
        · rcases hsecret with hnone | ⟨lines, echo, hsome, hlines⟩
          · simp at hnone
          · obtain ⟨rfl, rfl⟩ := Prod.mk.inj (Option.some.inj hsome)
            exact (hlines wire (hpre.subset hwire)).congr hcore

theorem handlePlainMessage_of_sendable {app : App} {buf : Buffer} {text : Str}
    (hbuf : app.state.activeBuffer = some buf) (htype : buf.bufferType.Sendable) :
    app.handlePlainMessage cr w text =
      if app.qualifiesForShrink w text then
        if w.enqueues app.clock then
          { app.tick with shrinkOutgoing := app.shrinkOutgoing ++ [app.pendingOutgoing w buf text] }
        else app.tick.sendInline cr w buf text
      else app.sendInline cr w buf text := by
  unfold App.handlePlainMessage
  rw [hbuf]
  rcases htype with hc | hc <;> simp only [hc]

theorem honours_plain_iff {app : App} {text : Str} {mgr : E2eManager} {s : Sending}
    (h : Protected w app (.plain text) mgr s) :
    (∀ wire ∈ App.said app (Talk.run w cr app (.plain text)),
        IsCiphertext cr (w.env s.tick) mgr (s.context app.state) s.message
          (Talk.run w cr app (.plain text)).state wire) ↔
      Talk.Safe w cr app mgr s (.plain text) := by
  obtain ⟨hsend, hmgr, htype, hen, htext⟩ := h
  obtain ⟨buf, hbuf, hs⟩ := Option.map_eq_some_iff.mp hsend
  have hbufType : buf.bufferType.Sendable := by
    rw [← hs] at htype
    exact htype
  have hrun : Talk.run w cr app (.plain text) = _ := handlePlainMessage_of_sendable hbuf hbufType
  show _ ↔ Deferred w app text ∨ _
  by_cases hq : app.qualifiesForShrink w text = true
  · rw [if_pos hq] at hs hrun
    subst hs
    cases he : w.enqueues app.clock with
    | true =>
      -- nothing is handed over before the shortener answers
      rw [he, if_pos rfl] at hrun
      have hnil : App.said app (Talk.run w cr app (.plain text)) = [] :=
        App.said_eq_nil (by rw [hrun]; rfl)
      rw [hnil]
      exact iff_of_true (by simp) (.inl ⟨hq, he⟩)
    | false =>
      have hdef : ¬ Deferred w app text := fun hd => by simp [hd.2] at he
      rw [he, if_neg Bool.false_ne_true] at hrun
      rw [or_iff_right hdef, hrun, @App.said_congr app app.tick _ rfl]
      exact @honours_deliver_iff w cr (w.env (app.clock + 1)) mgr app.tick
        (buf.sending buf.connectionId text text (app.clock + 1)) _ hmgr htype hen htext
  · rw [if_neg hq] at hs hrun
    subst hs
    have hdef : ¬ Deferred w app text := fun hd => hq hd.1
    rw [or_iff_right hdef, hrun]
    exact @honours_deliver_iff w cr (w.env app.clock) mgr app
      (buf.sending buf.connectionId text text app.clock) _ hmgr htype hen htext

theorem honours_substituted_iff {app : App} {out : PendingOutgoing} {text : Str}
    {mgr : E2eManager} {s : Sending} (h : Protected w app (.substituted out text) mgr s) :
    (∀ wire ∈ App.said app (Talk.run w cr app (.substituted out text)),
        IsCiphertext cr (w.env s.tick) mgr (s.context app.state) s.message
          (Talk.run w cr app (.substituted out text)).state wire) ↔
      Talk.Safe w cr app mgr s (.substituted out text) := by
  obtain ⟨hsend, hmgr, htype, hen, htext⟩ := h
  obtain rfl := Option.some.inj hsend
  by_cases hh : out.connId ∈ app.ircHandles
  · have hrun : Talk.run w cr app (.substituted out text) =
        App.deliver w app out.connId out.bufferId out.bufferName out.nick
          (e2eEncryptOrPassthrough cr (w.env app.clock) app.state out.bufferId out.bufferName
            out.bufferType text out.peerHandle) := by
      simp [Talk.run, App.sendOutgoingSubstituted, hh]
    rw [hrun]
    exact @honours_deliver_iff w cr (w.env app.clock) mgr app
      ⟨out.connId, out.bufferId, out.bufferName, out.bufferType, out.peerHandle, text, text,
        app.clock⟩ _ hmgr htype hen htext
  · have hrun : Talk.run w cr app (.substituted out text) = app := by
      simp [Talk.run, App.sendOutgoingSubstituted, hh]
    rw [hrun, App.said_eq_nil rfl]
    exact iff_of_true (by simp) (.inl (.inl hh))

theorem ensureQueryBuffer_e2eManager (st : AppState) (connId target : Str) (skip : Bool) :
    (st.ensureQueryBuffer w connId target skip).e2eManager = st.e2eManager := by
  unfold AppState.ensureQueryBuffer
  split <;> rfl

theorem setActiveBuffer_e2eManager (st : AppState) (id : Str) :
    (st.setActiveBuffer id).e2eManager = st.e2eManager := by
  unfold AppState.setActiveBuffer
  split <;> rfl

theorem honours_msg_iff {app : App} {args : List Str} {mgr : E2eManager} {s : Sending}
    (h : Protected w app (.msg args) mgr s) :
    (∀ wire ∈ App.said app (Talk.run w cr app (.msg args)),
        IsCiphertext cr (w.env s.tick) mgr (s.context app.state) s.message
          (Talk.run w cr app (.msg args)).state wire) ↔
      Talk.Safe w cr app mgr s (.msg args) := by
  obtain ⟨hsend, hmgr, -, -, -⟩ := h
  cases args with
  | nil => simp [Talk.sending] at hsend
  | cons target args =>
    cases args with
    | nil => simp [Talk.sending] at hsend
    | cons text rest =>
      rw [Talk.sending] at hsend
      split at hsend
      · simp at hsend
      rename_i hdcc
      obtain ⟨connId, hconn, rfl⟩ := Option.map_eq_some_iff.mp hsend
      have hstrip : Text.stripPrefix ['='] target = none := by
        simpa [Text.startsWith] using hdcc
      have hrun : Talk.run w cr app (.msg (target :: text :: rest)) =
          App.msgChunks w connId target (makeBufferId w connId target) (app.state.nickOf connId)
            ((app.state.ensureQueryBuffer w connId target true).hasCap connId (str "echo-message"))
            (splitIrcMessage text messageMaxBytes)
            { app with state := app.state.ensureQueryBuffer w connId target true } := by
        simp [Talk.run, App.cmdMsg, hstrip, hconn]
      rw [hrun, @App.said_congr app
          { app with state := app.state.ensureQueryBuffer w connId target true } _ rfl,
        honours_unmoved_iff (by rw [ensureQueryBuffer_e2eManager, hmgr])
          (App.handsOver_msgChunks _ _ _ _ _ _ _),
        splitIrcMessage_eq_nil_iff, or_comm]
      exact Iff.rfl

theorem honours_query_iff {app : App} {args : List Str} {mgr : E2eManager} {s : Sending}
    (h : Protected w app (.query args) mgr s) :
    (∀ wire ∈ App.said app (Talk.run w cr app (.query args)),
        IsCiphertext cr (w.env s.tick) mgr (s.context app.state) s.message
          (Talk.run w cr app (.query args)).state wire) ↔
      Talk.Safe w cr app mgr s (.query args) := by
  obtain ⟨hsend, hmgr, -, -, -⟩ := h
  cases args with
  | nil => simp [Talk.sending] at hsend
  | cons target args =>
    cases args with
    | nil => simp [Talk.sending] at hsend
    | cons text rest =>
      obtain ⟨connId, hconn, rfl⟩ := Option.map_eq_some_iff.mp hsend
      obtain ⟨st, hst⟩ : ∃ st, st = (app.state.ensureQueryBuffer w connId target
        false).setActiveBuffer (makeBufferId w connId target) := ⟨_, rfl⟩
      have hcore : st.e2eManager = some mgr := by
        rw [hst, setActiveBuffer_e2eManager, ensureQueryBuffer_e2eManager, hmgr]
      have hrun : Talk.run w cr app (.query (target :: text :: rest)) =
          App.sendAndShow w { app with state := st } connId target
            (makeBufferId w connId target) .message text text := by
        simp [Talk.run, App.cmdQuery, hconn, hst]
      rw [hrun, @App.said_congr app { app with state := st } _ rfl,
        honours_unmoved_iff hcore (App.handsOver_sendAndShow _ _ _ _ _ _ _)]
      exact or_iff_right (by simp)

theorem honours_me_iff {app : App} {args : List Str} {mgr : E2eManager} {s : Sending}
    (h : Protected w app (.me args) mgr s) :
    (∀ wire ∈ App.said app (Talk.run w cr app (.me args)),
        IsCiphertext cr (w.env s.tick) mgr (s.context app.state) s.message
          (Talk.run w cr app (.me args)).state wire) ↔
      Talk.Safe w cr app mgr s (.me args) := by
  obtain ⟨hsend, hmgr, htype, -, -⟩ := h
  cases args with
  | nil => simp [Talk.sending] at hsend
  | cons text rest =>
    obtain ⟨buf, hbuf, rfl⟩ := Option.map_eq_some_iff.mp hsend
    have hdcc : buf.bufferType ≠ .dccChat := by
      rcases htype with hc | hc <;> simp [Buffer.sending] at hc <;> simp [hc]
    by_cases hh : buf.connectionId ∈ app.ircHandles
    · have hrun : Talk.run w cr app (.me (text :: rest)) =
          app.sendAndShow w buf.connectionId buf.name buf.id .action (App.ctcpAction text) text := by
        simp [Talk.run, App.cmdMe, hbuf, hdcc, hh]
      rw [hrun, honours_unmoved_iff hmgr (App.handsOver_sendAndShow _ _ _ _ _ _ _)]
      exact or_iff_right (by simp)
    · have hrun : Talk.run w cr app (.me (text :: rest)) = app := by
        simp [Talk.run, App.cmdMe, hbuf, hdcc, hh]
      rw [hrun, App.said_eq_nil rfl]
      exact iff_of_true (by simp) (.inl hh)

/-- A piece of talking honours the encryption of its conversation if and only if it is safe. -/
theorem honoursE2e_iff (app : App) (t : Talk) : HonoursE2e w cr app t ↔ KeptSecret w cr app t := by
  refine forall₂_congr (fun mgr s => imp_congr_right (fun h => ?_))
  cases t with
  | plain text => exact honours_plain_iff h
  | substituted out text => exact honours_substituted_iff h
  | msg args => exact honours_msg_iff h
  | query args => exact honours_query_iff h
  | me args => exact honours_me_iff h

/-- All that is said for a submission honours the encryption of its conversations if and only if
all of it is safe. -/
theorem submission_honours_iff (others : OtherHandlers) (app : App) (submission : Submission) :
    (∀ step ∈ (submission.outcome w cr others app).2, HonoursE2e w cr step.1 step.2) ↔
      ∀ step ∈ (submission.outcome w cr others app).2, KeptSecret w cr step.1 step.2 :=
  forall₂_congr (fun step _ => honoursE2e_iff step.1 step.2)

/-! ### A leak -/

namespace Sample

/-- Surroundings in which every line is taken and nothing is shortened. -/
def world : World where
  toLowercase := List.map Char.toLower
  findLongUrls := fun _ _ => []
  env := sampleEnv 0
  sends := fun _ => true
  enqueues := fun _ => false
  suppresses := fun _ => false

/-- A client with one conversation and an IRC handle for its connection. -/
def app (mgr : E2eManager) (buf : Buffer) : App where
  state := appState mgr buf
  aliases := Table.empty
  shrink := ⟨false, false, false⟩
  logBrowserMode := false
  ircHandles := [str "libera"]
  dcc := []
  shrinkOutgoing := []
  handed := []
  dccLines := []
  clock := 0

/-- A client in the channel `#rust`, whose encryption is enabled. -/
def inRust : App := app (manager (str "#rust") .normal) (buffer .channel (str "#rust") none)

/-- A message body of `#rust`. -/
def toRust (body : Str) (tick : Nat) : Sending :=
  (buffer .channel (str "#rust") none).sending (str "libera") body body tick

theorem parse_msg :
    parseCommand world (str "/msg #rust hello") =
      some ⟨str "msg", [str "#rust", str "hello"]⟩ := by
  decide +kernel

theorem sending_msg :
    Talk.sending world inRust.tick (.msg [str "#rust", str "hello"]) =
      some (toRust (str "hello") 1) := by
  have hconn : inRust.tick.activeConnId = some (str "libera") := by decide +kernel
  have hbuf : AppState.conversationAt world inRust.tick.state (str "libera") (str "#rust") =
      buffer .channel (str "#rust") none := by
    decide +kernel
  have hdcc : Text.startsWith (str "#rust") ['='] = false := by decide +kernel
  rw [Talk.sending, hdcc, hconn, if_neg Bool.false_ne_true, Option.map_some, hbuf]
  rfl

theorem steps_msg (others : OtherHandlers) :
    ((Submission.line (str "/msg #rust hello")).outcome world sample others inRust).2 =
      [(inRust.tick, .msg [str "#rust", str "hello"])] := by
  have hcmd : messagingCommand ⟨str "msg", [str "#rust", str "hello"]⟩ =
      some (.msg [str "#rust", str "hello"]) := by decide +kernel
  have hlog : inRust.logBrowserMode = false := rfl
  have hsup : world.suppresses inRust.clock = false := rfl
  rw [Submission.outcome, handleSubmit, parse_msg]
  simp only [executeCommand, hlog, hsup, Bool.false_eq_true, if_false, hcmd]
  rfl

theorem protected_msg :
    Protected world inRust.tick (.msg [str "#rust", str "hello"]) (manager (str "#rust") .normal)
      (toRust (str "hello") 1) :=
  ⟨sending_msg, rfl, .inl rfl, hasE2e_enabled _ _, by decide⟩

end Sample

open Sample in
/-- In `#rust`, whose encryption is enabled, `/msg #rust hello` hands `hello` over. -/
theorem msg_leaks :
    ¬ ∀ step ∈ ((Submission.line (str "/msg #rust hello")).outcome world sample
        (fun _ app => app) inRust).2, HonoursE2e world sample step.1 step.2 := by
  intro h
  have hstep := h _ (by rw [steps_msg]; exact List.mem_singleton_self _)
  have hunsafe : ¬ Talk.Safe world sample inRust.tick (manager (str "#rust") .normal)
      (toRust (str "hello") 1) (.msg [str "#rust", str "hello"]) := by
    rintro (hun | hblank)
    · rcases hun with hhandle | hsends
      · exact hhandle (List.mem_singleton_self _)
      · exact absurd hsends (by decide)
    · exact absurd hblank.1 (by decide)
  exact hunsafe ((honoursE2e_iff _ _).mp hstep _ _ protected_msg)

end Repartee
