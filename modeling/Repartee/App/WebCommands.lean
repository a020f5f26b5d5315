import Repartee.App.Frames

/-!
# Text from a web client

A web client names the buffer its text is for. `web_run_command` makes that buffer the active one,
submits the text, and makes the earlier buffer active again; a name that no buffer has is ignored,
so that the text goes to the buffer that is active in the terminal.

## Main definitions

- `App.webRunCommand`: `web_run_command`
- `App.OnlyTo`: what is sent goes to one buffer
- `WebSafe`: the text goes to the buffer it names, or nowhere

## Main results

- `webSafe_iff`: where the text of every client is safe
-/

set_option autoImplicit false

namespace Repartee

namespace App

variable (w : World) (cr : Crates)

/-- `set_active_buffer_silent`; the counters of unread messages are not modelled. -/
def setActiveBufferSilent (app : App) (bufferId : Str) : App :=
  if (app.state.buffers.get? bufferId).isSome then
    { app with state := { app.state with activeBufferId := some bufferId } }
  else app

/-- `web_run_command` -/
def webRunCommand (others : OtherHandlers) (app : App) (bufferId text : Str) : App :=
  let prior := app.state.activeBufferId
  let app := (handleSubmit w cr others (app.setActiveBufferSilent bufferId) text).1
  match prior with
  | some id => app.setActiveBufferSilent id
  | none => { app with state := { app.state with activeBufferId := none } }

/-- The nick of a DCC buffer. -/
def dccNick (buf : Buffer) : Str := (Text.stripPrefix ['='] buf.name).getD buf.name

/-- Whatever is sent between two states of a client, at once or by the link shortener, goes to a
buffer; without a buffer nothing is sent. -/
structure OnlyTo (app app' : App) (buf : Option Buffer) : Prop where
  lines : ∃ sent, app'.handed = app.handed ++ sent ∧ ∀ line ∈ sent, line.command = .privmsg →
    ∃ b, buf = some b ∧ line.connectionId = b.connectionId ∧ line.target = b.name
  dcc : ∃ sent, app'.dccLines = app.dccLines ++ sent ∧ ∀ line ∈ sent, ∃ b record,
    buf = some b ∧ app.findConnected w (dccNick b) = some record ∧ line.1 = record.id
  pending : ∃ sent, app'.shrinkOutgoing = app.shrinkOutgoing ++ sent ∧ ∀ p ∈ sent,
    ∃ b, buf = some b ∧ p.bufferId = b.id ∧ p.connId = b.connectionId ∧ p.bufferName = b.name

end App

/-- The text goes to the buffer it names or nowhere, and a buffer that exists is active
afterwards. -/
def WebSafe (w : World) (cr : Crates) (others : OtherHandlers) (app : App) (bufferId text : Str) :
    Prop :=
  let app' := app.webRunCommand w cr others bufferId text
  App.OnlyTo w app app' (app.state.buffers.get? bufferId) ∧
    ∃ id, app'.state.activeBufferId = some id ∧ (app'.state.buffers.get? id).isSome = true

/-- The types of the buffers that plain text can be sent from. -/
def BufferType.takesText (t : BufferType) : Bool := t = .channel || t = .query || t = .dccChat

/-- Where the text of a client is safe: the named buffer exists, and some buffer is active in the
terminal; or the buffer that is active there takes no text. -/
def Addressed (buffers : Table Buffer Buffer.id) (active : Option Str) (bufferId : Str) : Prop :=
  ((buffers.get? bufferId).isSome = true ∧ active ≠ none) ∨
    ∃ buf, active.bind buffers.get? = some buf ∧ buf.bufferType.takesText = false

namespace App

open AppState

variable {w : World} {cr : Crates} {app app' : App}

/-! ### Plain text -/

/-- What is sent inline goes to the buffer. -/
theorem onlyTo_sendInline (app : App) (buf : Buffer) (text : Str) :
    OnlyTo w app (app.sendInline cr w buf text) (some buf) ∧
      app.state.SamePlaces (app.sendInline cr w buf text).state := by
  rw [sendInline]
  have hplaces := samePlaces_e2eEncryptOrPassthrough cr (w.env app.clock) app.state buf.id
    buf.name buf.bufferType text none
  cases hout : e2eEncryptOrPassthrough cr (w.env app.clock) app.state buf.id buf.name
      buf.bufferType text none with
  | mk result st =>
    rw [hout] at hplaces
    have honly := @handsOnly_deliver w app buf.connectionId buf.id buf.name
      (app.state.nickOf buf.connectionId) result st hplaces
    refine ⟨⟨?_, ⟨[], by rw [honly.dccLines, List.append_nil], nofun⟩,
      ⟨[], by rw [honly.shrinkOutgoing, List.append_nil], nofun⟩⟩, honly.places⟩
    cases result with
    | none => exact ⟨[], by rw [List.append_nil]; rfl, nofun⟩
    | some message =>
      obtain ⟨wires, plainEcho⟩ := message
      obtain ⟨sent, notices, hhanded, hnotices, -⟩ := @handsOver_deliver w app buf.connectionId
        buf.id buf.name (app.state.nickOf buf.connectionId) plainEcho wires st
      refine ⟨_, hhanded, fun line hline hcommand => ?_⟩
      rcases List.mem_append.mp hline with hline | hline
      · obtain ⟨wire, -, rfl⟩ := List.mem_map.mp hline
        exact ⟨buf, rfl, rfl, rfl⟩
      · rw [hnotices line hline] at hcommand
        cases hcommand

/-- What changes nothing that is sent, sends to any buffer. -/
theorem onlyTo_of_eq {buf : Option Buffer} (hhanded : app'.handed = app.handed)
    (hdcc : app'.dccLines = app.dccLines) (hpending : app'.shrinkOutgoing = app.shrinkOutgoing) :
    OnlyTo w app app' buf :=
  ⟨⟨[], by rw [hhanded, List.append_nil], nofun⟩, ⟨[], by rw [hdcc, List.append_nil], nofun⟩,
    ⟨[], by rw [hpending, List.append_nil], nofun⟩⟩

theorem onlyTo_sayDcc (app : App) (buf : Buffer) (text : Str) :
    OnlyTo w app (app.sayDcc w (dccNick buf) buf.id .message text text) (some buf) ∧
      app.state.SamePlaces (app.sayDcc w (dccNick buf) buf.id .message text text).state := by
  rw [sayDcc]
  cases hrecord : app.findConnected w (dccNick buf) with
  | none => exact ⟨onlyTo_of_eq rfl rfl rfl, SamePlaces.refl _⟩
  | some record =>
    simp only [sendChatLine]
    by_cases hsends : w.sends app.clock = true
    · simp only [if_pos hsends]
      refine ⟨⟨⟨[], (List.append_nil _).symm, nofun⟩, ⟨[(record.id, text)], rfl, ?_⟩,
        ⟨[], (List.append_nil _).symm, nofun⟩⟩, samePlaces_addMessage _ _ _⟩
      intro line hline
      rw [List.mem_singleton.mp hline]
      exact ⟨buf, record, rfl, hrecord, rfl⟩
    · simp only [if_neg hsends]
      exact ⟨onlyTo_of_eq rfl rfl rfl, SamePlaces.refl _⟩

/-- Plain text goes to the active buffer, if it goes anywhere. -/
theorem onlyTo_handlePlainMessage (app : App) (text : Str) :
    OnlyTo w app (app.handlePlainMessage cr w text) app.state.activeBuffer ∧
      app.state.SamePlaces (app.handlePlainMessage cr w text).state := by
  rw [handlePlainMessage]
  cases hbuf : app.state.activeBuffer with
  | none => exact ⟨onlyTo_of_eq rfl rfl rfl, SamePlaces.refl _⟩
  | some buf =>
    have hinline : OnlyTo w app (if app.qualifiesForShrink w text then
          if w.enqueues app.clock then { app.tick with
            shrinkOutgoing := app.shrinkOutgoing ++ [app.pendingOutgoing w buf text] }
          else sendInline cr w app.tick buf text
        else sendInline cr w app buf text) (some buf) ∧
        app.state.SamePlaces (if app.qualifiesForShrink w text then
          if w.enqueues app.clock then { app.tick with
            shrinkOutgoing := app.shrinkOutgoing ++ [app.pendingOutgoing w buf text] }
          else sendInline cr w app.tick buf text
        else sendInline cr w app buf text).state := by
      split_ifs
      · refine ⟨⟨⟨[], (List.append_nil _).symm, nofun⟩, ⟨[], (List.append_nil _).symm, nofun⟩,
          ⟨[app.pendingOutgoing w buf text], rfl, fun p hp => ?_⟩⟩, SamePlaces.refl _⟩
        rw [List.mem_singleton.mp hp]
        exact ⟨buf, rfl, rfl, rfl, rfl⟩
      · obtain ⟨hto, hplaces⟩ := @onlyTo_sendInline w cr app.tick buf text
        exact ⟨⟨hto.lines, hto.dcc, hto.pending⟩, hplaces⟩
      · exact onlyTo_sendInline app buf text
    simp only
    split
    · exact onlyTo_sayDcc app buf text
    · exact hinline
    · exact hinline
    · exact ⟨onlyTo_of_eq rfl rfl rfl, SamePlaces.refl _⟩

end App

/-! ### Where the text is safe -/

section Safe

open AppState

variable {w : World} {cr : Crates}

/-- Plain text, submitted. -/
theorem handleSubmit_plain (others : OtherHandlers) (app : App) {text : Str}
    (hplain : parseCommand w text = none) :
    App.OnlyTo w app (handleSubmit w cr others app text).1 app.state.activeBuffer ∧
      app.state.SamePlaces (handleSubmit w cr others app text).1.state := by
  rw [handleSubmit, hplain]
  simp only
  split_ifs
  · exact ⟨App.onlyTo_of_eq rfl rfl rfl, SamePlaces.refl _⟩
  · exact App.onlyTo_handlePlainMessage app text

/-- Nothing is sent from a buffer that takes no text, nor without a buffer. -/
theorem handleSubmit_of_no_text (others : OtherHandlers) (app : App) {text : Str}
    (hplain : parseCommand w text = none)
    (hbuf : ∀ buf, app.state.activeBuffer = some buf → buf.bufferType.takesText = false) :
    (handleSubmit w cr others app text).1 = app := by
  rw [handleSubmit, hplain]
  simp only
  split_ifs
  · rfl
  · rw [talk, Talk.run, App.handlePlainMessage]
    cases hactive : app.state.activeBuffer with
    | none => rfl
    | some buf =>
      have htype := hbuf buf hactive
      simp only
      split
      · simp_all [BufferType.takesText]
      · simp_all [BufferType.takesText]
      · simp_all [BufferType.takesText]
      · rfl

theorem webSafe_of_addressed {others : OtherHandlers} {app : App} {bufferId text : Str}
    (h : Addressed app.state.buffers app.state.activeBufferId bufferId)
    (hplain : parseCommand w text = none) : WebSafe w cr others app bufferId text := by
  have hprior : ∃ p, app.state.activeBufferId = some p := by
    rcases h with ⟨-, hactive⟩ | ⟨buf, hbuf, -⟩
    · exact Option.ne_none_iff_exists'.mp hactive
    · obtain ⟨p, hp, -⟩ := Option.bind_eq_some_iff.mp hbuf
      exact ⟨p, hp⟩
  obtain ⟨p, hp⟩ := hprior
  by_cases hnamed : (app.state.buffers.get? bufferId).isSome = true
  · obtain ⟨buf, hget⟩ := Option.isSome_iff_exists.mp hnamed
    have hset : app.setActiveBufferSilent bufferId =
        { app with state := { app.state with activeBufferId := some bufferId } } := if_pos hnamed
    obtain ⟨hto, hplaces⟩ := @handleSubmit_plain w cr others (app.setActiveBufferSilent bufferId)
      text hplain
    have hactive : (app.setActiveBufferSilent bufferId).state.activeBuffer = some buf := by
      rw [hset]
      exact hget
    rw [hactive] at hto
    rw [WebSafe, App.webRunCommand, hp, hget]
    generalize (handleSubmit w cr others (app.setActiveBufferSilent bufferId) text).1 = app'
      at hto hplaces
    rw [hset] at hto hplaces
    simp only [App.setActiveBufferSilent]
    by_cases hback : (app'.state.buffers.get? p).isSome = true
    · rw [if_pos hback]
      exact ⟨⟨hto.lines, hto.dcc, hto.pending⟩, p, rfl, hback⟩
    · rw [if_neg hback]
      refine ⟨⟨hto.lines, hto.dcc, hto.pending⟩, bufferId, hplaces.active, ?_⟩
      rw [hplaces.exist]
      exact hnamed
  · obtain ⟨buf, hbuf, htype⟩ := h.resolve_left (fun hleft => hnamed hleft.1)
    rw [hp, Option.bind_some] at hbuf
    have hset : app.setActiveBufferSilent bufferId = app := if_neg hnamed
    have hsame : (handleSubmit w cr others app text).1 = app := by
      refine handleSubmit_of_no_text others app hplain (fun buf' hbuf' => ?_)
      rw [AppState.activeBuffer, hp, Option.bind_some, hbuf, Option.some.injEq] at hbuf'
      rw [← hbuf']
      exact htype
    have hback : (app.state.buffers.get? p).isSome = true := by rw [hbuf]; rfl
    rw [WebSafe, App.webRunCommand, hp, hset, hsame]
    simp only [App.setActiveBufferSilent, if_pos hback]
    exact ⟨App.onlyTo_of_eq rfl rfl rfl, p, rfl, hback⟩

end Safe

/-! ### Where it is not -/

namespace Sample

/-- A client with given buffers, whose connections and DCC sessions take every line. -/
def eagerClient (buffers : Table Buffer Buffer.id) (active : Option Str) (buf : Buffer) : App where
  state :=
    { connections := Table.empty
      buffers := buffers
      activeBufferId := active
      scrollbackLimit := 0
      shrinkMinUrlLength := 0
      pendingE2eSends := []
      e2eManager := none }
  aliases := Table.empty
  shrink := ⟨false, false, false⟩
  logBrowserMode := false
  ircHandles := [buf.connectionId]
  dcc := [⟨str "1", App.dccNick buf, buf.connectionId, true⟩]
  shrinkOutgoing := []
  handed := []
  dccLines := []
  clock := 0

/-- It sends a text from an active buffer that takes one. -/
theorem eagerClient_sends (others : OtherHandlers) (buffers : Table Buffer Buffer.id) {p : Str}
    {buf : Buffer} (hbuf : buffers.get? p = some buf) (htype : buf.bufferType.takesText = true) :
    let app' := (handleSubmit world sample others (eagerClient buffers (some p) buf) (str "x")).1
    (∃ line ∈ app'.handed, line.command = .privmsg) ∨ app'.dccLines = [(str "1", str "x")] := by
  intro app'
  have hactive : (eagerClient buffers (some p) buf).state.activeBuffer = some buf := hbuf
  have hplain : parseCommand world (str "x") = none := rfl
  have hsubmit : app' = (eagerClient buffers (some p) buf).handlePlainMessage sample world
      (str "x") := by
    simp only [app', handleSubmit, hplain]
    rfl
  by_cases hdcc : buf.bufferType = .dccChat
  · right
    have hfound : (eagerClient buffers (some p) buf).findConnected world (App.dccNick buf) =
        some ⟨str "1", App.dccNick buf, buf.connectionId, true⟩ := by
      simp [App.findConnected, eagerClient]
    rw [hsubmit, App.handlePlainMessage, hactive]
    simp only [hdcc]
    rw [show (Text.stripPrefix ['='] buf.name).getD buf.name = App.dccNick buf from rfl,
      App.sayDcc, hfound]
    rfl
  · left
    have hsendable : buf.bufferType.Sendable := by
      cases h : buf.bufferType <;> simp_all [BufferType.takesText, BufferType.Sendable]
    have hwires : e2eEncryptOrPassthrough sample (world.env 0)
        (eagerClient buffers (some p) buf).state buf.id buf.name buf.bufferType (str "x") none =
          (some ([str "x"], str "x"), (eagerClient buffers (some p) buf).state) := rfl
    rw [hsubmit, handlePlainMessage_of_sendable hactive hsendable]
    have hshort : (eagerClient buffers (some p) buf).qualifiesForShrink world (str "x") = false :=
      rfl
    rw [hshort, if_neg Bool.false_ne_true, App.sendInline]
    rw [show (eagerClient buffers (some p) buf).clock = 0 from rfl, hwires]
    obtain ⟨sent, notices, hhanded, -, -, hnil, -⟩ := @App.handsOver_deliver world
      (eagerClient buffers (some p) buf) buf.connectionId buf.id buf.name
      ((eagerClient buffers (some p) buf).state.nickOf buf.connectionId) (str "x") [str "x"]
      (eagerClient buffers (some p) buf).state
    have hsent : sent ≠ [] := by
      rw [Ne, hnil]
      rintro (hwires | hhandle | hsends)
      · cases hwires
      · exact hhandle (List.mem_singleton_self _)
      · cases hsends
    obtain ⟨wire, rest, rfl⟩ := List.exists_cons_of_ne_nil hsent
    exact ⟨⟨buf.connectionId, .privmsg, buf.name, wire⟩, by rw [hhanded]; simp, rfl⟩

/-- Text for a buffer that does not exist goes to the active buffer. -/
theorem eagerClient_not_safe {buffers : Table Buffer Buffer.id} {p bufferId : Str} {buf : Buffer}
    (hmissing : buffers.get? bufferId = none) (hbuf : buffers.get? p = some buf)
    (htype : buf.bufferType.takesText = true) :
    ¬ WebSafe world sample (fun _ app => app) (eagerClient buffers (some p) buf) bufferId
      (str "x") := by
  rintro ⟨⟨⟨sent, hsent, hlines⟩, ⟨chat, hchat, hdcc⟩, -⟩, -⟩
  have hset : (eagerClient buffers (some p) buf).setActiveBufferSilent bufferId =
      eagerClient buffers (some p) buf := by
    refine if_neg ?_
    show ¬ (buffers.get? bufferId).isSome = true
    rw [hmissing]
    exact Bool.false_ne_true
  have hkeeps : ∀ app : App, (app.setActiveBufferSilent p).handed = app.handed ∧
      (app.setActiveBufferSilent p).dccLines = app.dccLines := by
    intro app
    rw [App.setActiveBufferSilent]
    split_ifs
    · exact ⟨rfl, rfl⟩
    · exact ⟨rfl, rfl⟩
  rw [App.webRunCommand, hset] at hsent hchat
  rcases eagerClient_sends (fun _ app => app) buffers hbuf htype with
    ⟨line, hline, hcommand⟩ | hline
  · rw [← (hkeeps _).1] at hline
    have hmem : line ∈ sent := by
      rw [show sent = [] ++ sent from rfl]
      exact hsent ▸ hline
    obtain ⟨b, hb, -⟩ := hlines line hmem hcommand
    exact Option.some_ne_none b (hb.symm.trans hmissing)
  · rw [← (hkeeps _).2] at hline
    have hmem : (str "1", str "x") ∈ chat := by
      rw [show chat = [] ++ chat from rfl]
      refine hchat ▸ ?_
      exact hline ▸ List.mem_singleton_self _
    obtain ⟨b, record, hb, -⟩ := hdcc _ hmem
    exact Option.some_ne_none b (hb.symm.trans hmissing)

end Sample

open Sample in
/-- Where every text is safe, it is addressed. -/
theorem addressed_of_webSafe {buffers : Table Buffer Buffer.id} {active : Option Str}
    {bufferId : Str}
    (h : ∀ (w : World) (cr : Crates) (others : OtherHandlers) (app : App) (text : Str),
      app.state.buffers = buffers → app.state.activeBufferId = active →
      parseCommand w text = none → WebSafe w cr others app bufferId text) :
    Addressed buffers active bufferId := by
  have hsafe := fun buf => h world sample (fun _ app => app) (eagerClient buffers active buf)
    (str "x") rfl rfl rfl
  cases active with
  | none =>
    obtain ⟨-, id, hid, -⟩ := hsafe (buffer .channel (str "#rust") none)
    cases hid
  | some p =>
    by_cases hnamed : (buffers.get? bufferId).isSome = true
    · exact Or.inl ⟨hnamed, nofun⟩
    · have hset : ∀ buf, (eagerClient buffers (some p) buf).setActiveBufferSilent bufferId =
          eagerClient buffers (some p) buf := fun buf => if_neg hnamed
      cases hbuf : buffers.get? p with
      | none =>
        have hsubmit := fun buf => @handleSubmit_of_no_text world sample (fun _ app => app)
          (eagerClient buffers (some p) buf) (str "x") rfl (fun buf' hbuf' => by
            rw [AppState.activeBuffer] at hbuf'
            exact absurd (hbuf.symm.trans hbuf') nofun)
        obtain ⟨-, id, hid, hexists⟩ := hsafe (buffer .channel (str "#rust") none)
        have hrun :
            (eagerClient buffers (some p) (buffer .channel (str "#rust") none)).webRunCommand
            world sample (fun _ app => app) bufferId (str "x") =
            eagerClient buffers (some p) (buffer .channel (str "#rust") none) := by
          have hgone : ((eagerClient buffers (some p)
              (buffer .channel (str "#rust") none)).state.buffers.get? p).isSome = false := by
            show (buffers.get? p).isSome = false
            rw [hbuf]
            rfl
          rw [App.webRunCommand, hset, hsubmit]
          exact if_neg (Bool.eq_false_iff.mp hgone)
        rw [hrun] at hid hexists
        have hp : p = id := Option.some.inj hid
        have hmissing : (buffers.get? id).isSome = true := hexists
        rw [← hp, hbuf] at hmissing
        cases hmissing
      | some buf =>
        cases htype : buf.bufferType.takesText with
        | false => exact Or.inr ⟨buf, by rw [Option.bind_some, hbuf], htype⟩
        | true =>
          exact absurd (hsafe buf)
            (eagerClient_not_safe (Option.not_isSome_iff_eq_none.mp hnamed) hbuf htype)

/-- The text of a web client is safe whatever the client sends and however its connections take
it, exactly where it is addressed. -/
theorem webSafe_iff (buffers : Table Buffer Buffer.id) (active : Option Str) (bufferId : Str) :
    (∀ (w : World) (cr : Crates) (others : OtherHandlers) (app : App) (text : Str),
      app.state.buffers = buffers → app.state.activeBufferId = active →
      parseCommand w text = none → WebSafe w cr others app bufferId text) ↔
      Addressed buffers active bufferId := by
  refine ⟨addressed_of_webSafe, fun h w cr others app text hbuffers hactive hplain => ?_⟩
  subst hbuffers hactive
  exact webSafe_of_addressed h hplain

open Sample in
/-- With `#rust` active in the terminal, a text for a channel that was left goes to `#rust`. -/
theorem text_for_left_channel :
    ¬ WebSafe world sample (fun _ app => app)
      (eagerClient (Table.replace Table.empty (buffer .channel (str "#rust") none))
        (some (str "libera/#rust")) (buffer .channel (str "#rust") none))
      (str "libera/#gone") (str "x") := by
  have hrust : (Table.replace Table.empty (buffer .channel (str "#rust") none) :
      Table Buffer Buffer.id).get? (str "libera/#rust") =
      some (buffer .channel (str "#rust") none) :=
    Table.get?_replace_self _ _
  exact eagerClient_not_safe rfl hrust rfl

end Repartee
