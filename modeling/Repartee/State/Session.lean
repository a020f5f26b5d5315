import Repartee.State.Events

/-!
# Sessions

The steps that change the buffer store: the operations of the user interface, incoming messages
one by one or as a completed batch of `irc/batch.rs`, messages that the link shortener delivers
later, and the netsplit summaries.

## Main definitions

- `State.processNetsplitBatch`, `State.processNetjoinBatch`: completed batches
- `Store.Op`, `Store.step`: one step of a session
- `Store.run`: a session; none after a panic
-/

set_option autoImplicit false

namespace Repartee

namespace Store

namespace State

variable (h : Host) (s : State)

/-! ### Batches -/

/-- Append an element that is not in the list. -/
def appendNew {α : Type} [DecidableEq α] (l : List α) (a : α) : List α :=
  if a ∈ l then l else l ++ [a]

/-- The state, the nicks and the affected buffers while a batch is processed. -/
abbrev BatchProgress := State × List Str × List Str

/-- A QUIT of a NETSPLIT batch. -/
def splitQuit (connId : Str) (p : BatchProgress) (msg : IrcMessage) : BatchProgress :=
  match msg.command, extractNick msg.sender with
  | .quit _, some nick =>
    let shared := p.1.buffersWith h connId nick
    (p.1.removeNickFrom h shared (h.toLowercase nick), appendNew p.2.1 nick,
      shared.foldl appendNew p.2.2)
  | _, _ => p

/-- The servers of a batch. -/
def batchServers (batch : BatchInfo) : Str × Str :=
  ((batch.params[0]?).getD (str "???"), (batch.params[1]?).getD (str "???"))

/-- Post the summary of a batch. -/
def postSummary (key title verb : Str) (batch : BatchInfo) (p : BatchProgress) : State :=
  if p.2.1 = [] then p.1
  else
    let (server₁, server₂) := batchServers batch
    p.1.eventIn h p.2.2 (keyedEvent key
      (title ++ server₁ ++ [' ', Char.ofNat 0x21C4, ' '] ++ server₂ ++ verb ++
        formatNickList p.2.1) [server₁, server₂])

/-- `process_netsplit_batch` -/
def processNetsplitBatch (connId : Str) (batch : BatchInfo) : State :=
  postSummary h (str "netsplit") (str "Netsplit ") (str " quits: ") batch
    (batch.messages.foldl (splitQuit h connId) (s, [], []))

/-- A JOIN of a NETJOIN batch. -/
def splitJoin (connId : Str) (p : BatchProgress) (msg : IrcMessage) : BatchProgress :=
  match msg.command with
  | .join channel account _ =>
    let nick := (extractNickUserhost msg.sender).1
    let bufferId := makeBufferId h connId channel
    (p.1.addNick h bufferId (joinedEntry nick (account.bind loggedIn)), appendNew p.2.1 nick,
      appendNew p.2.2 bufferId)
  | _ => p

/-- `process_netjoin_batch` -/
def processNetjoinBatch (connId : Str) (batch : BatchInfo) : State :=
  postSummary h (str "netjoin") (str "Netsplit over ") (str " joins: ") batch
    (batch.messages.foldl (splitJoin h connId) (s, [], []))

/-! ### Connections -/

/-- `handle_connected` -/
def handleConnected (connId : Str) : State :=
  let s := s.modifyConnection connId (fun c =>
    { c with isupport := Table.empty, silentWhoChannels := [], silentBanlistChannels := [] })
  s.event h (makeBufferId h connId (s.labelOf connId))
    ⟨str "Connected to " ++ s.labelOf connId, false, some (str "connected"), none⟩

/-- `handle_disconnected`, with the text about the next attempt to connect. -/
def handleDisconnected (connId : Str) (error : Option Str) (reconnect : Str) : State :=
  let s := s.modifyBuffersOf connId (fun b =>
    if b.bufferType = .channel then { b with users := Table.empty, lastSpeakers := [] } else b)
  s.event h (makeBufferId h connId (s.labelOf connId))
    ⟨str "Disconnected from " ++ s.labelOf connId ++
        (error.map (fun e => str ": " ++ e)).getD [] ++ reconnect,
      false, some (str "disconnected"), none⟩

/-- The netsplit summaries that are due, in their buffers. -/
def netsplitTick (now : Nat) : State :=
  let (messages, netsplit) := s.netsplitState.tick h.toLowercase now
  messages.foldl (fun s m => s.eventIn h m.bufferIds (plainEvent m.text))
    { s with netsplitState := netsplit }

/-- `create_mentions_buffer`, with the mentions that are loaded. -/
def createMentionsBuffer (loaded : List Message) : State :=
  if s.hasBuffer mentionsId then s
  else
    s.addBuffer { freshBuffer h [] .mentions (str "Mentions") with
      id := mentionsId
      messages := loaded }

end State

/-! ### Steps -/

inductive Op where
  | connect (connId : Str) (c : Connection)
  | addBuffer (connId : Str) (bufferType : BufferType) (name : Str)
  | createMentionsBuffer (loaded : List Message)
  | removeBuffer (id : Str)
  | setActive (id : Str)
  | nextBuffer
  | prevBuffer
  /-- An incoming message, whose event lines a script may hide. -/
  | irc (connId : Str) (msg : IrcMessage) (hidden : Bool) (a : Arrival)
  | netsplitBatch (connId : Str) (batch : BatchInfo)
  | netjoinBatch (connId : Str) (batch : BatchInfo)
  | connected (connId : Str)
  | disconnected (connId : Str) (error : Option Str) (reconnect : Str)
  /-- The link shortener delivers a message. -/
  | deliver (bufferId : Str) (m : Message)
  | tick (now : Nat)

variable (h : Host)

/-- The handler runs while the flag of the script is set. -/
def dispatch (s : State) (connId : Str) (msg : IrcMessage) (hidden : Bool) (a : Arrival) :
    Option State :=
  (State.handleIrcMessage h { s with suppressEventDisplay := hidden } connId msg a).map
    (fun s' => { s' with suppressEventDisplay := false })

def step (s : State) : Op → Option State
  | .connect connId c => some { s with connections := s.connections.insert connId c }
  | .addBuffer connId bufferType name => some (s.addBuffer (freshBuffer h connId bufferType name))
  | .createMentionsBuffer loaded => some (s.createMentionsBuffer h loaded)
  | .removeBuffer id => some (s.removeBuffer h id)
  | .setActive id => some (s.setActiveBuffer id)
  | .nextBuffer => some (s.nextBuffer h)
  | .prevBuffer => some (s.prevBuffer h)
  | .irc connId msg hidden a => dispatch h s connId msg hidden a
  | .netsplitBatch connId batch => some (s.processNetsplitBatch h connId batch)
  | .netjoinBatch connId batch => some (s.processNetjoinBatch h connId batch)
  | .connected connId => some (s.handleConnected h connId)
  | .disconnected connId error reconnect => some (s.handleDisconnected h connId error reconnect)
  | .deliver bufferId m => some (s.addMessageUnshrunk h bufferId m)
  | .tick now => some (s.netsplitTick h now)

/-- A session; it ends with a panic. -/
def run (s : State) : List Op → Option State
  | [] => some s
  | op :: ops => (step h s op).bind (fun s' => run s' ops)

/-- Every step of a session meets a condition in the state that it is taken in. -/
def Meets (G : State → Op → Prop) (s : State) : List Op → Prop
  | [] => True
  | op :: ops => G s op ∧ ∀ s', step h s op = some s' → Meets G s' ops

instance decidableMeets (G : State → Op → Prop) [∀ s op, Decidable (G s op)] :
    (s : State) → (ops : List Op) → Decidable (Meets h G s ops)
  | _, [] => isTrue trivial
  | s, op :: ops =>
    match hstep : step h s op with
    | none => decidable_of_iff (G s op)
        ⟨fun hg => ⟨hg, fun s' hs' => by rw [hstep] at hs'; cases hs'⟩, fun hm => hm.1⟩
    | some s₁ =>
      have : Decidable (Meets h G s₁ ops) := decidableMeets G s₁ ops
      decidable_of_iff (G s op ∧ Meets h G s₁ ops)
        ⟨fun hm => ⟨hm.1, fun s' hs' => by
          rw [hstep, Option.some.injEq] at hs'
          exact hs' ▸ hm.2⟩, fun hm => ⟨hm.1, hm.2 s₁ hstep⟩⟩

variable {h}

theorem run_append {s : State} {ops ops' : List Op} :
    run h s (ops ++ ops') = (run h s ops).bind (fun s' => run h s' ops') := by
  induction ops generalizing s with
  | nil => rfl
  | cons op ops ih =>
    rw [List.cons_append, run, run]
    cases step h s op with
    | none => rfl
    | some s' => exact ih

theorem Meets.left {G : State → Op → Prop} {s : State} {pre post : List Op}
    (hmeets : Meets h G s (pre ++ post)) : Meets h G s pre := by
  induction pre generalizing s with
  | nil => trivial
  | cons op pre ih => exact ⟨hmeets.1, fun s₁ hs₁ => ih (hmeets.2 s₁ hs₁)⟩

theorem Meets.right {G : State → Op → Prop} {s s' : State} {pre post : List Op}
    (hmeets : Meets h G s (pre ++ post)) (hpre : run h s pre = some s') : Meets h G s' post := by
  induction pre generalizing s with
  | nil =>
    cases hpre
    exact hmeets
  | cons op pre ih =>
    obtain ⟨s₁, hs₁, hrun⟩ := Option.bind_eq_some_iff.mp hpre
    exact ih (hmeets.2 s₁ hs₁) hrun

theorem Meets.at {G : State → Op → Prop} {s s' : State} {pre post : List Op} {op : Op}
    (hmeets : Meets h G s (pre ++ op :: post)) (hpre : run h s pre = some s') : G s' op :=
  (hmeets.right hpre).1

/-- **Invariant rule**: what every step that meets the condition keeps holds in every session
whose steps all meet it. -/
theorem Meets.invariant {G : State → Op → Prop} {P : State → Prop}
    (hstep : ∀ s op s', P s → G s op → step h s op = some s' → P s') {s s' : State}
    {ops : List Op} (hs : P s) (hmeets : Meets h G s ops) (hrun : run h s ops = some s') :
    P s' := by
  induction ops generalizing s with
  | nil =>
    cases hrun
    exact hs
  | cons op ops ih =>
    obtain ⟨s₁, hs₁, hrun⟩ := Option.bind_eq_some_iff.mp hrun
    exact ih (hstep s op s₁ hs hmeets.1 hs₁) (hmeets.2 s₁ hs₁) hrun

/-! ### Samples -/

/-- A host that lowercases ASCII letters. -/
def sampleHost : Host where
  toLowercase := List.map Char.toLower
  hashText := List.length
  isMatch := fun mask text => decide (mask = text)
  mentionLine := fun _ _ nick body => nick ++ ' ' :: body
  replyLines := fun _ _ => []

/-- The start of a session without flood protection, ignores and limits. -/
def sampleStart : State := State.init false [] [] 0

/-- A connection on which our nick is `me`. -/
def sampleConnect (connId : Str) : Op :=
  .connect connId ⟨connId, str "me", Table.empty, [], [], []⟩

def sampleMessage (nick : Str) (command : IrcMessage.Command) : IrcMessage :=
  ⟨none, some (.nickname nick (str "user") (str "host")), command⟩

/-- A message arrives, without surroundings. -/
def sampleIrc (connId nick : Str) (command : IrcMessage.Command) : Op :=
  .irc connId (sampleMessage nick command) false ⟨0, none, none, false⟩

end Store

end Repartee
