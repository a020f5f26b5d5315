import Repartee.Dcc.Manager

/-!
# Consent to DCC chats

What the client does on a DCC CHAT request (`app/irc.rs`, `app/dcc.rs`) and on `/dcc chat`
(`commands/handlers_dcc.rs`). A connection is started, or a listener opened, in four places; all of
them look for a record in one table that holds the requests of peers and the offers of the user.

## Main definitions

- `Client`, `Client.step`: the client, and what it starts in a step
- `Ledger`: the requests that were received and the offers that were made, from the steps alone
- `Consented`: what a started connection has to answer to
- `Careful`: a step in which each search finds a record of the right kind

## Main results

- `consented_run`: what is started in a run of careful steps was consented to
- `strangers_token_connects`: a token of a stranger's request starts a connection
-/

set_option autoImplicit false

namespace Repartee.Dcc

open Store (Host)

/-- A DCC CHAT request and its sender. -/
structure Request where
  connId : Str
  nick : Str
  ident : Str
  host : Str
  addr : Web.IpAddr
  port : Nat
  token : Option Nat

/-- What a connection is made to, or a listener opened for. -/
abbrev Target := Option (Web.IpAddr × Nat)

/-- Where a request is answered: at its address, or, if it is passive, at a listener. -/
def target (addr : Web.IpAddr) (port : Nat) (token : Option Nat) : Target :=
  if port = 0 ∧ token.isSome = true then none else some (addr, port)

/-- A connection that is started, or a listener that is opened: for whom, and on which connection
the peer is told the address of a listener. -/
structure Start where
  connId : Str
  nick : Str
  target : Target
  told : Option Str

inductive Effect where
  | start (s : Start)
  /-- An offer of the user; a passive one has a token. -/
  | offer (connId nick : Str) (token : Option Nat)

/-- What a step finds: the order of the map, the address and the port of a listener, whether the
active connection is up and takes the message, and a random number. -/
structure Surroundings where
  order : Order
  ownIp : Web.IpAddr
  bound : Option Nat
  online : Bool
  sent : Bool
  random : Nat

/-- `PASSIVE_FAKE_IP` -/
def passiveFakeIp : Web.IpAddr := .v4 ⟨1, 1, 1, 1⟩

/-- The records, the connection of the active buffer, and the clock. -/
structure Client where
  dcc : DccManager
  active : Option Str
  now : Nat

namespace Client

variable (h : Host) (c : Client) (env : Surroundings)

/-! ### Commands -/

/-- The connection on which the peer of a listener is told of it. -/
def told : Option Str := if env.online then c.active else none

/-- `accept_dcc_chat` -/
def accept (id : Str) : Client × List Effect :=
  match c.dcc.records.lookup id with
  | none => (c, [])
  | some r =>
    if r.port = 0 ∧ r.passiveToken.isSome = true then
      match env.bound with
      | none => (c, [])
      | some _ =>
        if env.online = true ∧ env.sent = false then
          ({ c with dcc := c.dcc.modifyRecord id (fun r => { r with state := .listening }) }, [])
        else
          ({ c with dcc := c.dcc.connect id (fun r => { r with state := .listening }) },
            [.start ⟨r.connId, r.nick, none, c.told env⟩])
    else
      ({ c with dcc := c.dcc.connect id (fun r => { r with state := .connecting }) },
        [.start ⟨r.connId, r.nick, some (r.addr, r.port), none⟩])

/-- The record of an offer of the user. -/
def ownOffer (connId nick : Str) (addr : Web.IpAddr) (port : Nat) (state : DccState)
    (token : Option Nat) : DccRecord where
  id := []
  nick := nick
  connId := connId
  addr := addr
  port := port
  state := state
  passiveToken := token
  created := c.now
  ident := []
  host := []
  session := 0
  ours := true

/-- `initiate_dcc_chat` -/
def initiate (nick : Str) (isPassive : Bool) : Client × List Effect :=
  if c.dcc.maxConnections ≤ c.dcc.records.rows.length then (c, [])
  else
    match c.active with
    | none => (c, [])
    | some connId =>
      if isPassive then
        let token := some (env.random % 64)
        let dcc := c.dcc.register h (c.ownOffer connId nick passiveFakeIp 0 .waitingUser token)
        ({ c with dcc := dcc }, [.offer connId nick token])
      else
        match env.bound with
        | none => (c, [])
        | some port =>
          let id := c.dcc.generateId h nick
          let dcc := c.dcc.register h (c.ownOffer connId nick env.ownIp port .listening none)
          if env.online = true ∧ env.sent = false then
            ({ c with dcc := dcc }, [.offer connId nick none])
          else
            ({ c with dcc := dcc.connect id (fun r => r) },
              [.offer connId nick none, .start ⟨connId, nick, none, c.told env⟩])

/-- The record that `/dcc chat` accepts. -/
def chosen (isPassive : Bool) (nicks : List Str) : Option DccRecord :=
  if isPassive then none
  else
    match nicks with
    | [] => c.dcc.findLatestPending env.order
    | nick :: _ => c.dcc.findPending h env.order nick

/-- Whether the user asks for a passive offer, and the nicks behind. -/
def chatArgs (args : List Str) : Bool × List Str :=
  if args.head? = some (str "-passive") then (true, args.tail) else (false, args)

/-- `cmd_dcc_chat` -/
def cmdDccChat (args : List Str) : Client × List Effect :=
  let (isPassive, nicks) := chatArgs args
  match c.chosen h env isPassive nicks with
  | some r => c.accept env r.id
  | none =>
    match nicks with
    | [] => (c, [])
    | nick :: _ => c.initiate h env nick isPassive

/-! ### Requests -/

/-- The record that a request answers: one with its token, if it names a port. -/
def answered (q : Request) : Option (Str × DccRecord) :=
  match q.token with
  | some token =>
    if 0 < q.port then c.dcc.find? env.order (fun r => decide (r.passiveToken = some token))
    else none
  | none => none

/-- The record that a request crosses: a listener for its nick. -/
def crossed (q : Request) : Option (Str × DccRecord) :=
  c.dcc.find? env.order
    (fun r => eqIgnoreAsciiCase r.nick q.nick && decide (r.state = .listening))

/-- The records without the crossed one, and whether the request is accepted at once. -/
def screened (q : Request) : DccManager × Bool :=
  match c.crossed env q with
  | some e => (c.dcc.drop e.1, true)
  | none => (c.dcc, c.dcc.shouldAutoAccept h q.nick q.ident q.host q.port)

/-- The record of a request. -/
def requestRecord (q : Request) : DccRecord where
  id := []
  nick := q.nick
  connId := q.connId
  addr := q.addr
  port := q.port
  state := .waitingUser
  passiveToken := q.token
  created := c.now
  ident := q.ident
  host := q.host
  session := 0
  ours := false

/-- `IncomingRequest` of `handle_dcc_event`, unless a script takes it. -/
def incomingRequest (q : Request) : Client × List Effect :=
  let (dcc, auto) := c.screened h env q
  if dcc.maxConnections ≤ dcc.records.rows.length then ({ c with dcc := dcc }, [])
  else
    let c := { c with dcc := dcc.register h (c.requestRecord q) }
    if auto then c.cmdDccChat h env [q.nick] else (c, [])

/-- The part of `handle_irc_event` about a request. -/
def handleRequest (q : Request) (hidden : Bool) : Client × List Effect :=
  match c.answered env q with
  | some e =>
    let write := fun r : DccRecord =>
      { r with addr := q.addr, port := q.port, state := .connecting }
    ({ c with dcc := c.dcc.connect e.1 write },
      [.start ⟨q.connId, q.nick, some (q.addr, q.port), none⟩])
  | none => if hidden then (c, []) else c.incomingRequest h env q

/-! ### Steps -/

inductive Act where
  | request (q : Request) (hidden : Bool) (env : Surroundings)
  | chat (args : List Str) (env : Surroundings)
  /-- `/dcc close`, `/dcc reject`, and the reply that a nick does not exist -/
  | close (order : Order) (nick : Str)
  | connected (id : Str)
  /-- A task reports the end of its chat, or an error. -/
  | ended (id : Str)
  | nick (order : Order) (connId oldNick newNick : Str)
  | purge (order : Order)
  | switchTo (connId : Option Str)
  | wait (seconds : Nat)
  | configure (timeoutSecs : Nat) (lowports : Bool) (masks : List Str) (maxConnections : Nat)

def step : Act → Client × List Effect
  | .request q hidden env => c.handleRequest h env q hidden
  | .chat args env => c.cmdDccChat h env args
  | .close order nick => ({ c with dcc := (c.dcc.closeByNick h order nick).1 }, [])
  | .connected id =>
    ({ c with dcc := c.dcc.modifyRecord id (fun r => { r with state := .connected }) }, [])
  | .ended id => ({ c with dcc := c.dcc.drop id }, [])
  | .nick order _ oldNick newNick =>
    ({ c with dcc := (c.dcc.updateNick h order oldNick newNick).1 }, [])
  | .purge order => ({ c with dcc := (c.dcc.purgeExpired order c.now).1 }, [])
  | .switchTo connId => ({ c with active := connId }, [])
  | .wait seconds => ({ c with now := c.now + seconds }, [])
  | .configure timeoutSecs lowports masks maxConnections =>
    ({ c with dcc :=
        { c.dcc with
          timeoutSecs := timeoutSecs
          autoacceptLowports := lowports
          autochatMasks := masks
          maxConnections := maxConnections } }, [])

end Client

/-! ### Consent -/

/-- An offer that the user has made. -/
structure OwnOffer where
  connId : Str
  nick : Str
  token : Option Nat

/-- The requests that were received and the offers that were made; both follow the nicks of the
peers on their connection. -/
structure Ledger where
  theirs : List Request
  ours : List OwnOffer

namespace Ledger

variable (h : Host)

def noteEffect (l : Ledger) : Effect → Ledger
  | .start _ => l
  | .offer connId nick token => { l with ours := l.ours ++ [⟨connId, nick, token⟩] }

/-- The nick of a peer after a change of nick on a connection. -/
def renamed (connId oldNick newNick : Str) (connId' nick : Str) : Str :=
  if connId' = connId ∧ h.toLowercase nick = h.toLowercase oldNick then newNick else nick

def noteAct (l : Ledger) : Client.Act → Ledger
  | .request q _ _ => { l with theirs := l.theirs ++ [q] }
  | .nick _ connId oldNick newNick =>
    { theirs := l.theirs.map
        (fun q => { q with nick := renamed h connId oldNick newNick q.connId q.nick })
      ours := l.ours.map
        (fun o => { o with nick := renamed h connId oldNick newNick o.connId o.nick }) }
  | _ => l

end Ledger

/-- A client with its ledger. -/
structure Session where
  client : Client
  ledger : Ledger

namespace Session

variable (h : Host)

/-- What a step starts. -/
def effects (σ : Session) (act : Client.Act) : List Effect := (σ.client.step h act).2

def step (σ : Session) (act : Client.Act) : Session where
  client := (σ.client.step h act).1
  ledger := (σ.effects h act).foldl Ledger.noteEffect (σ.ledger.noteAct h act)

def start : Session := ⟨⟨DccManager.new, none, 0⟩, ⟨[], []⟩⟩

end Session

/-- A connection answers a request: it is made to its peer and address, or its peer is told of the
listener. -/
structure Start.Answers (h : Host) (s : Start) (q : Request) : Prop where
  connId : s.connId = q.connId
  nick : h.toLowercase s.nick = h.toLowercase q.nick
  target : s.target = Dcc.target q.addr q.port q.token
  told : ∀ connId, s.told = some connId → connId = q.connId

/-- The user has offered a chat to the sender of a request. -/
def Ledger.Offered (h : Host) (l : Ledger) (q : Request) (token : Option Nat) : Prop :=
  ∃ o ∈ l.ours, o.connId = q.connId ∧ h.toLowercase o.nick = h.toLowercase q.nick ∧
    o.token = token

/-- Why a step may start a connection or open a listener. -/
inductive Consented (h : Host) (σ : Session) : Client.Act → Start → Prop
  /-- The user accepts a request that was received. -/
  | accepted {args : List Str} {env : Surroundings} {s : Start} {q : Request}
      (hreceived : q ∈ σ.ledger.theirs) (hanswers : s.Answers h q)
      (hnamed : ∀ nick ∈ args.head?, h.toLowercase nick = h.toLowercase q.nick) :
      Consented h σ (.chat args env) s
  /-- The sender of the request is to be accepted at once. -/
  | automatic {q : Request} {hidden : Bool} {env : Surroundings} {s : Start}
      (hauto : σ.client.dcc.shouldAutoAccept h q.nick q.ident q.host q.port = true)
      (hanswers : s.Answers h q) : Consented h σ (.request q hidden env) s
  /-- The request answers a passive offer of the user. -/
  | answered {q : Request} {hidden : Bool} {env : Surroundings} {s : Start}
      (hport : 0 < q.port) (htoken : q.token.isSome = true)
      (hoffered : σ.ledger.Offered h q q.token) (hanswers : s.Answers h q) :
      Consented h σ (.request q hidden env) s
  /-- The request crosses an offer of the user, while we listen. -/
  | crossing {q : Request} {hidden : Bool} {env : Surroundings} {s : Start} {id : Str}
      {r : DccRecord} (hlistens : σ.client.dcc.records.lookup id = some r)
      (hstate : r.state = .listening) (hours : r.ours = true)
      (hoffered : σ.ledger.Offered h q r.passiveToken) (hanswers : s.Answers h q) :
      Consented h σ (.request q hidden env) s
  /-- The user offers a chat. -/
  | offering {args : List Str} {env : Surroundings} {s : Start}
      (hconn : σ.client.active = some s.connId) (htarget : s.target = none)
      (htold : ∀ connId, s.told = some connId → connId = s.connId)
      (hnamed : args.head? = some s.nick) : Consented h σ (.chat args env) s

/-- Each search of a step finds a record of the right kind: a request that answers or crosses an
offer finds one of the user's, made to its sender; a request that is accepted at once finds its own
record; `/dcc chat` finds a request; the peer of a listener is told on its own connection; and a
change of nick finds records of its own connection. -/
def Careful (h : Host) (σ : Session) : Client.Act → Prop
  | .request q hidden env =>
    match σ.client.answered env q with
    | some e => e.2.ours = true ∧ e.2.connId = q.connId ∧
        h.toLowercase e.2.nick = h.toLowercase q.nick
    | none => hidden = true ∨
        (∀ e, σ.client.crossed env q = some e → e.2.ours = true ∧ e.2.connId = q.connId ∧
          h.toLowercase e.2.nick = h.toLowercase q.nick) ∧
        ((σ.client.screened h env q).2 = true →
          (∀ e, ((σ.client.screened h env q).1.register h (σ.client.requestRecord q)).find?
              env.order (fun r => DccManager.ofNick h q.nick r && DccManager.isPending r) = some e →
            e.1 = (σ.client.screened h env q).1.generateId h q.nick) ∧
          (target q.addr q.port q.token = none → ∀ connId, σ.client.told env = some connId →
            connId = q.connId))
  | .chat args env =>
    ∀ r, σ.client.chosen h env (Client.chatArgs args).1 (Client.chatArgs args).2 = some r →
      r.ours = false ∧ (target r.addr r.port r.passiveToken = none →
        ∀ connId, σ.client.told env = some connId → connId = r.connId)
  | .nick _ connId oldNick _ =>
    ∀ id r, σ.client.dcc.records.lookup id = some r → DccManager.ofNick h oldNick r = true →
      r.connId = connId
  | _ => True

/-! ### What the records stand for -/

/-- A record stands for an offer of the user or for a request that was received. -/
structure Backed (h : Host) (l : Ledger) (id : Str) (r : DccRecord) : Prop where
  keyed : r.id = id
  own : r.ours = true → ∃ o ∈ l.ours, o.connId = r.connId ∧
    h.toLowercase o.nick = h.toLowercase r.nick ∧ o.token = r.passiveToken
  foreign : r.ours = false → ∃ q ∈ l.theirs, q.connId = r.connId ∧
    h.toLowercase q.nick = h.toLowercase r.nick ∧ q.addr = r.addr ∧ q.port = r.port ∧
      q.token = r.passiveToken

section Backing

variable {h : Host} {l : Ledger} {id : Str} {r : DccRecord}

theorem Backed.mono {l' : Ledger} (hr : Backed h l id r) (htheirs : l.theirs ⊆ l'.theirs)
    (hours : l.ours ⊆ l'.ours) : Backed h l' id r := by
  refine ⟨hr.keyed, fun hown => ?_, fun hforeign => ?_⟩
  · obtain ⟨o, ho, hrest⟩ := hr.own hown
    exact ⟨o, hours ho, hrest⟩
  · obtain ⟨q, hq, hrest⟩ := hr.foreign hforeign
    exact ⟨q, htheirs hq, hrest⟩

theorem Backed.withState (hr : Backed h l id r) (state : DccState) :
    Backed h l id { r with state := state } := ⟨hr.keyed, hr.own, hr.foreign⟩

/-- An offer of the user may be written by the request that answers it. -/
theorem Backed.withAddress (hr : Backed h l id r) (hours : r.ours = true) (addr : Web.IpAddr)
    (port : Nat) (state : DccState) :
    Backed h l id { r with addr := addr, port := port, state := state } := by
  refine ⟨hr.keyed, hr.own, fun hforeign => ?_⟩
  rw [show r.ours = false from hforeign] at hours
  cases hours

/-- A change of nick on a connection, for a record of that connection or of another nick. -/
theorem Backed.renamed {order : Order} {connId oldNick newNick : Str} (hr : Backed h l id r)
    (hconn : DccManager.ofNick h oldNick r = true → r.connId = connId) (id' : Str) :
    (DccManager.ofNick h oldNick r = true →
      Backed h (l.noteAct h (.nick order connId oldNick newNick)) id'
        { r with nick := newNick, id := id' }) ∧
    (DccManager.ofNick h oldNick r = false →
      Backed h (l.noteAct h (.nick order connId oldNick newNick)) id r) := by
  rw [DccManager.ofNick, decide_eq_true_eq] at hconn
  rw [DccManager.ofNick, decide_eq_true_eq, decide_eq_false_iff_not]
  constructor
  · intro hnick
    refine ⟨rfl, fun hown => ?_, fun hforeign => ?_⟩
    · obtain ⟨o, ho, hoconn, honick, htoken⟩ := hr.own hown
      refine ⟨_, List.mem_map_of_mem ho, hoconn, ?_, htoken⟩
      rw [Ledger.renamed, if_pos ⟨hoconn.trans (hconn hnick), honick.trans hnick⟩]
    · obtain ⟨q, hq, hqconn, hqnick, hrest⟩ := hr.foreign hforeign
      refine ⟨_, List.mem_map_of_mem hq, hqconn, ?_, hrest⟩
      rw [Ledger.renamed, if_pos ⟨hqconn.trans (hconn hnick), hqnick.trans hnick⟩]
  · intro hnick
    refine ⟨hr.keyed, fun hown => ?_, fun hforeign => ?_⟩
    · obtain ⟨o, ho, hoconn, honick, htoken⟩ := hr.own hown
      refine ⟨_, List.mem_map_of_mem ho, hoconn, ?_, htoken⟩
      rw [Ledger.renamed, if_neg (fun hboth => hnick (honick.symm.trans hboth.2))]
      exact honick
    · obtain ⟨q, hq, hqconn, hqnick, hrest⟩ := hr.foreign hforeign
      refine ⟨_, List.mem_map_of_mem hq, hqconn, ?_, hrest⟩
      rw [Ledger.renamed, if_neg (fun hboth => hnick (hqnick.symm.trans hboth.2))]
      exact hqnick

end Backing

namespace Client

variable {h : Host} {c : Client} {env : Surroundings} {l : Ledger}

/-- What is started when a record is accepted. -/
def answer (c : Client) (env : Surroundings) (r : DccRecord) : Start :=
  ⟨r.connId, r.nick, target r.addr r.port r.passiveToken,
    if (target r.addr r.port r.passiveToken).isNone then c.told env else none⟩

theorem effects_accept (env : Surroundings) {id : Str} {r : DccRecord}
    (hr : c.dcc.records.lookup id = some r) :
    (c.accept env id).2 = [] ∨ (c.accept env id).2 = [.start (c.answer env r)] := by
  rw [accept, hr]
  simp only
  by_cases hpassive : r.port = 0 ∧ r.passiveToken.isSome = true
  · have hanswer : c.answer env r = ⟨r.connId, r.nick, none, c.told env⟩ := by
      rw [answer, target, if_pos hpassive]
      rfl
    rw [if_pos hpassive, hanswer]
    cases env.bound with
    | none => exact .inl rfl
    | some port =>
      simp only
      split_ifs
      · exact .inl rfl
      · exact .inr rfl
  · have hanswer : c.answer env r = ⟨r.connId, r.nick, some (r.addr, r.port), none⟩ := by
      rw [answer, target, if_neg hpassive]
      rfl
    rw [if_neg hpassive, hanswer]
    exact .inr rfl

theorem records_accept (env : Surroundings) (hc : c.dcc.Records (Backed h l)) (id : Str) :
    (c.accept env id).1.dcc.Records (Backed h l) := by
  rw [accept]
  cases c.dcc.records.lookup id with
  | none => exact hc
  | some r =>
    simp only
    by_cases hpassive : r.port = 0 ∧ r.passiveToken.isSome = true
    · rw [if_pos hpassive]
      cases env.bound with
      | none => exact hc
      | some port =>
        simp only
        split_ifs
        · exact hc.modifyRecord id (fun r hr => hr.withState _)
        · exact hc.connect id (fun r hr => hr.withState _)
    · rw [if_neg hpassive]
      exact hc.connect id (fun r hr => hr.withState _)

/-- An offer of the user stands in the ledger. -/
theorem records_ownOffer (hc : c.dcc.Records (Backed h l)) (connId nick : Str)
    (addr : Web.IpAddr) (port : Nat) (state : DccState) (token : Option Nat) :
    (c.dcc.register h (c.ownOffer connId nick addr port state token)).Records
      (Backed h (l.noteEffect (.offer connId nick token))) := by
  have hmono := hc.mono (Q := Backed h (l.noteEffect (.offer connId nick token)))
    (fun id r hr => hr.mono (fun q hq => hq) (List.subset_append_left _ _))
  apply hmono.register
  refine ⟨rfl, fun _ => ?_, fun hforeign => ?_⟩
  · exact ⟨⟨connId, nick, token⟩, List.mem_append_right _ List.mem_cons_self, rfl, rfl, rfl⟩
  · cases hforeign

theorem records_initiate (hc : c.dcc.Records (Backed h l)) (nick : Str) (isPassive : Bool) :
    (c.initiate h env nick isPassive).1.dcc.Records
      (Backed h ((c.initiate h env nick isPassive).2.foldl Ledger.noteEffect l)) := by
  rw [initiate]
  by_cases hfull : c.dcc.maxConnections ≤ c.dcc.records.rows.length
  · rw [if_pos hfull]
    exact hc
  rw [if_neg hfull]
  cases c.active with
  | none => exact hc
  | some connId =>
    cases isPassive with
    | true => exact records_ownOffer hc _ _ _ _ _ _
    | false =>
      simp only [Bool.false_eq_true, if_false]
      cases env.bound with
      | none => exact hc
      | some port =>
        have hoffer := records_ownOffer hc connId nick env.ownIp port .listening none
        simp only
        split_ifs
        · exact hoffer
        · exact hoffer.connect _ (fun r hr => hr)

/-- What `/dcc chat` offers, it offers to the nick on the active connection. -/
theorem start_mem_initiate {nick : Str} {isPassive : Bool} {s : Start}
    (hs : .start s ∈ (c.initiate h env nick isPassive).2) :
    isPassive = false ∧ c.active = some s.connId ∧ s.nick = nick ∧ s.target = none ∧
      ∀ connId, s.told = some connId → connId = s.connId := by
  rw [initiate] at hs
  by_cases hfull : c.dcc.maxConnections ≤ c.dcc.records.rows.length
  · rw [if_pos hfull] at hs
    cases hs
  rw [if_neg hfull] at hs
  cases hactive : c.active with
  | none =>
    rw [hactive] at hs
    cases hs
  | some connId =>
    rw [hactive] at hs
    cases isPassive with
    | true => rcases List.mem_cons.mp hs with hs | hs <;> cases hs
    | false =>
      simp only [Bool.false_eq_true, if_false] at hs
      cases hbound : env.bound with
      | none =>
        rw [hbound] at hs
        cases hs
      | some port =>
        rw [hbound] at hs
        simp only at hs
        split_ifs at hs
        · rcases List.mem_cons.mp hs with hs | hs <;> cases hs
        · rcases List.mem_cons.mp hs with hs | hs
          · cases hs
          rcases List.mem_cons.mp hs with hs | hs
          · cases hs
            refine ⟨rfl, rfl, rfl, rfl, ?_⟩
            intro connId' htold
            simp only [told] at htold
            split_ifs at htold
            rw [hactive] at htold
            exact (Option.some.inj htold).symm
          · cases hs

/-- What `/dcc chat` finds is a record, of the nick if one is given. -/
theorem chosen_spec (hc : c.dcc.Records (Backed h l)) {isPassive : Bool} {nicks : List Str}
    {r : DccRecord} (hchosen : c.chosen h env isPassive nicks = some r) :
    isPassive = false ∧ c.dcc.records.lookup r.id = some r ∧
      ∀ nick ∈ nicks.head?, h.toLowercase nick = h.toLowercase r.nick := by
  rw [chosen.eq_def] at hchosen
  cases isPassive with
  | true => cases hchosen
  | false =>
    refine ⟨rfl, ?_⟩
    simp only [Bool.false_eq_true, if_false] at hchosen
    cases nicks with
    | nil =>
      refine ⟨?_, by rintro nick ⟨⟩⟩
      obtain ⟨id, hlookup⟩ := DccManager.lookup_of_findLatestPending hchosen
      rwa [(hc id r hlookup).keyed]
    | cons nick nicks =>
      obtain ⟨e, hfind, rfl⟩ := Option.map_eq_some_iff.mp hchosen
      obtain ⟨hlookup, hp⟩ := DccManager.lookup_of_find? hfind
      rw [Bool.and_eq_true, DccManager.ofNick, decide_eq_true_eq] at hp
      refine ⟨by rwa [(hc e.1 e.2 hlookup).keyed], ?_⟩
      rintro nick' ⟨⟩
      exact hp.1.symm

theorem records_cmdDccChat (hc : c.dcc.Records (Backed h l)) (args : List Str) :
    (c.cmdDccChat h env args).1.dcc.Records
      (Backed h ((c.cmdDccChat h env args).2.foldl Ledger.noteEffect l)) := by
  simp only [cmdDccChat]
  cases hchosen : c.chosen h env (chatArgs args).1 (chatArgs args).2 with
  | some r =>
    simp only
    have haccepted := records_accept env hc r.id
    obtain ⟨-, hlookup, -⟩ := chosen_spec hc hchosen
    rcases effects_accept env hlookup with hnone | hone
    · rw [hnone]
      exact haccepted
    · rw [hone]
      exact haccepted
  | none =>
    cases (chatArgs args).2 with
    | nil => exact hc
    | cons nick nicks => exact records_initiate hc nick _

/-- What `/dcc chat` starts answers a record that it finds, or it offers a chat. -/
theorem start_mem_cmdDccChat (hc : c.dcc.Records (Backed h l)) {args : List Str} {s : Start}
    (hs : .start s ∈ (c.cmdDccChat h env args).2) :
    (∃ r, c.chosen h env (chatArgs args).1 (chatArgs args).2 = some r ∧ s = c.answer env r) ∨
      (c.chosen h env (chatArgs args).1 (chatArgs args).2 = none ∧ (chatArgs args).1 = false ∧
        (chatArgs args).2.head? = some s.nick ∧ c.active = some s.connId ∧ s.target = none ∧
        ∀ connId, s.told = some connId → connId = s.connId) := by
  simp only [cmdDccChat] at hs
  cases hchosen : c.chosen h env (chatArgs args).1 (chatArgs args).2 with
  | some r =>
    rw [hchosen] at hs
    obtain ⟨-, hlookup, -⟩ := chosen_spec hc hchosen
    refine .inl ⟨r, rfl, ?_⟩
    rcases effects_accept env hlookup with hnone | hone
    · rw [hnone] at hs
      cases hs
    · rw [hone] at hs
      rcases List.mem_cons.mp hs with hs | hs
      · exact Effect.start.inj hs
      · cases hs
  | none =>
    rw [hchosen] at hs
    simp only at hs
    cases hnicks : (chatArgs args).2 with
    | nil =>
      rw [hnicks] at hs
      cases hs
    | cons nick nicks =>
      rw [hnicks] at hs
      obtain ⟨hpassive, hactive, rfl, htarget, htold⟩ := start_mem_initiate hs
      exact .inr ⟨rfl, hpassive, rfl, hactive, htarget, htold⟩

/-! ### Requests -/

theorem records_screened (env : Surroundings) (hc : c.dcc.Records (Backed h l)) (q : Request) :
    (c.screened h env q).1.Records (Backed h l) := by
  rw [screened]
  cases c.crossed env q with
  | none => exact hc
  | some e => exact hc.erase e.1 rfl

/-- The record of a request that was received. -/
theorem records_request {m : DccManager} (hm : m.Records (Backed h l)) {q : Request}
    (hq : q ∈ l.theirs) : (m.register h (c.requestRecord q)).Records (Backed h l) := by
  apply hm.register
  refine ⟨rfl, fun hown => ?_, fun _ => ⟨q, hq, rfl, rfl, rfl, rfl, rfl⟩⟩
  cases hown

theorem records_incomingRequest (hc : c.dcc.Records (Backed h l)) {q : Request}
    (hq : q ∈ l.theirs) : (c.incomingRequest h env q).1.dcc.Records
      (Backed h ((c.incomingRequest h env q).2.foldl Ledger.noteEffect l)) := by
  have hscreened := records_screened env hc q
  rw [incomingRequest]
  generalize c.screened h env q = p at hscreened ⊢
  obtain ⟨dcc, auto⟩ := p
  simp only
  by_cases hfull : dcc.maxConnections ≤ dcc.records.rows.length
  · rw [if_pos hfull]
    exact hscreened
  rw [if_neg hfull]
  have hregistered := records_request (c := c) hscreened hq
  cases auto with
  | false => exact hregistered
  | true => exact records_cmdDccChat (c := { c with dcc := _ }) hregistered [q.nick]

/-- A request that is accepted at once finds its own record. -/
theorem start_mem_incomingRequest (hc : c.dcc.Records (Backed h l)) {q : Request}
    (hq : q ∈ l.theirs) {s : Start} (hs : .start s ∈ (c.incomingRequest h env q).2)
    (hown : (c.screened h env q).2 = true → ∀ e,
      ((c.screened h env q).1.register h (c.requestRecord q)).find? env.order
        (fun r => DccManager.ofNick h q.nick r && DccManager.isPending r) = some e →
      e.1 = (c.screened h env q).1.generateId h q.nick) :
    (c.screened h env q).2 = true ∧ s = c.answer env (c.requestRecord q) := by
  have hscreened := records_screened env hc q
  rw [incomingRequest] at hs
  generalize c.screened h env q = p at hs hown hscreened ⊢
  obtain ⟨dcc, auto⟩ := p
  simp only at hs hown
  by_cases hfull : dcc.maxConnections ≤ dcc.records.rows.length
  · rw [if_pos hfull] at hs
    cases hs
  rw [if_neg hfull] at hs
  have hregistered := records_request (c := c) hscreened hq
  cases auto with
  | false => cases hs
  | true =>
    refine ⟨rfl, ?_⟩
    generalize hm : dcc.register h (c.requestRecord q) = m at hs hregistered hown
    have hnew : m.records.lookup (dcc.generateId h q.nick) =
        some { c.requestRecord q with
          id := dcc.generateId h q.nick, session := dcc.sessions } := by
      rw [← hm, DccManager.lookup_register]
      exact if_pos rfl
    rcases start_mem_cmdDccChat (c := { c with dcc := m }) hregistered hs with
      ⟨r, hchosen, rfl⟩ | ⟨hnone, hactive, -⟩
    · obtain ⟨hpassive, hlookup, -⟩ := chosen_spec (c := { c with dcc := m }) hregistered hchosen
      have hargs : chatArgs [q.nick] = (false, [q.nick]) := by
        rw [chatArgs] at hpassive ⊢
        split_ifs at hpassive ⊢
        rfl
      rw [hargs] at hchosen
      obtain ⟨e, hfind, rfl⟩ := Option.map_eq_some_iff.mp hchosen
      obtain ⟨hrecord, -⟩ := DccManager.lookup_of_find? hfind
      rw [hown rfl e hfind, hnew] at hrecord
      rw [← Option.some.inj hrecord]
      rfl
    · -- there is a record to be found: the one of the request
      have hargs : chatArgs [q.nick] = (false, [q.nick]) := by
        rw [chatArgs] at hactive ⊢
        split_ifs at hactive ⊢
        rfl
      rw [hargs] at hnone
      obtain ⟨e, hfind⟩ := DccManager.find?_of_lookup env.order
        (p := fun r => DccManager.ofNick h q.nick r && DccManager.isPending r) hnew
        (by simp [DccManager.ofNick, DccManager.isPending, requestRecord])
      rw [chosen.eq_def] at hnone
      simp only [Bool.false_eq_true, if_false, DccManager.findPending, hfind] at hnone
      cases hnone

end Client

/-! ### Steps and runs -/

section Runs

variable {h : Host} {σ : Session}

/-- Every record stands for something in the ledger. -/
def Session.Backed (h : Host) (σ : Session) : Prop :=
  σ.client.dcc.Records (Dcc.Backed h σ.ledger)

/-- A careful step keeps the records backed. -/
theorem backed_step (hσ : σ.Backed h) {act : Client.Act} (hcareful : Careful h σ act) :
    (σ.step h act).Backed h := by
  rw [Session.Backed, Session.step, Session.effects]
  cases act with
  | request q hidden env =>
    have hnoted : σ.client.dcc.Records (Backed h (σ.ledger.noteAct h (.request q hidden env))) :=
      hσ.mono (fun id r hr => hr.mono (List.subset_append_left _ _) (fun o ho => ho))
    have hq : q ∈ (σ.ledger.noteAct h (.request q hidden env)).theirs :=
      List.mem_append_right _ List.mem_cons_self
    rw [Careful] at hcareful
    simp only [Client.step, Client.handleRequest]
    cases hanswered : σ.client.answered env q with
    | some e =>
      rw [hanswered] at hcareful
      obtain ⟨hours, -⟩ := hcareful
      have hrecord : σ.client.dcc.records.lookup e.1 = some e.2 := by
        rw [Client.answered] at hanswered
        cases htoken : q.token with
        | none =>
          rw [htoken] at hanswered
          cases hanswered
        | some token =>
          rw [htoken] at hanswered
          simp only at hanswered
          split_ifs at hanswered
          exact (DccManager.lookup_of_find? hanswered).1
      simp only [List.foldl_cons, List.foldl_nil, Ledger.noteEffect]
      have hboth : σ.client.dcc.Records (fun id r => Backed h
          (σ.ledger.noteAct h (.request q hidden env)) id r ∧ (id = e.1 → r.ours = true)) := by
        refine fun id r hr => ⟨hnoted id r hr, ?_⟩
        rintro rfl
        rw [hrecord] at hr
        cases hr
        exact hours
      refine (hboth.connect e.1 (fun r hr => ?_)).mono (fun id r hr => hr.1)
      exact ⟨hr.1.withAddress (hr.2 rfl) _ _ _, hr.2⟩
    | none =>
      simp only
      split_ifs
      · exact hnoted
      · exact Client.records_incomingRequest hnoted hq
  | chat args env => exact Client.records_cmdDccChat hσ args
  | close order nick => exact DccManager.Records.closeByNick hσ order nick
  | connected id => exact DccManager.Records.modifyRecord hσ id (fun r hr => hr.withState _)
  | ended id => exact DccManager.Records.erase hσ id rfl
  | nick order connId oldNick newNick =>
    have hboth : σ.client.dcc.Records (fun id r => Backed h σ.ledger id r ∧
        (DccManager.ofNick h oldNick r = true → r.connId = connId)) :=
      fun id r hr => ⟨hσ id r hr, hcareful id r hr⟩
    exact DccManager.Records.updateNick order oldNick newNick hboth
      (Q := Backed h (σ.ledger.noteAct h (.nick order connId oldNick newNick)))
      (fun id₀ id r hr hnick => (hr.1.renamed hr.2 id).1 hnick)
      (fun id r hr hnick => (hr.1.renamed hr.2 id).2 hnick)
  | purge order => exact DccManager.Records.purgeExpired hσ order σ.client.now
  | switchTo connId => exact hσ
  | wait seconds => exact hσ
  | configure timeoutSecs lowports masks maxConnections => exact hσ

/-- What a record of a request answers. -/
theorem answers_of_foreign {c : Client} {env : Surroundings} {r : DccRecord} {q : Request}
    (hconn : q.connId = r.connId) (hnick : h.toLowercase q.nick = h.toLowercase r.nick)
    (haddr : q.addr = r.addr) (hport : q.port = r.port) (htoken : q.token = r.passiveToken)
    (htold : target r.addr r.port r.passiveToken = none →
      ∀ connId, c.told env = some connId → connId = r.connId) :
    (c.answer env r).Answers h q := by
  refine ⟨hconn.symm, hnick.symm, ?_, ?_⟩
  · rw [haddr, hport, htoken]
    rfl
  · intro connId hsome
    rw [Client.answer] at hsome
    simp only at hsome
    split_ifs at hsome with hnone
    rw [hconn]
    exact htold (Option.isNone_iff_eq_none.mp hnone) connId hsome

/-- What a careful step starts was consented to. -/
theorem consented_step (hσ : σ.Backed h) {act : Client.Act} (hcareful : Careful h σ act)
    {s : Start} (hs : .start s ∈ σ.effects h act) : Consented h σ act s := by
  rw [Session.effects] at hs
  cases act with
  | request q hidden env =>
    simp only [Careful] at hcareful
    simp only [Client.step, Client.handleRequest] at hs
    -- an offer of the user that a record stands for
    have hoffered : ∀ {id r}, σ.client.dcc.records.lookup id = some r → r.ours = true →
        r.connId = q.connId → h.toLowercase r.nick = h.toLowercase q.nick →
        σ.ledger.Offered h q r.passiveToken := by
      intro id r hr hours hconn hnick
      obtain ⟨o, ho, hoconn, honick, htoken⟩ := (hσ id r hr).own hours
      exact ⟨o, ho, hoconn.trans hconn, honick.trans hnick, htoken⟩
    cases hanswered : σ.client.answered env q with
    | some e =>
      rw [hanswered] at hcareful hs
      obtain ⟨hours, hconn, hnick⟩ := hcareful
      rcases List.mem_cons.mp hs with hs | hs
      · cases hs
        rw [Client.answered] at hanswered
        cases htoken : q.token with
        | none =>
          rw [htoken] at hanswered
          cases hanswered
        | some token =>
          rw [htoken] at hanswered
          simp only at hanswered
          split_ifs at hanswered with hport
          obtain ⟨hrecord, hmatch⟩ := DccManager.lookup_of_find? hanswered
          have hoffer := hoffered hrecord hours hconn hnick
          rw [decide_eq_true_eq.mp hmatch, ← htoken] at hoffer
          refine .answered hport (by rw [htoken]; rfl) hoffer ⟨rfl, rfl, ?_, by rintro connId ⟨⟩⟩
          rw [target, if_neg (fun hboth => Nat.ne_of_gt hport hboth.1)]
      · cases hs
    | none =>
      rw [hanswered] at hcareful hs
      simp only at hcareful hs
      split_ifs at hs with hhidden
      · cases hs
      obtain ⟨hcrossed, hauto⟩ := hcareful.resolve_left hhidden
      have hnoted : σ.client.dcc.Records
          (Backed h { σ.ledger with theirs := σ.ledger.theirs ++ [q] }) :=
        hσ.mono (fun id r hr => hr.mono (List.subset_append_left _ _) (fun o ho => ho))
      obtain ⟨hscreened, rfl⟩ := Client.start_mem_incomingRequest hnoted
        (List.mem_append_right _ List.mem_cons_self) hs (fun ha => (hauto ha).1)
      have hanswers : (σ.client.answer env (σ.client.requestRecord q)).Answers h q :=
        answers_of_foreign rfl rfl rfl rfl rfl (hauto hscreened).2
      rw [Client.screened] at hscreened
      cases hcross : σ.client.crossed env q with
      | some e =>
        obtain ⟨hours, hconn, hnick⟩ := hcrossed e hcross
        obtain ⟨hrecord, hp⟩ := DccManager.lookup_of_find? hcross
        rw [Bool.and_eq_true, decide_eq_true_eq] at hp
        exact .crossing hrecord hp.2 hours (hoffered hrecord hours hconn hnick) hanswers
      | none =>
        rw [hcross] at hscreened
        exact .automatic hscreened hanswers
  | chat args env =>
    rcases Client.start_mem_cmdDccChat hσ hs with
      ⟨r, hchosen, rfl⟩ | ⟨-, hpassive, hnamed, hactive, htarget, htold⟩
    · obtain ⟨hforeign, htold⟩ := hcareful r hchosen
      obtain ⟨hpassive, hlookup, hnick⟩ := Client.chosen_spec hσ hchosen
      obtain ⟨q, hq, hqconn, hqnick, haddr, hport, htoken⟩ := (hσ r.id r hlookup).foreign hforeign
      refine .accepted hq (answers_of_foreign hqconn hqnick haddr hport htoken htold) ?_
      have hargs : (Client.chatArgs args).2 = args := by
        rw [Client.chatArgs] at hpassive ⊢
        split_ifs at hpassive ⊢
        rfl
      rw [hargs] at hnick
      exact fun nick hin => (hnick nick hin).trans hqnick.symm
    · have hargs : (Client.chatArgs args).2 = args := by
        rw [Client.chatArgs] at hpassive ⊢
        split_ifs at hpassive ⊢
        rfl
      rw [hargs] at hnamed
      exact .offering hactive htarget htold hnamed
  | _ => cases hs

theorem backed_start : Session.start.Backed h := by
  rintro id r ⟨⟩

/-- **Consent**: whatever a run of careful steps starts was consented to, by what the user and the
peers had said by then. -/
theorem consented_run (h : Host) (pre : List Client.Act) (act : Client.Act)
    (post : List Client.Act)
    (hcareful : Run.Guarded (Session.step h) (Careful h) Session.start (pre ++ act :: post))
    {s : Start}
    (hs : .start s ∈ (Run.run (Session.step h) Session.start pre).effects h act) :
    Consented h (Run.run (Session.step h) Session.start pre) act s := by
  rw [Run.guarded_append] at hcareful
  have hbacked : (Run.run (Session.step h) Session.start pre).Backed h :=
    Run.Guarded.invariant (P := Session.Backed h) (fun σ act hσ hg => backed_step hσ hg)
      backed_start hcareful.1
  exact consented_step hbacked hcareful.2.1 hs

end Runs

/-! ### Samples -/

/-- Messages are sent, and a listener gets port 6000. -/
def sampleSurroundings : Surroundings := ⟨insertionOrder, loopback, some 6000, true, true, 7⟩

def sampleRequest (connId nick : Str) (port : Nat) (token : Option Nat) : Request :=
  ⟨connId, nick, str "user", str "host", loopback, port, token⟩

/-- `alice` offers a chat, on the connection of the active buffer. -/
def aliceRequests : List Client.Act :=
  [.switchTo (some (str "net")),
    .request (sampleRequest (str "net") (str "alice") 5000 none) false sampleSurroundings]

theorem consented_run_accepts :
    Consented Store.sampleHost
      (Run.run (Session.step Store.sampleHost) Session.start aliceRequests)
      (.chat [str "alice"] sampleSurroundings)
      ⟨str "net", str "alice", some (loopback, 5000), none⟩ := by
  refine consented_run Store.sampleHost aliceRequests (.chat [str "alice"] _) [] ?_ ?_
  · refine ⟨trivial, .inr ⟨?_, ?_⟩, ?_, trivial⟩
    · intro e hcrossed
      cases show (none : Option (Str × DccRecord)) = some e from hcrossed
    · intro hauto
      exact absurd hauto (by decide)
    · intro r hchosen
      have hr : r.ours = false ∧ target r.addr r.port r.passiveToken ≠ none := by
        revert hchosen
        generalize hfound : Client.chosen _ _ _ _ _ = found
        intro hchosen
        subst hchosen
        cases hfound
        decide
      exact ⟨hr.1, fun hnone => absurd hnone hr.2⟩
  · exact List.mem_cons_self

/-- `bob` offers a passive chat, with a token of his own. -/
def bobRequests : List Client.Act :=
  [.request (sampleRequest (str "net") (str "bob") 0 (some 7)) false sampleSurroundings]

/-- Whoever knows the token of `bob` makes us connect to any address. -/
theorem strangers_token_connects :
    ∃ s, Effect.start s ∈
        (Run.run (Session.step Store.sampleHost) Session.start bobRequests).effects
          Store.sampleHost
          (.request (sampleRequest (str "other") (str "mallory") 5000 (some 7)) false
            sampleSurroundings) ∧
      ¬Consented Store.sampleHost
        (Run.run (Session.step Store.sampleHost) Session.start bobRequests)
        (.request (sampleRequest (str "other") (str "mallory") 5000 (some 7)) false
          sampleSurroundings) s := by
  refine ⟨⟨str "other", str "mallory", some (loopback, 5000), none⟩, List.mem_cons_self, ?_⟩
  intro hconsented
  have hnone : ∀ token, ¬(Run.run (Session.step Store.sampleHost) Session.start
      bobRequests).ledger.Offered Store.sampleHost
      (sampleRequest (str "other") (str "mallory") 5000 (some 7)) token := by
    rintro token ⟨o, ho, -⟩
    cases ho
  cases hconsented with
  | automatic hauto hanswers => exact absurd hauto (by decide)
  | answered hport htoken hoffered hanswers => exact hnone _ hoffered
  | crossing hlistens hstate hours hoffered hanswers => exact hnone _ hoffered

end Repartee.Dcc
