import Repartee.E2e.Steady

/-!
# The handshake converges

In every undisturbed run of two clients on a channel in AutoAccept mode, the number of messages
is at most four for each KEYREQ that a user initiates, and once nothing is in flight each client's
session of the other holds the other's outgoing key.

## Main definitions

- `Exchange.Genuine`: what a message in flight promises
- `Exchange.cost`: how many messages the ones in flight may still bring about
- `Exchange.Inv`: the invariant of the run

## Main results

- `Exchange.inv_step`, `Exchange.inv_run`: the invariant holds in every undisturbed run
- `Exchange.handshake_converges`
-/

set_option autoImplicit false

namespace Repartee

namespace Party

theorem other_ne (p : Party) : p.other ≠ p := by cases p <;> decide

@[simp] theorem other_other (p : Party) : p.other.other = p := by cases p <;> rfl

theorem eq_or_eq_other (p q : Party) : q = p ∨ q = p.other := by
  cases p <;> cases q <;> decide

end Party

namespace Exchange

open Exec E2eManager

variable {cr : Crates} {e : Env} {s : Setting} {identity : Party → Bytes 32} {x x' : Exchange}

/-! ### The cost of the messages in flight -/

/-- How many messages the messages in flight to a client may bring about: with a session, which
a KEYRSP will install, a KEYREQ brings about its KEYRSP; without one also a KEYREQ, and the KEYRSP
to it. -/
def cost : (has : Bool) → List HandshakeMsg → Nat
  | _, [] => 0
  | has, .req _ :: rest => (if has then 1 else 3) + cost has rest
  | _, .rsp _ :: rest => cost true rest
  | has, .rekey _ :: rest => cost has rest

theorem cost_append_req (has : Bool) (msgs : List HandshakeMsg) (req : KeyReq) :
    cost has (msgs ++ [.req req]) ≤ cost has msgs + 3 := by
  induction msgs generalizing has with
  | nil => cases has <;> simp [cost]
  | cons msg msgs ih =>
    cases msg with
    | req r =>
      have hrest := ih has
      simp only [List.cons_append, cost]
      omega
    | rsp r => exact ih true
    | rekey r => exact ih has

theorem cost_append_rsp (has : Bool) (msgs : List HandshakeMsg) (rsp : KeyRsp) :
    cost has (msgs ++ [.rsp rsp]) = cost has msgs := by
  induction msgs generalizing has with
  | nil => rfl
  | cons msg msgs ih =>
    cases msg with
    | req r => simp only [List.cons_append, cost, ih has]
    | rsp r => exact ih true
    | rekey r => exact ih has

theorem cost_append_both (has : Bool) (msgs : List HandshakeMsg) (rsp : KeyRsp) (req : KeyReq) :
    cost has (msgs ++ [.rsp rsp, .req req]) = cost has msgs + 1 := by
  induction msgs generalizing has with
  | nil => rfl
  | cons msg msgs ih =>
    cases msg with
    | req r => simp only [List.cons_append, cost, ih has, Nat.add_assoc]
    | rsp r => exact ih true
    | rekey r => exact ih has

/-! ### The invariant -/

/-- Whether a client has a session of the other. -/
def session (s : Setting) (x : Exchange) (p : Party) : Bool :=
  hasSession (x.client p) (s.handle p.other) s.channel

/-- What a message in flight to a client promises: it is authentic, a KEYRSP wraps the sender's
key, and as long as the one who is to use it has no session, the handshake it belongs to is in
flight. -/
def Genuine (cr : Crates) (s : Setting) (identity : Party → Bytes 32) (x : Exchange) (p : Party) :
    HandshakeMsg → Prop
  | .req req => ∃ secret, IsKeyreq cr (identity p.other) s.channel secret req ∧
      (session s x p.other = false → Awaits (x.client p.other) s.channel secret)
  | .rsp rsp => ∃ ephPub sk, IsKeyrsp cr (identity p.other) s.channel ephPub sk rsp ∧
      usableKey (x.client p.other) s.channel = some sk ∧
      (session s x p = false →
        ∃ secret, ephPub = cr.xPublic secret ∧ Awaits (x.client p) s.channel secret)
  | .rekey _ => False

/-- The messages that the ones in flight may bring about. -/
def load (s : Setting) (x : Exchange) : Nat :=
  cost (session s x .alice) (x.inbox .alice) + cost (session s x .bob) (x.inbox .bob)

theorem load_eq (s : Setting) (x : Exchange) (p : Party) :
    load s x = cost (session s x p) (x.inbox p) + cost (session s x p.other) (x.inbox p.other) := by
  cases p with
  | alice => rfl
  | bob => exact Nat.add_comm _ _

/-- A message in flight leads to a session of the other. -/
def Coming (x : Exchange) (p : Party) : Prop :=
  (∃ rsp, HandshakeMsg.rsp rsp ∈ x.inbox p) ∨ (∃ req, HandshakeMsg.req req ∈ x.inbox p) ∨
    ∃ req, HandshakeMsg.req req ∈ x.inbox p.other

/-- The invariant of an undisturbed run. -/
structure Inv (cr : Crates) (s : Setting) (identity : Party → Bytes 32) (x : Exchange) : Prop where
  own : ∀ p, (x.client p).identity = identity p
  steady : ∀ p, Steady cr s.channel (s.handle p.other) (cr.edPublic (identity p.other)) (x.client p)
  mail : ∀ p, ∀ msg ∈ x.inbox p, Genuine cr s identity x p msg
  agree : ∀ p row, (x.client p).keyring.incoming.get? (s.handle p.other, s.channel) = some row →
    usableKey (x.client p.other) s.channel = some row.sk
  bounded : x.sent + load s x ≤ 4 * x.initiated
  progress : 0 < x.initiated → ∀ p, session s x p = true ∨ Coming x p

/-- What a message promises is kept. -/
theorem Genuine.mono {p : Party} {msg : HandshakeMsg} (h : Genuine cr s identity x p msg)
    (hcont : ∀ q, Continues s.channel (s.handle q.other) (x.client q) (x'.client q)) :
    Genuine cr s identity x' p msg := by
  have hsession : ∀ q, session s x' q = false → session s x q = false := by
    intro q hq
    rw [← Bool.not_eq_true] at hq ⊢
    exact fun hx => hq ((hcont q).session hx)
  cases msg with
  | req req =>
    obtain ⟨secret, hreq, hawaits⟩ := h
    refine ⟨secret, hreq, fun hnone => ?_⟩
    exact (hcont p.other).awaits hnone secret (hawaits (hsession p.other hnone))
  | rsp rsp =>
    obtain ⟨ephPub, sk, hrsp, hkey, hawaits⟩ := h
    refine ⟨ephPub, sk, hrsp, (hcont p.other).key sk hkey, fun hnone => ?_⟩
    obtain ⟨secret, heph, hsecret⟩ := hawaits (hsession p hnone)
    exact ⟨secret, heph, (hcont p).awaits hnone secret hsecret⟩
  | rekey rekey => exact h

theorem continues_refl {channel handle : Str} (m : E2eManager) : Continues channel handle m m :=
  ⟨rfl, fun _ h => h, id, fun _ _ h => h⟩

/-! ### Steps of a client -/

/-- The state after the client `p`, now in the state `m`, has left `rest` in its inbox and sent
some messages; `asked` of them its user has initiated. -/
def acted (x : Exchange) (p : Party) (m : E2eManager) (rest answers : List HandshakeMsg)
    (asked : Nat) : Exchange where
  client := Function.update x.client p m
  inbox := Function.update (Function.update x.inbox p rest) p.other (x.inbox p.other ++ answers)
  initiated := x.initiated + asked
  sent := x.sent + answers.length

section

variable {p : Party} {m : E2eManager} {rest answers : List HandshakeMsg} {asked : Nat}

@[simp] theorem client_acted_self : (x.acted p m rest answers asked).client p = m := by
  show Function.update x.client p m p = m
  rw [Function.update_self]

@[simp] theorem client_acted_other :
    (x.acted p m rest answers asked).client p.other = x.client p.other := by
  show Function.update x.client p m p.other = x.client p.other
  rw [Function.update_of_ne p.other_ne]

@[simp] theorem inbox_acted_self : (x.acted p m rest answers asked).inbox p = rest := by
  show Function.update (Function.update x.inbox p rest) p.other _ p = rest
  rw [Function.update_of_ne p.other_ne.symm, Function.update_self]

@[simp] theorem inbox_acted_other :
    (x.acted p m rest answers asked).inbox p.other = x.inbox p.other ++ answers := by
  show Function.update (Function.update x.inbox p rest) p.other _ p.other = _
  rw [Function.update_self]

theorem session_acted_self : session s (x.acted p m rest answers asked) p =
    hasSession m (s.handle p.other) s.channel := by
  rw [session, client_acted_self]

theorem session_acted_other : session s (x.acted p m rest answers asked) p.other =
    session s x p.other := by
  rw [session, client_acted_other, session]

theorem initiate_eq_acted {peerHandle : Option Str} {req : KeyReq}
    (h : (buildKeyreqForPeer cr e s.channel peerHandle).run (x.client p) = .ok req m) :
    x.initiate cr s e p peerHandle = x.acted p m (x.inbox p) [.req req] 1 := by
  rw [initiate, h, acted, Function.update_eq_self]
  rfl

theorem deliver_eq_acted {msg : HandshakeMsg} (hinbox : x.inbox p = msg :: rest)
    (h : (receive cr e (s.nick p.other) (s.handle p.other) msg).run (x.client p) = .ok answers m) :
    x.deliver cr s e p = x.acted p m rest answers 0 := by
  rw [deliver, hinbox]
  dsimp only
  rw [h]
  rfl

/-- A step of a client keeps the invariant if the client stays steady, what it sends is genuine,
and it sends no more messages than were to be expected. -/
theorem inv_acted (h : Inv cr s identity x)
    (hsteady : Steady cr s.channel (s.handle p.other) (cr.edPublic (identity p.other)) m)
    (hcont : Continues s.channel (s.handle p.other) (x.client p) m)
    (hrest : ∀ msg ∈ rest, msg ∈ x.inbox p)
    (hanswers : ∀ msg ∈ answers,
      Genuine cr s identity (x.acted p m rest answers asked) p.other msg)
    (hagree : ∀ row, m.keyring.incoming.get? (s.handle p.other, s.channel) = some row →
      usableKey (x.client p.other) s.channel = some row.sk)
    (hcost : answers.length + (cost (hasSession m (s.handle p.other) s.channel) rest +
        cost (session s x p.other) (x.inbox p.other ++ answers)) ≤
      cost (session s x p) (x.inbox p) + cost (session s x p.other) (x.inbox p.other) + 4 * asked)
    (hprogress : 0 < x.initiated + asked → ∀ q,
      session s (x.acted p m rest answers asked) q = true ∨
        Coming (x.acted p m rest answers asked) q) :
    Inv cr s identity (x.acted p m rest answers asked) := by
  have hcontinues : ∀ q, Continues s.channel (s.handle q.other) (x.client q)
      ((x.acted p m rest answers asked).client q) := by
    intro q
    rcases p.eq_or_eq_other q with rfl | rfl
    · rw [client_acted_self]
      exact hcont
    · rw [client_acted_other]
      exact continues_refl _
  refine ⟨fun q => ?_, fun q => ?_, fun q msg hmsg => ?_, fun q row hrow => ?_, ?_, hprogress⟩
  · exact (hcontinues q).identity.trans (h.own q)
  · rcases p.eq_or_eq_other q with rfl | rfl
    · rw [client_acted_self]
      exact hsteady
    · rw [client_acted_other]
      exact h.steady p.other
  · rcases p.eq_or_eq_other q with rfl | rfl
    · rw [inbox_acted_self] at hmsg
      exact (h.mail q msg (hrest msg hmsg)).mono hcontinues
    · rw [inbox_acted_other, List.mem_append] at hmsg
      exact hmsg.elim (fun hold => (h.mail p.other msg hold).mono hcontinues) (hanswers msg)
  · apply (hcontinues q.other).key
    rcases p.eq_or_eq_other q with rfl | rfl
    · rw [client_acted_self] at hrow
      exact hagree row hrow
    · rw [client_acted_other] at hrow
      exact h.agree p.other row hrow
  · have hbounded := h.bounded
    rw [load_eq s x p] at hbounded
    rw [load_eq s _ p, session_acted_self, session_acted_other, inbox_acted_self, inbox_acted_other]
    show x.sent + answers.length + _ ≤ 4 * (x.initiated + asked)
    omega

end

/-- **A KEYREQ of a user** keeps the invariant. -/
theorem inv_initiate (hon : cr.Honest) (h : Inv cr s identity x) {p : Party}
    {peerHandle : Option Str} (hi : Undisturbed s x (e, .initiate p peerHandle)) :
    Inv cr s identity (x.initiate cr s e p peerHandle) := by
  obtain ⟨req, secret, m, hrun, hsteady, hcont, hkeyring, hreq, hawaits⟩ :=
    (h.steady p).run_initiate hon (hi.fresh _ (Nat.le_refl _)) peerHandle
  rw [initiate_eq_acted hrun]
  refine inv_acted h hsteady hcont (fun _ hmsg => hmsg) ?_ ?_ ?_ ?_
  · intro msg hmsg
    rw [List.mem_singleton] at hmsg
    subst hmsg
    refine ⟨secret, ?_, fun _ => ?_⟩
    · rw [Party.other_other, ← h.own p]
      exact hreq
    · rw [Party.other_other, client_acted_self]
      exact hawaits
  · intro row hrow
    rw [hkeyring] at hrow
    exact h.agree p row hrow
  · have hcost := cost_append_req (session s x p.other) (x.inbox p.other) req
    have hsession : hasSession m (s.handle p.other) s.channel = session s x p :=
      hasSession_of_incoming (congrArg Keyring.incoming hkeyring) _ _
    rw [hsession, List.length_singleton]
    omega
  · intro _ q
    have hmem : HandshakeMsg.req req ∈ (x.acted p m (x.inbox p) [.req req] 1).inbox p.other := by
      rw [inbox_acted_other]
      exact List.mem_append_right _ (List.mem_singleton_self _)
    rcases p.eq_or_eq_other q with rfl | rfl
    · exact .inr (.inr (.inr ⟨req, hmem⟩))
    · exact .inr (.inr (.inl ⟨req, hmem⟩))

/-- **The arrival of a KEYREQ** keeps the invariant: without a session the client asks back, and
the KEYRSP in front of its KEYREQ will install a session at the other. -/
theorem inv_deliver_keyreq (hon : cr.Honest) (h : Inv cr s identity x) {p : Party} {req : KeyReq}
    {rest : List HandshakeMsg} (hinbox : x.inbox p = .req req :: rest)
    (hi : Undisturbed s x (e, .deliver p)) : Inv cr s identity (x.deliver cr s e p) := by
  have hmail := h.mail p (.req req) (hinbox ▸ List.mem_cons_self)
  obtain ⟨secret, hreq, hawaits⟩ := hmail
  obtain ⟨hin, hout⟩ := hi.permits p rfl
  obtain ⟨rsp, answers, sk, m, hrun, hsteady, hcont, hincoming, hkey, hrsp, hanswers⟩ :=
    @Steady.run_receive_keyreq cr e s.channel (s.handle p.other) _ (x.client p) hon hi.healthy
      (h.steady p) hi.fresh (s.nick p.other) req hreq.channel hreq.pubkey hreq.signed hin hout
  have hsession : hasSession m (s.handle p.other) s.channel = session s x p :=
    hasSession_of_incoming hincoming _ _
  rw [deliver_eq_acted hinbox hrun]
  refine inv_acted h hsteady hcont ?_ ?_ ?_ ?_ ?_
  · intro msg hmsg
    rw [hinbox]
    exact List.mem_cons_of_mem _ hmsg
  · rw [List.forall_mem_cons]
    constructor
    · refine ⟨req.ephX25519, sk, ?_, ?_, fun hnone => ⟨secret, hreq.ephemeral, ?_⟩⟩
      · rw [Party.other_other, ← h.own p]
        exact hrsp
      · rw [Party.other_other, client_acted_self]
        exact hkey
      · rw [session_acted_other] at hnone
        rw [client_acted_other]
        exact hawaits hnone
    · intro msg hmsg
      rcases hanswers with ⟨-, rfl⟩ | ⟨-, req', secret', rfl, hreq', hawaits'⟩
      · cases hmsg
      · rw [List.mem_singleton] at hmsg
        subst hmsg
        refine ⟨secret', ?_, fun _ => ?_⟩
        · rw [Party.other_other, ← h.own p]
          exact hreq'
        · rw [Party.other_other, client_acted_self]
          exact hawaits'
  · intro row hrow
    rw [hincoming] at hrow
    exact h.agree p row hrow
  · rw [hsession, hinbox]
    rcases hanswers with ⟨hsome, rfl⟩ | ⟨hnone, req', secret', rfl, -, -⟩
    · have hsome : session s x p = true := hsome
      rw [cost_append_rsp, hsome]
      simp only [cost, List.length_singleton, if_true]
      omega
    · have hnone : session s x p = false := hnone
      rw [cost_append_both, hnone]
      simp only [cost, List.length_cons, List.length_nil, Bool.false_eq_true, if_false]
      omega
  · intro _ q
    rcases p.eq_or_eq_other q with rfl | rfl
    · rcases hanswers with ⟨hsome, -⟩ | ⟨-, req', secret', rfl, -, -⟩
      · rw [session_acted_self, hsession]
        exact .inl hsome
      · refine .inr (.inr (.inr ⟨req', ?_⟩))
        rw [inbox_acted_other]
        simp
    · refine .inr (.inl ⟨rsp, ?_⟩)
      rw [inbox_acted_other]
      simp

/-- **The arrival of a KEYRSP** keeps the invariant: there is a session afterwards, with the
other's key. -/
theorem inv_deliver_keyrsp (hon : cr.Honest) (hideal : cr.IdealAead) (h : Inv cr s identity x)
    {p : Party} {rsp : KeyRsp} {rest : List HandshakeMsg} (hinbox : x.inbox p = .rsp rsp :: rest)
    (hi : Undisturbed s x (e, .deliver p)) : Inv cr s identity (x.deliver cr s e p) := by
  have hmail := h.mail p (.rsp rsp) (hinbox ▸ List.mem_cons_self)
  obtain ⟨ephPub, sk, hrsp, hkey, hawaits⟩ := hmail
  obtain ⟨m, hrun, hsteady, hcont, hrow, hinstalled⟩ :=
    @Steady.run_receive_keyrsp cr e s.channel (s.handle p.other) (x.client p) hon hideal hi.healthy
      _ (h.steady p) (s.nick p.other) ephPub sk rsp hrsp
  have hsome : hasSession m (s.handle p.other) s.channel = true := by
    cases hsession : session s x p with
    | true => exact hcont.session hsession
    | false =>
      obtain ⟨secret, heph, hsecret⟩ := hawaits hsession
      exact hinstalled secret heph hsecret
  rw [deliver_eq_acted hinbox hrun]
  refine inv_acted h hsteady hcont ?_ nofun ?_ ?_ ?_
  · intro msg hmsg
    rw [hinbox]
    exact List.mem_cons_of_mem _ hmsg
  · intro row hget
    rcases hrow row hget with hold | hnew
    · exact h.agree p row hold
    · rw [hnew]
      exact hkey
  · rw [hsome, hinbox, List.append_nil, List.length_nil]
    show 0 + (cost true rest + _) ≤ cost true rest + _ + 4 * 0
    omega
  · intro hasked q
    rcases p.eq_or_eq_other q with rfl | rfl
    · rw [session_acted_self]
      exact .inl hsome
    · rw [session_acted_other]
      refine (h.progress hasked p.other).imp_right ?_
      intro hcoming
      rw [Coming, inbox_acted_other, List.append_nil, Party.other_other, inbox_acted_self]
      rw [Coming, Party.other_other, hinbox] at hcoming
      refine hcoming.imp_right (Or.imp_right ?_)
      rintro ⟨req, hreq⟩
      exact ⟨req, (List.mem_cons.mp hreq).resolve_left nofun⟩

/-- **Step lemma**: an undisturbed step keeps the invariant. -/
theorem inv_step (hon : cr.Honest) (hideal : cr.IdealAead) (i : Env × Event)
    (h : Inv cr s identity x) (hi : Undisturbed s x i) : Inv cr s identity (step cr s x i) := by
  obtain ⟨e, event⟩ := i
  cases event with
  | initiate p peerHandle => exact inv_initiate hon h hi
  | deliver p =>
    show Inv cr s identity (x.deliver cr s e p)
    match hinbox : x.inbox p with
    | [] =>
      rw [deliver, hinbox]
      exact h
    | .req req :: rest => exact inv_deliver_keyreq hon h hinbox hi
    | .rsp rsp :: rest => exact inv_deliver_keyrsp hon hideal h hinbox hi
    | .rekey rekey :: rest =>
      have hnever : Genuine cr s identity x p (.rekey rekey) :=
        h.mail p _ (hinbox ▸ List.mem_cons_self)
      exact hnever.elim

/-! ### Runs -/

/-- The start: two clients with empty keyrings but for their channel configurations, and nothing
in flight. -/
def start (identity : Party → Bytes 32) (channels : Party → Table ChannelConfig ChannelConfig.channel)
    (tolerance : Party → Int) : Exchange where
  client p := E2eManager.init (identity p) { Keyring.empty with channels := channels p } (tolerance p)
  inbox _ := []
  initiated := 0
  sent := 0

theorem inv_start {channels : Party → Table ChannelConfig ChannelConfig.channel}
    (tolerance : Party → Int)
    (hconf : ∀ p, (channels p).get? s.channel = some ⟨s.channel, true, .autoAccept⟩) :
    Inv cr s identity (start identity channels tolerance) where
  own _ := rfl
  steady p := ⟨hconf p, nofun, nofun, nofun, rfl⟩
  mail _ := nofun
  agree _ := nofun
  bounded := Nat.le_refl 0
  progress := nofun

/-- **Run lemma**: the invariant holds in every undisturbed run. -/
theorem inv_run (hon : cr.Honest) (hideal : cr.IdealAead)
    {channels : Party → Table ChannelConfig ChannelConfig.channel} (tolerance : Party → Int)
    (hconf : ∀ p, (channels p).get? s.channel = some ⟨s.channel, true, .autoAccept⟩)
    {is : List (Env × Event)}
    (hrun : Run.Guarded (step cr s) (Undisturbed s) (start identity channels tolerance) is) :
    Inv cr s identity (Run.run (step cr s) (start identity channels tolerance) is) :=
  hrun.invariant (fun _ i h hi => inv_step hon hideal i h hi) (inv_start tolerance hconf)

/-- How many KEYREQs the users initiate. -/
def asked (is : List (Env × Event)) : Nat :=
  is.countP (fun i => match i.2 with | .initiate _ _ => true | .deliver _ => false)

theorem initiated_run (x : Exchange) (is : List (Env × Event)) :
    (Run.run (step cr s) x is).initiated = x.initiated + asked is := by
  induction is generalizing x with
  | nil => rfl
  | cons i is ih =>
    obtain ⟨e, event⟩ := i
    rw [Run.run_cons, ih]
    cases event with
    | initiate p peerHandle =>
      have hstep : (step cr s x (e, .initiate p peerHandle)).initiated = x.initiated + 1 := rfl
      rw [hstep, asked, asked, List.countP_cons_of_pos rfl]
      omega
    | deliver p =>
      have hstep : (step cr s x (e, .deliver p)).initiated = x.initiated := by
        show (x.deliver cr s e p).initiated = x.initiated
        unfold deliver
        split
        · rfl
        · split <;> rfl
      rw [hstep, asked, asked, List.countP_cons_of_neg Bool.false_ne_true]

/-- A session row of a client holds the current outgoing key of the other. -/
def Agrees (s : Setting) (x : Exchange) (p : Party) (row : IncomingSession) : Prop :=
  ∃ o, (x.client p.other).keyring.outgoing.get? s.channel = some o ∧ o.pendingRotation = false ∧
    row.sk = o.sk

theorem agrees_of_usableKey {p : Party} {row : IncomingSession}
    (h : usableKey (x.client p.other) s.channel = some row.sk) : Agrees s x p row := by
  obtain ⟨o, ho, hsk⟩ := Option.map_eq_some_iff.mp h
  rw [usableSession, Option.filter_eq_some_iff] at ho
  exact ⟨o, ho.1, by simpa using ho.2, hsk.symm⟩

/-- **The handshake converges**: whatever the order of the users' KEYREQs and of the deliveries,
there are at most four messages for each KEYREQ of a user, a session of a client always holds the
other's outgoing key, and once nothing is in flight, both clients have such a session if any user
has asked. -/
theorem handshake_converges (hon : cr.Honest) (hideal : cr.IdealAead)
    {channels : Party → Table ChannelConfig ChannelConfig.channel} (tolerance : Party → Int)
    (hconf : ∀ p, (channels p).get? s.channel = some ⟨s.channel, true, .autoAccept⟩)
    {is : List (Env × Event)}
    (hrun : Run.Guarded (step cr s) (Undisturbed s) (start identity channels tolerance) is) :
    let x := Run.run (step cr s) (start identity channels tolerance) is
    x.sent ≤ 4 * asked is ∧
      (∀ p row, (x.client p).keyring.incoming.get? (s.handle p.other, s.channel) = some row →
        Agrees s x p row) ∧
      ((∀ p, x.inbox p = []) → 0 < asked is → ∀ p, ∃ row,
        (x.client p).keyring.incoming.get? (s.handle p.other, s.channel) = some row ∧
          row.status = .trusted ∧ Agrees s x p row) := by
  intro x
  have hinv : Inv cr s identity x := inv_run hon hideal tolerance hconf hrun
  have hasked : x.initiated = asked is :=
    (initiated_run (start identity channels tolerance) is).trans (Nat.zero_add _)
  have hagrees : ∀ p row,
      (x.client p).keyring.incoming.get? (s.handle p.other, s.channel) = some row →
        Agrees s x p row :=
    fun p row hrow => agrees_of_usableKey (hinv.agree p row hrow)
  refine ⟨?_, hagrees, fun hquiet hpos p => ?_⟩
  · have hbounded := hinv.bounded
    omega
  · have hnone : ¬ Coming x p := by
      rw [Coming, hquiet p, hquiet p.other]
      rintro (⟨_, hmem⟩ | ⟨_, hmem⟩ | ⟨_, hmem⟩) <;> cases hmem
    have hsession := (hinv.progress (hasked ▸ hpos) p).resolve_right hnone
    obtain ⟨row, hrow⟩ := Option.isSome_iff_exists.mp (Option.isSome_of_any hsession)
    exact ⟨row, hrow, ((hinv.steady p).session row hrow).1, hagrees p row hrow⟩

/-! ### A crossing run -/

/-- Untroubled surroundings, a minute after the ones before, in which every random byte is
`seed`. -/
def constantEnv (seed : UInt8) : Env :=
  { sampleEnv (60 * seed.toNat) 0 with random := fun _ n => Bytes.fill n seed }

def sampleSetting : Setting where
  channel := str "#x"
  handle
    | .alice => str "~alice@a.host"
    | .bob => str "~bob@b.host"
  nick
    | .alice => str "alice"
    | .bob => str "bob"

def sampleIdentity : Party → Bytes 32
  | .alice => Bytes.fill 32 1
  | .bob => Bytes.fill 32 2

def sampleChannels (_ : Party) : Table ChannelConfig ChannelConfig.channel :=
  Table.empty.replace ⟨str "#x", true, .autoAccept⟩

def sampleStart : Exchange := start sampleIdentity sampleChannels (fun _ => 300)

/-- Both users ask at once, and the messages cross. -/
def crossing : List (UInt8 × Event) :=
  [(1, .initiate .alice none), (2, .initiate .bob none), (3, .deliver .bob), (4, .deliver .alice),
    (5, .deliver .alice), (6, .deliver .bob), (7, .deliver .alice), (8, .deliver .bob),
    (9, .deliver .alice), (10, .deliver .bob)]

/-- The steps with their surroundings. -/
def inSample (is : List (UInt8 × Event)) : List (Env × Event) :=
  is.map (fun i => (constantEnv i.1, i.2))

/-- Whether no random value of a run is the nonce of a handshake in flight and the rate limiters
permit. -/
def calm : Exchange → List (UInt8 × Event) → Bool
  | _, [] => true
  | x, (seed, event) :: rest =>
    decide (pendingOf (str "#x") (x.client event.party) (Bytes.fill 16 seed) = none) &&
      ((x.client event.party).rateLimiter.allowIncoming (constantEnv seed).instant
        (sampleSetting.handle event.party.other)).1 &&
      ((x.client event.party).rateLimiter.allowOutgoing (constantEnv seed).instant
        (sampleSetting.handle event.party.other)).1 &&
      calm (step sample sampleSetting x (constantEnv seed, event)) rest

theorem guarded_of_calm {is : List (UInt8 × Event)} (h : calm x is = true) :
    Run.Guarded (step sample sampleSetting) (Undisturbed sampleSetting) x (inSample is) := by
  induction is generalizing x with
  | nil => trivial
  | cons i is ih =>
    obtain ⟨seed, event⟩ := i
    rw [calm, Bool.and_eq_true, Bool.and_eq_true, Bool.and_eq_true, decide_eq_true_eq] at h
    obtain ⟨⟨⟨hfresh, hin⟩, hout⟩, hrest⟩ := h
    refine ⟨⟨fun _ => rfl, fun _ _ => hfresh, ?_⟩, ih hrest⟩
    rintro p rfl
    exact ⟨hin, hout⟩

/-- The two clients after the crossing. -/
def crossed : Exchange := Run.run (step sample sampleSetting) sampleStart (inSample crossing)

theorem crossing_converges :
    crossed.sent ≤ 8 ∧ ∀ p, ∃ row,
      (crossed.client p).keyring.incoming.get? (sampleSetting.handle p.other, str "#x") = some row ∧
        row.status = .trusted ∧ Agrees sampleSetting crossed p row := by
  have hcalm : calm sampleStart crossing = true := by decide +kernel
  have hquiet : ∀ p, crossed.inbox p = [] := by
    intro p
    cases p <;> decide +kernel
  obtain ⟨hsent, -, hagree⟩ := handshake_converges sample_honest sample_idealAead (fun _ => 300)
    (fun _ => rfl) (guarded_of_calm hcalm)
  exact ⟨hsent, hagree hquiet (by decide)⟩

end Exchange

end Repartee
