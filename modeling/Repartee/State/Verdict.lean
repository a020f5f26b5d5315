import Repartee.State.Handlers

/-!
# Verdicts

Three kinds of messages can be kept out of the display: a QUIT and a JOIN by the netsplit detector,
and a PRIVMSG by the flood checks. The verdict on a message is computed from the detectors, the
configuration and what the connection sees; the handlers follow it.

## Main definitions

- `State.floodCheck`: which check a PRIVMSG is subject to
- `State.verdict`: what the detectors make of a message, and the detectors afterwards

## Main results

- `turns_handleIrcMessage`: a message makes the same writes in two states that its connection
  cannot tell apart, and leaves the detectors as the verdict says
- `suppressed_of_verdict`: a suppressed message shows its notice, if it has one, and nothing else
-/

set_option autoImplicit false

namespace Repartee

namespace Store

/-! ### The shared windows -/

section Floods

variable (h : Host) (f : FloodState)

theorem countPmTilde_shared (nick : Str) (now : Nat) :
    f.shared.countPmTilde h.hashText nick now =
      ((f.countPmTilde h.hashText nick now).1, (f.countPmTilde h.hashText nick now).2.shared) := by
  have hnicks : f.shared.pmStormNicks = f.pmStormNicks := rfl
  simp only [FloodState.countPmTilde, hnicks]
  generalize (f.pmStormNicks ++ [(h.hashText nick, now)]).filter
    (fun e => decide (cutoff now (seconds 5) ≤ e.2)) = nicks
  by_cases hmany : 6 ≤ (nicks.map Prod.fst).dedup.length
  · rw [if_pos hmany, if_pos hmany]
    rfl
  · rw [if_neg hmany, if_neg hmany]
    rfl

theorem checkPmTildeStorm_shared (nick : Str) (now : Nat) :
    f.shared.checkPmTildeStorm h.hashText nick now =
      ((f.checkPmTildeStorm h.hashText nick now).1,
        (f.checkPmTildeStorm h.hashText nick now).2.shared) := by
  have hblocked : f.shared.pmStormBlockedUntil = f.pmStormBlockedUntil := rfl
  rw [FloodState.checkPmTildeStorm, FloodState.checkPmTildeStorm, countPmTilde_shared, hblocked]
  cases f.pmStormBlockedUntil with
  | none => rfl
  | some deadline =>
    by_cases hlasts : now < deadline
    · simp only [if_pos hlasts]
      rfl
    · simp only [if_neg hlasts]

theorem countText_shared (hash now : Nat) :
    f.shared.countText hash now = ((f.countText hash now).1, (f.countText hash now).2.shared) := by
  have hwindow : f.shared.msgWindow = f.msgWindow := rfl
  have htexts : f.shared.blockedTexts = f.blockedTexts := rfl
  simp only [FloodState.countText, hwindow, htexts]
  generalize (f.msgWindow ++ [(hash, now)]).filter
    (fun e => decide (cutoff now (seconds 5) ≤ e.2)) = window
  by_cases hmany : 5 ≤ window.length ∧ 3 ≤ (window.filter (fun e => e.1 = hash)).length
  · rw [if_pos hmany, if_pos hmany]
    rfl
  · rw [if_neg hmany, if_neg hmany]
    by_cases hfull : f.blockedTexts.rows.length > 50
    · rw [if_pos hfull, if_pos hfull]
      rfl
    · rw [if_neg hfull, if_neg hfull]
      rfl

theorem checkDuplicateFlood_shared (text : Str) (isChannel : Bool) (now : Nat) :
    f.shared.checkDuplicateFlood h.hashText text isChannel now =
      ((f.checkDuplicateFlood h.hashText text isChannel now).1,
        (f.checkDuplicateFlood h.hashText text isChannel now).2.shared) := by
  rw [FloodState.checkDuplicateFlood, FloodState.checkDuplicateFlood, countText_shared]
  have hblocked : f.shared.blockedTexts = f.blockedTexts := rfl
  rw [hblocked]
  by_cases hskip : (!isChannel || text.isEmpty) = true
  · rw [if_pos hskip, if_pos hskip]
  · rw [if_neg hskip, if_neg hskip]
    cases f.blockedTexts.lookup (h.hashText text) with
    | none => rfl
    | some deadline =>
      by_cases hlasts : now < deadline
      · simp only [if_pos hlasts]
        rfl
      · simp only [if_neg hlasts]

/-- The checks of a message neither use nor change the windows of the nick changes. -/
theorem messageVerdict_shared (nick ident target text : Str) (now : Nat) :
    State.messageVerdict h f.shared nick ident target text now =
      ((State.messageVerdict h f nick ident target text now).1,
        (State.messageVerdict h f nick ident target text now).2.shared) := by
  rw [State.messageVerdict, State.messageVerdict]
  -- the tilde check, then the storm check, then the duplicate check
  have htilde : ∀ tilde : Bool,
      (if tilde = true then f.shared.checkTildeNickFlood h.hashText nick now
        else (.allow, f.shared)) =
      (((if tilde = true then f.checkTildeNickFlood h.hashText nick now else (.allow, f)).1),
        (if tilde = true then f.checkTildeNickFlood h.hashText nick now
          else (.allow, f)).2.shared) := by
    intro tilde
    cases tilde <;> rfl
  have hstorm : ∀ (private' : Bool) (g : FloodState),
      (if private' = true then g.shared.checkPmTildeStorm h.hashText nick now
        else (.allow, g.shared)) =
      (((if private' = true then g.checkPmTildeStorm h.hashText nick now else (.allow, g)).1),
        (if private' = true then g.checkPmTildeStorm h.hashText nick now
          else (.allow, g)).2.shared) := by
    intro private' g
    cases private' with
    | true => exact checkPmTildeStorm_shared h g nick now
    | false => rfl
  simp only [htilde]
  generalize (if Text.startsWith ident ['~'] = true then
    f.checkTildeNickFlood h.hashText nick now else (FloodResult.allow, f)) = first
  cases State.judge first.1 (State.tildeNotice nick) with
  | some verdict => rfl
  | none =>
    simp only [hstorm]
    generalize (if (Text.startsWith ident ['~'] && !isChannel target) = true then
      first.2.checkPmTildeStorm h.hashText nick now else (FloodResult.allow, first.2)) = second
    cases State.judge second.1 State.stormNotice with
    | some verdict => rfl
    | none =>
      simp only [checkDuplicateFlood_shared]

/-- A private message of an identified user, and one without a text, is not counted. -/
theorem messageVerdict_of_uncounted {ident target text : Str}
    (htilde : Text.startsWith ident ['~'] = false)
    (htext : (!isChannel target || text.isEmpty) = true) (nick : Str) (now : Nat) :
    State.messageVerdict h f nick ident target text now = (none, f) := by
  rw [State.messageVerdict, htilde]
  simp only [Bool.false_and, State.judge]
  rw [if_neg (by decide), if_neg (by decide)]
  simp only [FloodState.checkDuplicateFlood]
  rw [if_pos htext]

end Floods

/-! ### Verdicts -/

/-- The flood checks that a PRIVMSG is subject to. -/
inductive FloodCheck where
  | unchecked
  | ctcp
  | message
  deriving DecidableEq

namespace State

variable (h : Host) (s : State)

/-- The check of a PRIVMSG: none if it is ignored, exempt, an action or our own. -/
def floodCheck (connId : Str) (msg : IrcMessage) (target text : Str) (a : Arrival) : FloodCheck :=
  let (nick, ident, host) := extractNickUserhost msg.sender
  let isOwn := decide (nick = s.ourNick connId)
  let floodExempt := !isOwn && matchesMaskPatterns h.isMatch s.floodExemptions nick ident host
  let body := a.decrypted.getD text
  if a.decrypted = some [] then .unchecked
  else if s.ignored h nick ident host (chatLevel target body)
      (if isChannel target then some target else none) then .unchecked
  else if isCtcp body then
    if ((ctcpBody body).bind actionText).isSome then .unchecked
    else if s.floodProtection && !floodExempt then .ctcp
    else .unchecked
  else if s.floodProtection && !isOwn && !floodExempt then .message
  else .unchecked

/-- What the detectors make of a message (nothing, or its suppression with or without a notice),
and the detectors afterwards. -/
def verdict (connId : Str) (msg : IrcMessage) (a : Arrival) : Option (Option Str) × Gates :=
  let (nick, ident, host) := extractNickUserhost msg.sender
  match msg.command with
  | .privmsg target text =>
    match s.floodCheck h connId msg target text a with
    | .unchecked => (none, s.gates)
    | .ctcp =>
      let (v, f) := ctcpVerdict s.gates.flood a.now
      (v, { s.gates with flood := f })
    | .message =>
      let (v, f) := messageVerdict h s.gates.flood nick ident target (a.decrypted.getD text) a.now
      (v, { s.gates with flood := f })
  | .join channel _ _ =>
    if nick = s.ourNick connId ∨ s.ignored h nick ident host .joins (some channel) = true then
      (none, s.gates)
    else
      let (rejoined, n) :=
        s.gates.netsplit.handleJoin h.toLowercase a.now nick (makeBufferId h connId channel)
      (if rejoined then some none else none, { s.gates with netsplit := n })
  | .quit reason =>
    if s.ignored h nick ident host .quits none then (none, s.gates)
    else
      let (split, n) := s.gates.netsplit.handleQuit h.toLowercase a.now nick (reason.getD [])
        (s.buffersWith h connId nick)
      (if split then some none else none, { s.gates with netsplit := n })
  | _ => (none, s.gates)

/-- Whether a message leaves the detectors alone: it is not counted by the flood checks, its sender
is not a split user, and it is no QUIT of a split. -/
def spares (connId : Str) (msg : IrcMessage) (a : Arrival) : Bool :=
  let (nick, ident, host) := extractNickUserhost msg.sender
  match msg.command with
  | .privmsg target text =>
    match s.floodCheck h connId msg target text a with
    | .unchecked => true
    | .ctcp => false
    | .message =>
      !Text.startsWith ident ['~'] && (!isChannel target || (a.decrypted.getD text).isEmpty)
  | .join channel _ _ =>
    decide (nick = s.ourNick connId) || s.ignored h nick ident host .joins (some channel) ||
      (s.netsplitState.nickIndex.lookup (h.toLowercase nick)).isNone
  | .quit reason =>
    s.ignored h nick ident host .quits none || !isNetsplitQuit (reason.getD [])
  | _ => true

end State

variable {h : Host} {connId : Str} {s t : State}

theorem verdict_of_spares {msg : IrcMessage} {a : Arrival}
    (hspares : s.spares h connId msg a = true) :
    (s.verdict h connId msg a).2 = s.gates := by
  rw [State.spares] at hspares
  rw [State.verdict]
  generalize extractNickUserhost msg.sender = sender at hspares ⊢
  obtain ⟨nick, ident, host⟩ := sender
  simp only at hspares ⊢
  cases hcmd : msg.command with
  | privmsg target text =>
    rw [hcmd] at hspares
    simp only at hspares ⊢
    cases hcheck : s.floodCheck h connId msg target text a with
    | unchecked => rfl
    | ctcp =>
      rw [hcheck] at hspares
      cases hspares
    | message =>
      rw [hcheck] at hspares
      simp only [Bool.and_eq_true, Bool.not_eq_true'] at hspares
      simp only
      rw [messageVerdict_of_uncounted h _ hspares.1 hspares.2]
  | join channel account realname =>
    rw [hcmd] at hspares
    simp only [Bool.or_eq_true, decide_eq_true_eq, Option.isNone_iff_eq_none] at hspares
    simp only
    by_cases hskip : nick = s.ourNick connId ∨
        s.ignored h nick ident host .joins (some channel) = true
    · rw [if_pos hskip]
    · rw [if_neg hskip]
      have habsent := hspares.resolve_left hskip
      simp only [State.gates, NetsplitState.handleJoin, habsent]
  | quit reason =>
    rw [hcmd] at hspares
    simp only [Bool.or_eq_true, Bool.not_eq_true'] at hspares
    simp only
    by_cases hskip : s.ignored h nick ident host .quits none = true
    · rw [if_pos hskip]
    · rw [if_neg hskip]
      have hplain := hspares.resolve_left hskip
      simp only [State.gates, NetsplitState.handleQuit, hplain, Bool.not_false, if_true]
  | _ => rfl

/-- The verdict depends on the detectors, the configuration and what the connection sees. -/
theorem Agree.verdict (hagree : Agree h connId s t) (msg : IrcMessage) (a : Arrival) :
    s.verdict h connId msg a = t.verdict h connId msg a := by
  have hprotection : s.floodProtection = t.floodProtection :=
    congrArg Gates.floodProtection hagree.gates
  have hexemptions : s.floodExemptions = t.floodExemptions :=
    congrArg Gates.floodExemptions hagree.gates
  have hcheck : ∀ target text, s.floodCheck h connId msg target text a =
      t.floodCheck h connId msg target text a := by
    intro target text
    simp only [State.floodCheck, hagree.ourNick, hagree.ignored, hprotection, hexemptions]
  simp only [State.verdict, hcheck, hagree.gates, hagree.ourNick, hagree.ignored,
    hagree.buffersWith]

/-! ### The handlers -/

/-- A step that writes only the detectors, as far as it is compared. -/
structure Regates (g : Gates) (s s' : State) : Prop where
  connections : s'.connections = s.connections
  rosters : s'.rosters = s.rosters
  gates : s'.gates = g

/-- The writes of a connection lead from a state to another one, with the detectors as given. -/
structure Turns (h : Host) (connId : Str) (ws : List Edit) (g : Gates) (s s' : State) : Prop where
  connections : s'.connections = ws.foldl (fun d w => w.connections connId d) s.connections
  rosters : s'.rosters = ws.foldl (fun rows w => w.rosters h connId rows) s.rosters
  gates : s'.gates = g

theorem Edits.turns {ws : List Edit} {g : Gates} {s s₁ s' : State}
    (hedits : Edits h connId ws s s₁) (hregates : Regates g s₁ s') : Turns h connId ws g s s' :=
  ⟨hregates.connections.trans hedits.connections, hregates.rosters.trans hedits.rosters,
    hregates.gates⟩

theorem Regates.unseen {g : Gates} {s s₁ s' : State} (hregates : Regates g s s₁)
    (hs : Unseen s₁ s') : Regates g s s' :=
  ⟨hs.connections.trans hregates.connections, hs.rosters.trans hregates.rosters,
    hs.gates.trans hregates.gates⟩

theorem Unseen.regates {s s' : State} (hs : Unseen s s') : Regates s.gates s s' :=
  ⟨hs.connections, hs.rosters, hs.gates⟩

theorem regates_netsplit (s : State) (n : NetsplitState) :
    Regates { s.gates with netsplit := n } s { s with netsplitState := n } :=
  ⟨rfl, rfl, rfl⟩

/-- The netsplit detector is asked, and something is shown if it does not object. -/
theorem regates_asked (s : State) (answer : Bool × NetsplitState) {line : State → State}
    (hline : ∀ u, Unseen u (line u)) :
    Regates { s.gates with netsplit := answer.2 } s
      (if answer.1 = true then { s with netsplitState := answer.2 }
        else line { s with netsplitState := answer.2 }) :=
  (regates_netsplit s answer.2).unseen (unseen_ite (Unseen.refl _) (hline _))

theorem regates_flood (s : State) (f : FloodState) :
    Regates { s.gates with flood := f.shared } s { s with floodState := f } :=
  ⟨rfl, rfl, rfl⟩

/-- The writes of a message in two states, and the detectors after it. -/
def TurnsBoth (h : Host) (connId : Str) (g : Gates) (s t s' t' : State) : Prop :=
  ∃ ws, Turns h connId ws g s s' ∧ Turns h connId ws g t t'

theorem Alike.turns {g : Gates} {s₁ t₁ s' t' : State} (halike : Alike h connId s t s₁ t₁)
    (hs : Regates g s₁ s') (ht : Regates g t₁ t') : TurnsBoth h connId g s t s' t' := by
  obtain ⟨ws, hws, hwt⟩ := halike
  exact ⟨ws, hws.turns hs, hwt.turns ht⟩

/-- A message that does not concern the detectors. -/
theorem Alike.turnsBoth (hagree : Agree h connId s t) {s' t' : State}
    (halike : Alike h connId s t s' t') : TurnsBoth h connId s.gates s t s' t' := by
  obtain ⟨ws, hws, hwt⟩ := halike
  exact ⟨ws, ⟨hws.connections, hws.rosters, hws.gates⟩,
    ⟨hwt.connections, hwt.rosters, hwt.gates.trans hagree.gates.symm⟩⟩

theorem turns_handleJoin (hagree : Agree h connId s t) {msg : IrcMessage} {channel : Str}
    {account realname : Option Str} (hcmd : msg.command = .join channel account realname)
    (a : Arrival) :
    TurnsBoth h connId (s.verdict h connId msg a).2 s t
      (s.handleJoin h connId (s.ourNick connId) msg channel account realname a.now)
      (t.handleJoin h connId (t.ourNick connId) msg channel account realname a.now) := by
  have hs := hagree.left channel
  have ht := hagree.right channel
  have husers : ∀ u : State, ∀ id, (u.buffer? id).any (fun b => !b.users.rows.isEmpty) =
      (u.roster id).any (fun r => !r.users.rows.isEmpty) := by
    intro u id
    rw [State.roster, Option.any_map]
    rfl
  rw [State.verdict, State.handleJoin, State.handleJoin, hcmd]
  generalize extractNickUserhost msg.sender = sender
  obtain ⟨nick, ident, host⟩ := sender
  simp only [hagree.ourNick, hagree.ignored, husers, hagree.roster hs ht]
  have hjoined := alike_addNick (h := h) hs ht
    (joinedEntry nick (State.joinAccount account (tagValue msg (str "account"))))
  by_cases hown : nick = t.ourNick connId
  · have hplain : ¬(nick ≠ t.ourNick connId ∧
        t.ignored h nick ident host .joins (some channel) = true) := fun hboth => hboth.1 hown
    rw [if_pos (.inl hown), if_neg hplain, if_pos hown, if_neg hplain, if_pos hown]
    by_cases hpresent : (t.roster (makeBufferId h connId channel)).any
        (fun r => !r.users.rows.isEmpty) = true
    · rw [if_pos hpresent, if_pos hpresent]
      exact (Alike.refl s t).turnsBoth hagree
    · rw [if_neg hpresent, if_neg hpresent]
      exact ((alike_openChannel hagree channel).unseen (unseen_event _ _ _)
        (unseen_event _ _ _)).turnsBoth hagree
  · by_cases hignored : t.ignored h nick ident host .joins (some channel) = true
    · rw [if_pos (.inr hignored), if_pos ⟨hown, hignored⟩, if_pos ⟨hown, hignored⟩]
      exact hjoined.turnsBoth hagree
    · have hplain : ¬(nick ≠ t.ourNick connId ∧
          t.ignored h nick ident host .joins (some channel) = true) := fun hboth => hignored hboth.2
      rw [if_neg (fun heither => heither.elim hown hignored), if_neg hplain, if_neg hown,
        if_neg hplain, if_neg hown]
      -- the detector is asked after the nick has been stored
      refine hjoined.turns ?_ ?_
      · exact regates_asked (s.addNick h _ _) _ (fun u => unseen_event u _ _)
      · rw [hagree.gates]
        exact regates_asked (t.addNick h _ _) _ (fun u => unseen_event u _ _)

theorem gates_removeNickFrom (s : State) (ids : List Str) (nick : Str) :
    (s.removeNickFrom h ids nick).gates = s.gates := by
  induction ids generalizing s with
  | nil => rfl
  | cons id ids ih => exact ih (s.removeNick h id nick)

/-- To remove a nick does not change what is ignored. -/
theorem ignored_removeNickFrom (s : State) (ids : List Str) (nick : Str)
    (sender ident host : Str) (level : IgnoreLevel) (channel : Option Str) :
    (s.removeNickFrom h ids nick).ignored h sender ident host level channel =
      s.ignored h sender ident host level channel := by
  have hignores : (s.removeNickFrom h ids nick).ignores = s.ignores :=
    congrArg Gates.ignores (gates_removeNickFrom s ids nick)
  rw [State.ignored, State.ignored, hignores]

theorem turns_handleQuit (hagree : Agree h connId s t) {msg : IrcMessage} {reason : Option Str}
    (hcmd : msg.command = .quit reason) (a : Arrival) :
    TurnsBoth h connId (s.verdict h connId msg a).2 s t
      (s.handleQuit h connId msg reason a.now) (t.handleQuit h connId msg reason a.now) := by
  rw [State.verdict, State.handleQuit, State.handleQuit, hcmd]
  generalize extractNickUserhost msg.sender = sender
  obtain ⟨nick, ident, host⟩ := sender
  have hremoved := alike_removeNickFrom hagree
    (fun id (hid : id ∈ t.buffersWith h connId nick) =>
      local_of_mem_buffersWith (by rwa [hagree.buffersWith]))
    (fun id hid => local_of_mem_buffersWith hid) nick
  simp only [hagree.buffersWith, ignored_removeNickFrom, hagree.ignored]
  by_cases hignored : t.ignored h nick ident host .quits none = true
  · rw [if_pos hignored, if_pos hignored, if_pos hignored]
    exact hremoved.turnsBoth hagree
  · rw [if_neg hignored, if_neg hignored, if_neg hignored]
    refine hremoved.turns ?_ ?_
    · rw [← gates_removeNickFrom s (t.buffersWith h connId nick) nick]
      exact regates_asked _ _ (fun u => unseen_eventIn u _ _)
    · rw [hagree.gates, ← gates_removeNickFrom t (t.buffersWith h connId nick) nick]
      exact regates_asked _ _ (fun u => unseen_eventIn u _ _)

theorem unseen_answered (s : State) (a : Arrival) : Unseen s (match a.dispatched with
    | some lines => s.showE2eLines h lines
    | none => s) := by
  cases a.dispatched with
  | none => exact Unseen.refl s
  | some lines => exact unseen_showE2eLines s lines

/-- A check is made, and something is shown if it does not object. -/
theorem regates_handleCtcp (s : State) (bufferId : Str) (floodExempt : Bool) (a : Arrival) :
    Regates (if (s.gates.floodProtection && !floodExempt) = true then
        { s.gates with flood := (State.ctcpVerdict s.gates.flood a.now).2 } else s.gates)
      s (s.handleCtcp h bufferId floodExempt a) := by
  rw [State.handleCtcp]
  have hshared : (State.ctcpVerdict s.gates.flood a.now).2 =
      (State.ctcpVerdict s.floodState a.now).2.shared := rfl
  have hgate : (s.floodProtection && !floodExempt) = (s.gates.floodProtection && !floodExempt) :=
    rfl
  rw [hgate]
  by_cases hchecked : (s.gates.floodProtection && !floodExempt) = true
  · rw [if_pos hchecked, if_pos hchecked, hshared]
    generalize State.ctcpVerdict s.floodState a.now = judged
    obtain ⟨verdict, f⟩ := judged
    cases verdict with
    | none => exact (regates_flood s f).unseen (unseen_answered _ a)
    | some notice => exact (regates_flood s f).unseen (unseen_suppress _ bufferId notice)
  · rw [if_neg hchecked, if_neg hchecked]
    exact (unseen_answered s a).regates

theorem regates_handleText (s : State) (bufferId ourNick nick ident target text : Str)
    (floodExempt : Bool) (a : Arrival) :
    Regates (if (s.gates.floodProtection && decide (nick ≠ ourNick) && !floodExempt) = true then
        { s.gates with
          flood := (State.messageVerdict h s.gates.flood nick ident target text a.now).2 }
        else s.gates)
      s (s.handleText h connId bufferId ourNick nick ident target text floodExempt a) := by
  rw [State.handleText]
  have hshared : (State.messageVerdict h s.gates.flood nick ident target text a.now).2 =
      (State.messageVerdict h s.floodState nick ident target text a.now).2.shared :=
    congrArg Prod.snd (messageVerdict_shared h s.floodState nick ident target text a.now)
  have hgate : (s.floodProtection && decide (nick ≠ ourNick) && !floodExempt) =
      (s.gates.floodProtection && decide (nick ≠ ourNick) && !floodExempt) := rfl
  rw [hgate]
  by_cases hchecked : (s.gates.floodProtection && decide (nick ≠ ourNick) && !floodExempt) = true
  · rw [if_pos hchecked, if_pos hchecked, hshared]
    generalize State.messageVerdict h s.floodState nick ident target text a.now = judged
    obtain ⟨verdict, f⟩ := judged
    cases verdict with
    | none => exact (regates_flood s f).unseen (unseen_showChat _ _ _ _ _ _ _ _ _)
    | some notice => exact (regates_flood s f).unseen (unseen_suppress _ bufferId notice)
  · rw [if_neg hchecked, if_neg hchecked]
    exact (unseen_showChat s _ _ _ _ _ _ _ _).regates

/-- What a PRIVMSG writes before its text is looked at. -/
def State.noteSender (h : Host) (s : State) (connId ourNick nick target handle : Str)
    (account : Option Str) : State :=
  let bufferId := State.chatBuffer h connId ourNick nick target
  let isOwn := decide (nick = ourNick)
  ((s.openQuery h connId bufferId target nick handle isOwn).notePeerHandle bufferId target handle
    isOwn).noteAccountTag h bufferId target nick account

theorem alike_noteSender (hagree : Agree h connId s t) (ourNick nick target handle : Str)
    (account : Option Str) :
    Alike h connId s t (s.noteSender h connId ourNick nick target handle account)
      (t.noteSender h connId ourNick nick target handle account) := by
  have hs := hagree.left (if isChannel target || nick = ourNick then target else nick)
  have ht := hagree.right (if isChannel target || nick = ourNick then target else nick)
  rw [← State.chatBuffer] at hs ht
  have hopened : Alike h connId s t
      (s.openQuery h connId (State.chatBuffer h connId ourNick nick target) target nick handle
        (decide (nick = ourNick)))
      (t.openQuery h connId (State.chatBuffer h connId ourNick nick target) target nick handle
        (decide (nick = ourNick))) := by
    rw [State.openQuery, State.openQuery, hagree.hasBuffer hs ht]
    by_cases hopens : (!isChannel target &&
        !t.hasBuffer (State.chatBuffer h connId ourNick nick target)) = true
    · rw [if_pos hopens, if_pos hopens]
      exact alike_addBuffer hagree rfl rfl
    · rw [if_neg hopens, if_neg hopens]
      exact Alike.refl s t
  have hhandle : ∀ u : State, Unseen u (u.notePeerHandle
      (State.chatBuffer h connId ourNick nick target) target handle (decide (nick = ourNick))) :=
    fun u => unseen_ite (unseen_modifyBuffer u _ (fun _ => rfl)) (Unseen.refl u)
  have hnoted := hopened.unseen (hhandle _) (hhandle _)
  refine hnoted.trans ?_
  have hagree' := hagree.step hnoted
  rw [State.noteSender, State.noteSender]
  cases account with
  | none => exact Alike.refl _ _
  | some account =>
    simp only [State.noteAccountTag]
    split_ifs
    · exact alike_updateEntry (hagree'.left _) (hagree'.right _) _ _
    · exact Alike.refl _ _

theorem turns_handlePrivmsg (hagree : Agree h connId s t) {msg : IrcMessage} {target text : Str}
    (hcmd : msg.command = .privmsg target text) {a : Arrival} {s' : State}
    (hstep : s.handlePrivmsg h connId (s.ourNick connId) msg target text a = some s') :
    ∃ t', t.handlePrivmsg h connId (t.ourNick connId) msg target text a = some t' ∧
      TurnsBoth h connId (s.verdict h connId msg a).2 s t s' t' := by
  have hexemptions : s.floodExemptions = t.floodExemptions :=
    congrArg Gates.floodExemptions hagree.gates
  have hunchanged := (@Alike.refl h connId s t).turnsBoth hagree
  rw [State.verdict, hcmd]
  rw [State.handlePrivmsg, hagree.ourNick, hexemptions] at hstep
  rw [State.handlePrivmsg]
  simp only [State.floodCheck, hagree.ourNick, hexemptions]
  generalize extractNickUserhost msg.sender = sender at hstep ⊢
  obtain ⟨nick, ident, host⟩ := sender
  simp only [hagree.ignored] at hstep ⊢
  by_cases hempty : a.decrypted = some []
  · rw [if_pos hempty] at hstep
    cases hstep
    simp only [if_pos hempty]
    exact ⟨t, rfl, hunchanged⟩
  · rw [if_neg hempty] at hstep
    simp only [if_neg hempty]
    generalize a.decrypted.getD text = body at hstep ⊢
    generalize t.ignored h nick ident host (State.chatLevel target body)
      (if isChannel target = true then some target else none) = ignored at hstep ⊢
    cases ignored with
    | true =>
      cases hstep
      exact ⟨t, rfl, hunchanged⟩
    | false =>
      have hnoted := alike_noteSender hagree (t.ourNick connId) nick target (userhost ident host)
        (tagValue msg (str "account"))
      obtain ⟨ws, hws, hwt⟩ := id hnoted
      rw [if_neg (by decide)] at hstep
      simp only [Bool.false_eq_true, if_false]
      generalize (!decide (nick = t.ourNick connId) && matchesMaskPatterns h.isMatch
        t.floodExemptions nick ident host) = floodExempt at hstep ⊢
      by_cases hctcp : State.isCtcp body = true
      · rw [if_pos hctcp] at hstep
        simp only [if_pos hctcp]
        cases hframed : State.ctcpBody body with
        | none =>
          rw [hframed] at hstep
          cases hstep
        | some framed =>
          rw [hframed] at hstep
          simp only [Option.map_some, Option.bind_some] at hstep ⊢
          rcases (State.actionText framed).eq_none_or_eq_some with haction | ⟨action, haction⟩
          · simp only [haction, Option.isSome_none, Bool.false_eq_true, if_false] at hstep ⊢
            cases hstep
            have hs := regates_handleCtcp (h := h) (s.noteSender h connId (t.ourNick connId) nick
              target (userhost ident host) (tagValue msg (str "account")))
              (State.chatBuffer h connId (t.ourNick connId) nick target) floodExempt a
            have ht := regates_handleCtcp (h := h) (t.noteSender h connId (t.ourNick connId) nick
              target (userhost ident host) (tagValue msg (str "account")))
              (State.chatBuffer h connId (t.ourNick connId) nick target) floodExempt a
            rw [hws.gates] at hs
            rw [hwt.gates, ← hagree.gates] at ht
            refine ⟨_, rfl, ?_⟩
            by_cases hchecked : (s.gates.floodProtection && !floodExempt) = true
            · rw [if_pos hchecked] at hs ht
              rw [if_pos (show (s.floodProtection && !floodExempt) = true from hchecked)]
              exact hnoted.turns hs ht
            · rw [if_neg hchecked] at hs ht
              rw [if_neg (show ¬(s.floodProtection && !floodExempt) = true from hchecked)]
              exact hnoted.turns hs ht
          · simp only [haction, Option.isSome_some, if_true] at hstep ⊢
            cases hstep
            exact ⟨_, rfl, (hnoted.unseen (unseen_showChat _ _ _ _ _ _ _ _ _)
              (unseen_showChat _ _ _ _ _ _ _ _ _)).turnsBoth hagree⟩
      · rw [if_neg hctcp] at hstep
        simp only [if_neg hctcp]
        cases hstep
        have hs := @regates_handleText h connId (s.noteSender h connId
          (t.ourNick connId) nick target (userhost ident host) (tagValue msg (str "account")))
          (State.chatBuffer h connId (t.ourNick connId) nick target) (t.ourNick connId) nick ident
          target body floodExempt a
        have ht := @regates_handleText h connId (t.noteSender h connId
          (t.ourNick connId) nick target (userhost ident host) (tagValue msg (str "account")))
          (State.chatBuffer h connId (t.ourNick connId) nick target) (t.ourNick connId) nick ident
          target body floodExempt a
        rw [hws.gates] at hs
        rw [hwt.gates, ← hagree.gates] at ht
        refine ⟨_, rfl, ?_⟩
        have hgate : (s.floodProtection && !decide (nick = t.ourNick connId) && !floodExempt) =
            (s.gates.floodProtection && decide (nick ≠ t.ourNick connId) && !floodExempt) := by
          rw [decide_not]
          rfl
        rw [hgate]
        by_cases hchecked :
            (s.gates.floodProtection && decide (nick ≠ t.ourNick connId) && !floodExempt) = true
        · rw [if_pos hchecked] at hs ht ⊢
          exact hnoted.turns hs ht
        · rw [if_neg hchecked] at hs ht ⊢
          exact hnoted.turns hs ht

/-- A message of a connection makes the same writes in two states that the connection cannot tell
apart, and leaves the detectors as the verdict says. -/
theorem turns_handleIrcMessage (hagree : Agree h connId s t) {msg : IrcMessage} {a : Arrival}
    {s' : State} (hstep : s.handleIrcMessage h connId msg a = some s') :
    ∃ t', t.handleIrcMessage h connId msg a = some t' ∧
      TurnsBoth h connId (s.verdict h connId msg a).2 s t s' t' := by
  have hplain : ∀ {s' t' : State}, (s.verdict h connId msg a).2 = s.gates →
      Alike h connId s t s' t' →
      ∃ t'', some t' = some t'' ∧ TurnsBoth h connId (s.verdict h connId msg a).2 s t s' t'' := by
    intro s' t' hgates halike
    rw [hgates]
    exact ⟨t', rfl, halike.turnsBoth hagree⟩
  have hunseen : ∀ {s' t' : State}, Unseen s s' → Unseen t t' → Alike h connId s t s' t' :=
    fun hs ht => alike_of_unseen hs ht
  rw [State.handleIrcMessage] at hstep ⊢
  cases hcmd : msg.command with
  | privmsg target text =>
    rw [hcmd] at hstep
    exact turns_handlePrivmsg hagree hcmd hstep
  | join channel account realname =>
    rw [hcmd] at hstep
    cases hstep
    exact ⟨_, rfl, turns_handleJoin hagree hcmd a⟩
  | quit reason =>
    rw [hcmd] at hstep
    cases hstep
    exact ⟨_, rfl, turns_handleQuit hagree hcmd a⟩
  | notice target text =>
    rw [hcmd] at hstep
    cases hstep
    exact hplain (by rw [State.verdict, hcmd]) (hunseen (unseen_handleNotice s _ _ _ _ _)
      (unseen_handleNotice t _ _ _ _ _))
  | part channel reason =>
    rw [hcmd, hagree.ourNick] at hstep
    cases hstep
    exact hplain (by rw [State.verdict, hcmd]) (alike_handlePart hagree _ msg channel reason)
  | nick newNick =>
    rw [hcmd, hagree.ourNick] at hstep
    cases hstep
    exact hplain (by rw [State.verdict, hcmd]) (alike_handleNickChange hagree _ msg newNick a.now)
  | kick channel kickedUser reason =>
    rw [hcmd, hagree.ourNick] at hstep
    cases hstep
    exact hplain (by rw [State.verdict, hcmd])
      (alike_handleKick hagree _ msg channel kickedUser reason)
  | topic channel topic =>
    rw [hcmd] at hstep
    cases hstep
    exact hplain (by rw [State.verdict, hcmd])
      (hunseen (unseen_handleTopic s _ _ _) (unseen_handleTopic t _ _ _))
  | channelMode target modes =>
    rw [hcmd] at hstep
    cases hstep
    exact hplain (by rw [State.verdict, hcmd]) (alike_handleChannelMode hagree msg target modes)
  | userMode target modes =>
    rw [hcmd] at hstep
    cases hstep
    exact hplain (by rw [State.verdict, hcmd])
      (hunseen (unseen_event s _ _) (unseen_event t _ _))
  | invite nick channel =>
    rw [hcmd] at hstep
    cases hstep
    exact hplain (by rw [State.verdict, hcmd])
      (hunseen (unseen_handleInvite s _ _ _ _) (unseen_handleInvite t _ _ _ _))
  | wallops text =>
    rw [hcmd] at hstep
    cases hstep
    exact hplain (by rw [State.verdict, hcmd])
      (hunseen (unseen_event s _ _) (unseen_event t _ _))
  | account account =>
    rw [hcmd] at hstep
    cases hstep
    exact hplain (by rw [State.verdict, hcmd]) (alike_handleAccount s t msg account)
  | away reason =>
    rw [hcmd] at hstep
    cases hstep
    exact hplain (by rw [State.verdict, hcmd]) (alike_handleAway s t msg reason)
  | chghost newUser newHost =>
    rw [hcmd] at hstep
    cases hstep
    exact hplain (by rw [State.verdict, hcmd]) (alike_handleChghost s t msg newUser newHost)
  | error message =>
    rw [hcmd] at hstep
    cases hstep
    exact hplain (by rw [State.verdict, hcmd])
      (hunseen (unseen_event s _ _) (unseen_event t _ _))
  | numeric code args =>
    rw [hcmd] at hstep
    cases hstep
    exact hplain (by rw [State.verdict, hcmd]) (alike_handleResponse hagree code args a)
  | raw _ _ =>
    rw [hcmd] at hstep
    cases hstep
    exact hplain (by rw [State.verdict, hcmd]) (Alike.refl s t)

/-- The flag of a script is not compared. -/
theorem turns_dispatch (hagree : Agree h connId s t) {msg : IrcMessage} {hidden : Bool}
    {a : Arrival} {s' : State} (hstep : dispatch h s connId msg hidden a = some s') :
    ∃ t', dispatch h t connId msg hidden a = some t' ∧
      TurnsBoth h connId (s.verdict h connId msg a).2 s t s' t' := by
  obtain ⟨s₁, hhandled, rfl⟩ := Option.map_eq_some_iff.mp hstep
  have hset : ∀ (u : State) hide, Unseen u { u with suppressEventDisplay := hide } :=
    fun u hide => ⟨rfl, rfl, rfl⟩
  obtain ⟨t₁, hhandled', ws, hs, ht⟩ :=
    turns_handleIrcMessage (hagree.unseen (hset s hidden) (hset t hidden)) hhandled
  refine ⟨{ t₁ with suppressEventDisplay := false }, ?_, ws, ?_, ?_⟩
  · rw [dispatch, hhandled', Option.map_some]
  · exact ⟨hs.connections, hs.rosters, hs.gates⟩
  · exact ⟨ht.connections, ht.rosters, ht.gates⟩

/-! ### Suppressed messages -/

/-- The messages of a buffer; none if it does not exist. -/
def State.history (s : State) (id : Str) : List Message :=
  ((s.buffer? id).map Buffer.messages).getD []

theorem history_modifyBuffer (s : State) (id : Str) {f : Buffer → Buffer}
    (hf : ∀ b, (f b).messages = b.messages) (id' : Str) :
    (s.modifyBuffer id f).history id' = s.history id' := by
  rw [State.history, State.history, State.buffer?_modifyBuffer]
  split_ifs
  · rw [Option.map_map]
    congr 2
    funext b
    exact hf b
  · rfl

theorem history_removeNickFrom (s : State) (ids : List Str) (nick id' : Str) :
    (s.removeNickFrom h ids nick).history id' = s.history id' := by
  induction ids generalizing s with
  | nil => rfl
  | cons id ids ih =>
    refine (ih (s.removeNick h id nick)).trans ?_
    apply history_modifyBuffer
    exact fun _ => rfl

/-- A query is opened without messages. -/
theorem history_openQuery (s : State) (bufferId target nick handle : Str) (isOwn : Bool)
    (id' : Str) :
    (s.openQuery h connId bufferId target nick handle isOwn).history id' = s.history id' := by
  rw [State.openQuery]
  by_cases hopens : (!isChannel target && !s.hasBuffer bufferId) = true
  · rw [if_pos hopens, State.history, State.buffer?_addBuffer]
    simp only
    by_cases hid : bufferId = id'
    · rw [if_pos hid, State.history]
      have hnone : s.buffer? id' = none := by
        simpa [hid, State.hasBuffer] using ((Bool.and_eq_true _ _).mp hopens).2
      rw [hnone]
      rfl
    · rw [if_neg hid, State.history]
  · rw [if_neg hopens]

theorem history_noteSender (s : State) (ourNick nick target handle : Str) (account : Option Str)
    (id' : Str) :
    (s.noteSender h connId ourNick nick target handle account).history id' = s.history id' := by
  rw [State.noteSender]
  generalize State.chatBuffer h connId ourNick nick target = bufferId
  have hhandle : ∀ u : State, ∀ isOwn,
      (u.notePeerHandle bufferId target handle isOwn).history id' = u.history id' := by
    intro u isOwn
    rw [State.notePeerHandle]
    split_ifs
    · apply history_modifyBuffer
      exact fun _ => rfl
    · rfl
  have haccount : ∀ u : State,
      (u.noteAccountTag h bufferId target nick account).history id' = u.history id' := by
    intro u
    cases account with
    | none => rfl
    | some account =>
      rw [State.noteAccountTag]
      split_ifs
      · apply history_modifyBuffer
        exact fun _ => rfl
      · rfl
  rw [haccount, hhandle, history_openQuery]

theorem frame_noteSender (s : State) (ourNick nick target handle : Str) (account : Option Str) :
    (s.noteSender h connId ourNick nick target handle account).floodState = s.floodState ∧
      (s.noteSender h connId ourNick nick target handle account).floodProtection =
        s.floodProtection := by
  rw [State.noteSender]
  cases account with
  | none =>
    simp only [State.noteAccountTag, State.notePeerHandle, State.openQuery]
    split_ifs <;> exact ⟨rfl, rfl⟩
  | some account =>
    simp only [State.noteAccountTag, State.notePeerHandle, State.openQuery]
    split_ifs <;> exact ⟨rfl, rfl⟩

/-- The check of a CTCP has objected. -/
theorem suppressed_handleCtcp {bufferId : Str} {floodExempt : Bool} {a : Arrival}
    {notice : Option Str} (hchecked : (s.floodProtection && !floodExempt) = true)
    (hverdict : (State.ctcpVerdict s.floodState a.now).1 = some notice) :
    s.handleCtcp h bufferId floodExempt a =
      State.suppress h { s with floodState := (State.ctcpVerdict s.floodState a.now).2 } bufferId
        notice := by
  rw [State.handleCtcp, if_pos hchecked]
  simp only [hverdict]

/-- A check of a text has objected. -/
theorem suppressed_handleText {bufferId ourNick nick ident target text : Str} {floodExempt : Bool}
    {a : Arrival} {notice : Option Str}
    (hchecked : (s.floodProtection && decide (nick ≠ ourNick) && !floodExempt) = true)
    (hverdict : (State.messageVerdict h s.floodState nick ident target text a.now).1 =
      some notice) :
    s.handleText h connId bufferId ourNick nick ident target text floodExempt a =
      State.suppress h
        { s with
          floodState := (State.messageVerdict h s.floodState nick ident target text a.now).2 }
        bufferId notice := by
  rw [State.handleText, if_pos hchecked]
  simp only [hverdict]

theorem suppressed_handlePrivmsg {msg : IrcMessage} {target text : Str}
    (hcmd : msg.command = .privmsg target text) {a : Arrival} {s' : State} {notice : Option Str}
    (hstep : s.handlePrivmsg h connId (s.ourNick connId) msg target text a = some s')
    (hverdict : (s.verdict h connId msg a).1 = some notice) :
    ∃ u bufferId, (∀ id, State.history u id = s.history id) ∧
      s' = State.suppress h u bufferId notice := by
  rw [State.verdict, hcmd] at hverdict
  simp only [State.floodCheck] at hverdict
  rw [State.handlePrivmsg] at hstep
  generalize extractNickUserhost msg.sender = sender at hstep hverdict
  obtain ⟨nick, ident, host⟩ := sender
  simp only at hstep hverdict
  by_cases hempty : a.decrypted = some []
  · rw [if_pos hempty] at hverdict
    cases hverdict
  · rw [if_neg hempty] at hstep hverdict
    generalize a.decrypted.getD text = body at hstep hverdict
    by_cases hignored : s.ignored h nick ident host (State.chatLevel target body)
        (if isChannel target = true then some target else none) = true
    · rw [if_pos hignored] at hverdict
      cases hverdict
    · rw [if_neg hignored] at hstep hverdict
      generalize (!decide (nick = s.ourNick connId) && matchesMaskPatterns h.isMatch
        s.floodExemptions nick ident host) = floodExempt at hstep hverdict
      have hhistory := @history_noteSender h connId s (s.ourNick connId) nick
        target (userhost ident host) (tagValue msg (str "account"))
      obtain ⟨hflood, hprotection⟩ := @frame_noteSender h connId s
        (s.ourNick connId) nick target (userhost ident host) (tagValue msg (str "account"))
      by_cases hctcp : State.isCtcp body = true
      · rw [if_pos hctcp] at hstep hverdict
        obtain ⟨framed, hframed, rfl⟩ := Option.map_eq_some_iff.mp hstep
        rw [hframed, Option.bind_some] at hverdict
        rcases (State.actionText framed).eq_none_or_eq_some with haction | ⟨action, haction⟩
        · simp only [haction, Option.isSome_none, Bool.false_eq_true, if_false] at hverdict ⊢
          by_cases hchecked : (s.floodProtection && !floodExempt) = true
          · rw [if_pos hchecked] at hverdict
            rw [← hprotection] at hchecked
            refine ⟨_, _, ?_, suppressed_handleCtcp hchecked (hflood.symm ▸ hverdict)⟩
            exact hhistory
          · rw [if_neg hchecked] at hverdict
            cases hverdict
        · simp only [haction, Option.isSome_some, if_true] at hverdict
          cases hverdict
      · rw [if_neg hctcp] at hstep hverdict
        cases hstep
        have hgate : (s.floodProtection && !decide (nick = s.ourNick connId) && !floodExempt) =
            (s.floodProtection && decide (nick ≠ s.ourNick connId) && !floodExempt) := by
          rw [decide_not]
        rw [hgate] at hverdict
        by_cases hchecked :
            (s.floodProtection && decide (nick ≠ s.ourNick connId) && !floodExempt) = true
        · rw [if_pos hchecked] at hverdict
          rw [← hprotection] at hchecked
          have hjudged := congrArg Prod.fst
            (messageVerdict_shared h s.floodState nick ident target body a.now)
          have hobjects := hjudged.symm.trans hverdict
          rw [← hflood] at hobjects
          refine ⟨_, _, ?_, suppressed_handleText hchecked hobjects⟩
          exact hhistory
        · rw [if_neg hchecked] at hverdict
          cases hverdict

/-- A suppressed message shows its notice, if it has one, and nothing else. -/
theorem suppressed_of_verdict {msg : IrcMessage} {a : Arrival} {s' : State}
    {notice : Option Str} (hstep : s.handleIrcMessage h connId msg a = some s')
    (hverdict : (s.verdict h connId msg a).1 = some notice) :
    ∃ u bufferId, (∀ id, State.history u id = s.history id) ∧
      s' = State.suppress h u bufferId notice := by
  have hsplit : ∀ (answer : Bool × NetsplitState) (u : State) (line : State),
      (if answer.1 = true then some none else none : Option (Option Str)) = some notice →
      (if answer.1 = true then { u with netsplitState := answer.2 } else line) =
        State.suppress h { u with netsplitState := answer.2 } [] notice := by
    intro answer u line heq
    by_cases hanswer : answer.1 = true
    · rw [if_pos hanswer] at heq ⊢
      cases heq
      rfl
    · rw [if_neg hanswer] at heq
      cases heq
  rw [State.handleIrcMessage] at hstep
  cases hcmd : msg.command with
  | privmsg target text =>
    rw [hcmd] at hstep
    exact suppressed_handlePrivmsg hcmd hstep hverdict
  | join channel account realname =>
    rw [State.verdict, hcmd] at hverdict
    rw [hcmd] at hstep
    cases hstep
    rw [State.handleJoin]
    generalize extractNickUserhost msg.sender = sender at hverdict ⊢
    obtain ⟨nick, ident, host⟩ := sender
    simp only at hverdict ⊢
    by_cases hskip : nick = s.ourNick connId ∨
        s.ignored h nick ident host .joins (some channel) = true
    · rw [if_pos hskip] at hverdict
      cases hverdict
    · rw [if_neg hskip] at hverdict
      rw [if_neg (fun hboth => hskip (.inr hboth.2)), if_neg (fun hown => hskip (.inl hown))]
      refine ⟨_, [], ?_, hsplit _ _ _ hverdict⟩
      intro id
      apply history_modifyBuffer
      exact fun _ => rfl
  | quit reason =>
    rw [State.verdict, hcmd] at hverdict
    rw [hcmd] at hstep
    cases hstep
    rw [State.handleQuit]
    generalize extractNickUserhost msg.sender = sender at hverdict ⊢
    obtain ⟨nick, ident, host⟩ := sender
    simp only [ignored_removeNickFrom] at hverdict ⊢
    by_cases hignored : s.ignored h nick ident host .quits none = true
    · rw [if_pos hignored] at hverdict
      cases hverdict
    · rw [if_neg hignored] at hverdict
      rw [← gates_removeNickFrom s (s.buffersWith h connId nick) nick] at hverdict
      rw [if_neg hignored]
      refine ⟨_, [], ?_, hsplit _ _ _ hverdict⟩
      intro id
      exact history_removeNickFrom s _ nick id
  | _ =>
    rw [State.verdict, hcmd] at hverdict
    cases hverdict

end Store

end Repartee
