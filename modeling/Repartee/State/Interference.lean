import Repartee.State.History
import Repartee.State.Verdict

/-!
# Interference between connections

All connections share one netsplit detector and one set of flood windows. A connection leaves the
nicklists of the others alone, and it leaves the verdicts on their messages alone as long as none
of its own messages is noted in what is shared.

## Main definitions

- `Store.Apart`: connections that share no buffer id
- `Op.isEventOf`: the events of a connection
- `NotesNothing`: the events that note nothing in the shared detectors
- `SameBut`: two states that agree on everything but one connection

## Main results

- `sameBut_event`: an event that notes nothing changes nothing of the other connections
- `sameBut_step`: every other step does the same with and without the connection
- `spared_run`: the run without the events of a connection
-/

set_option autoImplicit false

namespace Repartee

namespace Store

/-! ### Places -/

/-- No connection id continues another one behind a slash. -/
def Apart (ids : List Str) : Prop :=
  ∀ c ∈ ids, ∀ c' ∈ ids, c ≠ c' → ¬(c ++ ['/']) <+: c'

instance (ids : List Str) : Decidable (Apart ids) :=
  inferInstanceAs (Decidable (∀ c ∈ ids, ∀ c' ∈ ids, c ≠ c' → ¬(c ++ ['/']) <+: c'))

variable {h : Host}

theorem Apart.eq_of_makeBufferId {ids : List Str} (hapart : Apart ids) {c c' name name' : Str}
    (hc : c ∈ ids) (hc' : c' ∈ ids) (heq : makeBufferId h c name = makeBufferId h c' name') :
    c = c' := by
  by_contra hne
  rw [makeBufferId, makeBufferId] at heq
  rcases List.append_eq_append_iff.mp heq with ⟨rest, hrest, hslash⟩ | ⟨rest, hrest, hslash⟩
  · cases rest with
    | nil => exact hne (by simpa using hrest.symm)
    | cons x rest =>
      rw [List.cons_append, List.cons.injEq] at hslash
      apply hapart c hc c' hc' hne
      rw [hrest, ← hslash.1]
      exact ⟨rest, by simp⟩
  · cases rest with
    | nil => exact hne (by simpa using hrest)
    | cons x rest =>
      rw [List.cons_append, List.cons.injEq] at hslash
      apply hapart c' hc' c hc (Ne.symm hne)
      rw [hrest, ← hslash.1]
      exact ⟨rest, by simp⟩

/-- The buffers of some connections are stored under their ids, and the mentions under theirs. -/
structure Placed (h : Host) (ids : List Str) (s : State) : Prop where
  own : ∀ c ∈ ids, ∀ name, Local c s.rosters (makeBufferId h c name)
  mentions : Local [] s.rosters mentionsId

theorem Placed.turns {ids : List Str} (hapart : Apart ids) {connId : Str} (hconn : connId ∈ ids)
    {ws : List Edit} {g : Gates} {s s' : State} (hturns : Turns h connId ws g s s')
    (hs : Placed h ids s) : Placed h ids s' := by
  constructor
  · intro c hc name
    rw [hturns.rosters]
    refine foldl_rosters (P := fun rows => Local c rows (makeBufferId h c name))
      (fun w rows hrows r hr => ?_) ws (hs.own c hc name)
    rcases mem_rosters w hr with ⟨howner, name', hid⟩ | ⟨r', hr', howner⟩
    · exact howner.trans (hapart.eq_of_makeBufferId hc hconn hid).symm
    · exact howner ▸ hrows r' hr'
  · rw [hturns.rosters]
    refine foldl_rosters (P := fun rows => Local [] rows mentionsId)
      (fun w rows hrows r hr => ?_) ws hs.mentions
    rcases mem_rosters w hr with ⟨-, name', hid⟩ | ⟨r', hr', howner⟩
    · exact absurd hid.symm (makeBufferId_ne_mentionsId h connId name')
    · exact howner ▸ hrows r' hr'

theorem Placed.of_subset {ids : List Str} {s s' : State} (hs : Placed h ids s)
    (hsubset : ∀ e ∈ s'.rosters, e ∈ s.rosters) : Placed h ids s' :=
  ⟨fun c hc name r hr => hs.own c hc name r (hsubset _ hr),
    fun r hr => hs.mentions r (hsubset _ hr)⟩

/-! ### Everything but one connection -/

/-- The rosters that do not belong to a connection. -/
def State.rostersBut (connId : Str) (s : State) : Rosters :=
  s.rosters.filter (fun e => decide (e.2.connectionId ≠ connId))

/-- Two states that agree on everything but one connection, as far as they are compared. -/
structure SameBut (connId : Str) (s t : State) : Prop where
  connections : s.connections.erase connId = t.connections.erase connId
  rosters : s.rostersBut connId = t.rostersBut connId
  gates : s.gates = t.gates

theorem SameBut.refl (connId : Str) (s : State) : SameBut connId s s := ⟨rfl, rfl, rfl⟩

theorem SameBut.symm {connId : Str} {s t : State} (hsame : SameBut connId s t) :
    SameBut connId t s :=
  ⟨hsame.connections.symm, hsame.rosters.symm, hsame.gates.symm⟩

theorem SameBut.trans {connId : Str} {s t u : State} (h₁ : SameBut connId s t)
    (h₂ : SameBut connId t u) : SameBut connId s u :=
  ⟨h₁.connections.trans h₂.connections, h₁.rosters.trans h₂.rosters, h₁.gates.trans h₂.gates⟩

theorem Unseen.sameBut {s s' : State} (hs : Unseen s s') (connId : Str) : SameBut connId s s' :=
  ⟨congrArg (fun d => d.erase connId) hs.connections.symm,
    congrArg (List.filter _) hs.rosters.symm, hs.gates.symm⟩

theorem rosters_foldl_but (ws : List Edit) (connId : Str) (rows : Rosters) :
    (ws.foldl (fun rows w => w.rosters h connId rows) rows).filter
        (fun e => decide (e.2.connectionId ≠ connId)) =
      rows.filter (fun e => decide (e.2.connectionId ≠ connId)) := by
  induction ws generalizing rows with
  | nil => rfl
  | cons w ws ih =>
    rw [List.foldl_cons, ih]
    rw [filter_rosters w (fun c => decide (c ≠ connId)), if_neg (by simp)]

theorem rows_modify_erase (d : Dict Str Connection) {c connId : Str} (f : Connection → Connection) :
    (d.modify c f).erase connId =
      if c = connId then d.erase connId else (d.erase connId).modify c f := by
  apply Table.ext
  rw [Dict.erase, Dict.modify, Table.deleteWhere, Table.updateWhere]
  simp only
  rw [List.filter_map]
  have hkey : (fun r : Str × Connection => !decide (r.1 = connId)) ∘ (fun r =>
      if decide (r.1 = c) = true then (r.1, f r.2) else r) = fun r => !decide (r.1 = connId) := by
    funext r
    simp only [Function.comp]
    split_ifs <;> rfl
  rw [hkey]
  by_cases hc : c = connId
  · rw [if_pos hc]
    refine (List.map_congr_left (fun r hr => ?_)).trans (List.map_id _)
    have hother : r.1 ≠ c := by
      rw [hc]
      simpa using (List.mem_filter.mp hr).2
    rw [if_neg (by simpa using hother)]
    rfl
  · rw [if_neg hc]
    rfl

theorem erase_insert (d : Dict Str Connection) (c connId : Str) (x : Connection) :
    (d.insert c x).erase connId =
      if c = connId then d.erase connId else (d.erase connId).insert c x := by
  apply Table.ext
  have hinserted : ((d.insert c x).erase connId).rows =
      (d.rows.filter (fun r => !decide (r.1 = c)) ++ [(c, x)]).filter
        (fun r => !decide (r.1 = connId)) := rfl
  rw [hinserted, List.filter_append, List.filter_filter]
  by_cases hc : c = connId
  · subst hc
    rw [if_pos rfl]
    simp only [Bool.and_self]
    have hlast : ([(c, x)] : List (Str × Connection)).filter (fun r => !decide (r.1 = c)) = [] := by
      simp
    rw [hlast, List.append_nil]
    rfl
  · rw [if_neg hc]
    have hlast : ([(c, x)] : List (Str × Connection)).filter (fun r => !decide (r.1 = connId)) =
        [(c, x)] := by
      simp [hc]
    have herased : ((d.erase connId).insert c x).rows =
        (d.rows.filter (fun r => !decide (r.1 = connId))).filter (fun r => !decide (r.1 = c)) ++
          [(c, x)] := rfl
    rw [hlast, herased, List.filter_filter]
    congr 1
    exact List.filter_congr (fun r _ => Bool.and_comm _ _)

theorem erase_foldl_connections (ws : List Edit) {c connId : Str} (d : Dict Str Connection) :
    (ws.foldl (fun d w => w.connections c d) d).erase connId =
      if c = connId then d.erase connId
      else ws.foldl (fun d w => w.connections c d) (d.erase connId) := by
  induction ws generalizing d with
  | nil => exact (ite_self _).symm
  | cons w ws ih =>
    rw [List.foldl_cons, ih]
    have hfirst : (w.connections c d).erase connId =
        if c = connId then d.erase connId else w.connections c (d.erase connId) := by
      cases w with
      | connection f => exact rows_modify_erase d f
      | users g => exact (ite_self _).symm
      | opens key bufferType name entries => exact (ite_self _).symm
      | closes id => exact (ite_self _).symm
    rw [hfirst]
    by_cases hc : c = connId
    · simp only [if_pos hc]
    · simp only [if_neg hc, List.foldl_cons]

/-- What a connection writes is its own. -/
theorem Turns.sameBut {connId : Str} {ws : List Edit} {s s' : State}
    (hturns : Turns h connId ws s.gates s s') : SameBut connId s s' := by
  refine ⟨?_, ?_, hturns.gates.symm⟩
  · rw [hturns.connections, erase_foldl_connections, if_pos rfl]
  · rw [State.rostersBut, State.rostersBut, hturns.rosters, rosters_foldl_but]

/-- The same writes of another connection. -/
theorem SameBut.turns {c connId : Str} (hc : c ≠ connId) {g : Gates} {s t s' t' : State}
    (hsame : SameBut connId s t) (hboth : TurnsBoth h c g s t s' t') : SameBut connId s' t' := by
  obtain ⟨ws, hs, ht⟩ := hboth
  refine ⟨?_, ?_, hs.gates.trans ht.gates.symm⟩
  · rw [hs.connections, ht.connections, erase_foldl_connections, erase_foldl_connections,
      if_neg hc, if_neg hc, hsame.connections]
  · rw [State.rostersBut, State.rostersBut, hs.rosters, ht.rosters]
    exact filter_foldl_rosters ws (p := fun c => decide (c ≠ connId)) (decide_eq_true hc)
      hsame.rosters

/-- Another connection cannot tell the two states apart. -/
theorem SameBut.agree {ids : List Str} {c connId : Str} (hids : c ∈ ids) (hc : c ≠ connId)
    {s t : State} (hsame : SameBut connId s t) (hs : Placed h ids s) (ht : Placed h ids t) :
    Agree h c s t := by
  refine ⟨?_, ?_, hsame.gates, hs.own c hids, ht.own c hids⟩
  · have hlookup := congrArg (fun d => d.lookup c) hsame.connections
    simp only [Dict.lookup_erase, if_neg (Ne.symm hc)] at hlookup
    exact hlookup
  · have hown : ∀ u : State, u.rosters.filter (fun e => decide (e.2.connectionId = c)) =
        (u.rostersBut connId).filter (fun e => decide (e.2.connectionId = c)) := by
      intro u
      rw [State.rostersBut, List.filter_filter]
      refine List.filter_congr (fun e _ => ?_)
      by_cases heq : e.2.connectionId = c
      · simp [heq, hc]
      · simp [heq]
    rw [hown, hown, hsame.rosters]

theorem Placed.agree {ids : List Str} {c : Str} (hids : c ∈ ids) {s : State}
    (hs : Placed h ids s) : Agree h c s s :=
  ⟨rfl, rfl, rfl, hs.own c hids, hs.own c hids⟩

/-! ### Steps -/

/-- The connection that an operation is about. -/
def Op.connection? : Op → Option Str
  | .connect connId _ | .addBuffer connId _ _ | .irc connId _ _ _ | .netsplitBatch connId _
  | .netjoinBatch connId _ | .connected connId | .disconnected connId _ _ => some connId
  | _ => none

/-- The events that a connection receives. -/
def Op.isEventOf (connId : Str) : Op → Bool
  | .irc c _ _ _ | .netsplitBatch c _ | .netjoinBatch c _ | .connected c | .disconnected c _ _ =>
    decide (c = connId)
  | _ => false

/-- The verdict on the message that arrives, if one does. -/
def Op.verdict (h : Host) (s : State) : Op → Option (Option Str)
  | .irc connId msg _ a => (s.verdict h connId msg a).1
  | _ => none

/-- The messages of a connection note nothing in the shared detectors. -/
def NotesNothing (h : Host) (connId : Str) (s : State) : Op → Prop
  | .irc c msg _ a => c = connId → s.spares h c msg a = true
  | _ => True

instance (connId : Str) (s : State) (op : Op) : Decidable (NotesNothing h connId s op) :=
  match op with
  | .irc c msg _ a => inferInstanceAs (Decidable (c = connId → s.spares h c msg a = true))
  | .connect _ _ | .addBuffer _ _ _ | .createMentionsBuffer _ | .removeBuffer _ | .setActive _
  | .nextBuffer | .prevBuffer | .netsplitBatch _ _ | .netjoinBatch _ _ | .connected _
  | .disconnected _ _ _ | .deliver _ _ | .tick _ => isTrue trivial

/-- What the events of a connection do in two states that it cannot tell apart. -/
theorem turns_event {connId : Str} {s t s' : State} (hagree : Agree h connId s t) {op : Op}
    (hop : op.isEventOf connId = true) (hstep : step h s op = some s') :
    ∃ g t', step h t op = some t' ∧ TurnsBoth h connId g s t s' t' ∧
      (NotesNothing h connId s op → g = s.gates) := by
  have hplain : ∀ {s' t' : State}, Alike h connId s t s' t' →
      ∃ g t'', some t' = some t'' ∧ TurnsBoth h connId g s t s' t'' ∧
        (NotesNothing h connId s op → g = s.gates) :=
    fun halike => ⟨s.gates, _, rfl, halike.turnsBoth hagree, fun _ => rfl⟩
  cases op with
  | irc c msg hidden a =>
    cases of_decide_eq_true hop
    obtain ⟨t', hdispatched, hboth⟩ := turns_dispatch hagree hstep
    exact ⟨_, t', hdispatched, hboth, fun hspares => verdict_of_spares (hspares rfl)⟩
  | netsplitBatch c batch =>
    cases of_decide_eq_true hop
    cases hstep
    exact hplain (alike_processNetsplitBatch hagree batch)
  | netjoinBatch c batch =>
    cases of_decide_eq_true hop
    cases hstep
    exact hplain (alike_processNetjoinBatch hagree batch)
  | connected c =>
    cases of_decide_eq_true hop
    cases hstep
    exact hplain (alike_handleConnected s t)
  | disconnected c error reconnect =>
    cases of_decide_eq_true hop
    cases hstep
    exact hplain (alike_handleDisconnected s t error reconnect)
  | _ => cases hop

/-- An event that notes nothing changes nothing of the other connections. -/
theorem sameBut_event {ids : List Str} {connId : Str} (hids : connId ∈ ids) {s s' : State}
    (hs : Placed h ids s) {op : Op} (hop : op.isEventOf connId = true)
    (hspares : NotesNothing h connId s op) (hstep : step h s op = some s') :
    SameBut connId s s' := by
  obtain ⟨g, t', -, ⟨ws, hturns, -⟩, hg⟩ := turns_event (hs.agree hids) hop hstep
  exact Turns.sameBut (hg hspares ▸ hturns)

/-- To go to some buffer of a list. -/
theorem unseen_goTo (s : State) (id : Option Str) :
    Unseen s ((id.map s.setActiveBuffer).getD s) := by
  cases id with
  | none => exact Unseen.refl s
  | some id => exact unseen_setActiveBuffer s id

theorem unseen_netsplitMessages (messages : List NetsplitMessage) (s : State) :
    Unseen s (messages.foldl (fun s m => s.eventIn h m.bufferIds (plainEvent m.text)) s) :=
  unseen_foldl (fun s _ => unseen_eventIn s _ _) messages s

theorem sameBut_addBuffer {ids : List Str} {c connId : Str} (hids : c ∈ ids) {s t : State}
    (hsame : SameBut connId s t) (hs : Placed h ids s) (ht : Placed h ids t)
    (bufferType : BufferType) (name : Str) :
    SameBut connId (s.addBuffer (freshBuffer h c bufferType name))
      (t.addBuffer (freshBuffer h c bufferType name)) := by
  by_cases hc : c = connId
  · have hadded : ∀ u : State, Placed h ids u →
        SameBut connId u (u.addBuffer (freshBuffer h c bufferType name)) := by
      intro u hu
      have hedits := writes_addBuffer (h := h) (b := freshBuffer h c bufferType name) rfl rfl
        (hu.own c hids name)
      rw [hc] at hedits ⊢
      exact Turns.sameBut ⟨hedits.connections, hedits.rosters, hedits.gates⟩
    exact (hadded s hs).symm.trans (hsame.trans (hadded t ht))
  · have hagree := hsame.agree hids hc hs ht
    have hadded := alike_addBuffer hagree (b := freshBuffer h c bufferType name) rfl
      (rfl : _ = makeBufferId h c name)
    exact hsame.turns hc (hadded.turnsBoth hagree)

theorem sameBut_removeBuffer {connId : Str} {s t : State} (hsame : SameBut connId s t) (id : Str) :
    SameBut connId (s.removeBuffer h id) (t.removeBuffer h id) := by
  have hfilter : ∀ u : State, (u.removeBuffer h id).rostersBut connId =
      (u.rostersBut connId).filter (fun e => !decide (e.1 = id)) := by
    intro u
    rw [State.rostersBut, State.rostersBut, rosters_removeBuffer, List.filter_filter,
      List.filter_filter]
    exact List.filter_congr (fun e _ => Bool.and_comm _ _)
  refine ⟨?_, ?_, ?_⟩
  · rw [connections_removeBuffer, connections_removeBuffer, hsame.connections]
  · rw [hfilter, hfilter, hsame.rosters]
  · rw [gates_removeBuffer, gates_removeBuffer, hsame.gates]

theorem hasBuffer_eq_roster (s : State) (id : Str) : s.hasBuffer id = (s.roster id).isSome := by
  rw [State.hasBuffer, State.roster, Option.isSome_map]

theorem rostersBut_addBuffer (connId : Str) (s : State) (b : Buffer) :
    (s.addBuffer b).rostersBut connId =
      (s.rostersBut connId).filter (fun e => !decide (e.1 = b.id)) ++
        ([(b.id, b.roster)] : Rosters).filter (fun e => decide (e.2.connectionId ≠ connId)) := by
  have hrosters : (s.addBuffer b).rosters =
      s.rosters.filter (fun e => !decide (e.1 = b.id)) ++ [(b.id, b.roster)] :=
    rosters_insert s.buffers b.id b
  rw [State.rostersBut, State.rostersBut, hrosters, List.filter_append, List.filter_filter,
    List.filter_filter]
  congr 1
  exact List.filter_congr (fun e _ => Bool.and_comm _ _)

/-- The mentions buffer is missed in both states, or belongs to the connection that is left out. -/
theorem sameBut_createMentionsBuffer {ids : List Str} {connId : Str} {s t : State}
    (hsame : SameBut connId s t) (hs : Placed h ids s) (ht : Placed h ids t)
    (loaded : List Message) :
    SameBut connId (s.createMentionsBuffer h loaded) (t.createMentionsBuffer h loaded) := by
  rw [State.createMentionsBuffer, State.createMentionsBuffer]
  by_cases hempty : connId = []
  · have hcreated : ∀ u : State, ∀ b : Buffer, b.id = mentionsId → b.connectionId = [] →
        SameBut connId u (if u.hasBuffer mentionsId = true then u else u.addBuffer b) := by
      intro u b hid hconn
      by_cases hexists : u.hasBuffer mentionsId = true
      · rw [if_pos hexists]
        exact SameBut.refl connId u
      · rw [if_neg hexists]
        refine ⟨rfl, ?_, rfl⟩
        have hlast : ([(b.id, b.roster)] : Rosters).filter
            (fun e => decide (e.2.connectionId ≠ connId)) = [] := by
          simp [Buffer.roster, hconn, hempty]
        rw [rostersBut_addBuffer, hlast, List.append_nil, hid]
        refine (List.filter_eq_self.mpr (fun e he => ?_)).symm
        by_contra hkey
        have hrow : (mentionsId, e.2) ∈ u.rosters := by
          have hkey' : e.1 = mentionsId := by simpa using hkey
          rw [← hkey']
          exact (List.mem_filter.mp he).1
        rw [hasBuffer_eq_roster, u.mem_rosters.mp hrow] at hexists
        exact hexists rfl
    exact (hcreated s _ rfl rfl).symm.trans (hsame.trans (hcreated t _ rfl rfl))
  · have hvisible : ∀ u : State, Placed h ids u →
        (u.hasBuffer mentionsId = true ↔ ∃ r, (mentionsId, r) ∈ u.rostersBut connId) := by
      intro u hu
      rw [hasBuffer_eq_roster, Option.isSome_iff_exists]
      refine exists_congr (fun r => ?_)
      rw [← u.mem_rosters, State.rostersBut, List.mem_filter, decide_eq_true_eq]
      refine (and_iff_left_of_imp (fun hr => ?_)).symm
      rw [hu.mentions r hr]
      exact Ne.symm hempty
    have hboth : s.hasBuffer mentionsId = true ↔ t.hasBuffer mentionsId = true := by
      rw [hvisible s hs, hvisible t ht, hsame.rosters]
    by_cases hexists : s.hasBuffer mentionsId = true
    · rw [if_pos hexists, if_pos (hboth.mp hexists)]
      exact hsame
    · rw [if_neg hexists, if_neg (fun ht => hexists (hboth.mpr ht))]
      refine ⟨hsame.connections, ?_, hsame.gates⟩
      rw [rostersBut_addBuffer, rostersBut_addBuffer, hsame.rosters]

/-- Every step but an event of the connection does the same in states that agree on the rest. -/
theorem sameBut_step {ids : List Str} {connId : Str} {s t s' : State} (hsame : SameBut connId s t)
    (hs : Placed h ids s) (ht : Placed h ids t) {op : Op}
    (hids : ∀ c, op.connection? = some c → c ∈ ids) (hop : op.isEventOf connId = false)
    (hstep : step h s op = some s') : ∃ t', step h t op = some t' ∧ SameBut connId s' t' := by
  have hunseen : ∀ {s' t' : State}, Unseen s s' → Unseen t t' →
      ∃ t'', some t' = some t'' ∧ SameBut connId s' t'' :=
    fun hs ht => ⟨_, rfl, (hs.sameBut connId).symm.trans (hsame.trans (ht.sameBut connId))⟩
  have hevent : ∀ {c : Str}, op.connection? = some c → op.isEventOf c = true → c ≠ connId →
      ∃ t', step h t op = some t' ∧ SameBut connId s' t' := by
    intro c hc hopc hne
    obtain ⟨g, t', hstep', hboth, -⟩ := turns_event (hsame.agree (hids c hc) hne hs ht) hopc hstep
    exact ⟨t', hstep', hsame.turns hne hboth⟩
  cases op with
  | irc c msg hidden a => exact hevent rfl (decide_eq_true rfl) (of_decide_eq_false hop)
  | netsplitBatch c batch => exact hevent rfl (decide_eq_true rfl) (of_decide_eq_false hop)
  | netjoinBatch c batch => exact hevent rfl (decide_eq_true rfl) (of_decide_eq_false hop)
  | connected c => exact hevent rfl (decide_eq_true rfl) (of_decide_eq_false hop)
  | disconnected c error reconnect =>
    exact hevent rfl (decide_eq_true rfl) (of_decide_eq_false hop)
  | connect c x =>
    cases hstep
    refine ⟨_, rfl, ?_, hsame.rosters, hsame.gates⟩
    rw [erase_insert, erase_insert, hsame.connections]
  | addBuffer c bufferType name =>
    cases hstep
    exact ⟨_, rfl, sameBut_addBuffer (hids c rfl) hsame hs ht bufferType name⟩
  | createMentionsBuffer loaded =>
    cases hstep
    exact ⟨_, rfl, sameBut_createMentionsBuffer hsame hs ht loaded⟩
  | removeBuffer id =>
    cases hstep
    exact ⟨_, rfl, sameBut_removeBuffer hsame id⟩
  | setActive id =>
    cases hstep
    exact hunseen (unseen_setActiveBuffer s id) (unseen_setActiveBuffer t id)
  | nextBuffer =>
    cases hstep
    exact hunseen (unseen_goTo s _) (unseen_goTo t _)
  | prevBuffer =>
    cases hstep
    exact hunseen (unseen_goTo s _) (unseen_goTo t _)
  | deliver bufferId m =>
    cases hstep
    exact hunseen (unseen_addMessageUnshrunk s bufferId m) (unseen_addMessageUnshrunk t bufferId m)
  | tick now =>
    cases hstep
    have hnetsplit : s.netsplitState = t.netsplitState := congrArg Gates.netsplit hsame.gates
    refine ⟨_, rfl, ?_⟩
    rw [State.netsplitTick, State.netsplitTick, ← hnetsplit]
    generalize s.netsplitState.tick h.toLowercase now = due
    have hticked : SameBut connId { s with netsplitState := due.2 }
        { t with netsplitState := due.2 } :=
      ⟨hsame.connections, hsame.rosters,
        congrArg (fun g : Gates => { g with netsplit := due.2 }) hsame.gates⟩
    exact ((unseen_netsplitMessages due.1 _).sameBut connId).symm.trans
      (hticked.trans ((unseen_netsplitMessages due.1 _).sameBut connId))

theorem placed_step {ids : List Str} (hapart : Apart ids) {s s' : State} (hs : Placed h ids s)
    {op : Op} (hids : ∀ c, op.connection? = some c → c ∈ ids) (hstep : step h s op = some s') :
    Placed h ids s' := by
  have hunseen : ∀ {s' : State}, Unseen s s' → Placed h ids s' :=
    fun hu => hs.of_subset (fun e he => hu.rosters ▸ he)
  have hevent : ∀ {c : Str}, op.connection? = some c → op.isEventOf c = true →
      Placed h ids s' := by
    intro c hc hopc
    obtain ⟨g, -, -, ⟨ws, hturns, -⟩, -⟩ := turns_event (hs.agree (hids c hc)) hopc hstep
    exact hs.turns hapart (hids c hc) hturns
  cases op with
  | irc c msg hidden a => exact hevent rfl (decide_eq_true rfl)
  | netsplitBatch c batch => exact hevent rfl (decide_eq_true rfl)
  | netjoinBatch c batch => exact hevent rfl (decide_eq_true rfl)
  | connected c => exact hevent rfl (decide_eq_true rfl)
  | disconnected c error reconnect => exact hevent rfl (decide_eq_true rfl)
  | connect c x =>
    cases hstep
    exact ⟨hs.own, hs.mentions⟩
  | addBuffer c bufferType name =>
    cases hstep
    have hedits := writes_addBuffer (h := h) (b := freshBuffer h c bufferType name) rfl rfl
      (hs.own c (hids c rfl) name)
    exact hs.turns hapart (hids c rfl) ⟨hedits.connections, hedits.rosters, hedits.gates⟩
  | createMentionsBuffer loaded =>
    cases hstep
    rw [State.createMentionsBuffer]
    by_cases hexists : s.hasBuffer mentionsId = true
    · rw [if_pos hexists]
      exact hs
    · rw [if_neg hexists]
      have hadded : ∀ b : Buffer, b.id = mentionsId → b.connectionId = [] →
          Placed h ids (s.addBuffer b) := by
        intro b hid hconn
        have hrosters := rosters_insert s.buffers b.id b
        have hrow : ∀ e ∈ (s.addBuffer b).rosters, e ∈ s.rosters ∨ e = (mentionsId, b.roster) := by
          intro e he
          rw [State.rosters, State.addBuffer, hrosters, hid] at he
          rcases List.mem_append.mp he with he | he
          · exact .inl (List.mem_filter.mp he).1
          · exact .inr (List.mem_singleton.mp he)
        constructor
        · intro c hc name r hr
          rcases hrow _ hr with hr | heq
          · exact hs.own c hc name r hr
          · exact absurd (congrArg Prod.fst heq) (makeBufferId_ne_mentionsId h c name)
        · intro r hr
          rcases hrow _ hr with hr | heq
          · exact hs.mentions r hr
          · rw [show r = b.roster from congrArg Prod.snd heq]
            exact hconn
      exact hadded _ rfl rfl
  | removeBuffer id =>
    cases hstep
    refine hs.of_subset (fun e he => ?_)
    rw [rosters_removeBuffer] at he
    exact (List.mem_filter.mp he).1
  | setActive id =>
    cases hstep
    exact hunseen (unseen_setActiveBuffer s id)
  | nextBuffer =>
    cases hstep
    exact hunseen (unseen_goTo s _)
  | prevBuffer =>
    cases hstep
    exact hunseen (unseen_goTo s _)
  | deliver bufferId m =>
    cases hstep
    exact hunseen (unseen_addMessageUnshrunk s bufferId m)
  | tick now =>
    cases hstep
    refine hs.of_subset (fun e he => ?_)
    rw [State.netsplitTick] at he
    generalize s.netsplitState.tick h.toLowercase now = due at he
    rwa [(unseen_netsplitMessages due.1 _).rosters] at he

/-! ### Runs -/

/-- The connections that the operations of a session are about. -/
def connectionsOf (ops : List Op) : List Str := ops.filterMap Op.connection?

/-- A session without the events of a connection. -/
def withoutEvents (connId : Str) (ops : List Op) : List Op :=
  ops.filter (fun op => !op.isEventOf connId)

/-- The states that are reached with and without the events of a connection agree on the others. -/
theorem sameBut_run {ids : List Str} (hapart : Apart ids) {connId : Str} {ops : List Op}
    (hids : ∀ op ∈ ops, ∀ c, op.connection? = some c → c ∈ ids) {s t s' : State}
    (hsame : SameBut connId s t) (hs : Placed h ids s) (ht : Placed h ids t)
    (hmeets : Meets h (NotesNothing h connId) s ops)
    (hrun : run h s ops = some s') :
    ∃ t', run h t (withoutEvents connId ops) = some t' ∧ SameBut connId s' t' ∧ Placed h ids s' ∧
      Placed h ids t' := by
  induction ops generalizing s t with
  | nil =>
    cases hrun
    exact ⟨t, rfl, hsame, hs, ht⟩
  | cons op ops ih =>
    obtain ⟨s₁, hstep, hrest⟩ := Option.bind_eq_some_iff.mp hrun
    obtain ⟨hspares, hmeets⟩ := hmeets
    have hop := hids op List.mem_cons_self
    have hops : ∀ op' ∈ ops, ∀ c, op'.connection? = some c → c ∈ ids :=
      fun op' hop' => hids op' (List.mem_cons_of_mem op hop')
    have hs₁ := placed_step hapart hs hop hstep
    rw [withoutEvents, List.filter_cons]
    by_cases hevent : op.isEventOf connId = true
    · -- the step is left out, and has changed nothing of the others
      rw [hevent]
      have hconn : op.connection? = some connId := by
        cases op with
        | irc c _ _ _ => exact congrArg some (of_decide_eq_true hevent)
        | netsplitBatch c _ => exact congrArg some (of_decide_eq_true hevent)
        | netjoinBatch c _ => exact congrArg some (of_decide_eq_true hevent)
        | connected c => exact congrArg some (of_decide_eq_true hevent)
        | disconnected c _ _ => exact congrArg some (of_decide_eq_true hevent)
        | _ => cases hevent
      have hleft := sameBut_event (hop connId hconn) hs hevent hspares hstep
      exact ih hops (hleft.symm.trans hsame) hs₁ ht (hmeets s₁ hstep) hrest
    · rw [Bool.not_eq_true] at hevent
      rw [hevent]
      obtain ⟨t₁, hstep', hsame₁⟩ := sameBut_step hsame hs ht hop hevent hstep
      obtain ⟨t', hrun', hsame', hplaced⟩ :=
        ih hops hsame₁ hs₁ (placed_step hapart ht hop hstep') (hmeets s₁ hstep) hrest
      refine ⟨t', ?_, hsame', hplaced⟩
      exact Option.bind_eq_some_iff.mpr ⟨t₁, hstep', hrun'⟩

theorem placed_init (ids : List Str) (floodProtection : Bool) (floodExemptions : List Str)
    (ignores : List IgnoreEntry) (scrollbackLimit : Nat) :
    Placed h ids (State.init floodProtection floodExemptions ignores scrollbackLimit) :=
  ⟨fun _ _ _ _ hr => absurd hr List.not_mem_nil, fun _ hr => absurd hr List.not_mem_nil⟩

/-- Whether an operation that a connection does not cause has the same verdict in states that
agree on everything but the connection. -/
theorem SameBut.verdict {ids : List Str} {connId : Str} {s t : State}
    (hsame : SameBut connId s t) (hs : Placed h ids s) (ht : Placed h ids t) {op : Op}
    (hids : ∀ c, op.connection? = some c → c ∈ ids) (hop : op.isEventOf connId = false) :
    op.verdict h s = op.verdict h t := by
  cases op with
  | irc c msg hidden a =>
    have hagree := hsame.agree (hids c rfl) (of_decide_eq_false hop) hs ht
    exact congrArg Prod.fst (hagree.verdict msg a)
  | _ => rfl

/-- As long as no message of a connection is noted in the shared detectors, leaving out all of its
events changes neither the nicklists of the other connections nor the verdict on any of their
messages. -/
theorem spared_run {floodProtection : Bool} {floodExemptions : List Str}
    {ignores : List IgnoreEntry} {scrollbackLimit : Nat} {connId : Str} {ops : List Op} {op : Op}
    {s : State} (hapart : Apart (connectionsOf (ops ++ [op])))
    (hmeets : Meets h (NotesNothing h connId)
      (State.init floodProtection floodExemptions ignores scrollbackLimit) ops)
    (hrun : run h (State.init floodProtection floodExemptions ignores scrollbackLimit) ops = some s)
    (hop : op.isEventOf connId = false) :
    ∃ t, run h (State.init floodProtection floodExemptions ignores scrollbackLimit)
        (withoutEvents connId ops) = some t ∧
      s.rostersBut connId = t.rostersBut connId ∧ op.verdict h s = op.verdict h t := by
  have hids : ∀ op' ∈ ops ++ [op], ∀ c, op'.connection? = some c →
      c ∈ connectionsOf (ops ++ [op]) :=
    fun op' hop' c hc => List.mem_filterMap.mpr ⟨op', hop', hc⟩
  have hinit := placed_init (h := h) (connectionsOf (ops ++ [op])) floodProtection floodExemptions
    ignores scrollbackLimit
  obtain ⟨t, hrun', hsame, hs, ht⟩ := sameBut_run hapart
    (fun op' hop' => hids op' (List.mem_append_left _ hop')) (SameBut.refl connId _) hinit hinit
    hmeets hrun
  refine ⟨t, hrun', hsame.rosters, hsame.verdict hs ht ?_ hop⟩
  exact hids op (List.mem_append_right _ List.mem_cons_self)

/-! ### Samples -/

/-- The texts that a buffer shows. -/
def State.shownIn (s : State) (id : Str) : List Str :=
  ((s.buffer? id).map (fun b => b.messages.map Message.text)).getD []

/-- A nick is in a channel of one network; we are in a channel of another one, too. -/
def twoNetworks : List Op :=
  [sampleConnect (str "a"), sampleConnect (str "b"),
    sampleIrc (str "a") (str "me") (.join (str "#c") none none),
    sampleIrc (str "a") (str "x") (.join (str "#c") none none),
    sampleIrc (str "b") (str "me") (.join (str "#c") none none)]

/-- The nick quits the first network in the words of a server split. -/
def splitThere : List Op :=
  twoNetworks ++ [sampleIrc (str "a") (str "x") (.quit (some (str "hub.x.org leaf.x.org")))]

/-- The same nick joins the channel of the second network. -/
def joinsHere : Op := sampleIrc (str "b") (str "x") (.join (str "#c") none none)

theorem spared_run_sample : ∃ s t, run sampleHost sampleStart twoNetworks = some s ∧
    run sampleHost sampleStart (withoutEvents (str "a") twoNetworks) = some t ∧
    s.rostersBut (str "a") = t.rostersBut (str "a") ∧
    joinsHere.verdict sampleHost s = joinsHere.verdict sampleHost t := by
  have hsome : (run sampleHost sampleStart twoNetworks).isSome = true := by decide +kernel
  obtain ⟨s, hs⟩ := Option.isSome_iff_exists.mp hsome
  obtain ⟨t, ht, hboth⟩ := @spared_run sampleHost false [] [] 0 (str "a") _ joinsHere s
    (by decide +kernel) (by decide +kernel) hs rfl
  exact ⟨s, t, hs, ht, hboth⟩

/-- The JOIN is not shown, as if the nick had rejoined after a split; without the QUIT on the other
network it is. -/
theorem split_hides_join :
    Apart (connectionsOf (splitThere ++ [joinsHere])) ∧ joinsHere.isEventOf (str "a") = false ∧
      (run sampleHost sampleStart splitThere).map (joinsHere.verdict sampleHost) =
        some (some none) ∧
      (run sampleHost sampleStart (withoutEvents (str "a") splitThere)).map
        (joinsHere.verdict sampleHost) = some none ∧
      ((run sampleHost sampleStart (splitThere ++ [joinsHere])).map
        (fun s => (s.shownIn (str "b/#c")).length)) = some 1 ∧
      ((run sampleHost sampleStart (withoutEvents (str "a") (splitThere ++ [joinsHere]))).map
        (fun s => (s.shownIn (str "b/#c")).length)) = some 2 := by
  decide +kernel

end Store

end Repartee
