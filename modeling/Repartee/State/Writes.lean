import Repartee.State.Roster
import Repartee.State.Session

/-!
# What the handlers write

A step of a connection writes the connection and the rosters of its buffers, and nothing of any
other connection. The writes of a handler are found by looking at the connection and its buffers
only: in two states that agree on these, a handler makes the same writes.

## Main definitions

- `Store.Edit`: what is written, of the connection that writes
- `State.gates`: the detectors and the configuration that decide whether something is shown
- `Store.Agree`: two states that a connection cannot tell apart
- `Store.Alike`: the same writes in two states

## Main results

- `filter_rosters`: a connection writes only its own rosters
- `Agree.step`: after the same writes two states still agree
-/

set_option autoImplicit false

namespace Repartee

/-- The windows of the flood checks, apart from the nick changes, which are counted for each
buffer. -/
def FloodState.shared (f : FloodState) : FloodState :=
  { f with nickTimes := Table.empty, nickBlockedUntil := Table.empty }

namespace Store

/-! ### Writes -/

/-- A write of a connection. -/
inductive Edit where
  /-- The users of every buffer of the connection. -/
  | users (g : Str → Roster → Dict Str NickEntry)
  | connection (f : Connection → Connection)
  /-- A buffer of the connection is stored, in the place of the one with its id. -/
  | opens (key : Str) (bufferType : BufferType) (name : Str) (entries : Dict Str NickEntry)
  | closes (id : Str)

/-- The buffers of a state, without their messages and speakers. -/
abbrev Rosters := List (Str × Roster)

variable (h : Host)

/-- Whether a row is the buffer of a connection with an id. -/
def isOf (connId id : Str) (e : Str × Roster) : Bool :=
  decide (e.2.connectionId = connId) && decide (e.1 = id)

def Edit.rosters (connId : Str) : Edit → Rosters → Rosters
  | .users g, rows =>
    rows.map (fun e =>
      if e.2.connectionId = connId then (e.1, { e.2 with users := g e.1 e.2 }) else e)
  | .connection _, rows => rows
  | .opens key bufferType name entries, rows =>
    rows.filter (fun e => !isOf connId (makeBufferId h connId key) e) ++
      [(makeBufferId h connId key, ⟨connId, bufferType, name, entries⟩)]
  | .closes id, rows => rows.filter (fun e => !isOf connId id e)

def Edit.connections (connId : Str) : Edit → Dict Str Connection → Dict Str Connection
  | .connection f, d => d.modify connId f
  | _, d => d

/-- The buffer under a key, if there is one, belongs to a connection. -/
def Local (connId : Str) (rows : Rosters) (key : Str) : Prop :=
  ∀ r, (key, r) ∈ rows → r.connectionId = connId

section Edits

variable {h} {connId : Str} (w : Edit)

/-- A connection writes only its own rosters, and looks only at them. -/
theorem filter_rosters (p : Str → Bool) (rows : Rosters) :
    (w.rosters h connId rows).filter (fun e => p e.2.connectionId) =
      if p connId = true then w.rosters h connId (rows.filter (fun e => p e.2.connectionId))
      else rows.filter (fun e => p e.2.connectionId) := by
  cases w with
  | users g =>
    simp only [Edit.rosters]
    rw [List.filter_map]
    have hconn : (fun e : Str × Roster => p e.2.connectionId) ∘ (fun e =>
        if e.2.connectionId = connId then (e.1, { e.2 with users := g e.1 e.2 }) else e) =
        fun e => p e.2.connectionId := by
      funext e
      simp only [Function.comp]
      split_ifs <;> rfl
    rw [hconn]
    by_cases hp : p connId = true
    · rw [if_pos hp]
    · rw [if_neg hp]
      -- the rows that are left are those of other connections
      refine (List.map_congr_left (fun e he => ?_)).trans (List.map_id _)
      rw [if_neg]
      · rfl
      · intro heq
        exact hp (heq ▸ (List.mem_filter.mp he).2)
  | connection f => exact (ite_self _).symm
  | opens key bufferType name entries =>
    simp only [Edit.rosters]
    rw [List.filter_append, List.filter_filter]
    by_cases hp : p connId = true
    · rw [if_pos hp, List.filter_filter]
      congr 1
      · refine List.filter_congr (fun e _ => Bool.and_comm _ _)
      · simp [hp]
    · rw [if_neg hp]
      have hlast : List.filter (fun e : Str × Roster => p e.2.connectionId)
          [(makeBufferId h connId key, ⟨connId, bufferType, name, entries⟩)] = [] := by
        simp [hp]
      rw [hlast, List.append_nil]
      refine List.filter_congr (fun e _ => ?_)
      rw [isOf]
      by_cases heq : e.2.connectionId = connId
      · simp [heq, hp]
      · simp [heq]
  | closes id =>
    simp only [Edit.rosters]
    rw [List.filter_filter]
    by_cases hp : p connId = true
    · rw [if_pos hp, List.filter_filter]
      exact List.filter_congr (fun e _ => Bool.and_comm _ _)
    · rw [if_neg hp]
      refine List.filter_congr (fun e _ => ?_)
      rw [isOf]
      by_cases heq : e.2.connectionId = connId
      · simp [heq, hp]
      · simp [heq]

/-- What is stored after a write is stored by it, or was there with the same connection. -/
theorem mem_rosters {rows : Rosters} {e : Str × Roster} (he : e ∈ w.rosters h connId rows) :
    (e.2.connectionId = connId ∧ ∃ name, e.1 = makeBufferId h connId name) ∨
      ∃ r, (e.1, r) ∈ rows ∧ r.connectionId = e.2.connectionId := by
  cases w with
  | users g =>
    obtain ⟨old, hold, rfl⟩ := List.mem_map.mp he
    refine .inr ⟨old.2, ?_, ?_⟩
    · split_ifs <;> exact hold
    · split_ifs <;> rfl
  | connection f => exact .inr ⟨e.2, he, rfl⟩
  | opens key bufferType name entries =>
    rcases List.mem_append.mp he with he | he
    · exact .inr ⟨e.2, (List.mem_filter.mp he).1, rfl⟩
    · rw [List.mem_singleton] at he
      subst he
      exact .inl ⟨rfl, key, rfl⟩
  | closes id => exact .inr ⟨e.2, (List.mem_filter.mp he).1, rfl⟩

theorem Local.write {rows : Rosters} {key : Str} (hlocal : Local connId rows key) :
    Local connId (w.rosters h connId rows) key := by
  intro r hr
  rcases mem_rosters w hr with ⟨hconn, -⟩ | ⟨r', hr', hconn⟩
  · exact hconn
  · exact hconn ▸ hlocal r' hr'

end Edits

/-! ### States -/

/-- What decides whether something is shown. -/
structure Gates where
  flood : FloodState
  netsplit : NetsplitState
  floodProtection : Bool
  floodExemptions : List Str
  ignores : List IgnoreEntry

namespace State

variable (s : State)

def gates : Gates :=
  ⟨s.floodState.shared, s.netsplitState, s.floodProtection, s.floodExemptions, s.ignores⟩

def rosters : Rosters := s.buffers.rows.map (fun e => (e.1, e.2.roster))

theorem mem_rosters {key : Str} {r : Roster} : (key, r) ∈ s.rosters ↔ s.roster key = some r := by
  rw [rosters, roster, List.mem_map, Option.map_eq_some_iff]
  constructor
  · rintro ⟨⟨_, b⟩, hrow, heq⟩
    cases heq
    exact ⟨b, Dict.mem_rows_iff_lookup.mp hrow, rfl⟩
  · rintro ⟨b, hb, rfl⟩
    exact ⟨(key, b), Dict.mem_rows_iff_lookup.mpr hb, rfl⟩

end State

/-- The writes of a connection lead from a state to another one, as far as they are compared. -/
structure Edits (connId : Str) (ws : List Edit) (s s' : State) : Prop where
  connections : s'.connections = ws.foldl (fun d w => w.connections connId d) s.connections
  rosters : s'.rosters = ws.foldl (fun rows w => w.rosters h connId rows) s.rosters
  gates : s'.gates = s.gates

/-- A step that writes nothing that is compared. -/
structure Unseen (s s' : State) : Prop where
  connections : s'.connections = s.connections
  rosters : s'.rosters = s.rosters
  gates : s'.gates = s.gates

/-- Two states that a connection cannot tell apart, each with its buffers in their places. -/
structure Agree (connId : Str) (s t : State) : Prop where
  connection : s.connection? connId = t.connection? connId
  rosters : s.rosters.filter (fun e => decide (e.2.connectionId = connId)) =
    t.rosters.filter (fun e => decide (e.2.connectionId = connId))
  gates : s.gates = t.gates
  left : ∀ name, Local connId s.rosters (makeBufferId h connId name)
  right : ∀ name, Local connId t.rosters (makeBufferId h connId name)

/-- The same writes of a connection in two states. -/
def Alike (connId : Str) (s t s' t' : State) : Prop :=
  ∃ ws, Edits h connId ws s s' ∧ Edits h connId ws t t'

section Rules

variable {h} {connId : Str} {s t s' t' s'' t'' : State}

theorem Unseen.refl (s : State) : Unseen s s := ⟨rfl, rfl, rfl⟩

theorem Unseen.trans (h₁ : Unseen s s') (h₂ : Unseen s' s'') : Unseen s s'' :=
  ⟨h₂.connections.trans h₁.connections, h₂.rosters.trans h₁.rosters, h₂.gates.trans h₁.gates⟩

theorem unseen_ite {p : Prop} [Decidable p] (h₁ : Unseen s s') (h₂ : Unseen s s'') :
    Unseen s (if p then s' else s'') := by
  by_cases hp : p
  · rw [if_pos hp]
    exact h₁
  · rw [if_neg hp]
    exact h₂

theorem unseen_foldl {α : Type} {f : State → α → State} (hf : ∀ s a, Unseen s (f s a)) (l : List α)
    (s : State) : Unseen s (l.foldl f s) := by
  induction l generalizing s with
  | nil => exact Unseen.refl s
  | cons a l ih => exact (hf s a).trans (ih (f s a))

theorem Unseen.writes (hs : Unseen s s') : Edits h connId [] s s' :=
  ⟨hs.connections, hs.rosters, hs.gates⟩

theorem Edits.trans {ws ws' : List Edit} (h₁ : Edits h connId ws s s')
    (h₂ : Edits h connId ws' s' s'') : Edits h connId (ws ++ ws') s s'' := by
  refine ⟨?_, ?_, h₂.gates.trans h₁.gates⟩
  · rw [List.foldl_append, ← h₁.connections, h₂.connections]
  · rw [List.foldl_append, ← h₁.rosters, h₂.rosters]

theorem alike_of_unseen (hs : Unseen s s') (ht : Unseen t t') : Alike h connId s t s' t' :=
  ⟨[], hs.writes, ht.writes⟩

theorem Alike.refl (s t : State) : Alike h connId s t s t :=
  alike_of_unseen (Unseen.refl s) (Unseen.refl t)

theorem Alike.trans (h₁ : Alike h connId s t s' t') (h₂ : Alike h connId s' t' s'' t'') :
    Alike h connId s t s'' t'' := by
  obtain ⟨ws, hs, ht⟩ := h₁
  obtain ⟨ws', hs', ht'⟩ := h₂
  exact ⟨ws ++ ws', hs.trans hs', ht.trans ht'⟩

theorem Alike.unseen (halike : Alike h connId s t s' t') (hs : Unseen s' s'')
    (ht : Unseen t' t'') : Alike h connId s t s'' t'' :=
  halike.trans (alike_of_unseen hs ht)

/-- What every write keeps is kept by all of them. -/
theorem foldl_rosters {P : Rosters → Prop}
    (hstep : ∀ (w : Edit) rows, P rows → P (w.rosters h connId rows)) (ws : List Edit)
    {rows : Rosters} (hrows : P rows) :
    P (ws.foldl (fun rows w => w.rosters h connId rows) rows) := by
  induction ws generalizing rows with
  | nil => exact hrows
  | cons w ws ih => exact ih (hstep w rows hrows)

/-- Edits keep the places of the connection that writes. -/
theorem Edits.local {ws : List Edit} (hwrites : Edits h connId ws s s') {key : Str}
    (hlocal : Local connId s.rosters key) : Local connId s'.rosters key := by
  rw [hwrites.rosters]
  exact foldl_rosters (P := fun rows => Local connId rows key) (fun w _ hrows => hrows.write w) ws
    hlocal

theorem lookup_foldl_connections (ws : List Edit) {d d' : Dict Str Connection}
    (hd : d.lookup connId = d'.lookup connId) :
    (ws.foldl (fun d w => w.connections connId d) d).lookup connId =
      (ws.foldl (fun d w => w.connections connId d) d').lookup connId := by
  induction ws generalizing d d' with
  | nil => exact hd
  | cons w ws ih =>
    apply ih
    cases w with
    | connection f =>
      simp only [Edit.connections]
      rw [Dict.lookup_modify, Dict.lookup_modify, if_pos rfl, if_pos rfl, hd]
    | users g => exact hd
    | opens key bufferType name entries => exact hd
    | closes id => exact hd

/-- Rosters that agree on some connections still do after writes to all of them. -/
theorem filter_foldl_rosters (ws : List Edit) {p : Str → Bool} {rows rows' : Rosters}
    (hp : p connId = true)
    (heq : rows.filter (fun e => p e.2.connectionId) =
      rows'.filter (fun e => p e.2.connectionId)) :
    (ws.foldl (fun rows w => w.rosters h connId rows) rows).filter (fun e => p e.2.connectionId) =
      (ws.foldl (fun rows w => w.rosters h connId rows) rows').filter
        (fun e => p e.2.connectionId) := by
  induction ws generalizing rows rows' with
  | nil => exact heq
  | cons w ws ih =>
    apply ih
    rw [filter_rosters, filter_rosters, if_pos hp, if_pos hp, heq]

/-- The same writes keep two states alike. -/
theorem Agree.step (hagree : Agree h connId s t) (halike : Alike h connId s t s' t') :
    Agree h connId s' t' := by
  obtain ⟨ws, hs, ht⟩ := halike
  refine ⟨?_, ?_, hs.gates.trans (hagree.gates.trans ht.gates.symm),
    fun name => hs.local (hagree.left name), fun name => ht.local (hagree.right name)⟩
  · rw [State.connection?, State.connection?, hs.connections, ht.connections]
    exact lookup_foldl_connections ws hagree.connection
  · rw [hs.rosters, ht.rosters]
    exact filter_foldl_rosters ws (p := fun c => decide (c = connId)) (decide_eq_true rfl)
      hagree.rosters

theorem Agree.unseen (hagree : Agree h connId s t) (hs : Unseen s s') (ht : Unseen t t') :
    Agree h connId s' t' :=
  hagree.step (alike_of_unseen hs ht)

/-- Loops over buffers of the connection whose steps make the same writes. -/
theorem alike_foldl_local {f g : State → Str → State} {ids : List Str}
    (hstep : ∀ {s t} id, Agree h connId s t → Local connId s.rosters id →
      Local connId t.rosters id → Alike h connId s t (f s id) (g t id))
    (hagree : Agree h connId s t) (hs : ∀ id ∈ ids, Local connId s.rosters id)
    (ht : ∀ id ∈ ids, Local connId t.rosters id) :
    Alike h connId s t (ids.foldl f s) (ids.foldl g t) := by
  induction ids generalizing s t with
  | nil => exact Alike.refl s t
  | cons id ids ih =>
    have hfirst := hstep id hagree (hs id List.mem_cons_self) (ht id List.mem_cons_self)
    have hagain := hagree.step hfirst
    obtain ⟨ws, hws, hwt⟩ := hfirst
    refine Alike.trans ⟨ws, hws, hwt⟩ (ih hagain (fun id' hid => hws.local (hs id' ?_))
      (fun id' hid => hwt.local (ht id' ?_)))
    · exact List.mem_cons_of_mem id hid
    · exact List.mem_cons_of_mem id hid

/-- Loops whose steps make the same writes. -/
theorem alike_foldl {α : Type} {f g : State → α → State}
    (hstep : ∀ {s t} a, Agree h connId s t → Alike h connId s t (f s a) (g t a))
    (l : List α) (hagree : Agree h connId s t) :
    Alike h connId s t (l.foldl f s) (l.foldl g t) := by
  induction l generalizing s t with
  | nil => exact Alike.refl s t
  | cons a l ih => exact (hstep a hagree).trans (ih (hagree.step (hstep a hagree)))

end Rules

/-! ### What a connection sees -/

section Reads

variable {h} {connId : Str} {s t : State}

/-- The buffer of the connection under an id is the same in both states. -/
theorem Agree.roster (hagree : Agree h connId s t) {id : Str} (hs : Local connId s.rosters id)
    (ht : Local connId t.rosters id) : s.roster id = t.roster id := by
  have hmem : ∀ r, s.roster id = some r ↔ t.roster id = some r := by
    intro r
    have hown : (id, r) ∈ s.rosters.filter (fun e => decide (e.2.connectionId = connId)) ↔
        (id, r) ∈ t.rosters.filter (fun e => decide (e.2.connectionId = connId)) := by
      rw [hagree.rosters]
    rw [List.mem_filter, List.mem_filter, decide_eq_true_eq] at hown
    rw [← State.mem_rosters, ← State.mem_rosters]
    constructor
    · intro hr
      exact (hown.mp ⟨hr, hs r hr⟩).1
    · intro hr
      exact (hown.mpr ⟨hr, ht r hr⟩).1
  exact Option.ext (fun r => by simpa using hmem r)

theorem Agree.hasBuffer (hagree : Agree h connId s t) {id : Str} (hs : Local connId s.rosters id)
    (ht : Local connId t.rosters id) : s.hasBuffer id = t.hasBuffer id := by
  have hroster := hagree.roster hs ht
  rw [State.roster, State.roster] at hroster
  rw [State.hasBuffer, State.hasBuffer, ← Option.isSome_map (f := Buffer.roster), hroster,
    Option.isSome_map]

theorem Agree.ourNick (hagree : Agree h connId s t) : s.ourNick connId = t.ourNick connId := by
  rw [State.ourNick, State.ourNick, hagree.connection]

theorem Agree.ignored (hagree : Agree h connId s t) (nick ident host : Str) (level : IgnoreLevel)
    (channel : Option Str) :
    s.ignored h nick ident host level channel = t.ignored h nick ident host level channel := by
  have hignores : s.ignores = t.ignores := congrArg Gates.ignores hagree.gates
  rw [State.ignored, State.ignored, hignores]

theorem bufferIdsWhere_eq (s : State) {p : Buffer → Bool} {q : Roster → Bool}
    (hp : ∀ b, p b = (decide (b.connectionId = connId) && q b.roster)) :
    s.bufferIdsWhere p =
      ((s.rosters.filter (fun e => decide (e.2.connectionId = connId))).filter
        (fun e => q e.2)).map Prod.fst := by
  rw [State.bufferIdsWhere, State.rosters, List.filter_filter, List.filter_map, List.map_map]
  have hfilter : (fun e : Str × Buffer => p e.2) =
      (fun e : Str × Roster => q e.2 && decide (e.2.connectionId = connId)) ∘
        (fun e => (e.1, e.2.roster)) := by
    funext e
    rw [hp, Bool.and_comm]
    rfl
  rw [hfilter]
  rfl

/-- The buffers of the connection that satisfy a predicate are the same in both states. -/
theorem Agree.bufferIdsWhere (hagree : Agree h connId s t) {p : Buffer → Bool} {q : Roster → Bool}
    (hp : ∀ b, p b = (decide (b.connectionId = connId) && q b.roster)) :
    s.bufferIdsWhere p = t.bufferIdsWhere p := by
  rw [bufferIdsWhere_eq s hp, bufferIdsWhere_eq t hp, hagree.rosters]

theorem local_of_mem_bufferIdsWhere {p : Buffer → Bool}
    (hp : ∀ b, p b = true → b.connectionId = connId) {id : Str} (hid : id ∈ s.bufferIdsWhere p) :
    Local connId s.rosters id := by
  obtain ⟨b, hb, hpb⟩ := s.mem_bufferIdsWhere.mp hid
  intro r hr
  rw [State.mem_rosters, State.roster, hb] at hr
  cases hr
  exact hp b hpb

theorem Agree.buffersWith (hagree : Agree h connId s t) (nick : Str) :
    s.buffersWith h connId nick = t.buffersWith h connId nick :=
  hagree.bufferIdsWhere
    (q := fun r => (r.users.lookup (h.toLowercase nick)).isSome) (fun _ => rfl)

theorem local_of_mem_buffersWith {nick id : Str} (hid : id ∈ s.buffersWith h connId nick) :
    Local connId s.rosters id :=
  local_of_mem_bufferIdsWhere
    (fun _ hb => of_decide_eq_true ((Bool.and_eq_true _ _).mp hb).1) hid

theorem Agree.buffersOfNick (hagree : Agree h connId s t) (nick : Str) :
    s.buffersOfNick h connId nick = t.buffersOfNick h connId nick :=
  hagree.bufferIdsWhere
    (q := fun r => (r.users.lookup (h.toLowercase nick)).isSome ||
      (decide (r.bufferType = .query) && decide (h.toLowercase r.name = h.toLowercase nick)))
    (fun _ => rfl)

theorem local_of_mem_buffersOfNick {nick id : Str} (hid : id ∈ s.buffersOfNick h connId nick) :
    Local connId s.rosters id :=
  local_of_mem_bufferIdsWhere
    (fun _ hb => of_decide_eq_true ((Bool.and_eq_true _ _).mp hb).1) hid

end Reads

end Store

end Repartee
