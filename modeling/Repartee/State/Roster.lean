import Repartee.State.Changes

/-!
# Rosters

What the handlers do to the nicks of the buffers, apart from what they show. A handler shows its
lines after it has written the nicks, whether they are ignored, suppressed or hidden.

## Main definitions

- `State.roster`: a buffer without its messages and speakers
- `Shows`: a step that only shows something

## Main results

- `shows_handleJoin`, `shows_handlePart`, `shows_handleQuit`, `shows_handleKick`,
  `shows_handleNickChange`: the handlers for other users
-/

set_option autoImplicit false

namespace Repartee

namespace Store

/-- A buffer without its messages and speakers. -/
structure Roster where
  connectionId : Str
  bufferType : BufferType
  name : Str
  users : Dict Str NickEntry

def Buffer.roster (b : Buffer) : Roster := ⟨b.connectionId, b.bufferType, b.name, b.users⟩

def State.roster (s : State) (id : Str) : Option Roster := (s.buffer? id).map Buffer.roster

/-- A step that touches no nicks and no connections. -/
structure Shows (s s' : State) : Prop where
  connections : s'.connections = s.connections
  roster : s'.roster = s.roster

theorem Shows.refl (s : State) : Shows s s := ⟨rfl, rfl⟩

theorem Shows.trans {s₁ s₂ s₃ : State} (h₁ : Shows s₁ s₂) (h₂ : Shows s₂ s₃) : Shows s₁ s₃ :=
  ⟨h₂.connections.trans h₁.connections, h₂.roster.trans h₁.roster⟩

theorem shows_ite {p : Prop} [Decidable p] {s s₁ s₂ : State} (h₁ : Shows s s₁)
    (h₂ : Shows s s₂) : Shows s (if p then s₁ else s₂) := by
  by_cases hp : p
  · rw [if_pos hp]
    exact h₁
  · rw [if_neg hp]
    exact h₂

theorem shows_foldl {α : Type} {f : State → α → State} (hf : ∀ s a, Shows s (f s a)) (l : List α)
    (s : State) : Shows s (l.foldl f s) := by
  induction l generalizing s with
  | nil => exact Shows.refl s
  | cons a l ih => exact (hf s a).trans (ih (f s a))

variable (h : Host)

namespace State

variable (s : State)

theorem roster_modifyBuffer (id : Str) (f : Buffer → Buffer) (key : Str) :
    (s.modifyBuffer id f).roster key =
      if id = key then (s.buffer? key).map (fun b => (f b).roster) else s.roster key := by
  rw [roster, buffer?_modifyBuffer]
  by_cases hkey : id = key
  · rw [if_pos hkey, if_pos hkey, Option.map_map]
    rfl
  · rw [if_neg hkey, if_neg hkey]
    rfl

theorem roster_receive (limit : Nat) (b : Buffer) (m : Message) :
    (b.receive h limit m).roster = b.roster := by
  rw [Buffer.receive, Buffer.trackSpeaker]
  cases m.nick with
  | none => rfl
  | some nick => cases m.messageType <;> rfl

theorem shows_addMessageUnshrunk (id : Str) (m : Message) :
    Shows s (s.addMessageUnshrunk h id m) := by
  refine ⟨rfl, ?_⟩
  funext key
  rw [addMessageUnshrunk, roster_modifyBuffer]
  by_cases hkey : id = key
  · rw [if_pos hkey]
    simp only [roster_receive]
    rfl
  · rw [if_neg hkey]

theorem shows_event (id : Str) (e : Event) : Shows s (s.event h id e) := by
  have hcounted : Shows s { s with messageCounter := s.messageCounter + 1 } := ⟨rfl, rfl⟩
  exact hcounted.trans (shows_ite (Shows.refl _) (shows_addMessageUnshrunk h _ id _))

theorem shows_eventIn (ids : List Str) (e : Event) : Shows s (s.eventIn h ids e) :=
  shows_foldl (fun s id => s.shows_event h id e) ids s

/-! ### Writes of nicks -/

/-- The users of a buffer are written by a function. -/
def onUsers (f : Dict Str NickEntry → Dict Str NickEntry) (r : Roster) : Roster :=
  { r with users := f r.users }

/-- `update_nick` on the users of a buffer. -/
def renameUser (oldNick newNick : Str) (users : Dict Str NickEntry) : Dict Str NickEntry :=
  match users.lookup (h.toLowercase oldNick) with
  | none => users
  | some entry =>
    (users.erase (h.toLowercase oldNick)).insert (h.toLowercase newNick)
      { entry with nick := newNick }

/-- A write to the users of one buffer. -/
theorem roster_modifyBuffer_users {id : Str} {f : Buffer → Buffer}
    {g : Dict Str NickEntry → Dict Str NickEntry} (hf : ∀ b, (f b).roster = onUsers g b.roster)
    (key : Str) : (s.modifyBuffer id f).roster key =
      if id = key then (s.roster key).map (onUsers g) else s.roster key := by
  rw [roster_modifyBuffer]
  simp only [hf]
  rw [roster, Option.map_map]
  rfl

theorem roster_addNick (id : Str) (entry : NickEntry) (key : Str) :
    (s.addNick h id entry).roster key =
      if id = key then
        (s.roster key).map (onUsers (fun users => users.insert (h.toLowercase entry.nick) entry))
      else s.roster key :=
  s.roster_modifyBuffer_users (fun _ => rfl) key

theorem roster_removeNick (id nick key : Str) :
    (s.removeNick h id nick).roster key =
      if id = key then
        (s.roster key).map (onUsers (fun users => users.erase (h.toLowercase nick)))
      else s.roster key :=
  s.roster_modifyBuffer_users (fun _ => rfl) key

theorem roster_updateNick (id oldNick newNick key : Str) :
    (s.updateNick h id oldNick newNick).roster key =
      if id = key then (s.roster key).map (onUsers (renameUser h oldNick newNick))
      else s.roster key := by
  refine s.roster_modifyBuffer_users (fun b => ?_) key
  rw [Buffer.updateNick]
  simp only [onUsers, renameUser, Buffer.roster]
  cases b.users.lookup (h.toLowercase oldNick) <;> rfl

/-- Writes of the users of some buffers, one after the other. -/
theorem roster_foldl {w : State → Str → State} {g : Dict Str NickEntry → Dict Str NickEntry}
    (hw : ∀ s id key, (w s id).roster key =
      if id = key then (s.roster key).map (onUsers g) else s.roster key)
    {ids : List Str} (hnodup : ids.Nodup) (key : Str) :
    (ids.foldl w s).roster key =
      if key ∈ ids then (s.roster key).map (onUsers g) else s.roster key := by
  induction ids generalizing s with
  | nil => rfl
  | cons id ids ih =>
    obtain ⟨hid, hnodup⟩ := List.nodup_cons.mp hnodup
    rw [List.foldl_cons, ih _ hnodup, hw]
    by_cases hkey : id = key
    · subst hkey
      rw [if_neg hid, if_pos rfl, if_pos List.mem_cons_self]
    · have hmem : key ∈ id :: ids ↔ key ∈ ids := by
        rw [List.mem_cons]
        exact or_iff_right (Ne.symm hkey)
      simp only [hmem, if_neg hkey]

theorem roster_removeNickFrom {ids : List Str} (hnodup : ids.Nodup) (nick key : Str) :
    (s.removeNickFrom h ids nick).roster key =
      if key ∈ ids then
        (s.roster key).map (onUsers (fun users => users.erase (h.toLowercase nick)))
      else s.roster key :=
  s.roster_foldl (fun s id key => s.roster_removeNick h id nick key) hnodup key

theorem connections_foldl {w : State → Str → State}
    (hw : ∀ s id, (w s id).connections = s.connections) (ids : List Str) :
    (ids.foldl w s).connections = s.connections := by
  induction ids generalizing s with
  | nil => rfl
  | cons id ids ih => exact (ih _).trans (hw s id)

theorem mem_bufferIdsWhere {p : Buffer → Bool} {id : Str} :
    id ∈ s.bufferIdsWhere p ↔ ∃ b, s.buffer? id = some b ∧ p b = true := by
  rw [bufferIdsWhere, List.mem_map]
  constructor
  · rintro ⟨⟨_, b⟩, hrow, rfl⟩
    obtain ⟨hrow, hp⟩ := List.mem_filter.mp hrow
    exact ⟨b, Dict.mem_rows_iff_lookup.mp hrow, hp⟩
  · rintro ⟨b, hb, hp⟩
    exact ⟨(id, b), List.mem_filter.mpr ⟨Dict.mem_rows_iff_lookup.mpr hb, hp⟩, rfl⟩

/-! ### The handlers -/

theorem shows_handleJoin (connId : Str) {ourNick : Str} {msg : IrcMessage}
    (hother : senderNick msg ≠ ourNick) (channel : Str) (account realname : Option Str)
    (now : Nat) :
    Shows (s.addNick h (makeBufferId h connId channel) (joinedEntry (senderNick msg)
        (joinAccount account (tagValue msg (str "account")))))
      (s.handleJoin h connId ourNick msg channel account realname now) := by
  rw [senderNick] at hother ⊢
  rw [handleJoin]
  generalize extractNickUserhost msg.sender = sender at hother ⊢
  obtain ⟨nick, ident, host⟩ := sender
  simp only at hother ⊢
  refine shows_ite (Shows.refl _) ?_
  rw [if_neg hother]
  have hsplit : ∀ (t : State) n, Shows t { t with netsplitState := n } := fun t n => ⟨rfl, rfl⟩
  exact (hsplit _ _).trans (shows_ite (Shows.refl _) (shows_event h _ _ _))

theorem shows_handlePart (connId : Str) {ourNick : Str} {msg : IrcMessage}
    (hother : senderNick msg ≠ ourNick) (channel : Str) (reason : Option Str) :
    Shows (s.removeNick h (makeBufferId h connId channel) (senderNick msg))
      (s.handlePart h connId ourNick msg channel reason) := by
  rw [senderNick] at hother ⊢
  rw [handlePart]
  generalize extractNickUserhost msg.sender = sender at hother ⊢
  obtain ⟨nick, ident, host⟩ := sender
  simp only at hother ⊢
  rw [if_neg hother]
  exact shows_ite (Shows.refl _) (shows_event h _ _ _)

theorem shows_handleKick (connId : Str) {ourNick kickedUser : Str} (msg : IrcMessage)
    (hother : kickedUser ≠ ourNick) (channel : Str) (reason : Option Str) :
    Shows (s.removeNick h (makeBufferId h connId channel) kickedUser)
      (s.handleKick h connId ourNick msg channel kickedUser reason) := by
  rw [handleKick]
  generalize extractNickUserhost msg.sender = sender
  obtain ⟨kicker, ident, host⟩ := sender
  simp only
  refine shows_ite (Shows.refl _) ?_
  rw [if_neg hother]
  exact shows_event h _ _ _

theorem shows_handleQuit (connId : Str) (msg : IrcMessage) (reason : Option Str) (now : Nat) :
    Shows (s.removeNickFrom h (s.buffersWith h connId (senderNick msg)) (senderNick msg))
      (s.handleQuit h connId msg reason now) := by
  rw [senderNick, handleQuit]
  generalize extractNickUserhost msg.sender = sender
  obtain ⟨nick, ident, host⟩ := sender
  refine shows_ite (Shows.refl _) ?_
  have hsplit : ∀ (t : State) n, Shows t { t with netsplitState := n } := fun t n => ⟨rfl, rfl⟩
  exact (hsplit _ _).trans (shows_ite (Shows.refl _) (shows_eventIn h _ _ _))

theorem shows_changeNickIn (ourNick oldNick newNick : Str) (now : Nat) (id : Str) :
    Shows (s.updateNick h id oldNick newNick)
      (s.changeNickIn h ourNick oldNick newNick now id) := by
  rw [changeNickIn]
  have hflood : ∀ (t : State) f, Shows t { t with floodState := f } := fun t f => ⟨rfl, rfl⟩
  exact (hflood _ _).trans (shows_ite (Shows.refl _) (shows_event h _ _ _))

/-- A nick change of another user writes its nick in every buffer that it concerns, and then
renames its queries. -/
theorem handleNickChange_eq (connId : Str) {ourNick : Str} {msg : IrcMessage}
    (hother : senderNick msg ≠ ourNick) (newNick : Str) (now : Nat) :
    ∃ t : State, t.connections = s.connections ∧
      (∀ key, t.roster key =
        if key ∈ s.buffersOfNick h connId (senderNick msg) then
          (s.roster key).map (onUsers (renameUser h (senderNick msg) newNick))
        else s.roster key) ∧
      s.handleNickChange h connId ourNick msg newNick now =
        t.renameQueryBuffers h connId newNick (s.buffersOfNick h connId (senderNick msg)) := by
  have hsender := senderNick_eq msg
  rw [handleNickChange]
  generalize extractNickUserhost msg.sender = sender
  obtain ⟨_, ident, host⟩ := sender
  simp only [hsender]
  have hnodup := s.nodup_bufferIdsWhere (fun b => decide (b.connectionId = connId) &&
    (b.hasNick (h.toLowercase (senderNick msg)) || (decide (b.bufferType = .query) &&
      decide (h.toLowercase b.name = h.toLowercase (senderNick msg)))))
  by_cases hignored : senderNick msg ≠ ourNick ∧
      s.ignored h (senderNick msg) ident host .nicks none = true
  · rw [if_pos hignored]
    refine ⟨_, ?_, s.roster_foldl (fun s id key => s.roster_updateNick h id _ newNick key) hnodup,
      rfl⟩
    exact s.connections_foldl (w := fun s id => s.updateNick h id (senderNick msg) newNick)
      (fun _ _ => rfl) _
  · rw [if_neg hignored, if_neg hother]
    refine ⟨_, ?_, s.roster_foldl (fun s id key => ?_) hnodup, rfl⟩
    · exact s.connections_foldl
        (fun t id => (t.shows_changeNickIn h _ _ newNick now id).connections) _
    · rw [(s.shows_changeNickIn h ourNick (senderNick msg) newNick now id).roster]
      exact s.roster_updateNick h id _ newNick key

/-- The renaming of queries leaves the other buffers alone, unless it stores a query over them. -/
theorem roster_renameQueryBuffers {connId newNick key : Str} {r : Roster}
    (hkey : s.roster key = some r) (hkind : r.bufferType ≠ .query)
    (hne : makeBufferId h connId newNick ≠ key) (affected : List Str) :
    (s.renameQueryBuffers h connId newNick affected).roster key = some r := by
  rw [renameQueryBuffers]
  induction affected generalizing s with
  | nil => exact hkey
  | cons id affected ih =>
    rw [List.foldl_cons]
    refine ih _ ?_
    rw [renameQuery]
    split_ifs with hquery
    · obtain ⟨b, hb, hb'⟩ := (Option.any_eq_true _ _).mp hquery
      rw [roster, s.buffer?_rekeyBuffer hb, if_neg hne]
      by_cases hid : id = key
      · rw [roster, ← hid, hb] at hkey
        cases hkey
        exact absurd (of_decide_eq_true hb') hkind
      · rw [if_neg hid]
        exact hkey
    · exact hkey

theorem connections_renameQueryBuffers (connId newNick : Str) (affected : List Str) :
    (s.renameQueryBuffers h connId newNick affected).connections = s.connections := by
  refine s.connections_foldl (fun t id => ?_) affected
  rw [renameQuery, rekeyBuffer]
  cases t.buffer? id <;> split_ifs <;> rfl

end State

end Store

end Repartee
