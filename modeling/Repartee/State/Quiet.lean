import Repartee.State.Events

/-!
# Quiet steps

Most handlers leave the set of buffers and the active buffer alone: they write messages, users and
speakers into buffers that exist. What such a step may do to a buffer is said once, and shown for
every operation and handler.

## Main definitions

- `Store.Continues`: what a quiet step may do to a buffer
- `Store.Quiet`: a step that does no more than that to any buffer

## Main results

- `State.quiet_handleText`, `State.quiet_handleQuit`, …: the handlers that are quiet
-/

set_option autoImplicit false

namespace Repartee

namespace Store

variable (h : Host)

/-! ### Buffers -/

/-- Every user is stored under its nick in lowercase. -/
def KeyedByNick (users : Dict Str NickEntry) : Prop :=
  ∀ key entry, users.lookup key = some entry → key = h.toLowercase entry.nick

/-- The speakers are few, and no two of them are the same nick. -/
def DistinctSpeakers (speakers : List Str) : Prop :=
  speakers.length ≤ lastSpeakersCap ∧
    speakers.Pairwise (fun a b => h.toLowercase a ≠ h.toLowercase b)

/-- A history goes on: new messages are added, and the oldest ones are evicted only if the limit
of the buffer is reached, which the mentions buffer has on its own. -/
def HistoryKept (limit : Nat) (key : Str) (old new : List Message) : Prop :=
  ∃ added k, new = (old ++ added).drop k ∧
    (k ≠ 0 → (limit ≠ 0 ∧ limit ≤ new.length) ∨ (key = mentionsId ∧ mentionsCap ≤ new.length))

/-- What a quiet step may do to the buffer under `key`. -/
structure Continues (limit : Nat) (key : Str) (b b' : Buffer) : Prop where
  id : b'.id = b.id
  connectionId : b'.connectionId = b.connectionId
  bufferType : b'.bufferType = b.bufferType
  name : b'.name = b.name
  history : HistoryKept limit key b.messages b'.messages
  bounded : limit ≠ 0 → key ≠ mentionsId → b.messages.length ≤ limit → b'.messages.length ≤ limit
  users : KeyedByNick h b.users → KeyedByNick h b'.users
  speakers : DistinctSpeakers h b.lastSpeakers → DistinctSpeakers h b'.lastSpeakers

theorem HistoryKept.refl (limit : Nat) (key : Str) (old : List Message) :
    HistoryKept limit key old old :=
  ⟨[], 0, by simp, fun hk => absurd rfl hk⟩

theorem HistoryKept.trans {limit : Nat} {key : Str} {m₁ m₂ m₃ : List Message}
    (h₁ : HistoryKept limit key m₁ m₂) (h₂ : HistoryKept limit key m₂ m₃) :
    HistoryKept limit key m₁ m₃ := by
  obtain ⟨added₁, k₁, heq₁, hfull₁⟩ := h₁
  obtain ⟨added₂, k₂, heq₂, hfull₂⟩ := h₂
  by_cases hk₁ : k₁ = 0
  · subst hk₁
    rw [List.drop_zero] at heq₁
    exact ⟨added₁ ++ added₂, k₂, by rw [heq₂, heq₁, List.append_assoc], hfull₂⟩
  · -- an eviction has left a full buffer, so that it has not gone past the end
    have hle : k₁ ≤ (m₁ ++ added₁).length := by
      by_contra hgt
      have hnil : m₂ = [] := by rw [heq₁, List.drop_eq_nil_iff]; omega
      rw [hnil] at hfull₁
      rcases hfull₁ hk₁ with ⟨hlimit, hlen⟩ | ⟨-, hlen⟩
      · exact hlimit (Nat.le_zero.mp hlen)
      · exact absurd hlen (by decide)
    refine ⟨added₁ ++ added₂, k₁ + k₂, ?_, fun _ => ?_⟩
    · rw [heq₂, heq₁, ← List.append_assoc, ← List.drop_drop, List.drop_append_of_le_length hle]
    · by_cases hk₂ : k₂ = 0
      · subst hk₂
        rw [List.drop_zero] at heq₂
        rw [heq₂, List.length_append]
        rcases hfull₁ hk₁ with ⟨hlimit, hlen⟩ | ⟨hkey, hlen⟩
        · exact .inl ⟨hlimit, by omega⟩
        · exact .inr ⟨hkey, by omega⟩
      · exact hfull₂ hk₂

theorem Continues.refl (limit : Nat) (key : Str) (b : Buffer) : Continues h limit key b b :=
  ⟨rfl, rfl, rfl, rfl, HistoryKept.refl _ _ _, fun _ _ hb => hb, fun hu => hu, fun hs => hs⟩

variable {h}

theorem Continues.trans {limit : Nat} {key : Str} {b₁ b₂ b₃ : Buffer}
    (h₁ : Continues h limit key b₁ b₂) (h₂ : Continues h limit key b₂ b₃) :
    Continues h limit key b₁ b₃ where
  id := h₂.id.trans h₁.id
  connectionId := h₂.connectionId.trans h₁.connectionId
  bufferType := h₂.bufferType.trans h₁.bufferType
  name := h₂.name.trans h₁.name
  history := h₁.history.trans h₂.history
  bounded := fun hl hk hb => h₂.bounded hl hk (h₁.bounded hl hk hb)
  users := fun hu => h₂.users (h₁.users hu)
  speakers := fun hs => h₂.speakers (h₁.speakers hs)

/-- A write that keeps the messages and speakers of a buffer. -/
theorem continues_of_users {limit : Nat} {key : Str} {b b' : Buffer}
    (hframe : { b' with users := b.users, topic := b.topic, peerHandle := b.peerHandle } = b)
    (husers : KeyedByNick h b.users → KeyedByNick h b'.users) : Continues h limit key b b' := by
  obtain ⟨_, _, _, _, _, _, _, _, _⟩ := b
  obtain ⟨_, _, _, _, _, _, _, _, _⟩ := b'
  simp only [Buffer.mk.injEq] at hframe
  obtain ⟨rfl, rfl, rfl, rfl, rfl, -, -, rfl, -⟩ := hframe
  exact ⟨rfl, rfl, rfl, rfl, HistoryKept.refl _ _ _, fun _ _ hb => hb, husers, fun hs => hs⟩

variable (h)

theorem length_enforceScrollback {limit : Nat} (hlimit : limit ≠ 0) (messages : List Message) :
    (enforceScrollback limit messages).length = min messages.length limit := by
  rw [enforceScrollback, if_neg hlimit, List.length_drop]
  omega

/-- The scrollback limit evicts the oldest messages. -/
theorem enforceScrollback_eq_drop (limit : Nat) (messages : List Message) :
    ∃ k, enforceScrollback limit messages = messages.drop k ∧
      (k ≠ 0 → limit ≠ 0 ∧ (enforceScrollback limit messages).length = limit) := by
  by_cases hlimit : limit = 0
  · exact ⟨0, by rw [enforceScrollback, if_pos hlimit, List.drop_zero], fun hk => absurd rfl hk⟩
  · refine ⟨messages.length - limit, by rw [enforceScrollback, if_neg hlimit], fun hk => ?_⟩
    refine ⟨hlimit, ?_⟩
    rw [length_enforceScrollback hlimit]
    omega

theorem distinctSpeakers_touch (b : Buffer) (nick : Str)
    (hs : DistinctSpeakers h b.lastSpeakers) :
    DistinctSpeakers h (b.touchSpeaker h nick).lastSpeakers := by
  constructor
  · exact List.length_take_le _ _
  · refine List.Pairwise.sublist (List.take_sublist _ _) (List.pairwise_cons.mpr ⟨?_, ?_⟩)
    · intro n hn heq
      exact of_decide_eq_true (List.mem_filter.mp hn).2 heq.symm
    · exact hs.2.sublist List.filter_sublist

theorem continues_receive (limit : Nat) (key : Str) (b : Buffer) (m : Message) :
    Continues h limit key b (b.receive h limit m) := by
  have htrack : b.trackSpeaker h m = b ∨ ∃ nick, b.trackSpeaker h m = b.touchSpeaker h nick := by
    rw [Buffer.trackSpeaker]
    cases m.nick with
    | none => exact .inl rfl
    | some nick =>
      cases m.messageType with
      | message | action | notice => exact .inr ⟨nick, rfl⟩
      | event | mentionLog => exact .inl rfl
  obtain ⟨k, heq, hfull⟩ := enforceScrollback_eq_drop limit (b.messages ++ [m])
  refine ⟨?_, ?_, ?_, ?_, ⟨[m], k, heq, fun hk => .inl ⟨(hfull hk).1, (hfull hk).2.ge⟩⟩, ?_, ?_, ?_⟩
  · rcases htrack with ht | ⟨nick, ht⟩ <;> simp [Buffer.receive, ht, Buffer.touchSpeaker]
  · rcases htrack with ht | ⟨nick, ht⟩ <;> simp [Buffer.receive, ht, Buffer.touchSpeaker]
  · rcases htrack with ht | ⟨nick, ht⟩ <;> simp [Buffer.receive, ht, Buffer.touchSpeaker]
  · rcases htrack with ht | ⟨nick, ht⟩ <;> simp [Buffer.receive, ht, Buffer.touchSpeaker]
  · intro hlimit _ _
    show (enforceScrollback limit (b.messages ++ [m])).length ≤ limit
    rw [length_enforceScrollback hlimit]
    exact Nat.min_le_right _ _
  · rcases htrack with ht | ⟨nick, ht⟩ <;> simp [Buffer.receive, ht, Buffer.touchSpeaker]
  · intro hs
    show DistinctSpeakers h (b.trackSpeaker h m).lastSpeakers
    rcases htrack with ht | ⟨nick, ht⟩
    · rw [ht]
      exact hs
    · rw [ht]
      exact distinctSpeakers_touch h b nick hs

theorem keyedByNick_insert {users : Dict Str NickEntry} (hu : KeyedByNick h users)
    (entry : NickEntry) : KeyedByNick h (users.insert (h.toLowercase entry.nick) entry) := by
  intro key entry' hentry
  rw [Dict.lookup_insert] at hentry
  by_cases hkey : h.toLowercase entry.nick = key
  · rw [if_pos hkey, Option.some.injEq] at hentry
    exact hentry ▸ hkey.symm
  · rw [if_neg hkey] at hentry
    exact hu key entry' hentry

theorem keyedByNick_erase {users : Dict Str NickEntry} (hu : KeyedByNick h users) (key : Str) :
    KeyedByNick h (users.erase key) :=
  fun key' entry hentry => hu key' entry (Dict.lookup_of_erase hentry).1

theorem keyedByNick_modify {users : Dict Str NickEntry} (hu : KeyedByNick h users) (key : Str)
    {f : NickEntry → NickEntry} (hf : ∀ entry, (f entry).nick = entry.nick) :
    KeyedByNick h (users.modify key f) := by
  intro key' entry hentry
  rw [Dict.lookup_modify] at hentry
  by_cases hkey : key = key'
  · rw [if_pos hkey] at hentry
    obtain ⟨old, hold, rfl⟩ := Option.map_eq_some_iff.mp hentry
    rw [hf]
    exact hu key' old hold
  · rw [if_neg hkey] at hentry
    exact hu key' entry hentry

section Users

variable (limit : Nat) (key : Str) (b : Buffer)

theorem continues_addNick (entry : NickEntry) : Continues h limit key b (b.addNick h entry) :=
  continues_of_users rfl (fun hu => keyedByNick_insert h hu entry)

theorem continues_removeNick (nick : Str) : Continues h limit key b (b.removeNick h nick) :=
  continues_of_users rfl (fun hu => keyedByNick_erase h hu _)

theorem continues_updateNick (oldNick newNick : Str) :
    Continues h limit key b (b.updateNick h oldNick newNick) := by
  rw [Buffer.updateNick]
  cases b.users.lookup (h.toLowercase oldNick) with
  | none => exact Continues.refl h limit key b
  | some entry =>
    exact continues_of_users rfl
      (fun hu => keyedByNick_insert h (keyedByNick_erase h hu _) { entry with nick := newNick })

theorem continues_updateEntry (nick : Str) {f : NickEntry → NickEntry}
    (hf : ∀ entry, (f entry).nick = entry.nick) :
    Continues h limit key b (b.updateEntry nick f) :=
  continues_of_users rfl (fun hu => keyedByNick_modify h hu nick hf)

end Users

/-! ### States -/

/-- A step that leaves the set of buffers and the active buffer alone. -/
structure Quiet (s s' : State) : Prop where
  limit : s'.scrollbackLimit = s.scrollbackLimit
  active : s'.activeBufferId = s.activeBufferId
  previous : s'.previousBufferId = s.previousBufferId
  buffers : ∀ key, Option.Rel (Continues h s.scrollbackLimit key) (s.buffer? key) (s'.buffer? key)

variable {h}

theorem quiet_of_buffers_eq {s s' : State} (hbuffers : s'.buffers = s.buffers)
    (hlimit : s'.scrollbackLimit = s.scrollbackLimit)
    (hactive : s'.activeBufferId = s.activeBufferId)
    (hprevious : s'.previousBufferId = s.previousBufferId) : Quiet h s s' := by
  refine ⟨hlimit, hactive, hprevious, fun key => ?_⟩
  rw [State.buffer?, State.buffer?, hbuffers]
  cases s.buffers.lookup key with
  | none => exact Option.Rel.none
  | some b => exact Option.Rel.some (Continues.refl h _ key b)

theorem Quiet.refl (s : State) : Quiet h s s := quiet_of_buffers_eq rfl rfl rfl rfl

theorem Quiet.trans {s₁ s₂ s₃ : State} (h₁ : Quiet h s₁ s₂) (h₂ : Quiet h s₂ s₃) :
    Quiet h s₁ s₃ := by
  refine ⟨h₂.limit.trans h₁.limit, h₂.active.trans h₁.active, h₂.previous.trans h₁.previous,
    fun key => ?_⟩
  have hb₁ := h₁.buffers key
  have hb₂ := h₂.buffers key
  rw [h₁.limit] at hb₂
  generalize s₁.buffer? key = o₁ at hb₁ ⊢
  generalize s₂.buffer? key = o₂ at hb₁ hb₂
  generalize s₃.buffer? key = o₃ at hb₂ ⊢
  cases hb₁ with
  | none => exact hb₂
  | some hc₁ =>
    cases hb₂ with
    | some hc₂ => exact Option.Rel.some (hc₁.trans hc₂)

/-- A loop of quiet steps. -/
theorem quiet_foldl {α : Type} {f : State → α → State} (hf : ∀ s a, Quiet h s (f s a)) (l : List α)
    (s : State) : Quiet h s (l.foldl f s) := by
  induction l generalizing s with
  | nil => exact Quiet.refl s
  | cons a l ih => exact (hf s a).trans (ih (f s a))

/-- A quiet step keeps the set of buffers. -/
theorem Quiet.hasBuffer {s s' : State} (hq : Quiet h s s') (key : Str) :
    s'.hasBuffer key = s.hasBuffer key := by
  have hb := hq.buffers key
  rw [State.hasBuffer, State.hasBuffer]
  generalize s.buffer? key = o at hb ⊢
  generalize s'.buffer? key = o' at hb ⊢
  cases hb with
  | none => rfl
  | some _ => rfl

theorem Quiet.buffer_of_some {s s' : State} (hq : Quiet h s s') {key : Str} {b : Buffer}
    (hb : s.buffer? key = some b) :
    ∃ b', s'.buffer? key = some b' ∧ Continues h s.scrollbackLimit key b b' := by
  have hrel := hq.buffers key
  rw [hb] at hrel
  generalize s'.buffer? key = o' at hrel ⊢
  cases hrel with
  | some hc => exact ⟨_, rfl, hc⟩

theorem Quiet.buffer_of_some' {s s' : State} (hq : Quiet h s s') {key : Str} {b' : Buffer}
    (hb : s'.buffer? key = some b') :
    ∃ b, s.buffer? key = some b ∧ Continues h s.scrollbackLimit key b b' := by
  have hrel := hq.buffers key
  rw [hb] at hrel
  generalize s.buffer? key = o at hrel ⊢
  cases hrel with
  | some hc => exact ⟨_, rfl, hc⟩

variable (h)

namespace State

variable (s : State)

theorem buffer?_modifyBuffer (id : Str) (f : Buffer → Buffer) (key : Str) :
    (s.modifyBuffer id f).buffer? key =
      if id = key then (s.buffer? key).map f else s.buffer? key :=
  Dict.lookup_modify _ _ _ _

theorem buffer?_modifyBuffersOf (connId : Str) (f : Buffer → Buffer) (key : Str) :
    (s.modifyBuffersOf connId f).buffer? key =
      (s.buffer? key).map (fun b => if b.connectionId = connId then f b else b) :=
  Dict.lookup_mapValues _ _ _

theorem quiet_modifyBuffer {id : Str} {f : Buffer → Buffer}
    (hf : ∀ b, Continues h s.scrollbackLimit id b (f b)) : Quiet h s (s.modifyBuffer id f) := by
  refine ⟨rfl, rfl, rfl, fun key => ?_⟩
  rw [buffer?_modifyBuffer]
  by_cases hkey : id = key
  · subst hkey
    rw [if_pos rfl]
    cases s.buffer? id with
    | none => exact Option.Rel.none
    | some b => exact Option.Rel.some (hf b)
  · rw [if_neg hkey]
    cases s.buffer? key with
    | none => exact Option.Rel.none
    | some b => exact Option.Rel.some (Continues.refl h _ key b)

theorem quiet_modifyBuffersOf {connId : Str} {f : Buffer → Buffer}
    (hf : ∀ key b, Continues h s.scrollbackLimit key b (f b)) :
    Quiet h s (s.modifyBuffersOf connId f) := by
  refine ⟨rfl, rfl, rfl, fun key => ?_⟩
  rw [buffer?_modifyBuffersOf]
  cases s.buffer? key with
  | none => exact Option.Rel.none
  | some b =>
    refine Option.Rel.some ?_
    show Continues h _ key b (if b.connectionId = connId then f b else b)
    by_cases hconn : b.connectionId = connId
    · rw [if_pos hconn]
      exact hf key b
    · rw [if_neg hconn]
      exact Continues.refl h _ key b

theorem quiet_modifyConnection (connId : Str) (f : Connection → Connection) :
    Quiet h s (s.modifyConnection connId f) := quiet_of_buffers_eq rfl rfl rfl rfl

theorem quiet_floodState (f : FloodState) : Quiet h s { s with floodState := f } :=
  quiet_of_buffers_eq rfl rfl rfl rfl

theorem quiet_netsplitState (n : NetsplitState) : Quiet h s { s with netsplitState := n } :=
  quiet_of_buffers_eq rfl rfl rfl rfl

theorem quiet_addMessageUnshrunk (id : Str) (m : Message) :
    Quiet h s (s.addMessageUnshrunk h id m) :=
  s.quiet_modifyBuffer h (fun b => continues_receive h _ id b m)

theorem quiet_addMessage (id : Str) (m : Message) : Quiet h s (s.addMessage h id m) := by
  rw [addMessage]
  by_cases hsuppress : (s.suppressEventDisplay && decide (m.messageType = .event)) = true
  · rw [if_pos hsuppress]
    exact Quiet.refl _
  · rw [if_neg hsuppress]
    exact s.quiet_addMessageUnshrunk h id m

theorem quiet_messageCounter (n : Nat) : Quiet h s { s with messageCounter := n } :=
  quiet_of_buffers_eq rfl rfl rfl rfl

theorem quiet_post (id : Str) (m : Nat → Message) : Quiet h s (s.post h id m) :=
  (s.quiet_messageCounter h _).trans (quiet_addMessage h _ id _)

theorem quiet_event (id : Str) (e : Event) : Quiet h s (s.event h id e) := s.quiet_post h id _

theorem quiet_eventIn (ids : List Str) (e : Event) : Quiet h s (s.eventIn h ids e) :=
  quiet_foldl (fun s id => s.quiet_event h id e) ids s

theorem quiet_postChat (shrunk : Bool) (id : Str) (m : Nat → Message) :
    Quiet h s (s.postChat h shrunk id m) := by
  rw [postChat]
  by_cases hshrunk : shrunk = true
  · rw [if_pos hshrunk]
    exact s.quiet_messageCounter h _
  · rw [if_neg hshrunk]
    exact (s.quiet_messageCounter h _).trans (quiet_addMessageUnshrunk h _ id _)

theorem quiet_addMentionToBuffer (m : Message) : Quiet h s (s.addMentionToBuffer m) := by
  refine s.quiet_modifyBuffer h (fun b => ?_)
  obtain ⟨k, heq, hfull⟩ := enforceScrollback_eq_drop mentionsCap (b.messages ++ [m])
  generalize enforceScrollback mentionsCap (b.messages ++ [m]) = messages at heq hfull ⊢
  exact ⟨rfl, rfl, rfl, rfl, ⟨[m], k, heq, fun hk => .inr ⟨rfl, (hfull hk).2.ge⟩⟩,
    fun _ hne _ => absurd rfl hne, fun hu => hu, fun hs => hs⟩

theorem quiet_setTopic (id topic : Str) : Quiet h s (s.setTopic id topic) :=
  s.quiet_modifyBuffer h (fun _ => continues_of_users rfl (fun hu => hu))

theorem quiet_addNick (id : Str) (entry : NickEntry) : Quiet h s (s.addNick h id entry) :=
  s.quiet_modifyBuffer h (fun b => continues_addNick h _ id b entry)

theorem quiet_removeNick (id nick : Str) : Quiet h s (s.removeNick h id nick) :=
  s.quiet_modifyBuffer h (fun b => continues_removeNick h _ id b nick)

theorem quiet_updateNick (id oldNick newNick : Str) :
    Quiet h s (s.updateNick h id oldNick newNick) :=
  s.quiet_modifyBuffer h (fun b => continues_updateNick h _ id b oldNick newNick)

theorem quiet_updateEntries (connId nick : Str) {f : NickEntry → NickEntry}
    (hf : ∀ entry, (f entry).nick = entry.nick) : Quiet h s (s.updateEntries h connId nick f) :=
  s.quiet_modifyBuffersOf h (fun key b => continues_updateEntry h _ key b _ hf)

/-! ### Handlers -/

theorem quiet_ite {p : Prop} [Decidable p] {s s₁ s₂ : State} (h₁ : Quiet h s s₁)
    (h₂ : Quiet h s s₂) : Quiet h s (if p then s₁ else s₂) := by
  by_cases hp : p
  · rw [if_pos hp]
    exact h₁
  · rw [if_neg hp]
    exact h₂

theorem quiet_showE2eLines (lines : List E2eLine) : Quiet h s (s.showE2eLines h lines) := by
  rw [showE2eLines]
  exact quiet_foldl (fun s line => s.quiet_event h _ _) lines s

theorem quiet_showReplies (connId : Str) (code : Nat) (args : List Str) :
    Quiet h s (s.showReplies h connId code args) := by
  rw [showReplies]
  exact quiet_foldl (fun s line => s.quiet_event h _ _) _ s

theorem quiet_suppress (bufferId : Str) (notice : Option Str) :
    Quiet h s (s.suppress h bufferId notice) := by
  cases notice with
  | none => exact Quiet.refl s
  | some notice => exact s.quiet_event h bufferId _

theorem quiet_notePeerHandle (bufferId target handle : Str) (isOwn : Bool) :
    Quiet h s (s.notePeerHandle bufferId target handle isOwn) :=
  quiet_ite h (s.quiet_modifyBuffer h (fun _ => continues_of_users rfl (fun hu => hu)))
    (Quiet.refl s)

theorem quiet_noteAccountTag (bufferId target nick : Str) (account : Option Str) :
    Quiet h s (s.noteAccountTag h bufferId target nick account) := by
  cases account with
  | none => exact Quiet.refl s
  | some account =>
    exact quiet_ite h
      (s.quiet_modifyBuffer h (fun b => continues_updateEntry h _ _ b _ (fun _ => rfl)))
      (Quiet.refl s)

theorem quiet_copyMention (connId target nick body : Str) :
    Quiet h s (s.copyMention h connId target nick body) :=
  (s.quiet_messageCounter h _).trans (quiet_addMentionToBuffer h _ _)

theorem quiet_showChat (connId bufferId ourNick nick target text body : Str)
    (messageType : MessageType) (shrunk : Bool) :
    Quiet h s (s.showChat h connId bufferId ourNick nick target text body messageType shrunk) := by
  rw [showChat]
  have hshown := s.quiet_postChat h shrunk bufferId (fun id =>
    ⟨id, messageType, some nick, s.nickPrefix h bufferId nick, text,
      decide (nick ≠ ourNick) && mentions h text ourNick, none, none⟩)
  exact quiet_ite h (hshown.trans (quiet_copyMention h _ connId target nick body)) hshown

theorem quiet_handleCtcp (bufferId : Str) (floodExempt : Bool) (a : Arrival) :
    Quiet h s (s.handleCtcp h bufferId floodExempt a) := by
  rw [handleCtcp]
  generalize (if s.floodProtection && !floodExempt then ctcpVerdict s.floodState a.now
    else (none, s.floodState)) = checked
  obtain ⟨verdict, f⟩ := checked
  refine (s.quiet_floodState h f).trans ?_
  cases verdict with
  | some notice => exact quiet_suppress h _ bufferId notice
  | none =>
    cases a.dispatched with
    | none => exact Quiet.refl _
    | some lines => exact quiet_showE2eLines h _ lines

theorem quiet_handleText (connId bufferId ourNick nick ident target text : Str)
    (floodExempt : Bool) (a : Arrival) :
    Quiet h s
      (s.handleText h connId bufferId ourNick nick ident target text floodExempt a) := by
  rw [handleText]
  generalize (if s.floodProtection && decide (nick ≠ ourNick) && !floodExempt then
      messageVerdict h s.floodState nick ident target text a.now
    else (none, s.floodState)) = checked
  obtain ⟨verdict, f⟩ := checked
  refine (s.quiet_floodState h f).trans ?_
  cases verdict with
  | some notice => exact quiet_suppress h _ bufferId notice
  | none => exact quiet_showChat h _ connId bufferId ourNick nick target text text .message a.shrunk

theorem quiet_handleNotice (connId ourNick : Str) (msg : IrcMessage) (target text : Str)
    (a : Arrival) : Quiet h s (s.handleNotice h connId ourNick msg target text a) := by
  rw [handleNotice]
  refine quiet_ite h (Quiet.refl s) ?_
  cases a.dispatched with
  | some lines => exact s.quiet_showE2eLines h lines
  | none => exact s.quiet_postChat h _ _ _

theorem quiet_removeNickFrom (ids : List Str) (nick : Str) :
    Quiet h s (s.removeNickFrom h ids nick) := by
  rw [removeNickFrom]
  exact quiet_foldl (fun s id => s.quiet_removeNick h id nick) ids s

theorem quiet_handleQuit (connId : Str) (msg : IrcMessage) (reason : Option Str) (now : Nat) :
    Quiet h s (s.handleQuit h connId msg reason now) := by
  rw [handleQuit]
  generalize extractNickUserhost msg.sender = sender
  obtain ⟨nick, ident, host⟩ := sender
  have hremoved := s.quiet_removeNickFrom h (s.buffersWith h connId nick) nick
  refine quiet_ite h hremoved ?_
  split
  next split netsplit _ =>
    refine (hremoved.trans (quiet_netsplitState h _ netsplit)).trans ?_
    exact quiet_ite h (Quiet.refl _) (quiet_eventIn h _ _ _)

theorem quiet_changeNickIn (ourNick oldNick newNick : Str) (now : Nat) (bufferId : Str) :
    Quiet h s (s.changeNickIn h ourNick oldNick newNick now bufferId) := by
  rw [changeNickIn]
  have hupdated := s.quiet_updateNick h bufferId oldNick newNick
  split
  next flooding f _ =>
    refine (hupdated.trans (quiet_floodState h _ f)).trans ?_
    exact quiet_ite h (Quiet.refl _) (quiet_event h _ _ _)

theorem quiet_forgetQueries (connId channel : Str) : Quiet h s (s.forgetQueries connId channel) :=
  s.quiet_modifyConnection h connId _

theorem quiet_handleTopic (connId : Str) (msg : IrcMessage) (channel : Str) (topic : Option Str) :
    Quiet h s (s.handleTopic h connId msg channel topic) := by
  cases topic with
  | none => exact Quiet.refl s
  | some topic => exact (s.quiet_setTopic h _ topic).trans (quiet_event h _ _ _)

theorem quiet_applyChannelMode (bufferId : Str) (mode : ModeChange) :
    Quiet h s (s.applyChannelMode h bufferId mode) := by
  obtain ⟨adding, letter, param⟩ := mode
  cases adding with
  | none => exact Quiet.refl s
  | some adding =>
    cases param with
    | none => exact Quiet.refl s
    | some target =>
      exact quiet_ite h
        (s.quiet_modifyBuffer h (fun b => continues_updateEntry h _ _ b _ (fun _ => rfl)))
        (Quiet.refl s)

theorem quiet_handleChannelMode (connId : Str) (msg : IrcMessage) (target : Str)
    (modes : List ModeChange) : Quiet h s (s.handleChannelMode h connId msg target modes) := by
  rw [handleChannelMode, modeEvent]
  exact (quiet_foldl (fun s m => s.quiet_applyChannelMode h _ m) modes s).trans
    (quiet_event h _ _ _)

theorem quiet_handleUserMode (connId : Str) (msg : IrcMessage) (target : Str)
    (modes : List ModeChange) : Quiet h s (s.handleUserMode h connId msg target modes) :=
  s.quiet_event h _ _

theorem quiet_handleInvite (connId ourNick : Str) (msg : IrcMessage) (nick channel : Str) :
    Quiet h s (s.handleInvite h connId ourNick msg nick channel) := by
  rw [handleInvite]
  exact quiet_ite h (s.quiet_event h _ _) (quiet_ite h (s.quiet_event h _ _) (Quiet.refl s))

theorem quiet_handleAccount (connId : Str) (msg : IrcMessage) (account : Str) :
    Quiet h s (s.handleAccount h connId msg account) := by
  rw [handleAccount]
  cases extractNick msg.sender with
  | none => exact Quiet.refl s
  | some nick =>
    exact (s.quiet_updateEntries h connId nick
      (f := fun e => { e with account := loggedIn account }) (fun _ => rfl)).trans
      (quiet_eventIn h _ _ _)

theorem quiet_handleAway (connId : Str) (msg : IrcMessage) (reason : Option Str) :
    Quiet h s (s.handleAway h connId msg reason) := by
  rw [handleAway]
  cases extractNick msg.sender with
  | none => exact Quiet.refl s
  | some nick => exact s.quiet_updateEntries h connId nick (fun _ => rfl)

theorem quiet_handleChghost (connId : Str) (msg : IrcMessage) (newUser newHost : Str) :
    Quiet h s (s.handleChghost h connId msg newUser newHost) := by
  rw [handleChghost]
  cases extractNick msg.sender with
  | none => exact Quiet.refl s
  | some nick =>
    exact (s.quiet_updateEntries h connId nick
      (f := fun e => { e with ident := some newUser, host := some newHost }) (fun _ => rfl)).trans
      (quiet_eventIn h _ _ _)

theorem quiet_handleNames (connId channel names : Str) :
    Quiet h s (s.handleNames h connId channel names) := by
  rw [handleNames]
  exact quiet_foldl (fun s raw => s.quiet_addNick h _ _) _ s

theorem quiet_handleWhoxReply (connId : Str) (args : List Str) :
    Quiet h s (s.handleWhoxReply h connId args) := by
  unfold handleWhoxReply
  split
  next token channel user ip host nick flags account realname rest =>
    have hnoted : Quiet h s (s.modifyBuffer (makeBufferId h connId channel) (fun b =>
        b.updateEntry (h.toLowercase nick) (NickEntry.noteWhox user host flags account))) :=
      s.quiet_modifyBuffer h (fun b => continues_updateEntry h _ _ b _ (fun _ => rfl))
    exact quiet_ite h hnoted (hnoted.trans (quiet_showReplies h _ _ _ _))
  next => exact Quiet.refl s

end State

end Store

end Repartee
