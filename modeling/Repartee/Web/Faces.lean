import Repartee.Web.Emissions

/-!
# What the writes of a session show

What the writes of buffers and nicks do to what the buffers show, and when an event tells it. Lines
of text show nothing here.

## Main definitions

- `Face.add`, `Face.remove`, `Face.rename`, `Face.set`: writes of nicks

## Main results

- `Buffer.face_addNick`, `Buffer.face_updateNick`, …: what the writes of a buffer show
- `State.faces_foldl`, `State.faces_updateEntries`: writes in several buffers
- `remove_eq_hear`, `add_eq_hear`, `rename_eq_hear`: when an event tells them
-/

set_option autoImplicit false

namespace Repartee

namespace Web

/-! ### Writes of nicks -/

namespace Face

variable (key : Str) (f : Face)

def add (n : WireNick) : Face where
  topic := f.topic
  nickCount := if f.nicks key = none then f.nickCount + 1 else f.nickCount
  nicks := Function.update f.nicks key (some n)

def remove : Face where
  topic := f.topic
  nickCount := if f.nicks key = none then f.nickCount else f.nickCount - 1
  nicks := Function.update f.nicks key none

def rename (newKey newNick : Str) : Face :=
  match f.nicks key with
  | none => f
  | some n => (f.remove key).add newKey { n with nick := newNick }

def set (g : WireNick → WireNick) : Face :=
  { f with nicks := Function.update f.nicks key ((f.nicks key).map g) }

variable {key} {f}

theorem add_of_known {n : WireNick} (h : f.nicks key = some n) : f.add key n = f := by
  apply Face.ext
  · rfl
  · exact if_neg (by rw [h]; exact Option.some_ne_none n)
  · show Function.update f.nicks key (some n) = f.nicks
    rw [← h, Function.update_eq_self]

theorem remove_of_absent (h : f.nicks key = none) : f.remove key = f := by
  apply Face.ext
  · rfl
  · exact if_pos h
  · show Function.update f.nicks key none = f.nicks
    rw [← h, Function.update_eq_self]

theorem set_of_same {g : WireNick → WireNick} (h : ∀ n, f.nicks key = some n → g n = n) :
    f.set key g = f := by
  have hsame : (f.nicks key).map g = f.nicks key := by
    cases hn : f.nicks key with
    | none => rfl
    | some n => rw [Option.map_some, h n hn]
  apply Face.ext
  · rfl
  · rfl
  · show Function.update f.nicks key ((f.nicks key).map g) = f.nicks
    rw [hsame, Function.update_eq_self]

theorem rename_of_same {newKey newNick : Str}
    (h : ∀ n, f.nicks key = some n → newKey = key ∧ n.nick = newNick)
    (hpos : f.nicks key ≠ none → 0 < f.nickCount) : f.rename key newKey newNick = f := by
  rw [rename]
  cases hn : f.nicks key with
  | none => rfl
  | some n =>
    obtain ⟨rfl, rfl⟩ := h n hn
    have hcount : 0 < f.nickCount := hpos (by rw [hn]; exact Option.some_ne_none n)
    apply Face.ext
    · rfl
    · show (if Function.update f.nicks newKey none newKey = none then
        (if f.nicks newKey = none then f.nickCount else f.nickCount - 1) + 1 else _) = f.nickCount
      rw [Function.update_self, if_pos rfl, hn, if_neg (Option.some_ne_none n)]
      omega
    · show Function.update (Function.update f.nicks newKey none) newKey (some n) = f.nicks
      rw [Function.update_idem, ← hn, Function.update_eq_self]

end Face

/-! ### Writes that are told -/

section Hear

variable {lower : Str → Str} {e : NickEvent} {f : Face}

theorem remove_eq_hear (hkind : e.kind = .part ∨ e.kind = .quit)
    (hnobody : f.nicks (lower e.nick) = none → f.nickCount = 0) :
    f.remove (lower e.nick) = f.hear lower e := by
  have hcount : (f.remove (lower e.nick)).nickCount = f.nickCount - 1 := by
    show (if f.nicks (lower e.nick) = none then f.nickCount else f.nickCount - 1) = _
    split_ifs with hnone
    · rw [hnobody hnone]
    · rfl
  apply Face.ext
  · rfl
  · rw [hcount, Face.hear]
    rcases hkind with hkind | hkind <;> rw [hkind] <;> rfl
  · rw [Face.hear, NickEvent.told]
    rcases hkind with hkind | hkind <;> rw [hkind] <;> rfl

theorem add_eq_hear (hkind : e.kind = .join) (habsent : f.nicks (lower e.nick) = none) :
    f.add (lower e.nick) e.entry = f.hear lower e := by
  apply Face.ext
  · rfl
  · rw [Face.hear, hkind]
    exact if_pos habsent
  · rw [Face.hear, NickEvent.told, hkind]
    rfl

theorem rename_eq_hear {newNick : Str} (hkind : e.kind = .nickChange)
    (hnew : e.newNick = some newNick) (hpos : f.nicks (lower e.nick) ≠ none → 0 < f.nickCount)
    (hfree : f.nicks (lower e.nick) ≠ none →
      lower newNick = lower e.nick ∨ f.nicks (lower newNick) = none) :
    f.rename (lower e.nick) (lower newNick) newNick = f.hear lower e := by
  rw [Face.rename, Face.hear, NickEvent.told, hkind, hnew]
  cases hn : f.nicks (lower e.nick) with
  | none => rfl
  | some n =>
    have hsome : f.nicks (lower e.nick) ≠ none := by rw [hn]; exact Option.some_ne_none n
    have hcount := hpos hsome
    have hnone : Function.update f.nicks (lower e.nick) none (lower newNick) = none := by
      rw [Function.update_apply]
      split_ifs with hkey
      · rfl
      · exact (hfree hsome).resolve_left hkey
    apply Face.ext
    · rfl
    · show (if Function.update f.nicks (lower e.nick) none (lower newNick) = none then
        (if f.nicks (lower e.nick) = none then f.nickCount else f.nickCount - 1) + 1 else _) =
        f.nickCount
      rw [if_pos hnone, if_neg hsome]
      omega
    · rfl

end Hear

end Web

namespace Store

open Web (BufferMeta BufferEvent NickEvent NickEventKind WireNick Face Faces Tells TellsAll paint)

variable (h : Host)

namespace Buffer

variable (b : Buffer)

theorem face_addNick (entry : NickEntry) :
    (b.addNick h entry).face = b.face.add (h.toLowercase entry.nick) entry.toWire := by
  apply Face.ext
  · rfl
  · show (b.users.insert (h.toLowercase entry.nick) entry).rows.length =
      if (b.users.lookup (h.toLowercase entry.nick)).map NickEntry.toWire = none then
        b.users.rows.length + 1 else b.users.rows.length
    rw [Dict.length_insert, Dict.length_erase]
    cases hold : b.users.lookup (h.toLowercase entry.nick) with
    | none => rfl
    | some old =>
      have hpos := Dict.length_pos_of_lookup hold
      simp only [Option.isSome_some, Option.map_some, reduceCtorEq, if_true, if_false]
      omega
  · funext key
    show ((b.users.insert (h.toLowercase entry.nick) entry).lookup key).map NickEntry.toWire =
      Function.update b.face.nicks (h.toLowercase entry.nick) (some entry.toWire) key
    rw [Dict.lookup_insert, Function.update_apply]
    by_cases hkey : h.toLowercase entry.nick = key
    · rw [if_pos hkey, if_pos hkey.symm]
      rfl
    · rw [if_neg hkey, if_neg (fun heq => hkey heq.symm)]
      rfl

theorem face_removeNick (nick : Str) :
    (b.removeNick h nick).face = b.face.remove (h.toLowercase nick) := by
  apply Face.ext
  · rfl
  · show (b.users.erase (h.toLowercase nick)).rows.length =
      if (b.users.lookup (h.toLowercase nick)).map NickEntry.toWire = none then
        b.users.rows.length else b.users.rows.length - 1
    rw [Dict.length_erase]
    cases b.users.lookup (h.toLowercase nick) <;> rfl
  · funext key
    show ((b.users.erase (h.toLowercase nick)).lookup key).map NickEntry.toWire =
      Function.update b.face.nicks (h.toLowercase nick) none key
    rw [Dict.lookup_erase, Function.update_apply]
    by_cases hkey : h.toLowercase nick = key
    · rw [if_pos hkey, if_pos hkey.symm]
      rfl
    · rw [if_neg hkey, if_neg (fun heq => hkey heq.symm)]
      rfl

theorem face_updateNick (oldNick newNick : Str) :
    (b.updateNick h oldNick newNick).face =
      b.face.rename (h.toLowercase oldNick) (h.toLowercase newNick) newNick := by
  rw [Buffer.updateNick, Face.rename]
  have hnicks : b.face.nicks (h.toLowercase oldNick) =
      (b.users.lookup (h.toLowercase oldNick)).map NickEntry.toWire := rfl
  rw [hnicks]
  cases b.users.lookup (h.toLowercase oldNick) with
  | none => rfl
  | some entry =>
    -- a nick is removed and added again
    have hremoved := b.face_removeNick h oldNick
    have hadded := (b.removeNick h oldNick).face_addNick h { entry with nick := newNick }
    rw [hremoved] at hadded
    exact hadded

theorem face_updateEntry (key : Str) {f : NickEntry → NickEntry} {g : WireNick → WireNick}
    (hf : ∀ entry, (f entry).toWire = g entry.toWire) :
    (b.updateEntry key f).face = b.face.set key g := by
  apply Face.ext
  · rfl
  · exact Dict.length_modify b.users key f
  · funext key'
    show ((b.users.modify key f).lookup key').map NickEntry.toWire =
      Function.update b.face.nicks key ((b.face.nicks key).map g) key'
    rw [Dict.lookup_modify, Function.update_apply]
    by_cases hkey : key = key'
    · subst hkey
      rw [if_pos rfl, if_pos rfl]
      show _ = ((b.users.lookup key).map NickEntry.toWire).map g
      cases b.users.lookup key with
      | none => rfl
      | some entry => exact congrArg some (hf entry)
    · rw [if_neg hkey, if_neg (fun heq => hkey heq.symm)]
      rfl

/-- A write that is not shown. -/
theorem face_updateEntry_of_same (key : Str) {f : NickEntry → NickEntry}
    (hf : ∀ entry, (f entry).toWire = entry.toWire) : (b.updateEntry key f).face = b.face :=
  (b.face_updateEntry key (g := fun n => n) hf).trans (Face.set_of_same (fun _ _ => rfl))

theorem face_messages (messages : List Message) :
    ({ b with messages := messages } : Buffer).face = b.face := rfl

theorem face_receive (limit : Nat) (m : Message) : (b.receive h limit m).face = b.face := by
  rw [Buffer.receive, Buffer.trackSpeaker]
  cases m.nick with
  | none => rfl
  | some nick => cases m.messageType <;> rfl

end Buffer

namespace State

variable (s : State)

/-! ### Writes of buffers -/

theorem faces_of_buffers {s s' : State} (hbuffers : s'.buffers = s.buffers) :
    s'.faces = s.faces := by
  funext id
  rw [faces, faces, buffer?, buffer?, hbuffers]

theorem faces_modifyBuffer (id : Str) {f : Buffer → Buffer} {g : Face → Face}
    (hf : ∀ b, (f b).face = g b.face) : (s.modifyBuffer id f).faces = paint [id] g s.faces := by
  funext id'
  rw [faces, buffer?_modifyBuffer, paint]
  by_cases hid : id = id'
  · rw [if_pos hid, if_pos (List.mem_singleton.mpr hid.symm), Option.map_map, faces, Option.map_map]
    congr 1
    funext b
    exact hf b
  · rw [if_neg hid, if_neg (fun hmem => hid (List.mem_singleton.mp hmem).symm), faces]

theorem faces_modifyBuffer_of_same (id : Str) {f : Buffer → Buffer}
    (hf : ∀ b, s.buffer? id = some b → (f b).face = b.face) :
    (s.modifyBuffer id f).faces = s.faces := by
  funext id'
  rw [faces, faces, buffer?_modifyBuffer]
  by_cases hid : id = id'
  · rw [if_pos hid, ← hid]
    cases hb : s.buffer? id with
    | none => rfl
    | some b => exact congrArg some (hf b hb)
  · rw [if_neg hid]

theorem faces_foldl {w : State → Str → State} {g : Face → Face}
    (hw : ∀ t id, (w t id).faces = paint [id] g t.faces) {ids : List Str} (hnodup : ids.Nodup) :
    (ids.foldl w s).faces = paint ids g s.faces := by
  induction ids generalizing s with
  | nil => exact (Web.paint_eq_self (fun id hid => absurd hid List.not_mem_nil)).symm
  | cons id ids ih =>
    obtain ⟨hid, hnodup⟩ := List.nodup_cons.mp hnodup
    rw [List.foldl_cons, ih _ hnodup, hw, Web.paint_cons hid]

theorem faces_foldl_of_same {α : Type} {w : State → α → State}
    (hw : ∀ t a, (w t a).faces = t.faces) (l : List α) : (l.foldl w s).faces = s.faces := by
  induction l generalizing s with
  | nil => rfl
  | cons a l ih => exact (ih _).trans (hw s a)

theorem faces_addBuffer (b : Buffer) :
    (s.addBuffer b).faces = Function.update s.faces b.id (some b.face) := by
  funext id
  rw [faces, buffer?_addBuffer, Function.update_apply]
  by_cases hid : b.id = id
  · rw [if_pos hid, if_pos hid.symm]
    rfl
  · rw [if_neg hid, if_neg (fun heq => hid heq.symm), faces]

theorem faces_removeBuffer (id : Str) :
    (s.removeBuffer h id).faces = Function.update s.faces id none := by
  funext id'
  rw [faces, buffer?_removeBuffer, Function.update_apply]
  by_cases hid : id = id'
  · rw [if_pos hid, if_pos hid.symm]
    rfl
  · rw [if_neg hid, if_neg (fun heq => hid heq.symm), faces]

theorem faces_setActiveBuffer (id : Str) : (s.setActiveBuffer id).faces = s.faces :=
  faces_of_buffers (s.buffers_setActiveBuffer id)

theorem faces_goTo (id : Option Str) : ((id.map s.setActiveBuffer).getD s).faces = s.faces := by
  cases id with
  | none => rfl
  | some id => exact s.faces_setActiveBuffer id

theorem faces_eq_none_iff {id : Str} : s.faces id = none ↔ s.hasBuffer id = false := by
  rw [faces, Option.map_eq_none_iff, hasBuffer, Option.isSome_eq_false_iff,
    Option.isNone_iff_eq_none]

/-! ### Lines -/

theorem faces_ite {p : Prop} [Decidable p] {s₁ s₂ : State} (h₁ : s₁.faces = s.faces)
    (h₂ : s₂.faces = s.faces) : (if p then s₁ else s₂).faces = s.faces := by
  by_cases hp : p
  · rw [if_pos hp, h₁]
  · rw [if_neg hp, h₂]

theorem faces_addMessageUnshrunk (id : Str) (m : Message) :
    (s.addMessageUnshrunk h id m).faces = s.faces :=
  s.faces_modifyBuffer_of_same id (fun b _ => b.face_receive h _ m)

theorem faces_event (id : Str) (e : Event) : (s.event h id e).faces = s.faces :=
  s.faces_ite rfl (faces_addMessageUnshrunk h _ id _)

theorem faces_eventIn (ids : List Str) (e : Event) : (s.eventIn h ids e).faces = s.faces :=
  s.faces_foldl_of_same (fun t id => t.faces_event h id e) ids

theorem faces_showE2eLines (lines : List E2eLine) : (s.showE2eLines h lines).faces = s.faces :=
  s.faces_foldl_of_same (fun t _ => t.faces_event h _ _) lines

theorem faces_showReplies (connId : Str) (code : Nat) (args : List Str) :
    (s.showReplies h connId code args).faces = s.faces :=
  s.faces_foldl_of_same (fun t _ => t.faces_event h _ _) _

theorem faces_suppress (bufferId : Str) (notice : Option Str) :
    (s.suppress h bufferId notice).faces = s.faces := by
  cases notice with
  | none => rfl
  | some notice => exact s.faces_event h bufferId _

theorem faces_postChat (shrunk : Bool) (id : Str) (m : Nat → Message) :
    (s.postChat h shrunk id m).faces = s.faces :=
  s.faces_ite rfl (faces_addMessageUnshrunk h _ id _)

theorem faces_copyMention (connId target nick body : Str) :
    (s.copyMention h connId target nick body).faces = s.faces := by
  rw [copyMention, addMentionToBuffer]
  refine (faces_modifyBuffer_of_same _ mentionsId (fun b _ => b.face_messages _)).trans ?_
  exact faces_of_buffers rfl

theorem faces_showChat (connId bufferId ourNick nick target text body : Str)
    (messageType : MessageType) (shrunk : Bool) :
    (s.showChat h connId bufferId ourNick nick target text body messageType shrunk).faces =
      s.faces := by
  have hshown := s.faces_postChat h shrunk bufferId (fun id =>
    ⟨id, messageType, some nick, s.nickPrefix h bufferId nick, text,
      decide (nick ≠ ourNick) && mentions h text ourNick, none, none⟩)
  exact s.faces_ite ((faces_copyMention h _ connId target nick body).trans hshown) hshown

theorem faces_handleCtcp (bufferId : Str) (floodExempt : Bool) (a : Arrival) :
    (s.handleCtcp h bufferId floodExempt a).faces = s.faces := by
  rw [handleCtcp]
  generalize (if s.floodProtection && !floodExempt then ctcpVerdict s.floodState a.now
    else (none, s.floodState)) = checked
  obtain ⟨verdict, f⟩ := checked
  cases verdict with
  | some notice => exact faces_suppress h _ bufferId notice
  | none =>
    cases a.dispatched with
    | none => rfl
    | some lines => exact faces_showE2eLines h _ lines

theorem faces_handleText (connId bufferId ourNick nick ident target text : Str)
    (floodExempt : Bool) (a : Arrival) :
    (s.handleText h connId bufferId ourNick nick ident target text floodExempt a).faces =
      s.faces := by
  rw [handleText]
  generalize (if s.floodProtection && decide (nick ≠ ourNick) && !floodExempt then
      messageVerdict h s.floodState nick ident target text a.now
    else (none, s.floodState)) = checked
  obtain ⟨verdict, f⟩ := checked
  cases verdict with
  | some notice => exact faces_suppress h _ bufferId notice
  | none => exact faces_showChat h _ connId bufferId ourNick nick target text text .message a.shrunk

theorem faces_handleNotice (connId ourNick : Str) (msg : IrcMessage) (target text : Str)
    (a : Arrival) : (s.handleNotice h connId ourNick msg target text a).faces = s.faces := by
  rw [handleNotice]
  refine s.faces_ite rfl ?_
  cases a.dispatched with
  | some lines => exact s.faces_showE2eLines h lines
  | none => exact s.faces_postChat h _ _ _

theorem faces_setTopic (id topic : Str) :
    (s.setTopic id topic).faces =
      Function.update s.faces id ((s.faces id).map (fun f => { f with topic := some topic })) := by
  rw [← Web.paint_singleton]
  exact s.faces_modifyBuffer id (fun _ => rfl)

theorem faces_handleInvite (connId ourNick : Str) (msg : IrcMessage) (nick channel : Str) :
    (s.handleInvite h connId ourNick msg nick channel).faces = s.faces :=
  s.faces_ite (s.faces_event h _ _) (s.faces_ite (s.faces_event h _ _) rfl)

/-! ### Buffers with a nick -/

theorem exists_of_faces {id : Str} {f : Face} (hf : s.faces id = some f) :
    ∃ b, s.buffer? id = some b ∧ b.face = f := Option.map_eq_some_iff.mp hf

theorem nickCount_pos {id key : Str} {f : Face} (hf : s.faces id = some f)
    (hkey : f.nicks key ≠ none) : 0 < f.nickCount := by
  obtain ⟨b, -, rfl⟩ := s.exists_of_faces hf
  cases hentry : b.users.lookup key with
  | none => exact absurd (congrArg (Option.map NickEntry.toWire) hentry) hkey
  | some entry => exact Dict.length_pos_of_lookup hentry

theorem nicks_of_mem_buffersWith {connId nick id : Str} {f : Face}
    (hid : id ∈ s.buffersWith h connId nick) (hf : s.faces id = some f) :
    f.nicks (h.toLowercase nick) ≠ none := by
  obtain ⟨b, hb, hp⟩ := s.mem_bufferIdsWhere.mp hid
  obtain ⟨b', hb', rfl⟩ := s.exists_of_faces hf
  rw [hb, Option.some.injEq] at hb'
  subst hb'
  have hnick : b.hasNick (h.toLowercase nick) = true := ((Bool.and_eq_true _ _).mp hp).2
  obtain ⟨entry, hentry⟩ := Option.isSome_iff_exists.mp hnick
  show (b.users.lookup (h.toLowercase nick)).map NickEntry.toWire ≠ none
  rw [hentry]
  exact Option.some_ne_none _

/-- The entries of a nick are written in the buffers that it is in. -/
theorem faces_updateEntries (connId nick : Str) {f : NickEntry → NickEntry}
    {g : WireNick → WireNick} (hf : ∀ entry, (f entry).toWire = g entry.toWire) :
    (s.updateEntries h connId nick f).faces =
      paint (s.buffersWith h connId nick) (fun face => face.set (h.toLowercase nick) g)
        s.faces := by
  funext id
  rw [updateEntries, faces, buffer?_modifyBuffersOf, paint]
  cases hb : s.buffer? id with
  | none =>
    have hface : s.faces id = none := by rw [faces, hb]; rfl
    rw [hface]
    split_ifs <;> rfl
  | some b =>
    have hface : s.faces id = some b.face := by rw [faces, hb]; rfl
    have hwritten := b.face_updateEntry (h.toLowercase nick) hf
    have hmem : id ∈ s.buffersWith h connId nick ↔
        b.connectionId = connId ∧ b.hasNick (h.toLowercase nick) = true := by
      rw [buffersWith, mem_bufferIdsWhere, hb]
      simp
    rw [hface, Option.map_some, Option.map_some]
    by_cases hconn : b.connectionId = connId
    · rw [if_pos hconn, hwritten]
      by_cases hnick : b.hasNick (h.toLowercase nick) = true
      · rw [if_pos (hmem.mpr ⟨hconn, hnick⟩), Option.map_some]
      · rw [if_neg (fun hid => hnick (hmem.mp hid).2)]
        congr 1
        apply Face.set_of_same
        intro n hn
        obtain ⟨entry, hentry, -⟩ := Option.map_eq_some_iff.mp hn
        exact absurd (Option.isSome_iff_exists.mpr ⟨entry, hentry⟩) hnick
    · rw [if_neg hconn, if_neg (fun hid => hconn (hmem.mp hid).1)]

/-- A write of entries that is not shown. -/
theorem faces_updateEntries_of_same (connId nick : Str) {f : NickEntry → NickEntry}
    (hf : ∀ entry, (f entry).toWire = entry.toWire) :
    (s.updateEntries h connId nick f).faces = s.faces := by
  rw [s.faces_updateEntries h connId nick (g := fun n => n) hf]
  apply Web.paint_eq_self
  intro id _ f _
  exact Face.set_of_same (fun _ _ => rfl)

theorem faces_handleAccount (connId : Str) (msg : IrcMessage) (account : Str) :
    (s.handleAccount h connId msg account).faces = s.faces := by
  rw [handleAccount]
  cases extractNick msg.sender with
  | none => rfl
  | some nick =>
    exact (faces_eventIn h _ _ _).trans (s.faces_updateEntries_of_same h connId nick
      (f := fun entry => { entry with account := loggedIn account }) (fun _ => rfl))

theorem faces_handleChghost (connId : Str) (msg : IrcMessage) (newUser newHost : Str) :
    (s.handleChghost h connId msg newUser newHost).faces = s.faces := by
  rw [handleChghost]
  cases extractNick msg.sender with
  | none => rfl
  | some nick =>
    exact (faces_eventIn h _ _ _).trans (s.faces_updateEntries_of_same h connId nick
      (f := fun entry => { entry with ident := some newUser, host := some newHost })
      (fun _ => rfl))

end State

end Store

end Repartee
