import Repartee.Web.Faces

/-!
# Web clients through a session

A client that is told everything by the events of a session agrees with a client that connects at
its end. Events do not tell everything: joins of ignored nicks, kicks, names, batches and renamed
buffers are among what they leave out.

## Main results

- `tells_handleJoin`, `tells_handleNickChange`, …: a message that is `Told` changes what its events
  say
- `tells_step`: the same for a step
- `replica_run`: clients agree after a session whose steps are told
- `kick_is_not_told`: a client that does not learn of a kick
-/

set_option autoImplicit false

namespace Repartee

namespace Store

open Web (BufferMeta BufferEvent NickEvent NickEventKind WireNick Face Faces Tells TellsAll paint)

variable (h : Host)

namespace State

variable (s : State)

/-! ### Messages -/

/-- What is not changed need not be told. -/
theorem tells_nothing {s' : State} (hsame : s'.faces = s.faces) :
    TellsAll h.toLowercase s.faces [] s'.faces := by
  rw [hsame]
  exact .nil _

theorem tells_removeBuffer (id : Str) :
    TellsAll h.toLowercase s.faces (s.closedEvents id) (s.removeBuffer h id).faces := by
  rw [closedEvents, faces_removeBuffer]
  by_cases hexists : s.hasBuffer id = true
  · rw [if_pos hexists]
    exact Web.tellsAll_singleton rfl
  · rw [if_neg hexists]
    have hnone := s.faces_eq_none_iff.mpr (Bool.eq_false_iff.mpr hexists)
    rw [← hnone, Function.update_eq_self]
    exact .nil _

/-- A buffer that is new and has no users. -/
theorem tells_addBuffer {b : Buffer} (hnew : s.hasBuffer b.id = false)
    (husers : b.users = Table.empty) :
    TellsAll h.toLowercase s.faces [.bufferCreated b.toMeta] (s.addBuffer b).faces := by
  refine Web.tellsAll_singleton ⟨s.faces_eq_none_iff.mpr hnew, ?_⟩
  have hface : b.face = ⟨b.topic, b.users.rows.length, fun _ => none⟩ := by
    rw [Buffer.face, husers]
    rfl
  rw [faces_addBuffer, hface]
  rfl

theorem tells_handlePart {connId ourNick : Str} {msg : IrcMessage} {channel : Str}
    (htold : ToldPart h s connId ourNick msg channel) (reason : Option Str) :
    TellsAll h.toLowercase s.faces (s.partEvents h connId ourNick msg channel)
      (s.handlePart h connId ourNick msg channel reason).faces := by
  rw [partEvents]
  rw [ToldPart] at htold
  by_cases hown : senderNick msg = ourNick
  · have hclosed : (s.handlePart h connId ourNick msg channel reason).faces =
        (s.removeBuffer h (makeBufferId h connId channel)).faces := by
      rw [senderNick] at hown
      rw [handlePart]
      generalize extractNickUserhost msg.sender = sender at hown ⊢
      obtain ⟨nick, ident, host⟩ := sender
      simp only at hown ⊢
      rw [if_pos hown]
      exact faces_of_buffers rfl
    rw [if_pos hown, hclosed]
    exact s.tells_removeBuffer h _
  · obtain ⟨hspelt, hnobody⟩ := htold hown
    have hleft : (s.handlePart h connId ourNick msg channel reason).faces =
        paint [makeBufferId h connId channel] (Face.remove (h.toLowercase (senderNick msg)))
          s.faces := by
      rw [← s.faces_modifyBuffer _ (fun b => b.face_removeNick h (senderNick msg))]
      rw [senderNick] at hown ⊢
      rw [handlePart]
      generalize extractNickUserhost msg.sender = sender at hown ⊢
      obtain ⟨nick, ident, host⟩ := sender
      simp only at hown ⊢
      rw [if_neg hown]
      exact faces_ite _ rfl (faces_event h _ _ _)
    rw [if_neg hown, hleft]
    refine Web.tellsAll_paint (e := aboutNick .part (senderNick msg)) (fun _ => rfl)
      (fun _ => show NickEventKind.part ≠ .join by simp) (List.nodup_singleton _) ?_
    intro id hid f hf
    rw [List.mem_singleton.mp hid] at hf
    exact ⟨⟨fun n hn => hspelt f n hf hn, hnobody f hf⟩,
      Web.remove_eq_hear (e := aboutNick .part (senderNick msg) id) (.inl rfl) (hnobody f hf)⟩

theorem tells_handleQuit {connId : Str} {msg : IrcMessage}
    (htold : ∀ id ∈ s.buffersWith h connId (senderNick msg), Spelt h s.faces id (senderNick msg))
    (reason : Option Str) (now : Nat) :
    TellsAll h.toLowercase s.faces (s.quitEvents h connId msg)
      (s.handleQuit h connId msg reason now).faces := by
  have hnodup : (s.buffersWith h connId (senderNick msg)).Nodup := s.nodup_bufferIdsWhere _
  have hleft : (s.handleQuit h connId msg reason now).faces =
      paint (s.buffersWith h connId (senderNick msg))
        (Face.remove (h.toLowercase (senderNick msg))) s.faces := by
    rw [← s.faces_foldl (w := fun t id => t.removeNick h id (senderNick msg))
      (fun t id => t.faces_modifyBuffer id (fun b => b.face_removeNick h (senderNick msg))) hnodup]
    rw [senderNick, handleQuit]
    generalize extractNickUserhost msg.sender = sender
    obtain ⟨nick, ident, host⟩ := sender
    exact faces_ite _ rfl (faces_ite _ rfl (faces_eventIn h _ _ _))
  rw [quitEvents, hleft]
  refine Web.tellsAll_paint (e := aboutNick .quit (senderNick msg)) (fun _ => rfl)
    (fun _ => show NickEventKind.quit ≠ .join by simp) hnodup ?_
  intro id hid f hf
  have hsome := s.nicks_of_mem_buffersWith h hid hf
  exact ⟨⟨fun n hn => htold id hid f n hf hn, fun hnone => absurd hnone hsome⟩,
    Web.remove_eq_hear (e := aboutNick .quit (senderNick msg) id) (.inr rfl)
      (fun hnone => absurd hnone hsome)⟩

/-- A nick is added that is shown already. -/
theorem faces_addNick_of_known {id : Str} {entry : NickEntry}
    (hknown : Known h s.faces id entry.toWire) : (s.addNick h id entry).faces = s.faces := by
  refine (s.faces_modifyBuffer id (g := fun f => f.add (h.toLowercase entry.nick) entry.toWire)
    (fun b => b.face_addNick h entry)).trans ?_
  apply Web.paint_eq_self
  intro id' hid f hf
  rw [List.mem_singleton.mp hid] at hf
  exact Face.add_of_known (hknown f hf)

theorem tells_handleJoin {connId ourNick : Str} {msg : IrcMessage} {channel : Str}
    (htold : ToldJoin h s connId ourNick msg channel) (account realname : Option Str) (now : Nat) :
    TellsAll h.toLowercase s.faces (s.joinEvents h connId ourNick msg channel)
      (s.handleJoin h connId ourNick msg channel account realname now).faces := by
  rw [ToldJoin] at htold
  rw [joinEvents, handleJoin]
  generalize extractNickUserhost msg.sender = sender at htold ⊢
  obtain ⟨nick, ident, host⟩ := sender
  simp only at htold ⊢
  by_cases hignored : nick ≠ ourNick ∧ s.ignored h nick ident host .joins (some channel) = true
  · rw [if_pos hignored] at htold ⊢
    rw [if_pos hignored]
    exact s.tells_nothing h (s.faces_addNick_of_known h htold)
  · rw [if_neg hignored] at htold ⊢
    rw [if_neg hignored]
    by_cases hown : nick = ourNick
    · rw [if_pos hown] at htold ⊢
      rw [if_pos hown]
      cases hb : s.buffer? (makeBufferId h connId channel) with
      | none =>
        have hnew : s.hasBuffer (makeBufferId h connId channel) = false := by
          rw [hasBuffer, hb]
          rfl
        rw [if_neg (by rw [hnew]; decide), if_neg (by decide), faces_event, openChannel,
          if_neg (by rw [hnew]; decide), faces_setActiveBuffer]
        exact s.tells_addBuffer h (b := freshBuffer h connId .channel channel) hnew rfl
      | some b =>
        rw [if_pos (hasBuffer_of_buffer hb)]
        apply s.tells_nothing h
        by_cases hmembers : ((some b).any (fun b => !b.users.rows.isEmpty)) = true
        · rw [if_pos hmembers]
        · -- a channel that has been left is used again
          rw [if_neg hmembers, faces_event, openChannel, if_pos (hasBuffer_of_buffer hb),
            faces_setActiveBuffer]
          apply s.faces_modifyBuffer_of_same
          intro b' hb'
          rw [hb, Option.some.injEq] at hb'
          subst hb'
          have hrows : b.users.rows = [] := by simpa using hmembers
          have husers : b.users = Table.empty := Table.ext hrows
          have hface : s.faces (makeBufferId h connId channel) = some b.face := by
            rw [faces, hb]
            rfl
          have htopic : b.topic = none := htold b.face hface (congrArg List.length hrows)
          rw [Buffer.face, Buffer.face, Buffer.reset, husers, htopic]
    · rw [if_neg hown] at htold ⊢
      rw [if_neg hown]
      obtain ⟨hexists, habsent⟩ := htold
      generalize hentry : joinedEntry nick (joinAccount account (tagValue msg (str "account"))) =
        entry
      have hjoined : ∀ t : State, t.faces = (s.addNick h (makeBufferId h connId channel)
          entry).faces → TellsAll h.toLowercase s.faces
            [.nickEvent { aboutNick .join nick (makeBufferId h connId channel) with
              nickPrefix := some [], modes := some [], away := some false }] t.faces := by
        intro t ht
        refine Web.tellsAll_singleton ⟨fun f hf => habsent f hf, fun _ => hexists, ?_⟩
        rw [ht, ← Web.paint_singleton]
        refine (s.faces_modifyBuffer _ (g := fun f => f.add (h.toLowercase entry.nick) entry.toWire)
          (fun b => b.face_addNick h entry)).trans ?_
        apply Web.paint_congr
        intro id hid f hf
        rw [List.mem_singleton.mp hid] at hf
        rw [← hentry]
        exact Web.add_eq_hear (e := { aboutNick .join nick (makeBufferId h connId channel) with
          nickPrefix := some [], modes := some [], away := some false }) rfl (habsent f hf)
      apply hjoined
      exact faces_ite _ rfl (faces_event h _ _ _)

/-- A buffer that keeps its id is stored under it again. -/
theorem buffer?_rekeyBuffer_same {id : Str} {b : Buffer} (hb : s.buffer? id = some b)
    (newName key : Str) :
    (s.rekeyBuffer id id newName).buffer? key =
      if id = key then some { b with id := id, name := newName } else s.buffer? key := by
  rw [s.buffer?_rekeyBuffer hb]
  by_cases hkey : id = key
  · rw [if_pos hkey, if_pos hkey]
  · rw [if_neg hkey, if_neg hkey, if_neg hkey]

theorem faces_rekeyBuffer {id newId : Str} (hsame : s.hasBuffer id = true → newId = id)
    (newName : Str) : (s.rekeyBuffer id newId newName).faces = s.faces := by
  cases hb : s.buffer? id with
  | none => rw [s.rekeyBuffer_of_none hb]
  | some b =>
    obtain rfl := hsame (hasBuffer_of_buffer hb)
    funext key
    rw [faces, s.buffer?_rekeyBuffer_same hb, faces]
    by_cases hkey : newId = key
    · rw [if_pos hkey, ← hkey, hb]
      rfl
    · rw [if_neg hkey]

/-- Queries that keep their ids. -/
theorem faces_renameQueryBuffers {connId newNick : Str} {affected : List Str}
    (hsame : ∀ id ∈ affected, ∀ b, s.buffer? id = some b → b.bufferType = .query →
      makeBufferId h connId newNick = id) :
    (s.renameQueryBuffers h connId newNick affected).faces = s.faces := by
  rw [renameQueryBuffers]
  induction affected generalizing s with
  | nil => rfl
  | cons id affected ih =>
    rw [List.foldl_cons, renameQuery]
    by_cases hquery : (s.buffer? id).any (fun b => b.bufferType = .query) = true
    · rw [if_pos hquery]
      obtain ⟨b, hb, hkind⟩ := (Option.any_eq_true _ _).mp hquery
      have hid := hsame id List.mem_cons_self b hb (of_decide_eq_true hkind)
      refine (ih _ ?_).trans (s.faces_rekeyBuffer (fun _ => hid) newNick)
      intro id' hid' b' hb' hkind'
      rw [hid, s.buffer?_rekeyBuffer_same hb] at hb'
      by_cases hkey : id = id'
      · rw [hid, hkey]
      · rw [if_neg hkey] at hb'
        exact hsame id' (List.mem_cons_of_mem _ hid') b' hb' hkind'
    · rw [if_neg hquery]
      exact ih s (fun id' hid' => hsame id' (List.mem_cons_of_mem _ hid'))

/-- The nick is written in the buffers that a nick change concerns, and then its queries are
renamed. -/
theorem handleNickChange_shows (connId ourNick : Str) (msg : IrcMessage) (newNick : Str)
    (now : Nat) :
    ∃ t : State, Quiet h s t ∧
      t.faces = paint (s.buffersOfNick h connId (senderNick msg))
        (fun f => f.rename (h.toLowercase (senderNick msg)) (h.toLowercase newNick) newNick)
        s.faces ∧
      s.handleNickChange h connId ourNick msg newNick now =
        t.renameQueryBuffers h connId newNick (s.buffersOfNick h connId (senderNick msg)) := by
  have hnodup : (s.buffersOfNick h connId (senderNick msg)).Nodup := s.nodup_bufferIdsWhere _
  have hsender := senderNick_eq msg
  have hwritten : ∀ (t : State) id, (t.updateNick h id (senderNick msg) newNick).faces =
      paint [id] (fun f => f.rename (h.toLowercase (senderNick msg)) (h.toLowercase newNick)
        newNick) t.faces :=
    fun t id => t.faces_modifyBuffer id (fun b => b.face_updateNick h (senderNick msg) newNick)
  have hchanged : ∀ (t : State) id,
      (t.changeNickIn h ourNick (senderNick msg) newNick now id).faces =
        (t.updateNick h id (senderNick msg) newNick).faces :=
    fun t id => faces_ite _ rfl (faces_event h _ _ _)
  rw [handleNickChange]
  generalize extractNickUserhost msg.sender = sender
  obtain ⟨_, ident, host⟩ := sender
  simp only [hsender]
  split_ifs with hignored hown
  · refine ⟨_, ?_, s.faces_foldl (w := fun t id => t.updateNick h id (senderNick msg) newNick)
      hwritten hnodup, rfl⟩
    exact quiet_foldl (fun t id => t.quiet_updateNick h id (senderNick msg) newNick) _ s
  · -- our own nick is noted first
    refine ⟨_, ?_, ?_, rfl⟩
    · exact (s.quiet_modifyConnection h connId _).trans
        (quiet_foldl (fun t id => t.quiet_changeNickIn h _ (senderNick msg) newNick now id) _ _)
    · exact faces_foldl _ (w := fun t id =>
        t.changeNickIn h ourNick (senderNick msg) newNick now id)
        (fun t id => (hchanged t id).trans (hwritten t id)) hnodup
  · refine ⟨_, ?_, ?_, rfl⟩
    · exact quiet_foldl (fun t id => t.quiet_changeNickIn h _ (senderNick msg) newNick now id) _ s
    · exact faces_foldl _ (w := fun t id =>
        t.changeNickIn h ourNick (senderNick msg) newNick now id)
        (fun t id => (hchanged t id).trans (hwritten t id)) hnodup

theorem tells_handleNickChange {connId ourNick : Str} {msg : IrcMessage} {newNick : Str}
    (hkeyed : ∀ key b, s.buffer? key = some b → KeyedByNick h b.users)
    (htold : ToldNick h s connId ourNick msg newNick) (now : Nat) :
    TellsAll h.toLowercase s.faces (s.nickChangeEvents h connId ourNick msg newNick)
      (s.handleNickChange h connId ourNick msg newNick now).faces := by
  obtain ⟨t, hquiet, hshown, hrenamed⟩ :=
    s.handleNickChange_shows h connId ourNick msg newNick now
  have hqueries : (t.renameQueryBuffers h connId newNick
      (s.buffersOfNick h connId (senderNick msg))).faces = t.faces := by
    apply t.faces_renameQueryBuffers h
    intro id hid b hb hkind
    obtain ⟨b₀, hb₀, hcontinues⟩ := hquiet.buffer_of_some' hb
    exact htold.queries id hid b₀ hb₀ (hcontinues.bufferType ▸ hkind)
  rw [hrenamed, hqueries, hshown, nickChangeEvents]
  by_cases hignored : s.ignoresNick h ourNick msg = true
  · rw [if_pos hignored]
    have hsame : paint (s.buffersOfNick h connId (senderNick msg))
        (fun f => f.rename (h.toLowercase (senderNick msg)) (h.toLowercase newNick) newNick)
        s.faces = s.faces := by
      apply Web.paint_eq_self
      intro id hid f hf
      apply Face.rename_of_same
      · intro n hn
        have hnick := htold.ignored hignored id hid f n hf hn
        obtain ⟨b, hb, rfl⟩ := s.exists_of_faces hf
        obtain ⟨entry, hentry, rfl⟩ := Option.map_eq_some_iff.mp hn
        have hkey : h.toLowercase (senderNick msg) = h.toLowercase entry.nick :=
          hkeyed id b hb _ entry hentry
        have hentryNick : entry.nick = newNick := hnick
        exact ⟨by rw [hkey, hentryNick], hnick⟩
      · exact s.nickCount_pos hf
    rw [hsame]
    exact .nil _
  · rw [if_neg hignored]
    have hheard := Bool.eq_false_iff.mpr hignored
    refine Web.tellsAll_paint
      (e := fun id => { aboutNick .nickChange (senderNick msg) id with newNick := some newNick })
      (fun _ => rfl) (fun _ => nofun) (s.nodup_bufferIdsWhere _) ?_
    intro id hid f hf
    have hfree := htold.free hheard id hid f hf
    refine ⟨⟨fun n hn => htold.spelt hheard id hid f n hf hn, ?_⟩, ?_⟩
    · intro new hnew
      obtain rfl := Option.some.inj hnew
      exact hfree
    · exact Web.rename_eq_hear
        (e := { aboutNick .nickChange (senderNick msg) id with newNick := some newNick })
        rfl rfl (s.nickCount_pos hf) hfree

theorem tells_handleKick {connId ourNick : Str} {channel kickedUser : Str}
    (htold : kickedUser ≠ ourNick → Absent h s.faces (makeBufferId h connId channel) kickedUser)
    (msg : IrcMessage) (reason : Option Str) :
    TellsAll h.toLowercase s.faces (s.kickEvents h connId ourNick channel kickedUser)
      (s.handleKick h connId ourNick msg channel kickedUser reason).faces := by
  rw [kickEvents, handleKick]
  generalize extractNickUserhost msg.sender = sender
  obtain ⟨kicker, ident, host⟩ := sender
  simp only
  by_cases hown : kickedUser = ourNick
  · rw [if_pos hown, if_neg (fun hignored => hignored.1 hown), if_pos hown]
    obtain ⟨serverId, line, hkicked⟩ := s.kicked_eq h connId ourNick kicker channel (reason.getD [])
    rw [hkicked]
    have hclosed := tells_removeBuffer h
      ((s.event h serverId line).event h (makeBufferId h connId channel) line)
      (makeBufferId h connId channel)
    have hexists : ((s.event h serverId line).event h (makeBufferId h connId channel)
        line).closedEvents (makeBufferId h connId channel) =
        s.closedEvents (makeBufferId h connId channel) := by
      rw [closedEvents, closedEvents, (quiet_event h _ _ _).hasBuffer,
        (s.quiet_event h _ _).hasBuffer]
    rw [hexists, faces_event, faces_event] at hclosed
    refine (congrArg (TellsAll h.toLowercase s.faces _) ?_).mp hclosed
    exact (faces_ite _ (faces_event h _ _ _) rfl).symm
  · rw [if_neg hown, if_neg hown]
    apply s.tells_nothing h
    have hremoved : (s.removeNick h (makeBufferId h connId channel) kickedUser).faces =
        s.faces := by
      refine (s.faces_modifyBuffer _ (g := Face.remove (h.toLowercase kickedUser))
        (fun b => b.face_removeNick h kickedUser)).trans ?_
      apply Web.paint_eq_self
      intro id hid f hf
      rw [List.mem_singleton.mp hid] at hf
      exact Face.remove_of_absent (htold hown f hf)
    exact s.faces_ite hremoved ((faces_event h _ _ _).trans hremoved)

theorem tells_handleTopic (connId : Str) (msg : IrcMessage) (channel : Str) (topic : Option Str) :
    TellsAll h.toLowercase s.faces (topicEvents h connId channel topic)
      (s.handleTopic h connId msg channel topic).faces := by
  cases topic with
  | none => exact .nil _
  | some topic =>
    have hset : (s.handleTopic h connId msg channel (some topic)).faces =
        (s.setTopic (makeBufferId h connId channel) topic).faces := faces_event h _ _ _
    rw [topicEvents, hset, faces_setTopic]
    exact Web.tellsAll_singleton rfl

/-! ### Modes and away states -/

/-- A mode, as it is shown. -/
def wireMode (adding : Bool) (letter : Char) (n : WireNick) : WireNick :=
  (NickEntry.setMode adding letter ⟨n.nick, n.nickPrefix, n.modes, n.away, none, none, none⟩).toWire

theorem faces_applyChannelMode (bufferId : Str) {adding : Bool} {letter : Char} (target : Str)
    (hletter : isNickMode letter = true) :
    (s.applyChannelMode h bufferId ⟨some adding, letter, some target⟩).faces =
      paint [bufferId] (fun f => f.set (h.toLowercase target) (wireMode adding letter)) s.faces := by
  rw [applyChannelMode]
  simp only [hletter, if_true]
  exact s.faces_modifyBuffer bufferId (fun b => b.face_updateEntry _ (fun _ => rfl))

theorem applyChannelMode_of_not {bufferId : Str} {m : ModeChange}
    (hnot : m.adding = none ∨ m.param = none ∨ isNickMode m.letter = false) :
    s.applyChannelMode h bufferId m = s ∧ s.modeEvents h bufferId m = [] := by
  obtain ⟨adding, letter, param⟩ := m
  cases adding with
  | none => exact ⟨rfl, rfl⟩
  | some adding =>
    cases param with
    | none => exact ⟨rfl, rfl⟩
    | some target =>
      have hletter : isNickMode letter = false := by simpa using hnot
      simp [applyChannelMode, modeEvents, hletter]

/-- A mode keeps the spelling of the nicks. -/
theorem spelt_applyChannelMode {bufferId nick : Str} (m : ModeChange)
    (hspelt : Spelt h s.faces bufferId nick) :
    Spelt h (s.applyChannelMode h bufferId m).faces bufferId nick := by
  by_cases hnot : m.adding = none ∨ m.param = none ∨ isNickMode m.letter = false
  · rw [(s.applyChannelMode_of_not h hnot).1]
    exact hspelt
  · obtain ⟨adding, letter, param⟩ := m
    push Not at hnot
    obtain ⟨adding, rfl⟩ := Option.ne_none_iff_exists'.mp hnot.1
    obtain ⟨target, rfl⟩ := Option.ne_none_iff_exists'.mp hnot.2.1
    rw [s.faces_applyChannelMode h bufferId target (Bool.not_eq_false _ ▸ hnot.2.2)]
    intro f n hf hn
    rw [paint, if_pos (List.mem_singleton_self _)] at hf
    obtain ⟨f₀, hf₀, rfl⟩ := Option.map_eq_some_iff.mp hf
    have hn' : Function.update f₀.nicks (h.toLowercase target)
        ((f₀.nicks (h.toLowercase target)).map (wireMode adding letter)) (h.toLowercase nick) =
        some n := hn
    rw [Function.update_apply] at hn'
    split_ifs at hn' with hkey
    · rw [← hkey] at hn'
      obtain ⟨n₀, hn₀, rfl⟩ := Option.map_eq_some_iff.mp hn'
      exact hspelt f₀ n₀ hf₀ hn₀
    · exact hspelt f₀ n hf₀ hn'

theorem tells_applyChannelMode {bufferId : Str} {m : ModeChange}
    (hspelt : ∀ nick, m.param = some nick → Spelt h s.faces bufferId nick) :
    TellsAll h.toLowercase s.faces (s.modeEvents h bufferId m)
      (s.applyChannelMode h bufferId m).faces := by
  by_cases hnot : m.adding = none ∨ m.param = none ∨ isNickMode m.letter = false
  · rw [(s.applyChannelMode_of_not h hnot).1, (s.applyChannelMode_of_not h hnot).2]
    exact .nil _
  · obtain ⟨adding, letter, param⟩ := m
    push Not at hnot
    obtain ⟨adding, rfl⟩ := Option.ne_none_iff_exists'.mp hnot.1
    obtain ⟨target, rfl⟩ := Option.ne_none_iff_exists'.mp hnot.2.1
    have hletter : isNickMode letter = true := Bool.not_eq_false _ ▸ hnot.2.2
    rw [s.faces_applyChannelMode h bufferId target hletter, modeEvents]
    simp only [hletter, if_true]
    cases hentry : (s.buffer? bufferId).bind (fun b => b.users.lookup (h.toLowercase target)) with
    | none =>
      have hsame : paint [bufferId] (fun f => f.set (h.toLowercase target)
          (wireMode adding letter)) s.faces = s.faces := by
        apply Web.paint_eq_self
        intro id hid f hf
        rw [List.mem_singleton.mp hid] at hf
        obtain ⟨b, hb, rfl⟩ := s.exists_of_faces hf
        apply Face.set_of_same
        intro n hn
        obtain ⟨entry, hlisted, -⟩ := Option.map_eq_some_iff.mp hn
        rw [hb, Option.bind_some, hlisted] at hentry
        cases hentry
      rw [hsame]
      exact .nil _
    | some entry =>
      obtain ⟨b, hb, hlisted⟩ := Option.bind_eq_some_iff.mp hentry
      have hface : s.faces bufferId = some b.face := by
        rw [faces, hb]
        rfl
      have hn : b.face.nicks (h.toLowercase target) = some entry.toWire :=
        congrArg (Option.map NickEntry.toWire) hlisted
      refine Web.tellsAll_singleton
        ⟨fun f hf n hn => hspelt target rfl f n hf hn,
          fun hjoin => absurd hjoin (show NickEventKind.modeChange ≠ .join by simp), ?_⟩
      rw [← Web.paint_singleton]
      apply Web.paint_congr
      intro id hid f hf
      rw [List.mem_singleton.mp hid, hface, Option.some.injEq] at hf
      subst hf
      apply Face.ext
      · rfl
      · rfl
      · show Function.update b.face.nicks (h.toLowercase target)
            ((b.face.nicks (h.toLowercase target)).map (wireMode adding letter)) =
          Function.update b.face.nicks (h.toLowercase target)
            ((b.face.nicks (h.toLowercase target)).map (NickEvent.setModes _))
        rw [hn]
        rfl

theorem tells_handleChannelMode {connId target : Str} {modes : List ModeChange}
    (htold : ∀ m ∈ modes, ∀ nick, m.param = some nick →
      Spelt h s.faces (makeBufferId h connId target) nick) (msg : IrcMessage) :
    TellsAll h.toLowercase s.faces
      (channelModeEvents h (makeBufferId h connId target) s modes)
      (s.handleChannelMode h connId msg target modes).faces := by
  rw [handleChannelMode, modeEvent, faces_event]
  generalize makeBufferId h connId target = bufferId at htold ⊢
  induction modes generalizing s with
  | nil => exact .nil _
  | cons m modes ih =>
    rw [List.foldl_cons, channelModeEvents]
    refine Web.TellsAll.append (s.tells_applyChannelMode h (htold m List.mem_cons_self)) (ih _ ?_)
    intro m' hm' nick hnick
    exact s.spelt_applyChannelMode h m (htold m' (List.mem_cons_of_mem _ hm') nick hnick)

theorem tells_handleAway {connId : Str} {msg : IrcMessage}
    (htold : ∀ nick, extractNick msg.sender = some nick →
      ∀ id ∈ s.buffersWith h connId nick, Spelt h s.faces id nick) (reason : Option Str) :
    TellsAll h.toLowercase s.faces (s.awayEvents h connId msg reason)
      (s.handleAway h connId msg reason).faces := by
  rw [awayEvents, handleAway]
  cases hnick : extractNick msg.sender with
  | none => exact .nil _
  | some nick =>
    simp only
    rw [s.faces_updateEntries h connId nick (g := fun n => { n with away := reason.isSome })
      (fun _ => rfl)]
    refine Web.tellsAll_paint
      (e := fun id => { aboutNick .awayChange nick id with away := some reason.isSome })
      (fun _ => rfl) (fun _ => show NickEventKind.awayChange ≠ .join by simp) (s.nodup_bufferIdsWhere _) ?_
    intro id hid f hf
    exact ⟨fun n hn => htold nick hnick id hid f n hf hn, rfl⟩

/-! ### Numerics -/

theorem faces_handleNames {connId channel names : Str}
    (htold : ∀ raw ∈ Text.splitWhitespace names, Known h s.faces (makeBufferId h connId channel)
      (parseNamesEntry (namesFormat s connId).1 (namesFormat s connId).2 raw).toWire) :
    (s.handleNames h connId channel names).faces = s.faces := by
  have hfold : ∀ (raws : List Str) (t : State), t.faces = s.faces →
      (∀ raw ∈ raws, Known h s.faces (makeBufferId h connId channel)
        (parseNamesEntry (namesFormat s connId).1 (namesFormat s connId).2 raw).toWire) →
      (raws.foldl (fun t raw => t.addNick h (makeBufferId h connId channel)
        (parseNamesEntry (namesFormat s connId).1 (namesFormat s connId).2 raw)) t).faces =
        s.faces := by
    intro raws
    induction raws with
    | nil => exact fun t ht _ => ht
    | cons raw raws ih =>
      intro t ht hknown
      refine ih _ ?_ (fun raw' hraw => hknown raw' (List.mem_cons_of_mem _ hraw))
      refine (t.faces_addNick_of_known h ?_).trans ht
      rw [ht]
      exact hknown raw List.mem_cons_self
  exact hfold _ s rfl htold

/-- An away state that is shown already. -/
theorem faces_handleWhoxReply {connId : Str} {args : List Str}
    (htold : ToldNumeric h s connId 354 args) :
    (s.handleWhoxReply h connId args).faces = s.faces := by
  unfold handleWhoxReply
  split
  next token channel user ip host nick flags account realname rest =>
    have hnoted : (s.modifyBuffer (makeBufferId h connId channel) (fun b =>
        b.updateEntry (h.toLowercase nick)
          (NickEntry.noteWhox user host flags account))).faces = s.faces := by
      refine (s.faces_modifyBuffer _ (g := fun f => f.set (h.toLowercase nick)
        (fun n => { n with away := Text.startsWith flags ['G'] }))
        (fun b => b.face_updateEntry _ (fun _ => rfl))).trans ?_
      apply Web.paint_eq_self
      intro id hid f hf
      rw [List.mem_singleton.mp hid] at hf
      apply Face.set_of_same
      intro n hn
      rw [← htold f n hf hn]
    exact s.faces_ite hnoted ((faces_showReplies h _ _ _ _).trans hnoted)
  next => rfl

theorem faces_handleIsupport {connId : Str} {tokens : List Str}
    (htold : ∀ id newId network, s.networkRename h connId tokens = some (id, newId, network) →
      s.hasBuffer id = true → newId = id) :
    (s.handleIsupport h connId tokens).faces = s.faces := by
  have hconn : ∀ f : Connection → Connection,
      (s.modifyConnection connId f).connection? connId = (s.connection? connId).map f := by
    intro f
    rw [connection?, modifyConnection, Dict.lookup_modify, if_pos rfl]
    rfl
  rw [networkRename] at htold
  rw [handleIsupport]
  simp only [hconn] at htold ⊢
  cases hc : s.connection? connId with
  | none => rfl
  | some c =>
    simp only [hc, Option.map_some, Option.bind_some] at htold ⊢
    cases hn : Isupport.network (tokens.foldl Isupport.parseToken c.isupport) with
    | none => rfl
    | some network =>
      simp only [hn, Option.bind_some] at htold ⊢
      rw [updateLabelFromNetwork, hconn, hc]
      simp only [Option.map_some]
      by_cases hdot : c.label.contains '.' = true
      · rw [if_neg (by rw [hdot]; decide)]
        rw [if_pos hdot] at htold
        refine (faces_rekeyBuffer _ ?_ network).trans (faces_of_buffers rfl)
        intro hexists
        exact htold _ _ _ rfl hexists
      · rw [if_pos (by simpa using hdot)]
        rfl

theorem handleResponse_of_joinFailure (connId : Str) {code : Nat} (hcode : code ∈ joinFailures)
    (args : List Str) (a : Arrival) :
    s.handleResponse h connId code args a = s.handleJoinFailure h connId args := by
  simp only [joinFailures, List.mem_cons, List.not_mem_nil, or_false] at hcode
  rcases hcode with rfl | rfl | rfl | rfl | rfl <;> rfl

theorem tells_handleJoinFailure (connId : Str) (args : List Str) :
    TellsAll h.toLowercase s.faces (s.joinFailureEvents h connId args)
      (s.handleJoinFailure h connId args).faces := by
  rw [joinFailureEvents, handleJoinFailure, failedChannel]
  generalize plainEvent (str "%Zff6b6bCannot join " ++ (args[1]?).getD ['?'] ++ str ": " ++
    (args[2]?).getD (str "Cannot join channel") ++ str "%N") = e
  have hsame := s.users_event h (s.serverBuffer h connId) e
    (makeBufferId h connId ((args[1]?).getD ['?'])) (fun users => users.rows.isEmpty)
  rw [hsame]
  by_cases hempty : (s.buffer? (makeBufferId h connId ((args[1]?).getD ['?']))).any
      (fun b => b.users.rows.isEmpty) = true
  · rw [if_pos hempty, if_pos hempty, faces_removeBuffer, faces_event]
    exact Web.tellsAll_singleton rfl
  · rw [if_neg hempty, if_neg hempty]
    exact s.tells_nothing h (s.faces_event h _ e)

theorem faces_handleResponse {connId : Str} {code : Nat} {args : List Str}
    (hcode : code ∉ joinFailures) (htold : ToldNumeric h s connId code args) (a : Arrival) :
    (s.handleResponse h connId code args a).faces = s.faces := by
  have hreplies : ∀ t : State, t.faces = s.faces →
      (t.showReplies h connId code args).faces = s.faces :=
    fun t ht => (t.faces_showReplies h connId code args).trans ht
  unfold handleResponse
  split
  · by_cases hargs : 2 ≤ args.length
    · rw [if_pos hargs]
      exact s.faces_handleIsupport h (htold hargs)
    · rw [if_neg hargs]
  · split
    next client channel topic rest =>
      rw [faces_setTopic]
      have hshown : (s.faces (makeBufferId h connId channel)).map
          (fun f => { f with topic := some topic }) = s.faces (makeBufferId h connId channel) := by
        cases hf : s.faces (makeBufferId h connId channel) with
        | none => rfl
        | some f => rw [Option.map_some, ← htold f hf]
      rw [hshown, Function.update_eq_self]
    next => rfl
  · split
    next => exact s.faces_handleNames h htold
    next => rfl
  iterate 5 exact absurd (by decide) hcode
  · exact faces_ite _ rfl (hreplies _ rfl)
  iterate 4 exact faces_ite _ rfl (hreplies _ rfl)
  iterate 3 exact faces_ite _ rfl (hreplies _ rfl)
  · exact s.faces_handleWhoxReply h htold
  · cases a.dispatched with
    | none => rfl
    | some lines => exact s.faces_showE2eLines h lines
  · exact hreplies _ rfl

/-! ### Steps -/

theorem tells_handlePrivmsg {connId ourNick : Str} {msg : IrcMessage} {target text : Str}
    {a : Arrival} {s' : State}
    (hstep : s.handlePrivmsg h connId ourNick msg target text a = some s') :
    TellsAll h.toLowercase s.faces (s.privmsgEvents h connId ourNick msg target text a)
      s'.faces := by
  rw [handlePrivmsg] at hstep
  rw [privmsgEvents]
  generalize extractNickUserhost msg.sender = sender at hstep ⊢
  obtain ⟨nick, ident, host⟩ := sender
  simp only at hstep ⊢
  by_cases hempty : a.decrypted = some []
  · rw [if_pos hempty] at hstep ⊢
    cases hstep
    exact .nil _
  · rw [if_neg hempty] at hstep ⊢
    generalize a.decrypted.getD text = body at hstep ⊢
    generalize s.ignored h nick ident host (chatLevel target body)
      (if isChannel target = true then some target else none) = ignored at hstep ⊢
    cases ignored with
    | true =>
      cases hstep
      exact .nil _
    | false =>
      rw [if_neg (by decide)]
      generalize hid : chatBuffer h connId ourNick nick target = bufferId at hstep ⊢
      have hnoted : ∀ t : State, ((t.notePeerHandle bufferId target (userhost ident host)
          (decide (nick = ourNick))).noteAccountTag h bufferId target nick
            (tagValue msg (str "account"))).faces = t.faces := by
        intro t
        have hpeer : (t.notePeerHandle bufferId target (userhost ident host)
            (decide (nick = ourNick))).faces = t.faces :=
          t.faces_ite (t.faces_modifyBuffer_of_same bufferId (fun _ _ => rfl)) rfl
        cases tagValue msg (str "account") with
        | none => exact hpeer
        | some account =>
          refine Eq.trans (faces_ite _ ?_ rfl) hpeer
          apply faces_modifyBuffer_of_same
          intro b _
          exact b.face_updateEntry_of_same _ (fun _ => rfl)
      have hshown : s'.faces = (s.openQuery h connId bufferId target nick (userhost ident host)
          (decide (nick = ourNick))).faces := by
        rw [if_neg (by decide)] at hstep
        by_cases hctcp : isCtcp body = true
        · rw [if_pos hctcp] at hstep
          obtain ⟨framed, -, rfl⟩ := Option.map_eq_some_iff.mp hstep
          cases actionText framed with
          | some action => exact (faces_showChat h _ _ _ _ _ _ _ _ _ _).trans (hnoted _)
          | none => exact (faces_handleCtcp h _ _ _ _).trans (hnoted _)
        · rw [if_neg hctcp] at hstep
          cases hstep
          exact (faces_handleText h _ _ _ _ _ _ _ _ _ _).trans (hnoted _)
      rw [hshown, openQuery]
      by_cases hopens : (!isChannel target && !s.hasBuffer bufferId) = true
      · rw [if_pos hopens, if_pos hopens]
        have hnew : s.hasBuffer bufferId = false := by
          have hpair := (Bool.and_eq_true _ _).mp hopens
          simpa using hpair.2
        exact s.tells_addBuffer h (b := { freshBuffer h connId .query nick with
          id := bufferId
          peerHandle := if decide (nick = ourNick) then none else some (userhost ident host) })
          hnew rfl
      · rw [if_neg hopens, if_neg hopens]
        exact .nil _

/-- A message that is told changes what its events say. -/
theorem tells_handleIrcMessage {connId : Str} {msg : IrcMessage} {a : Arrival} {s' : State}
    (hkeyed : ∀ key b, s.buffer? key = some b → KeyedByNick h b.users)
    (htold : ToldMessage h s connId msg)
    (hstep : s.handleIrcMessage h connId msg a = some s') :
    TellsAll h.toLowercase s.faces (s.webEvents h connId msg a) s'.faces := by
  rw [ToldMessage] at htold
  rw [handleIrcMessage] at hstep
  rw [webEvents]
  cases hcmd : msg.command with
  | privmsg target text =>
    simp only [hcmd] at hstep ⊢
    exact s.tells_handlePrivmsg h hstep
  | notice target text =>
    simp only [hcmd] at hstep ⊢
    cases hstep
    exact s.tells_nothing h (s.faces_handleNotice h connId _ msg target text a)
  | join channel account realname =>
    simp only [hcmd] at hstep htold ⊢
    cases hstep
    exact s.tells_handleJoin h htold account realname a.now
  | part channel reason =>
    simp only [hcmd] at hstep htold ⊢
    cases hstep
    exact s.tells_handlePart h htold reason
  | quit reason =>
    simp only [hcmd] at hstep htold ⊢
    cases hstep
    exact s.tells_handleQuit h htold reason a.now
  | nick newNick =>
    simp only [hcmd] at hstep htold ⊢
    cases hstep
    exact s.tells_handleNickChange h hkeyed htold a.now
  | kick channel kickedUser reason =>
    simp only [hcmd] at hstep htold ⊢
    cases hstep
    exact s.tells_handleKick h htold msg reason
  | topic channel topic =>
    simp only [hcmd] at hstep ⊢
    cases hstep
    exact s.tells_handleTopic h connId msg channel topic
  | channelMode target modes =>
    simp only [hcmd] at hstep htold ⊢
    cases hstep
    exact s.tells_handleChannelMode h htold msg
  | userMode target modes =>
    simp only [hcmd] at hstep ⊢
    cases hstep
    exact s.tells_nothing h (s.faces_event h _ _)
  | invite nick channel =>
    simp only [hcmd] at hstep ⊢
    cases hstep
    exact s.tells_nothing h (s.faces_handleInvite h connId _ msg nick channel)
  | wallops text =>
    simp only [hcmd] at hstep ⊢
    cases hstep
    exact s.tells_nothing h (s.faces_event h _ _)
  | account account =>
    simp only [hcmd] at hstep ⊢
    cases hstep
    exact s.tells_nothing h (s.faces_handleAccount h connId msg account)
  | away reason =>
    simp only [hcmd] at hstep htold ⊢
    cases hstep
    exact s.tells_handleAway h htold reason
  | chghost newUser newHost =>
    simp only [hcmd] at hstep ⊢
    cases hstep
    exact s.tells_nothing h (s.faces_handleChghost h connId msg newUser newHost)
  | error message =>
    simp only [hcmd] at hstep ⊢
    cases hstep
    exact s.tells_nothing h (s.faces_event h _ _)
  | numeric code args =>
    simp only [hcmd] at hstep htold ⊢
    cases hstep
    by_cases hcode : code ∈ joinFailures
    · rw [if_pos hcode, s.handleResponse_of_joinFailure h connId hcode]
      exact s.tells_handleJoinFailure h connId args
    · rw [if_neg hcode]
      exact s.tells_nothing h (s.faces_handleResponse h hcode htold a)
  | raw command args =>
    simp only [hcmd] at hstep ⊢
    cases hstep
    exact .nil _

/-! ### Batches and connections -/

theorem faces_postSummary (key title verb : Str) (batch : BatchInfo) (p : BatchProgress) :
    (postSummary h key title verb batch p).faces = p.1.faces :=
  faces_ite _ rfl (faces_eventIn h _ _ _)

theorem faces_processNetsplitBatch {connId : Str} {batch : BatchInfo}
    (htold : ∀ msg ∈ batch.messages, ∀ reason nick, msg.command = .quit reason →
      extractNick msg.sender = some nick → s.buffersWith h connId nick = []) :
    (s.processNetsplitBatch h connId batch).faces = s.faces := by
  have hfold : ∀ (msgs : List IrcMessage) (p : BatchProgress), p.1 = s →
      (∀ msg ∈ msgs, ∀ reason nick, msg.command = .quit reason →
        extractNick msg.sender = some nick → s.buffersWith h connId nick = []) →
      (msgs.foldl (splitQuit h connId) p).1 = s := by
    intro msgs
    induction msgs with
    | nil => exact fun p hp _ => hp
    | cons msg msgs ih =>
      intro p hp habsent
      refine ih _ ?_ (fun msg' hmsg => habsent msg' (List.mem_cons_of_mem _ hmsg))
      have hhere := habsent msg List.mem_cons_self
      rw [splitQuit]
      split
      next reason nick hcmd hnick =>
        have hnobody : p.1.buffersWith h connId nick = [] := hp ▸ hhere reason nick hcmd hnick
        simp only [hnobody]
        exact hp
      next => exact hp
  exact (faces_postSummary h _ _ _ batch _).trans
    (congrArg faces (hfold batch.messages (s, [], []) rfl htold))

theorem faces_processNetjoinBatch {connId : Str} {batch : BatchInfo}
    (htold : ∀ msg ∈ batch.messages, ∀ channel account realname,
      msg.command = .join channel account realname →
      Known h s.faces (makeBufferId h connId channel)
        (joinedEntry (senderNick msg) none).toWire) :
    (s.processNetjoinBatch h connId batch).faces = s.faces := by
  have hfold : ∀ (msgs : List IrcMessage) (p : BatchProgress), p.1.faces = s.faces →
      (∀ msg ∈ msgs, ∀ channel account realname, msg.command = .join channel account realname →
        Known h s.faces (makeBufferId h connId channel)
          (joinedEntry (senderNick msg) none).toWire) →
      (msgs.foldl (splitJoin h connId) p).1.faces = s.faces := by
    intro msgs
    induction msgs with
    | nil => exact fun p hp _ => hp
    | cons msg msgs ih =>
      intro p hp hknown
      refine ih _ ?_ (fun msg' hmsg => hknown msg' (List.mem_cons_of_mem _ hmsg))
      have hhere := hknown msg List.mem_cons_self
      rw [splitJoin]
      split
      next channel account realname hcmd =>
        refine (p.1.faces_addNick_of_known h ?_).trans hp
        rw [hp]
        exact hhere channel account realname hcmd
      next => exact hp
  exact (faces_postSummary h _ _ _ batch _).trans
    (hfold batch.messages (s, [], []) rfl htold)

theorem faces_handleDisconnected {connId : Str} {error : Option Str} {reconnect : Str}
    (htold : ∀ id b, s.buffer? id = some b → b.connectionId = connId →
      b.bufferType = .channel → b.users.rows = []) :
    (s.handleDisconnected h connId error reconnect).faces = s.faces := by
  refine (faces_event h _ _ _).trans ?_
  funext id
  rw [faces, faces, buffer?_modifyBuffersOf]
  cases hb : s.buffer? id with
  | none => rfl
  | some b =>
    rw [Option.map_some, Option.map_some, Option.map_some]
    congr 1
    split_ifs with hconn hkind
    · have husers : b.users = Table.empty := Table.ext (htold id b hb hconn hkind)
      rw [Buffer.face, Buffer.face, husers]
    · rfl
    · rfl

theorem tells_createMentionsBuffer (loaded : List Message) :
    TellsAll h.toLowercase s.faces (opEvents h s (.createMentionsBuffer loaded))
      (s.createMentionsBuffer h loaded).faces := by
  rw [opEvents, createMentionsBuffer]
  by_cases hexists : s.hasBuffer mentionsId = true
  · rw [if_pos hexists, if_pos hexists]
    exact .nil _
  · rw [if_neg hexists, if_neg hexists]
    exact s.tells_addBuffer h (b := { freshBuffer h [] .mentions (str "Mentions") with
      id := mentionsId, messages := loaded }) (Bool.eq_false_iff.mpr hexists) rfl

end State

/-! ### Where the buffers are -/

/-- Every buffer is stored under its id, and its users under their nicks. -/
def Keyed (s : State) : Prop :=
  ∀ key b, s.buffer? key = some b → b.id = key ∧ KeyedByNick h b.users

variable {h} {s s' : State}

theorem Keyed.of_buffers (hs : Keyed h s) (hbuffers : s'.buffers = s.buffers) : Keyed h s' := by
  intro key b hb
  rw [State.buffer?, hbuffers] at hb
  exact hs key b hb

theorem Keyed.quiet (hs : Keyed h s) (hquiet : Quiet h s s') : Keyed h s' := by
  intro key b hb
  obtain ⟨b₀, hb₀, hcontinues⟩ := hquiet.buffer_of_some' hb
  obtain ⟨hid, husers⟩ := hs key b₀ hb₀
  exact ⟨hcontinues.id.trans hid, hcontinues.users husers⟩

theorem Keyed.addBuffer (hs : Keyed h s) {b : Buffer} (husers : b.users = Table.empty) :
    Keyed h (s.addBuffer b) := by
  intro key b' hb'
  rw [State.buffer?_addBuffer] at hb'
  split_ifs at hb' with hkey
  · obtain rfl := Option.some.inj hb'
    exact ⟨hkey, husers ▸ keyedByNick_empty h⟩
  · exact hs key b' hb'

theorem Keyed.removeBuffer (hs : Keyed h s) (id : Str) : Keyed h (s.removeBuffer h id) := by
  intro key b hb
  rw [State.buffer?_removeBuffer] at hb
  split_ifs at hb
  exact hs key b hb

theorem Keyed.openChannel (hs : Keyed h s) (connId channel : Str) :
    Keyed h (s.openChannel h connId channel) := by
  intro key b hb
  rw [State.buffer?_openChannel] at hb
  split_ifs at hb with hkey
  · obtain rfl := Option.some.inj hb
    cases hold : s.buffer? key with
    | none => exact ⟨hkey, keyedByNick_empty h⟩
    | some b => exact ⟨(hs key b hold).1, keyedByNick_empty h⟩
  · exact hs key b hb

theorem Keyed.rekeyBuffer (hs : Keyed h s) (id newId newName : Str) :
    Keyed h (s.rekeyBuffer id newId newName) := by
  cases hold : s.buffer? id with
  | none =>
    rw [s.rekeyBuffer_of_none hold]
    exact hs
  | some b =>
    intro key b' hb'
    rw [s.buffer?_rekeyBuffer hold] at hb'
    split_ifs at hb' with hnew hkey
    · obtain rfl := Option.some.inj hb'
      exact ⟨hnew, (hs id b hold).2⟩
    · exact hs key b' hb'

theorem Keyed.renameQueryBuffers (hs : Keyed h s) (connId newNick : Str) (affected : List Str) :
    Keyed h (s.renameQueryBuffers h connId newNick affected) := by
  rw [State.renameQueryBuffers]
  induction affected generalizing s with
  | nil => exact hs
  | cons id affected ih =>
    rw [List.foldl_cons]
    apply ih
    rw [State.renameQuery]
    split_ifs
    · exact hs.rekeyBuffer id _ newNick
    · exact hs

theorem Keyed.change (hs : Keyed h s) {s₀ : State} {connId : Str} {msg : IrcMessage} {c : Change}
    (hcause : Causes h s₀ connId msg c) : Keyed h (s.change h c) := by
  cases hcause with
  | nothing => exact hs
  | privmsg _ _ _ => exact hs.addBuffer rfl
  | join _ _ => exact hs.openChannel _ _
  | part _ _ => exact hs.removeBuffer _
  | kick _ _ => exact hs.removeBuffer _
  | failure _ _ _ => exact hs.removeBuffer _
  | nick _ => exact hs.renameQueryBuffers _ _ _
  | network _ _ _ => exact hs.rekeyBuffer _ _ _

theorem Keyed.setActive (hs : Keyed h s) (id : Option Str) :
    Keyed h ((id.map s.setActiveBuffer).getD s) := by
  cases id with
  | none => exact hs
  | some id => exact hs.of_buffers (s.buffers_setActiveBuffer id)

theorem keyed_step {op : Op} (hs : Keyed h s) (hstep : step h s op = some s') : Keyed h s' := by
  cases op with
  | irc connId msg hidden a =>
    obtain ⟨c, s₁, hcause, hbefore, hafter⟩ := dispatch_cases h hstep
    exact ((hs.quiet hbefore).change hcause).quiet hafter
  | connect connId c =>
    cases hstep
    exact hs.of_buffers rfl
  | addBuffer connId bufferType name =>
    cases hstep
    exact hs.addBuffer rfl
  | createMentionsBuffer loaded =>
    cases hstep
    rw [State.createMentionsBuffer]
    split_ifs
    · exact hs
    · exact hs.addBuffer rfl
  | removeBuffer id =>
    cases hstep
    exact hs.removeBuffer id
  | setActive id =>
    cases hstep
    exact hs.of_buffers (s.buffers_setActiveBuffer id)
  | nextBuffer =>
    cases hstep
    exact hs.setActive _
  | prevBuffer =>
    cases hstep
    exact hs.setActive _
  | netsplitBatch connId batch =>
    cases hstep
    exact hs.quiet (s.quiet_processNetsplitBatch h connId batch)
  | netjoinBatch connId batch =>
    cases hstep
    exact hs.quiet (s.quiet_processNetjoinBatch h connId batch)
  | connected connId =>
    cases hstep
    exact hs.quiet (s.quiet_handleConnected h connId)
  | disconnected connId error reconnect =>
    cases hstep
    exact hs.quiet (s.quiet_handleDisconnected h connId error reconnect)
  | deliver bufferId m =>
    cases hstep
    exact hs.quiet (s.quiet_addMessageUnshrunk h bufferId m)
  | tick now =>
    cases hstep
    exact hs.quiet (s.quiet_netsplitTick h now)

theorem keyed_run {ops : List Op} (hs : Keyed h s) (hrun : run h s ops = some s') :
    Keyed h s' := by
  induction ops generalizing s with
  | nil =>
    cases hrun
    exact hs
  | cons op ops ih =>
    obtain ⟨s₁, hs₁, hrun⟩ := Option.bind_eq_some_iff.mp hrun
    exact ih (keyed_step hs hs₁) hrun

/-! ### Sessions -/

/-- What a script hides does not matter. -/
theorem ToldMessage.hidden {connId : Str} {msg : IrcMessage} (htold : ToldMessage h s connId msg)
    (hidden : Bool) : ToldMessage h { s with suppressEventDisplay := hidden } connId msg := by
  rw [ToldMessage] at htold ⊢
  cases hcmd : msg.command with
  | nick newNick =>
    rw [hcmd] at htold
    exact ⟨htold.queries, htold.ignored, htold.spelt, htold.free⟩
  | _ =>
    rw [hcmd] at htold
    exact htold

/-- **Step**: a step that is told changes what its events say. -/
theorem tells_step {op : Op} (hkeyed : Keyed h s) (htold : Told h s op)
    (hstep : step h s op = some s') :
    TellsAll h.toLowercase s.faces (opEvents h s op) s'.faces := by
  cases op with
  | irc connId msg hidden a =>
    obtain ⟨s₁, hhandled, rfl⟩ := Option.map_eq_some_iff.mp hstep
    have htells := State.tells_handleIrcMessage h { s with suppressEventDisplay := hidden }
      (fun key b hb => (hkeyed key b hb).2) (ToldMessage.hidden htold hidden) hhandled
    exact htells
  | connect connId c =>
    cases hstep
    exact s.tells_nothing h rfl
  | addBuffer connId bufferType name =>
    cases hstep
    exact s.tells_addBuffer h (b := freshBuffer h connId bufferType name) htold rfl
  | createMentionsBuffer loaded =>
    cases hstep
    exact s.tells_createMentionsBuffer h loaded
  | removeBuffer id =>
    cases hstep
    exact s.tells_removeBuffer h id
  | setActive id =>
    cases hstep
    exact s.tells_nothing h (s.faces_setActiveBuffer id)
  | nextBuffer =>
    cases hstep
    exact s.tells_nothing h (s.faces_goTo _)
  | prevBuffer =>
    cases hstep
    exact s.tells_nothing h (s.faces_goTo _)
  | netsplitBatch connId batch =>
    cases hstep
    exact s.tells_nothing h (s.faces_processNetsplitBatch h htold)
  | netjoinBatch connId batch =>
    cases hstep
    exact s.tells_nothing h (s.faces_processNetjoinBatch h htold)
  | connected connId =>
    cases hstep
    exact s.tells_nothing h (State.faces_event h _ _ _)
  | disconnected connId error reconnect =>
    cases hstep
    exact s.tells_nothing h (s.faces_handleDisconnected h htold)
  | deliver bufferId m =>
    cases hstep
    exact s.tells_nothing h (s.faces_addMessageUnshrunk h bufferId m)
  | tick now =>
    cases hstep
    exact s.tells_nothing h (State.faces_foldl_of_same _ (fun t m => t.faces_eventIn h _ _) _)

/-- The events of a session whose steps are told say what it has changed. -/
theorem tells_run {ops : List Op} (hkeyed : Keyed h s) (htold : Meets h (Told h) s ops)
    (hrun : run h s ops = some s') :
    TellsAll h.toLowercase s.faces (emitted h s ops) s'.faces := by
  induction ops generalizing s with
  | nil =>
    cases hrun
    exact .nil _
  | cons op ops ih =>
    obtain ⟨s₁, hs₁, hrun⟩ := Option.bind_eq_some_iff.mp hrun
    rw [emitted, hs₁]
    exact (tells_step hkeyed htold.1 hs₁).append
      (ih (keyed_step hkeyed hs₁) (htold.2 s₁ hs₁) hrun)

/-! ### The snapshot -/

/-- The nick list of a buffer shows its users. -/
theorem lists_nickList {b : Buffer} (hb : KeyedByNick h b.users) :
    Web.Lists h.toLowercase b.face.nicks b.nickList := by
  have hkey : ∀ e ∈ b.users.rows, h.toLowercase e.2.toWire.nick = e.1 := by
    intro e he
    exact (hb e.1 e.2 (Dict.mem_rows_iff_lookup.mp he)).symm
  constructor
  · rw [Buffer.nickList, Dict.values, List.map_map, List.pairwise_map]
    have hnodup := List.pairwise_map.mp b.users.nodup
    apply hnodup.imp_of_mem
    intro e e' he he' hne
    rw [Function.comp_apply, Function.comp_apply, hkey e he, hkey e' he']
    exact hne
  · intro n
    rw [Buffer.nickList, Dict.values, List.map_map, List.mem_map]
    show _ ↔ (b.users.lookup (h.toLowercase n.nick)).map NickEntry.toWire = some n
    rw [Option.map_eq_some_iff]
    constructor
    · rintro ⟨e, he, rfl⟩
      rw [Function.comp_apply, hkey e he]
      exact ⟨e.2, Dict.mem_rows_iff_lookup.mp he, rfl⟩
    · rintro ⟨entry, hentry, rfl⟩
      exact ⟨_, Dict.mem_rows_iff_lookup.mpr hentry, rfl⟩

section Snapshot

variable {nickLe : WireNick → WireNick → Bool} {bufferLe : BufferMeta → BufferMeta → Bool}

/-- Fetching nick lists leaves the list of buffers as it is. -/
theorem buffers_fetch (rows : List (Str × Buffer)) (c : Web.Client) :
    ((rows.map (fun e => BufferEvent.nickList e.1 e.2.nickList)).foldl
      (Web.Client.handleEvent nickLe bufferLe) c).buffers = c.buffers := by
  induction rows generalizing c with
  | nil => rfl
  | cons e rows ih => exact ih _

theorem nicks_nickList (c : Web.Client) (bufferId : Str) (nicks : List WireNick) (id : Str) :
    (Web.Client.handleEvent nickLe bufferLe c (.nickList bufferId nicks)).nicks id =
      if bufferId = id then Web.sortNicks nickLe nicks else c.nicks id := by
  rw [Web.Client.nicks, Web.Client.handleEvent, Dict.lookup_insert]
  split_ifs <;> rfl

/-- A buffer whose nick list is not fetched keeps the one it has. -/
theorem nicks_fetch_of_not_mem (rows : List (Str × Buffer)) (c : Web.Client) {id : Str}
    (hid : id ∉ rows.map Prod.fst) :
    ((rows.map (fun e => BufferEvent.nickList e.1 e.2.nickList)).foldl
      (Web.Client.handleEvent nickLe bufferLe) c).nicks id = c.nicks id := by
  induction rows generalizing c with
  | nil => rfl
  | cons e rows ih =>
    rw [List.map_cons, List.mem_cons, not_or] at hid
    rw [List.map_cons, List.foldl_cons, ih _ hid.2, nicks_nickList, if_neg (Ne.symm hid.1)]

/-- A nick list that is fetched is shown. -/
theorem nicks_fetch {rows : List (Str × Buffer)} (hnodup : (rows.map Prod.fst).Nodup)
    (c : Web.Client) {id : Str} {b : Buffer} (hb : (id, b) ∈ rows) :
    ((rows.map (fun e => BufferEvent.nickList e.1 e.2.nickList)).foldl
      (Web.Client.handleEvent nickLe bufferLe) c).nicks id =
        Web.sortNicks nickLe b.nickList := by
  induction rows generalizing c with
  | nil => cases hb
  | cons e rows ih =>
    rw [List.map_cons, List.nodup_cons] at hnodup
    rw [List.map_cons, List.foldl_cons]
    rcases List.mem_cons.mp hb with rfl | hrest
    · rw [nicks_fetch_of_not_mem rows _ hnodup.1, nicks_nickList, if_pos rfl]
    · exact ih hnodup.2 _ hrest

theorem Keyed.metas (hs : Keyed h s) :
    s.buffers.values.map (fun b => b.toMeta.id) = s.buffers.rows.map Prod.fst := by
  rw [Dict.values, List.map_map]
  apply List.map_congr_left
  intro e he
  exact (hs e.1 e.2 (Dict.mem_rows_iff_lookup.mp he)).1

/-- The snapshot lists the buffers of the store, each once. -/
theorem Keyed.buildSyncInit (hs : Keyed h s) :
    Web.EachOnce (s.buildSyncInit h) ∧
      Web.viewOf (s.buildSyncInit h) = Web.faceView s.faces := by
  have honce : Web.EachOnce (s.buffers.values.map Buffer.toMeta) := by
    rw [Web.EachOnce, List.map_map]
    have hmetas := hs.metas
    exact hmetas ▸ s.buffers.nodup
  have hperm : (s.buffers.values.map Buffer.toMeta).Perm (s.buildSyncInit h) :=
    ((List.perm_insertionSort _ s.buffers.values).symm).map Buffer.toMeta
  obtain ⟨honce', hview⟩ := Web.viewOf_perm hperm honce
  refine ⟨honce', hview.trans ?_⟩
  funext id
  rw [Web.viewOf_eq_get? honce, Web.faceView, State.faces]
  cases hb : s.buffer? id with
  | none =>
    have hnone : (⟨s.buffers.values.map Buffer.toMeta, honce⟩ :
        Table BufferMeta BufferMeta.id).get? id = none := by
      rw [Table.get?_eq_none_iff]
      intro m hm hid
      obtain ⟨b, hb', rfl⟩ := List.mem_map.mp hm
      obtain ⟨⟨key, b'⟩, he, rfl⟩ := List.mem_map.mp hb'
      have hlookup := Dict.mem_rows_iff_lookup.mp he
      obtain rfl : key = id := (hs key b' hlookup).1.symm.trans hid
      exact Option.some_ne_none b' (hlookup.symm.trans hb)
    rw [hnone]
    rfl
  | some b =>
    have hsome : (⟨s.buffers.values.map Buffer.toMeta, honce⟩ :
        Table BufferMeta BufferMeta.id).get? id = some b.toMeta := by
      rw [Table.get?_eq_some_iff]
      refine ⟨List.mem_map_of_mem (List.mem_map_of_mem (Dict.mem_rows_iff_lookup.mpr hb)), ?_⟩
      exact (hs id b hb).1
    rw [hsome]
    rfl

/-- **A client that connects** shows what there is to show, whatever it has shown before. -/
theorem mirrors_snapshot (hs : Keyed h s) (c : Web.Client) :
    Web.Mirrors h.toLowercase s.faces
      ((s.snapshot h).foldl (Web.Client.handleEvent nickLe bufferLe) c) := by
  obtain ⟨honce, hview⟩ := hs.buildSyncInit
  obtain ⟨honce', hview'⟩ := Web.viewOf_perm
    (Web.sortBuffers_perm bufferLe (s.buildSyncInit h)).symm honce
  rw [State.snapshot, List.foldl_cons]
  refine ⟨?_, ?_, ?_⟩
  · rw [buffers_fetch]
    exact honce'
  · rw [buffers_fetch]
    exact hview'.trans hview
  · intro id
    cases hb : s.buffer? id with
    | none =>
      have hnot : id ∉ s.buffers.rows.map Prod.fst := by
        rw [Dict.mem_keys_iff]
        exact fun hsome => Option.isSome_iff_ne_none.mp hsome hb
      have hnone : Web.nicksIn s.faces id = fun _ => none := by
        funext key
        rw [Web.nicksIn, State.faces, hb]
        rfl
      rw [nicks_fetch_of_not_mem _ _ hnot, hnone]
      exact Web.lists_nil
    | some b =>
      have hsome : Web.nicksIn s.faces id = b.face.nicks := by
        funext key
        rw [Web.nicksIn, State.faces, hb]
        rfl
      rw [nicks_fetch s.buffers.nodup _ (Dict.mem_rows_iff_lookup.mpr hb), hsome]
      exact (lists_nickList (hs id b hb).2).sort

end Snapshot

theorem keyed_init (floodProtection : Bool) (floodExemptions : List Str)
    (ignores : List IgnoreEntry) (limit : Nat) :
    Keyed h (State.init floodProtection floodExemptions ignores limit) := by
  intro key b hb
  cases hb

/-- **Clients agree**: a client that connects after some steps of a session and is told all that
the following steps change shows the same buffers with the same topics, numbers of nicks and nick
lists as a client that connects at the end. -/
theorem replica_run {floodProtection : Bool} {floodExemptions : List Str}
    {ignores : List IgnoreEntry} {limit : Nat} {before ops : List Op} {s₀ s : State}
    (hreached : run h (State.init floodProtection floodExemptions ignores limit) before = some s₀)
    (htold : Meets h (Told h) s₀ ops) (hrun : run h s₀ ops = some s)
    (nickLe : WireNick → WireNick → Bool) (bufferLe : BufferMeta → BufferMeta → Bool)
    (c c' : Web.Client) :
    Web.SameShown
      ((s₀.snapshot h ++ emitted h s₀ ops).foldl (Web.Client.handleEvent nickLe bufferLe) c)
      ((s.snapshot h).foldl (Web.Client.handleEvent nickLe bufferLe) c') := by
  have hkeyed : Keyed h s₀ := keyed_run (keyed_init _ _ _ _) hreached
  have htells := tells_run hkeyed htold hrun
  rw [List.foldl_append]
  apply Web.Mirrors.agree
  · exact Web.mirrors_foldl (mirrors_snapshot hkeyed c) htells
  · exact mirrors_snapshot (keyed_run hkeyed hrun) c'

/-- We join a channel, and bob joins it. -/
def joinedByBob : List Op :=
  [sampleConnect (str "net"), sampleIrc (str "net") (str "me") (.join (str "#c") none none),
    sampleIrc (str "net") (str "bob") (.join (str "#c") none none)]

/-- Bob is kicked. -/
def bobKicked : List Op := [sampleIrc (str "net") (str "me") (.kick (str "#c") (str "bob") none)]

/-- Bob sets a topic and talks to us, and the channel is closed. -/
def bobTalks : List Op :=
  [sampleIrc (str "net") (str "bob") (.topic (str "#c") (some (str "news"))),
    sampleIrc (str "net") (str "bob") (.privmsg (str "me") (str "bye")),
    .removeBuffer (str "net/#c")]

/-- A client that has shown nothing is shown a snapshot and then some events. -/
def shown (s : State) (es : List BufferEvent) : Web.Client :=
  (s.snapshot sampleHost ++ es).foldl
    (Web.Client.handleEvent (fun _ _ => true) (fun _ _ => true)) ⟨[], Table.empty⟩

/-- A client follows what bob says. -/
theorem replica_run_bobTalks : ∃ s₀ s, run sampleHost sampleStart joinedByBob = some s₀ ∧
    run sampleHost s₀ bobTalks = some s ∧
    Web.SameShown (shown s₀ (emitted sampleHost s₀ bobTalks)) (shown s []) := by
  have hruns : (run sampleHost sampleStart joinedByBob).any (fun s₀ =>
      (run sampleHost s₀ bobTalks).isSome) = true := by decide
  obtain ⟨s₀, hs₀, hruns⟩ := (Option.any_eq_true _ _).mp hruns
  obtain ⟨s, hs⟩ := Option.isSome_iff_exists.mp hruns
  have htold : Meets sampleHost (Told sampleHost) s₀ bobTalks :=
    ⟨trivial, fun _ _ => ⟨trivial, fun _ _ => ⟨trivial, fun _ _ => trivial⟩⟩⟩
  refine ⟨s₀, s, hs₀, hs, ?_⟩
  have hsame := replica_run hs₀ htold hs (fun _ _ => true) (fun _ _ => true)
    ⟨[], Table.empty⟩ ⟨[], Table.empty⟩
  rw [shown, shown, List.append_nil]
  exact hsame

/-- A client that has seen bob join still lists him after he has been kicked. -/
theorem kick_is_not_told : ∃ s₀ s, run sampleHost sampleStart joinedByBob = some s₀ ∧
    run sampleHost s₀ bobKicked = some s ∧
    ¬ Web.SameShown (shown s₀ (emitted sampleHost s₀ bobKicked)) (shown s []) := by
  have hdiffers : (run sampleHost sampleStart joinedByBob).any (fun s₀ =>
      (run sampleHost s₀ bobKicked).any (fun s => decide
        (Web.viewOf (shown s₀ (emitted sampleHost s₀ bobKicked)).buffers (str "net/#c") ≠
          Web.viewOf (shown s []).buffers (str "net/#c")))) = true := by decide
  obtain ⟨s₀, hs₀, hdiffers⟩ := (Option.any_eq_true _ _).mp hdiffers
  obtain ⟨s, hs, hne⟩ := (Option.any_eq_true _ _).mp hdiffers
  refine ⟨s₀, s, hs₀, hs, ?_⟩
  intro hsame
  exact of_decide_eq_true hne (congrFun hsame.buffers (str "net/#c"))

end Store

end Repartee
