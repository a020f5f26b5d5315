import Repartee.State.Changes

/-!
# Histories

A message loses a history where it stores a buffer over another one, and where it closes a buffer.
A nick change stores each query that it renames over the buffer of the new name, so that only the
last one remains; the name of a network may do the same to one buffer; and a channel that cannot
be joined is closed if it has no users, also when it has a history of an earlier session.

## Main definitions

- `State.endangered`: the buffers that a message stores another one over or closes
- `KeepsHistory`: every history goes on in some buffer, unless we have left the channel

## Main results

- `history_survives`: in every session, a message keeps the histories if no chat is in danger
-/

set_option autoImplicit false

namespace Repartee

namespace Store

def Message.isChat (m : Message) : Bool :=
  match m.messageType with
  | .message | .action | .notice => true
  | .event | .mentionLog => false

def Buffer.hasChat (b : Buffer) : Bool := b.messages.any Message.isChat

variable (h : Host)

namespace State

variable (s : State)

/-- Whether a chat message is stored in a buffer. -/
def hasChat (id : Str) : Bool := (s.buffer? id).any Buffer.hasChat

def isQuery (id : Str) : Bool := (s.buffer? id).any (fun b => decide (b.bufferType = .query))

/-- The queries among some buffers that are not stored under a new id already. -/
def movedQueries (newId : Str) (affected : List Str) : List Str :=
  affected.filter (fun id => decide (id ≠ newId) && s.isQuery id)

/-- The buffers that the renaming of some queries stores another one over. -/
def overwritten (newId : Str) (affected : List Str) : List Str :=
  if s.movedQueries newId affected = [] then []
  else newId :: (s.movedQueries newId affected).dropLast

/-- The buffers that a message stores another one over, or closes although we have not left. -/
def endangered (connId : Str) (msg : IrcMessage) : List Str :=
  match msg.command with
  | .nick newNick =>
    s.overwritten (makeBufferId h connId newNick)
      (s.buffersOfNick h connId ((extractNick msg.sender).getD []))
  | .numeric code args =>
    if code = 5 then
      match s.networkRename h connId args.tail.dropLast with
      | some (id, newId, _) =>
        if decide (2 ≤ args.length) && decide (id ≠ newId) && s.hasBuffer id then [newId] else []
      | none => []
    else if code ∈ joinFailures then
      let id := makeBufferId h connId (failedChannel args)
      if (s.buffer? id).any (fun b => b.users.rows.isEmpty) then [id] else []
    else []
  | _ => []

end State

/-- No chat message is stored in a buffer that the message endangers. -/
def Spares (s : State) (connId : Str) (msg : IrcMessage) : Prop :=
  ∀ id ∈ s.endangered h connId msg, s.hasChat id = false

/-- A buffer of a channel that we leave, by ourselves or kicked. -/
def Leaves (s : State) (connId : Str) (msg : IrcMessage) (key : Str) : Prop :=
  (∃ channel reason, msg.command = .part channel reason ∧
      senderNick msg = s.ourNick connId ∧ key = makeBufferId h connId channel) ∨
    (∃ channel reason, msg.command = .kick channel (s.ourNick connId) reason ∧
      key = makeBufferId h connId channel)

/-- Every buffer with chat messages goes on in some buffer, unless we leave it. -/
def KeepsHistory (s : State) (connId : Str) (msg : IrcMessage) (s' : State) : Prop :=
  ∀ key b, s.buffer? key = some b → b.hasChat = true →
    Leaves h s connId msg key ∨
      ∃ key' b', s'.buffer? key' = some b' ∧
        HistoryKept s.scrollbackLimit key b.messages b'.messages

theorem makeBufferId_ne_mentionsId (connId name : Str) :
    makeBufferId h connId name ≠ mentionsId := by
  intro heq
  have hmem : '/' ∈ makeBufferId h connId name := by simp [makeBufferId]
  rw [heq] at hmem
  exact absurd hmem (by decide)

/-- Only the mentions buffer has a limit on its own. -/
theorem HistoryKept.of_ne_mentions {limit : Nat} {key key' : Str} {old new : List Message}
    (hkept : HistoryKept limit key old new) (hne : key ≠ mentionsId) :
    HistoryKept limit key' old new := by
  obtain ⟨added, k, heq, hfull⟩ := hkept
  refine ⟨added, k, heq, fun hk => ?_⟩
  rcases hfull hk with hlimit | ⟨hkey, -⟩
  · exact .inl hlimit
  · exact absurd hkey hne

namespace State

variable (s : State)

/-! ### Renaming queries -/

theorem buffer?_renameQuery_of_not {connId newNick id : Str} (hnot : s.isQuery id = false) :
    s.renameQuery h connId newNick id = s := by
  rw [renameQuery, if_neg]
  rw [isQuery] at hnot
  rw [hnot]
  decide

/-- Queries elsewhere stay queries while a query is moved. -/
theorem isQuery_renameQuery {connId newNick id id' : Str} (hne : id' ≠ id)
    (hnew : id' ≠ makeBufferId h connId newNick) :
    (s.renameQuery h connId newNick id).isQuery id' = s.isQuery id' := by
  rw [renameQuery]
  split_ifs with hquery
  · obtain ⟨b, hb⟩ : ∃ b, s.buffer? id = some b := by
      cases hb : s.buffer? id with
      | none => simp [hb] at hquery
      | some b => exact ⟨b, rfl⟩
    rw [isQuery, s.buffer?_rekeyBuffer hb, if_neg hnew.symm, if_neg hne.symm]
    rfl
  · rfl

/-- A query is renamed by storing it under the new id. -/
theorem renameQuery_of_query (connId newNick : Str) {id : Str} (hquery : s.isQuery id = true) :
    ∃ b, s.buffer? id = some b ∧ s.renameQuery h connId newNick id =
      s.rekeyBuffer id (makeBufferId h connId newNick) newNick := by
  cases hb : s.buffer? id with
  | none => simp [isQuery, hb] at hquery
  | some b => exact ⟨b, rfl, by rw [renameQuery]; exact if_pos hquery⟩

/-- A history survives the renaming of queries unless it is stored over: a buffer keeps its place
or moves to the new id. -/
theorem renameQueryBuffers_keeps {connId newNick : Str} {affected : List Str}
    (hnodup : affected.Nodup) {key : Str} {b : Buffer} (hb : s.buffer? key = some b)
    (hsafe : key ∉ s.overwritten (makeBufferId h connId newNick) affected) :
    ∃ key' b', (s.renameQueryBuffers h connId newNick affected).buffer? key' = some b' ∧
      b'.messages = b.messages ∧ (key' = key ∨ key' = makeBufferId h connId newNick) := by
  rw [renameQueryBuffers]
  generalize hN : makeBufferId h connId newNick = newId at hsafe ⊢
  induction affected generalizing s key b with
  | nil => exact ⟨key, b, hb, rfl, .inl rfl⟩
  | cons id affected ih =>
    obtain ⟨hid, hnodup⟩ := List.nodup_cons.mp hnodup
    rw [List.foldl_cons]
    -- the queries behind `id` are the same before and after its renaming
    have hrest : (s.renameQuery h connId newNick id).movedQueries newId affected =
        s.movedQueries newId affected := by
      refine List.filter_congr (fun id' hid' => ?_)
      by_cases hnew : id' = newId
      · simp [hnew]
      · have hne : id' ≠ id := fun heq => hid (heq ▸ hid')
        rw [s.isQuery_renameQuery h hne (hN.symm ▸ hnew)]
    have hover : (s.renameQuery h connId newNick id).overwritten newId affected =
        s.overwritten newId affected := by
      rw [overwritten, overwritten, hrest]
    by_cases hquery : s.isQuery id = true
    · obtain ⟨b₀, hb₀, hrename⟩ := s.renameQuery_of_query h connId newNick hquery
      have hlookup := s.buffer?_rekeyBuffer hb₀ newId newNick
      rw [hN] at hrename
      rw [← hrename] at hlookup
      by_cases hnew : id = newId
      · have hsame : s.overwritten newId (id :: affected) = s.overwritten newId affected := by
          simp [overwritten, movedQueries, hnew]
        by_cases hkey : newId = key
        · rw [hnew, hkey, hb, Option.some.injEq] at hb₀
          obtain ⟨key', b', hb', hmessages, hplace⟩ := ih _ hnodup
            ((hlookup key).trans (if_pos hkey)) (by rw [hover, ← hsame]; exact hsafe)
          exact ⟨key', b', hb', hmessages.trans (by rw [hb₀]), hplace⟩
        · exact ih _ hnodup ((hlookup key).trans
            ((if_neg hkey).trans ((if_neg (hnew ▸ hkey)).trans hb)))
            (by rw [hover, ← hsame]; exact hsafe)
      · have hmoved : s.movedQueries newId (id :: affected) =
            id :: s.movedQueries newId affected := by
          rw [movedQueries, List.filter_cons_of_pos (by simp [hnew, hquery])]
          rfl
        rw [overwritten, hmoved, if_neg (List.cons_ne_nil _ _), List.mem_cons, not_or] at hsafe
        obtain ⟨hne, hsafe⟩ := hsafe
        by_cases hlast : s.movedQueries newId affected = []
        · -- `id` is the last query to be moved, so that nothing is stored over it
          have hnone : ∀ key,
              key ∉ (s.renameQuery h connId newNick id).overwritten newId affected := by
            intro key
            rw [hover, overwritten, if_pos hlast]
            exact List.not_mem_nil
          by_cases hkey : id = key
          · rw [hkey, hb, Option.some.injEq] at hb₀
            obtain ⟨key', b', hb', hmessages, hplace⟩ := ih _ hnodup
              ((hlookup newId).trans (if_pos rfl)) (hnone newId)
            exact ⟨key', b', hb', hmessages.trans (by rw [hb₀]), .inr (or_self_iff.mp hplace)⟩
          · exact ih _ hnodup ((hlookup key).trans
              ((if_neg (Ne.symm hne)).trans ((if_neg hkey).trans hb))) (hnone key)
        · rw [List.dropLast_cons_of_ne_nil hlast, List.mem_cons, not_or] at hsafe
          refine ih _ hnodup ((hlookup key).trans
            ((if_neg (Ne.symm hne)).trans ((if_neg (Ne.symm hsafe.1)).trans hb))) ?_
          rw [hover, overwritten, if_neg hlast, List.mem_cons, not_or]
          exact ⟨hne, hsafe.2⟩
    · rw [Bool.not_eq_true] at hquery
      have hsame : s.overwritten newId (id :: affected) = s.overwritten newId affected := by
        simp [overwritten, movedQueries, hquery]
      rw [hsame] at hsafe
      rw [s.buffer?_renameQuery_of_not h hquery]
      exact ih _ hnodup hb hsafe

end State

/-! ### Every message -/

variable {h}

theorem Quiet.isQuery {s s' : State} (hq : Quiet h s s') (id : Str) :
    s'.isQuery id = s.isQuery id := by
  rw [State.isQuery, State.isQuery]
  cases hb : s.buffer? id with
  | none =>
    have hmissing := hq.hasBuffer id
    rw [State.hasBuffer, State.hasBuffer, hb] at hmissing
    rw [Option.isSome_eq_false_iff.mp hmissing |> Option.isNone_iff_eq_none.mp]
  | some b =>
    obtain ⟨b', hb', hc⟩ := hq.buffer_of_some hb
    rw [hb', Option.any_some, Option.any_some, hc.bufferType]

theorem Quiet.overwritten {s s' : State} (hq : Quiet h s s') (newId : Str) (affected : List Str) :
    s'.overwritten newId affected = s.overwritten newId affected := by
  have hmoved : s'.movedQueries newId affected = s.movedQueries newId affected :=
    List.filter_congr (fun id _ => by rw [hq.isQuery id])
  rw [State.overwritten, State.overwritten, hmoved]

variable (h)

theorem hasChat_of_buffer {s : State} {key : Str} {b : Buffer} (hb : s.buffer? key = some b)
    (hchat : b.hasChat = true) : s.hasChat key = true := by
  rw [State.hasChat, hb]
  exact hchat

/-- A change that does not store another buffer over a history keeps it. -/
theorem change_keeps {s s₁ : State} {connId : Str} {msg : IrcMessage} {c : Change}
    (hcause : Causes h s connId msg c) (hq : Quiet h s s₁) {key : Str} {b : Buffer}
    (hb : s₁.buffer? key = some b) (hsafe : key ∉ s.endangered h connId msg) :
    Leaves h s connId msg key ∨ ∃ key' b', (s₁.change h c).buffer? key' = some b' ∧
      b'.messages = b.messages ∧ (key' = key ∨ key' ≠ mentionsId) := by
  have hclose : ∀ id, id ≠ key → ∃ key' b', (s₁.removeBuffer h id).buffer? key' = some b' ∧
      b'.messages = b.messages ∧ (key' = key ∨ key' ≠ mentionsId) := fun id hne =>
    ⟨key, b, (s₁.buffer?_removeBuffer h id key).trans ((if_neg hne).trans hb), rfl, .inl rfl⟩
  cases hcause with
  | nothing => exact .inr ⟨key, b, hb, rfl, .inl rfl⟩
  | @privmsg target text hcmd hprivate hnew =>
    refine .inr ⟨key, b, (s₁.buffer?_addBuffer _ _).trans ((if_neg ?_).trans hb), rfl, .inl rfl⟩
    intro hkey
    rw [← hq.hasBuffer, State.hasBuffer] at hnew
    rw [show State.chatBuffer h connId (s.ourNick connId) (senderNick msg) target = key from hkey,
      hb] at hnew
    cases hnew
  | @join channel account realname hcmd hown =>
    have hlookup := s₁.buffer?_openChannel h connId channel key
    by_cases hkey : makeBufferId h connId channel = key
    · rw [if_pos hkey, hb] at hlookup
      exact .inr ⟨key, _, hlookup, rfl, .inl rfl⟩
    · rw [if_neg hkey] at hlookup
      exact .inr ⟨key, b, hlookup.trans hb, rfl, .inl rfl⟩
  | @part channel reason hcmd hown =>
    by_cases hkey : makeBufferId h connId channel = key
    · exact .inl (.inl ⟨channel, reason, hcmd, hown, hkey.symm⟩)
    · exact .inr (hclose _ hkey)
  | @kick channel kickedUser reason hcmd hown =>
    by_cases hkey : makeBufferId h connId channel = key
    · exact .inl (.inr ⟨channel, reason, hown ▸ hcmd, hkey.symm⟩)
    · exact .inr (hclose _ hkey)
  | @failure code args hcmd hcode hempty =>
    refine .inr (hclose _ ?_)
    rintro rfl
    refine hsafe ?_
    have hcode5 : code ≠ 5 := fun heq => absurd (heq ▸ hcode) (by decide)
    simp only [State.endangered, hcmd, if_neg hcode5, if_pos hcode, if_pos hempty,
      List.mem_singleton]
  | @nick newNick hcmd =>
    have hsafe' : key ∉ s₁.overwritten (makeBufferId h connId newNick)
        (s.buffersOfNick h connId ((extractNick msg.sender).getD [])) := by
      rw [hq.overwritten]
      simpa only [State.endangered, hcmd] using hsafe
    obtain ⟨key', b', hb', hmessages, hplace⟩ :=
      s₁.renameQueryBuffers_keeps h (s.nodup_bufferIdsWhere _) hb hsafe'
    refine .inr ⟨key', b', hb', hmessages, hplace.imp_right ?_⟩
    rintro rfl
    exact makeBufferId_ne_mentionsId h _ _
  | @network args id newId newName hcmd hargs hrename =>
    have hnewId : newId ≠ mentionsId := by
      obtain ⟨_, _, _, rfl⟩ := s.networkRename_eq_some h hrename
      exact makeBufferId_ne_mentionsId h connId newName
    cases hb₀ : s₁.buffer? id with
    | none =>
      rw [State.change, s₁.rekeyBuffer_of_none hb₀]
      exact .inr ⟨key, b, hb, rfl, .inl rfl⟩
    | some b₀ =>
      have hlookup := s₁.buffer?_rekeyBuffer hb₀ newId newName
      by_cases hid : id = key
      · rw [hid, hb, Option.some.injEq] at hb₀
        exact .inr ⟨newId, _, (hlookup newId).trans (if_pos rfl), by rw [hb₀], .inr hnewId⟩
      · refine .inr ⟨key, b, (hlookup key).trans ((if_neg ?_).trans ((if_neg hid).trans hb)), rfl,
          .inl rfl⟩
        rintro rfl
        refine hsafe ?_
        have hexists : s.hasBuffer id = true := by rw [← hq.hasBuffer, State.hasBuffer, hb₀]; rfl
        simp only [State.endangered, hcmd, if_pos, hrename, hexists, decide_eq_true hargs,
          decide_eq_true hid, Bool.and_self, List.mem_singleton]

/-- A message keeps the histories if no chat is in danger. -/
theorem dispatch_keeps {s s' : State} {connId : Str} {msg : IrcMessage} {hidden : Bool}
    {a : Arrival} (hspares : Spares h s connId msg)
    (hstep : dispatch h s connId msg hidden a = some s') : KeepsHistory h s connId msg s' := by
  intro key b hb hchat
  obtain ⟨c, s₁, hcause, hbefore, hafter⟩ := dispatch_cases h hstep
  obtain ⟨b₁, hb₁, hc₁⟩ := hbefore.buffer_of_some hb
  have hsafe : key ∉ s.endangered h connId msg := by
    intro hmem
    have hnone := hspares key hmem
    rw [hasChat_of_buffer hb hchat] at hnone
    cases hnone
  refine (change_keeps h hcause hbefore hb₁ hsafe).imp_right ?_
  rintro ⟨key', b₂, hb₂, hmessages, hplace⟩
  obtain ⟨b', hb', hc'⟩ := hafter.buffer_of_some hb₂
  refine ⟨key', b', hb', hc₁.history.trans ?_⟩
  have hkept := hc'.history
  rw [hmessages, s₁.limit_change, hbefore.limit] at hkept
  rcases hplace with rfl | hne
  · exact hkept
  · exact hkept.of_ne_mentions hne

instance (s : State) (connId : Str) (msg : IrcMessage) : Decidable (Spares h s connId msg) :=
  inferInstanceAs (Decidable (∀ id ∈ s.endangered h connId msg, s.hasChat id = false))

/-- A step of a session spares the histories. -/
def SparesStep (s : State) : Op → Prop
  | .irc connId msg _ _ => Spares h s connId msg
  | _ => True

instance (s : State) : (op : Op) → Decidable (SparesStep h s op)
  | .irc connId msg _ _ => inferInstanceAs (Decidable (Spares h s connId msg))
  | .connect .. | .addBuffer .. | .createMentionsBuffer _ | .removeBuffer _ | .setActive _
  | .nextBuffer | .prevBuffer | .netsplitBatch .. | .netjoinBatch .. | .connected _
  | .disconnected .. | .deliver .. | .tick _ => isTrue trivial

/-- In a session whose messages endanger no chat, every message keeps every history. -/
theorem history_survives {floodProtection : Bool} {floodExemptions : List Str}
    {ignores : List IgnoreEntry} {limit : Nat} {pre post : List Op} {connId : Str}
    {msg : IrcMessage} {hidden : Bool} {a : Arrival} {s s' : State}
    (hspares : Meets h (SparesStep h)
      (State.init floodProtection floodExemptions ignores limit)
      (pre ++ .irc connId msg hidden a :: post))
    (hpre : run h (State.init floodProtection floodExemptions ignores limit) pre = some s)
    (hstep : step h s (.irc connId msg hidden a) = some s') : KeepsHistory h s connId msg s' :=
  dispatch_keeps h (hspares.at hpre) hstep

theorem HistoryKept.mem {key : Str} {old new : List Message} (hkept : HistoryKept 0 key old new)
    (hne : key ≠ mentionsId) {m : Message} (hm : m ∈ old) : m ∈ new := by
  obtain ⟨added, k, heq, hfull⟩ := hkept
  by_cases hk : k = 0
  · rw [heq, hk, List.drop_zero]
    exact List.mem_append_left added hm
  · rcases hfull hk with ⟨hlimit, -⟩ | ⟨hkey, -⟩
    · exact absurd rfl hlimit
    · exact absurd hkey hne

/-- Whether a message is stored in some buffer. -/
def State.stores (s : State) (m : Message) : Bool :=
  s.buffers.values.any (fun b => b.messages.contains m)

theorem stores_of_buffer {s : State} {key : Str} {b : Buffer} (hb : s.buffer? key = some b)
    {m : Message} (hm : m ∈ b.messages) : s.stores m = true := by
  refine List.any_eq_true.mpr ⟨b, ?_, List.contains_iff_mem.mpr hm⟩
  exact List.mem_map.mpr ⟨(key, b), Dict.mem_rows_iff_lookup.mpr hb, rfl⟩

/-- Both bob and robert have a query open. -/
def twoQueries : List Op :=
  [sampleConnect (str "net"),
    sampleIrc (str "net") (str "bob") (.privmsg (str "me") (str "hi")),
    sampleIrc (str "net") (str "robert") (.privmsg (str "me") (str "yo"))]

/-- When bob takes the nick of robert, whose query is open as well, the conversation with robert
is lost. -/
theorem nick_loses_history : ∃ s s', run sampleHost sampleStart twoQueries = some s ∧
    step sampleHost s (sampleIrc (str "net") (str "bob") (.nick (str "robert"))) = some s' ∧
    ¬ KeepsHistory sampleHost s (str "net") (sampleMessage (str "bob") (.nick (str "robert"))) s' := by
  let m : Message := ⟨2, .message, some (str "robert"), none, str "yo", false, none, none⟩
  have hbefore : (run sampleHost sampleStart twoQueries).any (fun s =>
      (s.buffer? (str "net/robert")).any (fun b => b.hasChat && b.messages.contains m) &&
      decide (s.scrollbackLimit = 0)) = true := by decide
  have hafter : ((run sampleHost sampleStart twoQueries).bind (fun s =>
      step sampleHost s (sampleIrc (str "net") (str "bob") (.nick (str "robert"))))).any
      (fun s' => !s'.stores m) = true := by decide
  obtain ⟨s, hs, hstored⟩ := (Option.any_eq_true _ _).mp hbefore
  rw [hs, Option.bind_some] at hafter
  obtain ⟨s', hs', hlost⟩ := (Option.any_eq_true _ _).mp hafter
  refine ⟨s, s', hs, hs', fun hkeeps => ?_⟩
  simp only [Bool.and_eq_true, decide_eq_true_eq] at hstored
  obtain ⟨b, hb, hchat⟩ := (Option.any_eq_true _ _).mp hstored.1
  rw [Bool.and_eq_true, List.contains_iff_mem] at hchat
  rcases hkeeps _ b hb hchat.1 with hleaves | ⟨key', b', hb', hkept⟩
  · rcases hleaves with ⟨channel, reason, hcmd, -⟩ | ⟨channel, reason, hcmd, -⟩ <;> cases hcmd
  · rw [hstored.2] at hkept
    rw [stores_of_buffer hb' (hkept.mem (by decide) hchat.2)] at hlost
    cases hlost

/-- A nick change while only the query of bob is open. -/
theorem history_survives_sample : ∃ s s',
    run sampleHost sampleStart (twoQueries.take 2) = some s ∧
    step sampleHost s (sampleIrc (str "net") (str "bob") (.nick (str "robert"))) = some s' ∧
    KeepsHistory sampleHost s (str "net") (sampleMessage (str "bob") (.nick (str "robert"))) s' := by
  have hruns : ((run sampleHost sampleStart (twoQueries.take 2)).bind (fun s =>
      step sampleHost s (sampleIrc (str "net") (str "bob") (.nick (str "robert"))))).isSome = true := by
    decide
  obtain ⟨s', hs'⟩ := Option.isSome_iff_exists.mp hruns
  obtain ⟨s, hs, hstep⟩ := Option.bind_eq_some_iff.mp hs'
  have hspares : Meets sampleHost (SparesStep sampleHost) sampleStart (twoQueries.take 2 ++
      [sampleIrc (str "net") (str "bob") (.nick (str "robert"))]) := by decide
  exact ⟨s, s', hs, hstep, history_survives sampleHost hspares hs hstep⟩

end Store

end Repartee
