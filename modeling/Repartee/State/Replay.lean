import Repartee.State.Nicklist

/-!
# Batches and their replay

A completed batch of QUITs or JOINs writes the nicks of the buffers on its own, where the messages
could have been handled one by one. The two agree on the nicks, except that a batch passes over a
QUIT without a prefix, and that it does not see the account tag of a JOIN.

## Main definitions

- `State.replay`: the messages one by one
- `SameUsers`: two states agree on the users of every buffer

## Main results

- `batch_iff_replay`: when a batch and its replay agree
-/

set_option autoImplicit false

namespace Repartee

namespace Store

variable (h : Host)

namespace State

variable (s : State)

/-- The entry of a nick, given in lowercase, in a buffer. -/
def user (id key : Str) : Option NickEntry := (s.roster id).bind (fun r => r.users.lookup key)

/-- Whether a buffer belongs to a connection. -/
def owns (connId id : Str) : Bool := (s.roster id).any (fun r => decide (r.connectionId = connId))

/-- The messages of a batch, handled one by one. -/
def replay (connId : Str) (msgs : List (IrcMessage × Arrival)) : Option State :=
  msgs.foldlM (fun s m => s.handleIrcMessage h connId m.1 m.2) s

end State

/-- Two states agree on the users of every buffer. -/
def SameUsers (s s' : State) : Prop := ∀ id key, s.user id key = s'.user id key

namespace State

variable (s : State)

theorem user_addNick (id : Str) (entry : NickEntry) (id' key : Str) :
    (s.addNick h id entry).user id' key =
      if (s.roster id').isSome = true ∧ id = id' ∧ h.toLowercase entry.nick = key then some entry
      else s.user id' key := by
  rw [user, user, roster_addNick]
  cases hr : s.roster id' with
  | none =>
    by_cases hid : id = id' <;> simp [hid]
  | some r =>
    by_cases hid : id = id'
    · simp [hid, onUsers, Dict.lookup_insert]
    · simp [hid]

theorem isSome_roster_addNick (id : Str) (entry : NickEntry) (id' : Str) :
    ((s.addNick h id entry).roster id').isSome = (s.roster id').isSome := by
  rw [roster_addNick]
  split_ifs
  · exact Option.isSome_map
  · rfl

/-- Removal of a nick, in lowercase, from the buffers of a connection that have it. -/
theorem user_removeNickFrom (connId nick : Str) {nick' : Str}
    (hnick : h.toLowercase nick' = h.toLowercase nick) (id key : Str) :
    (s.removeNickFrom h (s.buffersWith h connId nick) nick').user id key =
      if s.owns connId id = true ∧ h.toLowercase nick = key then none else s.user id key := by
  have hmem : id ∈ s.buffersWith h connId nick ↔
      s.owns connId id = true ∧ (s.user id (h.toLowercase nick)).isSome = true := by
    rw [buffersWith, mem_bufferIdsWhere, owns, user, roster]
    cases s.buffer? id with
    | none => simp
    | some b => simp [Buffer.hasNick, Buffer.roster]
  have hnodup : (s.buffersWith h connId nick).Nodup := s.nodup_bufferIdsWhere _
  have hroster := s.roster_removeNickFrom h hnodup nick' id
  by_cases hid : id ∈ s.buffersWith h connId nick
  · rw [user, hroster, if_pos hid, user]
    rw [hmem] at hid
    obtain ⟨r, hr, -⟩ := (Option.any_eq_true _ _).mp hid.1
    rw [hr, Option.map_some, Option.bind_some, Option.bind_some]
    simp only [onUsers, Dict.lookup_erase, hnick, hid.1, true_and]
  · rw [user, hroster, if_neg hid, ← user]
    rw [hmem, not_and, Bool.not_eq_true, Option.isSome_eq_false_iff, Option.isNone_iff_eq_none]
      at hid
    split_ifs with hcond
    · rw [← hcond.2]
      exact hid hcond.1
    · rfl

theorem owns_removeNickFrom (connId nick : Str) (ids : List Str) (id : Str) :
    (s.removeNickFrom h ids nick).owns connId id = s.owns connId id := by
  rw [removeNickFrom]
  induction ids generalizing s with
  | nil => rfl
  | cons id' ids ih =>
    rw [List.foldl_cons, ih, owns, owns, roster_removeNick]
    split_ifs
    · rw [Option.any_map]
      rfl
    · rfl

end State

theorem Shows.user {s s' : State} (hs : Shows s s') (id key : Str) :
    s'.user id key = s.user id key := by
  rw [State.user, State.user, hs.roster]

theorem Shows.owns {s s' : State} (hs : Shows s s') (connId id : Str) :
    s'.owns connId id = s.owns connId id := by
  rw [State.owns, State.owns, hs.roster]

/-! ### QUIT -/

/-- Some nicks, given in lowercase, have been removed from the buffers of a connection. -/
structure Removed (connId : Str) (keys : List Str) (s s' : State) : Prop where
  connections : s'.connections = s.connections
  owns : ∀ id, s'.owns connId id = s.owns connId id
  user : ∀ id key, s'.user id key =
    if s.owns connId id = true ∧ key ∈ keys then none else s.user id key

theorem Removed.refl (connId : Str) (s : State) : Removed connId [] s s :=
  ⟨rfl, fun _ => rfl, fun id key => by simp⟩

theorem Removed.trans {connId : Str} {keys₁ keys₂ : List Str} {s₁ s₂ s₃ : State}
    (h₁ : Removed connId keys₁ s₁ s₂) (h₂ : Removed connId keys₂ s₂ s₃) :
    Removed connId (keys₁ ++ keys₂) s₁ s₃ := by
  refine ⟨h₂.connections.trans h₁.connections, fun id => (h₂.owns id).trans (h₁.owns id),
    fun id key => ?_⟩
  rw [h₂.user, h₁.user, h₁.owns]
  by_cases howns : s₁.owns connId id = true
  · by_cases hkey : key ∈ keys₁ <;> simp [howns, hkey]
  · simp [howns]

theorem Removed.shows {connId : Str} {keys : List Str} {s s₁ s₂ : State}
    (hr : Removed connId keys s s₁) (hs : Shows s₁ s₂) : Removed connId keys s s₂ :=
  ⟨hs.connections.trans hr.connections, fun id => (hs.owns connId id).trans (hr.owns id),
    fun id key => (hs.user id key).trans (hr.user id key)⟩

theorem removed_removeNickFrom (s : State) (connId nick : Str) {nick' : Str}
    (hnick : h.toLowercase nick' = h.toLowercase nick) :
    Removed connId [h.toLowercase nick] s
      (s.removeNickFrom h (s.buffersWith h connId nick) nick') := by
  refine ⟨s.connections_foldl (w := fun s id => s.removeNick h id nick') (fun _ _ => rfl) _,
    fun id => s.owns_removeNickFrom h connId nick' _ id, fun id key => ?_⟩
  rw [s.user_removeNickFrom h connId nick hnick]
  simp only [List.mem_singleton, eq_comm]

/-- A QUIT of another user, which may lack a prefix. -/
def IsQuit (ourNick : Str) (msg : IrcMessage) : Prop :=
  (∃ reason, msg.command = .quit reason) ∧ senderNick msg ≠ ourNick

theorem removed_replay (s : State) (connId : Str) {quits : List (IrcMessage × Arrival)}
    (hquits : ∀ m ∈ quits, ∃ reason, m.1.command = .quit reason) :
    ∃ s', s.replay h connId quits = some s' ∧
      Removed connId ((quits.map Prod.fst).map (fun msg => h.toLowercase (senderNick msg)))
        s s' := by
  induction quits generalizing s with
  | nil => exact ⟨s, rfl, Removed.refl connId s⟩
  | cons m quits ih =>
    obtain ⟨reason, hcmd⟩ := hquits m List.mem_cons_self
    have hhandled : s.handleIrcMessage h connId m.1 m.2 =
        some (s.handleQuit h connId m.1 reason m.2.now) := by
      rw [State.handleIrcMessage, hcmd]
    have hremoved := (removed_removeNickFrom h s connId (senderNick m.1) rfl).shows
      (s.shows_handleQuit h connId m.1 reason m.2.now)
    obtain ⟨s', hs', hrest⟩ := ih (s.handleQuit h connId m.1 reason m.2.now)
      (fun m' hm' => hquits m' (List.mem_cons_of_mem _ hm'))
    refine ⟨s', ?_, hremoved.trans hrest⟩
    rw [State.replay, List.foldlM_cons, hhandled]
    exact hs'

/-- The lowercase nicks of the QUITs with a prefix. -/
def quitKeys (msgs : List IrcMessage) : List Str :=
  msgs.filterMap (fun msg => (extractNick msg.sender).map h.toLowercase)

theorem removed_splitQuit (hidem : ∀ x, h.toLowercase (h.toLowercase x) = h.toLowercase x)
    (connId : Str) {msgs : List IrcMessage}
    (hquits : ∀ msg ∈ msgs, ∃ reason, msg.command = .quit reason) (p : State.BatchProgress) :
    Removed connId (quitKeys h msgs) p.1 (msgs.foldl (State.splitQuit h connId) p).1 := by
  induction msgs generalizing p with
  | nil => exact Removed.refl connId p.1
  | cons msg msgs ih =>
    obtain ⟨reason, hcmd⟩ := hquits msg List.mem_cons_self
    have hrest := ih (fun msg' hmsg' => hquits msg' (List.mem_cons_of_mem _ hmsg'))
      (State.splitQuit h connId p msg)
    rw [List.foldl_cons]
    cases hnick : extractNick msg.sender with
    | none =>
      have hsame : State.splitQuit h connId p msg = p := by
        rw [State.splitQuit, hcmd, hnick]
      rw [quitKeys, List.filterMap_cons, hnick]
      rw [hsame] at hrest ⊢
      exact hrest
    | some nick =>
      have hstep : (State.splitQuit h connId p msg).1 =
          p.1.removeNickFrom h (p.1.buffersWith h connId nick) (h.toLowercase nick) := by
        rw [State.splitQuit, hcmd, hnick]
      rw [quitKeys, List.filterMap_cons, hnick]
      have hremoved := removed_removeNickFrom h p.1 connId nick (hidem nick)
      rw [← hstep] at hremoved
      exact hremoved.trans hrest

theorem shows_postSummary (key title verb : Str) (batch : BatchInfo) (p : State.BatchProgress) :
    Shows p.1 (State.postSummary h key title verb batch p) :=
  shows_ite (Shows.refl _) (State.shows_eventIn h _ _ _)

/-! ### JOIN -/

/-- What one JOIN writes: its buffer and entry. -/
abbrev Write := Str × NickEntry

/-- Whether a write is to a nick, given in lowercase, in a buffer. -/
def Write.at (id key : Str) (w : Write) : Bool :=
  decide (w.1 = id) && decide (h.toLowercase w.2.nick = key)

/-- Some entries have been written, one after the other. -/
structure Written (writes : List Write) (s s' : State) : Prop where
  connections : s'.connections = s.connections
  exists_iff : ∀ id, (s'.roster id).isSome = (s.roster id).isSome
  user : ∀ id key, s'.user id key =
    if (s.roster id).isSome = true then
      ((writes.reverse.find? (Write.at h id key)).map Prod.snd).or (s.user id key)
    else none

theorem user_eq_none {s : State} {id : Str} (hnone : (s.roster id).isSome = false) (key : Str) :
    s.user id key = none := by
  rw [State.user, Option.isNone_iff_eq_none.mp (Option.isSome_eq_false_iff.mp hnone)]
  rfl

theorem Written.refl (s : State) : Written h [] s s := by
  refine ⟨rfl, fun _ => rfl, fun id key => ?_⟩
  by_cases hid : (s.roster id).isSome = true
  · rw [if_pos hid]
    rfl
  · rw [if_neg hid, user_eq_none (Bool.not_eq_true _ ▸ hid)]

theorem Written.trans {writes₁ writes₂ : List Write} {s₁ s₂ s₃ : State}
    (h₁ : Written h writes₁ s₁ s₂) (h₂ : Written h writes₂ s₂ s₃) :
    Written h (writes₁ ++ writes₂) s₁ s₃ := by
  refine ⟨h₂.connections.trans h₁.connections,
    fun id => (h₂.exists_iff id).trans (h₁.exists_iff id), fun id key => ?_⟩
  rw [h₂.user, h₁.user, h₁.exists_iff, List.reverse_append, List.find?_append]
  by_cases hid : (s₁.roster id).isSome = true
  · rw [if_pos hid, if_pos hid, if_pos hid]
    cases writes₂.reverse.find? (Write.at h id key) <;> rfl
  · rw [if_neg hid, if_neg hid]

theorem Written.shows {writes : List Write} {s s₁ s₂ : State} (hw : Written h writes s s₁)
    (hs : Shows s₁ s₂) : Written h writes s s₂ :=
  ⟨hs.connections.trans hw.connections, fun id => by rw [hs.roster, hw.exists_iff],
    fun id key => (hs.user id key).trans (hw.user id key)⟩

theorem written_addNick (s : State) (w : Write) : Written h [w] s (s.addNick h w.1 w.2) := by
  refine ⟨rfl, s.isSome_roster_addNick h w.1 w.2, fun id key => ?_⟩
  rw [s.user_addNick]
  by_cases hid : (s.roster id).isSome = true
  · by_cases hat : Write.at h id key w = true
    · have hboth := hat
      rw [Write.at, Bool.and_eq_true, decide_eq_true_eq, decide_eq_true_eq] at hboth
      rw [if_pos ⟨hid, hboth⟩, if_pos hid, List.reverse_singleton,
        List.find?_cons_of_pos hat]
      rfl
    · have hnot : ¬ ((s.roster id).isSome = true ∧ w.1 = id ∧ h.toLowercase w.2.nick = key) :=
        fun hboth => hat (by simp [Write.at, hboth.2.1, hboth.2.2])
      rw [if_neg hnot, if_pos hid, List.reverse_singleton, List.find?_cons_of_neg hat]
      rfl
  · rw [if_neg (fun hboth => hid hboth.1), if_neg hid, user_eq_none (Bool.not_eq_true _ ▸ hid)]

/-- The account that a JOIN is stored with, one by one or in a batch. -/
def accountOf (batched : Bool) (msg : IrcMessage) : Option Str :=
  match msg.command with
  | .join _ account _ =>
    if batched then account.bind loggedIn else State.joinAccount account (tagValue msg (str "account"))
  | _ => none

def channelOf (msg : IrcMessage) : Str :=
  match msg.command with
  | .join channel _ _ => channel
  | _ => []

/-- What a JOIN writes. -/
def joinWrite (connId : Str) (batched : Bool) (msg : IrcMessage) : Write :=
  (makeBufferId h connId (channelOf msg), joinedEntry (senderNick msg) (accountOf batched msg))

/-- A JOIN of another user. -/
def IsJoin (ourNick : Str) (msg : IrcMessage) : Prop :=
  (∃ channel account realname, msg.command = .join channel account realname) ∧
    senderNick msg ≠ ourNick

theorem written_replay (s : State) (connId : Str) {joins : List (IrcMessage × Arrival)}
    (hjoins : ∀ m ∈ joins, IsJoin (s.ourNick connId) m.1) :
    ∃ s', s.replay h connId joins = some s' ∧
      Written h ((joins.map Prod.fst).map (joinWrite h connId false)) s s' := by
  induction joins generalizing s with
  | nil => exact ⟨s, rfl, Written.refl h s⟩
  | cons m joins ih =>
    obtain ⟨⟨channel, account, realname, hcmd⟩, hother⟩ := hjoins m List.mem_cons_self
    have hhandled : s.handleIrcMessage h connId m.1 m.2 =
        some (s.handleJoin h connId (s.ourNick connId) m.1 channel account realname m.2.now) := by
      rw [State.handleIrcMessage, hcmd]
    have hshows : Shows (s.addNick h (joinWrite h connId false m.1).1
          (joinWrite h connId false m.1).2)
        (s.handleJoin h connId (s.ourNick connId) m.1 channel account realname m.2.now) := by
      rw [joinWrite, channelOf, accountOf, hcmd]
      exact s.shows_handleJoin h connId hother channel account realname m.2.now
    have hwritten := (written_addNick h s (joinWrite h connId false m.1)).shows h hshows
    have hsame := ourNick_eq hwritten.connections connId
    obtain ⟨s', hs', hrest⟩ := ih _ (fun m' hm' => by
      rw [hsame]
      exact hjoins m' (List.mem_cons_of_mem _ hm'))
    refine ⟨s', ?_, hwritten.trans h hrest⟩
    rw [State.replay, List.foldlM_cons, hhandled]
    exact hs'

theorem written_splitJoin (connId : Str) {msgs : List IrcMessage}
    (hjoins : ∀ msg ∈ msgs, ∃ channel account realname, msg.command = .join channel account realname)
    (p : State.BatchProgress) :
    Written h (msgs.map (joinWrite h connId true)) p.1
      (msgs.foldl (State.splitJoin h connId) p).1 := by
  induction msgs generalizing p with
  | nil => exact Written.refl h p.1
  | cons msg msgs ih =>
    obtain ⟨channel, account, realname, hcmd⟩ := hjoins msg List.mem_cons_self
    have hrest := ih (fun msg' hmsg' => hjoins msg' (List.mem_cons_of_mem _ hmsg'))
      (State.splitJoin h connId p msg)
    have hstep : (State.splitJoin h connId p msg).1 =
        p.1.addNick h (joinWrite h connId true msg).1 (joinWrite h connId true msg).2 := by
      rw [State.splitJoin, joinWrite, channelOf, accountOf, hcmd]
      rfl
    have hwritten := written_addNick h p.1 (joinWrite h connId true msg)
    rw [← hstep] at hwritten
    exact hwritten.trans h hrest

/-! ### Both -/

/-- No user without a nick stays only because the batch passes over a QUIT without a prefix. -/
def NamelessGone (s : State) (connId : Str) (msgs : List IrcMessage) : Prop :=
  (∃ msg ∈ msgs, msg.sender = none) →
    h.toLowercase [] ∈ quitKeys h msgs ∨
      ∀ id, s.owns connId id = true → s.user id (h.toLowercase []) = none

/-- Only its tag tells the account of a joining nick. -/
def accountInTag (msg : IrcMessage) : Bool :=
  match msg.command with
  | .join _ account _ =>
    (account.bind loggedIn).isNone && ((tagValue msg (str "account")).bind loggedIn).isSome
  | _ => false

/-- A JOIN of a nick, given in lowercase, to a buffer. -/
def joinsAt (connId id key : Str) (msg : IrcMessage) : Bool :=
  decide (makeBufferId h connId (channelOf msg) = id) &&
    decide (h.toLowercase (senderNick msg) = key)

/-- The last JOIN of each nick to each buffer does not leave the account to its tag. -/
def AccountsTold (s : State) (connId : Str) (msgs : List IrcMessage) : Prop :=
  ∀ id key msg, (s.roster id).isSome = true →
    msgs.reverse.find? (joinsAt h connId id key) = some msg → accountInTag msg = false

theorem accountOf_eq_iff (msg : IrcMessage) :
    accountOf true msg = accountOf false msg ↔ accountInTag msg = false := by
  rw [accountOf, accountOf, accountInTag]
  cases msg.command with
  | join channel account realname =>
    simp only [State.joinAccount, Bool.false_eq_true, if_true, if_false]
    cases account.bind loggedIn with
    | some account => simp
    | none => cases (tagValue msg (str "account")).bind loggedIn <;> simp
  | _ => simp

theorem mem_quits_iff {msgs : List IrcMessage} {key : Str} :
    key ∈ msgs.map (fun msg => h.toLowercase (senderNick msg)) ↔
      key ∈ quitKeys h msgs ∨ (key = h.toLowercase [] ∧ ∃ msg ∈ msgs, msg.sender = none) := by
  rw [List.mem_map, quitKeys, List.mem_filterMap]
  constructor
  · rintro ⟨msg, hmsg, rfl⟩
    cases hsender : msg.sender with
    | none => exact .inr ⟨by rw [senderNick, hsender]; rfl, msg, hmsg, hsender⟩
    | some p =>
      refine .inl ⟨msg, hmsg, ?_⟩
      rw [← State.senderNick_eq, hsender]
      rfl
  · rintro (⟨msg, hmsg, hkey⟩ | ⟨rfl, msg, hmsg, hsender⟩)
    · obtain ⟨nick, hnick, rfl⟩ := Option.map_eq_some_iff.mp hkey
      exact ⟨msg, hmsg, by rw [← State.senderNick_eq, hnick]; rfl⟩
    · exact ⟨msg, hmsg, by rw [senderNick, hsender]; rfl⟩

theorem sameUsers_quits {s s₁ s₂ : State} {connId : Str} {msgs : List IrcMessage}
    (h₁ : Removed connId (quitKeys h msgs) s s₁)
    (h₂ : Removed connId (msgs.map (fun msg => h.toLowercase (senderNick msg))) s s₂) :
    SameUsers s₁ s₂ ↔ NamelessGone h s connId msgs := by
  constructor
  · intro hsame hnameless
    by_cases hkey : h.toLowercase [] ∈ quitKeys h msgs
    · exact .inl hkey
    · refine .inr (fun id howns => ?_)
      have heq := hsame id (h.toLowercase [])
      rw [h₁.user, h₂.user, if_neg (fun hboth => hkey hboth.2),
        if_pos ⟨howns, (mem_quits_iff h).mpr (.inr ⟨rfl, hnameless⟩)⟩] at heq
      exact heq
  · intro hgone id key
    rw [h₁.user, h₂.user]
    by_cases howns : s.owns connId id = true
    · by_cases hkey : key ∈ quitKeys h msgs
      · rw [if_pos ⟨howns, hkey⟩, if_pos ⟨howns, (mem_quits_iff h).mpr (.inl hkey)⟩]
      · rw [if_neg (fun hboth => hkey hboth.2)]
        split_ifs with hquits
        · -- only a QUIT without a prefix removes the nick
          obtain hkey' | ⟨rfl, hnameless⟩ := (mem_quits_iff h).mp hquits.2
          · exact absurd hkey' hkey
          · exact (hgone hnameless).elim (fun hmem => absurd hmem hkey)
              (fun hnone => hnone id howns)
        · rfl
    · rw [if_neg (fun hboth => howns hboth.1), if_neg (fun hboth => howns hboth.1)]

/-- The last write to a nick in a buffer is that of the last JOIN. -/
theorem find?_joinWrite (connId : Str) (batched : Bool) (msgs : List IrcMessage) (id key : Str) :
    (msgs.map (joinWrite h connId batched)).reverse.find? (Write.at h id key) =
      (msgs.reverse.find? (joinsAt h connId id key)).map (joinWrite h connId batched) := by
  rw [← List.map_reverse, List.find?_map]
  rfl

theorem sameUsers_joins {s s₁ s₂ : State} {connId : Str} {msgs : List IrcMessage}
    (h₁ : Written h (msgs.map (joinWrite h connId true)) s s₁)
    (h₂ : Written h (msgs.map (joinWrite h connId false)) s s₂) :
    SameUsers s₁ s₂ ↔ AccountsTold h s connId msgs := by
  constructor
  · intro hsame id key msg hid hlast
    have heq := hsame id key
    rw [h₁.user, h₂.user, if_pos hid, if_pos hid, find?_joinWrite, find?_joinWrite, hlast] at heq
    refine (accountOf_eq_iff msg).mp ?_
    exact congrArg NickEntry.account (Option.some.inj heq)
  · intro htold id key
    rw [h₁.user, h₂.user]
    by_cases hid : (s.roster id).isSome = true
    · rw [if_pos hid, if_pos hid, find?_joinWrite, find?_joinWrite]
      cases hlast : msgs.reverse.find? (joinsAt h connId id key) with
      | none => rfl
      | some msg =>
        have haccount := (accountOf_eq_iff msg).mpr (htold id key msg hid hlast)
        simp only [Option.map_some, joinWrite, haccount]
    · rw [if_neg hid, if_neg hid]

/-- **Batches and replay**: on QUITs of other users they agree unless a user without a nick is left,
and on JOINs of other users unless only a tag tells the account. -/
theorem batch_iff_replay (hidem : ∀ x, h.toLowercase (h.toLowercase x) = h.toLowercase x)
    (s : State) (connId : Str) (batch : BatchInfo) (msgs : List (IrcMessage × Arrival))
    (hmsgs : batch.messages = msgs.map Prod.fst) :
    ((∀ msg ∈ batch.messages, IsQuit (s.ourNick connId) msg) →
      ∃ s', s.replay h connId msgs = some s' ∧
        (SameUsers (s.processNetsplitBatch h connId batch) s' ↔
          NamelessGone h s connId batch.messages)) ∧
    ((∀ msg ∈ batch.messages, IsJoin (s.ourNick connId) msg) →
      ∃ s', s.replay h connId msgs = some s' ∧
        (SameUsers (s.processNetjoinBatch h connId batch) s' ↔
          AccountsTold h s connId batch.messages)) := by
  have hmem : ∀ m ∈ msgs, m.1 ∈ batch.messages := fun m hm =>
    hmsgs ▸ List.mem_map.mpr ⟨m, hm, rfl⟩
  constructor
  · intro hquits
    obtain ⟨s', hs', hreplayed⟩ := removed_replay h s connId
      (fun m hm => (hquits m.1 (hmem m hm)).1)
    have hbatched := (removed_splitQuit h hidem connId
      (fun msg hmsg => (hquits msg hmsg).1) (s, [], [])).shows
        (shows_postSummary h (str "netsplit") (str "Netsplit ") (str " quits: ") batch _)
    rw [← hmsgs] at hreplayed
    exact ⟨s', hs', sameUsers_quits h hbatched hreplayed⟩
  · intro hjoins
    obtain ⟨s', hs', hreplayed⟩ := written_replay h s connId
      (fun m hm => hjoins m.1 (hmem m hm))
    have hbatched := (written_splitJoin h connId
      (fun msg hmsg => (hjoins msg hmsg).1) (s, [], [])).shows h
        (shows_postSummary h (str "netjoin") (str "Netsplit over ") (str " joins: ") batch _)
    rw [← hmsgs] at hreplayed
    exact ⟨s', hs', sameUsers_joins h hbatched hreplayed⟩

/-- bob rejoins after a netsplit. The server tells his account. -/
def sampleJoin (account tag : Option Str) : IrcMessage :=
  ⟨tag.map (fun t => [(str "account", some t)]), some (.nickname (str "bob") (str "u") (str "h")),
    .join (str "#c") account none⟩

def sampleBatch (msg : IrcMessage) : BatchInfo :=
  ⟨str "NETJOIN", [str "a.net", str "b.net"], [msg], 0, 0⟩

/-- The account of bob is lost in a batch if only its tag tells it. -/
theorem batch_loses_account : ∃ s',
    sampleChannel.replay sampleHost (str "net")
      [(sampleJoin none (some (str "bobby")), ⟨0, none, none, false⟩)] = some s' ∧
    ¬ SameUsers (sampleChannel.processNetjoinBatch sampleHost (str "net")
      (sampleBatch (sampleJoin none (some (str "bobby"))))) s' := by
  have hdiffers : (sampleChannel.replay sampleHost (str "net")
      [(sampleJoin none (some (str "bobby")), ⟨0, none, none, false⟩)]).any (fun s' =>
        decide ((sampleChannel.processNetjoinBatch sampleHost (str "net")
          (sampleBatch (sampleJoin none (some (str "bobby"))))).user (str "net/#c") (str "bob") ≠
            s'.user (str "net/#c") (str "bob"))) = true := by decide
  obtain ⟨s', hs', hne⟩ := (Option.any_eq_true _ _).mp hdiffers
  exact ⟨s', hs', fun hsame => of_decide_eq_true hne (hsame _ _)⟩

/-- The account of bob is kept if the JOIN names it. -/
theorem batch_iff_replay_sample : ∃ s',
    sampleChannel.replay sampleHost (str "net")
      [(sampleJoin (some (str "bobby")) none, ⟨0, none, none, false⟩)] = some s' ∧
    SameUsers (sampleChannel.processNetjoinBatch sampleHost (str "net")
      (sampleBatch (sampleJoin (some (str "bobby")) none))) s' := by
  have hchar : ∀ c : Char, c.toLower.toLower = c.toLower := by
    intro c
    unfold Char.toLower
    grind
  have hidem : ∀ x,
      sampleHost.toLowercase (sampleHost.toLowercase x) = sampleHost.toLowercase x := by
    intro x
    simp [sampleHost, hchar]
  obtain ⟨s', hs', hiff⟩ := (batch_iff_replay sampleHost hidem sampleChannel (str "net")
    (sampleBatch (sampleJoin (some (str "bobby")) none))
    [(sampleJoin (some (str "bobby")) none, ⟨0, none, none, false⟩)] rfl).2 (by
      intro msg hmsg
      rw [List.mem_singleton.mp hmsg]
      exact ⟨⟨_, _, _, rfl⟩, by decide⟩)
  refine ⟨s', hs', hiff.mpr (fun id key msg _ hlast => ?_)⟩
  have hmsg := List.mem_of_find?_eq_some hlast
  rw [List.mem_reverse] at hmsg
  rw [List.mem_singleton.mp hmsg]
  decide

end Store

end Repartee
