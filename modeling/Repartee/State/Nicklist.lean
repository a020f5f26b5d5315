import Repartee.State.Roster
import Mathlib.Data.Set.Image

/-!
# The nicks of a channel

The server's view of a channel is the set of its members, as the server spells their nicks. While
other users join, part, quit, are kicked and change their nicks, the users of the channel's buffer
are the members in lowercase.

## Main definitions

- `Legal`: what a message means for the members of a channel
- `Tracks`: the users of a channel's buffer are the members

## Main results

- `nicklist_replay`: the buffer tracks the members over any legal messages
- `tracks_names`: how it comes to track them
-/

set_option autoImplicit false

namespace Repartee

namespace Store

variable (h : Host)

/-- The members without a nick. -/
def without (nick : Str) (members : Set Str) : Set Str :=
  {m ∈ members | h.toLowercase m ≠ h.toLowercase nick}

/-- A nick is a member, up to case. -/
def Present (nick : Str) (members : Set Str) : Prop :=
  ∃ m ∈ members, h.toLowercase m = h.toLowercase nick

/-- What a message of another user means for the members of a channel. A nick joins only when it
is absent, and leaves only when it is present; it changes only to a nick that nobody else has, and
that is no name of the channel. -/
inductive Legal (ourNick channel : Str) (members : Set Str) (msg : IrcMessage) : Set Str → Prop
  | join {target : Str} {account realname : Option Str}
      (hcmd : msg.command = .join target account realname) (hother : senderNick msg ≠ ourNick)
      (hhere : h.toLowercase target = h.toLowercase channel)
      (habsent : ¬ Present h (senderNick msg) members) :
      Legal ourNick channel members msg (insert (senderNick msg) members)
  | joinElsewhere {target : Str} {account realname : Option Str}
      (hcmd : msg.command = .join target account realname) (hother : senderNick msg ≠ ourNick)
      (hthere : h.toLowercase target ≠ h.toLowercase channel) :
      Legal ourNick channel members msg members
  | part {target : Str} {reason : Option Str} (hcmd : msg.command = .part target reason)
      (hother : senderNick msg ≠ ourNick)
      (hhere : h.toLowercase target = h.toLowercase channel)
      (hpresent : Present h (senderNick msg) members) :
      Legal ourNick channel members msg (without h (senderNick msg) members)
  | partElsewhere {target : Str} {reason : Option Str} (hcmd : msg.command = .part target reason)
      (hother : senderNick msg ≠ ourNick)
      (hthere : h.toLowercase target ≠ h.toLowercase channel) :
      Legal ourNick channel members msg members
  | kick {target kickedUser : Str} {reason : Option Str}
      (hcmd : msg.command = .kick target kickedUser reason) (hother : kickedUser ≠ ourNick)
      (hhere : h.toLowercase target = h.toLowercase channel)
      (hpresent : Present h kickedUser members) :
      Legal ourNick channel members msg (without h kickedUser members)
  | kickElsewhere {target kickedUser : Str} {reason : Option Str}
      (hcmd : msg.command = .kick target kickedUser reason) (hother : kickedUser ≠ ourNick)
      (hthere : h.toLowercase target ≠ h.toLowercase channel) :
      Legal ourNick channel members msg members
  | quit {reason : Option Str} (hcmd : msg.command = .quit reason)
      (hother : senderNick msg ≠ ourNick) :
      Legal ourNick channel members msg (without h (senderNick msg) members)
  | nick {newNick : Str} (hcmd : msg.command = .nick newNick) (hother : senderNick msg ≠ ourNick)
      (hpresent : Present h (senderNick msg) members)
      (hunused : ¬ Present h newNick (without h (senderNick msg) members))
      (hname : h.toLowercase newNick ≠ h.toLowercase channel) :
      Legal ourNick channel members msg (insert newNick (without h (senderNick msg) members))
  | nickElsewhere {newNick : Str} (hcmd : msg.command = .nick newNick)
      (hother : senderNick msg ≠ ourNick) (habsent : ¬ Present h (senderNick msg) members)
      (hname : h.toLowercase newNick ≠ h.toLowercase channel) :
      Legal ourNick channel members msg members

/-- Messages one after the other. -/
inductive LegalRun (ourNick channel : Str) : Set Str → List IrcMessage → Set Str → Prop
  | nil (members : Set Str) : LegalRun ourNick channel members [] members
  | cons {members members₁ members₂ : Set Str} {msg : IrcMessage} {msgs : List IrcMessage}
      (hmsg : Legal h ourNick channel members msg members₁)
      (hmsgs : LegalRun ourNick channel members₁ msgs members₂) :
      LegalRun ourNick channel members (msg :: msgs) members₂

/-- The keys of the users. -/
def keySet (users : Dict Str NickEntry) : Set Str := {key | (users.lookup key).isSome = true}

/-- The buffer of a channel that we have joined has the members as its users, in lowercase. -/
def Tracks (s : State) (connId channel : Str) (members : Set Str) : Prop :=
  ∃ r, s.roster (makeBufferId h connId channel) = some r ∧ r.connectionId = connId ∧
    r.bufferType = .channel ∧ keySet r.users = h.toLowercase '' members

/-! ### Key sets -/

theorem keySet_empty : keySet Table.empty = ∅ :=
  Set.eq_empty_of_forall_notMem (fun key hkey => by cases hkey)

theorem keySet_insert (users : Dict Str NickEntry) (key : Str) (entry : NickEntry) :
    keySet (users.insert key entry) = insert key (keySet users) := by
  ext k
  show ((users.insert key entry).lookup k).isSome = true ↔ k = key ∨ (users.lookup k).isSome = true
  rw [Dict.lookup_insert]
  by_cases hk : key = k
  · simp [hk]
  · simp [hk, Ne.symm hk]

theorem keySet_erase (users : Dict Str NickEntry) (key : Str) :
    keySet (users.erase key) = keySet users \ {key} := by
  ext k
  show ((users.erase key).lookup k).isSome = true ↔ (users.lookup k).isSome = true ∧ k ≠ key
  rw [Dict.lookup_erase]
  by_cases hk : key = k
  · simp [hk]
  · simp [hk, Ne.symm hk]

theorem keySet_renameUser {users : Dict Str NickEntry} {oldNick : Str} (newNick : Str)
    (hpresent : h.toLowercase oldNick ∈ keySet users) :
    keySet (State.renameUser h oldNick newNick users) =
      insert (h.toLowercase newNick) (keySet users \ {h.toLowercase oldNick}) := by
  obtain ⟨entry, hentry⟩ := Option.isSome_iff_exists.mp hpresent
  rw [State.renameUser, hentry]
  simp only
  rw [keySet_insert, keySet_erase]

theorem image_without (nick : Str) (members : Set Str) :
    h.toLowercase '' without h nick members =
      h.toLowercase '' members \ {h.toLowercase nick} := by
  ext key
  constructor
  · rintro ⟨m, ⟨hm, hne⟩, rfl⟩
    exact ⟨⟨m, hm, rfl⟩, hne⟩
  · rintro ⟨⟨m, hm, rfl⟩, hne⟩
    exact ⟨m, ⟨hm, hne⟩, rfl⟩

theorem present_iff {nick : Str} {members : Set Str} :
    Present h nick members ↔ h.toLowercase nick ∈ h.toLowercase '' members := Iff.rfl

theorem makeBufferId_inj {connId name name' : Str} :
    makeBufferId h connId name = makeBufferId h connId name' ↔
      h.toLowercase name = h.toLowercase name' := by
  rw [makeBufferId, makeBufferId, List.append_cancel_left_eq, List.cons.injEq]
  exact and_iff_right rfl

/-! ### One message -/

variable {h} {s s' : State} {connId channel : Str} {members : Set Str}

theorem Tracks.shows (ht : Tracks h s connId channel members) (hshows : Shows s s') :
    Tracks h s' connId channel members := by
  rw [Tracks, hshows.roster]
  exact ht

/-- A write of the users of some buffers, which the channel's may be among. -/
theorem Tracks.write (ht : Tracks h s connId channel members) {here : Prop} [Decidable here]
    {g : Dict Str NickEntry → Dict Str NickEntry} {members' : Set Str}
    (hwrite : s'.roster (makeBufferId h connId channel) =
      if here then (s.roster (makeBufferId h connId channel)).map (State.onUsers g)
      else s.roster (makeBufferId h connId channel))
    (hhere : here → ∀ users, keySet users = h.toLowercase '' members →
      keySet (g users) = h.toLowercase '' members')
    (hthere : ¬ here → h.toLowercase '' members' = h.toLowercase '' members) :
    Tracks h s' connId channel members' := by
  obtain ⟨r, hr, hconn, hkind, hkeys⟩ := ht
  rw [hr] at hwrite
  by_cases hid : here
  · rw [if_pos hid] at hwrite
    exact ⟨_, hwrite, hconn, hkind, hhere hid _ hkeys⟩
  · rw [if_neg hid] at hwrite
    exact ⟨r, hwrite, hconn, hkind, hkeys.trans (hthere hid).symm⟩

theorem Tracks.addNick (ht : Tracks h s connId channel members) (entry : NickEntry) :
    Tracks h (s.addNick h (makeBufferId h connId channel) entry) connId channel
      (insert entry.nick members) := by
  refine ht.write (s.roster_addNick h _ entry _) (fun _ users hkeys => ?_)
    (fun hne => absurd rfl hne)
  rw [keySet_insert, hkeys, Set.image_insert_eq]

theorem Tracks.addNick_elsewhere (ht : Tracks h s connId channel members) {id : Str}
    (hid : id ≠ makeBufferId h connId channel) (entry : NickEntry) :
    Tracks h (s.addNick h id entry) connId channel members :=
  ht.write (s.roster_addNick h id entry _) (fun heq => absurd heq hid) (fun _ => rfl)

theorem Tracks.removeNick (ht : Tracks h s connId channel members) (nick : Str) :
    Tracks h (s.removeNick h (makeBufferId h connId channel) nick) connId channel
      (without h nick members) := by
  refine ht.write (s.roster_removeNick h _ nick _) (fun _ users hkeys => ?_)
    (fun hne => absurd rfl hne)
  rw [keySet_erase, hkeys, image_without]

theorem Tracks.removeNick_elsewhere (ht : Tracks h s connId channel members) {id : Str}
    (hid : id ≠ makeBufferId h connId channel) (nick : Str) :
    Tracks h (s.removeNick h id nick) connId channel members :=
  ht.write (s.roster_removeNick h id nick _) (fun heq => absurd heq hid) (fun _ => rfl)

/-- Whether the channel's buffer is among the buffers with a nick. -/
theorem Tracks.mem_buffersWith (ht : Tracks h s connId channel members) {p : Buffer → Bool}
    {nick : Str}
    (hp : ∀ b : Buffer, b.connectionId = connId → b.bufferType = .channel →
      p b = b.hasNick (h.toLowercase nick)) :
    makeBufferId h connId channel ∈ s.bufferIdsWhere p ↔ Present h nick members := by
  obtain ⟨r, hr, hconn, hkind, hkeys⟩ := ht
  obtain ⟨b, hb, rfl⟩ := Option.map_eq_some_iff.mp hr
  rw [State.mem_bufferIdsWhere, present_iff, ← hkeys]
  constructor
  · rintro ⟨b', hb', hp'⟩
    rw [hb, Option.some.injEq] at hb'
    subst hb'
    rw [hp b hconn hkind] at hp'
    exact hp'
  · intro hmem
    exact ⟨b, hb, (hp b hconn hkind).trans hmem⟩

theorem Tracks.quit (ht : Tracks h s connId channel members) (nick : Str) :
    Tracks h (s.removeNickFrom h (s.buffersWith h connId nick) nick) connId channel
      (without h nick members) := by
  have hmem : makeBufferId h connId channel ∈ s.buffersWith h connId nick ↔
      Present h nick members :=
    ht.mem_buffersWith (fun b hconn _ => by simp [hconn])
  refine ht.write (s.roster_removeNickFrom h (s.nodup_bufferIdsWhere _) nick _)
    (fun _ users hkeys => ?_) (fun habsent => ?_)
  · rw [keySet_erase, hkeys, image_without]
  · have hnot : h.toLowercase nick ∉ h.toLowercase '' members := mt hmem.mpr habsent
    rw [image_without, Set.sdiff_singleton_eq_self hnot]

/-- A nick change, before the queries are renamed. -/
theorem Tracks.nick (ht : Tracks h s connId channel members) {oldNick newNick : Str}
    {members' : Set Str}
    (hwrite : ∀ key, s'.roster key =
      if key ∈ s.buffersOfNick h connId oldNick then
        (s.roster key).map (State.onUsers (State.renameUser h oldNick newNick))
      else s.roster key)
    (hpresent : Present h oldNick members → members' = insert newNick (without h oldNick members))
    (habsent : ¬ Present h oldNick members → members' = members) :
    Tracks h s' connId channel members' := by
  have hmem : makeBufferId h connId channel ∈ s.buffersOfNick h connId oldNick ↔
      Present h oldNick members :=
    ht.mem_buffersWith (fun b hconn hkind => by simp [hconn, hkind])
  refine ht.write (hwrite _) (fun hhere users hkeys => ?_) (fun hthere => ?_)
  · rw [hpresent (hmem.mp hhere), keySet_renameUser, hkeys, Set.image_insert_eq, image_without]
    rw [hkeys]
    exact hmem.mp hhere
  · rw [habsent (mt hmem.mpr hthere)]

/-- The renaming of queries does not touch a channel of another name. -/
theorem Tracks.renameQueryBuffers (ht : Tracks h s connId channel members) {newNick : Str}
    (hname : h.toLowercase newNick ≠ h.toLowercase channel) (affected : List Str) :
    Tracks h (s.renameQueryBuffers h connId newNick affected) connId channel members := by
  obtain ⟨r, hr, hconn, hkind, hkeys⟩ := ht
  have hne : makeBufferId h connId newNick ≠ makeBufferId h connId channel :=
    mt (makeBufferId_inj h).mp hname
  exact ⟨r, s.roster_renameQueryBuffers h hr (by rw [hkind]; decide) hne affected, hconn, hkind,
    hkeys⟩

/-- **Step**: a legal message keeps the buffer in step with the members. -/
theorem tracks_handleIrcMessage {members' : Set Str} {msg : IrcMessage}
    (ht : Tracks h s connId channel members)
    (hlegal : Legal h (s.ourNick connId) channel members msg members') (a : Arrival) :
    ∃ s', s.handleIrcMessage h connId msg a = some s' ∧ Tracks h s' connId channel members' ∧
      s'.connections = s.connections := by
  rw [State.handleIrcMessage]
  cases hlegal with
  | @join target account realname hcmd hother hhere habsent =>
    simp only [hcmd]
    have hshows := s.shows_handleJoin h connId hother target account realname a.now
    rw [(makeBufferId_inj h).mpr hhere] at hshows
    exact ⟨_, rfl, (ht.addNick _).shows hshows, hshows.connections⟩
  | @joinElsewhere target account realname hcmd hother hthere =>
    simp only [hcmd]
    have hshows := s.shows_handleJoin h connId hother target account realname a.now
    exact ⟨_, rfl, (ht.addNick_elsewhere (mt (makeBufferId_inj h).mp hthere) _).shows hshows,
      hshows.connections⟩
  | @part target reason hcmd hother hhere hpresent =>
    simp only [hcmd]
    have hshows := s.shows_handlePart h connId hother target reason
    rw [(makeBufferId_inj h).mpr hhere] at hshows
    exact ⟨_, rfl, (ht.removeNick _).shows hshows, hshows.connections⟩
  | @partElsewhere target reason hcmd hother hthere =>
    simp only [hcmd]
    have hshows := s.shows_handlePart h connId hother target reason
    exact ⟨_, rfl, (ht.removeNick_elsewhere (mt (makeBufferId_inj h).mp hthere) _).shows hshows,
      hshows.connections⟩
  | @kick target kickedUser reason hcmd hother hhere hpresent =>
    simp only [hcmd]
    have hshows := s.shows_handleKick h connId msg hother target reason
    rw [(makeBufferId_inj h).mpr hhere] at hshows
    exact ⟨_, rfl, (ht.removeNick _).shows hshows, hshows.connections⟩
  | @kickElsewhere target kickedUser reason hcmd hother hthere =>
    simp only [hcmd]
    have hshows := s.shows_handleKick h connId msg hother target reason
    exact ⟨_, rfl, (ht.removeNick_elsewhere (mt (makeBufferId_inj h).mp hthere) _).shows hshows,
      hshows.connections⟩
  | @quit reason hcmd hother =>
    simp only [hcmd]
    have hshows := s.shows_handleQuit h connId msg reason a.now
    refine ⟨_, rfl, (ht.quit _).shows hshows, hshows.connections.trans ?_⟩
    exact s.connections_foldl (w := fun s id => s.removeNick h id (senderNick msg))
      (fun _ _ => rfl) _
  | @nick newNick hcmd hother hpresent hunused hname =>
    simp only [hcmd]
    obtain ⟨t, hconns, hwrite, heq⟩ :=
      s.handleNickChange_eq h connId hother newNick a.now
    rw [heq]
    refine ⟨_, rfl, Tracks.renameQueryBuffers ?_ hname _,
      (t.connections_renameQueryBuffers h _ _ _).trans hconns⟩
    exact ht.nick hwrite (fun _ => rfl) (fun habsent => absurd hpresent habsent)
  | @nickElsewhere newNick hcmd hother habsent hname =>
    simp only [hcmd]
    obtain ⟨t, hconns, hwrite, heq⟩ :=
      s.handleNickChange_eq h connId hother newNick a.now
    rw [heq]
    refine ⟨_, rfl, Tracks.renameQueryBuffers ?_ hname _,
      (t.connections_renameQueryBuffers h _ _ _).trans hconns⟩
    exact ht.nick hwrite (fun hpresent => absurd hpresent habsent) (fun _ => rfl)

/-! ### Runs -/

/-- A message with what a script hides of it and its surroundings. -/
abbrev Received := IrcMessage × Bool × Arrival

def Received.op (connId : Str) (m : Received) : Op := .irc connId m.1 m.2.1 m.2.2

theorem ourNick_eq (hconns : s'.connections = s.connections) (connId : Str) :
    s'.ourNick connId = s.ourNick connId := by
  rw [State.ourNick, State.ourNick, State.connection?, State.connection?, hconns]

theorem tracks_step {members' : Set Str} {m : Received} (ht : Tracks h s connId channel members)
    (hlegal : Legal h (s.ourNick connId) channel members m.1 members') :
    ∃ s', step h s (m.op connId) = some s' ∧ Tracks h s' connId channel members' ∧
      s'.connections = s.connections := by
  obtain ⟨msg, hidden, a⟩ := m
  have hhides : ∀ (t : State) hide, Shows t { t with suppressEventDisplay := hide } :=
    fun t hide => ⟨rfl, rfl⟩
  obtain ⟨t, hhandled, htracks, hconns⟩ :=
    tracks_handleIrcMessage (ht.shows (hhides s hidden)) hlegal a
  exact ⟨{ t with suppressEventDisplay := false },
    congrArg (Option.map _) hhandled, htracks.shows (hhides t false), hconns⟩

variable (h)

/-- **Nicklist replay**: over any legal messages of other users, whatever is ignored, suppressed or
hidden, the users of the buffer are the members of the channel. -/
theorem nicklist_replay {members' : Set Str} {msgs : List Received}
    (ht : Tracks h s connId channel members)
    (hlegal : LegalRun h (s.ourNick connId) channel members (msgs.map Prod.fst) members') :
    ∃ s', run h s (msgs.map (Received.op connId)) = some s' ∧
      Tracks h s' connId channel members' := by
  induction msgs generalizing s members with
  | nil =>
    cases hlegal
    exact ⟨s, rfl, ht⟩
  | cons m msgs ih =>
    cases hlegal with
    | cons hmsg hmsgs =>
      obtain ⟨s₁, hs₁, ht₁, hconns⟩ := tracks_step ht hmsg
      rw [← ourNick_eq hconns connId] at hmsgs
      obtain ⟨s', hrun, ht'⟩ := ih ht₁ hmsgs
      exact ⟨s', by rw [List.map_cons, run, hs₁]; exact hrun, ht'⟩

/-! ### Joining -/

/-- How a server marks the modes of a name, and whether it adds the host. -/
def namesFormat (s : State) (connId : Str) : List (Char × Char) × Bool :=
  match s.connection? connId with
  | none => ([('o', '@'), ('v', '+')], false)
  | some c => (Isupport.prefixMap c.isupport, c.enabledCaps.contains (str "userhost-in-names"))

/-- The nicks of a list of names. -/
def listedNicks (s : State) (connId names : Str) : List Str :=
  (Text.splitWhitespace names).map (fun raw =>
    (State.parseNamesEntry (namesFormat s connId).1 (namesFormat s connId).2 raw).nick)

/-- Our own JOIN opens the buffer of the channel without users. -/
theorem tracks_join {msg : IrcMessage} {account realname : Option Str}
    (hcmd : msg.command = .join channel account realname)
    (hown : senderNick msg = s.ourNick connId)
    (hfresh : ∀ r, s.roster (makeBufferId h connId channel) = some r →
      r.connectionId = connId ∧ r.bufferType = .channel ∧ r.users.rows = []) (a : Arrival) :
    ∃ s', s.handleIrcMessage h connId msg a = some s' ∧ Tracks h s' connId channel ∅ := by
  have hnone : (s.buffer? (makeBufferId h connId channel)).any (fun b => !b.users.rows.isEmpty) =
      false := by
    cases hb : s.buffer? (makeBufferId h connId channel) with
    | none => rfl
    | some b =>
      have hrows := (hfresh b.roster (by rw [State.roster, hb]; rfl)).2.2
      rw [Option.any_some, show b.users.rows = [] from hrows]
      rfl
  have hopened : Tracks h (s.openChannel h connId channel) connId channel ∅ := by
    have hlookup := s.buffer?_openChannel h connId channel (makeBufferId h connId channel)
    rw [if_pos rfl] at hlookup
    rw [Tracks, State.roster, hlookup]
    have hempty : keySet (Table.empty : Dict Str NickEntry) = h.toLowercase '' ∅ := by
      rw [keySet_empty, Set.image_empty]
    cases hb : s.buffer? (makeBufferId h connId channel) with
    | none => exact ⟨_, rfl, rfl, rfl, hempty⟩
    | some b =>
      obtain ⟨hconn, hkind, -⟩ := hfresh b.roster (by rw [State.roster, hb]; rfl)
      exact ⟨_, rfl, hconn, hkind, hempty⟩
  rw [State.handleIrcMessage, hcmd]
  refine ⟨_, rfl, ?_⟩
  rw [State.handleJoin]
  rw [senderNick] at hown
  generalize extractNickUserhost msg.sender = sender at hown ⊢
  obtain ⟨nick, ident, host⟩ := sender
  simp only at hown ⊢
  rw [if_neg (fun hignored => hignored.1 hown), if_pos hown, if_neg (by rw [hnone]; decide)]
  exact hopened.shows (State.shows_event h _ _ _)

/-- The names of a channel become users of its buffer. -/
theorem tracks_names {msg : IrcMessage} {client symbol names : Str} {rest : List Str}
    (hcmd : msg.command = .numeric 353 (client :: symbol :: channel :: names :: rest))
    (ht : Tracks h s connId channel members) (a : Arrival) :
    ∃ s', s.handleIrcMessage h connId msg a = some s' ∧
      Tracks h s' connId channel (members ∪ {nick | nick ∈ listedNicks s connId names}) := by
  rw [State.handleIrcMessage, hcmd]
  refine ⟨_, rfl, ?_⟩
  have hfold : ∀ (raws : List Str) (t : State) (members : Set Str) (f : Str → NickEntry),
      Tracks h t connId channel members →
      Tracks h (raws.foldl (fun t raw =>
          t.addNick h (makeBufferId h connId channel) (f raw)) t) connId channel
        (members ∪ {nick | nick ∈ raws.map (fun raw => (f raw).nick)}) := by
    intro raws
    induction raws with
    | nil =>
      intro t members f ht
      simpa using ht
    | cons raw raws ih =>
      intro t members f ht
      have hrest := ih _ _ f (ht.addNick (f raw))
      refine (congrArg (Tracks h _ connId channel) ?_).mp hrest
      ext nick
      simp only [Set.mem_union, Set.mem_insert_iff, Set.mem_ofPred_eq, List.map_cons,
        List.mem_cons]
      rw [or_assoc, or_left_comm]
  exact hfold (Text.splitWhitespace names) s members
    (State.parseNamesEntry (namesFormat s connId).1 (namesFormat s connId).2) ht

/-- A channel that we are alone in. -/
def sampleChannel : State :=
  { sampleStart with
    connections := Dict.insert Table.empty (str "net")
      ⟨str "net", str "me", Table.empty, [], [], []⟩
    buffers := Dict.insert Table.empty (str "net/#c")
      { freshBuffer sampleHost (str "net") .channel (str "#c") with
        users := Dict.insert Table.empty (str "me") (joinedEntry (str "me") none) } }

/-- bob joins the channel and changes the case of his nick, which a script hides. -/
def sampleVisit : List Received :=
  [(sampleMessage (str "bob") (.join (str "#C") none none), false, ⟨0, none, none, false⟩),
    (sampleMessage (str "bob") (.nick (str "Bob")), true, ⟨1, none, none, false⟩)]

theorem nicklist_replay_sample : ∃ s',
    run sampleHost sampleChannel (sampleVisit.map (Received.op (str "net"))) = some s' ∧
    Tracks sampleHost s' (str "net") (str "#c")
      (insert (str "Bob") (without sampleHost (str "bob") (insert (str "bob") {str "me"}))) := by
  refine nicklist_replay sampleHost
    ⟨⟨str "net", .channel, str "#c",
      Dict.insert Table.empty (str "me") (joinedEntry (str "me") none)⟩, rfl, rfl, rfl, ?_⟩
    (.cons (.join rfl (by decide) (by decide) ?_)
      (.cons (.nick rfl (by decide) ⟨str "bob", .inl rfl, rfl⟩ ?_ (by decide)) (.nil _)))
  · rw [keySet_insert, keySet_empty, Set.image_singleton, insert_empty_eq]
    rfl
  · rintro ⟨m, rfl, heq⟩
    exact absurd heq (by decide)
  · rintro ⟨m, ⟨_, hne⟩, heq⟩
    exact hne heq

end Store

end Repartee
