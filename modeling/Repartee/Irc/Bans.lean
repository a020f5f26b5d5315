import Repartee.Irc.Unban
import Repartee.Lib.Mirror

/-!
# The ban list of a channel

MODE changes and `RPL_BANLIST` keep the stored bans (`irc/events.rs`), `/ban` without arguments and
the queries behind a JOIN make room for a new list, and our own JOIN sets the buffer back. The
stored list mirrors the bans of the server, and its numbers are those of `/unban`.

## Main definitions

- `BanMessage`, `ChannelBuffer.banStep`: what reaches a channel about its bans
- `BanMessage.change`: what a message says about the set of bans
- `BansMirror`: the stored list mirrors the set

## Main results

- `bansMirror_run`: it does after every run
-/

set_option autoImplicit false

namespace Repartee

namespace Store

open Mirror (Change IsSet Within)
open State (isNickMode)

/-! ### The code -/

/-- What reaches the buffer of a channel about its bans. -/
inductive BanMessage where
  /-- A mode of a MODE command. -/
  | mode (setBy : Str) (now : Int) (change : ModeChange)
  /-- `RPL_CHANNELMODEIS` -/
  | channelModeIs (args : List Str)
  /-- `RPL_BANLIST`, and whether the channel is in `silent_banlist_channels` -/
  | banList (silent : Bool) (args : List Str)
  /-- `/ban` without arguments, or the query behind a JOIN -/
  | request
  /-- Our own JOIN, after a disconnect has taken the users out of the buffer. -/
  | rejoin

namespace ChannelBuffer

variable (b : ChannelBuffer)

/-- What `upsert_list_mode_entry` returns. -/
def listModeIndex (modeKey : Char) (mask setBy : Str) (setAt : Int) : Nat :=
  let entries := (b.listModes.lookup modeKey).getD []
  let same (entry : ListEntry) : Bool := eqIgnoreAsciiCase entry.mask mask
  if entries.any same then entries.findIdx same + 1
  else
    let all := entries ++ [⟨mask, setBy, setAt⟩]
    (all.drop (all.length - maxListModeEntries)).length

/-- `set_at` of `RPL_BANLIST` -/
def banSetAt (args : List Str) : Int :=
  ((args[4]?).bind (fun s => (Text.parseInt (-2 ^ 63) (2 ^ 63 - 1) s).toOption)).getD 0

/-- `RPL_BANLIST`: the buffer, and the number and the mask that are shown. -/
def banList (silent : Bool) (args : List Str) : ChannelBuffer × Option (Nat × Str) :=
  match args with
  | _ :: _ :: mask :: _ =>
    let setBy := (args[3]?).getD []
    let setAt := banSetAt args
    let index := b.listModeIndex banModeKey mask setBy setAt
    (b.upsertListModeEntry banModeKey mask setBy setAt,
      if silent then none else some (index, mask))
  | _ => (b, none)

/-- The reset of a buffer that our own JOIN finds without users. -/
def resetOnJoin : ChannelBuffer :=
  { b with
    users := Table.empty
    lastSpeakers := []
    topic := none
    modes := none
    modeParams := none
    listModes := Table.empty }

/-- A buffer takes in a message. -/
def banStep (h : Host) (b : ChannelBuffer) : BanMessage → ChannelBuffer
  | .mode setBy now change => b.applyChannelMode h change setBy now
  | .channelModeIs args => b.channelModeIs args
  | .banList silent args => (b.banList silent args).1
  | .request => { b with listModes := b.listModes.erase banModeKey }
  | .rejoin => b.resetOnJoin

/-- The stored bans. -/
def bans : List ListEntry := (b.listModes.lookup banModeKey).getD []

/-- A mask is stored, in some casing. -/
def HasBan (mask : Str) : Prop := ∃ entry ∈ b.bans, eqIgnoreAsciiCase entry.mask mask = true

end ChannelBuffer

/-! ### What the server says -/

/-- A mask without its casing. -/
def maskKey (mask : Str) : Str := mask.map Char.toLower

/-- What a message says about the set of bans. -/
def BanMessage.change : BanMessage → Change Str
  | .mode _ _ ⟨some true, letter, some mask⟩ =>
    if letter = banModeKey then .add (maskKey mask) else .other
  | .mode _ _ ⟨some false, letter, some mask⟩ =>
    if letter = banModeKey then .remove (maskKey mask) else .other
  | .banList _ (_ :: _ :: mask :: _) => .add (maskKey mask)
  | .request => .clear
  | .rejoin => .clear
  | _ => .other

/-- A channel after our JOIN and some messages. -/
def bansAfter (h : Host) (b : Buffer) (ms : List BanMessage) : ChannelBuffer :=
  Run.run (ChannelBuffer.banStep h) (.joined b) ms

/-- A mask came into the list before another one, and has been there since. -/
def CameBefore (h : Host) (b : Buffer) (ms : List BanMessage) (mask mask' : Str) : Prop :=
  ∃ pre post, ms = pre ++ post ∧ ¬ (bansAfter h b pre).HasBan mask' ∧
    ∀ p, p <+: post → (bansAfter h b (pre ++ p)).HasBan mask

/-- The stored bans after some messages mirror those that the server has set. -/
structure BansMirror (h : Host) (b : Buffer) (ms : List BanMessage) : Prop where
  distinct : (bansAfter h b ms).bans.Pairwise
    (fun e e' => eqIgnoreAsciiCase e.mask e'.mask = false)
  atMost : (bansAfter h b ms).bans.length ≤ maxListModeEntries
  inOrder : (bansAfter h b ms).bans.Pairwise (fun e e' => CameBefore h b ms e.mask e'.mask)
  /-- The last message about a mask added it. -/
  hasBan_iff : Within maxListModeEntries (ms.map BanMessage.change) → ∀ mask,
    (bansAfter h b ms).HasBan mask ↔ IsSet (ms.map BanMessage.change) (maskKey mask)
  /-- As long as no ban is taken out, `/unban` with a number that was shown takes the ban that it
  was shown for. -/
  numbered : Within maxListModeEntries (ms.map BanMessage.change) →
    ∀ {pre post silent args n mask}, ms = pre ++ .banList silent args :: post →
      ((bansAfter h b pre).banList silent args).2 = some (n, mask) →
      (∀ m ∈ post, ∀ k, m.change.drops k = false) →
      ∀ ctx : UnsetContext, ctx.connected = true → ctx.channel = some (bansAfter h b ms) →
        ∃ mask', eqIgnoreAsciiCase mask' mask = true ∧ ∀ cmdName,
          ctx.listModeUnsetSmart [fmtNat n] banModeKey cmdName =
            ([], [[(bansAfter h b ms).name, str "-b", mask']])

/-! ### One message -/

section OneMessage

variable {b : ChannelBuffer}

theorem eqIgnoreAsciiCase_iff {s s' : Str} :
    eqIgnoreAsciiCase s s' = true ↔ maskKey s = maskKey s' := decide_eq_true_iff

namespace ChannelBuffer

/-- The masks without their casing. -/
def banKeys (b : ChannelBuffer) : List Str := b.bans.map (fun e => maskKey e.mask)

theorem hasBan_iff_mem_banKeys {mask : Str} : b.HasBan mask ↔ maskKey mask ∈ b.banKeys := by
  rw [HasBan, banKeys, List.mem_map]
  simp only [eqIgnoreAsciiCase_iff]

theorem any_same_iff {mask : Str} :
    b.bans.any (fun e => eqIgnoreAsciiCase e.mask mask) = true ↔ maskKey mask ∈ b.banKeys := by
  rw [List.any_eq_true, ← hasBan_iff_mem_banKeys]
  rfl

theorem bans_upsert (mask setBy : Str) (setAt : Int) :
    (b.upsertListModeEntry banModeKey mask setBy setAt).bans =
      let same (e : ListEntry) : Bool := eqIgnoreAsciiCase e.mask mask
      if b.bans.any same then
        b.bans.modify (b.bans.findIdx same) (fun e => { e with setBy := setBy, setAt := setAt })
      else Mirror.newest maxListModeEntries (b.bans ++ [⟨mask, setBy, setAt⟩]) := by
  rw [upsertListModeEntry, bans, Dict.lookup_insert, if_pos rfl, Option.getD_some]
  rfl

theorem banKeys_upsert (mask setBy : Str) (setAt : Int) :
    (b.upsertListModeEntry banModeKey mask setBy setAt).banKeys =
      Mirror.step maxListModeEntries b.banKeys (.add (maskKey mask)) := by
  rw [banKeys, bans_upsert, Mirror.step]
  dsimp only
  by_cases hmem : maskKey mask ∈ b.banKeys
  · rw [if_pos ((any_same_iff).mpr hmem), if_pos hmem, banKeys]
    refine List.ext_getElem (by simp) (fun i hi hi' => ?_)
    rw [List.getElem_map, List.getElem_map, List.getElem_modify]
    split_ifs <;> rfl
  · rw [if_neg (fun h => hmem ((any_same_iff).mp h)), if_neg hmem, Mirror.newest, Mirror.newest,
      List.map_drop, List.map_append, List.length_append, List.length_append, banKeys,
      List.length_map]
    rfl

theorem banKeys_remove (mask : Str) :
    (b.removeListModeEntry banModeKey mask).banKeys =
      Mirror.step maxListModeEntries b.banKeys (.remove (maskKey mask)) := by
  have hfilter : (b.bans.filter (fun e => !eqIgnoreAsciiCase e.mask mask)).map
      (fun e => maskKey e.mask) = b.banKeys.filter (fun k => k ≠ maskKey mask) := by
    rw [banKeys, List.filter_map]
    congr 2
    funext e
    exact decide_not.symm
  rw [Mirror.step, ← hfilter]
  unfold removeListModeEntry
  rw [banKeys]
  congr 1
  cases hlookup : b.listModes.lookup banModeKey with
  | none =>
    have hbans : b.bans = [] := by rw [bans, hlookup, Option.getD_none]
    dsimp only
    rw [hbans]
    rfl
  | some entries =>
    have hbans : b.bans = entries := by rw [bans, hlookup, Option.getD_some]
    dsimp only
    rw [hbans]
    split_ifs with hkept
    · rw [bans, Dict.lookup_erase, if_pos rfl, hkept]
      rfl
    · rw [bans, Dict.lookup_insert, if_pos rfl]
      rfl

theorem banKeys_request :
    ({ b with listModes := b.listModes.erase banModeKey } : ChannelBuffer).banKeys = [] := by
  rw [banKeys, bans, Dict.lookup_erase, if_pos rfl]
  rfl

/-- A mode of another letter, or one without a mask, is no business of the bans. -/
theorem listModes_applyChannelMode (h : Host) {mode : ModeChange} (setBy : Str) (now : Int)
    (hmode : mode.adding = none ∨ mode.letter ≠ banModeKey ∨ mode.param = none) :
    (b.applyChannelMode h mode setBy now).listModes = b.listModes := by
  unfold applyChannelMode
  cases hadding : mode.adding with
  | none => rfl
  | some adding =>
    have hrest := hmode.resolve_left (hadding ▸ Option.some_ne_none adding)
    dsimp only
    by_cases hnick : isNickMode mode.letter = true
    · rw [if_pos hnick]
      cases mode.param <;> rfl
    rw [if_neg hnick]
    by_cases hban : mode.letter = banModeKey
    · rw [if_pos hban, hrest.resolve_left (fun hne => hne hban)]
    · rw [if_neg hban]
      split_ifs
      · rfl
      · cases adding <;> rfl

/-- A message does to the stored bans what it says about the set. -/
theorem banKeys_banStep (h : Host) (m : BanMessage) :
    (b.banStep h m).banKeys = Mirror.step maxListModeEntries b.banKeys m.change := by
  have hsame : ∀ b' : ChannelBuffer, b'.listModes = b.listModes → b'.banKeys = b.banKeys := by
    intro b' hlists
    rw [banKeys, bans, hlists]
    rfl
  cases m with
  | mode setBy now change =>
    obtain ⟨adding, letter, param⟩ := change
    by_cases hban : letter = banModeKey
    · subst hban
      cases adding with
      | none => exact hsame _ (b.listModes_applyChannelMode h setBy now (.inl rfl))
      | some adding =>
        cases param with
        | none =>
          rw [banStep, hsame _ (b.listModes_applyChannelMode h setBy now (.inr (.inr rfl)))]
          cases adding <;> rfl
        | some mask =>
          cases adding with
          | true => exact b.banKeys_upsert mask setBy now
          | false => exact b.banKeys_remove mask
    · rw [banStep, hsame _ (b.listModes_applyChannelMode h setBy now (.inr (.inl hban)))]
      have hchange : (BanMessage.mode setBy now ⟨adding, letter, param⟩).change = .other := by
        rcases adding with _ | (_ | _) <;> rcases param with _ | mask
        all_goals first | rfl | exact if_neg hban
      rw [hchange]
      rfl
  | channelModeIs args =>
    refine hsame _ ?_
    match args with
    | _ :: _ :: modes :: args => rfl
    | [] | [_] | [_, _] => rfl
  | banList silent args =>
    match args with
    | _ :: _ :: mask :: rest => exact b.banKeys_upsert mask _ _
    | [] | [_] | [_, _] => rfl
  | request => exact b.banKeys_request
  | rejoin => rfl

/-- `upsert_list_mode_entry` returns the place of the mask. -/
theorem getElem?_listModeIndex (mask setBy : Str) (setAt : Int) :
    0 < b.listModeIndex banModeKey mask setBy setAt ∧
      (Mirror.step maxListModeEntries b.banKeys (.add (maskKey mask)))[
        b.listModeIndex banModeKey mask setBy setAt - 1]? = some (maskKey mask) := by
  have hindex : b.listModeIndex banModeKey mask setBy setAt =
      if b.bans.any (fun e => eqIgnoreAsciiCase e.mask mask) then
        b.bans.findIdx (fun e => eqIgnoreAsciiCase e.mask mask) + 1
      else (Mirror.newest maxListModeEntries (b.bans ++ [⟨mask, setBy, setAt⟩])).length := rfl
  rw [hindex, Mirror.step]
  by_cases hany : b.bans.any (fun e => eqIgnoreAsciiCase e.mask mask) = true
  · rw [if_pos hany, if_pos ((any_same_iff).mp hany), Nat.add_sub_cancel, banKeys,
      List.getElem?_map]
    have hlt := List.findIdx_lt_length_of_exists (List.any_eq_true.mp hany)
    have hfound := List.findIdx_getElem (w := hlt)
    rw [List.getElem?_eq_getElem hlt, Option.map_some, ← (eqIgnoreAsciiCase_iff).mp hfound]
    exact ⟨Nat.succ_pos _, rfl⟩
  · -- a new mask comes last
    rw [if_neg hany, if_neg (fun hmem => hany ((any_same_iff).mpr hmem))]
    have hlen : b.banKeys.length = b.bans.length := List.length_map _
    have hpos : 0 < maxListModeEntries := Nat.succ_pos _
    have hone : [(⟨mask, setBy, setAt⟩ : ListEntry)].length = 1 := rfl
    have hdrop : (b.banKeys.drop (b.banKeys.length + 1 - maxListModeEntries)).length =
        (b.bans.drop (b.bans.length + 1 - maxListModeEntries)).length := by
      rw [List.length_drop, List.length_drop, hlen]
    rw [Mirror.newest_concat hpos, Mirror.newest_concat hpos, List.length_append, hone,
      Nat.add_sub_cancel, ← hdrop, List.getElem?_append_right (Nat.le_refl _), Nat.sub_self]
    exact ⟨Nat.succ_pos _, rfl⟩

end ChannelBuffer

end OneMessage

/-! ### All messages -/

section Run

variable (h : Host) (b : Buffer) (ms : List BanMessage)

theorem bansAfter_concat (m : BanMessage) :
    bansAfter h b (ms ++ [m]) = (bansAfter h b ms).banStep h m := Run.run_append _ ms [m]

/-- The stored bans are the mirror of what the messages say. -/
theorem banKeys_bansAfter : (bansAfter h b ms).banKeys =
    Run.run (Mirror.step maxListModeEntries) [] (ms.map BanMessage.change) := by
  induction ms using List.reverseRecOn with
  | nil => rfl
  | append_singleton ms m ih =>
    rw [bansAfter_concat, ChannelBuffer.banKeys_banStep, ih, List.map_append, List.map_singleton,
      Mirror.run_concat]

theorem distinct_bansAfter : (bansAfter h b ms).bans.Pairwise
    (fun e e' => eqIgnoreAsciiCase e.mask e'.mask = false) := by
  have hnodup := Mirror.nodup_run (ms.map BanMessage.change) maxListModeEntries
  rw [← banKeys_bansAfter h b, ChannelBuffer.banKeys, List.Nodup, List.pairwise_map] at hnodup
  exact hnodup.imp (fun hne => decide_eq_false hne)

theorem length_bansAfter_le : (bansAfter h b ms).bans.length ≤ maxListModeEntries := by
  have hle := Mirror.length_run_le (ms.map BanMessage.change) maxListModeEntries
  rwa [← banKeys_bansAfter h b, ChannelBuffer.banKeys, List.length_map] at hle

theorem inOrder_bansAfter : (bansAfter h b ms).bans.Pairwise
    (fun e e' => CameBefore h b ms e.mask e'.mask) := by
  have horder := Mirror.insertedBefore_run (ms.map BanMessage.change)
    (show 0 < maxListModeEntries from Nat.succ_pos _)
  rw [← banKeys_bansAfter h b, ChannelBuffer.banKeys, List.pairwise_map] at horder
  refine horder.imp (fun {e e'} hbefore => ?_)
  obtain ⟨pre, post, hsplit, hfresh, hstays⟩ := hbefore
  obtain ⟨pre, post, rfl, rfl, rfl⟩ := List.map_eq_append_iff.mp hsplit
  refine ⟨pre, post, rfl, ?_, fun p hp => ?_⟩
  · rw [ChannelBuffer.hasBan_iff_mem_banKeys, banKeys_bansAfter]
    exact hfresh
  · rw [ChannelBuffer.hasBan_iff_mem_banKeys, banKeys_bansAfter, List.map_append]
    exact hstays _ (hp.map _)

/-- Within the limit, and as long as no ban is taken out, a mask keeps its number. -/
theorem getElem?_banKeys_of_shown {pre post : List BanMessage} {silent : Bool} {args : List Str}
    {n : Nat} {mask : Str}
    (hshown : ((bansAfter h b pre).banList silent args).2 = some (n, mask))
    (hwithin : Within maxListModeEntries
      ((pre ++ .banList silent args :: post).map BanMessage.change))
    (hgrows : ∀ m ∈ post, ∀ k, m.change.drops k = false) :
    0 < n ∧ (bansAfter h b (pre ++ .banList silent args :: post)).banKeys[n - 1]? =
      some (maskKey mask) := by
  match args with
  | [] | [_] | [_, _] => exact nomatch hshown
  | a :: a' :: mask' :: rest =>
    have hshow : ((bansAfter h b pre).listModeIndex banModeKey mask'
        (((a :: a' :: mask' :: rest)[3]?).getD [])
        (ChannelBuffer.banSetAt (a :: a' :: mask' :: rest)), mask') = (n, mask) := by
      cases silent with
      | true => exact nomatch hshown
      | false => exact Option.some.inj hshown
    obtain ⟨rfl, rfl⟩ := Prod.mk.inj hshow
    obtain ⟨hpos, hplace⟩ := (bansAfter h b pre).getElem?_listModeIndex mask'
      (((a :: a' :: mask' :: rest)[3]?).getD [])
      (ChannelBuffer.banSetAt (a :: a' :: mask' :: rest))
    refine ⟨hpos, ?_⟩
    -- the list after the reply is the beginning of the later one
    have hreply : (bansAfter h b (pre ++ [.banList silent (a :: a' :: mask' :: rest)])).banKeys =
        Mirror.step maxListModeEntries (bansAfter h b pre).banKeys (.add (maskKey mask')) := by
      rw [bansAfter_concat, ChannelBuffer.banKeys_banStep]
      rfl
    rw [← hreply, banKeys_bansAfter] at hplace
    rw [List.append_cons, List.map_append] at hwithin
    have hprefix := Mirror.run_prefix_of_grows _ hwithin (fun c hc => by
      obtain ⟨m, hm, rfl⟩ := List.mem_map.mp hc
      exact hgrows m hm)
    rw [List.append_cons, banKeys_bansAfter, List.map_append]
    obtain ⟨later, hlater⟩ := hprefix
    obtain ⟨hlt, -⟩ := List.getElem?_eq_some_iff.mp hplace
    rw [← hlater, List.getElem?_append_left hlt]
    exact hplace

end Run

/-- An unban command with the number of an entry takes that entry. -/
theorem UnsetContext.listModeUnsetSmart_number (ctx : UnsetContext) {c : ChannelBuffer}
    (hconnected : ctx.connected = true) (hchannel : ctx.channel = some c) {n : Nat} {e : ListEntry}
    (hn : 0 < n) (he : c.bans[n - 1]? = some e) (hlength : c.bans.length ≤ maxListModeEntries)
    (cmdName : Str) :
    ctx.listModeUnsetSmart [fmtNat n] banModeKey cmdName = ([], [[c.name, str "-b", e.mask]]) := by
  obtain ⟨hlt, hget⟩ := List.getElem?_eq_some_iff.mp he
  have hle : n ≤ c.bans.length := by omega
  have hparse : parseUsize (fmtNat n) = some n := by
    have hmax : n ≤ 500 := Nat.le_trans hle hlength
    have hint : Text.parseInt 0 (2 ^ 64 - 1) (Text.formatInt (n : Int)) = .ok (n : Int) :=
      Text.parseInt_formatInt (by omega) (by omega) (by omega) (by omega)
    rw [parseUsize, fmtNat, hint]
    rfl
  have hactive : ctx.active = some c := (Option.filter_eq_some_iff.mp hchannel).1
  have hentries : ctx.entries banModeKey = c.bans := by
    rw [entries, hactive]
    rfl
  have hargs : ctx.resolveArgs c.bans cmdName [fmtNat n] = ([], [e.mask]) := by
    rw [resolveArgs, resolveArg, hparse]
    dsimp only
    rw [if_pos ⟨hn, hle⟩, he]
    rfl
  have hchunks : [e.mask].toChunks (max ctx.maxModesPerCommand 1) = [[e.mask]] :=
    List.toChunks_of_le (List.cons_ne_nil _ _) (Nat.le_max_right _ 1)
  rw [listModeUnsetSmart, if_neg (List.cons_ne_nil _ _), if_neg (by simp [hconnected]), hchannel]
  dsimp only
  rw [hentries, hargs]
  dsimp only
  rw [listModeCommandArgs, if_neg (List.cons_ne_nil _ _), hchunks]
  rfl

/-- **The stored bans mirror those of the server** after all messages, in any order. -/
theorem bansMirror_run (h : Host) (b : Buffer) (ms : List BanMessage) : BansMirror h b ms where
  distinct := distinct_bansAfter h b ms
  atMost := length_bansAfter_le h b ms
  inOrder := inOrder_bansAfter h b ms
  hasBan_iff hwithin mask := by
    rw [ChannelBuffer.hasBan_iff_mem_banKeys, banKeys_bansAfter]
    exact Mirror.mem_run_iff _ hwithin _
  numbered hwithin pre post silent args n mask hms hshown hgrows ctx hconnected hchannel := by
    subst hms
    obtain ⟨hn, hplace⟩ := getElem?_banKeys_of_shown h b hshown hwithin hgrows
    rw [ChannelBuffer.banKeys, List.getElem?_map] at hplace
    obtain ⟨e, he, hkey⟩ := Option.map_eq_some_iff.mp hplace
    refine ⟨e.mask, eqIgnoreAsciiCase_iff.mpr hkey, fun cmdName => ?_⟩
    exact ctx.listModeUnsetSmart_number hconnected hchannel hn he (length_bansAfter_le h b _)
      cmdName

end Store

end Repartee
