import Repartee.State.Session
import Repartee.Lib.Run

/-!
# Channel modes

`apply_channel_mode` and the answer `RPL_CHANNELMODEIS` of `irc/events.rs`, beside what the server
says with them. The two read parameters differently: a MODE change comes with its own, and an
answer lists them behind the letters, one for each letter that takes one. The code hands them out
to `k` and `l` alone.

## Main definitions

- `ChannelBuffer`: a buffer with its modes, their parameters and its mode lists
- `SetModes`, `ServerModes.told`: the modes that are set, and what a message says about them
- `ChannelBuffer.Tracks`: the buffer shows the modes that are set

## Main results

- `ChannelBuffer.tracks_step_iff`: when a message leaves the buffer right
- `ChannelBuffer.tracks_run_iff`: the runs in which the buffer is right all the way
-/

set_option autoImplicit false

namespace Repartee

namespace Store

open State (isNickMode)

/-! ### The code -/

structure ListEntry where
  mask : Str
  setBy : Str
  setAt : Int
  deriving DecidableEq

/-- A buffer with the fields that channel modes are kept in. -/
structure ChannelBuffer extends Buffer where
  modes : Option Str
  modeParams : Option (Dict Char Str)
  listModes : Dict Char (List ListEntry)

def maxListModeEntries : Nat := 500

def banModeKey : Char := 'b'

/-- The modes that are lists of masks, bans apart. -/
def isListMode (letter : Char) : Bool := ['e', 'I', 'R'].contains letter

/-- The modes whose parameter is shown. -/
def isKeyOrLimit (letter : Char) : Bool := letter = 'k' || letter = 'l'

/-- `strip_prefix('+')`, or the text itself. -/
def stripPlus : Str → Str
  | '+' :: rest => rest
  | modes => modes

/-- The parameters behind a mode string, handed out to the letters `k` and `l`. -/
def snapshotParams : Str → List Str → Dict Char Str → Dict Char Str
  | [], _, params => params
  | ch :: letters, args, params =>
    if isKeyOrLimit ch then
      match args with
      | [] => snapshotParams letters [] params
      | val :: args => snapshotParams letters args (params.insert ch val)
    else snapshotParams letters args params

namespace ChannelBuffer

/-- A channel that has just been joined. -/
def joined (b : Buffer) : ChannelBuffer where
  toBuffer := b
  modes := none
  modeParams := none
  listModes := Table.empty

variable (b : ChannelBuffer)

/-- `upsert_list_mode_entry` -/
def upsertListModeEntry (modeKey : Char) (mask setBy : Str) (setAt : Int) : ChannelBuffer :=
  let entries := (b.listModes.lookup modeKey).getD []
  let same (entry : ListEntry) : Bool := eqIgnoreAsciiCase entry.mask mask
  let entries :=
    if entries.any same then
      entries.modify (entries.findIdx same) (fun e => { e with setBy := setBy, setAt := setAt })
    else
      let all := entries ++ [⟨mask, setBy, setAt⟩]
      all.drop (all.length - maxListModeEntries)
  { b with listModes := b.listModes.insert modeKey entries }

/-- `remove_list_mode_entry` -/
def removeListModeEntry (modeKey : Char) (mask : Str) : ChannelBuffer :=
  match b.listModes.lookup modeKey with
  | none => b
  | some entries =>
    let kept := entries.filter (fun entry => !eqIgnoreAsciiCase entry.mask mask)
    if kept = [] then { b with listModes := b.listModes.erase modeKey }
    else { b with listModes := b.listModes.insert modeKey kept }

/-- Set or take a mode of the channel itself. -/
def setChannelMode (adding : Bool) (ch : Char) (param : Option Str) : ChannelBuffer :=
  let modes := b.modes.getD []
  if adding then
    let modes := if modes.contains ch then modes else modes ++ [ch]
    let modeParams :=
      match param with
      | some val =>
        if isKeyOrLimit ch then some ((b.modeParams.getD Table.empty).insert ch val)
        else b.modeParams
      | none => b.modeParams
    { b with modes := some (stripPlus modes), modeParams := modeParams }
  else
    { b with
      modes := some (stripPlus (modes.filter (· ≠ ch)))
      modeParams := b.modeParams.map (fun params => params.erase ch) }

/-- `apply_channel_mode`, on the buffer of the channel. -/
def applyChannelMode (h : Host) (mode : ModeChange) (setBy : Str) (now : Int) : ChannelBuffer :=
  match mode.adding with
  | none => b
  | some adding =>
    if isNickMode mode.letter then
      match mode.param with
      | none => b
      | some target =>
        { b with
          toBuffer := b.toBuffer.updateEntry (h.toLowercase target)
            (State.NickEntry.setMode adding mode.letter) }
    else if mode.letter = banModeKey then
      match mode.param with
      | none => b
      | some mask =>
        if adding then b.upsertListModeEntry banModeKey mask setBy now
        else b.removeListModeEntry banModeKey mask
    else if isListMode mode.letter then b
    else b.setChannelMode adding mode.letter mode.param

/-- `RPL_CHANNELMODEIS`, with the arguments `our_nick, channel, modes, param1, param2, ...`. -/
def channelModeIs : List Str → ChannelBuffer
  | _ :: _ :: modes :: args =>
    let modeStr := stripPlus modes
    let params := snapshotParams modeStr args Table.empty
    { b with
      modes := some modeStr
      modeParams := if params.rows.isEmpty then none else some params }
  | _ => b

end ChannelBuffer

/-! ### What the server says -/

/-- A mode of a MODE command: the signs of a mode string are no modes. -/
structure SentMode extends ModeChange where
  notPlus : letter ≠ '+'
  notMinus : letter ≠ '-'

/-- A message about the modes of a channel, a mode of a MODE command at a time. -/
inductive ModeMessage where
  | mode (setBy : Str) (now : Int) (change : SentMode)
  | channelModeIs (args : List Str)

/-- A buffer takes in a message. -/
def ChannelBuffer.step (h : Host) (b : ChannelBuffer) : ModeMessage → ChannelBuffer
  | .mode setBy now change => b.applyChannelMode h change.toModeChange setBy now
  | .channelModeIs args => b.channelModeIs args

/-- A letter that stands for a mode of the channel: no list of masks, no mode of a nick. -/
def isChannelMode (letter : Char) : Bool :=
  !(isNickMode letter || letter = banModeKey || isListMode letter || letter = '+' || letter = '-')

/-- The modes of a channel that are set, each with the parameter of its last setting. -/
structure SetModes where
  setting : Char → Option (Option Str)
  channelOnly : ∀ c, isChannelMode c = false → setting c = none

/-- The parameter of a letter in a mode string, where the letters in `takes` take one each. -/
def paramOf (takes : Char → Bool) (c : Char) : Str → List Str → Option Str
  | [], _ => none
  | x :: letters, args =>
    if x = c then if takes x then args.head? else none
    else paramOf takes c letters (if takes x then args.tail else args)

namespace SetModes

/-- No mode is set. -/
def none : SetModes := ⟨fun _ => .none, fun _ _ => rfl⟩

/-- A mode is set or taken; letters that are no modes of the channel do not count. -/
def change (m : SetModes) (adding : Bool) (letter : Char) (param : Option Str) : SetModes where
  setting c :=
    if c = letter ∧ isChannelMode c then if adding then some param else .none else m.setting c
  channelOnly c hc := by simp [hc, m.channelOnly c hc]

theorem change_elsewhere (m : SetModes) {letter : Char} (h : isChannelMode letter = false)
    (adding : Bool) (param : Option Str) : m.change adding letter param = m := by
  cases m with
  | mk setting channelOnly =>
    simp only [change, SetModes.mk.injEq]
    funext c
    split
    · rename_i hc
      rw [hc.1, h] at hc
      exact absurd hc.2 (by simp)
    · rfl

theorem setting_change (m : SetModes) {letter : Char} (h : isChannelMode letter = true)
    (adding : Bool) (param : Option Str) (c : Char) :
    (m.change adding letter param).setting c =
      if c = letter then if adding then some param else .none else m.setting c := by
  by_cases hc : c = letter
  · subst hc
    simp [change, h]
  · simp [change, hc]

/-- The modes of a mode string. -/
def listed (takes : Char → Bool) (letters : Str) (args : List Str) : SetModes where
  setting c :=
    if c ∈ letters ∧ isChannelMode c then some (paramOf takes c letters args) else .none
  channelOnly c hc := by simp [hc]

end SetModes

/-- Which modes the server gives a parameter when they are set, those of the types B and C. -/
structure ServerModes where
  takesParam : Char → Bool
  key : takesParam 'k' = true
  limit : takesParam 'l' = true

/-- What a message says about the modes. -/
def ServerModes.told (server : ServerModes) (m : SetModes) : ModeMessage → SetModes
  | .mode _ _ change =>
    match change.adding with
    | some adding => m.change adding change.letter change.param
    | none => m
  | .channelModeIs (_ :: _ :: modes :: args) =>
    .listed server.takesParam (stripPlus modes) args
  | .channelModeIs _ => m

/-- The buffer has each mode that is set once and no other, and the parameters of `k` and `l`. -/
structure ChannelBuffer.Tracks (b : ChannelBuffer) (m : SetModes) : Prop where
  modes : ∀ c, (b.modes.getD []).count c = if (m.setting c).isSome then 1 else 0
  params : ∀ c, b.modeParams.bind (fun params => params.lookup c) =
    if isKeyOrLimit c then (m.setting c).join else none

/-- A mode string lists each mode once, and what stands at the place of `k` or `l` among these two
is what stands at its place among all the modes with a parameter. -/
structure ServerModes.Aligned (server : ServerModes) (letters : Str) (args : List Str) :
    Prop where
  once : letters.Nodup
  channel : ∀ c ∈ letters, isChannelMode c = true
  place : ∀ pre c post, letters = pre ++ c :: post → isKeyOrLimit c = true →
    args[pre.countP isKeyOrLimit]? = args[pre.countP server.takesParam]?

/-- The messages that the code reads as the server means them. -/
def ServerModes.Fits (server : ServerModes) (m : SetModes) : ModeMessage → Prop
  | .mode _ _ change =>
    change.adding = some true → isKeyOrLimit change.letter = true → change.param = none →
      (m.setting change.letter).join = none
  | .channelModeIs (_ :: _ :: modes :: args) => server.Aligned (stripPlus modes) args
  | .channelModeIs _ => True

/-! ### Parameters and their places -/

theorem paramOf_eq {takes : Char → Bool} {c : Char} {pre post : Str} (h : c ∉ pre)
    (args : List Str) : paramOf takes c (pre ++ c :: post) args =
      if takes c then args[pre.countP takes]? else none := by
  induction pre generalizing args with
  | nil => simp [paramOf, List.head?_eq_getElem?]
  | cons x pre ih =>
    have hx : ¬ x = c := fun heq => h (heq ▸ List.mem_cons_self)
    have hpre : c ∉ pre := fun hc => h (List.mem_cons_of_mem _ hc)
    rw [List.cons_append, paramOf, if_neg hx, ih hpre, List.countP_cons]
    cases takes x <;> simp

theorem paramOf_of_not_takes {takes : Char → Bool} {c : Char} (h : takes c = false) (letters : Str)
    (args : List Str) : paramOf takes c letters args = none := by
  induction letters generalizing args with
  | nil => rfl
  | cons x letters ih =>
    rw [paramOf, ih]
    split
    · rename_i hx
      simp [hx, h]
    · rfl

/-- The code reads a mode string as if only `k` and `l` took a parameter. -/
theorem lookup_snapshotParams {letters : Str} (honce : letters.Nodup) (args : List Str)
    {params : Dict Char Str} (hnew : ∀ c ∈ letters, params.lookup c = none) (c : Char) :
    (snapshotParams letters args params).lookup c =
      if c ∈ letters then paramOf isKeyOrLimit c letters args else params.lookup c := by
  induction letters generalizing args params with
  | nil => rfl
  | cons x letters ih =>
    obtain ⟨hx, hrest⟩ := List.nodup_cons.mp honce
    have hnew' : ∀ d ∈ letters, params.lookup d = none := fun d hd =>
      hnew d (List.mem_cons_of_mem _ hd)
    have hfirst : params.lookup x = none := hnew x List.mem_cons_self
    have hlater (val : Str) : ∀ d ∈ letters, (params.insert x val).lookup d = none := by
      intro d hd
      have hne : x ≠ d := fun heq => hx (heq ▸ hd)
      rw [Dict.lookup_insert, if_neg hne, hnew' d hd]
    by_cases hc : x = c
    · subst hc
      rw [if_pos List.mem_cons_self, paramOf, if_pos rfl]
      simp only [snapshotParams]
      split
      · cases args with
        | nil => exact (ih hrest [] hnew').trans ((if_neg hx).trans hfirst)
        | cons val args =>
          rw [ih hrest args (hlater val), if_neg hx, Dict.lookup_insert, if_pos rfl]
          rfl
      · rw [ih hrest args hnew', if_neg hx, hfirst]
    · have hmem : c ∈ x :: letters ↔ c ∈ letters := by
        rw [List.mem_cons, or_iff_right (fun heq => hc heq.symm)]
      simp only [hmem]
      rw [paramOf, if_neg hc]
      simp only [snapshotParams]
      split
      · cases args with
        | nil => exact ih hrest [] hnew'
        | cons val args =>
          rw [ih hrest args (hlater val), Dict.lookup_insert, if_neg hc]
          rfl
      · exact ih hrest args hnew'

/-! ### An answer -/

theorem stripPlus_of_not_mem {modes : Str} (h : '+' ∉ modes) : stripPlus modes = modes := by
  cases modes with
  | nil => rfl
  | cons c modes =>
    have hc : c ≠ '+' := fun heq => h (heq ▸ List.mem_cons_self)
    unfold stripPlus
    split
    · rename_i heq
      exact absurd (List.cons.inj heq).1 hc
    · rfl

theorem isChannelMode_of_isKeyOrLimit {c : Char} (h : isKeyOrLimit c = true) :
    isChannelMode c = true := by
  have hc : c = 'k' ∨ c = 'l' := by simpa [isKeyOrLimit] using h
  rcases hc with rfl | rfl <;> decide

theorem ServerModes.takes_of_isKeyOrLimit (server : ServerModes) {c : Char}
    (h : isKeyOrLimit c = true) : server.takesParam c = true := by
  have hc : c = 'k' ∨ c = 'l' := by simpa [isKeyOrLimit] using h
  rcases hc with rfl | rfl
  · exact server.key
  · exact server.limit

namespace ChannelBuffer

/-- The parameters of an answer are those handed out, also when there are none. -/
theorem lookup_params (params : Dict Char Str) (c : Char) :
    (if params.rows.isEmpty then none else some params).bind (fun d => d.lookup c) =
      params.lookup c := by
  split
  · rename_i hempty
    cases hl : params.lookup c with
    | none => rfl
    | some val =>
      have hmem := Dict.mem_rows_iff_lookup.mpr hl
      rw [List.isEmpty_iff.mp hempty] at hmem
      simp at hmem
  · rfl

/-- An answer leaves the buffer right exactly if it is aligned, whatever was known before. -/
theorem tracks_channelModeIs_iff (b : ChannelBuffer) (server : ServerModes)
    (nick channel modes : Str) (args : List Str) :
    (b.channelModeIs (nick :: channel :: modes :: args)).Tracks
        (.listed server.takesParam (stripPlus modes) args) ↔
      server.Aligned (stripPlus modes) args := by
  generalize hletters : stripPlus modes = letters
  have hmodes : ((b.channelModeIs (nick :: channel :: modes :: args)).modes.getD []) = letters :=
    hletters
  have hparams (c : Char) :
      ((b.channelModeIs (nick :: channel :: modes :: args)).modeParams.bind
        (fun d => d.lookup c)) = (snapshotParams letters args Table.empty).lookup c := by
    rw [← lookup_params, ← hletters]
    rfl
  have hread (honce : letters.Nodup) (c : Char) :
      (snapshotParams letters args Table.empty).lookup c =
        if c ∈ letters then paramOf isKeyOrLimit c letters args else none :=
    lookup_snapshotParams honce args (fun _ _ => rfl) c
  -- the parameter at a place of `k` or `l`, as it is read and as it is meant
  have hplace {pre post : Str} {c : Char} (heq : letters = pre ++ c :: post)
      (honce : letters.Nodup) (hkl : isKeyOrLimit c = true) :
      paramOf isKeyOrLimit c letters args = args[pre.countP isKeyOrLimit]? ∧
        paramOf server.takesParam c letters args = args[pre.countP server.takesParam]? := by
    have hpre : c ∉ pre := by
      rw [heq] at honce
      exact fun hc => (List.disjoint_of_nodup_append honce) hc List.mem_cons_self
    rw [heq, paramOf_eq hpre, paramOf_eq hpre, if_pos hkl,
      if_pos (server.takes_of_isKeyOrLimit hkl)]
    exact ⟨rfl, rfl⟩
  constructor
  · intro h
    have hcount (c : Char) : letters.count c = if c ∈ letters ∧ isChannelMode c then 1 else 0 := by
      have hc := h.modes c
      rw [hmodes] at hc
      rw [hc]
      show (if (if c ∈ letters ∧ isChannelMode c = true then some _ else none).isSome = true
        then 1 else 0) = _
      split <;> rfl
    have honce : letters.Nodup := by
      rw [List.nodup_iff_count_le_one]
      intro c
      rw [hcount c]
      split <;> omega
    have hchannel : ∀ c ∈ letters, isChannelMode c = true := by
      intro c hc
      by_contra hnot
      have hpos := List.count_pos_iff.mpr hc
      rw [hcount c, if_neg (fun hand => hnot hand.2)] at hpos
      omega
    refine ⟨honce, hchannel, ?_⟩
    intro pre c post heq hkl
    have hmem : c ∈ letters := by simp [heq]
    have hc := h.params c
    rw [hparams, hread honce, if_pos hmem, if_pos hkl] at hc
    obtain ⟨hcode, hmeant⟩ := hplace heq honce hkl
    rw [← hcode, ← hmeant, hc]
    simp [SetModes.listed, hmem, isChannelMode_of_isKeyOrLimit hkl]
  · intro h
    constructor
    · intro c
      rw [hmodes, h.once.count]
      by_cases hc : c ∈ letters
      · simp [SetModes.listed, hc, h.channel c hc]
      · simp [SetModes.listed, hc]
    · intro c
      rw [hparams, hread h.once]
      by_cases hc : c ∈ letters
      · rw [if_pos hc]
        cases hkl : isKeyOrLimit c with
        | false => simp [paramOf_of_not_takes hkl]
        | true =>
          obtain ⟨pre, post, heq⟩ := List.append_of_mem hc
          obtain ⟨hcode, hmeant⟩ := hplace heq h.once hkl
          simp [SetModes.listed, hc, h.channel c hc, hcode, hmeant, h.place pre c post heq hkl]
      · simp [SetModes.listed, hc]

/-! ### A change -/

variable {b : ChannelBuffer} {m : SetModes}

theorem Tracks.congr (h : b.Tracks m) {b' : ChannelBuffer} (hmodes : b'.modes = b.modes)
    (hparams : b'.modeParams = b.modeParams) : b'.Tracks m := by
  constructor
  · rw [hmodes]
    exact h.modes
  · rw [hparams]
    exact h.params

theorem Tracks.plus_not_mem (h : b.Tracks m) : '+' ∉ b.modes.getD [] := by
  rw [← List.count_eq_zero, h.modes, m.channelOnly '+' (by decide)]
  rfl

/-- Modes of nicks and lists of masks are kept elsewhere. -/
theorem applyChannelMode_elsewhere (b : ChannelBuffer) (h : Host) (change : SentMode)
    (setBy : Str) (now : Int) (hletter : isChannelMode change.letter = false) :
    (b.applyChannelMode h change.toModeChange setBy now).modes = b.modes ∧
      (b.applyChannelMode h change.toModeChange setBy now).modeParams = b.modeParams := by
  unfold applyChannelMode
  cases change.adding with
  | none => exact ⟨rfl, rfl⟩
  | some adding =>
    by_cases hnick : isNickMode change.letter
    · simp only [hnick, if_true]
      cases change.param <;> exact ⟨rfl, rfl⟩
    by_cases hban : change.letter = banModeKey
    · simp only [hban, if_true]
      cases change.param with
      | none => exact ⟨rfl, rfl⟩
      | some mask =>
        cases adding with
        | true => exact ⟨rfl, rfl⟩
        | false =>
          show (b.removeListModeEntry banModeKey mask).modes = _ ∧
            (b.removeListModeEntry banModeKey mask).modeParams = _
          unfold removeListModeEntry
          split
          · exact ⟨rfl, rfl⟩
          · dsimp only
            split <;> exact ⟨rfl, rfl⟩
    have hlist : isListMode change.letter = true := by
      simpa [isChannelMode, hnick, hban, change.notPlus, change.notMinus] using hletter
    simp [hnick, hban, hlist]

theorem applyChannelMode_of_channel (b : ChannelBuffer) (h : Host) {mode : ModeChange}
    (setBy : Str) (now : Int) {adding : Bool} (hadding : mode.adding = some adding)
    (hletter : isChannelMode mode.letter = true) :
    b.applyChannelMode h mode setBy now = b.setChannelMode adding mode.letter mode.param := by
  have hparts : isNickMode mode.letter = false ∧ ¬ mode.letter = banModeKey ∧
      isListMode mode.letter = false := by
    simp only [isChannelMode, Bool.not_eq_true', Bool.or_eq_false_iff, decide_eq_false_iff_not]
      at hletter
    exact ⟨hletter.1.1.1.1, hletter.1.1.1.2, hletter.1.1.2⟩
  simp [applyChannelMode, hadding, hparts.1, hparts.2.1, hparts.2.2]

/-- The letters are right behind a change, whatever becomes of the parameters. -/
theorem count_modes_set (h : b.Tracks m) {ch : Char} (hch : isChannelMode ch = true)
    (param : Option Str) (c : Char) : ((b.setChannelMode true ch param).modes.getD []).count c =
      if ((m.change true ch param).setting c).isSome then 1 else 0 := by
  have hplus : ch ≠ '+' := by
    rintro rfl
    exact absurd hch (by decide)
  have hstrip : stripPlus (if (b.modes.getD []).contains ch then b.modes.getD []
      else b.modes.getD [] ++ [ch]) = if (b.modes.getD []).contains ch then b.modes.getD []
      else b.modes.getD [] ++ [ch] := by
    apply stripPlus_of_not_mem
    split
    · exact h.plus_not_mem
    · simp [h.plus_not_mem, hplus.symm]
  have hc := h.modes c
  show (stripPlus (if (b.modes.getD []).contains ch then b.modes.getD []
      else b.modes.getD [] ++ [ch])).count c = _
  rw [hstrip, m.setting_change hch, if_pos rfl]
  split
  · rename_i hin
    by_cases heq : c = ch
    · subst heq
      have hpos := List.count_pos_iff.mpr (List.contains_iff_mem.mp hin)
      rw [hc] at hpos ⊢
      split at hpos
      · rename_i hset
        simp [hset]
      · omega
    · rw [if_neg heq, hc]
  · rename_i hout
    rw [List.count_append]
    by_cases heq : c = ch
    · subst heq
      have hzero : (b.modes.getD []).count c = 0 := by
        rw [List.count_eq_zero]
        exact fun hmem => hout (List.contains_iff_mem.mpr hmem)
      rw [hzero]
      simp
    · rw [hc]
      simp [heq, Ne.symm heq]

/-- A parameter is noted for `k` and `l` if there is one; otherwise the old one stays. -/
theorem lookup_params_set (b : ChannelBuffer) (ch : Char) (param : Option Str) (c : Char) :
    (b.setChannelMode true ch param).modeParams.bind (fun d => d.lookup c) =
      if c = ch ∧ isKeyOrLimit ch = true ∧ param ≠ none then param
      else b.modeParams.bind (fun d => d.lookup c) := by
  cases param with
  | none => simp [setChannelMode]
  | some val =>
    cases hkl : isKeyOrLimit ch with
    | false => simp [setChannelMode, hkl]
    | true =>
      have hold : (b.modeParams.getD Table.empty).lookup c =
          b.modeParams.bind (fun d => d.lookup c) := by
        cases b.modeParams <;> rfl
      have hnew : (b.setChannelMode true ch (some val)).modeParams =
          some ((b.modeParams.getD Table.empty).insert ch val) := by
        simp [setChannelMode, hkl]
      rw [hnew, Option.bind_some, Dict.lookup_insert, hold]
      simp [eq_comm]

theorem tracks_set_iff (h : b.Tracks m) {ch : Char} (hch : isChannelMode ch = true)
    (param : Option Str) : (b.setChannelMode true ch param).Tracks (m.change true ch param) ↔
      (isKeyOrLimit ch = true → param = none → (m.setting ch).join = none) := by
  constructor
  · rintro ht hkl rfl
    have hc := ht.params ch
    rw [lookup_params_set, m.setting_change hch, h.params] at hc
    simpa [hkl] using hc
  · intro hcond
    refine ⟨count_modes_set h hch param, fun c => ?_⟩
    rw [lookup_params_set, m.setting_change hch, h.params]
    by_cases hc : c = ch
    · subst hc
      cases hkl : isKeyOrLimit c with
      | false => simp
      | true =>
        cases param with
        | none => simpa using hcond hkl rfl
        | some val => simp
    · simp [hc]

theorem tracks_unset (h : b.Tracks m) {ch : Char} (hch : isChannelMode ch = true)
    (param : Option Str) : (b.setChannelMode false ch param).Tracks (m.change false ch param) := by
  have hsetting (c : Char) : (m.change false ch param).setting c =
      if c = ch then none else m.setting c := m.setting_change hch false param c
  constructor
  · intro c
    have hstrip : stripPlus ((b.modes.getD []).filter (· ≠ ch)) =
        (b.modes.getD []).filter (· ≠ ch) :=
      stripPlus_of_not_mem fun hmem => h.plus_not_mem (List.mem_of_mem_filter hmem)
    show (stripPlus ((b.modes.getD []).filter (· ≠ ch))).count c = _
    rw [hstrip, hsetting]
    by_cases hc : c = ch
    · subst hc
      rw [if_pos rfl, List.count_eq_zero.mpr (by simp)]
      rfl
    · rw [if_neg hc, List.count_filter (by simpa using hc), h.modes]
  · intro c
    have hlookup : (b.setChannelMode false ch param).modeParams.bind (fun d => d.lookup c) =
        if ch = c then none else b.modeParams.bind (fun d => d.lookup c) := by
      show (b.modeParams.map (fun d => d.erase ch)).bind (fun d => d.lookup c) = _
      cases b.modeParams with
      | none => simp
      | some d => simp [Dict.lookup_erase]
    rw [hlookup, hsetting, h.params]
    by_cases hc : c = ch
    · subst hc
      simp
    · rw [if_neg hc, if_neg (Ne.symm hc)]

/-! ### Runs -/

/-- When a message leaves a right buffer right. -/
theorem tracks_step_iff (h : Host) (server : ServerModes) (b : ChannelBuffer) (m : SetModes)
    (msg : ModeMessage) (htracks : b.Tracks m) :
    (b.step h msg).Tracks (server.told m msg) ↔ server.Fits m msg := by
  cases msg with
  | channelModeIs args =>
    match args with
    | [] => exact iff_of_true htracks trivial
    | [_] => exact iff_of_true htracks trivial
    | [_, _] => exact iff_of_true htracks trivial
    | nick :: channel :: modes :: args =>
      exact b.tracks_channelModeIs_iff server nick channel modes args
  | mode setBy now change =>
    show (b.applyChannelMode h change.toModeChange setBy now).Tracks
        (server.told m (.mode setBy now change)) ↔
      (change.adding = some true → isKeyOrLimit change.letter = true → change.param = none →
        (m.setting change.letter).join = none)
    cases hletter : isChannelMode change.letter with
    | false =>
      have hsame : server.told m (.mode setBy now change) = m := by
        unfold ServerModes.told
        cases hadding : change.adding with
        | none => simp [hadding]
        | some adding => simpa [hadding] using SetModes.change_elsewhere m hletter ..
      obtain ⟨hmodes, hparams⟩ := b.applyChannelMode_elsewhere h change setBy now hletter
      rw [hsame]
      refine iff_of_true (htracks.congr hmodes hparams) ?_
      intro _ hkl
      rw [isChannelMode_of_isKeyOrLimit hkl] at hletter
      exact Bool.noConfusion hletter
    | true =>
      cases hadding : change.adding with
      | none =>
        have hcode : b.applyChannelMode h change.toModeChange setBy now = b := by
          simp [applyChannelMode, hadding]
        have htold : server.told m (.mode setBy now change) = m := by
          simp [ServerModes.told, hadding]
        rw [hcode, htold]
        exact iff_of_true htracks (fun hnone => by simp at hnone)
      | some adding =>
        have htold : server.told m (.mode setBy now change) =
            m.change adding change.letter change.param := by
          simp [ServerModes.told, hadding]
        rw [b.applyChannelMode_of_channel h setBy now hadding hletter, htold]
        cases adding with
        | true => simpa using tracks_set_iff htracks hletter change.param
        | false => exact iff_of_true (tracks_unset htracks hletter change.param) (by simp)

/-- A buffer shows the modes of its channel all the way exactly in the runs whose messages all
fit. -/
theorem tracks_run_iff (h : Host) (server : ServerModes) (b : Buffer) (msgs : List ModeMessage) :
    (∀ pre, pre <+: msgs → (Run.run (step h) (joined b) pre).Tracks
        (Run.run server.told SetModes.none pre)) ↔
      Run.Guarded server.told server.Fits SetModes.none msgs := by
  apply Run.related_iff (R := Tracks) (tracks_step_iff h server)
  constructor
  · intro c
    rfl
  · intro c
    simp [joined, SetModes.none]

/-- A server with flood limits and join throttles, whose settings have a parameter. -/
def floodServer : ServerModes where
  takesParam c := ['k', 'l', 'f', 'j'].contains c
  key := rfl
  limit := rfl

/-- In an answer of `+fl` the flood limit is taken for the user limit. -/
theorem flood_limit_taken_for_user_limit :
    ¬ (Run.run (step sampleHost) (joined (freshBuffer sampleHost (str "n") .channel (str "#c")))
        [.channelModeIs [str "me", str "#c", str "+fl", str "5:10", str "50"]]).Tracks
      (Run.run floodServer.told SetModes.none
        [.channelModeIs [str "me", str "#c", str "+fl", str "5:10", str "50"]]) := by
  intro h
  have hlimit : some (str "5:10") = some (str "50") := h.params 'l'
  revert hlimit
  decide

end ChannelBuffer

end Store

end Repartee
