import Repartee.State.Rules

/-!
# The commands of the ignore list

`/ignore`, `/unignore` and `/reload` of `commands/handlers_admin.rs`. The commands keep the list of
the configuration. The event handlers read a copy of it, which is only made anew when the
configuration is reloaded. The file holds what the commands have saved.

## Main definitions

- `Admin`: the list of the configuration, and the state with its copy
- `Admin.cmdIgnore`, `Admin.cmdUnignore`, `Admin.cmdReload`
- `globMatches`, `Covers`: which events a rule is about
- `Admin.TakesEffect`: what `/ignore` and `/unignore` are for

## Main results

- `Admin.takesEffect_iff`: when a rule takes effect
- `Admin.decides_of_reload`: a rule with levels takes effect with the next reload
-/

set_option autoImplicit false

namespace Repartee

open Store (Host State)

/-! ### Rules and what they are about -/

/-- Whether a text is of the form of a mask, in which `*` stands for any text and `?` for any
character. -/
def globMatches (fold : Char → Char) : Str → Str → Bool
  | [], text => text.isEmpty
  | c :: mask, text =>
    if c = '*' then text.tails.any (globMatches fold mask)
    else
      match text with
      | [] => false
      | d :: text => (decide (c = '?') || decide (fold c = fold d)) && globMatches fold mask text

/-- What a handler asks the ignore list about. -/
structure Sighting where
  nick : Str
  ident : Str
  host : Str
  level : IgnoreLevel
  channel : Option Str

/-- An event that a rule is about: its sender, its kind and its channel are given. -/
structure Covers (toLowercase : Str → Str) (fold : Char → Char) (rule : IgnoreEntry)
    (e : Sighting) : Prop where
  sender : maskMatches (globMatches fold) rule.mask e.nick e.ident e.host = true
  kind : rule.levels = [] ∨ .all ∈ rule.levels ∨ e.level ∈ rule.levels
  place : ∀ cs, rule.channels = some cs →
    ∃ c ∈ cs, ∃ channel, e.channel = some channel ∧ toLowercase c = toLowercase channel

/-- Whether a list ignores an event. -/
def Sighting.ignoredBy (h : Host) (ignores : List IgnoreEntry) (e : Sighting) : Bool :=
  shouldIgnore h.toLowercase h.isMatch ignores e.nick e.ident e.host e.level e.channel

/-- `parse_ignore_level` -/
def parseIgnoreLevel (s : Str) : Option IgnoreLevel :=
  if eqIgnoreAsciiCase s (str "all") then some .all
  else if eqIgnoreAsciiCase s (str "msgs") then some .msgs
  else if eqIgnoreAsciiCase s (str "public") then some .publics
  else if eqIgnoreAsciiCase s (str "notices") then some .notices
  else if eqIgnoreAsciiCase s (str "actions") then some .actions
  else if eqIgnoreAsciiCase s (str "joins") then some .joins
  else if eqIgnoreAsciiCase s (str "parts") then some .parts
  else if eqIgnoreAsciiCase s (str "quits") then some .quits
  else if eqIgnoreAsciiCase s (str "nicks") then some .nicks
  else if eqIgnoreAsciiCase s (str "kicks") then some .kicks
  else if eqIgnoreAsciiCase s (str "ctcp") || eqIgnoreAsciiCase s (str "ctcps") then some .ctcps
  else none

/-- The loop of `cmd_ignore` over the words behind the mask; other words are skipped. -/
def parseIgnoreWords (toLowercase : Str → Str) : List Str → IgnoreEntry → IgnoreEntry
  | [], rule => rule
  | [word], rule =>
    if word = str "-channels" ∨ word = str "-channel" then rule
    else { rule with levels := rule.levels ++ (parseIgnoreLevel word).toList }
  | word :: next :: words, rule =>
    if word = str "-channels" ∨ word = str "-channel" then
      parseIgnoreWords toLowercase words
        { rule with channels := some ((next.splitOn ',').map (fun c => toLowercase (Text.trim c))) }
    else
      parseIgnoreWords toLowercase (next :: words)
        { rule with levels := rule.levels ++ (parseIgnoreLevel word).toList }

/-- The rule that a command gives. -/
def parseIgnore (toLowercase : Str → Str) (mask : Str) (words : List Str) : IgnoreEntry :=
  parseIgnoreWords toLowercase words ⟨mask, [], none⟩

/-- The entry that `/unignore` names by its number or else by its mask. A number beyond the list
counts as none, whether it fits a `usize` or not. -/
def unignoreIndex (ignores : List IgnoreEntry) (target : Str) : Option Nat :=
  let byMask := ignores.findIdx? (fun rule => rule.mask = target)
  match Text.parseInt 0 ignores.length target with
  | .ok n => if 1 ≤ n then some (n.toNat - 1) else byMask
  | .error _ => byMask

/-! ### Lines for the user -/

def colorHeader : Str := str "%Z7aa2f7"

def colorCmd : Str := str "%Zc0caf5"

def colorDim : Str := str "%Z565f89"

def colorOk : Str := str "%Z9ece6a"

def colorErr : Str := str "%Zf7768e"

def colorReset : Str := str "%N"

/-- `divider` -/
def divider (title : Str) : Str :=
  let line n := List.replicate n (Char.ofNat 0x2500)
  colorHeader ++ line 5 ++ ' ' :: title ++ ' ' :: line (45 - (Utf8.byteLen title + 7)) ++ colorReset

/-- How a level is listed. -/
def IgnoreLevel.name : IgnoreLevel → Str
  | .msgs => str "Msgs"
  | .publics => str "Public"
  | .notices => str "Notices"
  | .actions => str "Actions"
  | .joins => str "Joins"
  | .parts => str "Parts"
  | .quits => str "Quits"
  | .nicks => str "Nicks"
  | .kicks => str "Kicks"
  | .ctcps => str "Ctcps"
  | .all => str "All"

/-- The line of a rule; one without levels is listed as one for all of them. -/
def IgnoreEntry.line (rule : IgnoreEntry) (number : Nat) : Str :=
  let levels := if rule.levels = [] then str "ALL"
    else List.intercalate (str ", ") (rule.levels.map IgnoreLevel.name)
  let channels :=
    (rule.channels.map (fun cs => str " channels:" ++ List.intercalate [','] cs)).getD []
  str "  " ++ colorCmd ++ Nat.toDigits 10 number ++ str ". " ++ rule.mask ++ colorReset ++ ' ' ::
    colorDim ++ '[' :: levels ++ ']' :: channels ++ colorReset

/-- The lines of `/ignore` without arguments. -/
def ignoreLines (ignores : List IgnoreEntry) : List Str :=
  divider (str "Ignore List") ::
    (if ignores = [] then
        [str "  " ++ colorDim ++ str "No ignore rules configured" ++ colorReset]
      else ignores.mapIdx (fun i rule => rule.line (i + 1))) ++ [divider []]

/-- `add_local_event`: a line in the active buffer. -/
def addLocalEvent (s : State) (text : Str) : State :=
  match s.activeBufferId with
  | none => s
  | some id =>
    let m : Store.Message := ⟨s.messageCounter + 1, .event, none, none, text, false, none, none⟩
    { s with messageCounter := s.messageCounter + 1 }.modifyBuffer id (fun b =>
      { b with messages := Store.enforceScrollback s.scrollbackLimit (b.messages ++ [m]) })

/-! ### The commands -/

/-- What the commands read and write. -/
structure Admin where
  ignores : List IgnoreEntry
  state : State

/-- The sections of a reloaded configuration that the state has copies of, and what the rest of the
command says about credentials and theme. -/
structure Reloaded where
  scrollbackLines : Nat
  floodProtection : Bool
  floodExemptions : List Str
  lines : List Str

namespace Admin

variable (h : Host) (a : Admin)

def tell (text : Str) : Admin := { a with state := addLocalEvent a.state text }

/-- `cmd_ignore` -/
def cmdIgnore : List Str → Admin
  | [] => (ignoreLines a.ignores).foldl tell a
  | mask :: words =>
    { a with ignores := a.ignores ++ [parseIgnore h.toLowercase mask words] }.tell
      (colorOk ++ str "Added ignore rule: " ++ mask ++ colorReset)

/-- `cmd_unignore` -/
def cmdUnignore : List Str → Admin
  | [] => a.tell (str "Usage: /unignore <number|mask>")
  | target :: _ =>
    match (unignoreIndex a.ignores target).bind (fun i => (a.ignores[i]?).map (fun rule => (i, rule)))
    with
    | some (i, removed) =>
      { a with ignores := a.ignores.eraseIdx i }.tell
        (colorOk ++ str "Removed ignore rule: " ++ removed.mask ++ colorReset)
    | none => a.tell (colorErr ++ str "No ignore rule matching: " ++ target ++ colorReset)

/-- `cmd_reload`: the list of the file is the one that was saved. -/
def cmdReload : Except Str Reloaded → Admin
  | .ok config =>
    config.lines.foldl tell
      ({ a with state :=
          { a.state with
            scrollbackLimit := config.scrollbackLines
            floodProtection := config.floodProtection
            floodExemptions := config.floodExemptions
            ignores := a.ignores } }.tell (colorOk ++ str "Config reloaded" ++ colorReset))
  | .error e => a.tell (colorErr ++ str "Failed to reload config: " ++ e ++ colorReset)

/-- What happens between two commands of the ignore list. -/
inductive Act where
  | event (op : Store.Op)
  | reload (config : Except Str Reloaded)

def step : Act → Option Admin
  | .event op => (Store.step h a.state op).map (fun s => { a with state := s })
  | .reload config => some (a.cmdReload config)

def run : Admin → List Act → Option Admin
  | a, [] => some a
  | a, act :: acts => (a.step h act).bind (fun a' => run a' acts)

/-- The decision of the event handlers. -/
def decides (e : Sighting) : Bool := e.ignoredBy h a.state.ignores

/-- A rule decides what it is about from the command on that adds it, and until the command that
removes it. -/
structure TakesEffect (fold : Char → Char) (mask : Str) (words : List Str) : Prop where
  effective : ∀ acts a', run h (a.cmdIgnore h (mask :: words)) acts = some a' →
    ∀ e, Covers h.toLowercase fold (parseIgnore h.toLowercase mask words) e → a'.decides h e = true
  undone : ∀ acts a' target, run h (a.cmdIgnore h (mask :: words)) acts = some a' →
    unignoreIndex a'.ignores target = some a.ignores.length →
    ∀ e, (a'.cmdUnignore [target]).decides h e = a.decides h e

/-! ### What the commands write -/

section Lists

variable {h : Host} {a a' : Admin}

@[simp] theorem ignores_tell (text : Str) : (a.tell text).ignores = a.ignores := rfl

/-- A line for the user changes no list. -/
@[simp] theorem state_tell (text : Str) : (a.tell text).state.ignores = a.state.ignores := by
  rw [tell, addLocalEvent.eq_def]
  cases a.state.activeBufferId <;> rfl

theorem lists_foldl_tell (lines : List Str) :
    (lines.foldl tell a).ignores = a.ignores ∧
      (lines.foldl tell a).state.ignores = a.state.ignores := by
  induction lines generalizing a with
  | nil => exact ⟨rfl, rfl⟩
  | cons line lines ih =>
    obtain ⟨hconfig, hstate⟩ := @ih (a.tell line)
    exact ⟨hconfig, hstate.trans (state_tell line)⟩

/-- The new rule is in the configuration, not in the state. -/
theorem lists_cmdIgnore (mask : Str) (words : List Str) :
    (a.cmdIgnore h (mask :: words)).ignores =
        a.ignores ++ [parseIgnore h.toLowercase mask words] ∧
      (a.cmdIgnore h (mask :: words)).state.ignores = a.state.ignores :=
  ⟨rfl, state_tell _⟩

theorem state_cmdUnignore (args : List Str) :
    (a.cmdUnignore args).state.ignores = a.state.ignores := by
  rw [cmdUnignore.eq_def]
  split
  · exact state_tell _
  · split
    · exact state_tell _
    · exact state_tell _

theorem ignores_cmdReload (config : Except Str Reloaded) :
    (a.cmdReload config).ignores = a.ignores := by
  cases config with
  | ok config => exact (lists_foldl_tell config.lines).1
  | error e => rfl

theorem state_cmdReload_ok (config : Reloaded) :
    (a.cmdReload (.ok config)).state.ignores = a.ignores :=
  (lists_foldl_tell config.lines).2.trans (state_tell _)

/-- What happens in between keeps the configured list, and the copy is the old one or that list. -/
theorem lists_step {act : Act} (hstep : a.step h act = some a') :
    a'.ignores = a.ignores ∧
      (a'.state.ignores = a.state.ignores ∨ a'.state.ignores = a.ignores) := by
  cases act with
  | event op =>
    obtain ⟨s, hs, rfl⟩ := Option.map_eq_some_iff.mp hstep
    exact ⟨rfl, .inl (Store.ignores_step hs)⟩
  | reload config =>
    cases hstep
    refine ⟨ignores_cmdReload config, ?_⟩
    cases config with
    | ok config => exact .inr (state_cmdReload_ok config)
    | error e => exact .inl (state_tell _)

theorem lists_run {acts : List Act} (hrun : run h a acts = some a') :
    a'.ignores = a.ignores ∧
      (a'.state.ignores = a.state.ignores ∨ a'.state.ignores = a.ignores) := by
  induction acts generalizing a with
  | nil =>
    cases hrun
    exact ⟨rfl, .inl rfl⟩
  | cons act acts ih =>
    obtain ⟨a₁, hstep, hrun⟩ := Option.bind_eq_some_iff.mp hrun
    obtain ⟨hconfig, hstate⟩ := lists_step hstep
    obtain ⟨hconfig', hstate'⟩ := ih hrun
    refine ⟨hconfig'.trans hconfig, ?_⟩
    rcases hstate' with hkept | hreloaded
    · rw [hkept]
      exact hstate
    · rw [hreloaded, hconfig]
      exact .inr rfl

end Lists

/-! ### When a rule takes effect -/

/-- The number of the last entry names it. -/
theorem unignoreIndex_last (ignores : List IgnoreEntry) (rule : IgnoreEntry) :
    unignoreIndex (ignores ++ [rule]) (Text.formatInt (ignores.length + 1 : Nat)) =
      some ignores.length := by
  have hlen : (ignores ++ [rule]).length = ignores.length + 1 := by simp
  rw [unignoreIndex, hlen, Text.parseInt_formatInt (by omega) (by omega) (by omega) (by omega)]
  simp only
  rw [if_pos (by omega)]
  congr 1

/-- **Ignore rules**: a rule takes effect exactly if the copy of the event handlers already ignored
all that the rule is about, and the new list decides as that copy does. -/
theorem takesEffect_iff (h : Host) (fold : Char → Char) (a : Admin) (mask : Str)
    (words : List Str) :
    a.TakesEffect h fold mask words ↔
      (∀ e, Covers h.toLowercase fold (parseIgnore h.toLowercase mask words) e →
        e.ignoredBy h a.state.ignores = true) ∧
      ∀ e : Sighting, e.ignoredBy h (a.ignores ++ [parseIgnore h.toLowercase mask words]) =
        e.ignoredBy h a.state.ignores := by
  obtain ⟨hconfig, hstate⟩ := @lists_cmdIgnore h a mask words
  constructor
  · intro heffect
    refine ⟨fun e hcovers => ?_, fun e => ?_⟩
    · have hnow := heffect.effective [] _ rfl e hcovers
      rwa [decides, hstate] at hnow
    · -- the configuration is reloaded before the rule is taken back
      have hundone := heffect.undone [.reload (.ok ⟨0, false, [], []⟩)] _
        (Text.formatInt (a.ignores.length + 1 : Nat)) rfl
        (by rw [ignores_cmdReload, hconfig]; exact unignoreIndex_last _ _) e
      rwa [decides, state_cmdUnignore, state_cmdReload_ok, hconfig] at hundone
  · rintro ⟨hcovered, hsame⟩
    have hdecides : ∀ acts a', run h (a.cmdIgnore h (mask :: words)) acts = some a' →
        ∀ e, a'.decides h e = e.ignoredBy h a.state.ignores := by
      intro acts a' hrun e
      rw [decides]
      rcases (lists_run hrun).2 with hkept | hreloaded
      · rw [hkept, hstate]
      · rw [hreloaded, hconfig, hsame]
    refine ⟨fun acts a' hrun e hcovers => ?_, fun acts a' target hrun _ e => ?_⟩
    · rw [hdecides acts a' hrun]
      exact hcovered e hcovers
    · rw [decides, state_cmdUnignore]
      exact hdecides acts a' hrun e

/-! ### After a reload -/

section Reloads

variable {h : Host} {fold : Char → Char} {a : Admin} {rule : IgnoreEntry} {e : Sighting}

/-- A rule with levels ignores what it is about. -/
theorem ignoredBy_of_covers
    (hmatch : ∀ mask text, globMatches fold mask text = true → h.isMatch mask text = true)
    (hlevels : rule.levels ≠ []) (hcovers : Covers h.toLowercase fold rule e)
    {ignores : List IgnoreEntry} (hrule : rule ∈ ignores) : e.ignoredBy h ignores = true := by
  rw [Sighting.ignoredBy, shouldIgnore, List.any_eq_true]
  refine ⟨rule, hrule, ?_⟩
  have hsender : maskMatches h.isMatch rule.mask e.nick e.ident e.host = true := by
    have hglob := hcovers.sender
    rw [maskMatches] at hglob ⊢
    split_ifs at hglob ⊢
    · exact hmatch _ _ hglob
    · exact hmatch _ _ hglob
  have hkind : rule.levels.any (fun l => decide (l = .all) || decide (l = e.level)) = true := by
    rw [List.any_eq_true]
    rcases hcovers.kind with hnone | hall | hlevel
    · exact absurd hnone hlevels
    · exact ⟨.all, hall, by simp⟩
    · exact ⟨e.level, hlevel, by simp⟩
  have hplace : rule.elsewhere h.toLowercase e.channel = false := by
    rw [IgnoreEntry.elsewhere]
    cases hchannels : rule.channels with
    | none => rfl
    | some cs =>
      obtain ⟨c, hc, channel, hchannel, hsame⟩ := hcovers.place cs hchannels
      cases cs with
      | nil => cases hc
      | cons c' cs =>
        rw [hchannel]
        simp only [Bool.not_eq_false', List.any_eq_true, decide_eq_true_eq]
        exact ⟨c, hc, hsame⟩
  rw [hsender, hplace, Bool.not_false, Bool.and_true, Bool.and_true]
  exact hkind

/-- A rule without levels, which is listed as one for all of them, ignores nothing. -/
theorem ignoredBy_of_no_levels (hlevels : rule.levels = []) (ignores : List IgnoreEntry) :
    e.ignoredBy h (ignores ++ [rule]) = e.ignoredBy h ignores := by
  rw [Sighting.ignoredBy, Sighting.ignoredBy, shouldIgnore, shouldIgnore, List.any_append]
  simp [hlevels]

/-- A rule with levels takes effect with the next reload. -/
theorem decides_of_reload {mask : Str} {words : List Str} (config : Reloaded)
    (hmatch : ∀ mask text, globMatches fold mask text = true → h.isMatch mask text = true)
    (hlevels : (parseIgnore h.toLowercase mask words).levels ≠ [])
    (hcovers : Covers h.toLowercase fold (parseIgnore h.toLowercase mask words) e) :
    ((a.cmdIgnore h (mask :: words)).cmdReload (.ok config)).decides h e = true := by
  rw [decides, state_cmdReload_ok, (lists_cmdIgnore mask words).1]
  exact ignoredBy_of_covers hmatch hlevels hcovers (by simp)

end Reloads

/-- A client without rules. -/
def fresh : Admin := ⟨[], Store.sampleStart⟩

/-- A private message of `troll`. -/
def trollTalks : Sighting := ⟨str "troll", str "user", str "host", .msgs, none⟩

/-- After `/ignore troll msgs` the messages of `troll` are shown as before. -/
theorem ignore_has_no_effect :
    Covers Store.sampleHost.toLowercase Char.toLower
        (parseIgnore Store.sampleHost.toLowercase (str "troll") [str "msgs"]) trollTalks ∧
      ¬fresh.TakesEffect Store.sampleHost Char.toLower (str "troll") [str "msgs"] := by
  have hcovers : Covers Store.sampleHost.toLowercase Char.toLower
      (parseIgnore Store.sampleHost.toLowercase (str "troll") [str "msgs"]) trollTalks :=
    ⟨by decide, by decide, by rintro cs ⟨⟩⟩
  refine ⟨hcovers, fun heffect => ?_⟩
  have hnow := heffect.effective [] _ rfl trollTalks hcovers
  revert hnow
  decide

end Admin

end Repartee
