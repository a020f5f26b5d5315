import Repartee.Ui.Input

/-!
# What tab completion shows

A tab puts the first match in the place of the word before the cursor, the next one goes on to the
next match, and behind the last one the first one comes again (`ui/input.rs`).

## Main definitions

- `Completion.found`, `Completion.suffixOf`: the matches of the word before the cursor, and what
  comes behind them
- `Completion.Replaces`: the tabs replace the word and nothing else

## Main results

- `tabs_succ`: the line after any number of tabs
- `replaces_iff`: when they replace the word and nothing else
- `right_text_is_lost`: a text behind the cursor
-/

set_option autoImplicit false

namespace Repartee.Ui

namespace InputState

/-- A line with the cursor between two texts, and no completion at work. -/
def between (s : InputState) (left right : Str) : InputState :=
  { s with value := left ++ right, cursorPos := Utf8.byteLen left, tabState := none }

/-- Some tabs in a row. -/
def tabs (env : Completion) : Nat → InputState → Option InputState
  | 0, s => some s
  | k + 1, s => (tabs env k s).bind (fun s => s.tabComplete env)

end InputState

namespace Completion

variable (env : Completion)

/-- The text before the word to complete. -/
def textBefore (left : Str) : Str := (splitCompletionWord left).1

/-- The word before the cursor. -/
def wordOf (left : Str) : Str := (splitCompletionWord left).2

def isEmote (left : Str) : Bool := env.emotesEnabled && (emotePart (wordOf left)).isSome

def isCommand (left : Str) : Bool := textBefore left = [] && Text.startsWith (wordOf left) ['/']

/-- The matches of the word before the cursor. -/
def found (left : Str) : List Str :=
  if wordOf left = [] then []
  else env.candidates (textBefore left) (wordOf left) (env.isEmote left) (isCommand left)

/-- What comes behind a match. -/
def suffixOf (left : Str) : Str :=
  if env.isEmote left || isCommand left then [' ']
  else if textBefore left = [] then [':', ' '] else [' ']

/-- The word is completed to a nick. -/
def CompletesNick (left : Str) : Prop :=
  wordOf left ≠ [] ∧ env.isEmote left = false ∧
    (env.detectSubcommandContext (textBefore left)).isNone ∧ isCommand left = false

/-- The matches are the known nicks and speakers with a prefix, ignoring case. -/
structure NickMatches (pre : Str) (matched : List Str) : Prop where
  known : ∀ m ∈ matched, (m ∈ env.nicks ∨ m ∈ env.lastSpeakers) ∧ env.startsWithIgnoreCase m pre
  complete : ∀ n, n ∈ env.nicks ∨ n ∈ env.lastSpeakers → env.startsWithIgnoreCase n pre →
    ∃ m ∈ matched, env.toLowercase m = env.toLowercase n
  recency : ∃ others, matched =
    env.lastSpeakers.filter (fun n => env.startsWithIgnoreCase n pre) ++ others ∧
      ∀ m ∈ others, m ∈ env.nicks
  distinct : matched.Pairwise (fun m m' => env.toLowercase m ≠ env.toLowercase m')

/-- Tabs replace the word before the cursor and nothing else. -/
structure Replaces (s : InputState) (left right : Str) : Prop where
  /-- The tabs go around the matches, with the cursor behind the suffix. -/
  shows : env.found left ≠ [] → ∀ k, ∃ m s',
    (env.found left)[k % (env.found left).length]? = some m ∧
      (s.between left right).tabs env (k + 1) = some s' ∧
      s'.value = textBefore left ++ m ++ env.suffixOf left ++ right ∧
      s'.cursorPos = Utf8.byteLen (textBefore left ++ m ++ env.suffixOf left)
  nicks : env.CompletesNick left → env.NickMatches (wordOf left) (env.found left)

/-- No two speakers with a prefix are equal ignoring case, and no two of the other nicks with it. -/
def NoTwoAlike (pre : Str) : Prop :=
  (env.lastSpeakers.filter (fun n => env.startsWithIgnoreCase n pre)).Pairwise
      (fun m m' => env.toLowercase m ≠ env.toLowercase m') ∧
    (env.nicks.filter (fun n => env.startsWithIgnoreCase n pre &&
      !((env.lastSpeakers.filter (fun n => env.startsWithIgnoreCase n pre)).map
        env.toLowercase).contains (env.toLowercase n))).Pairwise
      (fun m m' => env.toLowercase m ≠ env.toLowercase m')

/-! ### The line -/

section Line

variable {env} {s : InputState} {left : Str}

/-- The completion that the first tab starts. -/
def started (env : Completion) (left : Str) : TabCompletionState :=
  ⟨env.found left, 0, textBefore left, textBefore left = [] && !env.isEmote left, isCommand left⟩

theorem suffix_started (index : Nat) :
    ({ env.started left with index := index }).suffix = env.suffixOf left := by
  rw [TabCompletionState.suffix, suffixOf, started]
  dsimp only
  by_cases hcommand : isCommand left = true
  · simp [hcommand]
  · by_cases hemote : env.isEmote left = true
    · simp [hcommand, hemote]
    · simp [hcommand, hemote]

/-- A match in the place of the word. -/
def shown (env : Completion) (s : InputState) (left m : Str) (index : Nat) : InputState :=
  { s with
    value := textBefore left ++ m ++ env.suffixOf left
    cursorPos := Utf8.byteLen (textBefore left ++ m ++ env.suffixOf left)
    tabState := some { env.started left with index := index } }

theorem showCompletion_started {index : Nat} {m : Str} (hm : (env.found left)[index]? = some m) :
    s.showCompletion { env.started left with index := index } =
      some (env.shown s left m index) := by
  have hcandidate : (env.started left).candidates[index]? = some m := hm
  rw [InputState.showCompletion]
  dsimp only
  rw [hcandidate, suffix_started]
  rfl

/-- The first tab. -/
theorem tabComplete_between (hfound : env.found left ≠ []) (right : Str) {m : Str}
    (hm : (env.found left)[0]? = some m) :
    (s.between left right).tabComplete env = some (env.shown s left m 0) := by
  have hword : wordOf left ≠ [] := by
    intro hnil
    rw [found, if_pos hnil] at hfound
    exact hfound rfl
  have hmatches : env.candidates (textBefore left) (wordOf left) (env.isEmote left)
      (isCommand left) = env.found left := (if_neg hword).symm
  have hbefore : Utf8.before (left ++ right) (Utf8.byteLen left) = some left :=
    Utf8.before_append left right
  rw [InputState.tabComplete, InputState.between]
  dsimp only
  rw [hbefore]
  dsimp only [Option.bind_eq_bind, Option.bind_some]
  rw [if_neg (show (splitCompletionWord left).2 ≠ [] from hword)]
  change (if env.candidates (textBefore left) (wordOf left) (env.isEmote left) (isCommand left) = []
    then _ else InputState.showCompletion _ ⟨env.candidates (textBefore left) (wordOf left)
      (env.isEmote left) (isCommand left), 0, textBefore left,
      textBefore left = [] && !env.isEmote left, isCommand left⟩) = _
  rw [hmatches, if_neg hfound]
  exact showCompletion_started hm

/-- A later tab. -/
theorem tabComplete_shown (hfound : env.found left ≠ []) {m m' : Str} {index : Nat}
    (hm : (env.found left)[(index + 1) % (env.found left).length]? = some m') :
    (env.shown s left m index).tabComplete env =
      some (env.shown s left m' ((index + 1) % (env.found left).length)) := by
  rw [InputState.tabComplete, shown]
  dsimp only
  have hcandidates : ({ env.started left with index := index }).candidates = env.found left := rfl
  rw [hcandidates, if_neg hfound]
  exact showCompletion_started hm

/-- **Any number of tabs** go around the matches. -/
theorem tabs_succ (hfound : env.found left ≠ []) (s : InputState) (right : Str) (k : Nat) :
    ∃ m, (env.found left)[k % (env.found left).length]? = some m ∧
      (s.between left right).tabs env (k + 1) =
        some (env.shown s left m (k % (env.found left).length)) := by
  have hpos : 0 < (env.found left).length := List.length_pos_iff.mpr hfound
  have hget : ∀ k, ∃ m, (env.found left)[k % (env.found left).length]? = some m := fun k =>
    ⟨_, List.getElem?_eq_getElem (Nat.mod_lt k hpos)⟩
  induction k with
  | zero =>
    obtain ⟨m, hm⟩ := hget 0
    refine ⟨m, hm, ?_⟩
    rw [Nat.zero_mod] at hm ⊢
    exact tabComplete_between hfound right hm
  | succ k ih =>
    obtain ⟨m, -, htabs⟩ := ih
    obtain ⟨m', hm'⟩ := hget (k + 1)
    refine ⟨m', hm', ?_⟩
    rw [InputState.tabs, htabs, Option.bind_some]
    rw [← Nat.mod_add_mod] at hm' ⊢
    exact tabComplete_shown hfound hm'

end Line

/-! ### Nicks -/

section Nicks

variable {env} {pre : Str}

theorem mem_nickCompletions {m : Str} : m ∈ env.nickCompletions pre ↔
    (m ∈ env.lastSpeakers ∧ env.startsWithIgnoreCase m pre) ∨
      (m ∈ env.nicks ∧ env.startsWithIgnoreCase m pre ∧
        ∀ n ∈ env.lastSpeakers, env.startsWithIgnoreCase n pre →
          env.toLowercase n ≠ env.toLowercase m) := by
  rw [nickCompletions, List.mem_append, sortByLowercase, List.mem_mergeSort]
  simp [List.mem_filter]

theorem pairwise_sortByLowercase {words : List Str} :
    (env.sortByLowercase words).Pairwise (fun m m' => env.toLowercase m ≠ env.toLowercase m') ↔
      words.Pairwise (fun m m' => env.toLowercase m ≠ env.toLowercase m') :=
  (List.mergeSort_perm words _).pairwise_iff Ne.symm

/-- No match of the nick list is a match of the speakers. -/
theorem pairwise_nickCompletions :
    (env.nickCompletions pre).Pairwise (fun m m' => env.toLowercase m ≠ env.toLowercase m') ↔
      env.NoTwoAlike pre := by
  rw [nickCompletions, List.pairwise_append, pairwise_sortByLowercase]
  refine ⟨fun h => ⟨h.1, h.2.1⟩, fun h => ⟨h.1, h.2, fun m hm m' hm' heq => ?_⟩⟩
  rw [sortByLowercase, List.mem_mergeSort, List.mem_filter, Bool.and_eq_true,
    Bool.not_eq_true'] at hm'
  have hmem : ((env.lastSpeakers.filter (fun n => env.startsWithIgnoreCase n pre)).map
      env.toLowercase).contains (env.toLowercase m') = true :=
    List.contains_iff_mem.mpr (List.mem_map.mpr ⟨m, hm, heq⟩)
  rw [hm'.2.2] at hmem
  exact nomatch hmem

/-- **Nick completion** matches what it should exactly if no two names are alike. -/
theorem nickMatches_iff : env.NickMatches pre (env.nickCompletions pre) ↔ env.NoTwoAlike pre := by
  refine ⟨fun h => (pairwise_nickCompletions).mp h.distinct, fun h => ?_⟩
  refine ⟨fun m hm => ?_, fun n hn hpre => ?_, ?_, (pairwise_nickCompletions).mpr h⟩
  · rcases (mem_nickCompletions).mp hm with ⟨hspeaker, hpre⟩ | ⟨hnick, hpre, -⟩
    · exact ⟨.inr hspeaker, hpre⟩
    · exact ⟨.inl hnick, hpre⟩
  · -- a nick that also speaks is matched as a speaker
    by_cases hspeaks : ∃ m ∈ env.lastSpeakers, env.startsWithIgnoreCase m pre = true ∧
        env.toLowercase m = env.toLowercase n
    · obtain ⟨m, hm, hpre', heq⟩ := hspeaks
      exact ⟨m, (mem_nickCompletions).mpr (.inl ⟨hm, hpre'⟩), heq⟩
    · refine ⟨n, (mem_nickCompletions).mpr ?_, rfl⟩
      rcases hn with hnick | hspeaker
      · exact .inr ⟨hnick, hpre, fun m hm hpre' heq => hspeaks ⟨m, hm, hpre', heq⟩⟩
      · exact absurd ⟨n, hspeaker, hpre, rfl⟩ hspeaks
  · refine ⟨_, rfl, fun m hm => ?_⟩
    rw [sortByLowercase, List.mem_mergeSort] at hm
    exact List.mem_of_mem_filter hm

end Nicks

/-! ### Tabs -/

theorem found_of_completesNick {left : Str} (h : env.CompletesNick left) :
    env.found left = env.nickCompletions (wordOf left) := by
  obtain ⟨hword, hemote, hnone, hcommand⟩ := h
  rw [found, if_neg hword, candidates, hemote, hcommand, Option.isNone_iff_eq_none.mp hnone]
  rfl

/-- A text behind the cursor does not come back. -/
theorem eq_nil_of_replaces {s : InputState} {left right : Str} (h : env.Replaces s left right)
    (hfound : env.found left ≠ []) : right = [] := by
  -- the first tab already shows a value that ends in the match
  obtain ⟨m, s', hm, htabs, hvalue, -⟩ := h.shows hfound 0
  obtain ⟨m', hm', htabs'⟩ := tabs_succ hfound s right 0
  obtain rfl := Option.some.inj (htabs.symm.trans htabs')
  obtain rfl := Option.some.inj (hm'.symm.trans hm)
  exact List.self_eq_append_right.mp hvalue

/-- **Tabs replace the word** and nothing else exactly if there is no text behind the cursor, and no
two names are alike. -/
theorem replaces_iff (s : InputState) (left right : Str) : env.Replaces s left right ↔
    (env.found left = [] ∨ right = []) ∧
      (env.CompletesNick left → env.NoTwoAlike (wordOf left)) := by
  constructor
  · intro h
    refine ⟨or_iff_not_imp_left.mpr (env.eq_nil_of_replaces h), fun hnick => ?_⟩
    have hmatches := h.nicks hnick
    rw [env.found_of_completesNick hnick] at hmatches
    exact nickMatches_iff.mp hmatches
  · rintro ⟨hright, hnicks⟩
    refine ⟨fun hfound k => ?_, fun hnick => ?_⟩
    · obtain rfl := hright.resolve_left hfound
      obtain ⟨m, hm, htabs⟩ := tabs_succ hfound s [] k
      exact ⟨m, _, hm, htabs, (List.append_nil _).symm, rfl⟩
    · rw [env.found_of_completesNick hnick]
      exact nickMatches_iff.mpr (hnicks hnick)

/-- One speaker, and nothing else that completes. -/
def oneSpeaker : Completion where
  nicks := [str "alice"]
  lastSpeakers := [str "alice"]
  commands := []
  settingPaths := []
  emotesEnabled := true
  tagNames := []
  subcommandNames _ := []
  toLowercase := List.map Char.toLower

/-- A tab behind the first word of `ali hello` takes the second one away. -/
theorem right_text_is_lost : ¬ oneSpeaker.Replaces {} (str "ali") (str " hello") := by
  intro h
  have hfound : oneSpeaker.found (str "ali") ≠ [] := by
    have hnick : oneSpeaker.CompletesNick (str "ali") :=
      ⟨by decide, by decide, by decide, by decide⟩
    rw [oneSpeaker.found_of_completesNick hnick]
    exact List.ne_nil_of_mem (mem_nickCompletions.mpr (.inl ⟨List.mem_cons_self, by decide⟩))
  exact List.cons_ne_nil _ _ (oneSpeaker.eq_nil_of_replaces h hfound)

end Completion

end Repartee.Ui
