import Repartee.E2e.Basic
import Repartee.Lib.Lines
import Repartee.Lib.Table

/-!
# The `.env` file

Reading, setting and removing the values of `.env` (`config/env.rs`), on the text of the file. What
the file says about one key is the list of the lines that assign it; setting and removing a value
act on that list of the key alone, provided the key can be read back from a line at all.

## Main definitions

- `loadEnv`, `setEnvValue`, `removeEnvValue`: the operations on the file
- `assignments`: the lines that assign a key, in their order
- `Legible`: the keys that a line can assign

## Main results

- `assignments_setEnvValue`, `assignments_removeEnvValue`: what an operation does to each key
-/

set_option autoImplicit false

namespace Repartee.Config

open Text (trim trimStart trimMatches startsWith splitOnce lines ofLines)

/-- The text of `.env`, if the file exists. -/
abbrev EnvFile := Option Str

/-- The lines of the file. -/
def EnvFile.lines : EnvFile → List Str
  | none => []
  | some content => Text.lines content

/-- The value written behind the `=` of a line. -/
def unquote (value : Str) : Str := trimMatches '\'' (trimMatches '"' (trim value))

/-- The key and the value of a line, unless it is blank or a comment. -/
def parseLine (line : Str) : Option (Str × Str) :=
  if trim line = [] ∨ (trim line).head? = some '#' then none
  else (splitOnce '=' (trim line)).map (fun p => (trim p.1, unquote p.2))

/-- Load environment variables from the file. -/
def loadEnv (file : EnvFile) : Dict Str Str :=
  file.lines.foldl (fun vars line =>
    match parseLine line with
    | some (key, value) => vars.insert key value
    | none => vars) Table.empty

/-- Whether a line, less the whitespace in front, starts with `key=`. -/
def isFor (key line : Str) : Bool := startsWith (trimStart line) (key ++ ['='])

/-- Replace the first line that satisfies `p`. -/
def replaceFirst (p : Str → Bool) (new : Str) : List Str → Option (List Str)
  | [] => none
  | l :: ls => if p l then some (new :: ls) else (replaceFirst p new ls).map (l :: ·)

/-- The lines with `key` set in place or behind a blank line at the end. -/
def setLine (ls : List Str) (key value : Str) : List Str :=
  let newLine := key ++ '=' :: value
  match replaceFirst (fun line => startsWith (trim line) (key ++ ['='])) newLine ls with
  | some ls' => ls'
  | none =>
    (if ls ≠ [] ∧ ¬ (ls.getLast?.any (fun line => trim line = [])) then ls ++ [[]] else ls) ++
      [newLine]

/-- Set a key in the `.env` file. -/
def setEnvValue (file : EnvFile) (key value : Str) : EnvFile :=
  some (ofLines (setLine file.lines key value))

/-- Remove a key from the `.env` file. -/
def removeEnvValue (file : EnvFile) (key : Str) : EnvFile :=
  file.map (fun content => ofLines ((lines content).filter (fun line => !isFor key line)))

/-! ### What the file says about a key -/

/-- A line that assigns a key. -/
structure Assignment where
  /-- Whether the `=` follows the key at once. -/
  bare : Bool
  value : Str
  deriving DecidableEq

/-- What a line assigns to a key. -/
def assignmentOf (key line : Str) : Option Assignment :=
  match parseLine line with
  | some (k, value) => if k = key then some ⟨isFor key line, value⟩ else none
  | none => none

/-- The assignments of a key, in the order of the lines. -/
def assignments (ls : List Str) (key : Str) : List Assignment := ls.filterMap (assignmentOf key)

/-- The value of a key: its last assignment counts. -/
def valueIn (ls : List Str) (key : Str) : Option Str :=
  (assignments ls key).getLast?.map Assignment.value

/-- A line that assigns `key` at once replaces the first of its kind, or comes last. -/
def assign (value : Str) : List Assignment → List Assignment
  | [] => [⟨true, value⟩]
  | a :: as => if a.bare then ⟨true, value⟩ :: as else a :: assign value as

/-- The value that the assignments behind the first bare one leave. -/
def later : List Assignment → Option Str
  | [] => none
  | a :: as => if a.bare then as.getLast?.map Assignment.value else later as

/-- A key that a line can assign. -/
structure Legible (key : Str) : Prop where
  no_equals : '=' ∉ key
  no_newline : '\n' ∉ key
  trimmed : trim key = key
  no_comment : key.head? ≠ some '#'

instance (key : Str) : Decidable (Legible key) :=
  decidable_of_iff ('=' ∉ key ∧ '\n' ∉ key ∧ trim key = key ∧ key.head? ≠ some '#')
    ⟨fun h => ⟨h.1, h.2.1, h.2.2.1, h.2.2.2⟩,
      fun h => ⟨h.no_equals, h.no_newline, h.trimmed, h.no_comment⟩⟩

/-- The value of a key is the one of its last assignment. -/
theorem lookup_loadEnv (file : EnvFile) (key : Str) :
    (loadEnv file).lookup key = valueIn file.lines key := by
  rw [loadEnv]
  induction file.lines using List.reverseRecOn with
  | nil => rfl
  | append_singleton ls line ih =>
    rw [List.foldl_append, List.foldl_cons, List.foldl_nil, valueIn, assignments,
      List.filterMap_append, ← assignments]
    rw [valueIn] at ih
    cases hparse : parseLine line with
    | none =>
      have hnone : assignmentOf key line = none := by rw [assignmentOf, hparse]
      rw [List.filterMap_cons_none hnone, List.filterMap_nil, List.append_nil]
      exact ih
    | some kv =>
      obtain ⟨k, value⟩ := kv
      rw [Dict.lookup_insert]
      by_cases hk : k = key
      · have hsome : assignmentOf key line = some ⟨isFor key line, value⟩ := by
          rw [assignmentOf, hparse]
          exact if_pos hk
        rw [if_pos hk, List.filterMap_cons_some hsome, List.filterMap_nil,
          List.getLast?_concat]
        rfl
      · have hnone : assignmentOf key line = none := by
          rw [assignmentOf, hparse]
          exact if_neg hk
        rw [if_neg hk, List.filterMap_cons_none hnone, List.filterMap_nil, List.append_nil]
        exact ih

/-! ### Lines and keys -/

theorem not_isWhitespace_equals : Text.isWhitespace '=' = false := by decide

/-- Setting a value looks for the same lines as removing one. -/
theorem startsWith_trim_key (key line : Str) :
    startsWith (trim line) (key ++ ['=']) = isFor key line :=
  Text.startsWith_trim line key not_isWhitespace_equals

@[simp] theorem isFor_trim (key line : Str) : isFor key (trim line) = isFor key line := by
  rw [← startsWith_trim_key, ← startsWith_trim_key, Text.trim_trim]

@[simp] theorem parseLine_trim (line : Str) : parseLine (trim line) = parseLine line := by
  rw [parseLine, parseLine, Text.trim_trim]

@[simp] theorem assignmentOf_trim (key line : Str) :
    assignmentOf key (trim line) = assignmentOf key line := by
  rw [assignmentOf, assignmentOf, parseLine_trim, isFor_trim]

@[simp] theorem assignmentOf_nil (key : Str) : assignmentOf key [] = none := rfl

/-- A line that starts with a legible key and `=` assigns that key. -/
theorem parseLine_of_trim {key line value : Str} (h : Legible key)
    (htrim : trim line = key ++ '=' :: value) : parseLine line = some (key, unquote value) := by
  have hhead : ¬ (trim line = [] ∨ (trim line).head? = some '#') := by
    rw [htrim]
    rintro (hnil | hcomment)
    · exact absurd hnil (by simp)
    · rw [List.head?_append] at hcomment
      cases hkey : key.head? with
      | none =>
        rw [hkey] at hcomment
        exact absurd (Option.some.inj hcomment) (by decide : '=' ≠ '#')
      | some c =>
        rw [hkey] at hcomment
        exact h.no_comment (hkey.trans hcomment)
  rw [parseLine, if_neg hhead, htrim, Text.splitOnce_append h.no_equals]
  show some (trim key, unquote value) = some (key, unquote value)
  rw [h.trimmed]

theorem parseLine_of_isFor {key line : Str} (h : Legible key) (hline : isFor key line = true) :
    ∃ value, parseLine line = some (key, value) := by
  rw [← startsWith_trim_key, Text.startsWith_iff] at hline
  obtain ⟨r, hr⟩ := hline
  rw [List.append_assoc, List.singleton_append] at hr
  exact ⟨_, parseLine_of_trim h hr⟩

/-- The new line assigns its key, and nothing else. -/
theorem assignmentOf_newLine {key : Str} (h : Legible key) (value k : Str) :
    assignmentOf k (key ++ '=' :: value) =
      if key = k then some ⟨true, unquote value⟩ else none := by
  have htrim := Text.trim_append_cons h.trimmed value not_isWhitespace_equals
  have hunquote : unquote (Text.trimEnd value) = unquote value := by
    rw [unquote, unquote, Text.trim_trimEnd]
  rw [assignmentOf, parseLine_of_trim h htrim, hunquote]
  by_cases hk : key = k
  · subst hk
    have hfor : isFor key (key ++ '=' :: value) = true := by
      rw [← startsWith_trim_key, htrim, Text.startsWith_iff]
      exact ⟨Text.trimEnd value, by rw [List.append_assoc, List.singleton_append]⟩
    rw [if_pos rfl, hfor]
    exact if_pos rfl
  · rw [if_neg hk]
    exact if_neg hk

theorem assignmentOf_of_isFor {key line : Str} (h : Legible key) (hline : isFor key line = true)
    {k : Str} (hk : k ≠ key) : assignmentOf k line = none := by
  obtain ⟨value, hparse⟩ := parseLine_of_isFor h hline
  rw [assignmentOf, hparse]
  exact if_neg (Ne.symm hk)

theorem bare_of_assignmentOf {key line : Str} {a : Assignment}
    (h : assignmentOf key line = some a) : a.bare = isFor key line := by
  rw [assignmentOf] at h
  split at h
  · split at h
    · cases h
      rfl
    · cases h
  · cases h

/-- Whatever a line assigns has a legible key and no break in its value. -/
theorem legible_of_parseLine {line k value : Str} (hline : '\n' ∉ line)
    (h : parseLine line = some (k, value)) : Legible k ∧ '\n' ∉ value := by
  rw [parseLine] at h
  split at h
  · cases h
  · rename_i hhead
    obtain ⟨⟨p, q⟩, hsplit, hkv⟩ := Option.map_eq_some_iff.mp h
    obtain ⟨rfl, rfl⟩ := Prod.mk.inj hkv
    obtain ⟨hp, hjoin⟩ := Text.splitOnce_eq_some hsplit
    have hnewline : '\n' ∉ trim line := fun hmem => hline ((Text.trim_infix line).subset hmem)
    rw [hjoin, List.mem_append, List.mem_cons, not_or, not_or] at hnewline
    refine ⟨⟨fun hmem => hp ((Text.trim_infix p).subset hmem),
      fun hmem => hnewline.1 ((Text.trim_infix p).subset hmem), Text.trim_trim p, ?_⟩, ?_⟩
    · -- the key starts where the line does
      intro hcomment
      have hstart : trimStart p = p := by
        apply Text.trimStart_eq_self
        intro c hc
        refine Text.head_trim (s := line) ?_
        rw [hjoin]
        exact Text.prefix_head ⟨'=' :: q, rfl⟩ hc
      rw [trim, hstart] at hcomment
      refine hhead (Or.inr ?_)
      rw [hjoin]
      exact Text.prefix_head ((Text.prefix_trimEnd p).trans ⟨'=' :: q, rfl⟩) hcomment
    · intro hmem
      exact hnewline.2.2 ((Text.trim_infix q).subset
        (Text.trimMatches_subset '"' _ (Text.trimMatches_subset '\'' _ hmem)))

theorem legible_of_valueIn {ls : List Str} (hls : ∀ l ∈ ls, '\n' ∉ l) {key value : Str}
    (h : valueIn ls key = some value) : Legible key ∧ '\n' ∉ value := by
  obtain ⟨a, ha, rfl⟩ := Option.map_eq_some_iff.mp h
  obtain ⟨line, hline, hassign⟩ := List.mem_filterMap.mp (List.mem_of_getLast? ha)
  rw [assignmentOf] at hassign
  split at hassign
  · rename_i k v hparse
    split at hassign
    · rename_i hk
      subst hk
      cases hassign
      exact legible_of_parseLine (hls line hline) hparse
    · cases hassign
  · cases hassign

theorem newline_not_mem_lines (file : EnvFile) : ∀ l ∈ file.lines, '\n' ∉ l := by
  intro l hl
  cases file with
  | none => exact absurd hl List.not_mem_nil
  | some content => exact Text.newline_not_mem_lines hl

/-! ### The operations, key by key -/

theorem replaceFirst_cases (p : Str → Bool) (new : Str) (ls : List Str) :
    (replaceFirst p new ls = none ∧ ∀ l ∈ ls, p l = false) ∨
    ∃ pre l post, ls = pre ++ l :: post ∧ (∀ l ∈ pre, p l = false) ∧ p l = true ∧
      replaceFirst p new ls = some (pre ++ new :: post) := by
  induction ls with
  | nil => exact Or.inl ⟨rfl, fun l hl => absurd hl List.not_mem_nil⟩
  | cons l ls ih =>
    rw [replaceFirst]
    by_cases hl : p l = true
    · exact Or.inr ⟨[], l, ls, rfl, fun k hk => absurd hk List.not_mem_nil, hl, if_pos hl⟩
    · rw [if_neg hl]
      have hfalse : p l = false := Bool.eq_false_iff.mpr hl
      rcases ih with ⟨hnone, hall⟩ | ⟨pre, k, post, rfl, hpre, hk, hsome⟩
      · exact Or.inl ⟨by rw [hnone]; rfl, List.forall_mem_cons.mpr ⟨hfalse, hall⟩⟩
      · exact Or.inr ⟨l :: pre, k, post, rfl, List.forall_mem_cons.mpr ⟨hfalse, hpre⟩, hk,
          by rw [hsome]; rfl⟩

/-- The two forms of a file in which a value was set. -/
theorem setLine_cases (ls : List Str) (key value : Str) :
    (∃ pre l post, ls = pre ++ l :: post ∧ (∀ l ∈ pre, isFor key l = false) ∧
      isFor key l = true ∧ setLine ls key value = pre ++ (key ++ '=' :: value) :: post) ∨
    (∀ l ∈ ls, isFor key l = false) ∧
      ∃ blank, (∀ l ∈ blank, l = []) ∧
        setLine ls key value = ls ++ (blank ++ [key ++ '=' :: value]) := by
  have hfor : (fun line => startsWith (trim line) (key ++ ['='])) = isFor key := by
    funext line
    exact startsWith_trim_key key line
  rw [setLine, hfor]
  rcases replaceFirst_cases (isFor key) (key ++ '=' :: value) ls with
    ⟨hnone, hall⟩ | ⟨pre, l, post, rfl, hpre, hl, hsome⟩
  · refine Or.inr ⟨hall, ?_⟩
    rw [hnone]
    dsimp only
    split
    · exact ⟨[[]], by simp, by rw [List.append_assoc]⟩
    · exact ⟨[], by simp, rfl⟩
  · exact Or.inl ⟨pre, l, post, rfl, hpre, hl, by rw [hsome]⟩

theorem assign_append {as : List Assignment} (h : ∀ a ∈ as, a.bare = false) (value : Str)
    (bs : List Assignment) : assign value (as ++ bs) = as ++ assign value bs := by
  induction as with
  | nil => rfl
  | cons a as ih =>
    obtain ⟨ha, has⟩ := List.forall_mem_cons.mp h
    rw [List.cons_append, assign, ha, if_neg Bool.false_ne_true, ih has]
    rfl

theorem assign_ne_nil (value : Str) (as : List Assignment) : assign value as ≠ [] := by
  cases as with
  | nil => exact List.cons_ne_nil _ _
  | cons a as =>
    rw [assign]
    split
    · exact List.cons_ne_nil _ _
    · exact List.cons_ne_nil _ _

/-- The last assignment after one was set. -/
theorem getLast?_assign (value : Str) (as : List Assignment) :
    (assign value as).getLast?.map Assignment.value = some ((later as).getD value) := by
  induction as with
  | nil => rfl
  | cons a as ih =>
    rw [assign, later]
    split
    · rw [List.getLast?_cons]
      cases as.getLast? with
      | none => rfl
      | some b => rfl
    · rw [← ih, List.getLast?_cons]
      cases hlast : (assign value as).getLast? with
      | none => exact absurd (List.getLast?_eq_none_iff.mp hlast) (assign_ne_nil value as)
      | some b => rfl

theorem bare_of_mem_assignments {ls : List Str} {key : Str}
    (h : ∀ l ∈ ls, isFor key l = false) : ∀ a ∈ assignments ls key, a.bare = false := by
  intro a ha
  obtain ⟨line, hline, hassign⟩ := List.mem_filterMap.mp ha
  rw [bare_of_assignmentOf hassign]
  exact h line hline

theorem assignments_append (ls ls' : List Str) (key : Str) :
    assignments (ls ++ ls') key = assignments ls key ++ assignments ls' key :=
  List.filterMap_append

theorem assignments_newLine {key : Str} (h : Legible key) (value : Str) (ls : List Str)
    (k : Str) : assignments ((key ++ '=' :: value) :: ls) k =
      if key = k then ⟨true, unquote value⟩ :: assignments ls k else assignments ls k := by
  have hnew := assignmentOf_newLine h value k
  by_cases hk : key = k
  · rw [if_pos hk] at hnew ⊢
    exact List.filterMap_cons_some hnew
  · rw [if_neg hk] at hnew ⊢
    exact List.filterMap_cons_none hnew

/-- Setting a value assigns it to its key and leaves the other keys alone. -/
theorem assignments_setLine {key : Str} (h : Legible key) (ls : List Str) (value k : Str) :
    assignments (setLine ls key value) k =
      if key = k then assign (unquote value) (assignments ls k) else assignments ls k := by
  rcases setLine_cases ls key value with
    ⟨pre, l, post, rfl, hpre, hl, hset⟩ | ⟨hall, blank, hblank, hset⟩
  · rw [hset, assignments_append, assignments_append, assignments_newLine h]
    by_cases hk : key = k
    · subst hk
      obtain ⟨old, hparse⟩ := parseLine_of_isFor h hl
      have hold : assignments (l :: post) key = ⟨true, old⟩ :: assignments post key := by
        apply List.filterMap_cons_some
        rw [assignmentOf, hparse, hl]
        exact if_pos rfl
      rw [if_pos rfl, if_pos rfl, hold, assign_append (bare_of_mem_assignments hpre)]
      rfl
    · have hold : assignments (l :: post) k = assignments post k :=
        List.filterMap_cons_none (assignmentOf_of_isFor h hl (Ne.symm hk))
      rw [if_neg hk, if_neg hk, hold]
  · have hnone : assignments blank k = [] := by
      apply List.filterMap_eq_nil_iff.mpr
      intro l hl
      rw [hblank l hl]
      rfl
    rw [hset, assignments_append, assignments_append, hnone, List.nil_append,
      assignments_newLine h]
    by_cases hk : key = k
    · subst hk
      have happend := assign_append (bare_of_mem_assignments hall) (unquote value) []
      rw [List.append_nil] at happend
      rw [if_pos rfl, if_pos rfl, happend]
      rfl
    · rw [if_neg hk, if_neg hk]
      exact List.append_nil _

/-- Removing a key leaves the others alone, and the assignments of its own with a blank. -/
theorem assignments_filter {key : Str} (h : Legible key) (ls : List Str) (k : Str) :
    assignments (ls.filter (fun line => !isFor key line)) k =
      if key = k then (assignments ls k).filter (fun a => !a.bare) else assignments ls k := by
  induction ls with
  | nil => simp [assignments]
  | cons l ls ih =>
    have hcons : ∀ ls, assignments (l :: ls) k =
        (assignmentOf k l).toList ++ assignments ls k := by
      intro ls
      cases hl : assignmentOf k l with
      | none => exact List.filterMap_cons_none hl
      | some a => exact List.filterMap_cons_some hl
    rw [List.filter_cons]
    cases hl : isFor key l with
    | true =>
      rw [if_neg (by simp), ih, hcons]
      by_cases hk : key = k
      · subst hk
        rw [if_pos rfl, if_pos rfl, List.filter_append]
        cases ha : assignmentOf key l with
        | none => rfl
        | some a =>
          have hbare := (bare_of_assignmentOf ha).trans hl
          simp [hbare]
      · rw [if_neg hk, if_neg hk, assignmentOf_of_isFor h hl (Ne.symm hk)]
        rfl
    | false =>
      rw [if_pos (by simp), hcons, hcons, ih]
      by_cases hk : key = k
      · subst hk
        rw [if_pos rfl, if_pos rfl, List.filter_append]
        cases ha : assignmentOf key l with
        | none => rfl
        | some a =>
          have hbare := (bare_of_assignmentOf ha).trans hl
          simp [hbare]
      · rw [if_neg hk, if_neg hk]

theorem newline_not_mem_setLine {ls : List Str} (hls : ∀ l ∈ ls, '\n' ∉ l) {key value : Str}
    (hkey : '\n' ∉ key) (hvalue : '\n' ∉ value) : ∀ l ∈ setLine ls key value, '\n' ∉ l := by
  have hnew : '\n' ∉ key ++ '=' :: value := by simp [hkey, hvalue]
  rcases setLine_cases ls key value with
    ⟨pre, l, post, rfl, -, -, hset⟩ | ⟨-, blank, hblank, hset⟩
  · rw [hset]
    intro k hk
    rcases List.mem_append.mp hk with hk | hk
    · exact hls k (List.mem_append_left _ hk)
    · rcases List.mem_cons.mp hk with rfl | hk
      · exact hnew
      · exact hls k (List.mem_append_right _ (List.mem_cons_of_mem l hk))
  · rw [hset]
    intro k hk
    rcases List.mem_append.mp hk with hk | hk
    · exact hls k hk
    · rcases List.mem_append.mp hk with hk | hk
      · rw [hblank k hk]
        exact List.not_mem_nil
      · rw [List.mem_singleton.mp hk]
        exact hnew

theorem assignments_setEnvValue {key value : Str} (h : Legible key) (hvalue : '\n' ∉ value)
    (file : EnvFile) (k : Str) : assignments (setEnvValue file key value).lines k =
      if key = k then assign (unquote value) (assignments file.lines k)
      else assignments file.lines k := by
  rw [← assignments_setLine h]
  exact Text.filterMap_lines_ofLines (assignmentOf_trim k) (assignmentOf_nil k)
    (newline_not_mem_setLine (newline_not_mem_lines file) h.no_newline hvalue)

/-- Whatever is read off the lines of a file after a key was removed. -/
theorem filterMap_removeEnvValue {α : Type} {f : Str → Option α} (htrim : ∀ l, f (trim l) = f l)
    (hblank : f [] = none) (file : EnvFile) (key : Str) :
    (removeEnvValue file key).lines.filterMap f =
      (file.lines.filter (fun line => !isFor key line)).filterMap f := by
  cases file with
  | none => rfl
  | some content =>
    exact Text.filterMap_lines_ofLines htrim hblank
      (fun l hl => Text.newline_not_mem_lines (List.mem_of_mem_filter hl))

theorem assignments_removeEnvValue (file : EnvFile) (key k : Str) :
    assignments (removeEnvValue file key).lines k =
      assignments (file.lines.filter (fun line => !isFor key line)) k :=
  filterMap_removeEnvValue (assignmentOf_trim k) (assignmentOf_nil k) file key

end Repartee.Config
