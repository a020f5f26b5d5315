import Repartee.Config.Env

/-!
# Edits of `.env` as edits of a map

What `load_env` gives after `set_env_value` and `remove_env_value` (`config/env.rs`), compared with
a map from keys to values. The reader trims the key and takes the last line of a key; the writers
look for `key=` and change the first line or drop all of them.

## Main definitions

- `SetsExactly`, `RemovesExactly`: the file changes as a map does
- `ReadsBack`: the value is what is read once a key was set

## Main results

- `edits_exactly_iff`: when the file changes as a map does
- `duplicate_key_keeps_value`: a key that is in the file twice does not change
-/

set_option autoImplicit false

namespace Repartee.Config

open Text (trim)

/-- A key without `=` and whitespace. -/
def IsKey (key : Str) : Prop := '=' ∉ key ∧ ∀ c ∈ key, Text.isWhitespace c = false

/-- Setting a key gives it exactly the value, and every other key what it had. -/
def SetsExactly (file : EnvFile) (key value : Str) : Prop :=
  ∀ k, (loadEnv (setEnvValue file key value)).lookup k =
    if k = key then some value else (loadEnv file).lookup k

/-- Removing a key leaves nothing of it, and every other key what it had. -/
def RemovesExactly (file : EnvFile) (key : Str) : Prop :=
  ∀ k, (loadEnv (removeEnvValue file key)).lookup k =
    if k = key then none else (loadEnv file).lookup k

/-- A character that the reader takes off both ends of a value. -/
def isStripped (c : Char) : Bool := Text.isWhitespace c || c = '"' || c = '\''

/-- A later line of the key has the value, or there is none and no end of the value is stripped. -/
def ReadsBack (file : EnvFile) (key value : Str) : Prop :=
  match later (assignments file.lines key) with
  | some v => v = value
  | none => ∀ c, value.head? = some c ∨ value.getLast? = some c → isStripped c = false

theorem trim_of_noWhitespace {s : Str} (h : ∀ c ∈ s, Text.isWhitespace c = false) :
    Text.trim s = s := by
  have hstart : Text.trimStart s = s :=
    Text.trimStart_eq_self (fun c hc => h c (List.mem_of_mem_head? hc))
  rw [Text.trim, hstart, Text.trimEnd_eq_rdropWhile, List.rdropWhile_eq_self_iff]
  intro hne
  rw [h _ (List.getLast_mem hne)]
  exact Bool.false_ne_true

/-- A value is read as it is if no end of it is stripped. -/
theorem unquote_eq_self_iff (value : Str) :
    unquote value = value ↔
      ∀ c, value.head? = some c ∨ value.getLast? = some c → isStripped c = false := by
  have hends : ∀ p : Char → Bool, (value.dropWhile p).rdropWhile p = value ↔
      ∀ c, value.head? = some c ∨ value.getLast? = some c → p c = false :=
    fun p => Text.rdropWhile_dropWhile_eq_self_iff
  constructor
  · -- each of the three steps takes an infix, so none of them takes anything
    intro h
    have hdouble : Text.trimMatches '"' (trim value) <:+: value :=
      (Text.trimMatches_isInfix '"' _).trans (Text.trim_infix value)
    have hsingle := Text.trimMatches_isInfix '\'' (Text.trimMatches '"' (trim value))
    rw [unquote] at h
    rw [h] at hsingle
    have hquote : Text.trimMatches '"' (trim value) = value :=
      hdouble.eq_of_length_le hsingle.length_le
    have hblank : trim value = value := by
      refine (Text.trim_infix value).eq_of_length_le ?_
      have hle := (Text.trimMatches_isInfix '"' (trim value)).length_le
      rwa [hquote] at hle
    rw [hquote] at h
    rw [hblank] at hquote
    intro c hc
    have hspace := (hends Text.isWhitespace).mp hblank c hc
    have hd := (hends (fun d => d = '"')).mp hquote c hc
    have hs := (hends (fun d => d = '\'')).mp h c hc
    rw [isStripped, hspace, Bool.false_or, hd, Bool.false_or, hs]
  · intro h
    have hclean : ∀ p : Char → Bool, (∀ c, isStripped c = false → p c = false) →
        (value.dropWhile p).rdropWhile p = value :=
      fun p hp => (hends p).mpr (fun c hc => hp c (h c hc))
    have hblank : trim value = value := by
      refine hclean Text.isWhitespace (fun c hc => ?_)
      simp only [isStripped, Bool.or_eq_false_iff] at hc
      exact hc.1.1
    have hdouble : Text.trimMatches '"' value = value := by
      refine hclean (fun d => d = '"') (fun c hc => ?_)
      simp only [isStripped, Bool.or_eq_false_iff] at hc
      exact hc.1.2
    have hsingle : Text.trimMatches '\'' value = value := by
      refine hclean (fun d => d = '\'') (fun c hc => ?_)
      simp only [isStripped, Bool.or_eq_false_iff] at hc
      exact hc.2
    rw [unquote, hblank, hdouble, hsingle]

theorem readsBack_iff_value (file : EnvFile) (key value : Str) :
    ReadsBack file key value ↔
      (later (assignments file.lines key)).getD (unquote value) = value := by
  rw [ReadsBack]
  cases later (assignments file.lines key) with
  | none => exact (unquote_eq_self_iff value).symm
  | some v => rfl

theorem IsKey.legible_iff {key : Str} (h : IsKey key) : Legible key ↔ key.head? ≠ some '#' := by
  refine ⟨fun hkey => hkey.no_comment, fun hcomment => ?_⟩
  refine ⟨h.1, fun hmem => ?_, trim_of_noWhitespace h.2, hcomment⟩
  exact absurd (h.2 _ hmem) (by decide)

section

variable {file : EnvFile} {key value : Str}

/-- A comment is no key of the file. -/
theorem lookup_loadEnv_of_comment (hcomment : key.head? = some '#') (file : EnvFile) :
    (loadEnv file).lookup key = none := by
  rw [lookup_loadEnv]
  cases hvalue : valueIn file.lines key with
  | none => rfl
  | some v =>
    exact absurd hcomment (legible_of_valueIn (newline_not_mem_lines file) hvalue).1.no_comment

theorem setsExactly_iff (hkey : IsKey key) (hvalue : '\n' ∉ value) :
    SetsExactly file key value ↔ key.head? ≠ some '#' ∧ ReadsBack file key value := by
  constructor
  · intro h
    have hself := h key
    rw [if_pos rfl] at hself
    have hcomment : key.head? ≠ some '#' := by
      intro hcomment
      rw [lookup_loadEnv_of_comment hcomment] at hself
      exact nomatch hself
    refine ⟨hcomment, ?_⟩
    rw [lookup_loadEnv, valueIn,
      assignments_setEnvValue (hkey.legible_iff.mpr hcomment) hvalue, if_pos rfl,
      getLast?_assign] at hself
    exact (readsBack_iff_value file key value).mpr (Option.some.inj hself)
  · rintro ⟨hcomment, hreads⟩ k
    rw [lookup_loadEnv, valueIn, assignments_setEnvValue (hkey.legible_iff.mpr hcomment) hvalue]
    by_cases hk : k = key
    · rw [if_pos hk, if_pos hk.symm, getLast?_assign, hk]
      exact congrArg some ((readsBack_iff_value file key value).mp hreads)
    · rw [if_neg hk, if_neg (Ne.symm hk), lookup_loadEnv, valueIn]

/-- A line that a comment key is removed with assigns nothing. -/
theorem assignments_filter_of_comment (hcomment : key.head? = some '#') (ls : List Str) (k : Str) :
    assignments (ls.filter (fun line => !isFor key line)) k = assignments ls k := by
  rw [assignments, assignments, List.filterMap_filter]
  apply List.filterMap_congr
  intro line _
  cases hfor : isFor key line with
  | false => rfl
  | true =>
    have hhead : (Text.trim line).head? = some '#' := by
      rw [← startsWith_trim_key, Text.startsWith_iff] at hfor
      obtain ⟨r, hr⟩ := hfor
      rw [hr, List.append_assoc, List.head?_append, hcomment]
      rfl
    have hparse : parseLine line = none := if_pos (.inr hhead)
    rw [assignmentOf, hparse]
    rfl

theorem removesExactly_iff (hkey : IsKey key) :
    RemovesExactly file key ↔
      key.head? = some '#' ∨ ∀ a ∈ assignments file.lines key, a.bare = true := by
  by_cases hcomment : key.head? = some '#'
  · -- the lines that go are comments, and no key was read from them
    refine iff_of_true (fun k => ?_) (.inl hcomment)
    by_cases hk : k = key
    · rw [if_pos hk, hk, lookup_loadEnv_of_comment hcomment]
    · rw [if_neg hk, lookup_loadEnv, lookup_loadEnv, valueIn, valueIn,
        assignments_removeEnvValue, assignments_filter_of_comment hcomment]
  · -- what is left of the key are the lines that `is_for` does not know
    have hlegible := hkey.legible_iff.mpr hcomment
    have hlookup : ∀ k, (loadEnv (removeEnvValue file key)).lookup k =
        if key = k then
          ((assignments file.lines k).filter (fun a => !a.bare)).getLast?.map Assignment.value
        else (loadEnv file).lookup k := by
      intro k
      rw [lookup_loadEnv, lookup_loadEnv, valueIn, valueIn, assignments_removeEnvValue,
        assignments_filter hlegible]
      split <;> rfl
    have hnone : ((assignments file.lines key).filter (fun a => !a.bare)).getLast?.map
        Assignment.value = none ↔ ∀ a ∈ assignments file.lines key, a.bare = true := by
      rw [Option.map_eq_none_iff, List.getLast?_eq_none_iff, List.filter_eq_nil_iff]
      simp
    rw [or_iff_right hcomment, ← hnone]
    constructor
    · intro h
      have hself := h key
      rwa [if_pos rfl, hlookup, if_pos rfl] at hself
    · intro h k
      rw [hlookup]
      by_cases hk : k = key
      · rw [if_pos hk, if_pos hk.symm, hk, h]
      · rw [if_neg hk, if_neg (Ne.symm hk)]

/-- **Edits as on a map.** Setting a key and removing it change the file as they change a map
exactly if the key is no comment, nothing stands between the key and the `=` where it is assigned,
and the value is read back: no end of it is stripped, or a later line of the key has it. -/
theorem edits_exactly_iff (hkey : IsKey key) (hvalue : '\n' ∉ value) :
    (SetsExactly file key value ∧ RemovesExactly file key) ↔
      key.head? ≠ some '#' ∧ (∀ a ∈ assignments file.lines key, a.bare = true) ∧
        ReadsBack file key value := by
  rw [setsExactly_iff hkey hvalue, removesExactly_iff hkey]
  constructor
  · rintro ⟨⟨hcomment, hreads⟩, hbare⟩
    exact ⟨hcomment, hbare.resolve_left hcomment, hreads⟩
  · rintro ⟨hcomment, hbare, hreads⟩
    exact ⟨⟨hcomment, hreads⟩, .inr hbare⟩

end

/-- A password is set in a file that has another one, and removed from it. -/
theorem password_is_replaced :
    SetsExactly (some (str "FOO=old\nWEB_PASSWORD=old\n")) (str "WEB_PASSWORD") (str "new") ∧
      RemovesExactly (some (str "FOO=old\nWEB_PASSWORD=old\n")) (str "WEB_PASSWORD") := by
  have hreads : ReadsBack (some (str "FOO=old\nWEB_PASSWORD=old\n")) (str "WEB_PASSWORD")
      (str "new") := by
    rintro c (h | h)
    · have h : some 'n' = some c := h
      obtain rfl := Option.some.inj h
      decide
    · have h : some 'w' = some c := h
      obtain rfl := Option.some.inj h
      decide
  exact (edits_exactly_iff ⟨by decide, Text.noWhitespace_of_all (by decide)⟩ (by decide)).mpr
    ⟨by decide, by decide, hreads⟩

/-- A key that is in the file twice keeps the value of its second line. -/
theorem duplicate_key_keeps_value :
    IsKey (str "PASS") ∧ '\n' ∉ str "new" ∧
      ¬ (SetsExactly (some (str "PASS=one\nPASS=two\n")) (str "PASS") (str "new") ∧
        RemovesExactly (some (str "PASS=one\nPASS=two\n")) (str "PASS")) := by
  refine ⟨⟨by decide, Text.noWhitespace_of_all (by decide)⟩, by decide, fun h => ?_⟩
  have hself := h.1 (str "PASS")
  revert hself
  decide +kernel

end Repartee.Config
