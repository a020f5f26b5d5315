import Mathlib.Data.List.DropRight
import Repartee.Lib.Matches
import Repartee.E2e.Basic

/-!
# The URLs that are shortened

`find_long_urls` and `host_of` of `shrink/mod.rs`.

## Main definitions

- `findLongUrls`: the distinct URLs of a text that are long enough
- `hostOf`: the host hint of a URL
- `IsUrl`: what the URLs of a text look like

## Main results

- `nodup_findLongUrls`, `isUrl_of_mem_findLongUrls`: what is found
-/

set_option autoImplicit false

namespace Repartee.Shrink

open Utf8

/-- What the class behind the scheme leaves out: the Unicode property `White_Space`, angle brackets,
quotes, and both forms of parentheses and square brackets. -/
def urlReStop (c : Char) : Bool :=
  Text.isWhitespace c ||
    ['<', '>', Char.ofNat 0x22, Char.ofNat 0x27, '(', ')', '[', ']'].contains c

/-- `URL_RE` -/
def urlRe : Matcher Char := Urls.pattern urlReStop

/-- `TRAILING_TRIM` -/
def trailingTrim : Str := ['.', ',', ';', ':']

/-- `trim_end_matches(TRAILING_TRIM)` -/
def trimmed (m : Str) : Str := m.rdropWhile trailingTrim.contains

/-- The loop of `find_long_urls`. -/
def longUrlsFrom (minLength : Nat) : (seen : List Str) → List Str → List Str
  | _, [] => []
  | seen, m :: ms =>
    if byteLen (trimmed m) < minLength then longUrlsFrom minLength seen ms
    else if trimmed m ∈ seen then longUrlsFrom minLength seen ms
    else trimmed m :: longUrlsFrom minLength (trimmed m :: seen) ms

/-- `find_long_urls` -/
def findLongUrls (text : Str) (minLength : Nat) : List Str :=
  longUrlsFrom minLength [] (urlRe.hits text)

/-- `rsplit_once` -/
def rsplitOnce (sep : Char) (s : Str) : Option (Str × Str) :=
  (Text.splitOnce sep s.reverse).map (fun p => (p.2.reverse, p.1.reverse))

/-- `host_of` behind the user information: a bracketed literal stays intact, or else a port is
stripped. -/
def withoutPort (host : Str) : Str :=
  if host.head? = some '[' then
    match Text.splitOnce ']' host with
    | some (literal, _) => literal ++ [']']
    | none => host
  else
    match rsplitOnce ':' host with
    | some (h, _) => h
    | none => host

/-- `host_of` -/
def hostOf (url : Str) : Option Str :=
  (Urls.scheme url).bind (fun q =>
    let host := q.2.takeWhile (fun c => !(['/', '?', '#'].contains c))
    if host = [] then none
    else
      let host := match rsplitOnce '@' host with
        | some (_, h) => h
        | none => host
      if host = [] then none
      else
        let host := withoutPort host
        let host := (Text.stripPrefix (str "www.") host).getD host
        some (host.map Char.toLower))

/-- What is found in a text: a scheme and characters that do not stop it, of which the last is no
punctuation. -/
structure IsUrl (url : Str) : Prop where
  split : ∃ p b, url = p ++ b ∧ (p = Urls.https ∨ p = Urls.http)
  noStop : ∀ c ∈ url, urlReStop c = false
  ends : ∀ a c, url = a ++ [c] → c ∉ trailingTrim

variable {url : Str} {seen ms : List Str} {minLength : Nat}

theorem notMem_of_mem_longUrlsFrom (h : url ∈ longUrlsFrom minLength seen ms) : url ∉ seen := by
  induction ms generalizing seen with
  | nil => exact absurd h List.not_mem_nil
  | cons m ms ih =>
    rw [longUrlsFrom] at h
    split_ifs at h with hlen hseen
    · exact ih h
    · exact ih h
    · rcases List.mem_cons.mp h with rfl | h
      · exact hseen
      · exact fun hmem => ih h (List.mem_cons_of_mem _ hmem)

theorem nodup_longUrlsFrom (minLength : Nat) (seen ms : List Str) :
    (longUrlsFrom minLength seen ms).Nodup := by
  induction ms generalizing seen with
  | nil => exact List.nodup_nil
  | cons m ms ih =>
    rw [longUrlsFrom]
    split_ifs
    · exact ih seen
    · exact ih seen
    · exact List.nodup_cons.mpr
        ⟨fun h => notMem_of_mem_longUrlsFrom h List.mem_cons_self, ih _⟩

/-- Every URL is found once. -/
theorem nodup_findLongUrls (text : Str) (minLength : Nat) : (findLongUrls text minLength).Nodup :=
  nodup_longUrlsFrom minLength [] _

theorem exists_of_mem_longUrlsFrom (h : url ∈ longUrlsFrom minLength seen ms) :
    ∃ m ∈ ms, url = trimmed m := by
  induction ms generalizing seen with
  | nil => exact absurd h List.not_mem_nil
  | cons m ms ih =>
    have hrest : ∀ {seen'}, url ∈ longUrlsFrom minLength seen' ms →
        ∃ m' ∈ m :: ms, url = trimmed m' := fun h' =>
      let ⟨m', hm', heq⟩ := ih h'
      ⟨m', List.mem_cons_of_mem m hm', heq⟩
    rw [longUrlsFrom] at h
    split_ifs at h with hlen hseen
    · exact hrest h
    · exact hrest h
    · rcases List.mem_cons.mp h with rfl | h
      · exact ⟨m, List.mem_cons_self, rfl⟩
      · exact hrest h

/-- Trimming leaves the scheme. -/
theorem trimmed_scheme_append {p : Str} (hp : p = Urls.https ∨ p = Urls.http) (b : Str) :
    trimmed (p ++ b) = p ++ trimmed b := by
  have hkept : p.reverse.dropWhile trailingTrim.contains = p.reverse := by
    rcases hp with rfl | rfl <;> rfl
  unfold trimmed
  rw [List.rdropWhile, List.reverse_append, List.dropWhile_append, hkept]
  split_ifs with hempty
  · rw [List.rdropWhile, List.isEmpty_iff.mp hempty]
    simp
  · rw [List.reverse_append, List.reverse_reverse, List.rdropWhile]

theorem trimmed_prefix_self (m : Str) : trimmed m <+: m := List.rdropWhile_prefix _ m

theorem isUrl_trimmed {t m r : Str} (h : urlRe.front t = some (m, r)) : IsUrl (trimmed m) := by
  obtain ⟨p, b, rfl, -, hp, -, hb, -⟩ := Urls.front_eq_some_iff.mp h
  have hscheme : ∀ q : Str, q = Urls.https ∨ q = Urls.http → ∀ c ∈ q, urlReStop c = false := by
    rintro q (rfl | rfl)
    · exact List.forall_of_all (by decide)
    · exact List.forall_of_all (by decide)
  refine ⟨⟨p, trimmed b, trimmed_scheme_append hp b, hp⟩, fun c hc => ?_, fun a c hac => ?_⟩
  · rcases List.mem_append.mp ((trimmed_prefix_self (p ++ b)).subset hc) with hc | hc
    · exact hscheme p hp c hc
    · exact hb c hc
  · have hne : trimmed (p ++ b) ≠ [] := by
      rw [hac]
      exact List.append_ne_nil_of_right_ne_nil a (List.cons_ne_nil c [])
    have hlast := List.rdropWhile_last_not trailingTrim.contains (p ++ b) hne
    have hc : (List.rdropWhile trailingTrim.contains (p ++ b)).getLast hne = c := by
      have h := List.getLast_congr hne (List.append_ne_nil_of_right_ne_nil a (by simp)) hac
      exact h.trans (by simp)
    rw [hc] at hlast
    exact fun hmem => hlast (List.contains_iff_mem.mpr hmem)

theorem isUrl_of_mem_findLongUrls {text : Str} (h : url ∈ findLongUrls text minLength) :
    IsUrl url := by
  obtain ⟨m, hm, rfl⟩ := exists_of_mem_longUrlsFrom h
  obtain ⟨t, r, hfront⟩ := Matcher.front_of_mem_hits hm
  exact isUrl_trimmed hfront

end Repartee.Shrink
