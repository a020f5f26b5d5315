import Mathlib.Data.List.Sort
import Repartee.Lib.Replace
import Repartee.Lib.Split
import Repartee.Shrink.Cache
import Repartee.Shrink.Urls

/-!
# Substituting shortened URLs

`apply_substitutions` of `app/shrink.rs`: the substitutions are `str::replace`s, one after the
other, the longest original first.

## Main definitions

- `applySubstitutions`: the replacements
- `substituted`: the URLs found by the scan, and nothing else, replaced at once
- `Undisturbed`: no original is left in a word to be replaced

## Main results

- `replaceEach_word`: in a word the URL that is found is replaced before anything else
- `substitutes_exactly`: when the replacements are the intended ones
-/

set_option autoImplicit false

namespace Repartee.Shrink

open Utf8 (byteLen byteLen_append)

/-! ### The substitutions -/

/-- `sort_by_key(|b| Reverse(b.original.len()))`, which is stable. -/
def longestFirst (shortenings : List UrlShortening) : List UrlShortening :=
  shortenings.insertionSort (fun a b => byteLen b.original ≤ byteLen a.original)

/-- What a URL is replaced by: incoming messages get `[host]` after it. -/
def replacement (addHostHint : Bool) (sh : UrlShortening) : Str :=
  if addHostHint then
    let host := (hostOf sh.original).getD []
    if host = [] then sh.shortened
    else sh.shortened ++ str " [" ++ host ++ str "]"
  else sh.shortened

/-- `apply_substitutions` -/
def applySubstitutions (text : Str) (shortenings : List UrlShortening) (addHostHint : Bool) : Str :=
  (longestFirst shortenings).foldl
    (fun out sh => Text.replace sh.original (replacement addHostHint sh) out) text

/-! ### The intended text -/

/-- The short form of a URL that was resolved. -/
def shortForm (shortenings : List UrlShortening) (url : Str) : Option Str :=
  (shortenings.find? (fun sh => sh.original = url)).map UrlShortening.shortened

/-- What is to become of what the scan finds. -/
def substitutedPiece (shortenings : List UrlShortening) : Matcher.Piece Char → Str
  | .gap c => [c]
  | .hit m =>
    match shortForm shortenings (trimmed m) with
    | some short => short ++ m.drop (trimmed m).length
    | none => m

/-- The text with the URLs of the scan that were resolved in their short form, and everything else
as it was. -/
def substituted (shortenings : List UrlShortening) (text : Str) : Str :=
  (urlRe.pieces text).flatMap (substitutedPiece shortenings)

/-! ### Words -/

/-- The parts of a text between the characters that no URL has. -/
def words (text : Str) : List Str := text.splitOnP urlReStop

/-- The URL that the scan finds in a word. -/
def wordUrl (word : Str) : Option Str := (urlRe.hits word).head?.map trimmed

/-- The substitutions that come after that of the URL of a word; all of them, when it was not
resolved. -/
def pending (shortenings : List UrlShortening) (word : Str) : List UrlShortening :=
  match (longestFirst shortenings).dropWhile (fun sh => some sh.original ≠ wordUrl word) with
  | [] => longestFirst shortenings
  | _ :: rest => rest

/-- The word, with its URL in the short form if it was resolved, has no other original in it that
is still to be replaced. -/
def Undisturbed (shortenings : List UrlShortening) (word : Str) : Prop :=
  ∀ sh ∈ pending shortenings word, ¬ sh.original <:+: substituted shortenings word

instance (shortenings : List UrlShortening) (word : Str) :
    Decidable (Undisturbed shortenings word) :=
  inferInstanceAs (Decidable (∀ sh ∈ _, ¬ _ <:+: _))

variable {shortenings : List UrlShortening} {g m a b u w : Str}

theorem mem_longestFirst {sh : UrlShortening} :
    sh ∈ longestFirst shortenings ↔ sh ∈ shortenings := List.mem_insertionSort _

theorem trimmed_append_drop (m : Str) : trimmed m ++ m.drop (trimmed m).length = m :=
  List.prefix_iff_eq_append.mp (trimmed_prefix_self m)

/-- What is behind the URL of a match is punctuation. -/
theorem mem_trailingTrim_of_mem_drop {c : Char} (h : c ∈ m.drop (trimmed m).length) :
    c ∈ trailingTrim := by
  have hsplit : trimmed m ++ m.rtakeWhile trailingTrim.contains = m :=
    List.rdropWhile_append_rtakeWhile
  have hdrop := List.append_cancel_left ((trimmed_append_drop m).trans hsplit.symm)
  rw [hdrop] at h
  exact List.contains_iff_mem.mp (List.mem_rtakeWhile_imp h)

/-- No URL begins before the first one of a word. -/
theorem length_le_of_occurs (hm : urlRe.front m = some (m, []))
    (hfirst : ∀ a b, g ++ m = a ++ b → a.length < g.length → urlRe.front b = none)
    (hword : ∀ c ∈ g ++ m, urlReStop c = false) (hu : IsUrl u) (hw : g ++ m = a ++ (u ++ b)) :
    g.length ≤ a.length := by
  obtain ⟨p, v, rfl, hp⟩ := hu.split
  obtain ⟨q, body, hmq, -, hq, hbody, -⟩ := Urls.front_eq_some_iff.mp hm
  have hscheme : ∀ s : Str, s = Urls.https ∨ s = Urls.http → 7 ≤ s.length ∧ s.length ≤ 8 := by
    rintro s (rfl | rfl) <;> decide
  by_contra hlt
  have hnone := hfirst a (p ++ v ++ b) hw (Nat.lt_of_not_le hlt)
  by_cases hempty : v ++ b = []
  · -- a scheme is too short to have the match in it
    have hlen := congrArg List.length hw
    have hpos := List.length_pos_iff.mpr hbody
    obtain ⟨rfl, rfl⟩ := List.append_eq_nil_iff.mp hempty
    rw [hmq] at hlen
    simp only [List.length_append, List.length_nil] at hlen
    have hpl := hscheme p hp
    have hql := hscheme q hq
    omega
  · have hstop : ∀ c ∈ v ++ b, urlReStop c = false := by
      intro c hc
      refine hword c (hw ▸ List.mem_append_right a ?_)
      rw [List.append_assoc]
      exact List.mem_append_right p hc
    have hsome : urlRe.front (p ++ v ++ b) = some (p ++ (v ++ b), []) := by
      rw [List.append_assoc]
      refine (Urls.front_of_scheme hp).trans ?_
      rw [(Urls.takeWhile_of_none hstop).1, (Urls.takeWhile_of_none hstop).2, if_neg hempty]
    rw [hsome] at hnone
    exact nomatch hnone

/-- **A URL that is as long as the one found in a word, or longer, is nowhere in the word** but
where it was found. -/
theorem eq_of_occurs (hm : urlRe.front m = some (m, []))
    (hfirst : ∀ a b, g ++ m = a ++ b → a.length < g.length → urlRe.front b = none)
    (hword : ∀ c ∈ g ++ m, urlReStop c = false) (hu : IsUrl u) (hw : g ++ m = a ++ (u ++ b))
    (hlen : byteLen (trimmed m) ≤ byteLen u) : a = g ∧ u = trimmed m := by
  have hge := length_le_of_occurs hm hfirst hword hu hw
  obtain ⟨k, rfl, hk⟩ : ∃ k, a = g ++ k ∧ m = k ++ (u ++ b) := by
    rcases List.append_eq_append_iff.mp hw with ⟨k, hak, hmk⟩ | ⟨k, hgk, hbk⟩
    · exact ⟨k, hak, hmk⟩
    · have hnil : k = [] := by
        rw [hgk, List.length_append] at hge
        exact List.eq_nil_of_length_eq_zero (by omega)
      subst hnil
      exact ⟨[], by simpa using hgk.symm, hbk.symm⟩
  have hempty : ∀ e : Str, byteLen k + byteLen u + byteLen e = byteLen (trimmed m) →
      k = [] ∧ e = [] := by
    intro e he
    exact ⟨Utf8.byteLen_eq_zero_iff.mp (by omega), Utf8.byteLen_eq_zero_iff.mp (by omega)⟩
  have hsplit : trimmed m ++ m.drop (trimmed m).length = k ++ u ++ b := by
    rw [trimmed_append_drop, List.append_assoc]
    exact hk
  rcases List.append_eq_append_iff.mp hsplit with ⟨e, he, htail⟩ | ⟨e, he, -⟩
  · rcases List.eq_nil_or_concat e with rfl | ⟨e', c, rfl⟩
    · rw [List.append_nil] at he
      obtain ⟨rfl, -⟩ := hempty [] (by rw [← he, byteLen_append]; rfl)
      exact ⟨by simp, he⟩
    · -- the last character of the URL would be punctuation
      exfalso
      have hmem : c ∈ m.drop (trimmed m).length := by
        rw [htail]
        simp
      have hc := mem_trailingTrim_of_mem_drop hmem
      obtain ⟨p, v, hpv, hp⟩ := hu.split
      have hne : u ≠ [] := by
        rw [hpv]
        rcases hp with rfl | rfl <;> exact List.cons_ne_nil _ _
      obtain ⟨u', c', hu'⟩ := (List.eq_nil_or_concat u).resolve_left hne
      rw [List.concat_eq_append] at hu'
      rw [hu', List.concat_eq_append, ← List.append_assoc, ← List.append_assoc] at he
      have hsame := (List.append_inj' he rfl).2
      rw [List.singleton_inj] at hsame
      exact hu.ends u' c' hu' (hsame ▸ hc)
  · obtain ⟨rfl, rfl⟩ := hempty e (by rw [he, byteLen_append, byteLen_append])
    exact ⟨by simp, by simpa using he.symm⟩

/-! ### One word -/

theorem hits_of_gaps {s t : Str} (h : urlRe.pieces s = t.map .gap) : urlRe.hits s = [] := by
  rw [Matcher.hits, h, List.filterMap_map]
  exact List.filterMap_eq_nil_iff.mpr (fun c _ => rfl)

theorem flatMap_gaps (shortenings : List UrlShortening) (s : Str) :
    (s.map Matcher.Piece.gap).flatMap (substitutedPiece shortenings) = s := by
  induction s with
  | nil => rfl
  | cons c s ih => rw [List.map_cons, List.flatMap_cons, ih]; rfl

/-- The short form that is found is that of the URL. -/
theorem shortForm_eq_some {sh : UrlShortening}
    (hnodup : (shortenings.map UrlShortening.original).Nodup) (hsh : sh ∈ shortenings) :
    shortForm shortenings sh.original = some sh.shortened := by
  induction shortenings with
  | nil => exact absurd hsh List.not_mem_nil
  | cons sh' shortenings ih =>
    obtain ⟨hnot, hnodup⟩ := List.nodup_cons.mp hnodup
    unfold shortForm at ih ⊢
    rcases List.mem_cons.mp hsh with rfl | hsh
    · simp
    · have hne : sh'.original ≠ sh.original :=
        fun heq => hnot (heq ▸ List.mem_map_of_mem hsh)
      rw [List.find?_cons_of_neg (by simpa using hne)]
      exact ih hnodup hsh

theorem shortForm_eq_none (h : ∀ sh ∈ shortenings, sh.original ≠ u) :
    shortForm shortenings u = none := by
  rw [shortForm, List.find?_eq_none.mpr (fun sh hsh => by simpa using h sh hsh), Option.map_none]

/-- The match of a word. -/
theorem exists_of_wordUrl (hword : ∀ c ∈ w, urlReStop c = false) (h : wordUrl w = some u) :
    ∃ g m, w = g ++ m ∧ trimmed m = u ∧ urlRe.front m = some (m, []) ∧
      (∀ a b, g ++ m = a ++ b → a.length < g.length → urlRe.front b = none) ∧
      ∀ shortenings, substituted shortenings w = g ++ substitutedPiece shortenings (.hit m) := by
  rcases Urls.pieces_of_noStop hword with hgaps | ⟨g, m, rfl, hm, hpieces, hfirst⟩
  · rw [wordUrl, hits_of_gaps hgaps] at h
    exact nomatch h
  · have hhits : urlRe.hits (g ++ m) = [m] := by
      have hnone : (g.map Matcher.Piece.gap).filterMap Matcher.Piece.hit? = [] := by
        rw [List.filterMap_map]
        exact List.filterMap_eq_nil_iff.mpr (fun c _ => rfl)
      rw [Matcher.hits, urlRe, hpieces, List.filterMap_append, hnone]
      rfl
    rw [wordUrl, hhits] at h
    refine ⟨g, m, rfl, Option.some.inj h, hm, hfirst, fun shortenings => ?_⟩
    rw [substituted, urlRe, hpieces, List.flatMap_append, flatMap_gaps, List.flatMap_singleton]

theorem substituted_eq_self (hword : ∀ c ∈ w, urlReStop c = false)
    (h : ∀ sh ∈ shortenings, some sh.original ≠ wordUrl w) : substituted shortenings w = w := by
  cases hurl : wordUrl w with
  | none =>
    rcases Urls.pieces_of_noStop hword with hgaps | ⟨g, m, rfl, -, hpieces, -⟩
    · rw [substituted, urlRe, hgaps, flatMap_gaps]
    · rw [wordUrl, Matcher.hits, urlRe, hpieces, List.filterMap_append] at hurl
      simp [Matcher.Piece.hit?] at hurl
  | some u =>
    obtain ⟨g, m, rfl, rfl, -, -, hsubst⟩ := exists_of_wordUrl hword hurl
    rw [hurl] at h
    rw [hsubst, substitutedPiece,
      shortForm_eq_none (fun sh hsh heq => h sh hsh (congrArg some heq))]

theorem pairwise_longestFirst (shortenings : List UrlShortening) :
    (longestFirst shortenings).Pairwise
      (fun a b => byteLen b.original ≤ byteLen a.original) := by
  have htotal : Std.Total
      (fun a b : UrlShortening => byteLen b.original ≤ byteLen a.original) :=
    ⟨fun a b => Nat.le_total _ _⟩
  have htrans : IsTrans UrlShortening (fun a b => byteLen b.original ≤ byteLen a.original) :=
    ⟨fun _ _ _ h h' => Nat.le_trans h' h⟩
  exact List.pairwise_insertionSort _ shortenings

theorem IsUrl.ne_nil (h : IsUrl u) : u ≠ [] := by
  obtain ⟨p, b, rfl, rfl | rfl⟩ := h.split <;> exact List.cons_ne_nil _ _

/-- **In a word the URL that is found is replaced before anything else.** -/
theorem replaceEach_word (hnodup : (shortenings.map UrlShortening.original).Nodup)
    (hurl : ∀ sh ∈ shortenings, IsUrl sh.original) (hword : ∀ c ∈ w, urlReStop c = false) :
    Text.replaceEach UrlShortening.original UrlShortening.shortened (longestFirst shortenings) w =
      Text.replaceEach UrlShortening.original UrlShortening.shortened (pending shortenings w)
        (substituted shortenings w) := by
  unfold pending
  cases hdrop : (longestFirst shortenings).dropWhile
      (fun sh => some sh.original ≠ wordUrl w) with
  | nil =>
    have hnone : ∀ sh ∈ shortenings, some sh.original ≠ wordUrl w := by
      intro sh hsh
      simpa using List.dropWhile_eq_nil_iff.mp hdrop sh ((mem_longestFirst).mpr hsh)
    rw [substituted_eq_self hword hnone]
  | cons sh rest =>
    have hsplit : (longestFirst shortenings).takeWhile
        (fun sh => some sh.original ≠ wordUrl w) ++ sh :: rest = longestFirst shortenings := by
      rw [← hdrop, List.takeWhile_append_dropWhile]
    have hfound : wordUrl w = some sh.original := by
      have hhead := List.head?_dropWhile_not (fun sh => decide (some sh.original ≠ wordUrl w))
        (longestFirst shortenings)
      rw [hdrop] at hhead
      have heq : some sh.original = wordUrl w := by simpa using hhead
      exact heq.symm
    have hbefore : ∀ sh' ∈ (longestFirst shortenings).takeWhile
        (fun sh => some sh.original ≠ wordUrl w), sh' ∈ shortenings ∧
          byteLen sh.original ≤ byteLen sh'.original ∧ sh'.original ≠ sh.original := by
      intro sh' hsh'
      have hne := List.mem_takeWhile_imp hsh'
      have hsorted := pairwise_longestFirst shortenings
      rw [← hsplit, List.pairwise_append] at hsorted
      refine ⟨(mem_longestFirst).mp ((List.takeWhile_prefix _).subset hsh'),
        hsorted.2.2 sh' hsh' sh List.mem_cons_self, fun heq => ?_⟩
      simp [hfound, heq] at hne
    have hsh : sh ∈ shortenings :=
      (mem_longestFirst).mp (hsplit ▸ List.mem_append_right _ List.mem_cons_self)
    obtain ⟨g, m, rfl, htrim, hm, hfirst, hsubst⟩ := exists_of_wordUrl hword hfound
    have hoccurs : ∀ {u a b}, IsUrl u → g ++ m = a ++ (u ++ b) →
        byteLen sh.original ≤ byteLen u → a = g ∧ u = sh.original := by
      intro u a b hu hw hlen
      have h := eq_of_occurs hm hfirst hword hu hw (htrim ▸ hlen)
      exact ⟨h.1, h.2.trans htrim⟩
    have hm' : g ++ m = g ++ (sh.original ++ m.drop sh.original.length) := by
      rw [← htrim, trimmed_append_drop]
    -- The URLs before it are as long or longer, so none of them is in the word.
    have hkept : Text.replaceEach UrlShortening.original UrlShortening.shortened
        ((longestFirst shortenings).takeWhile
          (fun sh => some sh.original ≠ wordUrl (g ++ m))) (g ++ m) = g ++ m := by
      refine Text.replaceEach_eq_self
        (fun sh' hsh' => (hurl sh' (hbefore sh' hsh').1).ne_nil) ?_
      rintro sh' hsh' ⟨a, b, hab⟩
      obtain ⟨hmem, hlen, hne⟩ := hbefore sh' hsh'
      rw [List.append_assoc] at hab
      exact hne (hoccurs (hurl sh' hmem) hab.symm hlen).2
    -- It is in the word once, where it was found.
    have hreplaced : Text.replace sh.original sh.shortened (g ++ m) =
        substituted shortenings (g ++ m) := by
      rw [hsubst, substitutedPiece, htrim, shortForm_eq_some hnodup hsh]
      dsimp only
      rw [← Text.replace_unique (hurl sh hsh).ne_nil, ← hm']
      intro a b hab
      exact (hoccurs (hurl sh hsh) (hm'.trans hab) (Nat.le_refl _)).1
    dsimp only
    rw [← hsplit, Text.replaceEach_append, hkept, Text.replaceEach_cons, hreplaced]

/-! ### All words -/

theorem words_of_noStop (hword : ∀ c ∈ w, urlReStop c = false) : words w = [w] :=
  List.splitOnP_eq_singleton hword

theorem words_append_stop {c : Char} (hword : ∀ c ∈ w, urlReStop c = false)
    (hc : urlReStop c = true) (t : Str) : words (w ++ c :: t) = w :: words t :=
  List.splitOnP_append_cons_of_forall_mem hword c hc t

theorem substituted_append_stop {c : Char} (hc : urlReStop c = true) (s t : Str) :
    substituted shortenings (s ++ c :: t) =
      substituted shortenings s ++ c :: substituted shortenings t := by
  have hscheme : c ∉ Urls.https := by
    intro hmem
    have hall : ∀ d ∈ Urls.https, urlReStop d = false := List.forall_of_all (by decide)
    rw [hall c hmem] at hc
    exact nomatch hc
  rw [substituted, urlRe, Urls.pieces_append_stop hscheme hc, List.flatMap_append,
    List.flatMap_cons]
  rfl

/-- Without hints the substitutions are the short forms, in order. -/
theorem applySubstitutions_eq (text : Str) (shortenings : List UrlShortening) :
    applySubstitutions text shortenings false = Text.replaceEach UrlShortening.original
      UrlShortening.shortened (longestFirst shortenings) text := rfl

section Resolved

variable (hnodup : (shortenings.map UrlShortening.original).Nodup)
  (hurl : ∀ sh ∈ shortenings, IsUrl sh.original)

include hurl

theorem applySubstitutions_append_stop {c : Char} (hc : urlReStop c = true) (s t : Str) :
    applySubstitutions (s ++ c :: t) shortenings false =
      applySubstitutions s shortenings false ++ c :: applySubstitutions t shortenings false := by
  refine Text.replaceEach_append_stop (fun sh hsh => ?_) s t
  have h := hurl sh ((mem_longestFirst).mp hsh)
  refine ⟨h.ne_nil, fun hmem => ?_⟩
  rw [h.noStop c hmem] at hc
  exact nomatch hc

theorem isUrl_of_mem_pending {sh : UrlShortening} (hsh : sh ∈ pending shortenings w) :
    sh ∈ shortenings ∧ IsUrl sh.original := by
  have hmem : sh ∈ shortenings := by
    unfold pending at hsh
    split at hsh
    · exact (mem_longestFirst).mp hsh
    · next hdrop =>
      have hsub := (List.dropWhile_suffix (l := longestFirst shortenings)
        (fun sh => decide (some sh.original ≠ wordUrl w))).subset
      rw [hdrop] at hsub
      exact (mem_longestFirst).mp (hsub (List.mem_cons_of_mem _ hsh))
  exact ⟨hmem, hurl sh hmem⟩

include hnodup

/-- Undisturbed words are what they are intended to be. -/
theorem applySubstitutions_eq_substituted {text : Str}
    (h : ∀ word ∈ words text, Undisturbed shortenings word) :
    applySubstitutions text shortenings false = substituted shortenings text := by
  have hone : ∀ w, (∀ c ∈ w, urlReStop c = false) → Undisturbed shortenings w →
      applySubstitutions w shortenings false = substituted shortenings w := by
    intro w hword hfine
    rw [applySubstitutions_eq, replaceEach_word hnodup hurl hword]
    exact Text.replaceEach_eq_self
      (fun sh hsh => (isUrl_of_mem_pending hurl hsh).2.ne_nil) hfine
  induction text using Text.splitOnP_induction urlReStop with
  | part w hword =>
    rw [words_of_noStop hword] at h
    exact hone w hword (h w List.mem_cons_self)
  | more w c t hword hc ih =>
    rw [words_append_stop hword hc] at h
    rw [applySubstitutions_append_stop hurl hc, substituted_append_stop hc,
      hone w hword (h w List.mem_cons_self), ih (fun w hw => h w (List.mem_cons_of_mem _ hw))]

/-- Short forms that are shorter make no text longer than intended, and one with a disturbed word
shorter. -/
theorem byteLen_applySubstitutions
    (hshort : ∀ sh ∈ shortenings, byteLen sh.shortened < byteLen sh.original) (text : Str) :
    byteLen (applySubstitutions text shortenings false) ≤
        byteLen (substituted shortenings text) ∧
      ((∃ word ∈ words text, ¬ Undisturbed shortenings word) →
        byteLen (applySubstitutions text shortenings false) <
          byteLen (substituted shortenings text)) := by
  -- Every replacement makes a word shorter, so one that is replaced too often is too short.
  have hone : ∀ w, (∀ c ∈ w, urlReStop c = false) →
      byteLen (applySubstitutions w shortenings false) ≤
          byteLen (substituted shortenings w) ∧
        (¬ Undisturbed shortenings w → byteLen (applySubstitutions w shortenings false) <
          byteLen (substituted shortenings w)) := by
    intro w hword
    have hne : ∀ sh ∈ pending shortenings w, sh.original ≠ [] :=
      fun sh hsh => (isUrl_of_mem_pending hurl hsh).2.ne_nil
    have hlen : ∀ sh ∈ pending shortenings w, byteLen sh.shortened < byteLen sh.original :=
      fun sh hsh => hshort sh (isUrl_of_mem_pending hurl hsh).1
    rw [applySubstitutions_eq, replaceEach_word hnodup hurl hword]
    refine ⟨Text.byteLen_replaceEach_le hne hlen _, fun hdisturbed => ?_⟩
    unfold Undisturbed at hdisturbed
    push Not at hdisturbed
    exact Text.byteLen_replaceEach_lt hne hlen hdisturbed
  induction text using Text.splitOnP_induction urlReStop with
  | part w hword =>
    rw [words_of_noStop hword]
    refine ⟨(hone w hword).1, ?_⟩
    rintro ⟨word, hmem, hdisturbed⟩
    obtain rfl := List.mem_singleton.mp hmem
    exact (hone word hword).2 hdisturbed
  | more w c t hword hc ih =>
    obtain ⟨hle, hlt⟩ := hone w hword
    obtain ⟨hle', hlt'⟩ := ih
    have hcons : ∀ s : Str, byteLen (c :: s) = c.utf8Size + byteLen s := fun s => rfl
    rw [words_append_stop hword hc, applySubstitutions_append_stop hurl hc,
      substituted_append_stop hc, byteLen_append, byteLen_append, hcons, hcons]
    refine ⟨by omega, ?_⟩
    rintro ⟨word, hmem, hdisturbed⟩
    rcases List.mem_cons.mp hmem with rfl | hmem
    · have h := hlt hdisturbed
      omega
    · have h := hlt' ⟨word, hmem, hdisturbed⟩
      omega

end Resolved

/-- **What is substituted.** Of the URLs of a text let any have been resolved. If no word is
disturbed, exactly the URLs that the scan finds and that were resolved are replaced by their short
forms. If short forms are shorter than the URLs they stand for, this is so only then. -/
theorem substitutes_exactly {text : Str} {minLength : Nat}
    (hresolved : (shortenings.map UrlShortening.original).Sublist
      (findLongUrls text minLength)) :
    ((∀ word ∈ words text, Undisturbed shortenings word) →
      applySubstitutions text shortenings false = substituted shortenings text) ∧
    ((∀ sh ∈ shortenings, byteLen sh.shortened < byteLen sh.original) →
      (applySubstitutions text shortenings false = substituted shortenings text ↔
        ∀ word ∈ words text, Undisturbed shortenings word)) := by
  have hnodup := (nodup_findLongUrls text minLength).sublist hresolved
  have hurl : ∀ sh ∈ shortenings, IsUrl sh.original := fun sh hsh =>
    isUrl_of_mem_findLongUrls (hresolved.subset (List.mem_map_of_mem hsh))
  refine ⟨applySubstitutions_eq_substituted hnodup hurl, fun hshort =>
    ⟨fun heq => ?_, applySubstitutions_eq_substituted hnodup hurl⟩⟩
  by_contra hdisturbed
  push Not at hdisturbed
  have hlt := (byteLen_applySubstitutions hnodup hurl hshort text).2 hdisturbed
  rw [heq] at hlt
  exact Nat.lt_irrefl _ hlt

theorem both_prefixes_are_substituted :
    applySubstitutions (str "https://x.com/abc https://x.com/abc/def")
        [⟨str "https://x.com/abc", str "https://a.al/1"⟩,
          ⟨str "https://x.com/abc/def", str "https://a.al/2"⟩] false =
      str "https://a.al/1 https://a.al/2" := by
  have hresolved : ([⟨str "https://x.com/abc", str "https://a.al/1"⟩,
      ⟨str "https://x.com/abc/def", str "https://a.al/2"⟩] : List UrlShortening).map
        UrlShortening.original |>.Sublist
          (findLongUrls (str "https://x.com/abc https://x.com/abc/def") 5) := by decide
  exact ((substitutes_exactly hresolved).1 (by decide)).trans (by decide)

/-- Of two URLs the longer one was not resolved: the shorter one is replaced within it. -/
theorem unresolved_url_is_cut :
    ¬ ∀ shortenings : List UrlShortening, (shortenings.map UrlShortening.original).Sublist
        (findLongUrls (str "https://x.com/abc https://x.com/abc/def") 5) →
      applySubstitutions (str "https://x.com/abc https://x.com/abc/def") shortenings false =
        substituted shortenings (str "https://x.com/abc https://x.com/abc/def") := by
  intro h
  have heq := h [⟨str "https://x.com/abc", str "https://a.al/1"⟩] (by decide)
  exact absurd heq (by decide)

end Repartee.Shrink
