import Repartee.Lib.WebUrl
import Repartee.Shrink.Urls

/-!
# The host hint of a shortened URL

`host_of` of `shrink/mod.rs` takes the authority of a URL apart by hand. Up to the first `/`, `?`
or `#` it agrees with the URL standard on what stands before the last `@` and behind a colon, but
for the standard a backslash ends the authority too: `https://evil.com\@trusted.com/` leads to
`evil.com` and is shown with the hint `trusted.com`.

## Main definitions

- `HintIsHost`: the hint is the host that the URL leads to
- `NoHint`, `Parts`, `Named`: a URL without a hint, the parts of a URL, and when the hint that they
  give is the host

## Main results

- `hint_is_host_iff`: exactly when the hint is the host
- `backslash_spoofs_the_hint`: the hint of `https://evil.com\@trusted.com/`
-/

set_option autoImplicit false

namespace Repartee.Shrink

open WebUrl

def withoutWww (host : Str) : Str := (Text.stripPrefix (str "www.") host).getD host

/-- The text of a host as it is shown. -/
def shownHost (text : Str) : Str := (withoutWww text).map Char.toLower

/-- If there is a hint, it is the lowercase host that the URL leads to. -/
def HintIsHost (parser : HostParser) (url : Str) : Prop :=
  ∀ hint, hostOf url = some hint →
    ∃ w, WebUrl.host parser url = some w ∧ hint = withoutWww (w.map Char.toLower)

/-- What `host_of` takes as the end of the authority. -/
def endsHost (c : Char) : Bool := ['/', '?', '#'].contains c

/-! ### Taking the authority apart -/

section Split

variable {sep : Char} {a b s : Str}

theorem rsplitOnce_append (hb : sep ∉ b) : rsplitOnce sep (a ++ sep :: b) = some (a, b) := by
  have hreverse : (a ++ sep :: b).reverse = b.reverse ++ sep :: a.reverse := by simp
  rw [rsplitOnce, hreverse, Text.splitOnce_append (fun h => hb (List.mem_reverse.mp h))]
  simp

theorem rsplitOnce_of_notMem (hs : sep ∉ s) : rsplitOnce sep s = none := by
  rw [rsplitOnce, Text.splitOnce_of_notMem (fun h => hs (List.mem_reverse.mp h))]
  rfl

theorem rsplitOnce_lastPart (sep : Char) (s : Str) :
    (∃ p, rsplitOnce sep s = some (p, lastPart sep s)) ∨
      rsplitOnce sep s = none ∧ lastPart sep s = s := by
  by_cases h : sep ∈ s
  · obtain ⟨a, b, rfl, hb⟩ := exists_last_split h
    exact .inl ⟨a, by rw [rsplitOnce_append hb, lastPart_append_cons hb]⟩
  · exact .inr ⟨rsplitOnce_of_notMem h, lastPart_of_notMem h⟩

theorem withoutPort_append_colon (ha : '[' ∉ a) (hb : ':' ∉ b) :
    withoutPort (a ++ ':' :: b) = a := by
  have hhead : (a ++ ':' :: b).head? ≠ some '[' := by
    cases a with
    | nil => simp
    | cons c a => exact fun h => ha (Option.some.inj h ▸ List.mem_cons_self)
  rw [withoutPort, if_neg hhead, rsplitOnce_append hb]

theorem withoutPort_of_notMem (ha : '[' ∉ a) (hcolon : ':' ∉ a) : withoutPort a = a := by
  have hhead : a.head? ≠ some '[' := fun h => ha (List.mem_of_mem_head? h)
  rw [withoutPort, if_neg hhead, rsplitOnce_of_notMem hcolon]

/-- The hint of a URL, from what stands before the first `/`, `?` or `#`. -/
theorem hostOf_eq {scheme r : Str} (hscheme : scheme = Urls.https ∨ scheme = Urls.http)
    (ha : ∀ c ∈ a, endsHost c = false) (hr : ∀ c r', r = c :: r' → endsHost c = true) :
    hostOf (scheme ++ (a ++ r)) =
      if a = [] then none
      else if lastPart '@' a = [] then none
      else some (shownHost (withoutPort (lastPart '@' a))) := by
  have hsplit : Urls.scheme (scheme ++ (a ++ r)) = some (scheme, a ++ r) :=
    Urls.scheme_eq_some_iff.mpr ⟨rfl, hscheme⟩
  have htake : (a ++ r).takeWhile (fun c => !(['/', '?', '#'].contains c)) = a := by
    refine takeWhile_append_stop (p := fun c => !endsHost c) (fun c hc => ?_) (fun c r' heq => ?_)
    · rw [ha c hc]
      rfl
    · rw [hr c r' heq]
      rfl
  rw [hostOf, hsplit, Option.bind_some]
  simp only [htake]
  obtain ⟨p, hrsplit⟩ | ⟨hrsplit, hlast⟩ := rsplitOnce_lastPart '@' a
  · rw [hrsplit]
    rfl
  · rw [hrsplit, hlast]
    rfl

end Split

/-! ### Characters of no host -/

/-- Controls and delimiters of an authority. -/
def isForeign (c : Char) : Bool := isC0OrSpace c || c = '\\' || c = '@' || c = ':'

theorem toNat_toLower (c : Char) :
    c.toLower.toNat = if 65 ≤ c.toNat ∧ c.toNat ≤ 90 then c.toNat + 32 else c.toNat := by
  have hupper : (c.val ≥ 'A'.val ∧ c.val ≤ 'Z'.val) ↔ 65 ≤ c.toNat ∧ c.toNat ≤ 90 := Iff.rfl
  by_cases h : c.val ≥ 'A'.val ∧ c.val ≤ 'Z'.val
  · rw [Char.toLower, dif_pos h, if_pos (hupper.mp h)]
    have hadd : (c.val + ('a'.val - 'A'.val)).toNat = (c.val.toNat + 32) % 2 ^ 32 :=
      UInt32.toNat_add _ _
    have hle : c.val.toNat ≤ 90 := (hupper.mp h).2
    show (c.val + ('a'.val - 'A'.val)).toNat = c.val.toNat + 32
    omega
  · rw [Char.toLower, dif_neg h, if_neg (fun h' => h (hupper.mpr h'))]

theorem isForeign_iff (c : Char) :
    isForeign c = true ↔ c.toNat ≤ 32 ∨ c.toNat = 92 ∨ c.toNat = 64 ∨ c.toNat = 58 := by
  have heq : ∀ d : Char, c = d ↔ c.toNat = d.toNat :=
    fun d => ⟨congrArg Char.toNat, fun h => Char.toNat_inj.mp h⟩
  simp only [isForeign, isC0OrSpace, Bool.or_eq_true, decide_eq_true_eq, heq, or_assoc]
  rfl

theorem isForeign_toLower (c : Char) : isForeign c.toLower = isForeign c := by
  rw [Bool.eq_iff_iff, isForeign_iff, isForeign_iff, toNat_toLower]
  split_ifs <;> omega

theorem mem_withoutWww {c : Char} {t : Str} (hc : c ∈ t) (hforeign : isForeign c = true) :
    c ∈ withoutWww t := by
  rw [withoutWww]
  cases hstrip : Text.stripPrefix (str "www.") t with
  | none => exact hc
  | some r =>
    rw [Text.stripPrefix_eq_some_iff.mp hstrip] at hc
    refine (List.mem_append.mp hc).resolve_left (fun hwww => ?_)
    -- The character is not in the prefix that is stripped.
    have hclean : ∀ d ∈ str "www.", isForeign d = false := List.forall_of_all (by decide)
    rw [hclean c hwww] at hforeign
    exact Bool.false_ne_true hforeign

theorem withoutWww_subset (t : Str) : ∀ c ∈ withoutWww t, c ∈ t := by
  intro c hc
  rw [withoutWww] at hc
  cases hstrip : Text.stripPrefix (str "www.") t with
  | none =>
    rw [hstrip] at hc
    exact hc
  | some r =>
    rw [hstrip] at hc
    rw [Text.stripPrefix_eq_some_iff.mp hstrip]
    exact List.mem_append_right _ hc

/-- A text with a control or a delimiter is shown as no host. -/
theorem notMem_of_shownHost_eq {t w : Str} (hw : ∀ c ∈ w, isForeign c = false)
    (h : shownHost t = withoutWww (w.map Char.toLower)) {c : Char}
    (hforeign : isForeign c = true) : c ∉ t := by
  intro hc
  have hmem : c.toLower ∈ shownHost t :=
    List.mem_map_of_mem (mem_withoutWww hc hforeign)
  rw [h] at hmem
  obtain ⟨d, hd, heq⟩ := List.mem_map.mp (withoutWww_subset _ _ hmem)
  rw [← isForeign_toLower, ← heq, isForeign_toLower, hw d hd] at hforeign
  exact Bool.false_ne_true hforeign

/-! ### The parts of a URL -/

/-- A URL whose authority ends where `host_of` sees its end. -/
structure Splits (url scheme a r : Str) : Prop where
  eq : url = scheme ++ (a ++ r)
  scheme : scheme = Urls.https ∨ scheme = Urls.http
  inside : ∀ c ∈ a, endsHost c = false
  rest : ∀ c r', r = c :: r' → endsHost c = true

/-- Nothing stands between the scheme and the path, or nothing behind the last `@` there. -/
def NoHint (url : Str) : Prop :=
  ∃ scheme a r, Splits url scheme a r ∧ (a = [] ∨ a.getLast? = some '@')

/-- Backslashes, the authority, and a tail that begins with a backslash, or that are the controls
at the end of the URL. -/
structure Parts (url scheme s a z r : Str) : Prop where
  splits : Splits url scheme (s ++ (a ++ z)) r
  slashes : ∀ c ∈ s, c = '\\'
  authority : ∀ c ∈ a, endsAuthority c = false
  tail : z = [] ∨ z.head? = some '\\' ∨ r = [] ∧ ∀ c ∈ z, isC0OrSpace c = true

/-- The hint names a host. -/
inductive Named (s a z w : Str) : Prop where
  /-- The hint is from the authority: a tail has no delimiters and is behind a port, and the
  authority is at the start or behind user information. -/
  | authority (hat : '@' ∉ z) (hport : z = [] ∨ ':' ∈ lastPart '@' a ∧ ':' ∉ z)
    (hstart : s = [] ∨ '@' ∈ a)
    (hname : shownHost (hostAndPort false (lastPart '@' a)).1 = withoutWww (w.map Char.toLower))
  /-- The hint is from the tail, and happens to name the host. -/
  | tail (hat : '@' ∈ z)
    (hname : shownHost (withoutPort (lastPart '@' z)) = withoutWww (w.map Char.toLower))

section Parts

variable {parser : HostParser} {url scheme s a z r w : Str}

theorem Splits.hostOf_eq (h : Splits url scheme a r) :
    hostOf url =
      if a = [] then none
      else if lastPart '@' a = [] then none
      else some (shownHost (withoutPort (lastPart '@' a))) := by
  rw [h.eq, Shrink.hostOf_eq h.scheme h.inside h.rest]

theorem lastPart_eq_nil_iff : lastPart '@' a = [] ↔ a = [] ∨ a.getLast? = some '@' := by
  rw [lastPart, List.rtakeWhile_eq_nil_iff]
  cases hlast : a.getLast? with
  | none =>
    obtain rfl := List.getLast?_eq_none_iff.mp hlast
    exact iff_of_true (fun hl => absurd rfl hl) (.inl rfl)
  | some c =>
    obtain ⟨a', rfl⟩ := List.getLast?_eq_some_iff.mp hlast
    simp

theorem hostOf_of_noHint (h : NoHint url) : hostOf url = none := by
  obtain ⟨scheme, a, r, hsplits, hempty⟩ := h
  rw [hsplits.hostOf_eq, if_pos ((lastPart_eq_nil_iff).mpr hempty), ite_self]

theorem endsAuthority_of_endsHost {c : Char} (h : endsHost c = true) : endsAuthority c = true := by
  have hall : ∀ d ∈ ['/', '?', '#'], endsAuthority d = true := List.forall_of_all (by decide)
  exact hall c (List.contains_iff_mem.mp h)

/-- The hint of a URL with an authority that has a host. -/
theorem withoutPort_lastPart (hbrackets : ∀ c ∈ a, c ≠ '[' ∧ c ≠ ']')
    (hhost : hostOfAuthority parser a = some w) (hat : '@' ∉ z)
    (hport : z = [] ∨ ':' ∈ lastPart '@' a ∧ ':' ∉ z) (hstart : s = [] ∨ '@' ∈ a) :
    withoutPort (lastPart '@' (s ++ (a ++ z))) = (hostAndPort false (lastPart '@' a)).1 := by
  obtain ⟨text, port, hpart, -, hcolon, hdigits, -⟩ :=
    exists_of_hostOfAuthority parser hbrackets hhost
  have hlast : lastPart '@' (s ++ a) = lastPart '@' a := by
    obtain rfl | hmem := hstart
    · rfl
    · exact lastPart_append_of_mem hmem s
  have hclean : ∀ c ∈ text, c ≠ ':' ∧ c ≠ '[' ∧ c ≠ ']' := by
    intro c hc
    have hmem : c ∈ lastPart '@' a := by
      rw [hpart]
      exact List.mem_append_left _ hc
    exact ⟨fun heq => hcolon (heq ▸ hc), hbrackets c (mem_of_mem_lastPart hmem)⟩
  have hopen : '[' ∉ text := fun h => (hclean _ h).2.1 rfl
  rw [← List.append_assoc, lastPart_append_of_notMem hat, hlast, hpart]
  -- Without a port the tail is empty; behind a port it is dropped with the port.
  obtain rfl | ⟨digits, rfl, hdigits⟩ := hdigits
  · rw [List.append_nil] at hpart ⊢
    have hz : z = [] := hport.resolve_right (fun h => hcolon (hpart ▸ h.1))
    rw [hz, List.append_nil, withoutPort_of_notMem hopen hcolon, hostAndPort_of_no_colon hclean]
  · have hrest : ':' ∉ digits ++ z := by
      intro h
      rcases List.mem_append.mp h with h | h
      · exact absurd (hdigits ':' h) (by decide)
      · obtain rfl | ⟨-, hz⟩ := hport
        · exact List.not_mem_nil h
        · exact hz h
    rw [List.append_assoc, List.cons_append, withoutPort_append_colon hopen hrest,
      hostAndPort_append_colon hclean]

/-- What the URL standard strips from a URL. -/
theorem cleaned_of_noStop {b : Str} (hscheme : scheme = Urls.https ∨ scheme = Urls.http)
    (hurl : ∀ c ∈ scheme ++ b, urlReStop c = false) :
    cleaned (scheme ++ b) = scheme ++ b.rdropWhile isC0OrSpace := by
  -- The scheme begins with a letter, so nothing is stripped in front of it.
  obtain ⟨pre, hpre⟩ : ∃ pre, scheme = 'h' :: pre ++ ['/'] := by
    obtain rfl | rfl := hscheme
    · exact ⟨['t', 't', 'p', 's', ':', '/'], rfl⟩
    · exact ⟨['t', 't', 'p', ':', '/'], rfl⟩
  -- Tabs and newlines stop the pattern of a URL.
  have hspace : ∀ c ∈ scheme ++ b, isTabOrNewline c = false := by
    intro c hc
    have hstop := hurl c hc
    by_contra hspace
    rw [Bool.not_eq_false] at hspace
    simp only [isTabOrNewline, Bool.or_eq_true, decide_eq_true_eq] at hspace
    obtain (rfl | rfl) | rfl := hspace <;> exact absurd hstop (by decide)
  have hcons : scheme ++ b = 'h' :: (pre ++ ['/'] ++ b) := by
    rw [hpre]
    rfl
  rw [cleaned_eq hcons (by decide) hspace, hpre]
  exact rdropWhile_append (by decide) ('h' :: pre) b

/-- A URL leads to the host of its authority. -/
theorem Parts.host_eq (h : Parts url scheme s a z r) (hurl : ∀ c ∈ url, urlReStop c = false)
    (hbrackets : ∀ c ∈ a, c ≠ '[' ∧ c ≠ ']') (hhost : hostOfAuthority parser a = some w) :
    WebUrl.host parser url = some w := by
  obtain ⟨a', c, rfl, hc⟩ := ends_of_hostOfAuthority parser hbrackets hhost
  -- The authority ends in `c`, which is no control: what is stripped is all behind it.
  have hsplit : url = scheme ++ (s ++ a' ++ [c] ++ (z ++ r)) := by
    rw [h.splits.eq]
    simp only [List.append_assoc]
  rw [hsplit] at hurl
  have hcleaned : cleaned url =
      scheme ++ (s ++ (a' ++ [c] ++ (z ++ r).rdropWhile isC0OrSpace)) := by
    rw [hsplit, cleaned_of_noStop h.splits.scheme hurl, rdropWhile_append hc]
    simp only [List.append_assoc]
  have hslashes : ∀ c ∈ s, isSlash c = true := by
    intro c hc
    rw [h.slashes c hc]
    rfl
  have hy : ∀ d y, (z ++ r).rdropWhile isC0OrSpace = d :: y → endsAuthority d = true := by
    intro d y heq
    have hprefix : d :: y <+: z ++ r := heq ▸ List.rdropWhile_prefix _ _
    obtain hz | hz | ⟨rfl, hz⟩ := h.tail
    · rw [hz, List.nil_append] at hprefix
      obtain ⟨t, ht⟩ := hprefix
      exact endsAuthority_of_endsHost (h.splits.rest d (y ++ t) ht.symm)
    · obtain ⟨z', rfl⟩ := List.head?_eq_some_iff.mp hz
      obtain ⟨t, ht⟩ := hprefix
      rw [(List.cons.inj ht).1]
      rfl
    · rw [List.append_nil, List.rdropWhile_eq_nil_iff.mpr hz] at heq
      exact absurd heq.symm (List.cons_ne_nil d y)
  rw [WebUrl.host, authority_eq h.splits.scheme hcleaned hslashes (by simp) h.authority hy,
    Option.bind_some, hhost]

/-- Where the authority of a URL with a host is. -/
theorem exists_authority (h : IsUrl url) (hhost : WebUrl.host parser url = some w) :
    ∃ scheme ss a y ctl, url = scheme ++ (ss ++ (a ++ (y ++ ctl))) ∧
      (scheme = Urls.https ∨ scheme = Urls.http) ∧ (∀ c ∈ ss, isSlash c = true) ∧
      (∀ c ∈ a, endsAuthority c = false) ∧ (∀ c y', y = c :: y' → endsAuthority c = true) ∧
      (∀ c ∈ ctl, isC0OrSpace c = true) ∧ hostOfAuthority parser a = some w := by
  obtain ⟨scheme, b, rfl, hscheme⟩ := h.split
  have hctl : b = b.rdropWhile isC0OrSpace ++ b.rtakeWhile isC0OrSpace :=
    List.rdropWhile_append_rtakeWhile.symm
  have hcleaned := cleaned_of_noStop hscheme h.noStop
  generalize b.rdropWhile isC0OrSpace = b' at hctl hcleaned
  have hafter : afterScheme (cleaned (scheme ++ b)) = some ('/' :: '/' :: b') := by
    rw [hcleaned]
    obtain rfl | rfl := hscheme <;> rfl
  rw [WebUrl.host, WebUrl.authority, hafter, Option.map_some, Option.bind_some] at hhost
  refine ⟨scheme, b'.takeWhile isSlash,
    (b'.dropWhile isSlash).takeWhile (fun c => !endsAuthority c),
    (b'.dropWhile isSlash).dropWhile (fun c => !endsAuthority c), b.rtakeWhile isC0OrSpace,
    ?_, hscheme, fun c hc => List.mem_takeWhile_imp hc,
    fun c hc => not_stop_of_mem_takeWhile hc, fun c y' heq => stop_of_dropWhile heq,
    fun c hc => List.mem_rtakeWhile_imp hc, hhost⟩
  rw [List.append_cancel_left_eq, ← List.append_assoc (List.takeWhile _ (List.dropWhile _ _)),
    List.takeWhile_append_dropWhile, ← List.append_assoc, List.takeWhile_append_dropWhile]
  exact hctl

/-- What stands before the last colon is not stripped with a port. -/
theorem mem_withoutPort {x y : Str} (hopen : '[' ∉ x ++ y) (hcolon : ':' ∈ y ∨ ':' ∉ x) {c : Char}
    (hc : c ∈ x) : c ∈ withoutPort (x ++ y) := by
  by_cases hy : ':' ∈ y
  · obtain ⟨y₁, y₂, rfl, hlast⟩ := exists_last_split hy
    rw [← List.append_assoc] at hopen ⊢
    rw [withoutPort_append_colon (fun h => hopen (List.mem_append_left _ h)) hlast]
    exact List.mem_append_left y₁ hc
  · have hnone : ':' ∉ x ++ y :=
      fun h => (List.mem_append.mp h).elim (hcolon.resolve_left hy) hy
    rw [withoutPort_of_notMem hopen hnone]
    exact List.mem_append_left y hc

/-- With no foreign character in the text that is shown, no backslash stands before it. -/
theorem Parts.start (h : Parts url scheme s a z r) (hopen : '[' ∉ s ++ (a ++ z)) (hat : '@' ∉ z)
    (hforeign : ∀ c, isForeign c = true → c ∉ withoutPort (lastPart '@' (s ++ (a ++ z)))) :
    s = [] ∨ '@' ∈ a := by
  by_contra hnot
  rw [not_or] at hnot
  obtain ⟨c, s', rfl⟩ := List.exists_cons_of_ne_nil hnot.1
  obtain rfl := h.slashes c List.mem_cons_self
  have hcolon : ':' ∉ '\\' :: s' := fun hmem => absurd (h.slashes ':' hmem) (by decide)
  have hnoAt : '@' ∉ '\\' :: s' ++ (a ++ z) := by
    intro hmem
    rcases List.mem_append.mp hmem with hmem | hmem
    · exact absurd (h.slashes '@' hmem) (by decide)
    · exact (List.mem_append.mp hmem).elim hnot.2 hat
  apply hforeign '\\' (by decide)
  rw [lastPart_of_notMem hnoAt]
  exact mem_withoutPort hopen (.inr hcolon) List.mem_cons_self

/-- A tail is stripped with the port before it. -/
theorem Parts.port (h : Parts url scheme s a z r) (hopen : '[' ∉ lastPart '@' a ++ z)
    (hforeign : ∀ c, isForeign c = true → c ∉ withoutPort (lastPart '@' a ++ z)) :
    z = [] ∨ ':' ∈ lastPart '@' a ∧ ':' ∉ z := by
  by_contra hnot
  rw [not_or] at hnot
  obtain ⟨d, z', rfl⟩ := List.exists_cons_of_ne_nil hnot.1
  have hd : isForeign d = true ∧ d ≠ ':' := by
    obtain hz | hz | ⟨-, hz⟩ := h.tail
    · exact absurd hz hnot.1
    · obtain rfl : '\\' = d := (Option.some.inj hz).symm
      decide
    · have hc := hz d List.mem_cons_self
      refine ⟨by rw [isForeign, hc]; rfl, ?_⟩
      rintro rfl
      exact absurd hc (by decide)
  -- The first character of the tail is shown if a colon follows it, or if none is before it.
  have hcolon : ':' ∈ z' ∨ ':' ∉ lastPart '@' a ++ [d] := by
    by_contra hboth
    rw [not_or, not_not] at hboth
    refine hnot.2 ⟨(List.mem_append.mp hboth.2).resolve_right ?_, ?_⟩
    · exact fun hmem => hd.2 (List.mem_singleton.mp hmem).symm
    · exact fun hmem => (List.mem_cons.mp hmem).elim (fun heq => hd.2 heq.symm) hboth.1
  have happend : lastPart '@' a ++ d :: z' = lastPart '@' a ++ [d] ++ z' :=
    List.append_cons _ d z'
  rw [happend] at hopen hforeign
  exact hforeign d hd.1
    (mem_withoutPort hopen hcolon (List.mem_append_right _ List.mem_cons_self))

/-- A hint that is the host is named by the authority or by the tail. -/
theorem Parts.named (h : Parts url scheme s a z r)
    (hbrackets : ∀ c ∈ s ++ (a ++ z), c ≠ '[' ∧ c ≠ ']')
    (hhost : hostOfAuthority parser a = some w) (hw : ∀ c ∈ w, isForeign c = false)
    (heq : shownHost (withoutPort (lastPart '@' (s ++ (a ++ z)))) =
      withoutWww (w.map Char.toLower)) : Named s a z w := by
  by_cases hat : '@' ∈ z
  · refine .tail hat ?_
    rwa [← List.append_assoc, lastPart_append_of_mem hat] at heq
  have hforeign : ∀ c, isForeign c = true → c ∉ withoutPort (lastPart '@' (s ++ (a ++ z))) :=
    fun c hc => notMem_of_shownHost_eq hw heq hc
  have hopen : '[' ∉ s ++ (a ++ z) := fun hmem => (hbrackets _ hmem).1 rfl
  have hstart := h.start hopen hat hforeign
  have hlast : lastPart '@' (s ++ (a ++ z)) = lastPart '@' a ++ z := by
    rw [← List.append_assoc, lastPart_append_of_notMem hat]
    obtain rfl | hmem := hstart
    · rfl
    · rw [lastPart_append_of_mem hmem]
  have hopen' : '[' ∉ lastPart '@' a ++ z := by
    rw [← hlast]
    exact fun hmem => hopen (mem_of_mem_lastPart hmem)
  rw [hlast] at hforeign
  have hport := h.port hopen' hforeign
  refine .authority hat hport hstart ?_
  rwa [withoutPort_lastPart (fun c hc => hbrackets c
    (List.mem_append_right s (List.mem_append_left z hc))) hhost hat hport hstart] at heq

theorem isForeign_of_host (hbrackets : ∀ c ∈ a, c ≠ '[' ∧ c ≠ ']')
    (hhost : hostOfAuthority parser a = some w) : ∀ c ∈ w, isForeign c = false := by
  obtain ⟨text, port, hpart, -, -, -, hparse⟩ := exists_of_hostOfAuthority parser hbrackets hhost
  have hopen : text.head? ≠ some '[' := by
    intro hhead
    have hmem : '[' ∈ lastPart '@' a := by
      rw [hpart]
      exact List.mem_append_left _ (List.mem_of_mem_head? hhead)
    exact (hbrackets _ (mem_of_mem_lastPart hmem)).1 rfl
  intro c hc
  obtain ⟨hspace, hslash, hat, hcolon⟩ := parser.host_clean hparse hopen c hc
  simp [isForeign, hspace, hslash, hat, hcolon]

theorem splits_takeWhile {b : Str} (hscheme : scheme = Urls.https ∨ scheme = Urls.http) :
    Splits (scheme ++ b) scheme (b.takeWhile (fun c => !endsHost c))
      (b.dropWhile (fun c => !endsHost c)) := by
  refine ⟨?_, hscheme, fun c hc => not_stop_of_mem_takeWhile hc,
    fun c r' heq => stop_of_dropWhile heq⟩
  rw [List.takeWhile_append_dropWhile]

theorem noHint_of_hostOf (h : IsUrl url) (hnone : hostOf url = none) : NoHint url := by
  obtain ⟨scheme, b, rfl, hscheme⟩ := h.split
  have hsplits := splits_takeWhile (b := b) hscheme
  refine ⟨scheme, _, _, hsplits, ?_⟩
  rw [hsplits.hostOf_eq] at hnone
  split_ifs at hnone with hempty hlast
  · exact .inl hempty
  · exact (lastPart_eq_nil_iff).mp hlast

theorem ne_bracket_of_mem (h : IsUrl url) {c : Char} (hc : c ∈ url) : c ≠ '[' ∧ c ≠ ']' := by
  have hstop := h.noStop c hc
  constructor <;> rintro rfl <;> exact absurd hstop (by decide)

/-- With a slash behind backslashes, only backslashes are shown. -/
theorem ne_shown_of_slash {y hint : Str} (hscheme : scheme = Urls.https ∨ scheme = Urls.http)
    (hs : ∀ c ∈ s, c = '\\') (hw : ∀ c ∈ w, isForeign c = false)
    (hhint : hostOf (scheme ++ (s ++ '/' :: y)) = some hint) :
    hint ≠ withoutWww (w.map Char.toLower) := by
  have hsplits : Splits (scheme ++ (s ++ '/' :: y)) scheme s ('/' :: y) := by
    refine ⟨rfl, hscheme, fun c hc => ?_, fun c r' heq => ?_⟩
    · rw [hs c hc]
      rfl
    · rw [← (List.cons.inj heq).1]
      rfl
  have hnot : ∀ c, c ≠ '\\' → c ∉ s := fun c hne hc => hne (hs c hc)
  rw [hsplits.hostOf_eq, lastPart_of_notMem (hnot '@' (by decide)),
    withoutPort_of_notMem (hnot '[' (by decide)) (hnot ':' (by decide))] at hhint
  split_ifs at hhint with hempty
  obtain ⟨c, s', rfl⟩ := List.exists_cons_of_ne_nil hempty
  obtain rfl := hs c List.mem_cons_self
  rintro rfl
  exact notMem_of_shownHost_eq hw (Option.some.inj hhint) (by decide) List.mem_cons_self

/-- What `host_of` takes with an authority is nothing, or begins with a backslash, or is the
controls at the end. -/
theorem tail_cases {y ctl : Str} (hy : ∀ c y', y = c :: y' → endsAuthority c = true)
    (hctl : ∀ c ∈ ctl, isC0OrSpace c = true) :
    (y ++ ctl).takeWhile (fun c => !endsHost c) = [] ∨
      ((y ++ ctl).takeWhile (fun c => !endsHost c)).head? = some '\\' ∨
      (y ++ ctl).dropWhile (fun c => !endsHost c) = [] ∧
        ∀ c ∈ (y ++ ctl).takeWhile (fun c => !endsHost c), isC0OrSpace c = true := by
  cases y with
  | nil =>
    right; right
    have hcontrol : ∀ c ∈ ctl, (!endsHost c) = true := by
      intro c hc
      have hspace := hctl c hc
      by_contra hhost
      rw [Bool.not_eq_true, Bool.not_eq_false'] at hhost
      have hall : ∀ d ∈ ['/', '?', '#'], isC0OrSpace d = false := List.forall_of_all (by decide)
      rw [hall c (List.contains_iff_mem.mp hhost)] at hspace
      exact Bool.false_ne_true hspace
    rw [List.nil_append, List.dropWhile_eq_nil_iff]
    exact ⟨hcontrol, fun c hc => hctl c ((List.takeWhile_sublist _).subset hc)⟩
  | cons c y' =>
    by_cases hc : endsHost c = true
    · left
      rw [List.cons_append, List.takeWhile_cons, if_neg (by rw [hc]; exact Bool.false_ne_true)]
    · -- The backslash is the only end of an authority that `host_of` does not know.
      right; left
      have hslash := hy c y' rfl
      rw [List.cons_append, List.takeWhile_cons, if_pos (by simpa using hc), List.head?_cons]
      simp only [endsAuthority, Bool.or_eq_true, decide_eq_true_eq] at hslash
      obtain ((rfl | rfl) | rfl) | rfl := hslash
      · exact absurd rfl hc
      · rfl
      · exact absurd rfl hc
      · exact absurd rfl hc

/-- Behind the authority come the tail and what `host_of` leaves out. -/
theorem parts_of_backslashes {y ctl : Str} (hscheme : scheme = Urls.https ∨ scheme = Urls.http)
    (hs : ∀ c ∈ s, c = '\\') (ha : ∀ c ∈ a, endsAuthority c = false)
    (hy : ∀ c y', y = c :: y' → endsAuthority c = true)
    (hctl : ∀ c ∈ ctl, isC0OrSpace c = true) :
    Parts (scheme ++ (s ++ (a ++ (y ++ ctl)))) scheme s a
      ((y ++ ctl).takeWhile (fun c => !endsHost c))
      ((y ++ ctl).dropWhile (fun c => !endsHost c)) := by
  have hend : ∀ c, endsAuthority c = false → endsHost c = false := by
    intro c hc
    by_contra hhost
    rw [endsAuthority_of_endsHost (Bool.not_eq_false _ ▸ hhost)] at hc
    exact Bool.false_ne_true hc.symm
  refine ⟨⟨?_, hscheme, ?_, fun c r' heq => stop_of_dropWhile heq⟩, hs, ha, tail_cases hy hctl⟩
  · simp only [List.append_assoc, List.takeWhile_append_dropWhile]
  · intro c hc
    rcases List.mem_append.mp hc with hc | hc
    · rw [hs c hc]
      rfl
    · rcases List.mem_append.mp hc with hc | hc
      · exact hend c (ha c hc)
      · exact not_stop_of_mem_takeWhile hc

/-- A URL that leads to the host that is shown has its parts. -/
theorem exists_parts (h : IsUrl url) {hint : Str} (hhint : hostOf url = some hint)
    (hhost : WebUrl.host parser url = some w) (heq : hint = withoutWww (w.map Char.toLower)) :
    ∃ scheme s a z r, Parts url scheme s a z r ∧ hostOfAuthority parser a = some w := by
  obtain ⟨scheme, ss, a, y, ctl, rfl, hscheme, hss, ha, hy, hctl, hauthority⟩ :=
    exists_authority h hhost
  have hbrackets : ∀ c ∈ a, c ≠ '[' ∧ c ≠ ']' := fun c hc =>
    ne_bracket_of_mem h (List.mem_append_right _ (List.mem_append_right _
      (List.mem_append_left _ hc)))
  have hbackslash : ∀ c ∈ ss, c ≠ '/' → c = '\\' := by
    intro c hc hne
    have hslash := hss c hc
    simp only [isSlash, Bool.or_eq_true, decide_eq_true_eq] at hslash
    exact hslash.resolve_left hne
  by_cases hslash : '/' ∈ ss
  · obtain ⟨s, ss', rfl, hs⟩ := List.eq_append_cons_of_mem hslash
    have hs' : ∀ c ∈ s, c = '\\' := fun c hc =>
      hbackslash c (List.mem_append_left _ hc) (fun heq => hs (heq ▸ hc))
    rw [List.append_assoc, List.cons_append] at hhint
    exact absurd heq (ne_shown_of_slash hscheme hs' (isForeign_of_host hbrackets hauthority) hhint)
  · have hs : ∀ c ∈ ss, c = '\\' := fun c hc =>
      hbackslash c hc (fun heq => hslash (heq ▸ hc))
    exact ⟨scheme, ss, a, _, _, parts_of_backslashes hscheme hs ha hy hctl, hauthority⟩

/-- **The hint is the host exactly if the authority names it**, or if there is no hint. -/
theorem hint_is_host_iff {text : Str} {minLength : Nat} (h : url ∈ findLongUrls text minLength) :
    HintIsHost parser url ↔
      NoHint url ∨ ∃ scheme s a z r w, Parts url scheme s a z r ∧
        hostOfAuthority parser a = some w ∧ Named s a z w := by
  have hurl := isUrl_of_mem_findLongUrls h
  have hbrackets : ∀ {scheme s a z r}, Parts url scheme s a z r →
      ∀ c ∈ s ++ (a ++ z), c ≠ '[' ∧ c ≠ ']' := by
    intro scheme s a z r hparts c hc
    refine ne_bracket_of_mem hurl ?_
    rw [hparts.splits.eq]
    exact List.mem_append_right _ (List.mem_append_left _ hc)
  constructor
  · intro hhint
    cases hhost : hostOf url with
    | none => exact .inl (noHint_of_hostOf hurl hhost)
    | some hint =>
      obtain ⟨w, hw, heq⟩ := hhint hint hhost
      obtain ⟨scheme, s, a, z, r, hparts, hauthority⟩ := exists_parts hurl hhost hw heq
      have hforeign := isForeign_of_host
        (fun c hc => hbrackets hparts c (List.mem_append_right s (List.mem_append_left z hc)))
        hauthority
      refine .inr ⟨scheme, s, a, z, r, w, hparts, hauthority,
        hparts.named (hbrackets hparts) hauthority hforeign ?_⟩
      rw [← heq]
      rw [hparts.splits.hostOf_eq] at hhost
      split_ifs at hhost
      exact Option.some.inj hhost
  · rintro (hnone | ⟨scheme, s, a, z, r, w, hparts, hauthority, hnamed⟩) hint hhint
    · rw [hostOf_of_noHint hnone] at hhint
      exact absurd hhint (Option.some_ne_none hint).symm
    · have ha : ∀ c ∈ a, c ≠ '[' ∧ c ≠ ']' :=
        fun c hc => hbrackets hparts c (List.mem_append_right s (List.mem_append_left z hc))
      refine ⟨w, hparts.host_eq hurl.noStop ha hauthority, ?_⟩
      rw [hparts.splits.hostOf_eq] at hhint
      split_ifs at hhint
      rw [← Option.some.inj hhint]
      cases hnamed with
      | authority hat hport hstart hname =>
        rw [withoutPort_lastPart ha hauthority hat hport hstart, hname]
      | tail hat hname =>
        rw [← List.append_assoc, lastPart_append_of_mem hat, hname]

end Parts

/-! ### Names in the authority and behind a backslash -/

namespace Sample

/-- ASCII letters, digits, hyphens and dots. -/
def isNameChar (c : Char) : Bool :=
  let n := c.toNat
  decide (n = 45 ∨ n = 46 ∨ 48 ≤ n ∧ n ≤ 57 ∨ 65 ≤ n ∧ n ≤ 90 ∨ 97 ≤ n ∧ n ≤ 122)

theorem isForeign_of_isNameChar {c : Char} (h : isNameChar c = true) : isForeign c = false := by
  have hname := of_decide_eq_true h
  by_contra hforeign
  rw [Bool.not_eq_false, isForeign_iff] at hforeign
  omega

/-- The host parser on names. -/
def nameParser : HostParser where
  parse := fun t => if t.all isNameChar then some (t.map Char.toLower) else none
  text_clean := by
    intro t w h c hc
    split_ifs at h with hall
    have hclean := isForeign_of_isNameChar (List.all_eq_true.mp hall c hc)
    simp only [isForeign, Bool.or_eq_false_iff] at hclean
    exact hclean.1.1.1
  host_clean := by
    intro t w h _ c hc
    split_ifs at h with hall
    obtain rfl := Option.some.inj h
    obtain ⟨d, hd, rfl⟩ := List.mem_map.mp hc
    have hclean := isForeign_of_isNameChar (List.all_eq_true.mp hall d hd)
    rw [← isForeign_toLower] at hclean
    simp only [isForeign, Bool.or_eq_false_iff, decide_eq_false_iff_not] at hclean
    exact ⟨hclean.1.1.1, hclean.1.1.2, hclean.1.2, hclean.2⟩

end Sample

open Sample in
/-- The host is behind the `@`, and the hint shows it. -/
theorem user_information_is_skipped :
    HintIsHost nameParser (str "https://trusted.com:x@www.evil.com:8443/path") := by
  have hmem : str "https://trusted.com:x@www.evil.com:8443/path" ∈
      findLongUrls (str "see https://trusted.com:x@www.evil.com:8443/path.") 20 := by
    decide
  have hparts : Parts (str "https://trusted.com:x@www.evil.com:8443/path") Urls.https []
      (str "trusted.com:x@www.evil.com:8443") [] (str "/path") := by
    refine ⟨⟨rfl, .inl rfl, List.forall_of_all (by decide), ?_⟩, List.forall_of_all (by decide),
      List.forall_of_all (by decide), .inl rfl⟩
    intro c r' heq
    rw [← (List.cons.inj heq).1]
    rfl
  have hhost : hostOfAuthority nameParser (str "trusted.com:x@www.evil.com:8443") =
      some (str "www.evil.com") := by
    decide
  exact (hint_is_host_iff hmem).mpr (.inr ⟨_, _, _, _, _, _, hparts, hhost,
    .authority (by decide) (.inl rfl) (.inl rfl) (by decide)⟩)

open Sample in
/-- The backslash ends the authority, but not for `host_of`. -/
theorem backslash_spoofs_the_hint :
    str "https://evil.com\\@trusted.com/" ∈
        findLongUrls (str "see https://evil.com\\@trusted.com/") 20 ∧
      hostOf (str "https://evil.com\\@trusted.com/") = some (str "trusted.com") ∧
      WebUrl.host nameParser (str "https://evil.com\\@trusted.com/") = some (str "evil.com") ∧
      ¬HintIsHost nameParser (str "https://evil.com\\@trusted.com/") := by
  have hhint : hostOf (str "https://evil.com\\@trusted.com/") = some (str "trusted.com") := by
    decide
  have hhost : WebUrl.host nameParser (str "https://evil.com\\@trusted.com/") =
      some (str "evil.com") := by
    decide
  refine ⟨by decide, hhint, hhost, fun h => ?_⟩
  obtain ⟨w, hw, heq⟩ := h _ hhint
  rw [hhost] at hw
  rw [← Option.some.inj hw] at heq
  exact absurd heq (by decide)

end Repartee.Shrink
