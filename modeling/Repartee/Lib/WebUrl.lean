import Mathlib.Data.List.Basic
import Mathlib.Data.List.DropRight

/-!
# The host of a web address

Which host an address with the scheme `http` or `https` leads to, as the URL standard parses it
without a base URL: controls around the address are stripped, slashes and backslashes behind the
scheme are skipped, the authority ends at the next one, at `?` or at `#`, and its host is between
the last `@` and a port. What the standard makes of the text of a host (percent-decoding,
internationalised names, numbers) is a parameter.

## Main definitions

- `HostParser`: the host parser
- `authority`, `hostOfAuthority`, `host`: the authority of an address, and its host

## Main results

- `authority_eq`: where the authority is
- `exists_of_hostOfAuthority`: what an authority with a host looks like
-/

set_option autoImplicit false

namespace WebUrl

def isC0OrSpace (c : Char) : Bool := decide (c.toNat ≤ 0x20)

def isTabOrNewline (c : Char) : Bool := c = '\t' || c = '\n' || c = '\r'

def isSlash (c : Char) : Bool := c = '/' || c = '\\'

/-- The end of the authority of a special URL. -/
def endsAuthority (c : Char) : Bool := c = '/' || c = '\\' || c = '?' || c = '#'

/-- Controls and spaces around an address are stripped, tabs and newlines in it are removed. -/
def cleaned (input : List Char) : List Char :=
  ((input.dropWhile isC0OrSpace).rdropWhile isC0OrSpace).filter (fun c => !isTabOrNewline c)

/-- What is behind the scheme. -/
def afterScheme (input : List Char) : Option (List Char) :=
  if (input.take 6).map Char.toLower = ['h', 't', 't', 'p', 's', ':'] then some (input.drop 6)
  else if (input.take 5).map Char.toLower = ['h', 't', 't', 'p', ':'] then some (input.drop 5)
  else none

def authority (input : List Char) : Option (List Char) :=
  (afterScheme (cleaned input)).map (fun r =>
    (r.dropWhile isSlash).takeWhile (fun c => !endsAuthority c))

/-- What is behind the last separator. -/
def lastPart (sep : Char) (s : List Char) : List Char := s.rtakeWhile (fun c => !decide (c = sep))

/-- The text of the host, up to a colon outside brackets, and that of the port. -/
def hostAndPort (insideBrackets : Bool) : List Char → List Char × Option (List Char)
  | [] => ([], none)
  | c :: cs =>
    if c = ':' ∧ insideBrackets = false then ([], some cs)
    else
      let inside := if c = '[' then true else if c = ']' then false else insideBrackets
      let (text, port) := hostAndPort inside cs
      (c :: text, port)

/-- A port is at most 65535, or empty. -/
def portOk : Option (List Char) → Bool
  | none => true
  | some digits => digits.all Char.isDigit && decide (Nat.ofDigitChars 10 digits 0 ≤ 65535)

/-- The host parser. It fails on controls, and the hosts that are not in brackets have no forbidden
characters. -/
structure HostParser where
  parse : List Char → Option (List Char)
  text_clean : ∀ {t w}, parse t = some w → ∀ c ∈ t, isC0OrSpace c = false
  host_clean : ∀ {t w}, parse t = some w → t.head? ≠ some '[' → ∀ c ∈ w,
    isC0OrSpace c = false ∧ c ≠ '\\' ∧ c ≠ '@' ∧ c ≠ ':'

variable (parser : HostParser)

def hostOfAuthority (a : List Char) : Option (List Char) :=
  let (text, port) := hostAndPort false (lastPart '@' a)
  if text = [] then none
  else if portOk port then parser.parse text
  else none

/-- The host that an address leads to. -/
def host (input : List Char) : Option (List Char) :=
  (authority input).bind (hostOfAuthority parser)

/-! ### The last part -/

section LastPart

variable {sep : Char} {a b s : List Char}

theorem lastPart_of_notMem (h : sep ∉ s) : lastPart sep s = s := by
  refine List.rtakeWhile_eq_self_iff.mpr (fun c hc => ?_)
  have hne : c ≠ sep := fun heq => h (heq ▸ hc)
  simp [hne]

theorem lastPart_append_cons (h : sep ∉ b) : lastPart sep (a ++ sep :: b) = b := by
  have hall : ∀ c ∈ b.reverse, (!decide (c = sep)) = true := by
    intro c hc
    have hne : c ≠ sep := fun heq => h (heq ▸ List.mem_reverse.mp hc)
    simp [hne]
  rw [lastPart, List.rtakeWhile, List.reverse_append, List.reverse_cons, List.append_assoc,
    List.takeWhile_append_of_pos hall]
  simp

theorem exists_last_split (h : sep ∈ s) : ∃ a b, s = a ++ sep :: b ∧ sep ∉ b := by
  obtain ⟨a, b, hs, ha⟩ := List.eq_append_cons_of_mem (List.mem_reverse.mpr h)
  refine ⟨b.reverse, a.reverse, ?_, fun hmem => ha (List.mem_reverse.mp hmem)⟩
  rw [← List.reverse_inj, hs]
  simp

theorem lastPart_append_of_mem (h : sep ∈ b) (a : List Char) :
    lastPart sep (a ++ b) = lastPart sep b := by
  obtain ⟨b₁, b₂, rfl, hb⟩ := exists_last_split h
  rw [← List.append_assoc, lastPart_append_cons hb, lastPart_append_cons hb]

theorem lastPart_append_of_notMem (h : sep ∉ b) (a : List Char) :
    lastPart sep (a ++ b) = lastPart sep a ++ b := by
  by_cases ha : sep ∈ a
  · obtain ⟨a₁, a₂, rfl, ha₂⟩ := exists_last_split ha
    have hnot : sep ∉ a₂ ++ b := fun hmem => (List.mem_append.mp hmem).elim ha₂ h
    rw [List.append_assoc, List.cons_append, lastPart_append_cons hnot, lastPart_append_cons ha₂]
  · rw [lastPart_of_notMem ha]
    exact lastPart_of_notMem (fun hmem => (List.mem_append.mp hmem).elim ha h)

theorem mem_of_mem_lastPart {c : Char} (h : c ∈ lastPart sep s) : c ∈ s :=
  (List.rtakeWhile_suffix _ s).subset h

end LastPart

/-! ### The host and the port -/

theorem hostAndPort_append_colon {t : List Char} (ht : ∀ c ∈ t, c ≠ ':' ∧ c ≠ '[' ∧ c ≠ ']')
    (port : List Char) : hostAndPort false (t ++ ':' :: port) = (t, some port) := by
  induction t with
  | nil => rfl
  | cons c t ih =>
    obtain ⟨hcolon, hopen, hclose⟩ := ht c List.mem_cons_self
    rw [List.cons_append, hostAndPort, if_neg (fun h => hcolon h.1)]
    simp only [if_neg hopen, if_neg hclose, ih (fun d hd => ht d (List.mem_cons_of_mem c hd))]

theorem hostAndPort_of_no_colon {t : List Char} (ht : ∀ c ∈ t, c ≠ ':' ∧ c ≠ '[' ∧ c ≠ ']') :
    hostAndPort false t = (t, none) := by
  induction t with
  | nil => rfl
  | cons c t ih =>
    obtain ⟨hcolon, hopen, hclose⟩ := ht c List.mem_cons_self
    rw [hostAndPort, if_neg (fun h => hcolon h.1)]
    simp only [if_neg hopen, if_neg hclose, ih (fun d hd => ht d (List.mem_cons_of_mem c hd))]

/-- An authority with a host ends in the text of the host and maybe a port, whose digits come
behind the only colon. -/
theorem exists_of_hostOfAuthority {a w : List Char} (hbrackets : ∀ c ∈ a, c ≠ '[' ∧ c ≠ ']')
    (h : hostOfAuthority parser a = some w) :
    ∃ text port, lastPart '@' a = text ++ port ∧ text ≠ [] ∧ ':' ∉ text ∧
      (port = [] ∨ ∃ digits, port = ':' :: digits ∧ ∀ c ∈ digits, c.isDigit = true) ∧
      parser.parse text = some w := by
  have hpart : ∀ c ∈ lastPart '@' a, c ≠ '[' ∧ c ≠ ']' :=
    fun c hc => hbrackets c (mem_of_mem_lastPart hc)
  rw [hostOfAuthority] at h
  generalize lastPart '@' a = part at h hpart
  by_cases hcolon : ':' ∈ part
  · obtain ⟨text, port, rfl, htext⟩ := List.eq_append_cons_of_mem hcolon
    have hclean : ∀ c ∈ text, c ≠ ':' ∧ c ≠ '[' ∧ c ≠ ']' := fun c hc =>
      ⟨fun heq => htext (heq ▸ hc), hpart c (List.mem_append_left _ hc)⟩
    rw [hostAndPort_append_colon hclean] at h
    simp only at h
    split_ifs at h with hempty hport
    rw [portOk, Bool.and_eq_true, List.all_eq_true] at hport
    exact ⟨text, ':' :: port, rfl, hempty, htext, .inr ⟨port, rfl, hport.1⟩, h⟩
  · have hclean : ∀ c ∈ part, c ≠ ':' ∧ c ≠ '[' ∧ c ≠ ']' := fun c hc =>
      ⟨fun heq => hcolon (heq ▸ hc), hpart c hc⟩
    rw [hostAndPort_of_no_colon hclean] at h
    simp only at h
    split_ifs at h with hempty hport
    exact ⟨part, [], (List.append_nil part).symm, hempty, hcolon, .inl rfl, h⟩

/-- An authority with a host ends in no control. -/
theorem ends_of_hostOfAuthority {a w : List Char} (hbrackets : ∀ c ∈ a, c ≠ '[' ∧ c ≠ ']')
    (h : hostOfAuthority parser a = some w) :
    ∃ a' c, a = a' ++ [c] ∧ isC0OrSpace c = false := by
  obtain ⟨text, port, hpart, hempty, -, hport, hparse⟩ :=
    exists_of_hostOfAuthority parser hbrackets h
  have hclean : ∀ c ∈ text ++ port, isC0OrSpace c = false := by
    intro c hc
    rcases List.mem_append.mp hc with hc | hc
    · exact parser.text_clean hparse c hc
    · obtain rfl | ⟨digits, rfl, hdigits⟩ := hport
      · exact absurd hc List.not_mem_nil
      · rcases List.mem_cons.mp hc with rfl | hc
        · rfl
        · have hdigit := (Char.isDigit_iff_toNat.mp (hdigits c hc)).1
          have hzero : '0'.toNat = 48 := rfl
          exact decide_eq_false (by omega)
  obtain ⟨pre, hpre⟩ : lastPart '@' a <:+ a := List.rtakeWhile_suffix _ a
  have hne : text ++ port ≠ [] := List.append_ne_nil_of_left_ne_nil hempty port
  refine ⟨pre ++ (text ++ port).dropLast, (text ++ port).getLast hne, ?_,
    hclean _ (List.getLast_mem hne)⟩
  rw [List.append_assoc, List.dropLast_concat_getLast hne, ← hpart, hpre]

/-! ### Where the authority is -/

/-- An address without whitespace only loses the controls at its end. -/
theorem cleaned_eq {input : List Char} {c : Char} {cs : List Char} (hinput : input = c :: cs)
    (hc : isC0OrSpace c = false) (hclean : ∀ c ∈ input, isTabOrNewline c = false) :
    cleaned input = input.rdropWhile isC0OrSpace := by
  have hstart : input.dropWhile isC0OrSpace = input := by
    rw [hinput, List.dropWhile_cons, if_neg (by rw [hc]; exact Bool.false_ne_true)]
  rw [cleaned, hstart]
  refine List.filter_eq_self.mpr (fun d hd => ?_)
  rw [hclean d ((List.rdropWhile_prefix _ input).subset hd)]
  rfl

/-- What ends in no control keeps it. -/
theorem rdropWhile_append {p : Char → Bool} {c : Char} (hc : p c = false) (x y : List Char) :
    (x ++ [c] ++ y).rdropWhile p = x ++ [c] ++ y.rdropWhile p := by
  have hkept : (x ++ [c]).reverse.dropWhile p = (x ++ [c]).reverse := by
    rw [List.reverse_append, List.reverse_singleton, List.singleton_append, List.dropWhile_cons,
      if_neg (by rw [hc]; exact Bool.false_ne_true)]
  rw [List.rdropWhile, List.reverse_append, List.dropWhile_append, hkept]
  split_ifs with hempty
  · rw [List.rdropWhile, List.isEmpty_iff.mp hempty, List.reverse_reverse, List.reverse_nil,
      List.append_nil]
  · rw [List.reverse_append, List.reverse_reverse, List.rdropWhile]

theorem takeWhile_append_stop {p : Char → Bool} {a y : List Char} (ha : ∀ c ∈ a, p c = true)
    (hy : ∀ c r, y = c :: r → p c = false) : (a ++ y).takeWhile p = a := by
  rw [List.takeWhile_append_of_pos ha]
  cases y with
  | nil => exact List.append_nil a
  | cons c r =>
    rw [List.takeWhile_cons, if_neg (by rw [hy c r rfl]; exact Bool.false_ne_true),
      List.append_nil]

theorem stop_of_dropWhile {stop : Char → Bool} {s r : List Char} {c : Char}
    (h : s.dropWhile (fun c => !stop c) = c :: r) : stop c = true := by
  have hhead := List.head?_dropWhile_not (fun c => !stop c) s
  rw [h] at hhead
  simpa using hhead

theorem not_stop_of_mem_takeWhile {stop : Char → Bool} {s : List Char} {c : Char}
    (h : c ∈ s.takeWhile (fun c => !stop c)) : stop c = false := by
  simpa using List.mem_takeWhile_imp h

/-- The authority is behind the scheme and the slashes after it. -/
theorem authority_eq {input scheme slashes a y : List Char}
    (hscheme : scheme = ['h', 't', 't', 'p', 's', ':', '/', '/'] ∨
      scheme = ['h', 't', 't', 'p', ':', '/', '/'])
    (hcleaned : cleaned input = scheme ++ (slashes ++ (a ++ y)))
    (hslashes : ∀ c ∈ slashes, isSlash c = true) (hne : a ≠ [])
    (ha : ∀ c ∈ a, endsAuthority c = false) (hy : ∀ c r, y = c :: r → endsAuthority c = true) :
    authority input = some a := by
  have hafter : ∃ ss, (∀ c ∈ ss, isSlash c = true) ∧
      afterScheme (cleaned input) = some (ss ++ (a ++ y)) := by
    refine ⟨'/' :: '/' :: slashes, ?_, ?_⟩
    · intro c hc
      rcases List.mem_cons.mp hc with rfl | hc
      · rfl
      · rcases List.mem_cons.mp hc with rfl | hc
        · rfl
        · exact hslashes c hc
    · rw [hcleaned]
      obtain rfl | rfl := hscheme <;> rfl
  obtain ⟨ss, hss, hafter⟩ := hafter
  have hdrop : (ss ++ (a ++ y)).dropWhile isSlash = a ++ y := by
    rw [List.dropWhile_append_of_pos hss]
    obtain ⟨c, a, rfl⟩ := List.exists_cons_of_ne_nil hne
    have hc : isSlash c = false := by
      have hend := ha c List.mem_cons_self
      simp only [endsAuthority, isSlash, Bool.or_eq_false_iff] at hend ⊢
      exact ⟨hend.1.1.1, hend.1.1.2⟩
    rw [List.cons_append, List.dropWhile_cons, if_neg (by rw [hc]; exact Bool.false_ne_true)]
  rw [authority, hafter, Option.map_some, hdrop, takeWhile_append_stop]
  · intro c hc
    rw [ha c hc]
    rfl
  · intro c r heq
    rw [hy c r heq]
    rfl

end WebUrl
