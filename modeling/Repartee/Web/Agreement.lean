import Repartee.Web.Codes

/-!
# Where the two parsers agree

From a code that the two parsers read differently on, they are out of step, and what one of them
has shown more than the other is never made up for: with the weights below, the terminal's text
is from then on heavier.

## Main definitions

- `weight`: the weights of the characters
- `Bounds`: how far the web client's text can be heavier, for each way of being out of step
- `SameText`: the two clients show the same text

## Main results

- `sameText_iff`: a text without variables shows the same in both if and only if it is in step
-/

set_option autoImplicit false

namespace Repartee.Web

open Theme (mircControls isUnknownCode isHexChar hasStray)

/-! ### Out of step -/

/-- What one parser shows of a code that the other reads differently is weighed so that it never
evens out: a `Z` weighs more than six characters and what they may hide. -/
def weight (c : Char) : Int :=
  if c = 'Z' ∨ c = 'z' then 16
  else if c = Char.ofNat 0x03 ∨ c = Char.ofNat 0x04 then 6
  else if c = '%' ∨ c = ',' then 1
  else if c = Char.ofNat 0x11 then -1
  else if c = '|' ∨ isHexChar c then -2
  else 0

def totalWeight (s : Str) : Int := (s.map weight).sum

@[simp] theorem totalWeight_nil : totalWeight [] = 0 := rfl

@[simp] theorem totalWeight_cons (c : Char) (s : Str) :
    totalWeight (c :: s) = weight c + totalWeight s := List.sum_cons

@[simp] theorem totalWeight_append (a b : Str) :
    totalWeight (a ++ b) = totalWeight a + totalWeight b := by
  rw [totalWeight, List.map_append, List.sum_append]
  rfl

theorem le_weight (c : Char) : -2 ≤ weight c := by
  unfold weight
  split_ifs <;> decide

theorem weight_of_hex {c : Char} (h : c = 'Z' ∨ c = 'z') : weight c = 16 := if_pos h

theorem weight_of_isHexChar {c : Char} (h : isHexChar c = true) : weight c = -2 := by
  have hne : ∀ d, isHexChar d = false → c ≠ d := by
    rintro d hd rfl
    rw [h] at hd
    cases hd
  rw [weight, if_neg, if_neg, if_neg, if_neg, if_pos (.inr h)]
  · exact hne _ (by decide)
  · exact not_or.mpr ⟨hne _ (by decide), hne _ (by decide)⟩
  · exact not_or.mpr ⟨hne _ (by decide), hne _ (by decide)⟩
  · exact not_or.mpr ⟨hne _ (by decide), hne _ (by decide)⟩

theorem weight_of_mem_quietCodes {c : Char} (h : c ∈ '|' :: 'U' :: 'I' :: quietCodes) :
    weight c ≤ 0 := by
  have hall : ('|' :: 'U' :: 'I' :: quietCodes).all (fun d => weight d ≤ 0) = true := by
    decide +kernel
  exact of_decide_eq_true (List.all_eq_true.mp hall c h)

theorem weight_of_mem_quietControls {c : Char} (h : c ∈ quietControls) : weight c = 0 := by
  have hall : quietControls.all (fun d => weight d = 0) = true := by decide +kernel
  exact of_decide_eq_true (List.all_eq_true.mp hall c h)

/-- Arguments weigh nothing at most: a comma has a digit behind it. -/
theorem totalWeight_of_isArgs {a : Str} (h : isArgs a = true) :
    totalWeight a ≤ if a.head?.any isHexChar then -2 else 0 := by
  induction a with
  | nil => exact Int.le_refl 0
  | cons c a ih =>
    rw [isArgs, Bool.and_eq_true, Bool.or_eq_true, Bool.and_eq_true, decide_eq_true_eq] at h
    have hrest := ih h.2
    rw [totalWeight_cons, List.head?_cons, Option.any_some]
    rcases h.1 with hhex | ⟨rfl, hnext⟩
    · rw [weight_of_isHexChar hhex, if_pos hhex]
      split at hrest <;> omega
    · have hcomma : weight ',' = 1 := by decide
      rw [if_pos hnext] at hrest
      have hno : ¬ isHexChar ',' = true := by decide
      rw [hcomma, if_neg hno]
      omega

theorem totalWeight_take_le {s : Str} {n : Nat} : -2 * n ≤ totalWeight (s.take n) := by
  induction n generalizing s with
  | zero => exact Int.le_refl 0
  | succ n ih =>
    cases s with
    | nil =>
      rw [List.take_nil, totalWeight_nil]
      omega
    | cons c s =>
      have hc := le_weight c
      have hs := @ih s
      rw [List.take_succ_cons, totalWeight_cons]
      omega

/-- The weight of what the terminal shows. -/
def terminalWeight (s : Str) : Int := totalWeight (terminalText s)

/-- The weight of what the web client shows. -/
def webWeight (s : Str) : Int := totalWeight (stripFormat s)

/-- What is known of the two parsers when they come to `s`, both or one of them behind a `%` that
the other has read: the web client's text is not heavier, up to a constant. -/
structure Bounds (s : Str) : Prop where
  together : hasStray s = false → webWeight s ≤ terminalWeight s
  apart : hasStray s = false → ¬ InStep s → webWeight s < terminalWeight s
  webFirst : hasStray ('%' :: s) = false → webWeight s ≤ terminalWeight ('%' :: s) + 6
  terminalFirst : hasStray s = false → webWeight ('%' :: s) ≤ terminalWeight s + 7

/-- Where the terminal reads arguments that the web client shows or has passed. -/
theorem region_args {s : Str} (h : ∀ n, Bounds (s.drop n)) {r : Str} {n : Nat}
    (hr : ∀ k, hasStray (r.drop k ++ s) = false →
      webWeight s ≤ terminalWeight (r.drop k ++ s) + 4 + 2 * r.length)
    (hargs : isArgs ((r ++ s).take n) = true) (hstray : hasStray (r ++ s) = false) :
    webWeight s ≤ terminalWeight ((r ++ s).drop n) + 4 + 2 * r.length := by
  have hdrop := hasStray_drop (isArg_of_isArgs hargs)
  rw [hstray] at hdrop
  by_cases hle : n ≤ r.length
  · rw [List.drop_append_of_le_length hle] at hdrop ⊢
    exact hr n hdrop
  · have hcut : (r ++ s).drop n = s.drop (n - r.length) := by
      rw [List.drop_append, List.drop_eq_nil_of_le (by omega), List.nil_append]
    have hpast : isArgs (s.take (n - r.length)) = true := by
      rw [List.take_append] at hargs
      exact isArgs_right hargs
    have hshown := stripFormat_append (isArg_of_isArgs hpast) (s.drop (n - r.length))
    have hweight := totalWeight_of_isArgs hpast
    rw [List.take_append_drop] at hshown
    rw [hcut] at hdrop ⊢
    have hrest := (h (n - r.length)).together hdrop
    rw [webWeight, hshown, totalWeight_append]
    rw [webWeight] at hrest
    split at hweight <;> omega

theorem hasStray_percent {c : Char} {s : Str} (h : hasStray ('%' :: c :: s) = false) :
    c.toNat < 128 ∧ hasStray s = false := by
  rw [hasStray, Bool.or_eq_false_iff, decide_eq_false_iff_not] at h
  exact ⟨Nat.lt_of_not_le h.1, h.2⟩

theorem weight_percent : weight '%' = 1 := by decide

/-- A `%` and its letter, in the terminal: what is shown of them, and the arguments. -/
theorem terminal_percent {c : Char} (hlt : c.toNat < 128) (s : Str) :
    ∃ u n, terminalText ('%' :: c :: s) = u ++ terminalText (s.drop n) ∧
      isArgs (s.take n) = true ∧ -1 ≤ totalWeight u := by
  have hkept : -1 ≤ totalWeight ['%', c] := by
    have hc := le_weight c
    rw [totalWeight_cons, totalWeight_cons, totalWeight_nil, weight_percent]
    omega
  cases letter c with
  | hex hz =>
    cases hfront : hexFront s with
    | true => exact ⟨[], 6, terminalText_hex hz hfront, isArgs_hexFront hfront, by decide⟩
    | false => exact ⟨['%', c], 0, terminalText_broken hz hfront, rfl, hkept⟩
  | percent => exact ⟨['%'], 0, terminalText_percent_percent s, rfl, by decide⟩
  | quiet hq => exact ⟨[], 0, terminalText_quiet (List.mem_cons_of_mem _ hq) s, rfl, by decide⟩
  | upper hupper =>
    have hunknown : isUnknownCode c = true := by rcases hupper with rfl | rfl <;> decide
    exact ⟨['%', c], 0, terminalText_unknown hunknown s, rfl, hkept⟩
  | bar => exact ⟨[], 0, terminalText_quiet List.mem_cons_self s, rfl, by decide⟩
  | unknown hunknown => exact ⟨['%', c], 0, terminalText_unknown hunknown s, rfl, hkept⟩
  | stray hle => exact absurd hlt (Nat.not_lt.mpr hle)

/-- The terminal, inside a region that the web client has passed without showing it. -/
theorem region {s : Str} (h : ∀ n, Bounds (s.drop n)) (r : Str)
    (hstray : hasStray (r ++ s) = false) :
    webWeight s ≤ terminalWeight (r ++ s) + 4 + 2 * r.length := by
  induction hn : r.length using Nat.strong_induction_on generalizing r with
  | h n ih =>
    subst hn
    cases r with
    | nil =>
      have htogether := (h 0).together hstray
      rw [List.nil_append, List.length_nil]
      rw [List.drop_zero] at htogether
      omega
    | cons c r =>
      have hlater : ∀ k, hasStray (r.drop k ++ s) = false →
          webWeight s ≤ terminalWeight (r.drop k ++ s) + 4 + 2 * r.length := by
        intro k hk
        have hlen : (r.drop k).length ≤ r.length := (List.drop_sublist k r).length_le
        have hrest := ih (r.drop k).length (by rw [List.length_cons]; omega) _ hk rfl
        omega
      rw [List.length_cons, List.cons_append]
      rw [List.cons_append] at hstray
      cases front c with
      | percent =>
        cases r with
        | nil =>
          have hfirst := (h 0).webFirst hstray
          rw [List.drop_zero] at hfirst
          simp only [List.nil_append, List.length_nil]
          omega
        | cons d r =>
          obtain ⟨hlt, hrest⟩ := hasStray_percent hstray
          obtain ⟨u, n, hu, hargs, hweight⟩ := terminal_percent hlt (r ++ s)
          have hlater' : ∀ k, hasStray (r.drop k ++ s) = false →
              webWeight s ≤ terminalWeight (r.drop k ++ s) + 4 + 2 * r.length := by
            intro k hk
            have hlen : (r.drop k).length ≤ r.length := (List.drop_sublist k r).length_le
            have hr := ih (r.drop k).length
              (by rw [List.length_cons, List.length_cons]; omega) _ hk rfl
            omega
          have hregion := region_args h hlater' hargs hrest
          rw [List.cons_append, List.length_cons, terminalWeight, hu, totalWeight_append,
            ← terminalWeight]
          omega
      | mirc =>
        rw [Theme.hasStray_cons_of_ne (by decide)] at hstray
        have hargs := region_args h hlater (isArgs_mirc (r ++ s)) hstray
        rw [terminalWeight, terminalText_mirc, ← terminalWeight]
        omega
      | hexColor =>
        rw [Theme.hasStray_cons_of_ne (by decide)] at hstray
        have hargs := region_args h hlater (isArgs_hex (r ++ s)) hstray
        rw [terminalWeight, terminalText_hexColor, ← terminalWeight]
        omega
      | monospace =>
        rw [Theme.hasStray_cons_of_ne (by decide)] at hstray
        have hrest := hlater 0 hstray
        rw [List.drop_zero] at hrest
        rw [terminalWeight, terminalText_control List.mem_cons_self, ← terminalWeight]
        omega
      | quiet hq =>
        have hp : c ≠ '%' := by
          rintro rfl
          exact absurd hq (by decide)
        rw [Theme.hasStray_cons_of_ne hp] at hstray
        have hrest := hlater 0 hstray
        rw [List.drop_zero] at hrest
        rw [terminalWeight, terminalText_control (List.mem_cons_of_mem _ hq), ← terminalWeight]
        omega
      | plain hp hc =>
        rw [Theme.hasStray_cons_of_ne hp] at hstray
        have hrest := hlater 0 hstray
        have hweight := le_weight c
        rw [List.drop_zero] at hrest
        rw [terminalWeight, terminalText_plain hp hc, totalWeight_cons, ← terminalWeight]
        omega

theorem terminalWeight_append {a : Str} (h : ∀ c ∈ a, isArg c = true) (s : Str) :
    terminalWeight (a ++ s) = totalWeight a + terminalWeight s := by
  rw [terminalWeight, terminalText_append h, totalWeight_append, terminalWeight]

theorem webWeight_append {a : Str} (h : ∀ c ∈ a, isArg c = true) (s : Str) :
    webWeight (a ++ s) = totalWeight a + webWeight s := by
  rw [webWeight, stripFormat_append h, totalWeight_append, webWeight]

theorem totalWeight_of_hexFront {s : Str} (h : hexFront s = true) :
    totalWeight (s.take 6) = -12 := by
  have hconst : (s.take 6).map weight = List.replicate 6 (-2) := by
    rw [List.eq_replicate_iff, List.length_map, List.length_take]
    refine ⟨Nat.min_eq_left (length_of_hexFront h), ?_⟩
    intro w hw
    obtain ⟨c, hc, rfl⟩ := List.mem_map.mp hw
    exact weight_of_isHexChar (isHexChar_of_hexFront h c hc)
  rw [totalWeight, hconst]
  rfl

theorem webWeight_hexFront {s : Str} (h : hexFront s = true) :
    webWeight s = -12 + webWeight (s.drop 6) := by
  have happend := webWeight_append (isArg_of_isArgs (isArgs_hexFront h)) (s.drop 6)
  rwa [List.take_append_drop, totalWeight_of_hexFront h] at happend

theorem webMircLength_le (s : Str) : webMircLength s ≤ 6 := by
  have hdigits : ∀ t, (digits t).length ≤ 2 := by
    intro t
    have hle := (List.takeWhile_prefix (l := t.take 2) Char.isDigit).length_le
    rw [List.length_take] at hle
    exact hle.trans (Nat.min_le_left _ _)
  have hback : ∀ t, backgroundLength t ≤ 3 := by
    intro t
    unfold backgroundLength
    split
    · rename_i t
      have hle := hdigits t
      split <;> omega
    · exact Nat.zero_le _
  have hfg := hdigits s
  have hbg := hback (s.drop (digits s).length)
  rw [webMircLength, mircLength]
  split <;> split <;> omega

theorem bounds_nil : Bounds [] where
  together _ := by
    rw [terminalWeight, terminalText_nil]
    decide
  apart _ h := absurd .nil h
  webFirst _ := by
    rw [terminalWeight, terminalText_percent]
    decide
  terminalFirst _ := by
    rw [terminalWeight, terminalText_nil]
    decide

/-- A character that is no `%`, in the web client: what is shown of it, and the arguments. -/
theorem web_front {c : Char} (hp : c ≠ '%') (s : Str) :
    ∃ u n, stripFormat (c :: s) = u ++ stripFormat (s.drop n) ∧
      (∀ d ∈ s.take n, isArg d = true) ∧ totalWeight u + 2 * n ≤ weight c + 6 := by
  have hshown : totalWeight [c] = weight c := Int.add_zero _
  have hnone : ∀ d ∈ s.take 0, isArg d = true := fun d hd => nomatch hd
  cases front c with
  | percent => exact absurd rfl hp
  | mirc =>
    have hlen := webMircLength_le s
    have hweight : weight (Char.ofNat 0x03) = 6 := by decide
    refine ⟨[], webMircLength s, stripFormat_mirc s, isArg_webMirc s, ?_⟩
    rw [hweight, totalWeight_nil]
    omega
  | hexColor =>
    have hweight : weight (Char.ofNat 0x04) = 6 := by decide
    refine ⟨[], _, stripFormat_hexColor s, ?_, ?_⟩
    · split
      · rename_i hfront
        exact isArg_of_isArgs (isArgs_hexFront hfront)
      · exact hnone
    · rw [hweight, totalWeight_nil]
      split <;> omega
  | monospace =>
    refine ⟨[Char.ofNat 0x11], 0, stripFormat_plain (by decide) (by decide) s, hnone, ?_⟩
    rw [hshown]
    omega
  | quiet hq =>
    refine ⟨[], 0, stripFormat_control hq s, hnone, ?_⟩
    rw [weight_of_mem_quietControls hq]
    decide
  | plain hp hc =>
    refine ⟨[c], 0, stripFormat_plain hp (fun h => hc ((List.dropLast_sublist _).subset h)) s,
      hnone, ?_⟩
    rw [hshown]
    omega

/-- A character that is no `%`, in the terminal. -/
theorem terminal_front {c : Char} (hp : c ≠ '%') (s : Str) :
    ∃ u n, terminalText (c :: s) = u ++ terminalText (s.drop n) ∧ isArgs (s.take n) = true ∧
      weight c ≤ totalWeight u + 6 ∧ -2 ≤ totalWeight u := by
  have hnil : -2 ≤ totalWeight [] := by decide
  cases front c with
  | percent => exact absurd rfl hp
  | mirc => exact ⟨[], mircLength s, terminalText_mirc s, isArgs_mirc s, by decide, hnil⟩
  | hexColor => exact ⟨[], hexLength s, terminalText_hexColor s, isArgs_hex s, by decide, hnil⟩
  | monospace => exact ⟨[], 0, terminalText_control List.mem_cons_self s, rfl, by decide, hnil⟩
  | quiet hq =>
    refine ⟨[], 0, terminalText_control (List.mem_cons_of_mem _ hq) s, rfl, ?_, hnil⟩
    rw [weight_of_mem_quietControls hq]
    decide
  | plain hp hc =>
    have hshown : totalWeight [c] = weight c := Int.add_zero _
    refine ⟨[c], 0, terminalText_plain hp hc s, rfl, ?_, ?_⟩
    · rw [hshown]
      omega
    · rw [hshown]
      exact le_weight c

/-- The terminal is at the `%` in front of `c`, and the web client behind it. -/
theorem webFirst_cons {c : Char} {s : Str} (h : ∀ n, Bounds (s.drop n))
    (hstray : hasStray ('%' :: c :: s) = false) :
    webWeight (c :: s) ≤ terminalWeight ('%' :: c :: s) + 6 := by
  obtain ⟨hlt, hrest⟩ := hasStray_percent hstray
  have htogether := (h 0).together hrest
  rw [List.drop_zero] at htogether
  by_cases hp : c = '%'
  · subst hp
    have hfirst := (h 0).terminalFirst hrest
    rw [List.drop_zero] at hfirst
    rw [terminalWeight, terminalText_percent_percent, totalWeight_cons, weight_percent,
      ← terminalWeight]
    omega
  obtain ⟨u, n, hweb, hargs, hweight⟩ := web_front hp s
  have hdrop := (h n).together ((hasStray_drop hargs).trans hrest)
  have hpushed := terminalWeight_append hargs (s.drop n)
  have htake := @totalWeight_take_le s n
  rw [List.take_append_drop] at hpushed
  have hkept : terminalText ('%' :: c :: s) = '%' :: c :: terminalText s →
      webWeight (c :: s) ≤ terminalWeight ('%' :: c :: s) + 6 := by
    intro hterminal
    rw [webWeight, hweb, totalWeight_append, ← webWeight, terminalWeight, hterminal,
      totalWeight_cons, totalWeight_cons, weight_percent, ← terminalWeight]
    omega
  have hquiet : c ∈ '|' :: quietCodes →
      webWeight (c :: s) ≤ terminalWeight ('%' :: c :: s) + 6 := by
    intro hq
    have hmem : c ∈ '|' :: 'U' :: 'I' :: quietCodes := by
      simp only [List.mem_cons] at hq ⊢
      exact hq.imp_right (fun h => .inr (.inr h))
    have hcontrols : c ∉ mircControls := by
      have hall : ('|' :: quietCodes).all (fun d => !mircControls.contains d) = true := by
        decide +kernel
      simpa using List.all_eq_true.mp hall c hq
    have hle := weight_of_mem_quietCodes hmem
    rw [webWeight, stripFormat_plain hp (fun h => hcontrols ((List.dropLast_sublist _).subset h)),
      totalWeight_cons, ← webWeight, terminalWeight, terminalText_quiet hq, ← terminalWeight]
    omega
  cases letter c with
  | hex hz =>
    cases hfront : hexFront s with
    | true =>
      have hcontrols : c ∉ mircControls.dropLast := by rcases hz with rfl | rfl <;> decide
      have hsix := (h 6).together
        ((hasStray_drop (isArg_of_isArgs (isArgs_hexFront hfront))).trans hrest)
      rw [webWeight, stripFormat_plain hp hcontrols, totalWeight_cons, ← webWeight,
        webWeight_hexFront hfront, weight_of_hex hz, terminalWeight, terminalText_hex hz hfront,
        ← terminalWeight]
      omega
    | false => exact hkept (terminalText_broken hz hfront)
  | percent => exact absurd rfl hp
  | quiet hq => exact hquiet (List.mem_cons_of_mem _ hq)
  | upper hupper =>
    have hunknown : isUnknownCode c = true := by rcases hupper with rfl | rfl <;> decide
    exact hkept (terminalText_unknown hunknown s)
  | bar => exact hquiet List.mem_cons_self
  | unknown hunknown => exact hkept (terminalText_unknown hunknown s)
  | stray hle => exact absurd hlt (Nat.not_lt.mpr hle)

/-- The web client is at a `%` in front of `c`, and the terminal behind it. -/
theorem terminalFirst_cons {c : Char} {s : Str} (h : ∀ n, Bounds (s.drop n))
    (hstray : hasStray (c :: s) = false) :
    webWeight ('%' :: c :: s) ≤ terminalWeight (c :: s) + 7 := by
  by_cases hp : c = '%'
  · subst hp
    have hfirst := (h 0).webFirst hstray
    rw [List.drop_zero] at hfirst
    rw [webWeight, stripFormat_percent_percent, totalWeight_cons, weight_percent, ← webWeight]
    omega
  rw [Theme.hasStray_cons_of_ne hp] at hstray
  obtain ⟨u, n, hterminal, hargs, hweight, hlow⟩ := terminal_front hp s
  have hdrop := (h n).together ((hasStray_drop (isArg_of_isArgs hargs)).trans hstray)
  have hpushed := webWeight_append (isArg_of_isArgs hargs) (s.drop n)
  have htake := totalWeight_of_isArgs hargs
  rw [List.take_append_drop] at hpushed
  have hshown : ∀ v, stripFormat ('%' :: c :: s) = v ++ stripFormat s →
      totalWeight v ≤ totalWeight u + 7 →
      webWeight ('%' :: c :: s) ≤ terminalWeight (c :: s) + 7 := by
    intro v hv hle
    rw [webWeight, hv, totalWeight_append, ← webWeight, terminalWeight, hterminal,
      totalWeight_append, ← terminalWeight]
    split at htake <;> omega
  by_cases hquiet : c ∈ 'U' :: 'I' :: quietCodes
  · refine hshown [] (stripFormat_quiet hquiet s) ?_
    rw [totalWeight_nil]
    omega
  by_cases hz : (c = 'Z' ∨ c = 'z') ∧ 6 ≤ s.length
  · -- the six characters are the terminal's alone
    have hcontrols : c ∉ mircControls := by rcases hz.1 with rfl | rfl <;> decide
    have hregion := region (s := s.drop 6) (fun n => by rw [List.drop_drop]; exact h _) (s.take 6)
      (by rw [List.take_append_drop]; exact hstray)
    rw [List.take_append_drop, List.length_take, Nat.min_eq_left hz.2] at hregion
    rw [webWeight, stripFormat_swallows hz.1 hz.2, ← webWeight, terminalWeight,
      terminalText_plain hp hcontrols, totalWeight_cons, weight_of_hex hz.1, ← terminalWeight]
    omega
  · have hunknown : c ∉ 'U' :: 'I' :: '%' :: quietCodes := by
      simp only [List.mem_cons, not_or] at hquiet ⊢
      exact ⟨hquiet.1, hquiet.2.1, hp, hquiet.2.2⟩
    refine hshown ['%', c] (stripFormat_unknown hunknown (fun hhex => ?_)) ?_
    · exact Nat.lt_of_not_le (fun hle => hz ⟨hhex, hle⟩)
    · rw [totalWeight_cons, totalWeight_cons, totalWeight_nil, weight_percent]
      omega

/-- Where the two parsers split, the terminal's text gets heavier. -/
theorem apart_of_splits {c : Char} {s : Str} (h : ∀ n, Bounds (s.drop n))
    (hstray : hasStray (c :: s) = false) (hsplits : splits (c :: s) = true) :
    webWeight (c :: s) < terminalWeight (c :: s) := by
  cases front c with
  | percent =>
    cases s with
    | nil => cases hsplits
    | cons d s =>
      obtain ⟨hlt, hrest⟩ := hasStray_percent hstray
      have htogether := (h 1).together hrest
      rw [List.drop_succ_cons, List.drop_zero] at htogether
      rw [splits_percent] at hsplits
      by_cases hz : d = 'Z' ∨ d = 'z'
      · rw [if_pos hz, Bool.and_eq_true, decide_eq_true_eq, Bool.not_eq_true'] at hsplits
        have hregion := region (s := s.drop 6) (fun n => by rw [List.drop_drop]; exact h (6 + n + 1))
          (s.take 6) (by rw [List.take_append_drop]; exact hrest)
        rw [List.take_append_drop, List.length_take, Nat.min_eq_left hsplits.1] at hregion
        rw [webWeight, stripFormat_swallows hz hsplits.1, ← webWeight, terminalWeight,
          terminalText_broken hz hsplits.2, totalWeight_cons, totalWeight_cons, weight_of_hex hz,
          weight_percent, ← terminalWeight]
        omega
      · rw [if_neg hz, decide_eq_false (Nat.not_le.mpr hlt), Bool.or_false] at hsplits
        by_cases hbar : d = '|'
        · subst hbar
          have hweight : weight '|' = -2 := by decide
          rw [webWeight, stripFormat_unknown (by decide) (fun hhex => absurd hhex hz),
            totalWeight_cons, totalWeight_cons, weight_percent, hweight, ← webWeight,
            terminalWeight, terminalText_quiet List.mem_cons_self, ← terminalWeight]
          omega
        · have hupper : d = 'U' ∨ d = 'I' := by simpa [hbar] using hsplits
          have hunknown : isUnknownCode d = true := by rcases hupper with rfl | rfl <;> decide
          have hmem : d ∈ 'U' :: 'I' :: quietCodes := by
            rcases hupper with rfl | rfl <;> decide
          have hweight : weight d = 0 := by rcases hupper with rfl | rfl <;> decide
          rw [webWeight, stripFormat_quiet hmem, ← webWeight, terminalWeight,
            terminalText_unknown hunknown, totalWeight_cons, totalWeight_cons, weight_percent,
            hweight, ← terminalWeight]
          omega
  | mirc =>
    rw [Theme.hasStray_cons_of_ne (by decide)] at hstray
    rw [splits_cons_of_ne (by decide), if_pos rfl] at hsplits
    have hlen : webMircLength s = mircLength s + 1 := by
      rw [webMircLength, hsplits]
      rfl
    have htogether := (h (mircLength s + 1)).together
      (hlen ▸ (hasStray_drop (isArg_webMirc s)).trans hstray)
    rw [Bool.and_eq_true, Bool.not_eq_true'] at hsplits
    obtain ⟨t, ht⟩ := drop_of_looseComma hsplits.1 hsplits.2
    have hcomma : weight ',' = 1 := by decide
    rw [← List.drop_drop, ht, List.drop_succ_cons, List.drop_zero] at htogether
    rw [webWeight, stripFormat_mirc, hlen, ← List.drop_drop, ht, List.drop_succ_cons,
      List.drop_zero, ← webWeight, terminalWeight, terminalText_mirc, ht,
      terminalText_plain (by decide) (by decide), totalWeight_cons, hcomma, ← terminalWeight]
    omega
  | hexColor =>
    rw [Theme.hasStray_cons_of_ne (by decide)] at hstray
    rw [splits_cons_of_ne (by decide), if_neg (by decide), if_pos rfl, Bool.and_eq_true] at hsplits
    obtain ⟨hfront, hback⟩ := hsplits
    have hlen : hexLength s = 13 := by rw [hexLength, if_pos hfront, if_pos hback]
    have htogether := (h 13).together
      (hlen ▸ (hasStray_drop (isArg_of_isArgs (isArgs_hex s))).trans hstray)
    obtain ⟨t, ht, hhex⟩ := exists_of_hexBackground hback
    have hcut : s.drop 13 = t.drop 6 := by
      rw [show 13 = 6 + 7 from rfl, ← List.drop_drop, ht]
      rfl
    have hcomma : weight ',' = 1 := by decide
    rw [hcut] at htogether
    rw [webWeight, stripFormat_hexColor, if_pos hfront, ht,
      stripFormat_plain (by decide) (by decide), totalWeight_cons, hcomma, ← webWeight,
      webWeight_hexFront hhex, terminalWeight, terminalText_hexColor, hlen, hcut, ← terminalWeight]
    omega
  | monospace =>
    rw [Theme.hasStray_cons_of_ne (by decide)] at hstray
    have htogether := (h 0).together hstray
    have hweight : weight (Char.ofNat 0x11) = -1 := by decide
    rw [List.drop_zero] at htogether
    rw [webWeight, stripFormat_plain (by decide) (by decide), totalWeight_cons, hweight,
      ← webWeight, terminalWeight, terminalText_control List.mem_cons_self, ← terminalWeight]
    omega
  | quiet hq =>
    have hne : c ≠ '%' ∧ c ≠ Char.ofNat 0x03 ∧ c ≠ Char.ofNat 0x04 ∧ c ≠ Char.ofNat 0x11 := by
      refine ⟨?_, ?_, ?_, ?_⟩ <;> (rintro rfl; exact absurd hq (by decide))
    rw [splits_cons_of_ne hne.1, if_neg hne.2.1, if_neg hne.2.2.1] at hsplits
    exact absurd (of_decide_eq_true hsplits) hne.2.2.2
  | plain hp hc =>
    have hne : c ≠ Char.ofNat 0x03 ∧ c ≠ Char.ofNat 0x04 ∧ c ≠ Char.ofNat 0x11 := by
      refine ⟨?_, ?_, ?_⟩ <;> (rintro rfl; exact hc (by decide))
    rw [splits_cons_of_ne hp, if_neg hne.1, if_neg hne.2.1] at hsplits
    exact absurd (of_decide_eq_true hsplits) hne.2.2

theorem codeLength_pos (c : Char) (s : Str) : 0 < codeLength (c :: s) := by
  unfold codeLength
  split
  · split <;> decide
  · split
    · omega
    · split <;> omega
  · contradiction

/-- One of the two parsers reads on, and the bounds hold again. -/
theorem bounds_cons {c : Char} {s : Str} (h : ∀ n, Bounds (s.drop n)) : Bounds (c :: s) := by
  have hinStep : hasStray (c :: s) = false → splits (c :: s) = false →
      ∃ u n, terminalText (c :: s) = u ++ terminalText (s.drop n) ∧
        stripFormat (c :: s) = u ++ stripFormat (s.drop n) ∧ hasStray (s.drop n) = false ∧
        (InStep (s.drop n) → InStep (c :: s)) := by
    intro hstray hsplits
    obtain ⟨u, hu⟩ := agree_of_not_splits (List.cons_ne_nil c s) hsplits
    have hpos := codeLength_pos c s
    obtain ⟨n, hn⟩ : ∃ n, codeLength (c :: s) = n + 1 := ⟨codeLength (c :: s) - 1, by omega⟩
    have hcode := @InStep.code _ (List.cons_ne_nil c s) hsplits
    rw [hn, List.drop_succ_cons] at hcode
    obtain ⟨hterminal, hweb, hsame⟩ := hu
    rw [hn, List.drop_succ_cons] at hterminal hweb hsame
    exact ⟨u, n, hterminal, hweb, hsame.symm.trans hstray, hcode⟩
  refine ⟨fun hstray => ?_, fun hstray hnot => ?_, webFirst_cons h, terminalFirst_cons h⟩
  · cases hsplits : splits (c :: s) with
    | true => exact Int.le_of_lt (apart_of_splits h hstray hsplits)
    | false =>
      obtain ⟨u, n, hterminal, hweb, hrest, -⟩ := hinStep hstray hsplits
      have hle := (h n).together hrest
      rw [webWeight, hweb, totalWeight_append, ← webWeight, terminalWeight, hterminal,
        totalWeight_append, ← terminalWeight]
      omega
  · cases hsplits : splits (c :: s) with
    | true => exact apart_of_splits h hstray hsplits
    | false =>
      obtain ⟨u, n, hterminal, hweb, hrest, hcode⟩ := hinStep hstray hsplits
      have hlt := (h n).apart hrest (fun hin => hnot (hcode hin))
      rw [webWeight, hweb, totalWeight_append, ← webWeight, terminalWeight, hterminal,
        totalWeight_append, ← terminalWeight]
      omega

theorem bounds (s : Str) : Bounds s := by
  have hdrop : ∀ n, Bounds (s.drop n) := by
    induction s with
    | nil =>
      intro n
      rw [List.drop_nil]
      exact bounds_nil
    | cons c s ih =>
      intro n
      cases n with
      | zero => exact bounds_cons ih
      | succ n => exact ih n
  exact hdrop 0

/-! ### The two clients -/

/-- The terminal, without parameters, and the web client show the same text. -/
def SameText (text : Str) : Prop :=
  ∃ spans, Theme.parseFormatString text [] = .done spans ∧ visible spans = stripFormat text

/-- **The same text in both clients**: a text without variables shows the same in the terminal
and in the web client if and only if it comes to no code that the two read differently. -/
theorem sameText_iff {text : Str} (h : Theme.hasVariables text = false) :
    SameText text ↔ InStep text := by
  have hparse : Theme.parseFormatString text [] = Theme.parseText text := by
    rw [Theme.parseFormatString, Theme.substituteVars_of_not_hasVariables [] h]
  rw [SameText, hparse]
  constructor
  · rintro ⟨spans, hdone, hsame⟩
    obtain ⟨hstray, rfl⟩ := Theme.parseText_eq_done_iff.mp hdone
    rw [visible_finish] at hsame
    by_contra hnot
    have hlt := (bounds text).apart hstray hnot
    rw [webWeight, terminalWeight, hsame] at hlt
    exact Int.lt_irrefl _ hlt
  · intro hin
    obtain ⟨hstray, hsame⟩ := texts_of_inStep hin
    refine ⟨_, Theme.parseText_eq_done_iff.mpr ⟨hstray, rfl⟩, ?_⟩
    rw [visible_finish, hsame]

theorem short_codes_show :
    Theme.hasVariables (str "\x034,1a%Zf%") = false ∧ SameText (str "\x034,1a%Zf%") := by
  have hvars : Theme.hasVariables (str "\x034,1a%Zf%") = false := by decide +kernel
  refine ⟨hvars, (sameText_iff hvars).mpr ?_⟩
  -- the color, then `a`, `%Z`, `f` and `%`
  refine .code (by decide) (by decide) (.code (by decide) (by decide) ?_)
  refine .code (by decide) (by decide) (.code (by decide) (by decide) ?_)
  exact .code (by decide) (by decide) .nil

/-- The comma behind the number of a color shows in the terminal alone. -/
theorem comma_is_lost : ¬ SameText (str "\x034, red") := by
  rintro ⟨spans, hdone, hsame⟩
  have hterminal : Theme.parseFormatString (str "\x034, red") [] =
      .done [⟨str ", red", { fg := some ⟨255, 0, 0⟩ }⟩] := by decide +kernel
  have hweb : stripFormat (str "\x034, red") = str " red" := by decide +kernel
  cases hdone.symm.trans hterminal
  rw [hweb] at hsame
  exact absurd hsame (by decide +kernel)

/-- Behind a code that splits them, the two show the same again only by a variable. -/
example : SameText (str "%Zabc]$[%%Zabc]") :=
  ⟨[⟨str "%Zabc]", {}⟩], by decide +kernel, by decide +kernel⟩

end Repartee.Web
