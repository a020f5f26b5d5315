import Repartee.Theme.Variables

/-!
# The state machine on characters

The loop of `parse_format_string` walks bytes. At a character boundary its round is a function
of the characters from there on, and it ends at a boundary again, unless it is a `%` directly
before a character that is not ASCII: that character's first byte is taken for a code, the loop
goes on in the middle of the character, and the next slice panics.

## Main definitions

- `round`: the effects of a round and the number of characters that it reads
- `hasStray`: whether the loop comes to a `%` directly before a character that is not ASCII
- `actions`: the effects of the whole loop

## Main results

- `parseLoop_boundary`: the loop on bytes does the rounds on characters
- `parseText_eq`: how the loop ends
-/

set_option autoImplicit false

namespace Repartee.Theme

/-! ### The bytes of a code -/

/-- A byte of the argument of a code. -/
def isArg (b : UInt8) : Bool := isAsciiHexdigit b || b == 0x2C

/-- The first `k` bytes are arguments. -/
def Args (bs : List UInt8) (k : Nat) : Prop := k ≤ bs.length ∧ ∀ b ∈ bs.take k, isArg b = true

@[simp] theorem args_zero (bs : List UInt8) : Args bs 0 := ⟨Nat.zero_le _, by simp⟩

theorem Args.append {bs : List UInt8} {m k : Nat} (hm : Args bs m) (hk : Args (bs.drop m) k) :
    Args bs (m + k) := by
  constructor
  · have h₁ := hm.1
    have h₂ := hk.1
    rw [List.length_drop] at h₂
    omega
  · intro b hb
    rw [List.take_add, List.mem_append] at hb
    exact hb.elim (hm.2 b) (hk.2 b)

theorem Args.cons {b : UInt8} {bs : List UInt8} {k : Nat} (hb : isArg b = true)
    (hk : Args bs k) : Args (b :: bs) (1 + k) := by
  rw [Nat.add_comm]
  refine ⟨Nat.succ_le_succ hk.1, ?_⟩
  rw [List.take_succ_cons, List.forall_mem_cons]
  exact ⟨hb, hk.2⟩

theorem isArg_of_isAsciiHexdigit {b : UInt8} (h : isAsciiHexdigit b = true) : isArg b = true := by
  simp [isArg, h]

theorem isArg_of_isAsciiDigit {b : UInt8} (h : isAsciiDigit b = true) : isArg b = true := by
  simp [isArg, isAsciiHexdigit, h]

theorem args_of_readHex6 {bs : List UInt8} {hex : Str} (h : readHex6 bs = some hex) :
    Args bs 6 := by
  unfold readHex6 at h
  dsimp only at h
  split at h
  · rename_i hc
    obtain ⟨hlen, hall⟩ := hc
    rw [List.length_take] at hlen
    refine ⟨by omega, fun b hb => isArg_of_isAsciiHexdigit (List.all_eq_true.mp hall b hb)⟩
  · cases h

theorem args_of_readDigits {bs : List UInt8} {v n : Nat} (h : readDigits bs = some (v, n)) :
    Args bs n := by
  unfold readDigits at h
  split at h
  · cases h
  · rename_i b rest
    split at h
    · rename_i hb
      have hone : Args (b :: rest) 1 := Args.cons (isArg_of_isAsciiDigit hb) (args_zero rest)
      split at h
      · cases h
        exact hone
      · rename_i b' rest'
        split at h
        · rename_i hb'
          cases h
          exact hone.append (Args.cons (isArg_of_isAsciiDigit hb') (args_zero rest'))
        · cases h
          exact hone
    · cases h

theorem args_of_readBackground {bs : List UInt8} {v k : Nat}
    (h : readBackground bs = some (v, k)) : Args bs (1 + k) := by
  unfold readBackground at h
  split at h
  · cases h
  · split at h
    · rename_i hb
      exact Args.cons (by simp [isArg, hb]) (args_of_readDigits h)
    · cases h

theorem args_of_readHexBackground {bs : List UInt8} {hex : Str}
    (h : readHexBackground bs = some hex) : Args bs 7 := by
  unfold readHexBackground at h
  split at h
  · cases h
  · split at h
    · rename_i hb
      exact Args.cons (by simp [isArg, hb]) (args_of_readHex6 h)
    · cases h

/-- What a `%` reads besides itself: nothing at the end, else a code and its arguments. -/
theorem percentCode_reads (bs : List UInt8) :
    (bs = [] ∧ (percentCode bs).2 = 1) ∨
      ∃ x rest k, bs = x :: rest ∧ (percentCode bs).2 = 2 + k ∧ Args rest k := by
  cases bs with
  | nil => exact .inl ⟨rfl, rfl⟩
  | cons x rest =>
    have hhex : ∀ letter set, ∃ k, (hexCode letter set rest).2 = 2 + k ∧ Args rest k := by
      intro letter set
      unfold hexCode
      split
      · rename_i hex hr
        exact ⟨6, rfl, args_of_readHex6 hr⟩
      · exact ⟨0, rfl, args_zero rest⟩
    have hk : ∃ k, (percentCode (x :: rest)).2 = 2 + k ∧ Args rest k := by
      unfold percentCode
      dsimp only
      split
      case h_7 => exact hhex _ _
      case h_8 => exact hhex _ _
      case h_11 => split <;> exact ⟨0, rfl, args_zero rest⟩
      all_goals exact ⟨0, rfl, args_zero rest⟩
    obtain ⟨k, hn, ha⟩ := hk
    exact .inr ⟨x, rest, k, rfl, hn, ha⟩

theorem mircCode_reads (bs : List UInt8) : ∃ k, (mircCode bs).2 = 1 + k ∧ Args bs k := by
  unfold mircCode
  split
  · exact ⟨0, rfl, args_zero bs⟩
  · rename_i fg n hfg
    split
    · exact ⟨n, rfl, args_of_readDigits hfg⟩
    · rename_i bg k hbg
      refine ⟨n + (1 + k), by simp only; omega, ?_⟩
      exact (args_of_readDigits hfg).append (args_of_readBackground hbg)

theorem hexColorCode_reads (bs : List UInt8) :
    ∃ k, (hexColorCode bs).2 = 1 + k ∧ Args bs k := by
  unfold hexColorCode
  split
  · exact ⟨0, rfl, args_zero bs⟩
  · rename_i fg hfg
    split
    · exact ⟨6, rfl, args_of_readHex6 hfg⟩
    · rename_i bg hbg
      exact ⟨6 + 7, rfl, (args_of_readHex6 hfg).append (args_of_readHexBackground hbg)⟩

/-- An arm of a chain of conditions, or the rest of the chain. -/
theorem arm_cases {α : Type} {p : Prop} [Decidable p] {a r : α} {e : Option α}
    (h : (if p then some a else e) = some r) : p ∧ a = r ∨ ¬p ∧ e = some r := by
  by_cases hp : p
  · rw [if_pos hp] at h
    exact .inl ⟨hp, Option.some.inj h⟩
  · rw [if_neg hp] at h
    exact .inr ⟨hp, h⟩

/-- Everything a code reads: a control character and its arguments, or a `%` and its code. -/
theorem code_reads {b : UInt8} {rest : List UInt8} {r : List Action × Nat}
    (h : code (b :: rest) = some r) :
    (b = 0x25 ∧ r = percentCode rest) ∨
      (b < 0x20 ∧ ∃ k, r.2 = 1 + k ∧ Args rest k) := by
  have hnone : ∀ acts : List Action, ∃ k, (acts, 1).2 = 1 + k ∧ Args rest k :=
    fun _ => ⟨0, rfl, args_zero rest⟩
  rw [code] at h
  obtain ⟨hb, rfl⟩ | ⟨-, h⟩ := arm_cases h
  · exact .inl ⟨hb, rfl⟩
  right
  -- the control characters, in the order of the source
  obtain ⟨rfl, rfl⟩ | ⟨-, h⟩ := arm_cases h
  · exact ⟨by decide, hnone _⟩
  obtain ⟨rfl, rfl⟩ | ⟨-, h⟩ := arm_cases h
  · exact ⟨by decide, mircCode_reads rest⟩
  obtain ⟨rfl, rfl⟩ | ⟨-, h⟩ := arm_cases h
  · exact ⟨by decide, hexColorCode_reads rest⟩
  obtain ⟨rfl, rfl⟩ | ⟨-, h⟩ := arm_cases h
  · exact ⟨by decide, hnone _⟩
  obtain ⟨rfl, rfl⟩ | ⟨-, h⟩ := arm_cases h
  · exact ⟨by decide, hnone _⟩
  obtain ⟨rfl, rfl⟩ | ⟨-, h⟩ := arm_cases h
  · exact ⟨by decide, hnone _⟩
  obtain ⟨rfl, rfl⟩ | ⟨-, h⟩ := arm_cases h
  · exact ⟨by decide, hnone _⟩
  obtain ⟨rfl, rfl⟩ | ⟨-, h⟩ := arm_cases h
  · exact ⟨by decide, hnone _⟩
  obtain ⟨rfl, rfl⟩ | ⟨-, h⟩ := arm_cases h
  · exact ⟨by decide, hnone _⟩
  exact absurd h.symm (Option.some_ne_none r)

/-- Bytes outside ASCII are no codes. -/
theorem code_of_le {b : UInt8} (hb : 0x80 ≤ b) (rest : List UInt8) : code (b :: rest) = none := by
  by_contra h
  obtain ⟨r, hr⟩ := Option.ne_none_iff_exists'.mp h
  rcases code_reads hr with ⟨rfl, -⟩ | ⟨hlt, -⟩
  · revert hb
    decide
  · exact absurd (UInt8.le_trans hb (UInt8.le_of_lt hlt)) (by decide)

theorem isArg_lt {b : UInt8} (h : isArg b = true) : b < 0x80 ∧ b ≠ 0x25 := by
  have hn : (b.toNat < 128) ∧ b.toNat ≠ 0x25 := by
    simp [isArg, isAsciiHexdigit, isAsciiDigit, UInt8.le_iff_toNat_le, ← UInt8.toNat_inj] at h
    omega
  exact ⟨UInt8.lt_iff_toNat_lt.mpr hn.1, fun he => hn.2 (he ▸ rfl)⟩

/-- Arguments are ASCII characters, none of them a `%`. -/
theorem exists_of_args {s : Str} {k : Nat} (h : Args (Utf8.encode s) k) :
    ∃ a t, s = a ++ t ∧ a.length = k ∧ ∀ c ∈ a, c.toNat < 128 ∧ c ≠ '%' := by
  obtain ⟨a, t, rfl, ha, -, hlt⟩ := Utf8.exists_of_encode_eq_append
    (List.take_append_drop k (Utf8.encode s)).symm (fun b hb => (isArg_lt (h.2 b hb)).1)
  refine ⟨a, t, rfl, ?_, fun c hc => ⟨hlt c hc, ?_⟩⟩
  · have hl := congrArg List.length ha
    rw [Utf8.length_encode, Utf8.byteLen_of_ascii hlt, List.length_take] at hl
    have h₁ := h.1
    omega
  · rintro rfl
    have hmem : (0x25 : UInt8) ∈ (Utf8.encode (a ++ t)).take k := by
      rw [← ha]
      exact List.mem_flatMap.mpr ⟨'%', hc, by decide⟩
    exact (isArg_lt (h.2 _ hmem)).2 rfl

/-! ### Rounds -/

/-- The effects of a round at the front of a text, and the number of characters that it reads. -/
def round (s : Str) : List Action × Nat :=
  match code (Utf8.encode s) with
  | some r => r
  | none => (s.head?.toList.map Action.push, 1)

/-- Whether a text starts with a `%` directly before a character that is not ASCII. -/
def strayHead : Str → Bool
  | '%' :: c :: _ => 128 ≤ c.toNat
  | _ => false

/-- Whether the loop comes to a `%` directly before a character that is not ASCII: a `%` and the
character after it are read together. -/
def hasStray : Str → Bool
  | '%' :: c :: rest => 128 ≤ c.toNat || hasStray rest
  | _ :: rest => hasStray rest
  | [] => false

theorem hasStray_cons_of_ne {c : Char} (h : c ≠ '%') (s : Str) :
    hasStray (c :: s) = hasStray s := by
  rw [hasStray]
  rintro d rest rfl
  exact absurd rfl h

theorem hasStray_append_of_ne {a : Str} (h : ∀ c ∈ a, c ≠ '%') (s : Str) :
    hasStray (a ++ s) = hasStray s := by
  induction a with
  | nil => rfl
  | cons c a ih =>
    rw [List.cons_append, hasStray_cons_of_ne (h c List.mem_cons_self)]
    exact ih (fun d hd => h d (List.mem_cons_of_mem c hd))

theorem hasStray_of_strayHead {s : Str} (h : strayHead s = true) : hasStray s = true := by
  unfold strayHead at h
  split at h
  · rename_i c rest
    rw [hasStray, h, Bool.true_or]
  · cases h

/-- A code, unless at a stray `%`, reads ASCII characters, and none of the pairs that matter to
`hasStray` is cut. -/
theorem exists_of_code {s : Str} {r : List Action × Nat} (hcode : code (Utf8.encode s) = some r)
    (hh : strayHead s = false) :
    ∃ a t, s = a ++ t ∧ a ≠ [] ∧ a.length = r.2 ∧ hasStray s = hasStray t ∧
      ∀ c ∈ a, c.toNat < 128 := by
  cases hb : Utf8.encode s with
  | nil =>
    rw [hb] at hcode
    cases hcode
  | cons b rest =>
    rw [hb] at hcode
    have hb128 : b < 0x80 := by
      rcases code_reads hcode with ⟨rfl, -⟩ | ⟨hlt, -⟩
      · decide
      · exact UInt8.lt_trans hlt (by decide)
    obtain ⟨c, t, rfl, hc, hcb, ht⟩ := Utf8.exists_of_encode_eq_cons hb hb128
    rcases code_reads hcode with ⟨hpct, rfl⟩ | ⟨hlt, k, hk, hargs⟩
    · cases Utf8.eq_of_ofNat_toNat_eq hc (by decide)
        (show _ = UInt8.ofNat '%'.toNat from hcb ▸ hpct)
      rcases percentCode_reads rest with ⟨rfl, hn⟩ | ⟨x, rest', k, rfl, hn, hargs⟩
      · cases Utf8.encode_eq_nil_iff.mp ht
        exact ⟨['%'], [], rfl, by simp, hn.symm, rfl, by simp⟩
      · cases t with
        | nil => cases ht
        | cons d t =>
          have hd : d.toNat < 128 := by simpa [strayHead] using hh
          rw [Utf8.encode_cons_of_lt hd] at ht
          obtain ⟨-, rfl⟩ := List.cons.inj ht
          obtain ⟨a, t', rfl, ha, hplain⟩ := exists_of_args hargs
          refine ⟨'%' :: d :: a, t', rfl, List.cons_ne_nil _ _, ?_, ?_, ?_⟩
          · rw [hn, List.length_cons, List.length_cons, ha]
            omega
          · rw [hasStray, hasStray_append_of_ne (fun c hc => (hplain c hc).2)]
            simp
            omega
          · simp only [List.forall_mem_cons]
            exact ⟨by decide, hd, fun c hc => (hplain c hc).1⟩
    · subst ht
      obtain ⟨a, t', rfl, ha, hplain⟩ := exists_of_args hargs
      have hne : c ≠ '%' := by
        rintro rfl
        rw [hcb] at hlt
        revert hlt
        decide
      refine ⟨c :: a, t', rfl, List.cons_ne_nil _ _, ?_, ?_, ?_⟩
      · rw [hk, List.length_cons, ha]
        omega
      · rw [hasStray_cons_of_ne hne, hasStray_append_of_ne (fun c hc => (hplain c hc).2)]
      · simp only [List.forall_mem_cons]
        exact ⟨hc, fun c hc => (hplain c hc).1⟩

/-- A round, unless at a stray `%`, reads some characters, ends at a boundary again, and passes
no stray `%`. -/
theorem exists_round {s : Str} (hs : s ≠ []) (hh : strayHead s = false) :
    ∃ a t, s = a ++ t ∧ a ≠ [] ∧ a.length = (round s).2 ∧ hasStray s = hasStray t ∧
      ∀ pre pen, step (pre ++ s) ⟨Utf8.byteLen pre, pen⟩ =
        some ⟨Utf8.byteLen (pre ++ a), (round s).1.foldl Pen.act pen⟩ := by
  cases hcode : code (Utf8.encode s) with
  | none =>
    have hround : round s = (s.head?.toList.map Action.push, 1) := by rw [round, hcode]
    cases s with
    | nil => exact absurd rfl hs
    | cons c t =>
      have hc : c ≠ '%' := by
        rintro rfl
        rw [Utf8.encode_cons_of_lt (by decide)] at hcode
        cases hcode
      refine ⟨[c], t, rfl, List.cons_ne_nil c [], ?_, hasStray_cons_of_ne hc t, fun pre pen => ?_⟩
      · rw [hround]
        rfl
      · rw [step, Utf8.drop_encode_append, hcode, Utf8.splitAt_append, hround,
          Utf8.byteLen_append]
        rfl
  | some r =>
    have hround : round s = r := by rw [round, hcode]
    obtain ⟨a, t, hs', hne, hlen, hstray, hascii⟩ := exists_of_code hcode hh
    refine ⟨a, t, hs', hne, hround ▸ hlen, hstray, fun pre pen => ?_⟩
    rw [step, Utf8.drop_encode_append, hcode, hround, Utf8.byteLen_append,
      Utf8.byteLen_of_ascii hascii, hlen]

/-- At a stray `%` the loop goes on inside the character after it, and the next slice panics. -/
theorem step_of_strayHead {s : Str} (h : strayHead s = true) (pre : Str) (pen : Pen) :
    ∃ pen', step (pre ++ s) ⟨Utf8.byteLen pre, pen⟩ = some ⟨Utf8.byteLen pre + 2, pen'⟩ ∧
      Utf8.byteLen pre + 2 < Utf8.byteLen (pre ++ s) ∧
      code ((Utf8.encode (pre ++ s)).drop (Utf8.byteLen pre + 2)) = none ∧
      Utf8.splitAt (pre ++ s) (Utf8.byteLen pre + 2) = none := by
  unfold strayHead at h
  split at h
  case h_2 => cases h
  rename_i c rest
  have hc : 128 ≤ c.toNat := of_decide_eq_true h
  have hsize := Utf8.two_le_utf8Size hc
  obtain ⟨b, b', bs, he, hall⟩ := Utf8.encodeChar_of_le hc
  have henc : Utf8.encode ('%' :: c :: rest) = 0x25 :: b :: b' :: (bs ++ Utf8.encode rest) := by
    rw [Utf8.encode_cons_of_lt (by decide), Utf8.encode_cons, he]
    rfl
  have hb' : 0x80 ≤ b' := hall b' (by simp)
  -- the byte after the code is no argument of it
  have hlen : (percentCode (b :: b' :: (bs ++ Utf8.encode rest))).2 = 2 := by
    rcases percentCode_reads (b :: b' :: (bs ++ Utf8.encode rest)) with
      ⟨hnil, -⟩ | ⟨x, r, k, hx, hn, hargs⟩
    · cases hnil
    · obtain ⟨-, rfl⟩ := List.cons.inj hx
      cases k with
      | zero => exact hn
      | succ k =>
        have harg := isArg_lt (hargs.2 b' (by simp))
        exact absurd harg.1 (UInt8.not_lt.mpr hb')
  have hdrop : (Utf8.encode (pre ++ '%' :: c :: rest)).drop (Utf8.byteLen pre + 2) =
      b' :: (bs ++ Utf8.encode rest) := by
    rw [← List.drop_drop, Utf8.drop_encode_append, henc]
    rfl
  have hstep : step (pre ++ '%' :: c :: rest) ⟨Utf8.byteLen pre, pen⟩ =
      some ⟨Utf8.byteLen pre + 2,
        (percentCode (b :: b' :: (bs ++ Utf8.encode rest))).1.foldl Pen.act pen⟩ := by
    rw [step, Utf8.drop_encode_append, henc, ← hlen]
    rfl
  refine ⟨_, hstep, ?_, ?_, ?_⟩
  · simp only [Utf8.byteLen_append, Utf8.byteLen]
    have h₁ := Char.utf8Size_pos '%'
    omega
  · rw [hdrop]
    exact code_of_le hb' _
  · have hin := @Utf8.splitAt_inside (pre ++ ['%']) rest c 1 (by omega) (by omega)
    have hone : Utf8.byteLen (pre ++ ['%']) + 1 = Utf8.byteLen pre + 2 := by
      rw [Utf8.byteLen_append]
      rfl
    rw [hone] at hin
    simpa using hin

theorem round_pos {s : Str} (hs : s ≠ []) : 0 < (round s).2 := by
  cases hb : Utf8.encode s with
  | nil => exact absurd (Utf8.encode_eq_nil_iff.mp hb) hs
  | cons b rest =>
    rw [round, hb]
    cases hcode : code (b :: rest) with
    | none => exact Nat.one_pos
    | some r =>
      rcases code_reads hcode with ⟨-, rfl⟩ | ⟨-, k, hk, -⟩
      · rcases percentCode_reads rest with ⟨-, hn⟩ | ⟨_, _, k, -, hn, -⟩
        · exact hn ▸ Nat.one_pos
        · show 0 < (percentCode rest).2
          omega
      · show 0 < r.2
        omega

/-! ### The whole loop -/

/-- The effects of the whole loop. -/
def actions (s : Str) : List Action :=
  if _hs : s = [] then [] else (round s).1 ++ actions (s.drop (round s).2)
termination_by s.length
decreasing_by
  have hpos := round_pos _hs
  have hlen := List.length_pos_iff.mpr _hs
  rw [List.length_drop]
  omega

@[simp] theorem actions_nil : actions [] = [] := by
  rw [actions]
  rfl

theorem actions_append {a t : Str} (ha : a ≠ []) (hlen : a.length = (round (a ++ t)).2) :
    actions (a ++ t) = (round (a ++ t)).1 ++ actions t := by
  have hne : a ++ t ≠ [] := fun h => ha (List.append_eq_nil_iff.mp h).1
  rw [actions, dif_neg hne, ← hlen, List.drop_left]

/-- **The loop**, from a character boundary: it panics exactly if it comes to a stray `%`, and
otherwise reads the whole text. -/
theorem parseLoop_boundary (fuel : Nat) (pre s : Str) (pen : Pen) (hf : Utf8.byteLen s ≤ fuel) :
    parseLoop (pre ++ s) fuel ⟨Utf8.byteLen pre, pen⟩ =
      if hasStray s then .panicked
      else .done ⟨Utf8.byteLen (pre ++ s), (actions s).foldl Pen.act pen⟩ := by
  induction fuel generalizing pre s pen with
  | zero =>
    cases Utf8.byteLen_eq_zero_iff.mp (Nat.le_zero.mp hf)
    simp [parseLoop, hasStray]
  | succ fuel ih =>
    by_cases hs : s = []
    · subst hs
      simp [parseLoop, hasStray]
    have hlt : Utf8.byteLen pre < Utf8.byteLen (pre ++ s) := by
      have hpos := Utf8.byteLen_pos_iff.mpr hs
      rw [Utf8.byteLen_append]
      omega
    rw [parseLoop, if_pos hlt]
    cases hh : strayHead s with
    | true =>
      obtain ⟨pen', hstep, hinside, hcode, hcut⟩ := step_of_strayHead hh pre pen
      rw [hstep, if_pos (hasStray_of_strayHead hh)]
      dsimp only
      -- the next round slices inside a character
      rw [Utf8.byteLen_append] at hinside
      obtain ⟨fuel, rfl⟩ : ∃ n, fuel = n + 1 := ⟨fuel - 1, by omega⟩
      rw [parseLoop, if_pos (by rw [Utf8.byteLen_append]; exact hinside), step, hcode, hcut]
    | false =>
      obtain ⟨a, t, rfl, ha, hlen, hstray, hstep⟩ := exists_round hs hh
      rw [hstep]
      dsimp only
      have hpos := Utf8.byteLen_pos_iff.mpr ha
      rw [Utf8.byteLen_append] at hf
      rw [hstray, actions_append ha hlen, List.foldl_append, ← List.append_assoc]
      exact ih (pre ++ a) t _ (by omega)

/-- How the parser ends on a text. -/
theorem parseText_eq (text : Str) :
    parseText text =
      if hasStray text then .panicked else .done ((actions text).foldl Pen.act {}).finish := by
  have hloop := parseLoop_boundary (Utf8.byteLen text) [] text {} (Nat.le_refl _)
  rw [List.nil_append] at hloop
  rw [parseText, show ({} : Cursor) = ⟨Utf8.byteLen [], {}⟩ from rfl, hloop]
  cases hasStray text <;> rfl

theorem parseText_eq_done_iff {text : Str} {spans : List StyledSpan} :
    parseText text = .done spans ↔
      hasStray text = false ∧ spans = ((actions text).foldl Pen.act {}).finish := by
  rw [parseText_eq]
  cases hasStray text
  · simp [eq_comm]
  · simp

/-- The parser never runs out of fuel, so the loop of the source ends. -/
theorem parseFormatString_ne_outOfFuel (input : Str) (params : List Str) :
    parseFormatString input params ≠ .outOfFuel := by
  rw [parseFormatString]
  split
  · exact nofun
  · rw [parseText_eq]
    split <;> exact nofun

/-! ### Stray percent signs -/

/-- Some maximal run of `%` is of odd length and directly before a character that is not
ASCII. -/
def StrayPercent (text : Str) : Prop :=
  ∃ a n c b, text = a ++ (List.replicate (2 * n + 1) '%' ++ c :: b) ∧
    a.getLast? ≠ some '%' ∧ 128 ≤ c.toNat

theorem hasStray_append {a : Str} (h : a.getLast? ≠ some '%') (s : Str) :
    hasStray (a ++ s) = (hasStray a || hasStray s) := by
  induction a using hasStray.induct with
  | case1 c rest ih =>
    have hrest : rest.getLast? ≠ some '%' := by
      cases rest with
      | nil => exact nofun
      | cons d rest => simpa [List.getLast?_cons_cons] using h
    rw [List.cons_append, List.cons_append, hasStray, hasStray, ih hrest, Bool.or_assoc]
  | case2 c rest hne ih =>
    have hc : c ≠ '%' := by
      rintro rfl
      cases rest with
      | nil => exact h rfl
      | cons d rest => exact hne d rest rfl rfl
    have hrest : rest.getLast? ≠ some '%' := by
      cases rest with
      | nil => exact nofun
      | cons d rest => simpa [List.getLast?_cons_cons] using h
    rw [List.cons_append, hasStray_cons_of_ne hc, hasStray_cons_of_ne hc, ih hrest]
  | case3 => rfl

theorem hasStray_replicate (n : Nat) {c : Char} (hc : 128 ≤ c.toNat) (b : Str) :
    hasStray (List.replicate (2 * n + 1) '%' ++ c :: b) = true := by
  induction n with
  | zero =>
    show hasStray ('%' :: c :: b) = true
    rw [hasStray, decide_eq_true hc, Bool.true_or]
  | succ n ih =>
    show hasStray ('%' :: '%' :: (List.replicate (2 * n + 1) '%' ++ c :: b)) = true
    rw [hasStray, ih, Bool.or_true]

theorem hasStray_iff {text : Str} : hasStray text = true ↔ StrayPercent text := by
  constructor
  · intro h
    induction text using hasStray.induct with
    | case1 c rest ih =>
      rw [hasStray, Bool.or_eq_true] at h
      rcases h with hc | hr
      · exact ⟨[], 0, c, rest, rfl, nofun, of_decide_eq_true hc⟩
      · obtain ⟨a, n, d, b, rfl, ha, hd⟩ := ih hr
        by_cases hmerge : a = [] ∧ c = '%'
        · -- the pair belongs to the run
          obtain ⟨rfl, rfl⟩ := hmerge
          exact ⟨[], n + 1, d, b, rfl, nofun, hd⟩
        · refine ⟨'%' :: c :: a, n, d, b, rfl, ?_, hd⟩
          cases a with
          | nil => simpa using hmerge
          | cons e a => simpa [List.getLast?_cons_cons] using ha
    | case2 c rest hne ih =>
      rw [hasStray] at h
      · obtain ⟨a, n, d, b, rfl, ha, hd⟩ := ih h
        refine ⟨c :: a, n, d, b, rfl, ?_, hd⟩
        cases a with
        | nil =>
          rintro ⟨⟩
          exact hne _ _ rfl rfl
        | cons e a => simpa [List.getLast?_cons_cons] using ha
      · exact hne
    | case3 => cases h
  · rintro ⟨a, n, c, b, rfl, ha, hc⟩
    rw [hasStray_append ha, hasStray_replicate n hc, Bool.or_true]

/-! ### No text crashes the renderer -/

/-- The cursors that the loop comes to. -/
inductive Reached (text : Str) : Cursor → Prop where
  | start : Reached text {}
  | step {σ σ' : Cursor} (hr : Reached text σ) (hi : σ.i < Utf8.byteLen text)
      (hs : step text σ = some σ') : Reached text σ'

/-- The round at a cursor takes the slice `text[i..]`. -/
def Slices (text : Str) (σ : Cursor) : Prop :=
  σ.i < Utf8.byteLen text ∧ code ((Utf8.encode text).drop σ.i) = none

/-- Rendering returns, and every slice it takes starts at a character boundary. -/
def RendersSafely (input : Str) (params : List Str) : Prop :=
  ∃ text, substituteVars input params = some text ∧
    (∃ spans, parseFormatString input params = .done spans) ∧
    ∀ σ, Reached text σ → Slices text σ → Utf8.isCharBoundary text σ.i = true

/-- The loop stays at character boundaries of a text without a stray `%`. -/
theorem Reached.boundary {text : Str} {σ : Cursor} (h : Reached text σ)
    (hs : hasStray text = false) :
    ∃ pre s, text = pre ++ s ∧ σ.i = Utf8.byteLen pre ∧ hasStray s = false := by
  induction h with
  | start => exact ⟨[], text, rfl, rfl, hs⟩
  | @step σ σ' _ hi hstep ih =>
    obtain ⟨pre, s, rfl, hpre, hstray⟩ := ih
    have hne : s ≠ [] := by
      rintro rfl
      rw [List.append_nil, hpre] at hi
      exact Nat.lt_irrefl _ hi
    have hh : strayHead s = false := by
      by_contra hh
      rw [hasStray_of_strayHead (Bool.not_eq_false _ ▸ hh)] at hstray
      cases hstray
    obtain ⟨a, t, rfl, -, -, ht, hround⟩ := exists_round hne hh
    obtain ⟨i, pen⟩ := σ
    cases hpre
    rw [hround, Option.some.injEq] at hstep
    exact ⟨pre ++ a, t, (List.append_assoc _ _ _).symm, hstep ▸ rfl, ht ▸ hstray⟩

/-- **Rendering is safe** exactly when the widths of the format fit and no stray `%` is in the
substituted text. -/
theorem rendersSafely_iff (input : Str) (params : List Str) :
    RendersSafely input params ↔
      WidthsFit input ∧ ∀ text, substituteVars input params = some text → ¬ StrayPercent text := by
  constructor
  · rintro ⟨text, htext, ⟨spans, hspans⟩, -⟩
    refine ⟨isSome_substituteVars_iff.mp (Option.isSome_of_eq_some htext), fun text' htext' => ?_⟩
    cases htext.symm.trans htext'
    rw [parseFormatString, htext] at hspans
    have hstray := (parseText_eq_done_iff.mp hspans).1
    rw [← hasStray_iff, hstray]
    exact nofun
  · rintro ⟨hfit, hno⟩
    obtain ⟨text, htext⟩ := Option.isSome_iff_exists.mp
      ((@isSome_substituteVars_iff input params).mpr hfit)
    have hstray : hasStray text = false := by
      rw [← Bool.not_eq_true, hasStray_iff]
      exact hno text htext
    have hdone : parseFormatString input params =
        .done ((actions text).foldl Pen.act {}).finish := by
      rw [parseFormatString, htext]
      exact parseText_eq_done_iff.mpr ⟨hstray, rfl⟩
    refine ⟨text, htext, ⟨_, hdone⟩, fun σ hr _ => ?_⟩
    obtain ⟨pre, s, rfl, hi, -⟩ := hr.boundary hstray
    exact Utf8.isCharBoundary_iff.mpr ⟨pre, s, rfl, hi.symm⟩

/-- A message with a `%` before an accented letter crashes the renderer. -/
theorem accented_percent_crashes :
    ¬ RendersSafely (str "$0 $1") [str "bob", str "100 %é"] := by
  rintro ⟨-, -, ⟨spans, h⟩, -⟩
  have hpanic : parseFormatString (str "$0 $1") [str "bob", str "100 %é"] = .panicked := by
    decide +kernel
  rw [hpanic] at h
  cases h

end Repartee.Theme
