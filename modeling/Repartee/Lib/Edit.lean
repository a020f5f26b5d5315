import Repartee.Lib.Utf8

/-!
# Editing at byte offsets

The operations of a string that take byte offsets. Each is partial: it is defined exactly on
character boundaries in order. What is in front of an edit keeps its place.

## Main definitions

- `Utf8.insertStr`, `Utf8.replaceRange`, `Utf8.drain`, `Utf8.truncate`: edits
- `Utf8.before`, `Utf8.behind`: the text on one side of an offset
- `Utf8.lastIndex`, `Utf8.secondIndex`, `Utf8.rfind`: offsets of characters

## Main results

- `slice_append_right`: an edit behind a slice keeps it
- `isCharBoundary_replace_left`, `isCharBoundary_replace_right`: the boundaries outside a replaced
  range
-/

set_option autoImplicit false

namespace Utf8

/-- The text in front of an offset. -/
def before (s : List Char) (n : Nat) : Option (List Char) := (splitAt s n).map Prod.fst

/-- The text behind an offset. -/
def behind (s : List Char) (n : Nat) : Option (List Char) := (splitAt s n).map Prod.snd

def insertStr (s : List Char) (n : Nat) (t : List Char) : Option (List Char) :=
  (splitAt s n).map (fun p => p.1 ++ (t ++ p.2))

def replaceRange (s : List Char) (a b : Nat) (t : List Char) : Option (List Char) :=
  if a ≤ b then
    (splitAt s a).bind (fun p => (splitAt p.2 (b - a)).map (fun q => p.1 ++ (t ++ q.2)))
  else none

def drain (s : List Char) (a b : Nat) : Option (List Char) := replaceRange s a b []

def truncate (s : List Char) (n : Nat) : Option (List Char) :=
  if n ≤ byteLen s then before s n else some s

/-- The offset of the last character. -/
def lastIndex (s : List Char) : Nat := byteLen s.dropLast

/-- The offset of the second character. -/
def secondIndex : List Char → Option Nat
  | c :: _ :: _ => some c.utf8Size
  | _ => none

/-- The offset of the last character with a property. -/
def rfind (p : Char → Bool) : List Char → Option Nat
  | [] => none
  | c :: s =>
    match rfind p s with
    | some i => some (c.utf8Size + i)
    | none => if p c then some 0 else none

/-! ### Edits of a text in parts -/

theorem before_append (p q : List Char) : before (p ++ q) (byteLen p) = some p := by
  rw [before, splitAt_append]
  rfl

theorem behind_append (p q : List Char) : behind (p ++ q) (byteLen p) = some q := by
  rw [behind, splitAt_append]
  rfl

theorem insertStr_append (p q t : List Char) :
    insertStr (p ++ q) (byteLen p) t = some (p ++ (t ++ q)) := by
  rw [insertStr, splitAt_append]
  rfl

theorem replaceRange_append (p m q t : List Char) :
    replaceRange (p ++ (m ++ q)) (byteLen p) (byteLen p + byteLen m) t = some (p ++ (t ++ q)) := by
  rw [replaceRange, if_pos (Nat.le_add_right _ _), splitAt_append, Option.bind_some,
    Nat.add_sub_cancel_left, splitAt_append]
  rfl

theorem drain_append (p m q : List Char) :
    drain (p ++ (m ++ q)) (byteLen p) (byteLen p + byteLen m) = some (p ++ q) :=
  replaceRange_append p m q []

theorem truncate_append (p q : List Char) : truncate (p ++ q) (byteLen p) = some p := by
  rw [truncate, byteLen_append, if_pos (Nat.le_add_right _ _), before_append]

theorem isCharBoundary_append (p q : List Char) : isCharBoundary (p ++ q) (byteLen p) = true :=
  isCharBoundary_iff.mpr ⟨p, q, rfl, rfl⟩

/-- The last character in front of a boundary. -/
theorem exists_last {s : List Char} (h : s ≠ []) :
    ∃ c, s = s.dropLast ++ [c] ∧ lastIndex s + c.utf8Size = byteLen s := by
  refine ⟨s.getLast h, (List.dropLast_concat_getLast h).symm, ?_⟩
  conv_rhs => rw [← List.dropLast_concat_getLast h, byteLen_append]
  rfl

/-- The last character with a property: none behind it has the property. -/
theorem rfind_eq_some {p : Char → Bool} {s : List Char} {i : Nat} (h : rfind p s = some i) :
    ∃ a c b, s = a ++ c :: b ∧ byteLen a = i ∧ p c = true ∧ ∀ d ∈ b, p d = false := by
  induction s generalizing i with
  | nil => cases h
  | cons c s ih =>
    rw [rfind] at h
    cases hs : rfind p s with
    | some j =>
      rw [hs] at h
      cases h
      obtain ⟨a, d, b, rfl, rfl, hd, hb⟩ := ih hs
      exact ⟨c :: a, d, b, rfl, rfl, hd, hb⟩
    | none =>
      rw [hs] at h
      dsimp only at h
      split at h
      · rename_i hc
        cases h
        refine ⟨[], c, s, rfl, rfl, hc, ?_⟩
        clear ih
        induction s with
        | nil => exact fun d hd => nomatch hd
        | cons e s ihs =>
          rw [rfind] at hs
          cases hrest : rfind p s with
          | some j =>
            rw [hrest] at hs
            cases hs
          | none =>
            rw [hrest] at hs
            dsimp only at hs
            split at hs
            · cases hs
            · rename_i he
              rw [List.forall_mem_cons]
              exact ⟨eq_false_of_ne_true he, ihs hrest⟩
      · cases h

/-! ### What an edit keeps -/

/-- An edit behind a slice keeps it. -/
theorem slice_append_right {p q m : List Char} {a b : Nat} (h : slice (p ++ q) a b = some m)
    (hb : b ≤ byteLen p) (q' : List Char) : slice (p ++ q') a b = some m := by
  obtain ⟨x, y, heq, rfl, rfl⟩ := slice_eq_some_iff.mp h
  refine slice_eq_some_iff.mpr ?_
  rcases List.append_eq_append_iff.mp heq with ⟨z, hz, hy⟩ | ⟨z, hz, hq⟩
  · -- the slice would have to end behind `p`
    have hnil : z = [] := by
      have hlen := congrArg byteLen hz
      rw [byteLen_append, byteLen_append] at hlen
      exact byteLen_eq_zero_iff.mp (by omega)
    subst hnil
    rw [List.append_nil] at hz
    exact ⟨x, q', by rw [hz], rfl, rfl⟩
  · exact ⟨x, z ++ q', by rw [hz, List.append_assoc], rfl, rfl⟩

/-- A slice of a slice. -/
theorem slice_slice {s m m' : List Char} {a b a' b' : Nat} (h : slice s a b = some m)
    (h' : slice m a' b' = some m') : slice s (a + a') (a + b') = some m' := by
  obtain ⟨x, y, rfl, rfl, rfl⟩ := slice_eq_some_iff.mp h
  obtain ⟨x', y', rfl, rfl, rfl⟩ := slice_eq_some_iff.mp h'
  refine slice_eq_some_iff.mpr ⟨x ++ x', y' ++ y, ?_, ?_, ?_⟩
  · simp only [List.append_assoc]
  · rw [byteLen_append]
  · rw [byteLen_append, Nat.add_assoc]

theorem isCharBoundary_replace_left {x w y : List Char} {n : Nat}
    (h : isCharBoundary (x ++ (w ++ y)) n = true) (hn : n ≤ byteLen x) (t : List Char) :
    isCharBoundary (x ++ (t ++ y)) n = true := by
  obtain ⟨p, q, heq, rfl⟩ := isCharBoundary_iff.mp h
  have hslice : slice (x ++ (w ++ y)) 0 (byteLen p) = some p :=
    slice_eq_some_iff.mpr ⟨[], q, heq, rfl, Nat.zero_add _⟩
  have hkept := slice_append_right hslice hn (t ++ y)
  have hsome := isSome_slice_iff.mp (Option.isSome_iff_exists.mpr ⟨p, hkept⟩)
  exact hsome.2.2

theorem isCharBoundary_replace_right {x w y : List Char} {n : Nat}
    (h : isCharBoundary (x ++ (w ++ y)) n = true) (hn : byteLen x + byteLen w ≤ n)
    (t : List Char) : isCharBoundary (x ++ (t ++ y)) (n + byteLen t - byteLen w) = true := by
  obtain ⟨p, q, heq, rfl⟩ := isCharBoundary_iff.mp h
  have hprefix : ∃ z, p = (x ++ w) ++ z ∧ y = z ++ q := by
    rw [← List.append_assoc] at heq
    rcases List.append_eq_append_iff.mp heq with ⟨z, hz, hy⟩ | ⟨z, hz, hq⟩
    · exact ⟨z, hz, hy⟩
    · have hnil : z = [] := by
        have hlen := congrArg byteLen hz
        rw [byteLen_append, byteLen_append] at hlen
        exact byteLen_eq_zero_iff.mp (by omega)
      subst hnil
      rw [List.append_nil] at hz
      exact ⟨[], by rw [hz, List.append_nil], hq.symm⟩
  obtain ⟨z, rfl, rfl⟩ := hprefix
  refine isCharBoundary_iff.mpr ⟨x ++ (t ++ z), q, ?_, ?_⟩
  · simp only [List.append_assoc]
  · simp only [byteLen_append]
    omega

end Utf8
