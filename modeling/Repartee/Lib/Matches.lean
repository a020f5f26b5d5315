import Mathlib.Data.List.TakeWhile
import Repartee.Lib.Text
import Repartee.Lib.Utf8

/-!
# The matches of a pattern in a text

A `Matcher` reads a non-empty match at the front of a text. Its matches in a text are found from
the left, each behind the one before it; what is between them are gaps.

`Urls.pattern stop` reads `https?://` and then as many characters that are not `stop` as there are,
at least one.

## Main definitions

- `Matcher`, `Matcher.pieces`: a pattern, and the gaps and matches of a text
- `Matcher.ranges`: the byte offsets of the matches
- `Urls.pattern`: the pattern `https?://[^...]+`

## Main results

- `Matcher.source_pieces`: gaps and matches are the text
- `Urls.front_append_stop`: a match does not go beyond a character that stops it
- `Urls.pieces_append_stop`: the text before such a character and the text behind it are read
  apart
- `Urls.pieces_of_noStop`: a text without such a character has a match at most
- `Urls.ranges_eq_iff`: when two patterns have the same matches
-/

set_option autoImplicit false

universe u

/-- What is checked of the elements of a list one by one. -/
theorem List.forall_of_all {α : Type u} {p : α → Prop} [DecidablePred p] {l : List α}
    (h : l.all (fun a => decide (p a)) = true) : ∀ a ∈ l, p a :=
  fun a ha => of_decide_eq_true (List.all_eq_true.mp h a ha)

/-- A pattern: what it matches at the front of a text, and the rest. -/
structure Matcher (α : Type u) where
  front : List α → Option (List α × List α)
  split : ∀ {s m r}, front s = some (m, r) → s = m ++ r
  nonempty : ∀ {s m r}, front s = some (m, r) → m ≠ []

namespace Matcher

variable {α : Type u}

/-- An element that is not matched, or a match. -/
inductive Piece (α : Type u) where
  | gap (c : α)
  | hit (m : List α)

def Piece.source : Piece α → List α
  | .gap c => [c]
  | .hit m => m

def Piece.hit? : Piece α → Option (List α)
  | .gap _ => none
  | .hit m => some m

def piecesFuel (M : Matcher α) : (fuel : Nat) → List α → List (Piece α)
  | 0, _ => []
  | _ + 1, [] => []
  | fuel + 1, c :: s =>
    match M.front (c :: s) with
    | some (m, r) => .hit m :: piecesFuel M fuel r
    | none => .gap c :: piecesFuel M fuel s

/-- The gaps and the matches of a text; each has an element, so the length of the text is fuel
enough. -/
def pieces (M : Matcher α) (s : List α) : List (Piece α) := M.piecesFuel s.length s

variable {M : Matcher α} {s m r : List α} {c : α}

theorem length_lt (h : M.front s = some (m, r)) : r.length < s.length := by
  have hpos := List.length_pos_iff.mpr (M.nonempty h)
  rw [M.split h, List.length_append]
  omega

theorem front_nil (M : Matcher α) : M.front [] = none := by
  refine Option.eq_none_iff_forall_not_mem.mpr ?_
  rintro ⟨m, r⟩ h
  exact M.nonempty h (List.append_eq_nil_iff.mp (M.split h).symm).1

theorem piecesFuel_eq {n : Nat} (hn : s.length ≤ n) : M.piecesFuel n s = M.pieces s := by
  rw [pieces]
  generalize hk : s.length = k
  have hle : s.length ≤ k := Nat.le_of_eq hk
  rw [hk] at hn
  clear hk
  induction n generalizing s k with
  | zero =>
    obtain rfl := Nat.le_zero.mp hn
    rfl
  | succ n ih =>
    cases s with
    | nil => cases k <;> rfl
    | cons c s =>
      cases k with
      | zero => exact absurd hle (Nat.not_succ_le_zero _)
      | succ k =>
        rw [piecesFuel, piecesFuel]
        cases hfront : M.front (c :: s) with
        | none => exact congrArg _ (ih k (by omega) (Nat.le_of_succ_le_succ hle))
        | some p =>
          have hlt := length_lt hfront
          exact congrArg _ (ih k (by omega) (Nat.le_of_lt_succ (Nat.lt_of_lt_of_le hlt hle)))

@[simp] theorem pieces_nil (M : Matcher α) : M.pieces [] = [] := rfl

theorem pieces_of_none (h : M.front (c :: s) = none) :
    M.pieces (c :: s) = .gap c :: M.pieces s := by
  rw [pieces, List.length_cons, piecesFuel, h]
  rfl

theorem pieces_of_some (h : M.front s = some (m, r)) : M.pieces s = .hit m :: M.pieces r := by
  cases s with
  | nil => rw [front_nil] at h; exact nomatch h
  | cons c s =>
    rw [pieces, List.length_cons, piecesFuel, h]
    exact congrArg _ (piecesFuel_eq (Nat.le_of_lt_succ (length_lt h)))

/-- **Induction along the matches of a text.** -/
theorem pieces_induction (M : Matcher α) {motive : List α → Prop} (nil : motive [])
    (gap : ∀ c s, M.front (c :: s) = none → motive s → motive (c :: s))
    (hit : ∀ s m r, M.front s = some (m, r) → motive r → motive s) (s : List α) : motive s := by
  induction hn : s.length using Nat.strongRecOn generalizing s with
  | _ n ih =>
    subst hn
    cases s with
    | nil => exact nil
    | cons c s =>
      cases h : M.front (c :: s) with
      | none => exact gap c s h (ih s.length (Nat.lt_succ_self _) s rfl)
      | some p => exact hit _ p.1 p.2 h (ih p.2.length (length_lt h) p.2 rfl)

/-- Gaps and matches are the text. -/
theorem source_pieces (M : Matcher α) (s : List α) :
    (M.pieces s).flatMap Piece.source = s := by
  induction s using M.pieces_induction with
  | nil => rfl
  | gap c s h ih => rw [pieces_of_none h, List.flatMap_cons, ih]; rfl
  | hit s m r h ih => rw [pieces_of_some h, List.flatMap_cons, ih, M.split h]; rfl

/-- The matches of a text. -/
def hits (M : Matcher α) (s : List α) : List (List α) := (M.pieces s).filterMap Piece.hit?

theorem front_of_mem_hits (h : m ∈ M.hits s) : ∃ t r, M.front t = some (m, r) := by
  unfold hits at h
  induction s using M.pieces_induction with
  | nil => exact absurd h List.not_mem_nil
  | gap c s hfront ih =>
    rw [pieces_of_none hfront] at h
    exact ih h
  | hit s m' r hfront ih =>
    rw [pieces_of_some hfront] at h
    rcases List.mem_cons.mp h with rfl | h
    · exact ⟨s, r, hfront⟩
    · exact ih h

/-- The byte offsets of the matches, of which the first piece is at `off`. -/
def ranges (off : Nat) : List (Piece Char) → List (Nat × Nat)
  | [] => []
  | .gap c :: ps => ranges (off + c.utf8Size) ps
  | .hit m :: ps => (off, off + Utf8.byteLen m) :: ranges (off + Utf8.byteLen m) ps

/-- A range is the place of a match in the text. -/
theorem exists_of_mem_ranges {off : Nat} {ps : List (Piece Char)} {range : Nat × Nat}
    (h : range ∈ ranges off ps) :
    ∃ a m b, ps.flatMap Piece.source = a ++ m ++ b ∧
      range = (off + Utf8.byteLen a, off + Utf8.byteLen a + Utf8.byteLen m) := by
  induction ps generalizing off with
  | nil => exact absurd h List.not_mem_nil
  | cons piece ps ih =>
    cases piece with
    | gap c =>
      obtain ⟨a, m, b, hsource, rfl⟩ := ih h
      refine ⟨c :: a, m, b, by rw [List.flatMap_cons, hsource]; rfl, ?_⟩
      simp [Utf8.byteLen, Nat.add_assoc]
    | hit m =>
      rcases List.mem_cons.mp h with rfl | h
      · exact ⟨[], m, ps.flatMap Piece.source, rfl, rfl⟩
      · obtain ⟨a, m', b, hsource, rfl⟩ := ih h
        refine ⟨m ++ a, m', b, ?_, ?_⟩
        · rw [List.flatMap_cons, hsource]
          simp [Piece.source]
        · rw [Utf8.byteLen_append, ← Nat.add_assoc]

end Matcher

/-! ### URLs -/

namespace Urls

def https : List Char := ['h', 't', 't', 'p', 's', ':', '/', '/']

def http : List Char := ['h', 't', 't', 'p', ':', '/', '/']

/-- `https?://` -/
def scheme (s : List Char) : Option (List Char × List Char) :=
  match Text.stripPrefix https s with
  | some r => some (https, r)
  | none => (Text.stripPrefix http s).map (fun r => (http, r))

variable (stop : Char → Bool)

/-- `https?://` and the characters behind it that do not stop it. -/
def front (s : List Char) : Option (List Char × List Char) :=
  match scheme s with
  | some (p, r) =>
    if r.takeWhile (fun c => !stop c) = [] then none
    else some (p ++ r.takeWhile (fun c => !stop c), r.dropWhile (fun c => !stop c))
  | none => none

variable {stop} {s p r m x y : List Char}

theorem scheme_eq_some_iff :
    scheme s = some (p, r) ↔ s = p ++ r ∧ (p = https ∨ p = http) := by
  unfold scheme
  cases hs : Text.stripPrefix https s with
  | some r' =>
    have hsplit := Text.stripPrefix_eq_some_iff.mp hs
    simp only [Option.some.injEq, Prod.mk.injEq]
    constructor
    · rintro ⟨rfl, rfl⟩
      exact ⟨hsplit, .inl rfl⟩
    · rintro ⟨hpr, rfl | rfl⟩
      · exact ⟨rfl, List.append_cancel_left (hsplit.symm.trans hpr)⟩
      · rw [hpr] at hsplit
        exact absurd hsplit (by simp [http, https])
  | none =>
    have hnot : ∀ r, s ≠ https ++ r := fun r h => by
      rw [Text.stripPrefix_eq_some_iff.mpr h] at hs
      exact nomatch hs
    rw [Option.map_eq_some_iff]
    constructor
    · rintro ⟨r', h, heq⟩
      obtain ⟨rfl, rfl⟩ := Prod.mk.inj heq
      exact ⟨Text.stripPrefix_eq_some_iff.mp h, .inr rfl⟩
    · rintro ⟨hpr, rfl | rfl⟩
      · exact absurd hpr (hnot r)
      · exact ⟨r, Text.stripPrefix_eq_some_iff.mpr hpr, rfl⟩

theorem front_eq_some_iff :
    front stop s = some (m, r) ↔ ∃ p b, m = p ++ b ∧ s = m ++ r ∧ (p = https ∨ p = http) ∧
      b ≠ [] ∧ (∀ c ∈ b, stop c = false) ∧ ∀ c r', r = c :: r' → stop c = true := by
  unfold front
  constructor
  · intro h
    cases hscheme : scheme s with
    | none => rw [hscheme] at h; exact nomatch h
    | some q =>
      obtain ⟨p, t⟩ := q
      obtain ⟨rfl, hp⟩ := (scheme_eq_some_iff).mp hscheme
      rw [hscheme] at h
      dsimp only at h
      split_ifs at h with hempty
      obtain ⟨rfl, rfl⟩ := Prod.mk.inj (Option.some.inj h)
      refine ⟨p, _, rfl, ?_, hp, hempty, fun c hc => ?_, fun c r' hr => ?_⟩
      · rw [List.append_assoc, List.takeWhile_append_dropWhile]
      · simpa using List.mem_takeWhile_imp hc
      · have hhead := List.head?_dropWhile_not (fun c => !stop c) t
        rw [hr] at hhead
        simpa using hhead
  · rintro ⟨p, b, rfl, rfl, hp, hb, hbody, hrest⟩
    have hscheme : scheme (p ++ b ++ r) = some (p, b ++ r) :=
      (scheme_eq_some_iff).mpr ⟨List.append_assoc p b r, hp⟩
    have hall : ∀ c ∈ b, (fun c => !stop c) c = true := fun c hc => by simp [hbody c hc]
    have hnone : r.takeWhile (fun c => !stop c) = [] ∧ r.dropWhile (fun c => !stop c) = r := by
      cases r with
      | nil => exact ⟨rfl, rfl⟩
      | cons c r' =>
        have hstop := hrest c r' rfl
        exact ⟨List.takeWhile_cons_of_neg (by simp [hstop]),
          List.dropWhile_cons_of_neg (by simp [hstop])⟩
    rw [hscheme]
    dsimp only
    rw [List.takeWhile_append_of_pos hall, List.dropWhile_append_of_pos hall, hnone.1, hnone.2,
      List.append_nil, if_neg hb]

/-- The pattern `https?://[^...]+`. -/
def pattern (stop : Char → Bool) : Matcher Char where
  front := front stop
  split h := by
    obtain ⟨p, b, -, hs, -⟩ := front_eq_some_iff.mp h
    exact hs
  nonempty h := by
    obtain ⟨p, b, rfl, -, -, hb, -⟩ := front_eq_some_iff.mp h
    exact fun hnil => hb (List.append_eq_nil_iff.mp hnil).2

/-! ### What stops a match -/

/-- A matcher does not match a pattern that begins before the text ends where it is stopped. -/
theorem scheme_append_stop {c : Char} (hc : c ∉ https) (x y : List Char) :
    scheme (x ++ c :: y) = (scheme x).map (fun q => (q.1, q.2 ++ c :: y)) := by
  have hsub : ∀ d ∈ http, d ∈ https := List.forall_of_all (by decide)
  have hhttp : c ∉ http := fun h => hc (hsub c h)
  have hprefix : ∀ p : List Char, c ∉ p → ∀ r, x ++ c :: y = p ++ r →
      ∃ r', x = p ++ r' ∧ r = r' ++ c :: y := by
    intro p hp r hr
    rcases List.append_eq_append_iff.mp hr with ⟨q, hpq, hq⟩ | ⟨q, hxq, hq⟩
    · -- the pattern would have the character in it
      cases q with
      | nil => exact ⟨[], by simpa using hpq.symm, hq.symm⟩
      | cons d q =>
        obtain ⟨rfl, -⟩ := List.cons.inj hq
        exact absurd (hpq ▸ List.mem_append_right x List.mem_cons_self) hp
    · exact ⟨q, hxq, hq⟩
  cases hx : scheme x with
  | some q =>
    obtain ⟨p, r⟩ := q
    obtain ⟨rfl, hp⟩ := (scheme_eq_some_iff).mp hx
    exact (scheme_eq_some_iff).mpr ⟨List.append_assoc p r _, hp⟩
  | none =>
    rw [Option.map_none]
    refine Option.eq_none_iff_forall_not_mem.mpr ?_
    rintro ⟨p, r⟩ hmem
    obtain ⟨hr, hp⟩ := (scheme_eq_some_iff).mp hmem
    have hcp : c ∉ p := by
      rcases hp with rfl | rfl
      · exact hc
      · exact hhttp
    obtain ⟨r', rfl, -⟩ := hprefix p hcp r hr
    rw [(scheme_eq_some_iff).mpr ⟨rfl, hp⟩] at hx
    exact nomatch hx

/-- A match does not go beyond a character that stops it. -/
theorem front_append_stop {c : Char} (hc : c ∉ https) (hstop : stop c = true) (x y : List Char) :
    front stop (x ++ c :: y) = (front stop x).map (fun q => (q.1, q.2 ++ c :: y)) := by
  unfold front
  rw [scheme_append_stop hc]
  cases scheme x with
  | none => rfl
  | some q =>
    obtain ⟨p, r⟩ := q
    have hpos : ¬ (fun c => !stop c) c = true := by simp [hstop]
    have htake : (r ++ c :: y).takeWhile (fun c => !stop c) = r.takeWhile (fun c => !stop c) := by
      rw [List.takeWhile_append]
      split_ifs with hlen
      · rw [List.takeWhile_cons_of_neg (p := fun c => !stop c) hpos, List.append_nil]
        exact ((List.takeWhile_prefix (fun c => !stop c)).eq_of_length hlen).symm
      · rfl
    have hdrop : (r ++ c :: y).dropWhile (fun c => !stop c) =
        r.dropWhile (fun c => !stop c) ++ c :: y := by
      rw [List.dropWhile_append]
      split_ifs with hempty
      · rw [List.dropWhile_cons_of_neg (p := fun c => !stop c) hpos, List.isEmpty_iff.mp hempty,
          List.nil_append]
      · rfl
    simp only [Option.map_some, htake, hdrop]
    split_ifs <;> rfl

/-- The text before a character that stops every match and the text behind it are read apart. -/
theorem pieces_append_stop {c : Char} (hc : c ∉ https) (hstop : stop c = true) (x y : List Char) :
    (pattern stop).pieces (x ++ c :: y) =
      (pattern stop).pieces x ++ .gap c :: (pattern stop).pieces y := by
  induction x using (pattern stop).pieces_induction with
  | nil =>
    have hnone : (pattern stop).front (c :: y) = none := by
      have h := front_append_stop hc hstop [] y
      rw [List.nil_append] at h
      exact h
    exact Matcher.pieces_of_none hnone
  | gap d x h ih =>
    have hnone : (pattern stop).front (d :: (x ++ c :: y)) = none := by
      have hfront := front_append_stop hc hstop (d :: x) y
      rw [show front stop (d :: x) = none from h] at hfront
      exact hfront
    rw [List.cons_append, Matcher.pieces_of_none hnone, ih, Matcher.pieces_of_none h]
    rfl
  | hit x m r h ih =>
    have hsome : (pattern stop).front (x ++ c :: y) = some (m, r ++ c :: y) := by
      have hfront := front_append_stop hc hstop x y
      rw [show front stop x = some (m, r) from h] at hfront
      exact hfront
    rw [Matcher.pieces_of_some hsome, ih, Matcher.pieces_of_some h]
    rfl

/-- A text without a character that stops a match has a match at most, which goes to its end. -/
theorem pieces_of_noStop (h : ∀ c ∈ s, stop c = false) :
    (pattern stop).pieces s = s.map .gap ∨
      ∃ g m, s = g ++ m ∧ front stop m = some (m, []) ∧
        (pattern stop).pieces s = g.map .gap ++ [.hit m] ∧
        ∀ a b, s = a ++ b → a.length < g.length → front stop b = none := by
  induction s using (pattern stop).pieces_induction with
  | nil => exact .inl rfl
  | gap c s hc ih =>
    rw [Matcher.pieces_of_none hc]
    rcases ih (fun d hd => h d (List.mem_cons_of_mem c hd)) with hs | ⟨g, m, rfl, hm, hs, hfirst⟩
    · exact .inl (by rw [hs, List.map_cons])
    · refine .inr ⟨c :: g, m, rfl, hm, by rw [hs, List.map_cons, List.cons_append], ?_⟩
      intro a b hab hlt
      cases a with
      | nil =>
        rw [List.nil_append] at hab
        exact hab ▸ hc
      | cons d a => exact hfirst a b (List.cons.inj hab).2 (Nat.lt_of_succ_lt_succ hlt)
  | hit s m r hfront ih =>
    have hsplit := (pattern stop).split hfront
    obtain ⟨p, b, -, -, -, -, -, hr⟩ := (front_eq_some_iff).mp hfront
    have hnil : r = [] := by
      cases r with
      | nil => rfl
      | cons c r =>
        have hc := h c (hsplit ▸ List.mem_append_right m List.mem_cons_self)
        rw [hr c r rfl] at hc
        exact nomatch hc
    subst hnil
    rw [List.append_nil] at hsplit
    subst hsplit
    rw [Matcher.pieces_of_some hfront]
    exact .inr ⟨[], s, rfl, hfront, rfl, fun a b _ hlt => absurd hlt (Nat.not_lt_zero _)⟩

/-! ### Two patterns -/

section Two

variable {stop' : Char → Bool}

/-- A scheme at the front is followed by characters that stop neither pattern, and then by one that
stops one of them only. -/
def ClashesAt (stop stop' : Char → Bool) (s : List Char) : Prop :=
  ∃ p u x b, s = p ++ (u ++ x :: b) ∧ (p = https ∨ p = http) ∧
    (∀ c ∈ u, stop c = false ∧ stop' c = false) ∧ stop x ≠ stop' x

/-- The same, somewhere in a text. -/
def Clashes (stop stop' : Char → Bool) (s : List Char) : Prop :=
  ∃ a t, s = a ++ t ∧ ClashesAt stop stop' t

theorem front_of_scheme {t : List Char} (hp : p = https ∨ p = http) :
    front stop (p ++ t) =
      if t.takeWhile (fun c => !stop c) = [] then none
      else some (p ++ t.takeWhile (fun c => !stop c), t.dropWhile (fun c => !stop c)) := by
  rw [front, (scheme_eq_some_iff).mpr ⟨rfl, hp⟩]

theorem takeWhile_of_stop {u b : List Char} {x : Char} (hu : ∀ c ∈ u, stop c = false)
    (hx : stop x = true) :
    (u ++ x :: b).takeWhile (fun c => !stop c) = u ∧
      (u ++ x :: b).dropWhile (fun c => !stop c) = x :: b := by
  have hall : ∀ c ∈ u, (fun c => !stop c) c = true := fun c hc => by simp [hu c hc]
  have hneg : ¬ (fun c => !stop c) x = true := by simp [hx]
  rw [List.takeWhile_append_of_pos hall, List.dropWhile_append_of_pos hall,
    List.takeWhile_cons_of_neg (p := fun c => !stop c) hneg,
    List.dropWhile_cons_of_neg (p := fun c => !stop c) hneg, List.append_nil]
  exact ⟨rfl, rfl⟩

theorem takeWhile_of_none {t : List Char} (ht : ∀ c ∈ t, stop c = false) :
    t.takeWhile (fun c => !stop c) = t ∧ t.dropWhile (fun c => !stop c) = [] := by
  have hall : ∀ c ∈ t, (fun c => !stop c) c = true := fun c hc => by simp [ht c hc]
  exact ⟨List.takeWhile_eq_self_iff.mpr hall, List.dropWhile_eq_nil_iff.mpr hall⟩

/-- Without a clash both patterns match the same. -/
theorem front_eq_of_not_clashesAt (h : ¬ ClashesAt stop stop' s) : front stop s = front stop' s := by
  cases hscheme : scheme s with
  | none => rw [front, front, hscheme]
  | some q =>
    obtain ⟨p, t⟩ := q
    obtain ⟨rfl, hp⟩ := (scheme_eq_some_iff).mp hscheme
    obtain ⟨u, v, rfl, hu, hv⟩ : ∃ u v, t = u ++ v ∧
        (∀ c ∈ u, stop c = false ∧ stop' c = false) ∧
        ∀ x b, v = x :: b → stop x = true ∨ stop' x = true := by
      refine ⟨t.takeWhile (fun c => !stop c && !stop' c), t.dropWhile (fun c => !stop c && !stop' c),
        List.takeWhile_append_dropWhile.symm, fun c hc => ?_, fun x b hx => ?_⟩
      · simpa using List.mem_takeWhile_imp hc
      · have hhead := List.head?_dropWhile_not (fun c => !stop c && !stop' c) t
        rw [hx, List.head?_cons] at hhead
        by_contra hnone
        rw [not_or] at hnone
        simp [hnone.1, hnone.2] at hhead
    rw [front_of_scheme hp, front_of_scheme hp]
    cases v with
    | nil =>
      rw [List.append_nil, (takeWhile_of_none (fun c hc => (hu c hc).1)).1,
        (takeWhile_of_none (fun c hc => (hu c hc).1)).2,
        (takeWhile_of_none (fun c hc => (hu c hc).2)).1,
        (takeWhile_of_none (fun c hc => (hu c hc).2)).2]
    | cons x b =>
      have hsame : stop x = stop' x := by
        by_contra hne
        exact h ⟨p, u, x, b, rfl, hp, hu, hne⟩
      have hx : stop x = true ∧ stop' x = true := by
        rcases hv x b rfl with hx | hx
        · exact ⟨hx, hsame ▸ hx⟩
        · exact ⟨hsame.trans hx, hx⟩
      rw [(takeWhile_of_stop (fun c hc => (hu c hc).1) hx.1).1,
        (takeWhile_of_stop (fun c hc => (hu c hc).1) hx.1).2,
        (takeWhile_of_stop (fun c hc => (hu c hc).2) hx.2).1,
        (takeWhile_of_stop (fun c hc => (hu c hc).2) hx.2).2]

/-- Ranges begin where the text begins or later. -/
theorem le_of_mem_ranges {off : Nat} {ps : List (Matcher.Piece Char)} {range : Nat × Nat}
    (h : range ∈ Matcher.ranges off ps) : off ≤ range.1 := by
  induction ps generalizing off with
  | nil => exact absurd h List.not_mem_nil
  | cons piece ps ih =>
    cases piece with
    | gap c => exact Nat.le_trans (Nat.le_add_right off _) (ih h)
    | hit m =>
      rcases List.mem_cons.mp h with rfl | h
      · exact Nat.le_refl _
      · exact Nat.le_trans (Nat.le_add_right off _) (ih h)

/-- Where the first pattern stops and the second does not, they match differently. -/
theorem ranges_ne_of_stop {off : Nat} {u b : List Char} {x : Char} (hp : p = https ∨ p = http)
    (hu : ∀ c ∈ u, stop c = false ∧ stop' c = false) (hx : stop x = true) (hx' : stop' x = false) :
    Matcher.ranges off ((pattern stop).pieces (p ++ (u ++ x :: b))) ≠
      Matcher.ranges off ((pattern stop').pieces (p ++ (u ++ x :: b))) := by
  have hall : ∀ c ∈ u ++ [x], (fun c => !stop' c) c = true := by
    intro c hc
    rcases List.mem_append.mp hc with hc | hc
    · simp [(hu c hc).2]
    · simp [List.mem_singleton.mp hc, hx']
  obtain ⟨w, r, hfront'⟩ : ∃ w r, front stop' (p ++ (u ++ x :: b)) =
      some (p ++ (u ++ x :: w), r) := by
    refine ⟨b.takeWhile (fun c => !stop' c), b.dropWhile (fun c => !stop' c), ?_⟩
    rw [front_of_scheme hp, List.append_cons u x b, List.takeWhile_append_of_pos hall,
      List.dropWhile_append_of_pos hall, if_neg (by simp)]
    simp
  obtain ⟨htake, hdrop⟩ := takeWhile_of_stop (b := b) (fun c hc => (hu c hc).1) hx
  have hpieces' := Matcher.pieces_of_some (M := pattern stop') hfront'
  rw [hpieces', Matcher.ranges]
  by_cases hempty : u = []
  · subst hempty
    have hnone : (pattern stop).front (p ++ ([] ++ x :: b)) = none := by
      show front stop _ = none
      rw [front_of_scheme hp, htake, if_pos rfl]
    cases hs : p ++ ([] ++ x :: b) with
    | nil => exact absurd hs (by simp)
    | cons c t =>
      rw [hs] at hnone
      rw [Matcher.pieces_of_none hnone, Matcher.ranges]
      intro heq
      have hle := le_of_mem_ranges (heq ▸ List.mem_cons_self)
      have hpos := Char.utf8Size_pos c
      exact absurd hle (by omega)
  · have hfront : (pattern stop).front (p ++ (u ++ x :: b)) = some (p ++ u, x :: b) := by
      show front stop _ = _
      rw [front_of_scheme hp, htake, hdrop, if_neg hempty]
    rw [Matcher.pieces_of_some hfront, Matcher.ranges]
    intro heq
    have hend := congrArg Prod.snd (List.cons.inj heq).1
    have hpos : 0 < Utf8.byteLen (x :: w) := Utf8.byteLen_pos_iff.mpr (List.cons_ne_nil x w)
    simp only [Utf8.byteLen_append] at hend
    omega

theorem ranges_ne_of_clashesAt (off : Nat) (h : ClashesAt stop stop' s) :
    Matcher.ranges off ((pattern stop).pieces s) ≠
      Matcher.ranges off ((pattern stop').pieces s) := by
  obtain ⟨p, u, x, b, rfl, hp, hu, hx⟩ := h
  cases hstop : stop x with
  | true =>
    have hstop' : stop' x = false := by
      rw [hstop] at hx
      exact Bool.eq_false_iff.mpr (Ne.symm hx)
    exact ranges_ne_of_stop hp hu hstop hstop'
  | false =>
    have hstop' : stop' x = true := by
      rw [hstop] at hx
      exact (Bool.not_eq_false _).mp (Ne.symm hx)
    exact (ranges_ne_of_stop hp (fun c hc => (hu c hc).symm) hstop' hstop).symm

/-- A clash is not within a common match. -/
theorem clashes_of_front (hfree : ∀ c ∈ https, stop c = false ∧ stop' c = false)
    (h : front stop s = some (m, r)) (h' : front stop' s = some (m, r)) :
    Clashes stop stop' s ↔ Clashes stop stop' r := by
  obtain ⟨p, b, rfl, rfl, hp, -, hb, hr⟩ := (front_eq_some_iff).mp h
  obtain ⟨p', b', hm', -, hp', -, hb', hr'⟩ := (front_eq_some_iff).mp h'
  have hsub : ∀ d ∈ http, d ∈ https := List.forall_of_all (by decide)
  have hscheme : ∀ q : List Char, q = https ∨ q = http →
      ∀ c ∈ q, stop c = false ∧ stop' c = false := by
    rintro q (rfl | rfl) c hc
    · exact hfree c hc
    · exact hfree c (hsub c hc)
  have hmatch : ∀ c ∈ p ++ b, stop c = false ∧ stop' c = false := by
    intro c hc
    constructor
    · rcases List.mem_append.mp hc with hc | hc
      · exact (hscheme p hp c hc).1
      · exact hb c hc
    · rw [hm'] at hc
      rcases List.mem_append.mp hc with hc | hc
      · exact (hscheme p' hp' c hc).2
      · exact hb' c hc
  constructor
  · rintro ⟨a, t, hs, q, u, x, e, rfl, hq, hu, hx⟩
    rcases List.append_eq_append_iff.mp hs with ⟨k, rfl, hk⟩ | ⟨k, hk, hrest⟩
    · exact ⟨k, _, hk, q, u, x, e, rfl, hq, hu, hx⟩
    · -- the clash begins within the match, which ends where both patterns are stopped
      exfalso
      have hnone : ∀ c ∈ q ++ u, stop c = false ∧ stop' c = false := by
        intro c hc
        rcases List.mem_append.mp hc with hc | hc
        · exact hscheme q hq c hc
        · exact hu c hc
      rw [← List.append_assoc] at hrest
      rcases List.append_eq_append_iff.mp hrest with ⟨j, hj, hxj⟩ | ⟨j, hj, hrj⟩
      · cases j with
        | nil =>
          have hxs := hr x e hxj.symm
          have hxs' := hr' x e hxj.symm
          exact hx (hxs.trans hxs'.symm)
        | cons d j =>
          obtain ⟨rfl, -⟩ := List.cons.inj hxj
          have hmem : x ∈ p ++ b := by
            rw [hk, hj]
            simp
          obtain ⟨h1, h2⟩ := hmatch x hmem
          exact hx (h1.trans h2.symm)
      · cases j with
        | nil =>
          have hxj : r = x :: e := hrj
          exact hx ((hr x e hxj).trans (hr' x e hxj).symm)
        | cons d j =>
          have hd : d ∈ q ++ u := by
            rw [hj]
            simp
          have hds := hr d _ hrj
          rw [(hnone d hd).1] at hds
          exact Bool.false_ne_true hds
  · rintro ⟨a, t, rfl, ht⟩
    exact ⟨p ++ b ++ a, t, (List.append_assoc _ a t).symm, ht⟩

/-- **Two patterns match the same in a text** exactly when they clash nowhere in it. -/
theorem ranges_eq_iff (hfree : ∀ c ∈ https, stop c = false ∧ stop' c = false) (off : Nat)
    (s : List Char) :
    Matcher.ranges off ((pattern stop).pieces s) =
      Matcher.ranges off ((pattern stop').pieces s) ↔ ¬ Clashes stop stop' s := by
  induction s using (pattern stop).pieces_induction generalizing off with
  | nil =>
    refine iff_of_true rfl ?_
    rintro ⟨a, t, hs, p, u, x, b, rfl, -⟩
    exact absurd hs (by simp)
  | gap c s h ih =>
    by_cases hat : ClashesAt stop stop' (c :: s)
    · exact iff_of_false (ranges_ne_of_clashesAt off hat) (fun hno => hno ⟨[], _, rfl, hat⟩)
    · have h' : (pattern stop').front (c :: s) = none :=
        (front_eq_of_not_clashesAt hat).symm.trans h
      rw [Matcher.pieces_of_none h, Matcher.pieces_of_none h', Matcher.ranges, Matcher.ranges, ih,
        not_iff_not]
      constructor
      · rintro ⟨a, t, rfl, ht⟩
        exact ⟨c :: a, t, rfl, ht⟩
      · rintro ⟨a, t, hs, ht⟩
        cases a with
        | nil =>
          rw [List.nil_append] at hs
          exact absurd (hs ▸ ht) hat
        | cons d a => exact ⟨a, t, (List.cons.inj hs).2, ht⟩
  | hit s m r h ih =>
    by_cases hat : ClashesAt stop stop' s
    · exact iff_of_false (ranges_ne_of_clashesAt off hat) (fun hno => hno ⟨[], _, rfl, hat⟩)
    · have h' : (pattern stop').front s = some (m, r) :=
        (front_eq_of_not_clashesAt hat).symm.trans h
      rw [Matcher.pieces_of_some h, Matcher.pieces_of_some h', Matcher.ranges, Matcher.ranges,
        List.cons_inj_right, ih, clashes_of_front hfree h h']

end Two

end Urls
