import Mathlib.Data.List.Induction
import Repartee.E2e.Basic
import Repartee.Lib.Run
import Repartee.Lib.Table

/-!
# The limiter of login attempts

The limiter counts the failed logins of an address and blocks it for a time that doubles with
every failure. The maintenance drops the addresses whose block is over, and their counts with
them: the next failure of such an address starts again at one second.

## Main definitions

- `RateLimiter.check`, `RateLimiter.recordFailure`, `RateLimiter.recordSuccess`,
  `RateLimiter.purgeExpired`: the limiter of the server
- `streak`: the failures of an address since its last success, read off a run
- `BacksOff`: the limiter blocks by the streak, whatever it purges
- `Forgets`: a purge after the block is over, and a failure next

## Main results

- `check_eq`: what a check answers where nothing is forgotten
- `backsOff_iff`: the limiter backs off exactly where nothing is forgotten
-/

set_option autoImplicit false

namespace Repartee.Web

/-- Instants and durations are in nanoseconds. -/
def second : Nat := 1000000000

def u32Max : Nat := 4294967295

structure AttemptState where
  failures : Nat
  lastAttempt : Nat
  deriving DecidableEq

/-- `1u64.checked_shl`. -/
def checkedShlOne (n : Nat) : Option Nat := if n < 64 then some (2 ^ n) else none

def lockoutDuration (failures : Nat) : Nat :=
  min ((checkedShlOne (failures - 1)).getD 60) 60 * second

structure RateLimiter where
  attempts : Dict Str AttemptState

namespace RateLimiter

def new : RateLimiter := ⟨Table.empty⟩

/-- The remaining lockout of a blocked address. -/
def check (l : RateLimiter) (ip : Str) (now : Nat) : Option Nat :=
  match l.attempts.lookup ip with
  | none => none
  | some state =>
    if state.failures = 0 then none
    else
      let lockout := lockoutDuration state.failures
      let elapsed := now - state.lastAttempt
      if elapsed < lockout then some (lockout - elapsed) else none

def recordFailure (l : RateLimiter) (ip : Str) (now : Nat) : RateLimiter :=
  let state := (l.attempts.lookup ip).getD ⟨0, now⟩
  ⟨l.attempts.insert ip ⟨min (state.failures + 1) u32Max, now⟩⟩

def recordSuccess (l : RateLimiter) (ip : Str) : RateLimiter := ⟨l.attempts.erase ip⟩

def purgeExpired (l : RateLimiter) (now : Nat) : RateLimiter :=
  ⟨l.attempts.retain
    (fun _ state => decide (now - state.lastAttempt < lockoutDuration state.failures))⟩

/-- What the server asks of the limiter. -/
inductive Op where
  | check (ip : Str)
  | recordFailure (ip : Str)
  | recordSuccess (ip : Str)
  | purgeExpired
  deriving DecidableEq

/-- An operation and the instant it runs at. -/
abbrev Timed := Nat × Op

def step (l : RateLimiter) (e : Timed) : RateLimiter :=
  match e.2 with
  | .check _ => l
  | .recordFailure ip => l.recordFailure ip e.1
  | .recordSuccess ip => l.recordSuccess ip
  | .purgeExpired => l.purgeExpired e.1

/-- The limiter after a run from the start of the server. -/
def after (es : List Timed) : RateLimiter := Run.run step new es

@[simp] theorem after_nil : after [] = new := rfl

theorem after_concat (es : List Timed) (e : Timed) : after (es ++ [e]) = (after es).step e :=
  Run.run_append new es [e]

end RateLimiter

open RateLimiter

/-! ### The failures of an address -/

/-- The failures of an address since its last success, and the instant of the last one. -/
structure Streak where
  failures : Nat := 0
  last : Nat := 0
  deriving DecidableEq

def Streak.step (ip : Str) (s : Streak) (e : Timed) : Streak :=
  match e.2 with
  | .recordFailure ip' => if ip' = ip then ⟨s.failures + 1, e.1⟩ else s
  | .recordSuccess ip' => if ip' = ip then {} else s
  | _ => s

def streak (ip : Str) (es : List Timed) : Streak := Run.run (Streak.step ip) {} es

theorem Streak.step_failure (ip : Str) (s : Streak) (t : Nat) :
    Streak.step ip s (t, .recordFailure ip) = ⟨s.failures + 1, t⟩ := if_pos rfl

theorem streak_concat (ip : Str) (es : List Timed) (e : Timed) :
    streak ip (es ++ [e]) = Streak.step ip (streak ip es) e :=
  Run.run_append _ es [e]

/-- The seconds for which a streak of failures blocks, in nanoseconds. -/
def backoff (n : Nat) : Nat := min (2 ^ (n - 1)) 60 * second

/-- A streak blocks an address for a while. -/
def Streak.Blocks (s : Streak) (now : Nat) : Prop :=
  s.failures ≠ 0 ∧ now - s.last < backoff s.failures

instance (s : Streak) (now : Nat) : Decidable (s.Blocks now) := inferInstanceAs (Decidable (_ ∧ _))

/-- What is left of the block. -/
def Streak.remaining (s : Streak) (now : Nat) : Option Nat :=
  if s.Blocks now then some (backoff s.failures - (now - s.last)) else none

/-- The operation says how a login of an address went. -/
def RateLimiter.Op.concerns (ip : Str) : Op → Bool
  | .recordFailure ip' => decide (ip' = ip)
  | .recordSuccess ip' => decide (ip' = ip)
  | _ => false

/-- The instants of a run do not decrease. -/
def InOrder (es : List Timed) : Prop := es.Pairwise (fun e e' => e.1 ≤ e'.1)

/-- An instant is not before any of a run. -/
def NotBefore (now : Nat) (es : List Timed) : Prop := ∀ e ∈ es, e.1 ≤ now

/-- A purge runs when the block of an address is over, and nothing is heard from the address
since. -/
def Dropped (ip : Str) (es : List Timed) : Prop :=
  ∃ pre t mid, es = pre ++ (t, Op.purgeExpired) :: mid ∧ (streak ip pre).failures ≠ 0 ∧
    ¬ (streak ip pre).Blocks t ∧ ∀ e ∈ mid, e.2.concerns ip = false

/-- A dropped address fails to log in. -/
def Forgets (ip : Str) (es : List Timed) : Prop :=
  ∃ pre t post, es = pre ++ (t, Op.recordFailure ip) :: post ∧ Dropped ip pre

/-- The limiter blocks by the streak at every moment of a run; neither the purges nor the other
addresses change what it answers. -/
structure BacksOff (ip : Str) (es : List Timed) : Prop where
  blocks : ∀ pre post, es = pre ++ post → ∀ now, NotBefore now pre →
    (((after pre).check ip now).isSome = true ↔ (streak ip pre).Blocks now)
  purges : ∀ pre post, es = pre ++ post → ∀ now, NotBefore now pre →
    (after pre).check ip now =
      (after (pre.filter (fun e => decide (e.2 ≠ .purgeExpired)))).check ip now
  others : ∀ pre post, es = pre ++ post → ∀ now, NotBefore now pre →
    (after pre).check ip now =
      (after (pre.filter (fun e => e.2.concerns ip || decide (e.2 = .purgeExpired)))).check ip now

theorem lockoutDuration_eq (n : Nat) : lockoutDuration n = backoff n := by
  rw [lockoutDuration, backoff, checkedShlOne]
  by_cases hn : n - 1 < 64
  · rw [if_pos hn, Option.getD_some]
  · have hpow : 2 ^ 6 ≤ 2 ^ (n - 1) := Nat.pow_le_pow_right (by omega) (by omega)
    rw [if_neg hn, Option.getD_none, Nat.min_self, Nat.min_eq_right (by omega)]

/-- The counter of the source is full long after the block has reached a minute. -/
theorem backoff_min (n : Nat) : backoff (min n u32Max) = backoff n := by
  by_cases hn : n ≤ u32Max
  · rw [Nat.min_eq_left hn]
  · have hsmall : (2 : Nat) ^ 6 ≤ 2 ^ (u32Max - 1) :=
      Nat.pow_le_pow_right (by omega) (by rw [u32Max]; omega)
    have hlarge : (2 : Nat) ^ 6 ≤ 2 ^ (n - 1) :=
      Nat.pow_le_pow_right (by omega) (by rw [u32Max] at hn; omega)
    rw [Nat.min_eq_right (by omega), backoff, backoff, Nat.min_eq_right (by omega),
      Nat.min_eq_right (by omega)]

/-! ### What the limiter knows of an address -/

section Known

variable {ip : Str}

/-- The entry of an address after a run: its streak, or nothing. -/
def Known (ip : Str) (es : List Timed) : Prop :=
  match (after es).attempts.lookup ip with
  | some state => (streak ip es).failures ≠ 0 ∧
      state = ⟨min (streak ip es).failures u32Max, (streak ip es).last⟩
  | none => (streak ip es).failures = 0 ∨ Dropped ip es

/-- What has nothing to say about an address keeps its streak. -/
theorem streak_append_of_quiet {es mid : List Timed}
    (hquiet : ∀ e ∈ mid, e.2.concerns ip = false) : streak ip (es ++ mid) = streak ip es := by
  induction mid using List.reverseRecOn with
  | nil => rw [List.append_nil]
  | append_singleton mid e ih =>
    have he := hquiet e (by simp)
    rw [← List.append_assoc, streak_concat, ih (fun e' he' => hquiet e' (by simp [he']))]
    obtain ⟨t, op⟩ := e
    cases op with
    | check _ => rfl
    | purgeExpired => rfl
    | recordFailure ip' => exact if_neg (of_decide_eq_false he)
    | recordSuccess ip' => exact if_neg (of_decide_eq_false he)

theorem Dropped.streak_eq {es : List Timed} (h : Dropped ip es) :
    ∃ t, (∃ e ∈ es, e.1 = t) ∧ (streak ip es).failures ≠ 0 ∧ ¬ (streak ip es).Blocks t := by
  obtain ⟨pre, t, mid, rfl, hne, hover, hquiet⟩ := h
  have hstreak : streak ip (pre ++ (t, Op.purgeExpired) :: mid) = streak ip pre :=
    streak_append_of_quiet (List.forall_mem_cons.mpr ⟨rfl, hquiet⟩)
  rw [hstreak]
  exact ⟨t, ⟨(t, Op.purgeExpired), by simp, rfl⟩, hne, hover⟩

theorem Dropped.concat {es : List Timed} (h : Dropped ip es) {e : Timed}
    (he : e.2.concerns ip = false) : Dropped ip (es ++ [e]) := by
  obtain ⟨pre, t, mid, rfl, hne, hover, hquiet⟩ := h
  refine ⟨pre, t, mid ++ [e], by simp, hne, hover, fun e' he' => ?_⟩
  rcases List.mem_append.mp he' with hmid | hlast
  · exact hquiet e' hmid
  · rw [List.mem_singleton.mp hlast]
    exact he

/-- A block that is over stays over. -/
theorem Streak.not_blocks_of_le {s : Streak} {t now : Nat} (h : ¬ s.Blocks t) (hle : t ≤ now) :
    ¬ s.Blocks now := by
  intro hnow
  exact h ⟨hnow.1, by have := hnow.2; omega⟩

/-- What a check answers from what is known. -/
theorem check_eq {es : List Timed} (h : Known ip es) {now : Nat} (hnow : NotBefore now es) :
    (after es).check ip now = (streak ip es).remaining now := by
  rw [RateLimiter.check, Streak.remaining]
  rw [Known] at h
  cases hentry : (after es).attempts.lookup ip with
  | none =>
    simp only [hentry] at h ⊢
    have hfree : ¬ (streak ip es).Blocks now := by
      rcases h with hzero | hdropped
      · exact fun hblocks => hblocks.1 hzero
      · obtain ⟨t, ⟨e, he, rfl⟩, -, hover⟩ := hdropped.streak_eq
        exact Streak.not_blocks_of_le hover (hnow e he)
    rw [if_neg hfree]
  | some state =>
    simp only [hentry] at h ⊢
    obtain ⟨hne, rfl⟩ := h
    have hcount : min (streak ip es).failures u32Max ≠ 0 := by
      rw [u32Max]
      omega
    simp only [if_neg hcount, lockoutDuration_eq, backoff_min]
    by_cases helapsed : now - (streak ip es).last < backoff (streak ip es).failures
    · rw [if_pos helapsed, if_pos ⟨hne, helapsed⟩]
    · rw [if_neg helapsed, if_neg (fun hblocks => helapsed hblocks.2)]

theorem known_nil : Known ip [] := Or.inl rfl

/-- A step tells nothing wrong about an address, unless the address was dropped and fails now. -/
theorem Known.concat {es : List Timed} (h : Known ip es) {e : Timed} (hnow : NotBefore e.1 es)
    (hkept : e.2 = .recordFailure ip → ¬ Dropped ip es) : Known ip (es ++ [e]) := by
  obtain ⟨t, op⟩ := e
  rw [Known] at h ⊢
  rw [after_concat, streak_concat]
  cases op with
  | check ip' =>
    simp only [RateLimiter.step, Streak.step]
    cases hentry : (after es).attempts.lookup ip with
    | none =>
      rw [hentry] at h
      exact h.imp_right (fun hdropped => hdropped.concat rfl)
    | some state =>
      rw [hentry] at h
      exact h
  | recordFailure ip' =>
    simp only [RateLimiter.step, Streak.step, RateLimiter.recordFailure, Dict.lookup_insert]
    by_cases hip : ip' = ip
    · subst hip
      simp only [if_true]
      cases hentry : (after es).attempts.lookup ip' with
      | none =>
        simp only [hentry, Option.getD_none] at h ⊢
        have hzero := h.resolve_right (hkept rfl)
        refine ⟨by omega, ?_⟩
        rw [AttemptState.mk.injEq, hzero]
        exact ⟨Eq.refl (min (0 + 1) u32Max), Eq.refl t⟩
      | some state =>
        simp only [hentry, Option.getD_some] at h ⊢
        obtain ⟨hne, rfl⟩ := h
        refine ⟨by omega, ?_⟩
        rw [AttemptState.mk.injEq]
        exact ⟨by simp only; omega, rfl⟩
    · simp only [if_neg hip]
      cases hentry : (after es).attempts.lookup ip with
      | none =>
        rw [hentry] at h
        exact h.imp_right (fun hdropped => hdropped.concat (decide_eq_false hip))
      | some state =>
        rw [hentry] at h
        exact h
  | recordSuccess ip' =>
    simp only [RateLimiter.step, Streak.step, RateLimiter.recordSuccess, Dict.lookup_erase]
    by_cases hip : ip' = ip
    · rw [if_pos hip, if_pos hip]
      exact Or.inl rfl
    · simp only [if_neg hip]
      cases hentry : (after es).attempts.lookup ip with
      | none =>
        rw [hentry] at h
        exact h.imp_right (fun hdropped => hdropped.concat (decide_eq_false hip))
      | some state =>
        rw [hentry] at h
        exact h
  | purgeExpired =>
    simp only [RateLimiter.step, Streak.step, RateLimiter.purgeExpired, Dict.lookup_retain]
    cases hentry : (after es).attempts.lookup ip with
    | none =>
      rw [hentry] at h
      exact h.imp_right (fun hdropped => hdropped.concat rfl)
    | some state =>
      simp only [hentry] at h
      obtain ⟨hne, rfl⟩ := h
      have hlockout : lockoutDuration (min (streak ip es).failures u32Max) =
          backoff (streak ip es).failures := by rw [lockoutDuration_eq, backoff_min]
      by_cases helapsed : t - (streak ip es).last < backoff (streak ip es).failures
      · have hkeep : decide (t - (streak ip es).last <
            lockoutDuration (min (streak ip es).failures u32Max)) = true := by
          rw [hlockout]
          exact decide_eq_true helapsed
        rw [Option.filter_some, if_pos hkeep]
        exact ⟨hne, rfl⟩
      · -- the purge drops the address; what it has failed so far matters only if it fails again
        have hdrop : decide (t - (streak ip es).last <
            lockoutDuration (min (streak ip es).failures u32Max)) = false := by
          rw [hlockout]
          exact decide_eq_false helapsed
        rw [Option.filter_some, if_neg (Bool.eq_false_iff.mp hdrop)]
        exact Or.inr ⟨es, t, [], rfl, hne, fun hblocks => helapsed hblocks.2,
          fun _ he => absurd he List.not_mem_nil⟩

/-- Where nothing is forgotten, the limiter knows the streak of the address. -/
theorem known_of_not_forgets {es : List Timed} (horder : InOrder es) (hkept : ¬ Forgets ip es) :
    Known ip es := by
  induction es using List.reverseRecOn with
  | nil => exact known_nil
  | append_singleton es e ih =>
    obtain ⟨hes, -, hbefore⟩ := List.pairwise_append.mp horder
    have hkept' : ¬ Forgets ip es := by
      rintro ⟨pre, t, post, rfl, hdropped⟩
      exact hkept ⟨pre, t, post ++ [e], by simp, hdropped⟩
    refine (ih hes hkept').concat (fun e' he' => hbefore e' he' e (by simp))
      (fun hop hdropped => ?_)
    exact hkept ⟨es, e.1, [], by rw [← hop], hdropped⟩

end Known

/-! ### Backing off -/

section BackingOff

variable {ip : Str}

theorem Forgets.append {es : List Timed} (h : Forgets ip es) (post : List Timed) :
    Forgets ip (es ++ post) := by
  obtain ⟨pre, t, mid, rfl, hdropped⟩ := h
  exact ⟨pre, t, mid ++ post, by simp, hdropped⟩

theorem isSome_remaining {s : Streak} {now : Nat} :
    (s.remaining now).isSome = true ↔ s.Blocks now := by
  rw [Streak.remaining]
  by_cases h : s.Blocks now
  · simp [h]
  · simp [h]

/-- Only what concerns an address bears on its streak. -/
theorem streak_filter {p : Timed → Bool} (es : List Timed)
    (hp : ∀ e ∈ es, e.2.concerns ip = true → p e = true) :
    streak ip (es.filter p) = streak ip es := by
  induction es using List.reverseRecOn with
  | nil => rfl
  | append_singleton es e ih =>
    have ih' := ih (fun e' he' => hp e' (by simp [he']))
    rw [List.filter_append, streak_concat]
    by_cases he : p e = true
    · rw [List.filter_cons_of_pos he, List.filter_nil, streak_concat, ih']
    · have hquiet : e.2.concerns ip = false :=
        Bool.eq_false_iff.mpr (fun hc => he (hp e (by simp) hc))
      rw [List.filter_cons_of_neg he, List.filter_nil, List.append_nil, ih', ← streak_concat,
        streak_append_of_quiet (List.forall_mem_singleton.mpr hquiet)]

/-- An operation reads and writes the entry of the address it concerns; a purge goes by the entry
alone. -/
def stepEntry (ip : Str) (entry : Option AttemptState) (e : Timed) : Option AttemptState :=
  match e.2 with
  | .check _ => entry
  | .recordFailure ip' =>
    if ip' = ip then
      some ⟨min ((entry.getD ⟨0, e.1⟩).failures + 1) u32Max, e.1⟩ else entry
  | .recordSuccess ip' => if ip' = ip then none else entry
  | .purgeExpired =>
    entry.filter (fun state => decide (e.1 - state.lastAttempt < lockoutDuration state.failures))

theorem stepEntry_failure (entry : Option AttemptState) (t : Nat) :
    stepEntry ip entry (t, .recordFailure ip) =
      some ⟨min ((entry.getD ⟨0, t⟩).failures + 1) u32Max, t⟩ := if_pos rfl

theorem lookup_step (l : RateLimiter) (e : Timed) :
    (l.step e).attempts.lookup ip = stepEntry ip (l.attempts.lookup ip) e := by
  obtain ⟨t, op⟩ := e
  cases op with
  | check ip' => rfl
  | recordFailure ip' =>
    simp only [RateLimiter.step, stepEntry, RateLimiter.recordFailure, Dict.lookup_insert]
    by_cases hip : ip' = ip
    · rw [hip]
    · rw [if_neg hip, if_neg hip]
  | recordSuccess ip' => exact Dict.lookup_erase _ _ _
  | purgeExpired => exact Dict.lookup_retain _ _ _

theorem lookup_filter {p : Timed → Bool} (es : List Timed)
    (hp : ∀ e ∈ es, p e = false → e.2.concerns ip = false ∧ e.2 ≠ .purgeExpired) :
    (after (es.filter p)).attempts.lookup ip = (after es).attempts.lookup ip := by
  induction es using List.reverseRecOn with
  | nil => rfl
  | append_singleton es e ih =>
    have ih' := ih (fun e' he' => hp e' (by simp [he']))
    rw [List.filter_append, after_concat, lookup_step, ← ih']
    cases he : p e with
    | true => rw [List.filter_cons_of_pos he, List.filter_nil, after_concat, lookup_step]
    | false =>
      obtain ⟨hquiet, hpurge⟩ := hp e (by simp) he
      rw [List.filter_cons_of_neg (Bool.eq_false_iff.mp he), List.filter_nil, List.append_nil]
      obtain ⟨t, op⟩ := e
      cases op with
      | check ip' => rfl
      | recordFailure ip' => exact (if_neg (of_decide_eq_false hquiet)).symm
      | recordSuccess ip' => exact (if_neg (of_decide_eq_false hquiet)).symm
      | purgeExpired => exact absurd rfl hpurge

theorem check_congr {l l' : RateLimiter} (h : l.attempts.lookup ip = l'.attempts.lookup ip)
    (now : Nat) : l.check ip now = l'.check ip now := by
  rw [RateLimiter.check, RateLimiter.check, h]

theorem inOrder_filter {p : Timed → Bool} {es : List Timed} (h : InOrder es) :
    InOrder (es.filter p) := List.Pairwise.filter p h

/-- Without purges nothing is forgotten. -/
theorem not_forgets_of_no_purge {es : List Timed} (h : ∀ e ∈ es, e.2 ≠ .purgeExpired) :
    ¬ Forgets ip es := by
  rintro ⟨_, t, post, rfl, pre, t', mid, rfl, -⟩
  exact h (t', Op.purgeExpired) (by simp) rfl

theorem backsOff_of_not_forgets {es : List Timed} (horder : InOrder es) (hkept : ¬ Forgets ip es) :
    BacksOff ip es := by
  have hanswer : ∀ pre post, es = pre ++ post → ∀ now, NotBefore now pre →
      (after pre).check ip now = (streak ip pre).remaining now := by
    rintro pre post rfl now hnow
    have hpre : InOrder pre := (List.pairwise_append.mp horder).1
    exact check_eq (known_of_not_forgets hpre (fun h => hkept (h.append post))) hnow
  refine ⟨fun pre post hes now hnow => ?_, fun pre post hes now hnow => ?_,
    fun pre post hes now hnow => ?_⟩
  · rw [hanswer pre post hes now hnow]
    exact isSome_remaining
  · have hpre : InOrder pre := (List.pairwise_append.mp (hes ▸ horder)).1
    have hnone : ∀ e ∈ pre.filter (fun e => decide (e.2 ≠ .purgeExpired)), e.2 ≠ .purgeExpired :=
      fun e he => of_decide_eq_true (List.mem_filter.mp he).2
    have hknown : Known ip _ :=
      known_of_not_forgets (inOrder_filter hpre) (not_forgets_of_no_purge hnone)
    rw [hanswer pre post hes now hnow,
      check_eq hknown (fun e he => hnow e (List.mem_filter.mp he).1), streak_filter]
    intro e _ hconcerns
    apply decide_eq_true
    intro hpurge
    rw [hpurge] at hconcerns
    cases hconcerns
  · refine check_congr (lookup_filter pre (fun e _ he => ?_)).symm now
    obtain ⟨hquiet, hpurge⟩ := Bool.or_eq_false_iff.mp he
    exact ⟨hquiet, of_decide_eq_false hpurge⟩

/-- The limiter keeps no counter at zero. -/
theorem failures_ne_zero {es : List Timed} {state : AttemptState}
    (h : (after es).attempts.lookup ip = some state) : state.failures ≠ 0 := by
  induction es using List.reverseRecOn generalizing state with
  | nil => cases h
  | append_singleton es e ih =>
    obtain ⟨t, op⟩ := e
    rw [after_concat, lookup_step] at h
    cases op with
    | check ip' => exact ih h
    | recordFailure ip' =>
      simp only [stepEntry] at h
      by_cases hip : ip' = ip
      · rw [if_pos hip] at h
        cases h
        simp only [u32Max]
        omega
      · rw [if_neg hip] at h
        exact ih h
    | recordSuccess ip' =>
      simp only [stepEntry] at h
      by_cases hip : ip' = ip
      · rw [if_pos hip] at h
        cases h
      · rw [if_neg hip] at h
        exact ih h
    | purgeExpired => exact ih (Option.filter_eq_some_iff.mp h).1

/-- What is not blocked when a purge runs is dropped. -/
theorem lookup_purge {es : List Timed} {t : Nat}
    (hfree : ((after (es ++ [(t, Op.purgeExpired)])).check ip t).isSome = false) :
    (after (es ++ [(t, Op.purgeExpired)])).attempts.lookup ip = none := by
  cases hentry : (after (es ++ [(t, Op.purgeExpired)])).attempts.lookup ip with
  | none => rfl
  | some state =>
    have hne := failures_ne_zero hentry
    have hkept := hentry
    rw [after_concat, lookup_step] at hkept
    have hlive := of_decide_eq_true (Option.filter_eq_some_iff.mp hkept).2
    rw [RateLimiter.check, hentry] at hfree
    simp only [if_neg hne, if_pos hlive, Option.isSome_some] at hfree
    cases hfree

theorem lookup_append_of_quiet {es mid : List Timed}
    (hnone : (after es).attempts.lookup ip = none)
    (hquiet : ∀ e ∈ mid, e.2.concerns ip = false) :
    (after (es ++ mid)).attempts.lookup ip = none := by
  induction mid using List.reverseRecOn with
  | nil => rwa [List.append_nil]
  | append_singleton mid e ih =>
    have he := hquiet e (by simp)
    rw [← List.append_assoc, after_concat, lookup_step,
      ih (fun e' he' => hquiet e' (by simp [he']))]
    obtain ⟨t, op⟩ := e
    cases op with
    | check ip' => rfl
    | recordFailure ip' => exact if_neg (of_decide_eq_false he)
    | recordSuccess ip' => exact if_neg (of_decide_eq_false he)
    | purgeExpired => rfl

/-- The second failure of a streak blocks for more than a second. -/
theorem second_lt_backoff {n : Nat} (hn : n ≠ 0) : second < backoff (n + 1) := by
  have htwo : 2 ^ 1 ≤ 2 ^ (n + 1 - 1) := Nat.pow_le_pow_right (by omega) (by omega)
  rw [backoff, second]
  omega

/-- A limiter that backs off has not forgotten the failures of the address. -/
theorem not_forgets_of_backsOff {es : List Timed} (horder : InOrder es) (h : BacksOff ip es) :
    ¬ Forgets ip es := by
  rintro ⟨_, t', post, rfl, pre, t, mid, rfl, hne, hover, hquiet⟩
  have hstreak : streak ip (pre ++ (t, Op.purgeExpired) :: mid) = streak ip pre :=
    streak_append_of_quiet (List.forall_mem_cons.mpr ⟨rfl, hquiet⟩)
  obtain ⟨hpre, -, hbefore⟩ := List.pairwise_append.mp horder
  obtain ⟨-, -, hbefore'⟩ := List.pairwise_append.mp hpre
  -- the purge finds the address free, so that its entry goes
  have hpurged : (after (pre ++ [(t, Op.purgeExpired)])).attempts.lookup ip = none := by
    apply lookup_purge
    have hsplit : (pre ++ (t, Op.purgeExpired) :: mid) ++ (t', Op.recordFailure ip) :: post =
        (pre ++ [(t, Op.purgeExpired)]) ++ (mid ++ (t', Op.recordFailure ip) :: post) := by simp
    have hnow : NotBefore t (pre ++ [(t, Op.purgeExpired)]) := by
      intro e he
      rcases List.mem_append.mp he with he | he
      · exact hbefore' e he (t, Op.purgeExpired) (by simp)
      · obtain rfl := List.mem_singleton.mp he
        exact Nat.le_refl _
    have hfree := h.blocks _ _ hsplit t hnow
    rw [streak_append_of_quiet (List.forall_mem_singleton.mpr rfl)] at hfree
    exact Bool.eq_false_iff.mpr (fun hblocked => hover (hfree.mp hblocked))
  have hgone := lookup_append_of_quiet hpurged hquiet
  rw [List.append_assoc, List.singleton_append] at hgone
  -- a second after the failure the limiter lets the address in, its streak does not
  have hsplit : (pre ++ (t, Op.purgeExpired) :: mid) ++ (t', Op.recordFailure ip) :: post =
      ((pre ++ (t, Op.purgeExpired) :: mid) ++ [(t', Op.recordFailure ip)]) ++ post := by simp
  have hnow : NotBefore (t' + second)
      ((pre ++ (t, Op.purgeExpired) :: mid) ++ [(t', Op.recordFailure ip)]) := by
    intro e he
    rcases List.mem_append.mp he with he | he
    · exact Nat.le_add_right_of_le (hbefore e he (t', Op.recordFailure ip) (by simp))
    · rw [List.mem_singleton.mp he]
      exact Nat.le_add_right _ _
  have hblocked := (h.blocks _ _ hsplit (t' + second) hnow).mpr (by
    rw [streak_concat, hstreak, Streak.step_failure]
    refine ⟨Nat.succ_ne_zero _, ?_⟩
    simp only [Nat.add_sub_cancel_left]
    exact second_lt_backoff hne)
  rw [RateLimiter.check, after_concat, lookup_step, hgone, stepEntry_failure] at hblocked
  simp only [Option.getD_none, Nat.add_sub_cancel_left] at hblocked
  revert hblocked
  decide

/-- The limiter backs off from an address exactly where it never forgets a failure of it. -/
theorem backsOff_iff (ip : Str) (es : List Timed) (horder : InOrder es) :
    BacksOff ip es ↔ ¬ Forgets ip es :=
  ⟨not_forgets_of_backsOff horder, backsOff_of_not_forgets horder⟩

end BackingOff

/-- Two failures two seconds apart, and a check. -/
def steadyLogins : List Timed :=
  [(0, .recordFailure (str "a")), (2 * second, .recordFailure (str "a")),
    (3 * second, .check (str "a"))]

theorem backsOff_steadyLogins : BacksOff (str "a") steadyLogins :=
  (backsOff_iff (str "a") steadyLogins (by rw [InOrder]; decide)).mpr
    (not_forgets_of_no_purge (by decide))

/-- The same failures, with a purge of the maintenance between them. -/
def purgedLogins : List Timed :=
  [(0, .recordFailure (str "a")), (second, .purgeExpired), (2 * second, .recordFailure (str "a"))]

/-- A second after its second failure the address may try again. -/
theorem not_backsOff_purgedLogins : InOrder purgedLogins ∧
    (after purgedLogins).check (str "a") (3 * second) = none ∧
    (streak (str "a") purgedLogins).Blocks (3 * second) ∧ ¬ BacksOff (str "a") purgedLogins := by
  refine ⟨by rw [InOrder]; decide, by decide, by decide, fun h => ?_⟩
  have hblocked := (h.blocks purgedLogins [] rfl (3 * second) (by rw [NotBefore]; decide)).mpr
    (by decide)
  revert hblocked
  decide

end Repartee.Web
