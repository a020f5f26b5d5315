import Repartee.Lib.Run
import Mathlib.Algebra.Order.BigOperators.Group.List
import Mathlib.Algebra.Order.Group.Nat
import Mathlib.Data.List.DropRight
import Mathlib.Data.List.Pairwise

/-!
# Throttles

A throttle lets a source do something `room` times in every window of time and shuts for a while
when there is more. While it is shut it refuses everything, and a throttle that *renews* starts
the wait again with every refusal. Each source has a throttle of its own; an event is the key of
its source and the time.

`Past` is the least that a throttle must remember of a source. `Story` relates it to the history
of the source, so that the decisions can be read off the history.

## Main definitions

- `Throttle`, `Throttle.Past`: the rule, and what is remembered of a source
- `Throttle.log`: the decisions of a machine on a list of events
- `Throttle.Story`: a history and what is remembered of it

## Main results

- `Throttle.own_log`: the decisions for a source depend on its own events
- `Throttle.log_eq_of_follows`: a machine that follows the throttle takes its decisions
- `Throttle.Follows.passedIn_le`: no closed window has more than `room` passed events
- `Throttle.refuses_iff_of_not_renews`, `Throttle.refuses_iff_of_renews`: what is refused
-/

set_option autoImplicit false

universe u v w

/-- `room` events pass in a `window`; then the throttle shuts for the time `hold`. -/
structure Throttle where
  window : Nat
  room : Nat
  hold : Nat
  renews : Bool

namespace Throttle

/-- An event and its decision. -/
structure Entry (κ : Type v) where
  key : κ
  time : Nat
  passed : Bool
  deriving DecidableEq

section Log

variable {σ : Type u} {κ : Type v} (f : σ → κ × Nat → Bool × σ)

/-- The state after some events. -/
def after (s : σ) (events : List (κ × Nat)) : σ := Run.run (fun s e => (f s e).2) s events

/-- The decisions on some events. -/
def log : σ → List (κ × Nat) → List (Entry κ)
  | _, [] => []
  | s, e :: events => ⟨e.1, e.2, (f s e).1⟩ :: log (f s e).2 events

theorem log_append (s : σ) (pre post : List (κ × Nat)) :
    log f s (pre ++ post) = log f s pre ++ log f (after f s pre) post := by
  induction pre generalizing s with
  | nil => rfl
  | cons e pre ih => exact congrArg (_ :: ·) (ih (f s e).2)

theorem log_concat (s : σ) (pre : List (κ × Nat)) (e : κ × Nat) :
    log f s (pre ++ [e]) = log f s pre ++ [⟨e.1, e.2, (f (after f s pre) e).1⟩] :=
  log_append f s pre [e]

theorem after_concat (s : σ) (pre : List (κ × Nat)) (e : κ × Nat) :
    after f s (pre ++ [e]) = (f (after f s pre) e).2 := Run.run_append s pre [e]

/-- Machines with the same decisions on a list decide its last event alike. -/
theorem decision_eq_of_log_eq {σ' : Type w} {g : σ' → κ × Nat → Bool × σ'} {s : σ} {s' : σ'}
    {pre : List (κ × Nat)} {e : κ × Nat} (h : log f s (pre ++ [e]) = log g s' (pre ++ [e])) :
    (f (after f s pre) e).1 = (g (after g s' pre) e).1 := by
  rw [log_concat, log_concat] at h
  obtain ⟨-, hlast⟩ := List.append_inj' h rfl
  simpa using hlast

/-- The entries of one source. -/
def own [DecidableEq κ] (k : κ) (h : List (Entry κ)) : List (Entry κ) :=
  h.filter (fun e => e.key = k)

end Log

/-- What is dropped from the front of a list of increasing times, up to the first that is recent
enough, is everything that is too old. -/
theorem dropWhile_eq_filter {times : List Nat} {p : Nat → Bool} (hs : times.Pairwise (· ≤ ·))
    (hp : ∀ a b, a ≤ b → p b = true → p a = true) :
    times.dropWhile p = times.filter (fun t => !p t) := by
  induction times with
  | nil => rfl
  | cons t times ih =>
    obtain ⟨hle, hs⟩ := List.pairwise_cons.mp hs
    cases ht : p t with
    | true => rw [List.dropWhile_cons_of_pos ht, List.filter_cons_of_neg (by simp [ht]), ih hs]
    | false =>
      have hall : ∀ u ∈ t :: times, (!p u) = true := by
        intro u hu
        rcases List.mem_cons.mp hu with rfl | hu
        · simp [ht]
        · rw [Bool.not_eq_true']
          by_contra hpu
          rw [hp t u (hle u hu) (by simpa using hpu)] at ht
          cases ht
      rw [List.dropWhile_cons_of_neg (by simp [ht]), List.filter_eq_self.mpr hall]

/-! ### The rule -/

/-- What is remembered of a source: what has passed since the throttle shut last, and until when
it is shut. -/
structure Past where
  passed : List Nat
  shutUntil : Option Nat
  deriving DecidableEq

namespace Past

def fresh : Past := ⟨[], none⟩

/-- At time `t` the throttle is shut. -/
def shut (p : Past) (t : Nat) : Bool := p.shutUntil.any (fun s => t < s)

/-- How many of the passed events lie in the closed window that ends at `t`. -/
def recent (r : Throttle) (p : Past) (t : Nat) : Nat :=
  p.passed.countP (fun u => t ≤ u + r.window)

def step (r : Throttle) (p : Past) (t : Nat) : Bool × Past :=
  if p.shut t then
    (false, { p with shutUntil := if r.renews then some (t + r.hold) else p.shutUntil })
  else if p.recent r t < r.room then (true, ⟨p.passed ++ [t], none⟩)
  else (false, ⟨[], some (t + r.hold)⟩)

variable {r : Throttle} {p : Past} {t : Nat}

@[simp] theorem shut_none (l : List Nat) (t : Nat) : shut ⟨l, none⟩ t = false := rfl

@[simp] theorem shut_some (l : List Nat) (s t : Nat) : shut ⟨l, some s⟩ t = decide (t < s) := rfl

theorem step_of_shut (h : p.shut t = true) : p.step r t =
    (false, { p with shutUntil := if r.renews then some (t + r.hold) else p.shutUntil }) := by
  rw [step, if_pos h]

theorem step_of_room (h : p.shut t = false) (hroom : p.recent r t < r.room) :
    p.step r t = (true, ⟨p.passed ++ [t], none⟩) := by
  rw [step, if_neg (by simp [h]), if_pos hroom]

theorem step_of_full (h : p.shut t = false) (hfull : r.room ≤ p.recent r t) :
    p.step r t = (false, ⟨[], some (t + r.hold)⟩) := by
  rw [step, if_neg (by simp [h]), if_neg (Nat.not_lt.mpr hfull)]

theorem refuses_iff :
    (p.step r t).1 = false ↔ p.shut t = true ∨ r.room ≤ p.recent r t := by
  cases hs : p.shut t with
  | true => simp [step_of_shut hs]
  | false =>
    rcases Nat.lt_or_ge (p.recent r t) r.room with hroom | hfull
    · simp [step_of_room hs hroom, hroom]
    · simp [step_of_full hs hfull, hfull]

theorem room_of_passes (h : (p.step r t).1 = true) :
    p.shut t = false ∧ p.recent r t < r.room := by
  have hnot : ¬ (p.shut t = true ∨ r.room ≤ p.recent r t) := by
    rw [← refuses_iff, h]
    exact Bool.noConfusion
  rw [not_or, Bool.not_eq_true, Nat.not_le] at hnot
  exact hnot

end Past

section Keyed

variable {κ : Type v} [DecidableEq κ] (r : Throttle)

/-- One throttle for each source. -/
def stepAt (ps : κ → Past) (e : κ × Nat) : Bool × (κ → Past) :=
  (((ps e.1).step r e.2).1, Function.update ps e.1 ((ps e.1).step r e.2).2)

theorem stepAt_self (ps : κ → Past) (e : κ × Nat) :
    (stepAt r ps e).2 e.1 = ((ps e.1).step r e.2).2 := Function.update_self e.1 _ ps

theorem stepAt_of_ne (ps : κ → Past) {e : κ × Nat} {k : κ} (hk : e.1 ≠ k) :
    (stepAt r ps e).2 k = ps k := Function.update_of_ne (Ne.symm hk) _ ps

/-- The decisions for a source depend on what is remembered of it and on its events. -/
theorem own_log_of_eq (k : κ) (events : List (κ × Nat)) {ps qs : κ → Past} (h : ps k = qs k) :
    own k (log (stepAt r) ps events) =
      log (stepAt r) qs (events.filter (fun e => e.1 = k)) := by
  induction events generalizing ps qs with
  | nil => rfl
  | cons e events ih =>
    by_cases hk : e.1 = k
    · subst hk
      have hstep : ∀ e' : κ × Nat, e'.1 = e.1 →
          ((stepAt r ps e).2 e'.1 = (stepAt r qs e).2 e'.1) := by
        intro e' he'
        simp [stepAt, he', h]
      have hd : (stepAt r ps e).1 = (stepAt r qs e).1 := by
        simp [stepAt, h]
      rw [List.filter_cons_of_pos (by simp), log, log, own, List.filter_cons_of_pos (by simp)]
      exact congrArg₂ List.cons (by rw [hd]) (ih (hstep e rfl))
    · have hstep : (stepAt r ps e).2 k = qs k := by
        rw [stepAt_of_ne r ps hk, h]
      rw [List.filter_cons_of_neg (by simpa using hk), log, own,
        List.filter_cons_of_neg (by simpa using hk)]
      exact ih hstep

theorem own_log (k : κ) (events : List (κ × Nat)) (ps : κ → Past) :
    own k (log (stepAt r) ps events) =
      log (stepAt r) ps (events.filter (fun e => e.1 = k)) := own_log_of_eq r k events rfl

end Keyed

/-! ### Following the rule -/

section Follows

variable {σ : Type u} {κ : Type v} [DecidableEq κ] {r : Throttle} {f : σ → κ × Nat → Bool × σ}
  {Fine : κ × Nat → Prop} {R : Nat → σ → (κ → Past) → Prop}

/-- The times do not decrease. -/
def InTime (events : List (κ × Nat)) : Prop := (events.map Prod.snd).Pairwise (· ≤ ·)

instance (events : List (κ × Nat)) : Decidable (InTime events) :=
  inferInstanceAs (Decidable ((events.map Prod.snd).Pairwise (· ≤ ·)))

/-- **Following**: the machine decides like the throttle on every event that is `Fine`, and the
relation `R`, which may speak of the time, is kept. -/
def Follows (r : Throttle) (f : σ → κ × Nat → Bool × σ) (Fine : κ × Nat → Prop)
    (R : Nat → σ → (κ → Past) → Prop) : Prop :=
  ∀ now s ps e, R now s ps → now ≤ e.2 → Fine e →
    (f s e).1 = (stepAt r ps e).1 ∧ R e.2 (f s e).2 (stepAt r ps e).2

/-- A machine that follows the throttle takes its decisions, and goes on following it. -/
theorem log_eq_of_follows (hf : Follows r f Fine R) {events : List (κ × Nat)} {now : Nat} {s : σ}
    {ps : κ → Past} (hR : R now s ps) (htime : InTime events)
    (hnow : ∀ e ∈ events, now ≤ e.2) (hfine : ∀ e ∈ events, Fine e) :
    log f s events = log (stepAt r) ps events := by
  induction events generalizing now s ps with
  | nil => rfl
  | cons e events ih =>
    obtain ⟨hlater, htime⟩ := List.pairwise_cons.mp htime
    obtain ⟨hd, hR⟩ := hf now s ps e hR (hnow e List.mem_cons_self) (hfine e List.mem_cons_self)
    rw [log, log, hd]
    refine congrArg (_ :: ·) (ih hR htime ?_ ?_)
    · intro e' he'
      exact hlater e'.2 (List.mem_map_of_mem he')
    · intro e' he'
      exact hfine e' (List.mem_cons_of_mem e he')

end Follows

/-! ### Stories -/

section Stories

variable {κ : Type v} (r : Throttle)

/-- A history of a source, what is remembered of it, and a time that is not before it. -/
inductive Story : List (Entry κ) → Past → Nat → Prop
  | fresh (now : Nat) : Story [] Past.fresh now
  | wait {h : List (Entry κ)} {p : Past} {now t : Nat} : Story h p now → now ≤ t → Story h p t
  | event {h : List (Entry κ)} {p : Past} {now t : Nat} (k : κ) : Story h p now → now ≤ t →
      Story (h ++ [⟨k, t, (p.step r t).1⟩]) (p.step r t).2 t

/-- The times that have passed since the last refusal. -/
def passedSince (h : List (Entry κ)) : List Nat :=
  (h.rtakeWhile (fun e => e.passed)).map (fun e => e.time)

/-- The time of the last refusal. -/
def lastRefused (h : List (Entry κ)) : Option Nat :=
  ((h.filter (fun e => !e.passed)).getLast?).map (fun e => e.time)

/-- How many events have passed between two times. -/
def passedIn (h : List (Entry κ)) (a b : Nat) : Nat :=
  h.countP (fun e => e.passed && decide (a ≤ e.time ∧ e.time ≤ b))

/-- At time `t` the window is full although the source was not refused the last time. -/
def Exceeds (h : List (Entry κ)) (t : Nat) : Prop :=
  (∃ e ∈ h.getLast?, e.passed = true) ∧ r.room ≤ passedIn h (t - r.window) t

/-- At time `t` the source has to wait because it has exceeded its window. -/
def Waits (h : List (Entry κ)) (t : Nat) : Prop :=
  ∃ pre e post, h = pre ++ e :: post ∧ Exceeds r pre e.time ∧ t < e.time + r.hold

variable {r} {h : List (Entry κ)} {p : Past} {now t : Nat}

theorem passedSince_concat_passed {e : Entry κ} (he : e.passed = true) :
    passedSince (h ++ [e]) = passedSince h ++ [e.time] := by
  rw [passedSince, List.rtakeWhile_concat_pos _ _ _ he, List.map_append]
  rfl

theorem passedSince_concat_refused {e : Entry κ} (he : e.passed = false) :
    passedSince (h ++ [e]) = [] := by
  rw [passedSince, List.rtakeWhile_concat_neg _ _ _ (by simp [he])]
  rfl

theorem lastRefused_concat_refused {e : Entry κ} (he : e.passed = false) :
    lastRefused (h ++ [e]) = some e.time := by
  simp [lastRefused, he]

namespace Story

/-- While the throttle may be shut, nothing is remembered as passed. -/
theorem passed_of_shutUntil (hs : Story r h p now) : p.shutUntil ≠ none → p.passed = [] := by
  induction hs with
  | fresh now => intro hne; exact absurd rfl hne
  | wait _ _ ih => exact ih
  | @event h p now t k _ _ ih =>
    intro hne
    cases hshut : p.shut t with
    | true =>
      rw [Past.step_of_shut hshut]
      refine ih (fun hnone => ?_)
      simp [Past.shut, hnone] at hshut
    | false =>
      rcases Nat.lt_or_ge (p.recent r t) r.room with hroom | hfull
      · rw [Past.step_of_room hshut hroom] at hne
        exact absurd rfl hne
      · rw [Past.step_of_full hshut hfull]

theorem passed_of_shut (hs : Story r h p now) (hshut : p.shut t = true) : p.passed = [] := by
  apply hs.passed_of_shutUntil
  intro hnone
  simp [Past.shut, hnone] at hshut

theorem time_le (hs : Story r h p now) : ∀ e ∈ h, e.time ≤ now := by
  induction hs with
  | fresh now => simp
  | wait _ hle ih => exact fun e he => (ih e he).trans hle
  | event k _ hle ih =>
    intro e he
    rcases List.mem_append.mp he with he | he
    · exact (ih e he).trans hle
    · rw [List.mem_singleton.mp he]

theorem passed_eq (hs : Story r h p now) : p.passed = passedSince h := by
  induction hs with
  | fresh now => rfl
  | wait _ _ ih => exact ih
  | @event h p now t k hs _ ih =>
    cases hshut : p.shut t with
    | true =>
      rw [Past.step_of_shut hshut, passedSince_concat_refused rfl]
      exact hs.passed_of_shut hshut
    | false =>
      rcases Nat.lt_or_ge (p.recent r t) r.room with hroom | hfull
      · rw [Past.step_of_room hshut hroom, passedSince_concat_passed rfl, ← ih]
      · rw [Past.step_of_full hshut hfull, passedSince_concat_refused rfl]

/-- Up to the last refusal, everything that counts is at least a `hold` before any time at which
the throttle is open again. -/
theorem settled (hs : Story r h p now) : ∀ e ∈ h.rdropWhile (fun e => e.passed),
    e.passed = true ∨ r.renews = true → ∀ t, now ≤ t → p.shut t = false →
      e.time + r.hold ≤ t := by
  induction hs with
  | fresh now => simp
  | wait _ hle ih => exact fun e he hor t ht => ih e he hor t (hle.trans ht)
  | @event h p now tx k hs hle ih =>
    have hbefore : ∀ e ∈ h, e.time ≤ tx := fun e he => (hs.time_le e he).trans hle
    cases hshut : p.shut tx with
    | true =>
      rw [Past.step_of_shut hshut, List.rdropWhile_concat_neg _ _ _ (by simp)]
      intro e he hor t ht hopen
      -- nothing has passed since the last refusal, so all of `h` is up to it
      have hall : h.rdropWhile (fun e => e.passed) = h := by
        have hnil : h.rtakeWhile (fun e => e.passed) = [] :=
          List.map_eq_nil_iff.mp (hs.passed_eq.symm.trans (hs.passed_of_shut hshut))
        have happ : h.rdropWhile (fun e => e.passed) ++ h.rtakeWhile (fun e => e.passed) = h :=
            List.rdropWhile_append_rtakeWhile
        rwa [hnil, List.append_nil] at happ
      cases hren : r.renews with
      | true =>
        -- the refusal has renewed the wait, so the throttle opens a `hold` after it
        have hle : e.time ≤ tx := by
          rcases List.mem_append.mp he with he | he
          · exact hbefore e he
          · rw [List.mem_singleton.mp he]
        simp only [hren, if_true, Past.shut_some, decide_eq_false_iff_not] at hopen
        omega
      | false =>
        simp only [hren, Bool.false_eq_true, if_false] at hopen
        simp only [hren, Bool.false_eq_true, or_false] at hor
        rcases List.mem_append.mp he with he | he
        · exact ih e (by rw [hall]; exact he) (Or.inl hor) t (hle.trans ht) hopen
        · rw [List.mem_singleton.mp he] at hor
          cases hor
    | false =>
      rcases Nat.lt_or_ge (p.recent r tx) r.room with hroom | hfull
      · rw [Past.step_of_room hshut hroom, List.rdropWhile_concat_pos _ _ _ rfl]
        intro e he hor t ht _
        exact (ih e he hor tx hle hshut).trans ht
      · rw [Past.step_of_full hshut hfull, List.rdropWhile_concat_neg _ _ _ (by simp)]
        intro e he _ t _ hopen
        have hle : e.time ≤ tx := by
          rcases List.mem_append.mp he with he | he
          · exact hbefore e he
          · rw [List.mem_singleton.mp he]
        rw [Past.shut_some, decide_eq_false_iff_not] at hopen
        omega

/-- What is remembered counts as many events as the history does. -/
theorem recent_eq (hs : Story r h p now) (hhold : r.window < r.hold) (ht : now ≤ t)
    (hopen : p.shut t = false) : p.recent r t = passedIn h (t - r.window) t := by
  have hsplit : h.rdropWhile (fun e => e.passed) ++ h.rtakeWhile (fun e => e.passed) = h :=
    List.rdropWhile_append_rtakeWhile
  have hold : (h.rdropWhile (fun e => e.passed)).countP
      (fun e => e.passed && decide (t - r.window ≤ e.time ∧ e.time ≤ t)) = 0 := by
    rw [List.countP_eq_zero]
    intro e he hcount
    simp only [Bool.and_eq_true, decide_eq_true_eq] at hcount
    have hsettled := hs.settled e he (Or.inl hcount.1) t ht hopen
    omega
  rw [passedIn, ← hsplit, List.countP_append, hold, Nat.zero_add, Past.recent, hs.passed_eq,
    passedSince, List.countP_map]
  apply List.countP_congr
  intro e he
  have hle := hs.time_le e (hsplit ▸ List.mem_append_right _ he)
  have hpassed := List.mem_rtakeWhile_imp he
  simp only [Function.comp_apply, decide_eq_true_eq, Bool.and_eq_true, hpassed, true_and]
  omega

/-- No more is remembered than fits into a window. -/
theorem recent_le (hs : Story r h p now) : ∀ t, now ≤ t → p.recent r t ≤ r.room := by
  induction hs with
  | fresh now => intro t _; exact Nat.zero_le _
  | wait _ hle ih => exact fun t ht => ih t (hle.trans ht)
  | @event h p now tx k hs hle ih =>
    intro t ht
    cases hshut : p.shut tx with
    | true =>
      rw [Past.step_of_shut hshut, Past.recent, hs.passed_of_shut hshut]
      exact Nat.zero_le _
    | false =>
      rcases Nat.lt_or_ge (p.recent r tx) r.room with hroom | hfull
      · have hmono : p.recent r t ≤ p.recent r tx := by
          refine List.countP_mono_left (fun u _ hu => ?_)
          simp only [decide_eq_true_eq] at hu ⊢
          omega
        have hone : [tx].countP (fun u => decide (t ≤ u + r.window)) ≤ 1 :=
          List.countP_le_length
        rw [Past.step_of_room hshut hroom]
        simp only [Past.recent, List.countP_append] at hmono hroom ⊢
        omega
      · rw [Past.step_of_full hshut hfull]
        exact Nat.zero_le _

/-- **The window**: no closed interval as long as a window has more than `room` passed events. -/
theorem passedIn_le (hs : Story r h p now) (hhold : r.window < r.hold) (a : Nat) :
    passedIn h a (a + r.window) ≤ r.room := by
  induction hs with
  | fresh now => exact Nat.zero_le _
  | wait _ _ ih => exact ih
  | @event h p now tx k hs hle ih =>
    rw [passedIn, List.countP_append]
    change passedIn h a (a + r.window) + _ ≤ _
    by_cases hcount : (p.step r tx).1 = true ∧ a ≤ tx ∧ tx ≤ a + r.window
    · obtain ⟨hpassed, ha, hb⟩ := hcount
      obtain ⟨hopen, hroom⟩ := Past.room_of_passes hpassed
      -- the earlier events of the interval lie in the window that ends now
      have hmono : passedIn h a (a + r.window) ≤ passedIn h (tx - r.window) tx := by
        refine List.countP_mono_left (fun e he hin => ?_)
        have hbefore := (hs.time_le e he).trans hle
        simp only [Bool.and_eq_true, decide_eq_true_eq] at hin ⊢
        exact ⟨hin.1, by omega, hbefore⟩
      rw [← hs.recent_eq hhold hle hopen] at hmono
      simp only [List.countP_singleton, hpassed, Bool.true_and, decide_eq_true_eq]
      rw [if_pos ⟨ha, hb⟩]
      omega
    · rw [List.countP_singleton, if_neg (by simpa using hcount)]
      exact ih

/-! #### A throttle that does not renew -/

/-- A source that has last passed is not waiting. -/
theorem shutUntil_of_getLast (hs : Story r h p now) :
    (∃ e ∈ h.getLast?, e.passed = true) → p.shutUntil = none := by
  induction hs with
  | fresh now => intro _; rfl
  | wait _ _ ih => exact ih
  | @event h p now tx k hs hle ih =>
    rintro ⟨e, he, hpassed⟩
    rw [List.getLast?_concat, Option.mem_some_iff] at he
    subst he
    obtain ⟨hopen, hroom⟩ := Past.room_of_passes hpassed
    rw [Past.step_of_room hopen hroom]

theorem shut_of_exceeded (hs : Story r h p now) : ∀ pre e post, h = pre ++ e :: post →
    r.window < r.hold → Exceeds r pre e.time → ∀ t, now ≤ t → t < e.time + r.hold →
      p.shut t = true := by
  induction hs with
  | fresh now => intro pre e post hnil; simp at hnil
  | wait _ hle ih =>
    intro pre e post hsplit hhold hex t ht
    exact ih pre e post hsplit hhold hex t (hle.trans ht)
  | @event h p now tx k hs hle ih =>
    intro pre e post hsplit hhold hex t ht hlt
    rcases List.eq_nil_or_concat post with rfl | ⟨rest, x, rfl⟩
    · -- the newest event exceeds the window
      obtain ⟨rfl, hx⟩ := List.append_inj' hsplit rfl
      rw [List.cons.injEq] at hx
      obtain ⟨rfl, -⟩ := hx
      have hnone := hs.shutUntil_of_getLast hex.1
      have hopen : p.shut tx = false := by simp [Past.shut, hnone]
      have hfull : r.room ≤ p.recent r tx := by
        rw [hs.recent_eq hhold hle hopen]
        exact hex.2
      rw [Past.step_of_full hopen hfull]
      simpa using hlt
    · rw [List.concat_eq_append, ← List.cons_append, ← List.append_assoc] at hsplit
      obtain ⟨hh, -⟩ := List.append_inj' hsplit rfl
      have hshut := ih pre e rest hh hhold hex tx hle (lt_of_le_of_lt ht hlt)
      have hlater := ih pre e rest hh hhold hex t (hle.trans ht) hlt
      rw [Past.step_of_shut hshut]
      cases r.renews with
      | false => exact hlater
      | true =>
        have hbefore : e.time ≤ tx := (hs.time_le e (hh ▸ by simp)).trans hle
        simp only [if_true, Past.shut_some, decide_eq_true_eq]
        omega

/-- If something counts, the source has last passed. -/
theorem getLast_of_recent (hs : Story r h p now) (hpos : 0 < p.recent r t) :
    ∃ e ∈ h.getLast?, e.passed = true := by
  rcases List.eq_nil_or_concat h with rfl | ⟨rest, e, rfl⟩
  · rw [Past.recent, hs.passed_eq] at hpos
    exact absurd hpos (Nat.lt_irrefl 0)
  · rw [List.concat_eq_append] at hs ⊢
    refine ⟨e, List.getLast?_concat, ?_⟩
    by_contra hrefused
    rw [Past.recent, hs.passed_eq,
      passedSince_concat_refused (by simpa using hrefused)] at hpos
    exact Nat.lt_irrefl 0 hpos

/-- Who is shut out has exceeded the window. -/
theorem exceeded_of_shutUntil (hs : Story r h p now) (hren : r.renews = false)
    (hhold : r.window < r.hold) (hroom : 0 < r.room) : ∀ s, p.shutUntil = some s →
      ∃ pre e post, h = pre ++ e :: post ∧ Exceeds r pre e.time ∧ s = e.time + r.hold := by
  induction hs with
  | fresh now => intro s hsome; cases hsome
  | wait _ _ ih => exact ih
  | @event h p now tx k hs hle ih =>
    intro s hsome
    cases hshut : p.shut tx with
    | true =>
      rw [Past.step_of_shut hshut] at hsome
      simp only [hren, Bool.false_eq_true, if_false] at hsome
      obtain ⟨pre, e, post, rfl, hex, hse⟩ := ih s hsome
      exact ⟨pre, e, post ++ [_], (List.append_assoc pre (e :: post) _), hex, hse⟩
    | false =>
      rcases Nat.lt_or_ge (p.recent r tx) r.room with hlt | hfull
      · rw [Past.step_of_room hshut hlt] at hsome
        cases hsome
      · rw [Past.step_of_full hshut hfull, Option.some.injEq] at hsome
        refine ⟨h, _, [], rfl, ⟨?_, ?_⟩, hsome.symm⟩
        · exact hs.getLast_of_recent (lt_of_lt_of_le hroom hfull)
        · rw [← hs.recent_eq hhold hle hshut]
          exact hfull

/-- **Refusals**: a throttle that does not renew refuses what exceeds the window and whatever
comes during the wait that follows. -/
theorem refuses_iff_of_not_renews (hs : Story r h p now) (hren : r.renews = false)
    (hhold : r.window < r.hold) (hroom : 0 < r.room) (ht : now ≤ t) :
    (p.step r t).1 = false ↔ Exceeds r h t ∨ Waits r h t := by
  rw [Past.refuses_iff]
  constructor
  · rintro (hshut | hfull)
    · cases hu : p.shutUntil with
      | none => simp [Past.shut, hu] at hshut
      | some s =>
        obtain ⟨pre, e, post, hh, hex, rfl⟩ := hs.exceeded_of_shutUntil hren hhold hroom s hu
        refine Or.inr ⟨pre, e, post, hh, hex, ?_⟩
        simpa [Past.shut, hu] using hshut
    · have hlast := hs.getLast_of_recent (lt_of_lt_of_le hroom hfull)
      have hopen : p.shut t = false := by simp [Past.shut, hs.shutUntil_of_getLast hlast]
      exact Or.inl ⟨hlast, hs.recent_eq hhold ht hopen ▸ hfull⟩
  · rintro (⟨hlast, hfull⟩ | ⟨pre, e, post, hh, hex, hlt⟩)
    · have hopen : p.shut t = false := by simp [Past.shut, hs.shutUntil_of_getLast hlast]
      exact Or.inr (hs.recent_eq hhold ht hopen ▸ hfull)
    · exact Or.inl (hs.shut_of_exceeded pre e post hh hhold hex t ht hlt)

/-! #### A throttle that renews -/

theorem lastRefused_of_shutUntil (hs : Story r h p now) (hren : r.renews = true) :
    ∀ s, p.shutUntil = some s → ∃ t₀, lastRefused h = some t₀ ∧ s = t₀ + r.hold := by
  induction hs with
  | fresh now => intro s hsome; cases hsome
  | wait _ _ ih => exact ih
  | @event h p now tx k hs hle ih =>
    intro s hsome
    cases hshut : p.shut tx with
    | true =>
      rw [Past.step_of_shut hshut] at hsome ⊢
      simp only [hren, if_true, Option.some.injEq] at hsome
      exact ⟨tx, lastRefused_concat_refused rfl, hsome.symm⟩
    | false =>
      rcases Nat.lt_or_ge (p.recent r tx) r.room with hroom | hfull
      · rw [Past.step_of_room hshut hroom] at hsome
        cases hsome
      · rw [Past.step_of_full hshut hfull] at hsome ⊢
        rw [Option.some.injEq] at hsome
        exact ⟨tx, lastRefused_concat_refused rfl, hsome.symm⟩

theorem shut_iff (hs : Story r h p now) (hren : r.renews = true) (ht : now ≤ t) :
    p.shut t = true ↔ ∃ t₀, lastRefused h = some t₀ ∧ t < t₀ + r.hold := by
  constructor
  · intro hshut
    cases hu : p.shutUntil with
    | none => simp [Past.shut, hu] at hshut
    | some s =>
      obtain ⟨t₀, hlast, rfl⟩ := hs.lastRefused_of_shutUntil hren s hu
      exact ⟨t₀, hlast, by simpa [Past.shut, hu] using hshut⟩
  · rintro ⟨t₀, hlast, hlt⟩
    obtain ⟨e, he, rfl⟩ := Option.map_eq_some_iff.mp hlast
    obtain ⟨hmem, hrefused⟩ := List.mem_filter.mp (List.mem_of_getLast? he)
    -- a refused event is not among those that have passed since the last refusal
    have hbefore : e ∈ h.rdropWhile (fun e => e.passed) := by
      have hsplit : h.rdropWhile (fun e => e.passed) ++ h.rtakeWhile (fun e => e.passed) = h :=
        List.rdropWhile_append_rtakeWhile
      rcases List.mem_append.mp (hsplit ▸ hmem) with hin | hin
      · exact hin
      · have hpassed := List.mem_rtakeWhile_imp hin
        simp [hpassed] at hrefused
    by_contra hopen
    have hle := hs.settled e hbefore (Or.inr hren) t ht (by simpa using hopen)
    omega

/-- **Refusals**: a throttle that renews refuses what comes within `hold` of the last refusal,
and the event that makes one too many since then. -/
theorem refuses_iff_of_renews (hs : Story r h p now) (hren : r.renews = true) (ht : now ≤ t) :
    (p.step r t).1 = false ↔ (∃ t₀, lastRefused h = some t₀ ∧ t < t₀ + r.hold) ∨
      (passedSince h).countP (fun u => t ≤ u + r.window) = r.room := by
  have hle := hs.recent_le t ht
  rw [Past.refuses_iff, hs.shut_iff hren ht]
  rw [Past.recent, hs.passed_eq] at hle ⊢
  exact or_congr_right ⟨fun hfull => Nat.le_antisymm hle hfull, fun he => he.ge⟩

end Story

/-- The events of a list up to some event. -/
theorem InTime.before {pre post : List (κ × Nat)} {e : κ × Nat}
    (htime : InTime (pre ++ e :: post)) :
    InTime (pre ++ [e]) ∧ InTime pre ∧ ∀ e' ∈ pre, e'.2 ≤ e.2 := by
  rw [List.append_cons, InTime, List.map_append] at htime
  have hpre : InTime (pre ++ [e]) := (List.pairwise_append.mp htime).1
  refine ⟨hpre, ?_⟩
  rw [InTime, List.map_append, List.pairwise_append] at hpre
  exact ⟨hpre.1, fun e' he' => hpre.2.2 e'.2 (List.mem_map_of_mem he') e.2 (by simp)⟩

/-! ### The stories of a run -/

variable [DecidableEq κ]

theorem own_concat_of_eq {k : κ} {h : List (Entry κ)} {e : Entry κ} (he : e.key = k) :
    own k (h ++ [e]) = own k h ++ [e] := by
  simp [own, he]

theorem own_concat_of_ne {k : κ} {h : List (Entry κ)} {e : Entry κ} (he : e.key ≠ k) :
    own k (h ++ [e]) = own k h := by
  simp [own, he]

/-- What is remembered of a source after a run tells its story. -/
theorem story_of_run (k : κ) {events : List (κ × Nat)} {now : Nat} (htime : InTime events)
    (hnow : ∀ e ∈ events, e.2 ≤ now) :
    Story r (own k (log (stepAt r) (fun _ => Past.fresh) events))
      (after (stepAt r) (fun _ => Past.fresh) events k) now := by
  induction events using List.reverseRecOn generalizing now with
  | nil => exact .fresh now
  | append_singleton events e ih =>
    rw [InTime, List.map_append, List.pairwise_append] at htime
    have hbefore : ∀ e' ∈ events, e'.2 ≤ e.2 :=
      fun e' he' => htime.2.2 e'.2 (List.mem_map_of_mem he') e.2 (by simp)
    have hs := ih htime.1 hbefore
    refine Story.wait ?_ (hnow e (by simp))
    rw [log_concat, after_concat]
    by_cases hk : e.1 = k
    · subst hk
      rw [own_concat_of_eq (k := e.1) rfl, stepAt_self]
      exact hs.event e.1 le_rfl
    · rw [own_concat_of_ne hk, stepAt_of_ne r _ hk]
      exact hs

/-! ### What a machine that follows the rule decides -/

variable {σ : Type u} {f : σ → κ × Nat → Bool × σ} {Fine : κ × Nat → Prop}
  {R : Nat → σ → (κ → Past) → Prop} {s : σ} {events : List (κ × Nat)}

namespace Follows

variable (hf : Follows r f Fine R) (hR : R 0 s (fun _ => Past.fresh))

include hf hR

theorem log_eq (htime : InTime events) (hfine : ∀ e ∈ events, Fine e) :
    log f s events = log (stepAt r) (fun _ => Past.fresh) events :=
  log_eq_of_follows hf hR htime (fun e _ => Nat.zero_le e.2) hfine

/-- The decisions for a source depend on its own events. -/
theorem own_log (htime : InTime events) (hfine : ∀ e ∈ events, Fine e) (k : κ) :
    own k (log f s events) = log f s (events.filter (fun e => e.1 = k)) := by
  have hsub : InTime (events.filter (fun e => e.1 = k)) :=
    List.Pairwise.sublist (List.filter_sublist.map Prod.snd) htime
  rw [log_eq hf hR htime hfine, Throttle.own_log,
    log_eq hf hR hsub fun e he => hfine e (List.mem_of_mem_filter he)]

theorem passedIn_le (hhold : r.window < r.hold) (htime : InTime events)
    (hfine : ∀ e ∈ events, Fine e) (k : κ) (a : Nat) :
    passedIn (own k (log f s events)) a (a + r.window) ≤ r.room := by
  obtain ⟨now, hnow⟩ : ∃ now, ∀ e ∈ events, e.2 ≤ now :=
    ⟨(events.map Prod.snd).sum, fun e he =>
      List.single_le_sum (fun _ _ => Nat.zero_le _) e.2 (List.mem_map_of_mem he)⟩
  rw [log_eq hf hR htime hfine]
  exact (story_of_run k htime hnow).passedIn_le hhold a

/-- The story of a source at one of its events, and the decision about the event. -/
theorem story_at {pre post : List (κ × Nat)} {k : κ} {t : Nat}
    (htime : InTime (pre ++ (k, t) :: post)) (hfine : ∀ e ∈ pre ++ (k, t) :: post, Fine e) :
    ∃ p, Story r (own k (log f s pre)) p t ∧
      (f (after f s pre) (k, t)).1 = (p.step r t).1 := by
  obtain ⟨hlast, hpre, hbefore⟩ := htime.before
  have hfineLast : ∀ e ∈ pre ++ [(k, t)], Fine e := by
    intro e he
    refine hfine e ?_
    rw [List.append_cons]
    exact List.mem_append_left post he
  refine ⟨after (stepAt r) (fun _ => Past.fresh) pre k, ?_, ?_⟩
  · rw [log_eq hf hR hpre fun e he => hfineLast e (List.mem_append_left _ he)]
    exact story_of_run k hpre hbefore
  · exact decision_eq_of_log_eq f (log_eq hf hR hlast hfineLast)

end Follows

end Stories

end Throttle
