import Repartee.Lib.Throttle
import Repartee.E2e.Handshake

/-!
# The limit on incoming KEYREQs

`handshake.rs`, `RateLimiter::allow_incoming`: a bucket for each peer, with the recent arrivals
and the end of a backoff. The limiter follows a throttle that does not renew: an arrival that
exceeds the window starts the backoff, arrivals during the backoff leave it alone, and the first
one after it finds an empty window.

## Main results

- `RateLimiter.follows_arrive`: the buckets follow the throttle
- `RateLimiter.incoming_limited`: what is accepted and what is rejected, from the history alone
-/

set_option autoImplicit false

namespace Repartee

namespace RateLimiter

open Throttle

def incomingThrottle : Throttle where
  window := incomingWindow
  room := incomingMaxPerWindow
  hold := incomingBackoff
  renews := false

/-- One arrival: a peer and the time. -/
def arrive (rl : RateLimiter) (arrival : Str × Nat) : Bool × RateLimiter :=
  allowIncoming arrival.2 rl arrival.1

def bucketOf (rl : RateLimiter) (peer : Str) : IncomingBucket :=
  (rl.incoming.lookup peer).getD ⟨[], none⟩

/-- A bucket holds what the throttle remembers; outside a backoff it may also hold arrivals that
are too old to count. -/
structure BucketFollows (now : Nat) (b : IncomingBucket) (p : Past) : Prop where
  backoff : b.backoffUntil = p.shutUntil
  emptied : p.shutUntil ≠ none → p.passed = []
  sorted : b.recent.Pairwise (· ≤ ·)
  before : ∀ u ∈ b.recent, u ≤ now
  counted : p.shutUntil = none → ∀ t, now ≤ t →
    b.recent.countP (fun u => t ≤ u + incomingWindow) = p.recent incomingThrottle t

theorem bucketFollows_fresh : BucketFollows 0 ⟨[], none⟩ Past.fresh :=
  ⟨rfl, fun h => absurd rfl h, List.Pairwise.nil, by simp, fun _ _ _ => rfl⟩

namespace BucketFollows

variable {now t : Nat} {b : IncomingBucket} {p : Past}

theorem wait (h : BucketFollows now b p) (ht : now ≤ t) : BucketFollows t b p :=
  ⟨h.backoff, h.emptied, h.sorted, fun u hu => (h.before u hu).trans ht,
    fun hnone t' ht' => h.counted hnone t' (ht.trans ht')⟩

/-- Eviction leaves the arrivals that count now. -/
theorem evict_eq_filter {recent : List Nat} (hs : recent.Pairwise (· ≤ ·)) :
    recent.dropWhile (fun u => decide (t - u > incomingWindow)) =
      recent.filter (fun u => decide (t ≤ u + incomingWindow)) := by
  rw [dropWhile_eq_filter hs (fun a b hab hb => by
    simp only [gt_iff_lt, decide_eq_true_eq] at hb ⊢
    omega)]
  refine List.filter_congr (fun u _ => ?_)
  rw [Bool.eq_iff_iff]
  simp only [gt_iff_lt, Bool.not_eq_true', decide_eq_false_iff_not, decide_eq_true_eq]
  omega

/-- An arrival outside a backoff is admitted as the throttle does it. -/
theorem admitArrival (hs : b.recent.Pairwise (· ≤ ·)) (hbefore : ∀ u ∈ b.recent, u ≤ t)
    (hopen : p.shut t = false)
    (hcount : ∀ t', t ≤ t' →
      b.recent.countP (fun u => t' ≤ u + incomingWindow) = p.recent incomingThrottle t') :
    (RateLimiter.admitArrival t b.recent).1 = (p.step incomingThrottle t).1 ∧
      BucketFollows t (RateLimiter.admitArrival t b.recent).2
        (p.step incomingThrottle t).2 := by
  have hlen : (b.recent.filter (fun u => decide (t ≤ u + incomingWindow))).length =
      p.recent incomingThrottle t := by
    rw [← List.countP_eq_length_filter]
    exact hcount t le_rfl
  have hkept : (b.recent.filter (fun u => decide (t ≤ u + incomingWindow))).Pairwise (· ≤ ·) :=
    hs.sublist List.filter_sublist
  have hkeptBefore : ∀ u ∈ b.recent.filter (fun u => decide (t ≤ u + incomingWindow)),
      u ≤ t := fun u hu => hbefore u (List.mem_of_mem_filter hu)
  unfold RateLimiter.admitArrival
  rw [evict_eq_filter hs]
  dsimp only
  rcases Nat.lt_or_ge (p.recent incomingThrottle t) incomingMaxPerWindow with hroom | hfull
  · rw [if_neg (by omega), Past.step_of_room hopen hroom]
    refine ⟨rfl, rfl, fun h => absurd rfl h, ?_, ?_, ?_⟩
    · rw [List.pairwise_append]
      refine ⟨hkept, List.pairwise_singleton _ _, fun u hu v hv => ?_⟩
      rw [List.mem_singleton.mp hv]
      exact hkeptBefore u hu
    · intro u hu
      rcases List.mem_append.mp hu with hu | hu
      · exact hkeptBefore u hu
      · rw [List.mem_singleton.mp hu]
    · intro _ t' ht'
      -- what was evicted does not count later either
      have hsame : (b.recent.filter (fun u => decide (t ≤ u + incomingWindow))).countP
          (fun u => decide (t' ≤ u + incomingWindow)) = p.recent incomingThrottle t' := by
        rw [List.countP_filter, ← hcount t' ht']
        refine List.countP_congr (fun u _ => ?_)
        simp only [Bool.and_eq_true, decide_eq_true_eq]
        omega
      simp only [Past.recent, List.countP_append] at hsame ⊢
      rw [hsame]
      rfl
  · rw [if_pos (by omega), Past.step_of_full hopen hfull]
    exact ⟨rfl, rfl, fun _ => rfl, hkept, hkeptBefore, fun hnone => by cases hnone⟩

theorem arrive (h : BucketFollows now b p) (ht : now ≤ t) :
    (IncomingBucket.arrive t b).1 = (p.step incomingThrottle t).1 ∧
      BucketFollows t (IncomingBucket.arrive t b).2 (p.step incomingThrottle t).2 := by
  have hbefore : ∀ u ∈ b.recent, u ≤ t := (h.wait ht).before
  unfold IncomingBucket.arrive
  cases hu : p.shutUntil with
  | none =>
    rw [h.backoff, hu]
    have hopen : p.shut t = false := by simp [Past.shut, hu]
    exact admitArrival h.sorted hbefore hopen fun t' ht' => h.counted hu t' (ht.trans ht')
  | some s =>
    rw [h.backoff, hu]
    dsimp only
    by_cases hlt : t < s
    · have hshut : p.shut t = true := by simp [Past.shut, hu, hlt]
      rw [if_pos hlt, Past.step_of_shut hshut]
      exact ⟨rfl, h.wait ht⟩
    · -- the backoff is over, and the window starts empty
      have hopen : p.shut t = false := by simp [Past.shut, hu, hlt]
      have hempty : ∀ t', p.recent incomingThrottle t' = 0 := by
        intro t'
        rw [Past.recent, h.emptied (by simp [hu])]
        rfl
      rw [if_neg hlt]
      exact admitArrival (b := ⟨[], none⟩) List.Pairwise.nil (by simp) hopen
        fun t' _ => (hempty t').symm

end BucketFollows

theorem bucketOf_arrive (rl : RateLimiter) (arrival : Str × Nat) (peer : Str) :
    bucketOf (arrive rl arrival).2 peer =
      if arrival.1 = peer then (IncomingBucket.arrive arrival.2 (bucketOf rl peer)).2
      else bucketOf rl peer := by
  rw [bucketOf, arrive, allowIncoming, Dict.lookup_insert]
  split
  · rename_i hpeer
    rw [← hpeer]
    rfl
  · rfl

/-- The limiter decides like a throttle for each peer. -/
theorem follows_arrive : Follows incomingThrottle arrive (fun _ => True)
    (fun now rl ps => ∀ peer, BucketFollows now (bucketOf rl peer) (ps peer)) := by
  intro now rl ps arrival hR ht _
  have hown := (hR arrival.1).arrive ht
  refine ⟨hown.1, fun peer => ?_⟩
  rw [bucketOf_arrive]
  by_cases hpeer : arrival.1 = peer
  · subst hpeer
    rw [if_pos rfl, stepAt_self]
    exact hown.2
  · rw [if_neg hpeer, stepAt_of_ne _ ps hpeer]
    exact (hR peer).wait ht

theorem new_follows : ∀ peer, BucketFollows 0 (bucketOf new peer) Past.fresh :=
  fun _ => bucketFollows_fresh

/-- The decisions on some arrivals, from the start of the program. -/
def decisions (arrivals : List (Str × Nat)) : List (Entry Str) := log arrive new arrivals

/-- For arrivals in the order of time: no closed window has more than the allowed number of
accepted arrivals of a peer; an arrival is rejected exactly if it exceeds the window or comes
within the backoff of one that did, so all that come within that backoff are; and the decisions
for a peer are those on its own arrivals. -/
theorem incoming_limited {arrivals : List (Str × Nat)} (htime : InTime arrivals) (peer : Str) :
    (∀ t₀, passedIn (own peer (decisions arrivals)) t₀ (t₀ + incomingWindow) ≤
      incomingMaxPerWindow) ∧
    (∀ pre t post, arrivals = pre ++ (peer, t) :: post →
      ((arrive (after arrive new pre) (peer, t)).1 = false ↔
        Exceeds incomingThrottle (own peer (decisions pre)) t ∨
          Waits incomingThrottle (own peer (decisions pre)) t)) ∧
    (∀ pre t mid t' post, arrivals = pre ++ (peer, t) :: (mid ++ (peer, t') :: post) →
      Exceeds incomingThrottle (own peer (decisions pre)) t → t' < t + incomingBackoff →
        (arrive (after arrive new (pre ++ (peer, t) :: mid)) (peer, t')).1 = false) ∧
    own peer (decisions arrivals) = decisions (arrivals.filter (fun e => e.1 = peer)) := by
  have hf := follows_arrive
  have hrefused : ∀ pre t post, arrivals = pre ++ (peer, t) :: post →
      ((arrive (after arrive new pre) (peer, t)).1 = false ↔
        Exceeds incomingThrottle (own peer (decisions pre)) t ∨
          Waits incomingThrottle (own peer (decisions pre)) t) := by
    rintro pre t post rfl
    obtain ⟨p, hstory, hdecision⟩ := hf.story_at new_follows htime fun _ _ => trivial
    rw [hdecision]
    exact hstory.refuses_iff_of_not_renews rfl (by decide) (by decide) le_rfl
  refine ⟨?_, hrefused, ?_, ?_⟩
  · exact hf.passedIn_le new_follows (by decide) htime (fun _ _ => trivial) peer
  · intro pre t mid t' post hsplit hex hlt
    refine (hrefused (pre ++ (peer, t) :: mid) t' post (by simpa using hsplit)).mpr (Or.inr ?_)
    refine ⟨own peer (decisions pre), ⟨peer, t, (arrive (after arrive new pre) (peer, t)).1⟩,
      own peer (log arrive (arrive (after arrive new pre) (peer, t)).2 mid), ?_, hex, hlt⟩
    rw [decisions, log_append, own, List.filter_append, log,
      List.filter_cons_of_pos (by simp)]
    rfl
  · exact hf.own_log new_follows htime (fun _ _ => trivial) peer

/-- Three arrivals within a minute, a fourth that exceeds the window, one at the last moment of
the backoff and one at its end. -/
def burst : List (Str × Nat) :=
  [(str "a", 0), (str "a", second), (str "b", second), (str "a", 60 * second),
    (str "a", 60 * second), (str "a", 360 * second - 1), (str "a", 360 * second)]

theorem burst_limited :
    passedIn (own (str "a") (decisions burst)) 0 (0 + incomingWindow) ≤ incomingMaxPerWindow ∧
      ((decisions burst).map (fun e => e.passed)) =
        [true, true, true, true, false, false, true] :=
  ⟨(incoming_limited (by decide) (str "a")).1 0, by decide⟩

end RateLimiter

end Repartee
