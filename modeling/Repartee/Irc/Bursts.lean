import Repartee.Lib.Throttle
import Repartee.Irc.Flood

/-!
# The windows of the flood detectors

`irc/flood.rs`: the CTCP, nick and nick-change detectors follow a throttle that renews its wait
with every suppressed event. The windows are pruned lazily and the idle ones are dropped from time
to time, which no later decision depends on.

Times count from the least representable `Instant`, which is 2^63 seconds before the clock was
started. `Instant::now()` is far behind it, so `now - window` can be represented and the fallback
to `now` is never taken.

## Main results

- `FloodState.follows_tildeArrival` and its siblings: each detector follows its throttle
- `FloodState.detectors_meet_windows`: what is suppressed, from the history alone
-/

set_option autoImplicit false

namespace Repartee

open Throttle

variable {threshold window block now t : Nat}

/-- The throttle of a detector. -/
def floodThrottle (threshold window block : Nat) : Throttle where
  window := window
  room := threshold - 1
  hold := block
  renews := true

theorem cutoff_le_iff (hw : window ≤ t) (u : Nat) : cutoff t window ≤ u ↔ t ≤ u + window := by
  rw [cutoff, if_pos hw]
  omega

/-! ### One window -/

namespace FloodWindow

/-- From `now` on, a window counts and blocks as the throttle does. -/
structure WindowFollows (window block now : Nat) (w : FloodWindow) (p : Past) : Prop where
  sorted : w.times.Pairwise (· ≤ ·)
  before : ∀ u ∈ w.times, u ≤ now
  blocked : ∀ t, now ≤ t → ((∃ d, w.blockedUntil = some d ∧ t < d) ↔ p.shut t = true)
  counted : ∀ t, now ≤ t → w.times.countP (fun u => t ≤ u + window) =
    p.passed.countP (fun u => t ≤ u + window)
  emptied : p.shutUntil ≠ none → p.passed = []

variable {w : FloodWindow} {p : Past}

theorem windowFollows_fresh : WindowFollows window block 0 ⟨[], none⟩ Past.fresh where
  sorted := List.Pairwise.nil
  before := by simp
  blocked t _ := by simp [Past.shut, Past.fresh]
  counted _ _ := rfl
  emptied h := absurd rfl h

theorem WindowFollows.wait (h : WindowFollows window block now w p) (ht : now ≤ t) :
    WindowFollows window block t w p :=
  ⟨h.sorted, fun u hu => (h.before u hu).trans ht, fun t' ht' => h.blocked t' (ht.trans ht'),
    fun t' ht' => h.counted t' (ht.trans ht'), h.emptied⟩

/-- Pruning leaves what is in the window. -/
theorem pruneWindow_eq_filter {times : List Nat} (hs : times.Pairwise (· ≤ ·))
    (hw : window ≤ t) :
    pruneWindow times t window = times.filter (fun u => decide (t ≤ u + window)) := by
  rw [pruneWindow, dropWhile_eq_filter hs (fun a b hab hb => by
    simp only [decide_eq_true_eq] at hb ⊢
    omega)]
  refine List.filter_congr (fun u _ => ?_)
  rw [Bool.eq_iff_iff, Bool.not_eq_true', decide_eq_false_iff_not, Nat.not_lt,
    cutoff_le_iff hw, decide_eq_true_eq]

/-- Dropping what is too old from a window changes nothing later. -/
theorem WindowFollows.prune (h : WindowFollows window block t w p) (hw : window ≤ t) :
    WindowFollows window block t
      ⟨w.times.filter (fun u => decide (cutoff t window ≤ u)),
        w.blockedUntil.filter (fun d => decide (d > t))⟩ p where
  sorted := h.sorted.sublist List.filter_sublist
  before u hu := h.before u (List.mem_of_mem_filter hu)
  blocked t' ht' := by
    rw [← h.blocked t' ht']
    simp only [Option.filter_eq_some_iff, gt_iff_lt, decide_eq_true_eq]
    constructor
    · rintro ⟨d, ⟨hd, -⟩, hlt⟩
      exact ⟨d, hd, hlt⟩
    · rintro ⟨d, hd, hlt⟩
      exact ⟨d, ⟨hd, lt_of_le_of_lt ht' hlt⟩, hlt⟩
  counted t' ht' := by
    rw [← h.counted t' ht', List.countP_filter]
    refine List.countP_congr (fun u _ => ?_)
    simp only [cutoff_le_iff hw, Bool.and_eq_true, decide_eq_true_eq]
    omega
  emptied := h.emptied

/-- An event outside a block. -/
theorem WindowFollows.count (hpos : 0 < threshold) (hw : window ≤ t)
    (h : WindowFollows window block t w p) (hopen : p.shut t = false) :
    (w.count threshold window block t).1.suppressed =
        !(p.step (floodThrottle threshold window block) t).1 ∧
      WindowFollows window block t (w.count threshold window block t).2
        (p.step (floodThrottle threshold window block) t).2 := by
  have hsorted : (w.times ++ [t]).Pairwise (· ≤ ·) := by
    rw [List.pairwise_append]
    refine ⟨h.sorted, List.pairwise_singleton _ _, fun u hu v hv => ?_⟩
    rw [List.mem_singleton.mp hv]
    exact h.before u hu
  have hpruned := pruneWindow_eq_filter hsorted hw
  have hlen : (pruneWindow (w.times ++ [t]) t window).length =
      p.recent (floodThrottle threshold window block) t + 1 := by
    rw [hpruned, ← List.countP_eq_length_filter, List.countP_append, h.counted t le_rfl]
    simp [Past.recent, floodThrottle]
    rfl
  unfold FloodWindow.count
  dsimp only
  rw [hlen]
  rcases Nat.lt_or_ge (p.recent (floodThrottle threshold window block) t) (threshold - 1)
    with hroom | hfull
  · rw [if_neg (by omega), Past.step_of_room hopen hroom]
    refine ⟨rfl, ?_, ?_, ?_, ?_, fun hne => absurd rfl hne⟩
    · exact hpruned ▸ hsorted.sublist List.filter_sublist
    · intro u hu
      have hmem : u ∈ w.times ++ [t] := List.mem_of_mem_filter (hpruned ▸ hu)
      rcases List.mem_append.mp hmem with hu | hu
      · exact h.before u hu
      · rw [List.mem_singleton.mp hu]
    · intro t' _
      simp
    · -- what is pruned now does not count later either
      intro t' ht'
      dsimp only
      rw [List.countP_append, ← h.counted t' ht', ← List.countP_append, hpruned,
        List.countP_filter]
      refine List.countP_congr (fun u _ => ?_)
      simp only [Bool.and_eq_true, decide_eq_true_eq]
      omega
  · rw [if_pos (by omega), Past.step_of_full hopen hfull]
    refine ⟨rfl, List.Pairwise.nil, by simp, ?_, fun _ _ => rfl, fun _ => rfl⟩
    intro t' _
    simp [floodThrottle]

/-- An event, blocked or not. -/
theorem WindowFollows.check (hpos : 0 < threshold) (hw : window ≤ t) (ht : now ≤ t)
    (h : WindowFollows window block now w p) :
    (w.check threshold window block t).1.suppressed =
        !(p.step (floodThrottle threshold window block) t).1 ∧
      WindowFollows window block t (w.check threshold window block t).2
        (p.step (floodThrottle threshold window block) t).2 := by
  have h := h.wait ht
  cases hshut : p.shut t with
  | true =>
    obtain ⟨d, hd, hlt⟩ := (h.blocked t le_rfl).mpr hshut
    have hcheck : w.check threshold window block t =
        (.blocked, { w with blockedUntil := some (t + block) }) := by
      rw [FloodWindow.check, hd]
      exact if_pos hlt
    rw [hcheck, Past.step_of_shut hshut]
    refine ⟨rfl, h.sorted, h.before, ?_, h.counted, fun _ => ?_⟩
    · intro t' _
      simp [floodThrottle]
    · apply h.emptied
      intro hnone
      simp [Past.shut, hnone] at hshut
  | false =>
    have hcheck : w.check threshold window block t = w.count threshold window block t := by
      unfold FloodWindow.check
      split
      · rename_i d hd
        refine if_neg (fun hlt => ?_)
        rw [(h.blocked t le_rfl).mp ⟨d, hd, hlt⟩] at hshut
        cases hshut
      · rfl
    rw [hcheck]
    exact h.count hpos hw hshut

/-- What a checked window looks like, by its result. -/
theorem check_blocked {w' : FloodWindow} (h : w.check threshold window block t = (.blocked, w')) :
    w' = { w with blockedUntil := some (t + block) } := by
  unfold FloodWindow.check FloodWindow.count at h
  grind

theorem check_triggered {w' : FloodWindow}
    (h : w.check threshold window block t = (.triggered, w')) :
    w' = ⟨[], some (t + block)⟩ := by
  unfold FloodWindow.check FloodWindow.count at h
  grind

theorem check_allow {w' : FloodWindow} (h : w.check threshold window block t = (.allow, w')) :
    w'.blockedUntil = none := by
  unfold FloodWindow.check FloodWindow.count at h
  grind

end FloodWindow

/-! ### A family of windows -/

section

open FloodWindow

variable {κ : Type} [DecidableEq κ] {times : Dict κ (List Nat)} {blocked : Dict κ Nat} {k : κ}

/-- The windows after a cleanup. -/
theorem windowAt_dropIdle (times : Dict κ (List Nat)) (blocked : Dict κ Nat) (k : κ) :
    windowAt (dropIdle t window times) (blocked.retain (fun _ d => decide (d > t))) k =
      ⟨(windowAt times blocked k).times.filter (fun u => decide (cutoff t window ≤ u)),
        (windowAt times blocked k).blockedUntil.filter (fun d => decide (d > t))⟩ := by
  simp only [windowAt, dropIdle, Dict.lookup_retain, Dict.lookup_mapValues, FloodWindow.mk.injEq,
    and_true]
  cases times.lookup k with
  | none => rfl
  | some v =>
    rw [Option.map_some, Option.getD_some]
    cases hv : v.filter (fun u => decide (cutoff t window ≤ u)) with
    | nil => rfl
    | cons u l => rfl

/-- The window of a key in the two maps, after both have been written at some key. -/
theorem windowAt_of_writes {times' : Dict κ (List Nat)} {blocked' : Dict κ Nat}
    {w : FloodWindow}
    (ht : ∀ k', (times'.lookup k').getD [] =
      if k = k' then w.times else (times.lookup k').getD [])
    (hb : ∀ k', blocked'.lookup k' = if k = k' then w.blockedUntil else blocked.lookup k')
    (k' : κ) : windowAt times' blocked' k' = if k = k' then w else windowAt times blocked k' := by
  rw [windowAt, ht, hb]
  split <;> rfl

/-- Counting an event leaves the window of its key as the check does, and the other windows as
they were; a cleanup then drops what is too old from all of them. -/
theorem windowAt_checkAt {result : FloodResult} {w : FloodWindow}
    (hc : (windowAt times blocked k).check threshold window block t = (result, w)) :
    (checkAt threshold window block t times blocked k).1 = result ∧
      ((∀ k', windowAt (checkAt threshold window block t times blocked k).2.1
            (checkAt threshold window block t times blocked k).2.2 k' =
          if k = k' then w else windowAt times blocked k') ∨
        ∀ k', windowAt (checkAt threshold window block t times blocked k).2.1
            (checkAt threshold window block t times blocked k).2.2 k' =
          ⟨(if k = k' then w else windowAt times blocked k').times.filter
              (fun u => decide (cutoff t window ≤ u)),
            (if k = k' then w else windowAt times blocked k').blockedUntil.filter
              (fun d => decide (d > t))⟩) := by
  cases result with
  | blocked =>
    obtain rfl := check_blocked hc
    have hcheck : checkAt threshold window block t times blocked k =
        (.blocked, times, blocked.insert k (t + block)) := by
      rw [checkAt, hc]
    rw [hcheck]
    refine ⟨rfl, Or.inl (windowAt_of_writes (fun k' => ?_) (fun k' => ?_))⟩
    · by_cases hk : k = k'
      · rw [if_pos hk, ← hk]
        rfl
      · rw [if_neg hk]
    · rw [Dict.lookup_insert]
  | triggered =>
    obtain rfl := check_triggered hc
    have hcheck : checkAt threshold window block t times blocked k =
        (.triggered, times.insert k [], blocked.insert k (t + block)) := by
      rw [checkAt, hc]
    rw [hcheck]
    refine ⟨rfl, Or.inl (windowAt_of_writes (fun k' => ?_) (fun k' => ?_))⟩
    · rw [Dict.lookup_insert]
      split <;> rfl
    · rw [Dict.lookup_insert]
  | allow =>
    have hnone := check_allow hc
    have hwrites : ∀ k', windowAt (times.insert k w.times) (blocked.erase k) k' =
        if k = k' then w else windowAt times blocked k' := by
      refine windowAt_of_writes (fun k' => ?_) (fun k' => ?_)
      · rw [Dict.lookup_insert]
        split <;> rfl
      · rw [Dict.lookup_erase, hnone]
    have hcheck : checkAt threshold window block t times blocked k =
        if (times.insert k w.times).rows.length > 200 then
          (.allow, dropIdle t window (times.insert k w.times),
            (blocked.erase k).retain (fun _ d => decide (d > t)))
        else (.allow, times.insert k w.times, blocked.erase k) := by
      rw [checkAt, hc]
    rw [hcheck]
    split
    · -- more than 200 keys: the idle ones are dropped
      refine ⟨rfl, Or.inr (fun k' => ?_)⟩
      rw [windowAt_dropIdle, hwrites]
    · exact ⟨rfl, Or.inl hwrites⟩

/-- A family of windows whose keys are known by distinct codes follows its throttle. -/
theorem follows_checkAt {κ' : Type} [DecidableEq κ'] {code : κ' → κ} {keys : Set κ'}
    (hcode : Set.InjOn code keys) (hpos : 0 < threshold) {ps : κ' → Past} {e : κ' × Nat}
    (hR : ∀ k ∈ keys, WindowFollows window block now (windowAt times blocked (code k)) (ps k))
    (ht : now ≤ e.2) (hw : window ≤ e.2) (hmem : e.1 ∈ keys) :
    (checkAt threshold window block e.2 times blocked (code e.1)).1.suppressed =
        !(stepAt (floodThrottle threshold window block) ps e).1 ∧
      ∀ k ∈ keys, WindowFollows window block e.2
        (windowAt (checkAt threshold window block e.2 times blocked (code e.1)).2.1
          (checkAt threshold window block e.2 times blocked (code e.1)).2.2 (code k))
        ((stepAt (floodThrottle threshold window block) ps e).2 k) := by
  have hown := (hR e.1 hmem).check hpos hw ht
  obtain ⟨result, w, hc⟩ : ∃ result w, (windowAt times blocked (code e.1)).check threshold window
      block e.2 = (result, w) := ⟨_, _, rfl⟩
  rw [hc] at hown
  obtain ⟨hresult, hwindows⟩ := windowAt_checkAt hc
  rw [hresult]
  refine ⟨hown.1, fun k hk => ?_⟩
  have hfollows : WindowFollows window block e.2
      (if code e.1 = code k then w else windowAt times blocked (code k))
      ((stepAt (floodThrottle threshold window block) ps e).2 k) := by
    by_cases hke : e.1 = k
    · subst hke
      rw [if_pos rfl, stepAt_self]
      exact hown.2
    · rw [if_neg (fun hcodes => hke (hcode hmem hk hcodes)), stepAt_of_ne _ ps hke]
      exact (hR k hk).wait ht
  rcases hwindows with hkept | hcleaned
  · rw [hkept]
    exact hfollows
  · rw [hcleaned]
    exact hfollows.prune hw

end

/-! ### The specification -/

/-- An arrival is suppressed exactly if it comes within `block` of the last suppressed arrival of
its key, or if it is the one that makes `threshold` arrivals of the key in the closed window that
ends with it, counted since the last suppressed one. The decisions for a key depend on its own
arrivals. -/
structure MeetsWindow {σ κ : Type} [DecidableEq κ] (threshold window block : Nat)
    (f : σ → κ × Nat → Bool × σ) (s : σ) (arrivals : List (κ × Nat)) : Prop where
  suppresses : ∀ pre k t post, arrivals = pre ++ (k, t) :: post →
    ((f (after f s pre) (k, t)).1 = false ↔
      (∃ t₀, lastRefused (own k (log f s pre)) = some t₀ ∧ t < t₀ + block) ∨
        (passedSince (own k (log f s pre))).countP (fun u => t ≤ u + window) + 1 = threshold)
  independent : ∀ k, own k (log f s arrivals) = log f s (arrivals.filter (fun e => e.1 = k))

theorem meetsWindow_of_follows {σ κ : Type} [DecidableEq κ] {f : σ → κ × Nat → Bool × σ}
    {Fine : κ × Nat → Prop} {R : Nat → σ → (κ → Past) → Prop} {s : σ}
    {arrivals : List (κ × Nat)} (hpos : 0 < threshold)
    (hf : Follows (floodThrottle threshold window block) f Fine R)
    (hR : R 0 s (fun _ => Past.fresh)) (htime : InTime arrivals)
    (hfine : ∀ e ∈ arrivals, Fine e) : MeetsWindow threshold window block f s arrivals := by
  constructor
  · rintro pre k t post rfl
    obtain ⟨p, hstory, hdecision⟩ := hf.story_at hR htime hfine
    rw [hdecision, hstory.refuses_iff_of_renews rfl le_rfl]
    refine or_congr_right ?_
    change (passedSince _).countP (fun u => decide (t ≤ u + window)) = threshold - 1 ↔ _
    omega
  · exact hf.own_log hR htime hfine

namespace FloodState

open FloodWindow

variable (hashText : Str → Nat)

/-- A CTCP; there is one window for all of them. -/
def ctcpArrival (f : FloodState) (e : Unit × Nat) : Bool × FloodState :=
  (!(f.checkCtcpFlood e.2).1.suppressed, (f.checkCtcpFlood e.2).2)

/-- A message of an unidentified nick. -/
def tildeArrival (f : FloodState) (e : Str × Nat) : Bool × FloodState :=
  (!(f.checkTildeNickFlood hashText e.1 e.2).1.suppressed,
    (f.checkTildeNickFlood hashText e.1 e.2).2)

/-- A nick change seen in a buffer. -/
def nickArrival (f : FloodState) (e : Str × Nat) : Bool × FloodState :=
  (!(f.shouldSuppressNickFlood e.1 e.2).1, (f.shouldSuppressNickFlood e.1 e.2).2)

theorem follows_ctcpArrival :
    Follows (floodThrottle 5 (seconds 5) (seconds 60)) ctcpArrival
      (fun e => seconds 5 ≤ e.2)
      (fun now f ps => WindowFollows (seconds 5) (seconds 60) now
        ⟨f.ctcpTimes, f.ctcpBlockedUntil⟩ (ps ())) := by
  rintro now f ps ⟨u, t⟩ hR ht hw
  have hown := WindowFollows.check (Nat.succ_pos 4) hw ht hR
  refine ⟨?_, ?_⟩
  · rw [ctcpArrival, checkCtcpFlood]
    dsimp only
    rw [hown.1, Bool.not_not]
    rfl
  · change WindowFollows _ _ t _ ((stepAt _ ps (u, t)).2 u)
    rw [show (stepAt _ ps (u, t)).2 u = _ from stepAt_self _ ps (u, t)]
    exact hown.2

theorem follows_tildeArrival {nicks : Set Str} (hinj : Set.InjOn hashText nicks) :
    Follows (floodThrottle 5 (seconds 5) (seconds 60)) (tildeArrival hashText)
      (fun e => seconds 5 ≤ e.2 ∧ e.1 ∈ nicks)
      (fun now f ps => ∀ nick ∈ nicks, WindowFollows (seconds 5) (seconds 60) now
        (windowAt f.tildeNickTimes f.tildeNickBlocked (hashText nick)) (ps nick)) := by
  intro now f ps e hR ht hfine
  obtain ⟨hresult, hrest⟩ :=
    follows_checkAt hinj (Nat.succ_pos 4) hR ht hfine.1 hfine.2
  refine ⟨?_, hrest⟩
  rw [tildeArrival, checkTildeNickFlood]
  dsimp only
  rw [hresult, Bool.not_not]

theorem follows_nickArrival :
    Follows (floodThrottle 5 (seconds 3) (seconds 60)) nickArrival
      (fun e => seconds 3 ≤ e.2)
      (fun now f ps => ∀ bufferId ∈ Set.univ, WindowFollows (seconds 3) (seconds 60) now
        (windowAt f.nickTimes f.nickBlockedUntil bufferId) (ps bufferId)) := by
  intro now f ps e hR ht hw
  have hinj : Set.InjOn id (Set.univ : Set Str) := fun _ _ _ _ h => h
  obtain ⟨hresult, hrest⟩ :=
    follows_checkAt hinj (Nat.succ_pos 4) hR ht hw (Set.mem_univ e.1)
  refine ⟨?_, hrest⟩
  rw [nickArrival, shouldSuppressNickFlood]
  dsimp only
  rw [← Bool.not_not (stepAt _ ps e).1, ← hresult]
  rfl

/-- The three detectors are their windows, whatever the cleanups drop. Every `Instant` of the clock
is at least a window past the least representable one. -/
theorem detectors_meet_windows :
    (∀ arrivals : List (Unit × Nat), InTime arrivals → (∀ e ∈ arrivals, seconds 5 ≤ e.2) →
      MeetsWindow 5 (seconds 5) (seconds 60) ctcpArrival new arrivals) ∧
    (∀ arrivals : List (Str × Nat), InTime arrivals → (∀ e ∈ arrivals, seconds 5 ≤ e.2) →
      Set.InjOn hashText {nick | nick ∈ arrivals.map Prod.fst} →
      MeetsWindow 5 (seconds 5) (seconds 60) (tildeArrival hashText) new arrivals) ∧
    ∀ arrivals : List (Str × Nat), InTime arrivals → (∀ e ∈ arrivals, seconds 3 ≤ e.2) →
      MeetsWindow 5 (seconds 3) (seconds 60) nickArrival new arrivals := by
  refine ⟨?_, ?_, ?_⟩
  · intro arrivals htime hw
    exact meetsWindow_of_follows (by decide) follows_ctcpArrival windowFollows_fresh htime hw
  · intro arrivals htime hw hinj
    refine meetsWindow_of_follows (by decide) (follows_tildeArrival hashText hinj)
      (fun _ _ => windowFollows_fresh) htime (fun e he => ⟨hw e he, ?_⟩)
    exact List.mem_map_of_mem he
  · intro arrivals htime hw
    exact meetsWindow_of_follows (by decide) follows_nickArrival
      (fun _ _ => windowFollows_fresh) htime hw

/-- Five nick changes within three seconds are one too many, and so is another one in the minute
after it; other buffers are not concerned. -/
theorem five_nick_changes :
    let arrivals := [(str "#rust", seconds 3), (str "#rust", seconds 4), (str "#lean", seconds 4),
      (str "#rust", seconds 5), (str "#rust", seconds 6), (str "#rust", seconds 6),
      (str "#lean", seconds 7), (str "#rust", seconds 65)]
    MeetsWindow 5 (seconds 3) (seconds 60) nickArrival new arrivals ∧
      (log nickArrival new arrivals).map Entry.passed =
        [true, true, true, true, true, false, true, false] :=
  ⟨(detectors_meet_windows (fun _ => 0)).2.2 _ (by decide) (by decide), by decide⟩

end FloodState

end Repartee
