import Repartee.Lib.Lru
import Repartee.Lib.Run
import Repartee.Lib.Table
import Repartee.E2e.Basic

/-!
# The cache of shortenings

The `ShrinkCache` of `shrink/mod.rs`: a map that keeps the order of insertion, bounded by a
capacity. A hit or an update takes the entry out and puts it back at the end, and an insertion
into a full map drops the first entry.

## Main definitions

- `ShrinkCache`: a map within its capacity
- `CacheCall`, `ShrinkCache.step`: the calls, and what they leave
- `ShrinkCache.touches`: the URLs that a run inserts or hits

## Main results

- `ShrinkCache.urls_run`: after every run the map has the most recently touched URLs, in order
- `ShrinkCache.run_isLru`: the cache is a least-recently-used cache
-/

set_option autoImplicit false

namespace Repartee

/-- One URL → short-URL pair. -/
structure UrlShortening where
  original : Str
  shortened : Str
deriving DecidableEq

/-- Bounded LRU cache mapping an original URL to its most recent shortening; `map` is an
`IndexMap`, the oldest entry first. -/
structure ShrinkCache where
  map : Dict Str UrlShortening
  cap : Nat
  cap_pos : 0 < cap
  len_le : map.rows.length ≤ cap

/-- A call of the cache. -/
inductive CacheCall where
  | get (url : Str)
  | insert (url : Str) (shortening : UrlShortening)
deriving DecidableEq

/-- The URL a call is about. -/
def CacheCall.url : CacheCall → Str
  | .get url => url
  | .insert url _ => url

/-- What a call stores. -/
def CacheCall.stored? (url : Str) : CacheCall → Option UrlShortening
  | .get _ => none
  | .insert url' shortening => if url' = url then some shortening else none

namespace ShrinkCache

/-- `shift_remove_index(0)` -/
def shiftRemoveFirst (map : Dict Str UrlShortening) : Dict Str UrlShortening :=
  ⟨map.rows.tail, map.nodup.sublist ((List.tail_sublist map.rows).map Prod.fst)⟩

/-- What `insert` makes of the map before the new entry is put at its end. -/
def makeRoom (map : Dict Str UrlShortening) (cap : Nat) (url : Str) : Dict Str UrlShortening :=
  if (map.lookup url).isSome then map.erase url
  else if cap ≤ map.rows.length then shiftRemoveFirst map
  else map

/-- A URL that is in the map, and the map without it. -/
theorem length_erase_lt {map : Dict Str UrlShortening} {url : Str}
    (h : (map.lookup url).isSome = true) : (map.erase url).rows.length < map.rows.length := by
  obtain ⟨v, hv⟩ := Option.isSome_iff_exists.mp h
  have hpos := Dict.length_pos_of_lookup hv
  rw [Dict.length_erase, if_pos h]
  omega

theorem length_makeRoom_lt (c : ShrinkCache) (url : Str) :
    (makeRoom c.map c.cap url).rows.length < c.cap := by
  have hpos := c.cap_pos
  have hle := c.len_le
  unfold makeRoom
  split_ifs with hsome hfull
  · exact Nat.lt_of_lt_of_le (length_erase_lt hsome) hle
  · rw [shiftRemoveFirst, List.length_tail]
    omega
  · exact Nat.lt_of_not_le hfull

/-- An entry that is put at the end of a map without its URL. -/
theorem rows_insert {map : Dict Str UrlShortening} {url : Str} (v : UrlShortening)
    (h : map.lookup url = none) : (map.insert url v).rows = map.rows ++ [(url, v)] := by
  have hfilter : map.rows.filter (fun e => !decide (e.1 = url)) = map.rows := by
    refine List.filter_eq_self.mpr (fun e he => ?_)
    have hne : e.1 ≠ url := by
      rintro rfl
      rw [Dict.mem_rows_iff_lookup.mp (show (e.1, e.2) ∈ map.rows from he)] at h
      exact absurd h (by simp)
    simp [hne]
  show map.rows.filter (fun e => !decide (e.1 = url)) ++ [(url, v)] = map.rows ++ [(url, v)]
  rw [hfilter]

theorem lookup_erase_self (map : Dict Str UrlShortening) (url : Str) :
    (map.erase url).lookup url = none := by
  rw [Dict.lookup_erase, if_pos rfl]

/-- The URLs of a map, in its order. -/
def keys (map : Dict Str UrlShortening) : List Str := map.rows.map Prod.fst

theorem mem_keys_iff {map : Dict Str UrlShortening} {url : Str} :
    url ∈ keys map ↔ (map.lookup url).isSome = true := Dict.mem_keys_iff

theorem keys_erase (map : Dict Str UrlShortening) (url : Str) :
    keys (map.erase url) = Lru.without url (keys map) := by
  rw [keys, keys, Lru.without, List.filter_map]
  rfl

theorem lookup_makeRoom_self (map : Dict Str UrlShortening) (cap : Nat) (url : Str) :
    (makeRoom map cap url).lookup url = none := by
  unfold makeRoom
  split_ifs with hsome hfull
  · exact lookup_erase_self map url
  · refine Option.not_isSome_iff_eq_none.mp (fun h => hsome ((mem_keys_iff).mp ?_))
    exact (((List.tail_sublist map.rows).map Prod.fst).subset ((mem_keys_iff).mpr h))
  · exact Option.not_isSome_iff_eq_none.mp hsome

/-- `ShrinkCache::new`: a `cap` of 0 silently behaves as 1. -/
def new (cap : Nat) : ShrinkCache where
  map := Table.empty
  cap := max cap 1
  cap_pos := by omega
  len_le := Nat.zero_le _

/-- `get`: look up `url`, promoting the entry to most-recently-used on a hit. -/
def get (c : ShrinkCache) (url : Str) : Option UrlShortening × ShrinkCache :=
  match h : c.map.lookup url with
  | none => (none, c)
  | some v => (some v, { c with
      map := (c.map.erase url).insert url v
      len_le := by
        have hlt := length_erase_lt (Option.isSome_iff_exists.mpr ⟨v, h⟩)
        have hle := c.len_le
        rw [rows_insert v (lookup_erase_self c.map url), List.length_append,
          List.length_singleton]
        omega })

/-- `insert`: evict the oldest entry when at capacity; updating an existing key counts as a
refresh and does not evict anything. -/
def insert (c : ShrinkCache) (url : Str) (shortening : UrlShortening) : ShrinkCache where
  map := (makeRoom c.map c.cap url).insert url shortening
  cap := c.cap
  cap_pos := c.cap_pos
  len_le := by
    rw [rows_insert shortening (lookup_makeRoom_self c.map c.cap url), List.length_append]
    exact length_makeRoom_lt c url

/-- `len` -/
def len (c : ShrinkCache) : Nat := c.map.rows.length

/-- The URLs of the cache, the least recently used one first. -/
def urls (c : ShrinkCache) : List Str := keys c.map

/-- What a call leaves. -/
def step (c : ShrinkCache) : CacheCall → ShrinkCache
  | .get url => (c.get url).2
  | .insert url shortening => c.insert url shortening

/-- What a call inserts or hits. -/
def touched (c : ShrinkCache) : CacheCall → List Str
  | .get url => if (c.get url).1.isSome then [url] else []
  | .insert url _ => [url]

/-- The URLs that the calls of a run insert or hit, in their order. -/
def touches : ShrinkCache → List CacheCall → List Str
  | _, [] => []
  | c, call :: calls => c.touched call ++ touches (c.step call) calls

/-- The shortening that the calls of a run inserted last for a URL. -/
def lastInserted (calls : List CacheCall) (url : Str) : Option UrlShortening :=
  calls.reverse.findSome? (CacheCall.stored? url)

variable {c : ShrinkCache} {url : Str} {v : UrlShortening} {calls : List CacheCall}

/-! ### One call -/

@[simp] theorem fst_get (c : ShrinkCache) (url : Str) : (c.get url).1 = c.map.lookup url := by
  unfold get
  split
  · next h => exact h.symm
  · next h => exact h.symm

theorem snd_get_of_miss (h : c.map.lookup url = none) : (c.get url).2 = c := by
  unfold get
  split
  · rfl
  · next hv => simp [h] at hv

theorem map_get_of_hit (h : c.map.lookup url = some v) :
    (c.get url).2.map = (c.map.erase url).insert url v := by
  unfold get
  split
  · next hnone => simp [h] at hnone
  · next w hw =>
    obtain rfl : w = v := Option.some.inj (hw.symm.trans h)
    rfl

@[simp] theorem cap_step (c : ShrinkCache) (call : CacheCall) : (c.step call).cap = c.cap := by
  cases call with
  | get url =>
    show (c.get url).2.cap = c.cap
    unfold get
    split <;> rfl
  | insert url v => rfl

theorem mem_urls_iff : url ∈ c.urls ↔ (c.map.lookup url).isSome = true := mem_keys_iff

theorem keys_insert {map : Dict Str UrlShortening} (v : UrlShortening)
    (h : map.lookup url = none) : keys (map.insert url v) = keys map ++ [url] := by
  rw [keys, keys, rows_insert v h, List.map_append]
  rfl

/-- A call that touches no URL leaves the cache as it is. -/
theorem step_of_touched_nil {call : CacheCall} (h : c.touched call = []) : c.step call = c := by
  cases call with
  | get url =>
    refine snd_get_of_miss (Option.not_isSome_iff_eq_none.mp (fun hsome => ?_))
    rw [touched, fst_get, if_pos hsome] at h
    exact absurd h (List.cons_ne_nil url [])
  | insert url v => exact absurd h (List.cons_ne_nil url [])

/-- A call that touches a URL puts it at the end of the others, after it was taken out or the
oldest URL had to make room for it. -/
theorem urls_step_of_touched {call : CacheCall} (h : c.touched call = [url]) :
    (c.step call).urls =
      (if url ∈ c.urls then Lru.without url c.urls
        else if c.cap ≤ c.urls.length then c.urls.tail else c.urls) ++ [url] := by
  cases call with
  | get url' =>
    rw [touched, fst_get] at h
    split_ifs at h with hsome
    obtain rfl : url' = url := List.head_eq_of_cons_eq h
    obtain ⟨v, hv⟩ := Option.isSome_iff_exists.mp hsome
    rw [if_pos ((mem_urls_iff).mpr hsome)]
    show keys (c.get url').2.map = Lru.without url' c.urls ++ [url']
    rw [map_get_of_hit hv, keys_insert v (lookup_erase_self c.map url'), keys_erase]
    rfl
  | insert url' v =>
    obtain rfl : url' = url := List.head_eq_of_cons_eq h
    show keys ((makeRoom c.map c.cap url').insert url' v) = _
    rw [keys_insert v (lookup_makeRoom_self c.map c.cap url')]
    congr 1
    unfold makeRoom
    -- an insert takes the URL out, or the oldest entry of a full map
    have hlen : c.urls.length = c.map.rows.length := List.length_map _
    by_cases hsome : (c.map.lookup url').isSome = true
    · rw [if_pos hsome, if_pos ((mem_urls_iff).mpr hsome), keys_erase]
      rfl
    · rw [if_neg hsome, if_neg (fun hmem => hsome ((mem_urls_iff).mp hmem)), hlen]
      split_ifs with hfull
      · show c.map.rows.tail.map Prod.fst = (c.map.rows.map Prod.fst).tail
        rw [List.map_tail]
      · rfl

theorem touched_cases (c : ShrinkCache) (call : CacheCall) :
    c.touched call = [] ∨ c.touched call = [call.url] := by
  cases call with
  | get url =>
    rw [touched]
    split_ifs
    · exact .inr rfl
    · exact .inl rfl
  | insert url v => exact .inr rfl

/-- Each call keeps the URLs the most recently touched ones. -/
theorem urls_step {history : List Str} (h : c.urls = Lru.recent c.cap history)
    (call : CacheCall) :
    (c.step call).urls = Lru.recent c.cap (history ++ c.touched call) := by
  rcases touched_cases c call with hnil | hone
  · rw [step_of_touched_nil hnil, hnil, List.append_nil, h]
  · rw [urls_step_of_touched hone, hone, h]
    by_cases hmem : call.url ∈ Lru.recent c.cap history
    · rw [if_pos hmem, Lru.recent_concat_of_mem hmem]
    · rw [if_neg hmem, Lru.recent_concat_of_notMem c.cap_pos hmem]

/-- The other URLs keep their order; only the oldest of them may go. -/
theorem without_step_suffix (c : ShrinkCache) (call : CacheCall) :
    Lru.without call.url (c.step call).urls <:+ Lru.without call.url c.urls := by
  rcases touched_cases c call with hnil | hone
  · rw [step_of_touched_nil hnil]
  · have hself : Lru.without call.url [call.url] = [] := Lru.without_cons_self []
    rw [urls_step_of_touched hone, Lru.without_append, hself, List.append_nil]
    split_ifs with hmem hfull
    · rw [Lru.without, Lru.without, List.filter_filter]
      simp
    · exact (List.tail_suffix c.urls).filter _
    · exact List.suffix_rfl

/-- What is found after a call was stored by it, or was there before. -/
theorem lookup_of_step {call : CacheCall} (h : (c.step call).map.lookup url = some v) :
    (call.stored? url).or (c.map.lookup url) = some v := by
  cases call with
  | get url' =>
    show c.map.lookup url = some v
    change (c.get url').2.map.lookup url = some v at h
    cases hfound : c.map.lookup url' with
    | none => rwa [snd_get_of_miss hfound] at h
    | some w =>
      rw [map_get_of_hit hfound, Dict.lookup_insert, Dict.lookup_erase] at h
      by_cases heq : url' = url
      · rw [if_pos heq] at h
        rw [← heq, hfound, h]
      · rwa [if_neg heq, if_neg heq] at h
  | insert url' w =>
    change ((makeRoom c.map c.cap url').insert url' w).lookup url = some v at h
    rw [Dict.lookup_insert] at h
    rw [CacheCall.stored?]
    by_cases heq : url' = url
    · rw [if_pos heq] at h ⊢
      exact h
    · rw [if_neg heq] at h ⊢
      -- nothing is put into the map to make room
      have hrows : (url, v) ∈ c.map.rows := by
        have hmem := Dict.mem_rows_iff_lookup.mpr h
        unfold makeRoom at hmem
        split_ifs at hmem with hsome hfull
        · exact (Table.mem_deleteWhere.mp hmem).1
        · exact List.mem_of_mem_tail hmem
        · exact hmem
      exact Dict.mem_rows_iff_lookup.mp hrows

/-! ### A whole run -/

theorem cap_run (c : ShrinkCache) (calls : List CacheCall) :
    (Run.run step c calls).cap = c.cap :=
  Run.invariant (P := fun c' => c'.cap = c.cap) (fun c' call h => (cap_step c' call).trans h) rfl
    calls

theorem urls_run_of_recent {history : List Str} (h : c.urls = Lru.recent c.cap history)
    (calls : List CacheCall) :
    (Run.run step c calls).urls = Lru.recent c.cap (history ++ c.touches calls) := by
  induction calls generalizing c history with
  | nil => rw [touches, List.append_nil]; exact h
  | cons call calls ih =>
    have hstep : (c.step call).urls =
        Lru.recent (c.step call).cap (history ++ c.touched call) := by
      rw [cap_step]
      exact urls_step h call
    rw [Run.run_cons, ih hstep, cap_step, touches, List.append_assoc]

/-- **The recency order**: after every run the URLs of the cache are the ones that were inserted
or hit most recently, in this order. -/
theorem urls_run (cap : Nat) (calls : List CacheCall) :
    (Run.run step (new cap) calls).urls =
      Lru.recent (max cap 1) ((new cap).touches calls) := by
  have hnew : (new cap).urls = Lru.recent (new cap).cap [] := Lru.recent_nil.symm
  exact urls_run_of_recent hnew calls

theorem lastInserted_cons (call : CacheCall) (calls : List CacheCall) (url : Str) :
    lastInserted (call :: calls) url = (lastInserted calls url).or (call.stored? url) := by
  rw [lastInserted, List.reverse_cons, List.findSome?_append, List.findSome?_singleton]
  rfl

theorem lookup_of_run (h : (Run.run step c calls).map.lookup url = some v) :
    (lastInserted calls url).or (c.map.lookup url) = some v := by
  induction calls generalizing c with
  | nil => exact h
  | cons call calls ih =>
    rw [lastInserted_cons, Option.or_assoc]
    rcases Option.or_eq_some_iff.mp (ih h) with hlast | ⟨hnone, hbefore⟩
    · rw [hlast, Option.some_or]
    · rw [hnone, Option.none_or]
      exact lookup_of_step hbefore

/-- What was inserted was touched. -/
theorem mem_touches_of_lastInserted (h : lastInserted calls url = some v) :
    url ∈ c.touches calls := by
  induction calls generalizing c with
  | nil => exact absurd h (by simp [lastInserted])
  | cons call calls ih =>
    rw [touches, List.mem_append]
    rw [lastInserted_cons] at h
    rcases Option.or_eq_some_iff.mp h with hlater | ⟨-, hnow⟩
    · exact .inr (ih hlater)
    · cases call with
      | get url' => exact absurd hnow (by simp [CacheCall.stored?])
      | insert url' w =>
        rw [CacheCall.stored?] at hnow
        split_ifs at hnow with heq
        exact .inl (List.mem_singleton.mpr heq.symm)

/-- **The cache of shortenings is a least-recently-used cache**: in every run it stays within its
capacity, its URLs stand in the order of their last touches, and one that is looked up is found,
with the value that was inserted last for it, exactly when fewer other URLs than the capacity were
inserted or hit since it was; and no call changes the order of the other URLs. -/
theorem run_isLru (cap : Nat) (calls : List CacheCall) :
    let c := Run.run step (new cap) calls
    let history := (new cap).touches calls
    c.len ≤ max cap 1 ∧
    c.urls = Lru.recent (max cap 1) history ∧
    (∀ url v, (c.get url).1 = some v ↔
      lastInserted calls url = some v ∧ (Lru.since url history).toFinset.card < max cap 1) ∧
    ∀ call, Lru.without call.url (c.step call).urls <:+ Lru.without call.url c.urls := by
  intro c history
  have hcap : c.cap = max cap 1 := cap_run (new cap) calls
  have hurls : c.urls = Lru.recent (max cap 1) history := urls_run cap calls
  have hlast : ∀ url v, c.map.lookup url = some v → lastInserted calls url = some v := by
    intro url v h
    simpa [new] using lookup_of_run h
  refine ⟨hcap ▸ c.len_le, hurls, fun url v => ?_, without_step_suffix c⟩
  rw [fst_get]
  constructor
  · intro h
    have hmem : url ∈ c.urls := mem_urls_iff.mpr (Option.isSome_iff_exists.mpr ⟨v, h⟩)
    rw [hurls, Lru.mem_recent_iff] at hmem
    exact ⟨hlast url v h, hmem.2⟩
  · rintro ⟨hins, hfew⟩
    have hmem : url ∈ c.urls := by
      rw [hurls, Lru.mem_recent_iff]
      exact ⟨mem_touches_of_lastInserted hins, hfew⟩
    obtain ⟨w, hw⟩ := Option.isSome_iff_exists.mp (mem_urls_iff.mp hmem)
    rw [hw, ← hins, hlast url w hw]

-- touching the oldest of three URLs makes the second one the oldest
example : (Run.run step (new 3) [.insert ['a'] ⟨[], []⟩, .insert ['b'] ⟨[], []⟩,
    .insert ['c'] ⟨[], []⟩, .get ['a'], .insert ['d'] ⟨[], []⟩]).urls =
    [['c'], ['a'], ['d']] := by decide

end ShrinkCache

end Repartee
