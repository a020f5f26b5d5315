import Mathlib.Data.List.Nodup
import Mathlib.Data.List.Basic

/-!
# Tables with a primary key

A `Table ρ key` is a finite collection of rows in insertion order, no two of which have the
same key. The uniqueness of keys is a field, so every statement below (`deleteWhere`,
`updateWhere`, `replace`, `upsert`) returns a well-formed table by construction, and lookups by
key determine the table up to the order of its rows.

## Main definitions

- `Table.get?`: the row stored under a key
- `Table.replace`: insert a row, evicting the row with the same key
- `Table.upsert`: insert a row, or merge it into the row with the same key
- `Table.deleteWhere`, `Table.updateWhere`: statements guarded by a predicate on rows
- `Dict`: a table of key/value pairs
- `Dict.freeKey`: a key that is not in use
-/

set_option autoImplicit false

universe u v w

/-- Rows in insertion order, identified by the primary key `key`. -/
structure Table (ρ : Type u) {κ : Type v} (key : ρ → κ) where
  /-- The stored rows, oldest first. -/
  rows : List ρ
  /-- No two rows share a key. -/
  nodup : (rows.map key).Nodup

namespace Table

variable {ρ : Type u} {κ : Type v} {key : ρ → κ}

@[ext]
theorem ext {t t' : Table ρ key} (h : t.rows = t'.rows) : t = t' := by
  cases t; cases t'; cases h; rfl

instance [DecidableEq ρ] : DecidableEq (Table ρ key) := fun t t' =>
  decidable_of_iff (t.rows = t'.rows) ⟨ext, fun h => h ▸ rfl⟩

/-- The table without rows. -/
def empty : Table ρ key := ⟨[], List.nodup_nil⟩

/-- The table with the given rows, if their keys are distinct. -/
def ofRows? [DecidableEq κ] (rows : List ρ) : Option (Table ρ key) :=
  if h : (rows.map key).Nodup then some ⟨rows, h⟩ else none

/-- Remove every row that satisfies `p`. -/
def deleteWhere (t : Table ρ key) (p : ρ → Bool) : Table ρ key :=
  ⟨t.rows.filter (fun r => !p r), t.nodup.sublist (List.filter_sublist.map key)⟩

/-- How many rows `deleteWhere` removes. -/
def countWhere (t : Table ρ key) (p : ρ → Bool) : Nat := (t.rows.filter p).length

/-- Rewrite every row that satisfies `p` with a function that keeps keys. -/
def updateWhere (t : Table ρ key) (p : ρ → Bool) (f : ρ → ρ) (hf : ∀ r, key (f r) = key r) :
    Table ρ key :=
  ⟨t.rows.map (fun r => if p r then f r else r), by
    have he : (t.rows.map (fun r => if p r then f r else r)).map key = t.rows.map key := by
      rw [List.map_map]
      refine List.map_congr_left (fun r _ => ?_)
      by_cases hp : p r <;> simp [hp, hf]
    rw [he]
    exact t.nodup⟩

@[simp] theorem rows_empty : (empty : Table ρ key).rows = [] := rfl

@[simp] theorem mem_deleteWhere {t : Table ρ key} {p : ρ → Bool} {r : ρ} :
    r ∈ (t.deleteWhere p).rows ↔ r ∈ t.rows ∧ p r = false := by
  simp [deleteWhere, List.mem_filter]

theorem mem_updateWhere {t : Table ρ key} {p : ρ → Bool} {f : ρ → ρ}
    {hf : ∀ r, key (f r) = key r} {r : ρ} :
    r ∈ (t.updateWhere p f hf).rows ↔ ∃ r' ∈ t.rows, (if p r' then f r' else r') = r := by
  simp [updateWhere]

variable [DecidableEq κ]

/-- The row stored under `k`. -/
def get? (t : Table ρ key) (k : κ) : Option ρ := t.rows.find? (fun r => decide (key r = k))

/-- Insert `r`, evicting the row with the same key. -/
def replace (t : Table ρ key) (r : ρ) : Table ρ key :=
  ⟨t.rows.filter (fun r' => !decide (key r' = key r)) ++ [r], by
    rw [List.map_append, List.nodup_append]
    refine ⟨t.nodup.sublist (List.filter_sublist.map key), by simp, ?_⟩
    intro a ha b hb hab
    obtain ⟨r', hr', rfl⟩ := List.mem_map.mp ha
    have hk : key r' ≠ key r := by simpa using (List.mem_filter.mp hr').2
    exact hk (by simpa [hab] using hb)⟩

/-- Insert `r` if its key is new, otherwise rewrite the stored row with `merge`. -/
def upsert (t : Table ρ key) (r : ρ) (merge : ρ → ρ) (hm : ∀ old, key (merge old) = key old) :
    Table ρ key :=
  if (t.get? (key r)).isSome then t.updateWhere (fun old => decide (key old = key r)) merge hm
  else t.replace r

/-! ### Lookups -/

theorem get?_eq_some_iff (t : Table ρ key) (k : κ) (r : ρ) :
    t.get? k = some r ↔ r ∈ t.rows ∧ key r = k := by
  constructor
  · intro h
    exact ⟨List.mem_of_find?_eq_some h, by simpa using List.find?_some h⟩
  · rintro ⟨hr, rfl⟩
    cases h : t.get? (key r) with
    | none =>
      have hk := List.find?_eq_none.mp h r hr
      simp at hk
    | some r' =>
      have hm := List.mem_of_find?_eq_some h
      have hk : key r' = key r := by simpa using List.find?_some h
      rw [List.inj_on_of_nodup_map t.nodup hm hr hk]

theorem key_of_get? {t : Table ρ key} {k : κ} {r : ρ} (h : t.get? k = some r) : key r = k :=
  ((get?_eq_some_iff t k r).mp h).2

theorem mem_of_get? {t : Table ρ key} {k : κ} {r : ρ} (h : t.get? k = some r) : r ∈ t.rows :=
  ((get?_eq_some_iff t k r).mp h).1

theorem get?_of_mem {t : Table ρ key} {r : ρ} (h : r ∈ t.rows) : t.get? (key r) = some r :=
  (get?_eq_some_iff t (key r) r).mpr ⟨h, rfl⟩

theorem get?_eq_none_iff (t : Table ρ key) (k : κ) :
    t.get? k = none ↔ ∀ r ∈ t.rows, key r ≠ k := by
  simp [get?, List.find?_eq_none]

/-- Two tables that answer every lookup alike in one key have the same row there. -/
theorem get?_eq_of_iff {t t' : Table ρ key} {k : κ}
    (h : ∀ r, key r = k → (r ∈ t.rows ↔ r ∈ t'.rows)) : t.get? k = t'.get? k := by
  refine Option.ext (fun r => ?_)
  rw [get?_eq_some_iff, get?_eq_some_iff]
  constructor
  · rintro ⟨hr, hk⟩
    exact ⟨(h r hk).mp hr, hk⟩
  · rintro ⟨hr, hk⟩
    exact ⟨(h r hk).mpr hr, hk⟩

@[simp] theorem get?_empty (k : κ) : (empty : Table ρ key).get? k = none := rfl

/-! ### Statements -/

/-- Deleting rows hides exactly the rows that satisfy the predicate. -/
theorem get?_deleteWhere (t : Table ρ key) (p : ρ → Bool) (k : κ) :
    (t.deleteWhere p).get? k = (t.get? k).filter (fun r => !p r) := by
  refine Option.ext (fun r => ?_)
  rw [get?_eq_some_iff, mem_deleteWhere, Option.filter_eq_some_iff, get?_eq_some_iff]
  simp only [Bool.not_eq_true', and_assoc]
  tauto

theorem mem_replace {t : Table ρ key} {r r' : ρ} :
    r' ∈ (t.replace r).rows ↔ r' = r ∨ (r' ∈ t.rows ∧ key r' ≠ key r) := by
  simp [replace, List.mem_filter, or_comm]

theorem get?_replace (t : Table ρ key) (r : ρ) (k : κ) :
    (t.replace r).get? k = if key r = k then some r else t.get? k := by
  by_cases hk : key r = k
  · rw [if_pos hk]
    exact (get?_eq_some_iff _ k r).mpr ⟨(mem_replace).mpr (Or.inl rfl), hk⟩
  · rw [if_neg hk]
    refine get?_eq_of_iff (fun r' hr' => ?_)
    rw [mem_replace]
    constructor
    · rintro (rfl | ⟨h, _⟩)
      · exact absurd hr' hk
      · exact h
    · intro h
      exact Or.inr ⟨h, fun he => hk (he ▸ hr')⟩

@[simp] theorem get?_replace_self (t : Table ρ key) (r : ρ) :
    (t.replace r).get? (key r) = some r := by
  rw [get?_replace, if_pos rfl]

theorem get?_replace_ne (t : Table ρ key) {r : ρ} {k : κ} (h : key r ≠ k) :
    (t.replace r).get? k = t.get? k := by
  rw [get?_replace, if_neg h]

theorem get?_updateWhere (t : Table ρ key) (p : ρ → Bool) (f : ρ → ρ)
    (hf : ∀ r, key (f r) = key r) (k : κ) :
    (t.updateWhere p f hf).get? k = (t.get? k).map (fun r => if p r then f r else r) := by
  have hkey : ∀ r, key (if p r then f r else r) = key r := by
    intro r
    by_cases hp : p r <;> simp [hp, hf]
  refine Option.ext (fun r => ?_)
  rw [get?_eq_some_iff, mem_updateWhere, Option.map_eq_some_iff]
  constructor
  · rintro ⟨⟨r', hr', rfl⟩, hk⟩
    exact ⟨r', (get?_eq_some_iff t k r').mpr ⟨hr', (hkey r').symm.trans hk⟩, rfl⟩
  · rintro ⟨r', hr', rfl⟩
    exact ⟨⟨r', mem_of_get? hr', rfl⟩, (hkey r').trans (key_of_get? hr')⟩

theorem get?_upsert (t : Table ρ key) (r : ρ) (merge : ρ → ρ)
    (hm : ∀ old, key (merge old) = key old) (k : κ) :
    (t.upsert r merge hm).get? k =
      if key r = k then some ((t.get? k).elim r merge) else t.get? k := by
  unfold upsert
  by_cases hs : (t.get? (key r)).isSome
  · rw [if_pos hs, get?_updateWhere]
    obtain ⟨old, hold⟩ := Option.isSome_iff_exists.mp hs
    by_cases hk : key r = k
    · subst hk
      simp [hold, key_of_get? hold]
    · rw [if_neg hk]
      cases ho : t.get? k with
      | none => rfl
      | some o => simp [key_of_get? ho, Ne.symm hk]
  · rw [if_neg hs, get?_replace]
    by_cases hk : key r = k
    · subst hk
      simp [Option.not_isSome_iff_eq_none.mp hs]
    · rw [if_neg hk, if_neg hk]

theorem mem_upsert_iff {t : Table ρ key} {r r' : ρ} {merge : ρ → ρ}
    {hm : ∀ old, key (merge old) = key old} :
    r' ∈ (t.upsert r merge hm).rows ↔
      (r' ∈ t.rows ∧ key r' ≠ key r) ∨ r' = (t.get? (key r)).elim r merge := by
  have hkey : key ((t.get? (key r)).elim r merge) = key r := by
    cases h : t.get? (key r) with
    | none => rfl
    | some old => exact (hm old).trans (key_of_get? h)
  constructor
  · intro h
    have hg := get?_of_mem h
    rw [get?_upsert] at hg
    by_cases hk : key r = key r'
    · rw [if_pos hk, ← hk] at hg
      exact Or.inr (Option.some.inj hg).symm
    · rw [if_neg hk] at hg
      exact Or.inl ⟨mem_of_get? hg, Ne.symm hk⟩
  · rintro (⟨h, hk⟩ | rfl)
    · refine mem_of_get? (k := key r') ?_
      rw [get?_upsert, if_neg (Ne.symm hk)]
      exact get?_of_mem h
    · refine mem_of_get? (k := key r) ?_
      rw [get?_upsert, if_pos rfl]

/-- An upsert changes nothing if and only if it merges into a row that it leaves as it was. -/
theorem upsert_eq_self_iff {t : Table ρ key} {r : ρ} {merge : ρ → ρ}
    {hm : ∀ old, key (merge old) = key old} :
    t.upsert r merge hm = t ↔ ∃ old, t.get? (key r) = some old ∧ merge old = old := by
  constructor
  · intro h
    have hg := get?_upsert t r merge hm (key r)
    rw [h, if_pos rfl] at hg
    cases ho : t.get? (key r) with
    | none => simp [ho] at hg
    | some old =>
      rw [ho, Option.elim_some, Option.some.injEq] at hg
      exact ⟨old, rfl, hg.symm⟩
  · rintro ⟨old, ho, hmerge⟩
    rw [upsert, if_pos (by rw [ho]; rfl)]
    refine ext ?_
    show t.rows.map (fun r' => if decide (key r' = key r) = true then merge r' else r') = t.rows
    refine (List.map_congr_left (fun r' hr' => ?_)).trans (List.map_id t.rows)
    by_cases hk : key r' = key r
    · have hold : r' = old := Option.some.inj ((hk ▸ get?_of_mem hr').symm.trans ho)
      simp [hold, key_of_get? ho, hmerge]
    · simp [hk]

/-- Rows of a table, in any order and rewritten without touching their keys, are rows of a table
that stores the rewritten rows. -/
theorem exists_ofRows?_of_perm (t : Table ρ key) {f : ρ → ρ} (hf : ∀ r, key (f r) = key r)
    {rows : List ρ} (h : rows.Perm t.rows) :
    ∃ t' : Table ρ key, ofRows? (rows.map f) = some t' ∧ ∀ k, t'.get? k = (t.get? k).map f := by
  have hkeys : (rows.map f).map key = rows.map key := by
    rw [List.map_map]
    exact List.map_congr_left (fun r _ => hf r)
  have hnodup : ((rows.map f).map key).Nodup := by
    rw [hkeys]
    exact (h.map key).nodup_iff.mpr t.nodup
  refine ⟨⟨rows.map f, hnodup⟩, by simp only [ofRows?, hnodup, dite_true], fun k => ?_⟩
  cases hk : t.get? k with
  | none =>
    rw [get?_eq_none_iff] at hk
    rw [Option.map_none, get?_eq_none_iff]
    intro r' hr'
    obtain ⟨r, hr, rfl⟩ := List.mem_map.mp hr'
    rw [hf]
    exact hk r (h.mem_iff.mp hr)
  | some r =>
    rw [get?_eq_some_iff] at hk
    rw [Option.map_some, get?_eq_some_iff]
    exact ⟨List.mem_map.mpr ⟨r, h.mem_iff.mpr hk.1, rfl⟩, (hf r).trans hk.2⟩

/-! ### Deleting rows before or after another statement -/

/-- A row whose key keeps clear of a deletion is found before and after it. -/
theorem get?_deleteWhere_of_kept (t : Table ρ key) {p : ρ → Bool} {k : κ}
    (h : ∀ r, key r = k → p r = false) : (t.deleteWhere p).get? k = t.get? k := by
  rw [get?_deleteWhere]
  cases hr : t.get? k with
  | none => rfl
  | some r => simp [h r (key_of_get? hr)]

omit [DecidableEq κ] in
theorem deleteWhere_comm (t : Table ρ key) (p q : ρ → Bool) :
    (t.deleteWhere p).deleteWhere q = (t.deleteWhere q).deleteWhere p := by
  apply ext
  simp only [deleteWhere, List.filter_filter]
  exact List.filter_congr (fun r _ => Bool.and_comm _ _)

omit [DecidableEq κ] in
/-- A deletion of rows that are deleted later is not noticed. -/
theorem deleteWhere_deleteWhere_of_imp (t : Table ρ key) {p q : ρ → Bool}
    (h : ∀ r, q r = true → p r = true) : (t.deleteWhere q).deleteWhere p = t.deleteWhere p := by
  apply ext
  simp only [deleteWhere, List.filter_filter]
  refine List.filter_congr (fun r _ => ?_)
  cases hq : q r with
  | false => simp
  | true => simp [h r hq]

theorem replace_deleteWhere_of_kept (t : Table ρ key) {p : ρ → Bool} {r : ρ} (h : p r = false) :
    (t.deleteWhere p).replace r = (t.replace r).deleteWhere p := by
  apply ext
  simp only [deleteWhere, replace, List.filter_append, List.filter_filter]
  congr 1
  · exact List.filter_congr (fun r' _ => Bool.and_comm _ _)
  · simp [h]

/-- A row that is deleted later is not noticed. -/
theorem deleteWhere_replace_of_gone (t : Table ρ key) {p : ρ → Bool} {r : ρ}
    (h : ∀ r', key r' = key r → p r' = true) :
    (t.replace r).deleteWhere p = t.deleteWhere p := by
  apply ext
  simp only [deleteWhere, replace, List.filter_append, List.filter_filter]
  rw [show [r].filter (fun r' => !p r') = [] from by simp [h r rfl], List.append_nil]
  refine List.filter_congr (fun r' _ => ?_)
  by_cases hk : key r' = key r
  · simp [h r' hk]
  · simp [hk]

omit [DecidableEq κ] in
theorem updateWhere_deleteWhere (t : Table ρ key) {p q : ρ → Bool} {f : ρ → ρ}
    (hf : ∀ r, key (f r) = key r) (h : ∀ r, p (f r) = p r) :
    (t.deleteWhere p).updateWhere q f hf = (t.updateWhere q f hf).deleteWhere p := by
  apply ext
  simp only [deleteWhere, updateWhere, List.filter_map]
  congr 1
  refine List.filter_congr (fun r _ => ?_)
  by_cases hq : q r <;> simp [hq, h]

omit [DecidableEq κ] in
/-- A change to rows that are deleted later is not noticed. -/
theorem deleteWhere_updateWhere_of_gone (t : Table ρ key) {p q : ρ → Bool} {f : ρ → ρ}
    (hf : ∀ r, key (f r) = key r) (hpf : ∀ r, p (f r) = p r) (h : ∀ r, q r = true → p r = true) :
    (t.updateWhere q f hf).deleteWhere p = t.deleteWhere p := by
  rw [← updateWhere_deleteWhere t hf hpf]
  apply ext
  simp only [deleteWhere, updateWhere]
  refine (List.map_congr_left (fun r hr => ?_)).trans (List.map_id _)
  have hp : p r = false := by simpa using (List.mem_filter.mp hr).2
  have hq : q r = false := by
    rw [Bool.eq_false_iff]
    intro hq
    rw [h r hq] at hp
    cases hp
  simp [hq]

theorem upsert_deleteWhere_of_kept (t : Table ρ key) {p : ρ → Bool} {r : ρ} {f : ρ → ρ}
    (hm : ∀ old, key (f old) = key old) (hpm : ∀ r, p (f r) = p r)
    (h : ∀ r', key r' = key r → p r' = false) :
    (t.deleteWhere p).upsert r f hm = (t.upsert r f hm).deleteWhere p := by
  unfold upsert
  rw [get?_deleteWhere_of_kept t h]
  split
  · exact updateWhere_deleteWhere t hm hpm
  · exact replace_deleteWhere_of_kept t (h r rfl)

theorem deleteWhere_upsert_of_gone (t : Table ρ key) {p : ρ → Bool} {r : ρ} {f : ρ → ρ}
    (hm : ∀ old, key (f old) = key old) (hpm : ∀ r, p (f r) = p r)
    (h : ∀ r', key r' = key r → p r' = true) :
    (t.upsert r f hm).deleteWhere p = t.deleteWhere p := by
  unfold upsert
  split
  · exact deleteWhere_updateWhere_of_gone t hm hpm (fun r' hr' => h r' (of_decide_eq_true hr'))
  · exact deleteWhere_replace_of_gone t h

end Table

/-- A finite map, stored as a table of pairs. -/
abbrev Dict (κ : Type v) (ν : Type w) := Table (κ × ν) Prod.fst

namespace Dict

variable {κ : Type v} {ν : Type w} [DecidableEq κ]

/-- The value stored under `k`. -/
def lookup (d : Dict κ ν) (k : κ) : Option ν := (d.get? k).map Prod.snd

/-- Store `x` under `k`. -/
def insert (d : Dict κ ν) (k : κ) (x : ν) : Dict κ ν := Table.replace d (k, x)

/-- Drop the entry under `k`. -/
def erase (d : Dict κ ν) (k : κ) : Dict κ ν := Table.deleteWhere d (fun e => decide (e.1 = k))

/-- Keep the entries that satisfy `p`. -/
def retain (d : Dict κ ν) (p : κ → ν → Bool) : Dict κ ν :=
  Table.deleteWhere d (fun e => !p e.1 e.2)

/-- Rewrite the value under `k`, if there is one. -/
def modify (d : Dict κ ν) (k : κ) (f : ν → ν) : Dict κ ν :=
  Table.updateWhere d (fun e => decide (e.1 = k)) (fun e => (e.1, f e.2)) (fun _ => rfl)

/-- Rewrite every value. -/
def mapValues (d : Dict κ ν) (f : ν → ν) : Dict κ ν :=
  Table.updateWhere d (fun _ => true) (fun e => (e.1, f e.2)) (fun _ => rfl)

/-- Rewrite every value, with its key at hand. -/
def mapWithKey (d : Dict κ ν) (f : κ → ν → ν) : Dict κ ν :=
  Table.updateWhere d (fun _ => true) (fun e => (e.1, f e.1 e.2)) (fun _ => rfl)

/-- The values, in the order of the map. -/
def values (d : Dict κ ν) : List ν := d.rows.map Prod.snd

theorem mem_rows_iff_lookup {d : Dict κ ν} {k : κ} {x : ν} :
    (k, x) ∈ d.rows ↔ d.lookup k = some x := by
  unfold lookup
  rw [Option.map_eq_some_iff]
  constructor
  · intro h
    exact ⟨(k, x), Table.get?_of_mem h, rfl⟩
  · rintro ⟨⟨k', x'⟩, h, rfl⟩
    obtain ⟨hm, rfl⟩ := (Table.get?_eq_some_iff d k (k', x')).mp h
    exact hm

@[simp] theorem lookup_empty (k : κ) : lookup (Table.empty : Dict κ ν) k = none := rfl

theorem lookup_insert (d : Dict κ ν) (k : κ) (x : ν) (k' : κ) :
    (d.insert k x).lookup k' = if k = k' then some x else d.lookup k' := by
  unfold lookup insert
  rw [Table.get?_replace]
  by_cases h : k = k' <;> simp [h]

theorem lookup_erase (d : Dict κ ν) (k k' : κ) :
    (d.erase k).lookup k' = if k = k' then none else d.lookup k' := by
  unfold lookup erase
  rw [Table.get?_deleteWhere]
  cases h : Table.get? d k' with
  | none => simp
  | some e =>
    have he : e.1 = k' := Table.key_of_get? h
    by_cases hk : k = k'
    · simp [Option.filter, he, hk]
    · simp [Option.filter, he, hk, Ne.symm hk]

theorem lookup_retain (d : Dict κ ν) (p : κ → ν → Bool) (k : κ) :
    (d.retain p).lookup k = (d.lookup k).filter (p k) := by
  unfold lookup retain
  rw [Table.get?_deleteWhere]
  cases h : Table.get? d k with
  | none => rfl
  | some e =>
    have he : e.1 = k := Table.key_of_get? h
    subst he
    by_cases hp : p e.1 e.2 <;> simp [Option.filter, hp]

theorem lookup_modify (d : Dict κ ν) (k : κ) (f : ν → ν) (k' : κ) :
    (d.modify k f).lookup k' = if k = k' then (d.lookup k').map f else d.lookup k' := by
  unfold lookup modify
  rw [Table.get?_updateWhere]
  cases h : Table.get? d k' with
  | none => simp
  | some e =>
    have he : e.1 = k' := Table.key_of_get? h
    by_cases hk : k = k'
    · simp [he, hk]
    · simp [he, hk, Ne.symm hk]

theorem lookup_mapValues (d : Dict κ ν) (f : ν → ν) (k : κ) :
    (d.mapValues f).lookup k = (d.lookup k).map f := by
  unfold lookup mapValues
  rw [Table.get?_updateWhere]
  cases Table.get? d k <;> rfl

theorem lookup_mapWithKey (d : Dict κ ν) (f : κ → ν → ν) (k : κ) :
    (d.mapWithKey f).lookup k = (d.lookup k).map (f k) := by
  unfold lookup mapWithKey
  rw [Table.get?_updateWhere]
  cases h : Table.get? d k with
  | none => rfl
  | some e =>
    have he : e.1 = k := Table.key_of_get? h
    simp [he]

omit [DecidableEq κ] in
theorem mapWithKey_mapValues (d : Dict κ ν) (f : κ → ν → ν) (g : ν → ν) :
    (d.mapValues g).mapWithKey f = d.mapWithKey (fun k x => f k (g x)) := by
  apply Table.ext
  simp [mapWithKey, mapValues, Table.updateWhere]

/-- Rewriting changes nothing if and only if it changes no entry. -/
theorem mapWithKey_eq_self_iff (d : Dict κ ν) (f : κ → ν → ν) :
    d.mapWithKey f = d ↔ ∀ k x, d.lookup k = some x → f k x = x := by
  have hrows : d.mapWithKey f = d ↔ ∀ e ∈ d.rows, (e.1, f e.1 e.2) = e := by
    rw [Table.ext_iff]
    show d.rows.map (fun e => (e.1, f e.1 e.2)) = d.rows ↔ _
    conv_lhs => rhs; rw [← List.map_id d.rows]
    exact List.map_inj_left
  rw [hrows]
  constructor
  · intro h k x hlookup
    exact (Prod.mk.inj (h (k, x) ((mem_rows_iff_lookup).mpr hlookup))).2
  · rintro h ⟨k, x⟩ hmem
    rw [h k x ((mem_rows_iff_lookup).mp hmem)]

/-- Putting back what is there changes nothing. -/
theorem modify_eq_self {d : Dict κ ν} {k : κ} {x : ν} (h : d.lookup k = some x) :
    d.modify k (fun _ => x) = d := by
  apply Table.ext
  change d.rows.map (fun e => if decide (e.1 = k) then (e.1, x) else e) = d.rows
  conv_rhs => rw [← List.map_id d.rows]
  refine List.map_congr_left ?_
  rintro ⟨k', y⟩ hmem
  by_cases hk : k' = k
  · subst hk
    have hx := (mem_rows_iff_lookup).mp hmem
    rw [h] at hx
    simp [Option.some.inj hx]
  · simp [hk]

theorem mem_keys_iff {d : Dict κ ν} {k : κ} :
    k ∈ d.rows.map Prod.fst ↔ (d.lookup k).isSome = true := by
  rw [Option.isSome_iff_exists, List.mem_map]
  constructor
  · rintro ⟨⟨k', x⟩, h, rfl⟩
    exact ⟨x, (mem_rows_iff_lookup).mp h⟩
  · rintro ⟨x, h⟩
    exact ⟨(k, x), (mem_rows_iff_lookup).mpr h, rfl⟩

theorem length_erase (d : Dict κ ν) (k : κ) :
    (d.erase k).rows.length =
      if (d.lookup k).isSome = true then d.rows.length - 1 else d.rows.length := by
  have hkeys : (d.erase k).rows.map Prod.fst = (d.rows.map Prod.fst).erase k := by
    rw [d.nodup.erase_eq_filter, List.filter_map]
    rfl
  rw [← List.length_map (f := Prod.fst), hkeys, List.length_erase, List.length_map]
  by_cases h : k ∈ d.rows.map Prod.fst
  · rw [if_pos h, if_pos ((mem_keys_iff).mp h)]
  · rw [if_neg h, if_neg (fun hsome => h ((mem_keys_iff).mpr hsome))]

theorem length_insert (d : Dict κ ν) (k : κ) (x : ν) :
    (d.insert k x).rows.length = (d.erase k).rows.length + 1 := by
  rw [insert, Table.replace, List.length_append]
  rfl

theorem length_modify (d : Dict κ ν) (k : κ) (f : ν → ν) :
    (d.modify k f).rows.length = d.rows.length := List.length_map _

theorem length_pos_of_lookup {d : Dict κ ν} {k : κ} {x : ν} (h : d.lookup k = some x) :
    0 < d.rows.length := List.length_pos_of_mem ((mem_rows_iff_lookup).mpr h)

theorem lookup_of_erase {d : Dict κ ν} {k k' : κ} {x : ν}
    (h : (d.erase k).lookup k' = some x) : d.lookup k' = some x ∧ k' ≠ k := by
  rw [lookup_erase] at h
  by_cases hk : k = k'
  · simp [hk] at h
  · exact ⟨by simpa [hk] using h, Ne.symm hk⟩

theorem lookup_of_retain {d : Dict κ ν} {p : κ → ν → Bool} {k : κ} {x : ν}
    (h : (d.retain p).lookup k = some x) : d.lookup k = some x ∧ p k x = true := by
  rw [lookup_retain, Option.filter_eq_some_iff] at h
  exact h

/-! ### Free keys -/

/-- The first of some candidates that nothing is stored under. -/
def freeKey (d : Dict κ ν) (candidate : Nat → κ) : κ :=
  candidate (((List.range (d.rows.length + 1)).find?
    (fun n => (d.lookup (candidate n)).isNone)).getD 0)

/-- Distinct candidates cannot all be taken: there are more of them than entries. -/
theorem lookup_freeKey (d : Dict κ ν) {candidate : Nat → κ}
    (hinj : ∀ m n, candidate m = candidate n → m = n) :
    d.lookup (d.freeKey candidate) = none := by
  rw [freeKey]
  cases hfind : (List.range (d.rows.length + 1)).find?
      (fun n => (d.lookup (candidate n)).isNone) with
  | some n =>
    have hfree := List.find?_some hfind
    exact Option.isNone_iff_eq_none.mp hfree
  | none =>
    have htaken : ((List.range (d.rows.length + 1)).map candidate) ⊆ d.rows.map Prod.fst := by
      intro k hk
      obtain ⟨n, hn, rfl⟩ := List.mem_map.mp hk
      rw [mem_keys_iff]
      have hnone := List.find?_eq_none.mp hfind n hn
      rwa [Bool.not_eq_true, ← Option.not_isSome, Bool.not_eq_false'] at hnone
    have hnodup : ((List.range (d.rows.length + 1)).map candidate).Nodup :=
      List.nodup_range.map (fun m n => hinj m n)
    have hlength := hnodup.length_le_of_subset htaken
    simp only [List.length_map, List.length_range] at hlength
    omega

end Dict
