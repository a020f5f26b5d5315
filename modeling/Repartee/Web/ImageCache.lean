import Repartee.E2e.Basic
import Repartee.Lib.Priority
import Repartee.Lib.Table

/-!
# The cache of image previews

`image_preview/cache.rs`: the files of a directory, named by the hash of a URL. `cleanup_in` first
removes what is too old and then, from the oldest on, what does not fit. The hash is a parameter,
and so is which files can be removed; times are in nanoseconds.

## Main definitions

- `Directory`, `isCachedIn`, `storeIn`, `cleanupIn`, `statsIn`, `clearIn`: the cache
- `removal`: what `cleanupIn` removes

## Main results

- `isCachedIn_storeIn`: what is stored is found, and answers no other URL
- `cleanup_exact`: the statistics of a cleanup are those of the directory before and after
- `cleanup_evicts`: a cleanup leaves nothing old and no more than fits, and evicts the oldest files
  and none too many
-/

set_option autoImplicit false

namespace Repartee.Web.ImageCache

/-! ### Files -/

/-- A file, or something else in the directory. The time is missing where the file system has
none. -/
structure File where
  isFile : Bool
  size : Nat
  modified : Option Nat
  deriving DecidableEq

abbrev Directory := Dict Str File

structure CleanupStats where
  filesRemoved : Nat
  bytesFreed : Nat
  deriving DecidableEq

/-- An entry of the directory: its path, and the file. -/
abbrev Entry := Str × File

def Entry.size (e : Entry) : Nat := e.2.size

/-- `modified().unwrap_or(now)` -/
def Entry.stamp (now : Nat) (e : Entry) : Nat := e.2.modified.getD now

def Directory.files (dir : Directory) : List Entry := dir.rows.filter (fun e => e.2.isFile)

def bytes (l : List Entry) : Nat := (l.map Entry.size).sum

/-- Remove some of the entries. -/
def Directory.without (dir : Directory) (removed : List Entry) : Directory :=
  dir.retain (fun path file => decide ((path, file) ∉ removed))

/-! ### Cleaning up -/

/-- The loop that evicts: a file that cannot be removed is passed over. -/
def evict (removable : Str → Bool) (maxBytes : Nat) : List Entry → (totalSize : Nat) → List Entry
  | [], _ => []
  | e :: es, totalSize =>
    if totalSize ≤ maxBytes then []
    else if removable e.1 then e :: evict removable maxBytes es (totalSize - e.size)
    else evict removable maxBytes es totalSize

section Cleanup

variable (dir : Directory) (now maxMb maxDays : Nat) (removable : Str → Bool)

def maxBytes : Nat := maxMb * 1024 * 1024

def maxAge : Nat := maxDays * 24 * 60 * 60 * 10 ^ 9

def isOld (e : Entry) : Bool := maxAge maxDays < now - e.stamp now

def old : List Entry := dir.files.filter (isOld now maxDays)

/-- The others, oldest first. -/
def surviving : List Entry :=
  (dir.files.filter (fun e => !isOld now maxDays e)).mergeSort
    (fun a b => decide (a.stamp now ≤ b.stamp now))

def evicted : List Entry :=
  evict removable (maxBytes maxMb) (surviving dir now maxDays) (bytes (surviving dir now maxDays))

def removal : List Entry :=
  (old dir now maxDays).filter (fun e => removable e.1) ++
    evicted dir now maxMb maxDays removable

/-- `cleanup_in` -/
def cleanupIn : CleanupStats × Directory :=
  let removed := removal dir now maxMb maxDays removable
  (⟨removed.length, bytes removed⟩, dir.without removed)

end Cleanup

/-- `stats_in`: the number of files, their size, and the age of the oldest in seconds. -/
def statsIn (dir : Directory) (now : Nat) : Nat × Nat × Nat :=
  (dir.files.length, bytes dir.files,
    (dir.files.map (fun e => now - e.stamp now)).foldl max 0 / 10 ^ 9)

/-- `clear_in` -/
def clearIn (dir : Directory) (removable : Str → Bool) : Nat × Directory :=
  let removed := dir.files.filter (fun e => removable e.1)
  (removed.length, dir.without removed)

/-! ### Looking up -/

/-- `KNOWN_EXTENSIONS` -/
def knownExtensions : List Str :=
  [str ".jpg", str ".jpeg", str ".png", str ".gif", str ".webp", str ".bmp", str ".bin"]

def extensionForContentType (contentType : Str) : Str :=
  let mime := Text.trim (contentType.takeWhile (fun c => decide (c ≠ ';')))
  if mime = str "image/jpeg" then str ".jpg"
  else if mime = str "image/png" then str ".png"
  else if mime = str "image/gif" then str ".gif"
  else if mime = str "image/webp" then str ".webp"
  else if mime = str "image/bmp" then str ".bmp"
  else str ".bin"

section Lookup

variable (urlHash : Str → Str)

/-- `is_cached_in`: the first file of the URL, in the order of the extensions. -/
def isCachedIn (dir : Directory) (url : Str) : Option Str :=
  (knownExtensions.map (urlHash url ++ ·)).find?
    (fun path => (dir.lookup path).any File.isFile)

/-- `store_in`, with the size of the data -/
def storeIn (dir : Directory) (now : Nat) (url : Str) (size : Nat) (contentType : Str) :
    Str × Directory :=
  let path := urlHash url ++ extensionForContentType contentType
  (path, dir.insert path ⟨true, size, some now⟩)

theorem extension_known (contentType : Str) :
    extensionForContentType contentType ∈ knownExtensions := by
  rw [extensionForContentType]
  repeat' split
  all_goals decide

/-- **What is stored is found**, and no other URL is answered with it: hashes have one length. -/
theorem isCachedIn_storeIn {n : Nat} (hlength : ∀ url, (urlHash url).length = n) (dir : Directory)
    (now : Nat) (url : Str) (size : Nat) (contentType : Str) :
    let dir' := (storeIn urlHash dir now url size contentType).2
    (isCachedIn urlHash dir' url).isSome ∧
      ∀ url', urlHash url' ≠ urlHash url →
        isCachedIn urlHash dir' url' = isCachedIn urlHash dir url' := by
  intro dir'
  refine ⟨List.find?_isSome.mpr ⟨urlHash url ++ extensionForContentType contentType,
    List.mem_map_of_mem (extension_known contentType), ?_⟩, fun url' hne => ?_⟩
  · show Option.any File.isFile (Dict.lookup (Dict.insert dir _ _) _) = true
    rw [Dict.lookup_insert, if_pos rfl]
    rfl
  · refine List.find?_congr (fun path hpath => ?_)
    obtain ⟨ext, -, rfl⟩ := List.mem_map.mp hpath
    show Option.any File.isFile (Dict.lookup (Dict.insert dir _ _) _) = _
    rw [Dict.lookup_insert, if_neg]
    intro heq
    exact hne (List.append_inj heq ((hlength url).trans (hlength url').symm)).1.symm

end Lookup

/-! ### Statistics -/

theorem nodup_files (dir : Directory) : dir.files.Nodup :=
  (List.Nodup.of_map _ dir.nodup).filter _

theorem files_without (dir : Directory) (removed : List Entry) :
    (dir.without removed).files = dir.files.filter (fun e => decide (e ∉ removed)) := by
  rw [Directory.files, Directory.files, List.filter_comm]
  refine congrArg (List.filter _) ?_
  show dir.rows.filter _ = _
  refine List.filter_congr (fun e _ => ?_)
  simp

/-- Files that are removed, each once, are missing in number and in size. -/
theorem files_of_without {dir : Directory} {removed : List Entry} (hnodup : removed.Nodup)
    (hsub : ∀ e ∈ removed, e ∈ dir.files) :
    (dir.without removed).files.length + removed.length = dir.files.length ∧
      bytes (dir.without removed).files + bytes removed = bytes dir.files := by
  have hremoved : (dir.files.filter (fun e => decide (e ∈ removed))).Perm removed := by
    refine (List.perm_ext_iff_of_nodup ((nodup_files dir).filter _) hnodup).mpr (fun e => ?_)
    rw [List.mem_filter, decide_eq_true_eq]
    exact ⟨fun h => h.2, fun h => ⟨hsub e h, h⟩⟩
  have hsplit : ((dir.without removed).files ++ removed).Perm dir.files := by
    rw [files_without]
    refine (hremoved.symm.append_left _).trans (List.perm_append_comm.trans ?_)
    have h := List.filter_append_perm (fun e => decide (e ∈ removed)) dir.files
    simpa using h
  refine ⟨?_, ?_⟩
  · rw [← List.length_append]
    exact hsplit.length_eq
  · rw [bytes, bytes, bytes, ← List.sum_append, ← List.map_append]
    exact (hsplit.map Entry.size).sum_eq

section Cleanup

variable (dir : Directory) (now maxMb maxDays : Nat) (removable : Str → Bool)

theorem evict_sublist (maxBytes : Nat) (l : List Entry) : ∀ totalSize : Nat,
    (evict removable maxBytes l totalSize).Sublist l := by
  induction l with
  | nil => exact fun _ => .slnil
  | cons e l ih =>
    intro totalSize
    rw [evict]
    split
    · exact List.nil_sublist _
    · split
      · exact (ih _).cons_cons e
      · exact (ih _).cons e

theorem removable_of_mem_evict {maxBytes : Nat} {e : Entry} {l : List Entry} :
    ∀ {totalSize : Nat}, e ∈ evict removable maxBytes l totalSize → removable e.1 = true := by
  induction l with
  | nil => exact fun h => absurd h List.not_mem_nil
  | cons x l ih =>
    intro totalSize h
    rw [evict] at h
    split at h
    · exact absurd h List.not_mem_nil
    · split at h
      · rename_i hx
        rcases List.mem_cons.mp h with rfl | h
        · exact hx
        · exact ih h
      · exact ih h

theorem perm_surviving : (surviving dir now maxDays).Perm
    (dir.files.filter (fun e => !isOld now maxDays e)) := List.mergeSort_perm _ _

theorem removal_subset : ∀ e ∈ removal dir now maxMb maxDays removable, e ∈ dir.files := by
  intro e he
  rcases List.mem_append.mp he with he | he
  · exact (List.mem_filter.mp (List.mem_filter.mp he).1).1
  · have hin := (evict_sublist removable _ _ _).subset he
    exact (List.mem_filter.mp ((perm_surviving dir now maxDays).mem_iff.mp hin)).1

theorem nodup_removal : (removal dir now maxMb maxDays removable).Nodup := by
  have hall : (old dir now maxDays ++ surviving dir now maxDays).Nodup := by
    refine (((perm_surviving dir now maxDays).append_left _).trans
      (List.filter_append_perm _ _)).nodup_iff.mpr (nodup_files dir)
  exact hall.sublist (List.filter_sublist.append (evict_sublist removable _ _ _))

end Cleanup

/-- **The statistics of a cleanup are exact**, whichever files cannot be removed: they are the
difference of the statistics of the cache before and after. Nothing else of the directory
changes. -/
theorem cleanup_exact (dir : Directory) (now maxMb maxDays : Nat) (removable : Str → Bool) :
    let r := cleanupIn dir now maxMb maxDays removable
    (statsIn r.2 now).1 + r.1.filesRemoved = (statsIn dir now).1 ∧
      (statsIn r.2 now).2.1 + r.1.bytesFreed = (statsIn dir now).2.1 ∧
      (∀ path file, r.2.lookup path = some file → dir.lookup path = some file) ∧
      ∀ path file, dir.lookup path = some file → removable path = false ∨ file.isFile = false →
        r.2.lookup path = some file := by
  intro r
  obtain ⟨hlength, hbytes⟩ := files_of_without (nodup_removal dir now maxMb maxDays removable)
    (removal_subset dir now maxMb maxDays removable)
  refine ⟨hlength, hbytes, fun path file h => ?_, fun path file h hstays => ?_⟩
  · have h : (dir.without _).lookup path = some file := h
    rw [Directory.without, Dict.lookup_retain, Option.filter_eq_some_iff] at h
    exact h.1
  · show (dir.without _).lookup path = some file
    rw [Directory.without, Dict.lookup_retain, Option.filter_eq_some_iff]
    refine ⟨h, decide_eq_true (fun hin => ?_)⟩
    rcases hstays with hstays | hstays
    · have hremovable : ∀ e ∈ removal dir now maxMb maxDays removable, removable e.1 = true := by
        intro e he
        rcases List.mem_append.mp he with he | he
        · exact (List.mem_filter.mp he).2
        · exact removable_of_mem_evict removable he
      rw [hremovable _ hin] at hstays
      cases hstays
    · have hfile := (List.mem_filter.mp (removal_subset _ _ _ _ _ _ hin)).2
      rw [show (path, file).2.isFile = file.isFile from rfl, hstays] at hfile
      cases hfile

/-! ### Eviction -/

/-- **What the loop does** when every file can be removed: it takes a front of the list, after
which the rest fits, but not with the last of the front. -/
theorem evict_all (maxBytes : Nat) (l : List Entry) :
    ∃ rest, l = evict (fun _ => true) maxBytes l (bytes l) ++ rest ∧ bytes rest ≤ maxBytes ∧
      (evict (fun _ => true) maxBytes l (bytes l) = [] ∨ ∃ front last,
        evict (fun _ => true) maxBytes l (bytes l) = front ++ [last] ∧
          maxBytes < bytes rest + last.size) := by
  induction l with
  | nil => exact ⟨[], rfl, Nat.zero_le _, .inl rfl⟩
  | cons e l ih =>
    have hbytes : bytes (e :: l) = e.size + bytes l := by
      rw [bytes, List.map_cons, List.sum_cons, bytes]
    rw [evict, hbytes]
    by_cases hfits : e.size + bytes l ≤ maxBytes
    · rw [if_pos hfits]
      exact ⟨e :: l, rfl, hbytes ▸ hfits, .inl rfl⟩
    · obtain ⟨rest, hl, hrest, hlast⟩ := ih
      rw [if_neg hfits, if_pos rfl, Nat.add_sub_cancel_left]
      refine ⟨rest, by rw [List.cons_append, ← hl], hrest, .inr ?_⟩
      rcases hlast with hnone | ⟨front, last, hfront, hlast⟩
      · refine ⟨[], e, by rw [hnone]; rfl, ?_⟩
        rw [hnone, List.nil_append] at hl
        rw [← hl]
        omega
      · exact ⟨e :: front, last, by rw [hfront]; rfl, hlast⟩

theorem sorted_surviving (dir : Directory) (now maxDays : Nat) :
    (surviving dir now maxDays).Pairwise (fun a b => a.stamp now ≤ b.stamp now) := by
  have hsorted := @List.pairwise_mergeSort Entry
    (fun a b => decide (a.stamp now ≤ b.stamp now))
    (fun a b c hab hbc => by simp only [decide_eq_true_eq] at *; omega)
    (fun a b => by simp only [Bool.or_eq_true, decide_eq_true_eq]; omega)
    (dir.files.filter (fun e => !isOld now maxDays e))
  exact hsorted.imp (fun h => of_decide_eq_true h)

/-- **A cleanup evicts the oldest files, and none too many**: when every file can be removed, what
stays is not old and fits, what goes is old or not newer than anything that stays, and the newest
file that is evicted would not have fitted. -/
theorem cleanup_evicts (dir : Directory) (now maxMb maxDays : Nat) :
    let r := (cleanupIn dir now maxMb maxDays (fun _ => true)).2
    (∀ e ∈ r.files, isOld now maxDays e = false) ∧ bytes r.files ≤ maxBytes maxMb ∧
      (∀ e ∈ dir.files, e ∉ r.files → isOld now maxDays e = false →
        ∀ x ∈ r.files, e.stamp now ≤ x.stamp now) ∧
      ((∀ e ∈ dir.files, e ∉ r.files → isOld now maxDays e = true) ∨
        ∃ e ∈ dir.files, e ∉ r.files ∧ isOld now maxDays e = false ∧
          (∀ x ∈ dir.files, x ∉ r.files → isOld now maxDays x = false →
            x.stamp now ≤ e.stamp now) ∧ maxBytes maxMb < bytes r.files + e.size) := by
  intro r
  obtain ⟨rest, hsplit, hfits, hlast⟩ :=
    evict_all (maxBytes maxMb) (surviving dir now maxDays)
  have hevicted : evict (fun _ => true) (maxBytes maxMb) (surviving dir now maxDays)
      (bytes (surviving dir now maxDays)) = evicted dir now maxMb maxDays (fun _ => true) := rfl
  rw [hevicted] at hsplit hlast
  generalize hgone : evicted dir now maxMb maxDays (fun _ => true) = gone at hsplit hlast
  have hperm : (old dir now maxDays ++ (gone ++ rest)).Perm dir.files := by
    rw [← hsplit]
    exact ((perm_surviving dir now maxDays).append_left _).trans (List.filter_append_perm _ _)
  have hnodup : (old dir now maxDays ++ (gone ++ rest)).Nodup :=
    hperm.nodup_iff.mpr (nodup_files dir)
  obtain ⟨-, hrestnodup, hdisjoint⟩ := List.nodup_append.mp hnodup
  obtain ⟨-, hrestnodup, hdisjoint'⟩ := List.nodup_append.mp hrestnodup
  have hyoung : ∀ e ∈ gone ++ rest, isOld now maxDays e = false := by
    intro e he
    rw [← hsplit] at he
    simpa using (List.mem_filter.mp ((perm_surviving dir now maxDays).mem_iff.mp he)).2
  -- what stays is the rest
  have hmem : ∀ e, e ∈ r.files ↔ e ∈ rest := by
    intro e
    show e ∈ (dir.without (removal dir now maxMb maxDays (fun _ => true))).files ↔ _
    rw [files_without, List.mem_filter, decide_eq_true_eq, removal, hgone, List.filter_true,
      ← hperm.mem_iff, List.mem_append, List.mem_append, List.mem_append, not_or]
    constructor
    · rintro ⟨h | h | h, hold, hne⟩
      · exact absurd h hold
      · exact absurd h hne
      · exact h
    · intro h
      exact ⟨.inr (.inr h), fun ho => hdisjoint e ho e (List.mem_append_right gone h) rfl,
        fun hg => hdisjoint' e hg e h rfl⟩
  have hrest : r.files.Perm rest :=
    (List.perm_ext_iff_of_nodup (nodup_files r) hrestnodup).mpr hmem
  have hbytes : bytes r.files = bytes rest := (hrest.map Entry.size).sum_eq
  have hremoved : ∀ e ∈ dir.files, e ∉ r.files → isOld now maxDays e = false → e ∈ gone := by
    intro e he hne hnot
    rw [hmem] at hne
    rw [← hperm.mem_iff, List.mem_append, List.mem_append] at he
    rcases he with h | h | h
    · rw [(List.mem_filter.mp h).2] at hnot
      cases hnot
    · exact h
    · exact absurd h hne
  have hsorted := sorted_surviving dir now maxDays
  rw [hsplit] at hsorted
  obtain ⟨hsortedGone, -, hcross⟩ := List.pairwise_append.mp hsorted
  refine ⟨fun e he => hyoung e (List.mem_append_right gone ((hmem e).mp he)), hbytes ▸ hfits,
    fun e he hne hnot x hx => hcross e (hremoved e he hne hnot) x ((hmem x).mp hx), ?_⟩
  rcases hlast with rfl | ⟨front, last, rfl, hlast⟩
  · refine .inl (fun e he hne => ?_)
    cases hold : isOld now maxDays e with
    | true => rfl
    | false => exact absurd (hremoved e he hne hold) List.not_mem_nil
  · have hin : last ∈ front ++ [last] := List.mem_append_right front List.mem_cons_self
    refine .inr ⟨last, hperm.mem_iff.mp
      (List.mem_append_right _ (List.mem_append_left rest hin)), ?_,
      hyoung last (List.mem_append_left rest hin), fun x hx hne hnot => ?_, hbytes ▸ hlast⟩
    · rw [hmem]
      exact fun h => hdisjoint' last hin last h rfl
    · rcases List.mem_append.mp (hremoved x hx hne hnot) with hx | hx
      · exact (List.pairwise_append.mp hsortedGone).2.2 x hx last List.mem_cons_self
      · rw [List.mem_singleton.mp hx]

/-- `clear_in` counts what it removes, and leaves what cannot be removed. -/
theorem clearIn_exact (dir : Directory) (removable : Str → Bool) :
    let r := clearIn dir removable
    r.2.files.length + r.1 = dir.files.length ∧ ∀ e ∈ r.2.files, removable e.1 = false := by
  intro r
  refine ⟨(files_of_without ((nodup_files dir).filter _)
    (fun e he => (List.mem_filter.mp he).1)).1, fun e he => ?_⟩
  have he : e ∈ (dir.without _).files := he
  rw [files_without, List.mem_filter, decide_eq_true_eq, List.mem_filter, not_and] at he
  simpa using he.2 he.1

end Repartee.Web.ImageCache
