import Repartee.Lib.Text
import Repartee.Storage.Query

/-!
# Scrolling back in the web client

The web client asks for the page before the oldest row it has. `web_fetch_messages` selects one
row more than a page has, to see whether there is more, and then drops a row of the page that it
has put into chronological order: the newest one. The next page begins before the oldest row, so
that the dropped row never comes.

## Main definitions

- `webFetchStored`: the part of `web_fetch_messages` that reads the database
- `Scrolls`: a scroll-back from the first page to the last
- `Lossless`: every row once, every page in order and with the newest rows before its cursor

## Main results

- `lossless_iff`: a scroll-back is lossless exactly when the buffer fits in one page
-/

set_option autoImplicit false

namespace Repartee.Storage

def splitBufferId (bufferId : Str) : Str × Str :=
  (Text.splitOnce '/' bufferId).getD (bufferId, bufferId)

section Fetch

variable {Key : Type} (cipher : Cipher Key) (db : List Row) (orderDesc : List Row → List Row)

/-- The page of a buffer before a cursor, and whether there is more. `labels` are the labels of
the connections. -/
def webFetchStored (labels : Str → Option Str) (encrypt : Bool) (bufferId : Str) (limit : Nat)
    (before : Option Int) : Option (List StoredMessage × Bool) :=
  let cappedLimit := min limit 500
  let (connId, buffer) := splitBufferId bufferId
  let network := (labels connId).getD connId
  (getMessages cipher db orderDesc network buffer before (cappedLimit + 1) encrypt none).map
    (fun msgs => (msgs.take cappedLimit, decide (cappedLimit < msgs.length)))

/-- A page and the cursor it was asked for with. -/
abbrev Page := Option Int × List StoredMessage

/-- The pages from a cursor on: while there is more, the next one is before the oldest row. -/
inductive Scrolls (fetch : Option Int → Option (List StoredMessage × Bool)) :
    Option Int → List Page → Prop where
  | last {before : Option Int} {page : List StoredMessage} (h : fetch before = some (page, false)) :
    Scrolls fetch before [(before, page)]
  | more {before : Option Int} {oldest : StoredMessage} {page : List StoredMessage}
    {pages : List Page} (h : fetch before = some (oldest :: page, true))
    (hnext : Scrolls fetch (some oldest.timestamp) pages) :
    Scrolls fetch before ((before, oldest :: page) :: pages)

/-- The messages of a buffer before a cursor. -/
def stored (network buffer : Str) (before : Option Int) : List StoredMessage :=
  (older db network buffer before).map (readRow db)

structure Lossless (network buffer : Str) (limit : Nat) (pages : List Page) : Prop where
  once : (pages.flatMap Prod.snd).Perm (stored db network buffer none)
  chronological : ∀ p ∈ pages, p.2.Pairwise (fun m m' => m.timestamp ≤ m'.timestamp)
  length : ∀ p ∈ pages, p.2.length = min limit (stored db network buffer p.1).length
  newest : ∀ p ∈ pages, ∀ m ∈ p.2, m ∈ stored db network buffer p.1 ∧
    ∀ m' ∈ stored db network buffer p.1, m' ∉ p.2 → m'.timestamp ≤ m.timestamp

end Fetch

/-! ### One page -/

section Page

variable {Key : Type} {cipher : Cipher Key} {db : List Row} {orderDesc : List Row → List Row}
  {labels : Str → Option Str} {encrypt : Bool} {bufferId : Str} {limit : Nat}

/-- The network and the buffer that an id stands for. -/
def addressed (labels : Str → Option Str) (bufferId : Str) : Str × Str :=
  ((labels (splitBufferId bufferId).1).getD (splitBufferId bufferId).1, (splitBufferId bufferId).2)

/-- The rows of a buffer before a cursor, the newest first. -/
def newestFirst (db : List Row) (orderDesc : List Row → List Row) (labels : Str → Option Str)
    (bufferId : Str) (before : Option Int) : List StoredMessage :=
  (orderDesc (older db (addressed labels bufferId).1 (addressed labels bufferId).2 before)).map
    (readRow db)

theorem webFetchStored_eq (hlimit : limit ≤ 500) (before : Option Int) :
    webFetchStored cipher db orderDesc labels encrypt bufferId limit before =
      some (((newestFirst db orderDesc labels bufferId before).take (limit + 1)).reverse.take limit,
        decide (limit < (newestFirst db orderDesc labels bufferId before).length)) := by
  rw [webFetchStored, Nat.min_eq_left hlimit]
  simp only [getMessages_none, Option.map_some, newestFirst, addressed, ← List.map_take,
    List.length_reverse, List.length_map, List.length_take]
  rw [Option.some.injEq, Prod.mk.injEq]
  refine ⟨rfl, decide_eq_decide.mpr ?_⟩
  omega

theorem newestFirst_perm (db : List Row) (horder : OrdersDesc orderDesc)
    (labels : Str → Option Str) (bufferId : Str) (before : Option Int) :
    (newestFirst db orderDesc labels bufferId before).Perm
      (stored db (addressed labels bufferId).1 (addressed labels bufferId).2 before) :=
  (horder.perm _).map _

theorem newestFirst_sorted (db : List Row) (horder : OrdersDesc orderDesc)
    (labels : Str → Option Str) (bufferId : Str) (before : Option Int) :
    (newestFirst db orderDesc labels bufferId before).Pairwise
      (fun m m' => m'.timestamp ≤ m.timestamp) :=
  List.pairwise_map.mpr (horder.sorted _)

/-- Where everything fits, the page has everything and is the last one. -/
theorem fetch_of_le (hlimit : limit ≤ 500) {before : Option Int}
    (hfits : (newestFirst db orderDesc labels bufferId before).length ≤ limit) :
    webFetchStored cipher db orderDesc labels encrypt bufferId limit before =
      some ((newestFirst db orderDesc labels bufferId before).reverse, false) := by
  have hall : (newestFirst db orderDesc labels bufferId before).take (limit + 1) =
      newestFirst db orderDesc labels bufferId before := List.take_of_length_le (by omega)
  rw [webFetchStored_eq hlimit, hall, List.take_of_length_le (by rwa [List.length_reverse]),
    decide_eq_false (by omega)]

/-- Where more is left, the page ends before the newest row. -/
theorem fetch_of_lt (hlimit : limit ≤ 500) {before : Option Int} {newest : StoredMessage}
    {rest : List StoredMessage}
    (hrows : newestFirst db orderDesc labels bufferId before = newest :: rest)
    (hmore : limit < (newest :: rest).length) :
    webFetchStored cipher db orderDesc labels encrypt bufferId limit before =
      some ((rest.take limit).reverse, true) := by
  rw [webFetchStored_eq hlimit, hrows, List.take_succ_cons, List.reverse_cons,
    decide_eq_true hmore, List.take_left' ?_]
  rw [List.length_reverse, List.length_take]
  rw [List.length_cons] at hmore
  omega

theorem mem_stored {network buffer : Str} {before : Option Int} {m : StoredMessage}
    (hm : m ∈ stored db network buffer before) {ts : Int} (hts : before = some ts) :
    m.timestamp < ts := by
  obtain ⟨row, hrow, rfl⟩ := List.mem_map.mp hm
  exact (mem_older.mp hrow).2.2.2 ts hts

theorem mem_stored_of_fetch (horder : OrdersDesc orderDesc) (hlimit : limit ≤ 500)
    {before : Option Int} {page : List StoredMessage} {more : Bool}
    (hfetch : webFetchStored cipher db orderDesc labels encrypt bufferId limit before =
      some (page, more)) {m : StoredMessage} (hm : m ∈ page) :
    m ∈ stored db (addressed labels bufferId).1 (addressed labels bufferId).2 before := by
  rw [webFetchStored_eq hlimit, Option.some.injEq, Prod.mk.injEq] at hfetch
  rw [← hfetch.1] at hm
  have hselected := List.mem_reverse.mp (List.mem_of_mem_take hm)
  exact (newestFirst_perm db horder labels bufferId before).mem_iff.mp
    (List.mem_of_mem_take hselected)

/-- A scroll-back from a cursor on only has older rows. -/
theorem Scrolls.older (horder : OrdersDesc orderDesc) (hlimit : limit ≤ 500)
    {before : Option Int} {pages : List Page}
    (h : Scrolls (webFetchStored cipher db orderDesc labels encrypt bufferId limit) before pages)
    {ts : Int} (hts : before = some ts) :
    ∀ m ∈ pages.flatMap Prod.snd, m.timestamp < ts := by
  induction h generalizing ts with
  | last hfetch =>
    intro m hm
    rw [List.flatMap_singleton] at hm
    exact mem_stored (mem_stored_of_fetch horder hlimit hfetch hm) hts
  | more hfetch hnext ih =>
    intro m hm
    have hpage := fun m hm => mem_stored (m := m)
      (mem_stored_of_fetch horder hlimit hfetch hm) hts
    rw [List.flatMap_cons] at hm
    rcases List.mem_append.mp hm with hm | hm
    · exact hpage m hm
    · exact (ih rfl m hm).trans (hpage _ List.mem_cons_self)

/-- A buffer that fits in one page comes as a whole. -/
theorem lossless_of_fits (horder : OrdersDesc orderDesc) (hlimit : limit ≤ 500)
    (hfits : (stored db (addressed labels bufferId).1 (addressed labels bufferId).2 none).length ≤
      limit) :
    ∃ pages, Scrolls (webFetchStored cipher db orderDesc labels encrypt bufferId limit) none pages ∧
      Lossless db (addressed labels bufferId).1 (addressed labels bufferId).2 limit pages := by
  have hperm := newestFirst_perm db horder labels bufferId none
  have hlength := hperm.length_eq
  refine ⟨_, Scrolls.last (fetch_of_le hlimit (by omega)), ?_, ?_, ?_, ?_⟩
  · rw [List.flatMap_singleton]
    exact (List.reverse_perm _).trans hperm
  · intro p hp
    rw [List.mem_singleton.mp hp]
    exact List.pairwise_reverse.mpr (newestFirst_sorted db horder labels bufferId none)
  · intro p hp
    rw [List.mem_singleton.mp hp, List.length_reverse]
    exact hlength.trans (Nat.min_eq_right hfits).symm
  · intro p hp m hm
    rw [List.mem_singleton.mp hp] at hm ⊢
    refine ⟨hperm.mem_iff.mp (List.mem_reverse.mp hm), fun m' hm' hout => ?_⟩
    exact absurd (List.mem_reverse.mpr (hperm.mem_iff.mpr hm')) hout

/-- A buffer that does not fit loses its newest row. -/
theorem not_lossless_of_lt (horder : OrdersDesc orderDesc) (hlimit : limit ≤ 500)
    (hmore : limit < (stored db (addressed labels bufferId).1 (addressed labels bufferId).2
      none).length) {pages : List Page}
    (hscrolls : Scrolls (webFetchStored cipher db orderDesc labels encrypt bufferId limit) none
      pages) :
    ¬ (pages.flatMap Prod.snd).Perm
      (stored db (addressed labels bufferId).1 (addressed labels bufferId).2 none) := by
  intro honce
  have hperm := newestFirst_perm db horder labels bufferId none
  have hsorted := newestFirst_sorted db horder labels bufferId none
  cases hrows : newestFirst db orderDesc labels bufferId none with
  | nil =>
    rw [← hperm.length_eq, hrows] at hmore
    cases hmore
  | cons newest rest =>
    rw [hrows] at hperm hsorted
    rw [← hperm.length_eq] at hmore
    cases hscrolls with
    | last h =>
      rw [fetch_of_lt hlimit hrows hmore] at h
      cases h
    | @more _ oldest page later h hnext =>
      rw [fetch_of_lt hlimit hrows hmore, Option.some.injEq, Prod.mk.injEq] at h
      have hpage : rest.take limit = page.reverse ++ [oldest] := by
        rw [← List.reverse_reverse (rest.take limit), h.1, List.reverse_cons]
      have hfull : page.length + 1 = limit := by
        have hlength := congrArg List.length hpage
        rw [List.length_take, List.length_append, List.length_reverse, List.length_singleton]
          at hlength
        rw [List.length_cons] at hmore
        omega
      -- the rows that are not older than the oldest of the page: one of them is nowhere
      have hselected : ∀ m ∈ newest :: rest.take limit,
          decide (oldest.timestamp ≤ m.timestamp) = true := by
        have hchain : (newest :: rest.take limit).Pairwise
            (fun m m' => m'.timestamp ≤ m.timestamp) :=
          hsorted.sublist ((List.take_sublist limit rest).cons_cons newest)
        rw [hpage, ← List.cons_append] at hchain ⊢
        intro m hm
        rcases List.mem_append.mp hm with hm | hm
        · exact decide_eq_true ((List.pairwise_append.mp hchain).2.2 m hm oldest (by simp))
        · rw [List.mem_singleton.mp hm]
          exact decide_eq_true (Int.le_refl _)
      have hall : limit + 1 ≤ (newest :: rest).countP
          (fun m => decide (oldest.timestamp ≤ m.timestamp)) := by
        have hsub := List.Sublist.countP_le (p := fun m => decide (oldest.timestamp ≤ m.timestamp))
          ((List.take_sublist limit rest).cons_cons newest)
        rw [List.countP_eq_length.mpr hselected, List.length_cons, hpage, List.length_append,
          List.length_reverse, List.length_singleton] at hsub
        omega
      have hlater : (later.flatMap Prod.snd).countP
          (fun m => decide (oldest.timestamp ≤ m.timestamp)) = 0 := by
        refine List.countP_eq_zero.mpr (fun m hm hle => ?_)
        have hlt := hnext.older horder hlimit rfl m hm
        have hge := of_decide_eq_true hle
        omega
      have hfirst := List.countP_le_length
        (p := fun m => decide (oldest.timestamp ≤ m.timestamp)) (l := oldest :: page)
      have hcount := (honce.trans hperm.symm).countP_eq
        (fun m => decide (oldest.timestamp ≤ m.timestamp))
      rw [List.flatMap_cons, List.countP_append, hlater] at hcount
      rw [List.length_cons] at hfirst
      simp only at hcount
      omega

end Page

/-- A scroll-back through the log of a buffer is lossless exactly when the log fits in one page. -/
theorem lossless_iff {Key : Type} (cipher : Cipher Key) (db : List Row)
    (orderDesc : List Row → List Row) (horder : OrdersDesc orderDesc) (labels : Str → Option Str)
    (encrypt : Bool) (bufferId : Str) (limit : Nat) (hlimit : 1 ≤ limit ∧ limit ≤ 500) :
    (∃ pages, Scrolls (webFetchStored cipher db orderDesc labels encrypt bufferId limit) none
        pages ∧
      Lossless db (addressed labels bufferId).1 (addressed labels bufferId).2 limit pages) ↔
      (stored db (addressed labels bufferId).1 (addressed labels bufferId).2 none).length ≤
        limit := by
  constructor
  · rintro ⟨pages, hscrolls, hlossless⟩
    by_contra hmore
    exact not_lossless_of_lt horder hlimit.2 (by omega) hscrolls hlossless.once
  · exact lossless_of_fits horder hlimit.2

/-- The cipher that changes nothing. -/
def plainCipher : Cipher Unit where
  encrypt text _ _ := some text
  decrypt ciphertext _ _ := some ciphertext

def sampleRow (id : Nat) (timestamp : Int) (text : String) : Row where
  id := id
  msgId := Nat.toDigits 10 id
  network := str "libera"
  buffer := str "#rust"
  timestamp := timestamp
  msgType := str "message"
  nick := some (str "ada")
  text := str text
  highlight := false
  iv := none
  refId := none
  tags := none
  eventKey := none

/-- Two messages, a second apart. -/
def sampleLog : List Row := [sampleRow 1 10 "one", sampleRow 2 11 "two"]

theorem lossless_sampleLog : ∃ pages,
    Scrolls (webFetchStored plainCipher sampleLog byTimestamp (fun _ => none) false
      (str "libera/#rust") 2) none pages ∧
    Lossless sampleLog (str "libera") (str "#rust") 2 pages :=
  (lossless_iff plainCipher sampleLog byTimestamp ordersDesc_byTimestamp (fun _ => none) false
    (str "libera/#rust") 2 (by decide)).mpr (by decide)

/-- With pages of one row the newest message never comes. -/
theorem scrollback_loses_newest :
    Scrolls (webFetchStored plainCipher sampleLog byTimestamp (fun _ => none) false
      (str "libera/#rust") 1) none
      [(none, [readRow sampleLog (sampleRow 1 10 "one")]), (some 10, [])] ∧
    ∀ pages, Scrolls (webFetchStored plainCipher sampleLog byTimestamp (fun _ => none) false
      (str "libera/#rust") 1) none pages →
      ¬ Lossless sampleLog (str "libera") (str "#rust") 1 pages := by
  refine ⟨Scrolls.more (by decide) (Scrolls.last (by decide)), fun pages hscrolls hlossless => ?_⟩
  exact not_lossless_of_lt ordersDesc_byTimestamp (by decide) (by decide) hscrolls hlossless.once

end Repartee.Storage
