import Mathlib

/-!
# The lines in the chat view

`ui/chat_view.rs` wraps the messages of a buffer from the newest on until it has more lines than a
budget, and shows what the scroll offset selects of these. The budget is bounded by sixteen lines
a message.

## Main definitions

- `computeRenderBudget`, `renderLines`: the lines that are shown
- `fullLines`: the lines that are shown when all messages are wrapped
- `Scrollback`: the numbers of lines that the messages of a buffer wrap to
- `Within`: no messages outgrow the bound on the budget unnoticed

## Main results

- `Scrollback.renderLines_eq_iff`: when the view shows what it should
- `Scrollback.reachable_iff`: when every line can be scrolled to
-/

set_option autoImplicit false

namespace Repartee

namespace ChatView

variable {α : Type}

/-! ### The view -/

/-- The largest `usize`. -/
def usizeMax : Nat := 2 ^ 64 - 1

def saturatingAdd (a b : Nat) : Nat := min (a + b) usizeMax

def saturatingMul (a b : Nat) : Nat := min (a * b) usizeMax

def maxWrappedLinesPerMsg : Nat := 16

/-- `compute_render_budget` -/
def computeRenderBudget (bufferLen visibleHeight scrollOffset : Nat) : Nat :=
  let cap := max (saturatingMul bufferLen maxWrappedLinesPerMsg) visibleHeight
  min (saturatingAdd visibleHeight scrollOffset) cap

/-- Collect the lines of messages, newest first, until there are more than needed. -/
def collect (needed : Nat) : (newestFirst : List (List α)) → (visualLines : List α) → List α
  | [], visualLines => visualLines
  | wrapped :: older, visualLines =>
    if needed < (wrapped ++ visualLines).length then wrapped ++ visualLines
    else collect needed older (wrapped ++ visualLines)

/-- What a scroll offset, clamped, selects of some lines. -/
def visibleLines (lines : List α) (visibleHeight scrollOffset : Nat) : List α :=
  let total := lines.length
  let maxScroll := total - visibleHeight
  let scroll := min scrollOffset maxScroll
  let skip := total - (visibleHeight + scroll)
  (lines.drop skip).take visibleHeight

/-- `render`: the lines shown of messages that are wrapped to the given lines. -/
def renderLines (wrapped : List (List α)) (visibleHeight scrollOffset : Nat) : List α :=
  let needed := computeRenderBudget wrapped.length visibleHeight scrollOffset
  visibleLines (collect needed wrapped.reverse []) visibleHeight scrollOffset

/-- The lines shown when all messages are wrapped. -/
def fullLines (wrapped : List (List α)) (visibleHeight scrollOffset : Nat) : List α :=
  visibleLines wrapped.flatten visibleHeight scrollOffset

/-! ### What is collected -/

/-- Either everything is collected, or the newest messages with more lines than needed. -/
theorem collect_cases (needed : Nat) (newestFirst : List (List α)) (acc : List α) :
    ∃ recent older, newestFirst = recent ++ older ∧
      collect needed newestFirst acc = recent.reverse.flatten ++ acc ∧
      (older = [] ∨ needed < (recent.reverse.flatten ++ acc).length) := by
  induction newestFirst generalizing acc with
  | nil => exact ⟨[], [], rfl, rfl, Or.inl rfl⟩
  | cons wrapped older ih =>
    rw [collect]
    split
    · rename_i hmore
      exact ⟨[wrapped], older, rfl, by simp, Or.inr (by simpa using hmore)⟩
    · obtain ⟨recent, rest, heq, hlines, hstop⟩ := ih (wrapped ++ acc)
      refine ⟨wrapped :: recent, rest, by rw [heq]; rfl, by simpa using hlines, ?_⟩
      simpa using hstop

/-- No more is collected than messages that have more lines than needed. -/
theorem length_collect_le {needed : Nat} (recent older : List (List α)) (acc : List α)
    (hacc : acc.length ≤ needed) (h : needed < (recent.reverse.flatten ++ acc).length) :
    (collect needed (recent ++ older) acc).length ≤ (recent.reverse.flatten ++ acc).length := by
  induction recent generalizing acc with
  | nil => exact absurd h (Nat.not_lt.mpr hacc)
  | cons wrapped recent ih =>
    have hflat : (wrapped :: recent).reverse.flatten ++ acc =
        recent.reverse.flatten ++ (wrapped ++ acc) := by simp
    rw [hflat] at h ⊢
    rw [List.cons_append, collect]
    split
    · simp only [List.length_append]
      omega
    · rename_i hfew
      exact ih (wrapped ++ acc) (Nat.not_lt.mp hfew) h

/-! ### What is selected -/

theorem visibleLines_append {front back : List α} {height offset : Nat}
    (h : height + offset ≤ back.length) :
    visibleLines (front ++ back) height offset = visibleLines back height offset := by
  have hoffset : offset ≤ back.length - height := by omega
  have hoffset' : offset ≤ (front ++ back).length - height := by
    rw [List.length_append]
    omega
  have hskip : (front ++ back).length - (height + offset) =
      front.length + (back.length - (height + offset)) := by
    rw [List.length_append]
    omega
  simp only [visibleLines, Nat.min_eq_left hoffset, Nat.min_eq_left hoffset', hskip,
    List.drop_append, Nat.add_sub_cancel_left]
  rw [List.drop_eq_nil_of_le (Nat.le_add_right _ _), List.nil_append]

/-- The first line that is shown. -/
theorem head?_visibleLines (lines : List α) {height : Nat} (offset : Nat) (hheight : 1 ≤ height) :
    (visibleLines lines height offset).head? =
      lines[lines.length - (height + min offset (lines.length - height))]? := by
  obtain ⟨k, rfl⟩ := Nat.exists_eq_succ_of_ne_zero (show height ≠ 0 by omega)
  unfold visibleLines
  rw [List.head?_take, if_neg (Nat.succ_ne_zero k), List.head?_drop]

/-- Scrolled too far for what has been collected, the view starts elsewhere. -/
theorem visibleLines_append_ne {front back : List α} {height offset : Nat} (hheight : 1 ≤ height)
    (hdistinct : (front ++ back).Nodup) (hfront : front ≠ []) (hback : height ≤ back.length)
    (h : back.length < height + offset) :
    visibleLines (front ++ back) height offset ≠ visibleLines back height offset := by
  intro heq
  have hpos : 0 < front.length := List.length_pos_iff.mpr hfront
  have hheads := congrArg List.head? heq
  rw [head?_visibleLines _ _ hheight, head?_visibleLines _ _ hheight] at hheads
  -- the collected lines are shown from their first on, all lines from one before it
  have hzero : back.length - (height + min offset (back.length - height)) = 0 := by omega
  have hlen : (front ++ back).length = front.length + back.length := List.length_append
  have hbefore : (front ++ back).length -
      (height + min offset ((front ++ back).length - height)) < front.length := by omega
  have hfirst : (front ++ back)[front.length]? = back[0]? := by
    rw [List.getElem?_append_right (Nat.le_refl _), Nat.sub_self]
  rw [hzero, ← hfirst] at hheads
  have hlt : (front ++ back).length -
      (height + min offset ((front ++ back).length - height)) < (front ++ back).length := by omega
  have hsame := (List.getElem?_inj hlt hdistinct).mp hheads
  omega

theorem mem_of_mem_visibleLines {lines : List α} {height offset : Nat} {a : α}
    (h : a ∈ visibleLines lines height offset) : a ∈ lines :=
  List.mem_of_mem_drop (List.mem_of_mem_take h)

/-- With all lines at hand, every line can be scrolled to. -/
theorem exists_mem_visibleLines {lines : List α} {height : Nat} (hheight : 1 ≤ height) {a : α}
    (h : a ∈ lines) : ∃ offset, a ∈ visibleLines lines height offset := by
  obtain ⟨j, hj, rfl⟩ := List.mem_iff_getElem.mp h
  refine ⟨lines.length - height - j, ?_⟩
  have hskip : lines.length - (height + min (lines.length - height - j) (lines.length - height)) ≤
      j := by omega
  unfold visibleLines
  apply List.mem_of_getElem? (i := j - (lines.length -
    (height + min (lines.length - height - j) (lines.length - height))))
  rw [List.getElem?_take, if_pos (by omega), List.getElem?_drop, Nat.add_sub_cancel' hskip]
  exact List.getElem?_eq_getElem hj

/-! ### The budget -/

/-- The newest messages that outgrow the bound on the budget are enough for the view, or they are
all there is. -/
def Within (wrapped : List (List α)) (height offset : Nat) : Prop :=
  ∀ older recent, wrapped = older ++ recent →
    max (wrapped.length * maxWrappedLinesPerMsg) height < recent.flatten.length →
      height + offset ≤ recent.flatten.length ∨ recent.flatten.length = wrapped.flatten.length

/-- What has more lines than the budget has enough for the view, or more than the bound. -/
theorem lt_of_computeRenderBudget_lt {bufferLen height offset n : Nat} (hn : n ≤ usizeMax)
    (h : computeRenderBudget bufferLen height offset < n) :
    height + offset ≤ n ∨ max (bufferLen * maxWrappedLinesPerMsg) height < n := by
  simp only [computeRenderBudget, saturatingAdd, saturatingMul] at h
  omega

theorem computeRenderBudget_le (bufferLen height offset : Nat) :
    computeRenderBudget bufferLen height offset ≤
      max (bufferLen * maxWrappedLinesPerMsg) height := by
  simp only [computeRenderBudget, saturatingMul]
  omega

theorem le_computeRenderBudget (bufferLen offset : Nat) {height : Nat} (h : height ≤ usizeMax) :
    height ≤ computeRenderBudget bufferLen height offset := by
  simp only [computeRenderBudget, saturatingAdd]
  omega

/-- The collected lines are the last ones of all, those of the newest messages. -/
theorem collect_reverse_cases (needed : Nat) (wrapped : List (List α)) :
    ∃ older recent, wrapped = older ++ recent ∧
      collect needed wrapped.reverse [] = recent.flatten ∧
      (older = [] ∨ needed < recent.flatten.length) := by
  obtain ⟨recent, older, heq, hlines, hstop⟩ := collect_cases needed wrapped.reverse []
  refine ⟨older.reverse, recent.reverse, ?_, by simpa using hlines, by simpa using hstop⟩
  rw [← List.reverse_append, ← heq, List.reverse_reverse]

/-- Within the bound, the view shows what it should. -/
theorem renderLines_eq_of_within {wrapped : List (List α)} {height offset : Nat}
    (hfits : wrapped.flatten.length ≤ usizeMax) (h : Within wrapped height offset) :
    renderLines wrapped height offset = fullLines wrapped height offset := by
  obtain ⟨older, recent, heq, hlines, hstop⟩ :=
    collect_reverse_cases (computeRenderBudget wrapped.length height offset) wrapped
  have hflat : wrapped.flatten = older.flatten ++ recent.flatten := by rw [heq, List.flatten_append]
  have hlen : wrapped.flatten.length = older.flatten.length + recent.flatten.length := by
    rw [hflat, List.length_append]
  simp only [renderLines, fullLines, hlines]
  rcases hstop with rfl | hmore
  · rw [hflat]
    rfl
  · have henough : height + offset ≤ recent.flatten.length ∨
        recent.flatten.length = wrapped.flatten.length := by
      rcases lt_of_computeRenderBudget_lt (by omega) hmore with hview | hcap
      · exact Or.inl hview
      · exact h older recent heq hcap
    rcases henough with hview | hall
    · rw [hflat, visibleLines_append hview]
    · have hnil : older.flatten = [] := List.length_eq_zero_iff.mp (by omega)
      rw [hflat, hnil, List.nil_append]

/-- Beyond the bound, the first line of all has not been collected. -/
theorem collect_of_not_within {wrapped : List (List α)} {height offset : Nat}
    (hfits : wrapped.flatten.length ≤ usizeMax) (h : ¬ Within wrapped height offset)
    (offset' : Nat) : ∃ front back, wrapped.flatten = front ++ back ∧ front ≠ [] ∧
      collect (computeRenderBudget wrapped.length height offset') wrapped.reverse [] = back ∧
      height < back.length ∧ back.length < height + offset := by
  simp only [Within, not_forall, not_or] at h
  obtain ⟨older, recent, heq, hcap, hview, hall⟩ := h
  have hflat : wrapped.flatten = older.flatten ++ recent.flatten := by rw [heq, List.flatten_append]
  have hlen : wrapped.flatten.length = older.flatten.length + recent.flatten.length := by
    rw [hflat, List.length_append]
  have hneeded : computeRenderBudget wrapped.length height offset' < recent.flatten.length :=
    Nat.lt_of_le_of_lt (computeRenderBudget_le _ _ _) hcap
  have hle : (collect (computeRenderBudget wrapped.length height offset')
      wrapped.reverse []).length ≤ recent.flatten.length := by
    have hbound := length_collect_le recent.reverse older.reverse [] (Nat.zero_le _)
      (by simpa using hneeded)
    rw [← List.reverse_append, ← heq] at hbound
    simpa using hbound
  obtain ⟨older', recent', heq', hlines, hstop⟩ :=
    collect_reverse_cases (computeRenderBudget wrapped.length height offset') wrapped
  have hflat' : wrapped.flatten = older'.flatten ++ recent'.flatten := by
    rw [heq', List.flatten_append]
  have hlen' : wrapped.flatten.length = older'.flatten.length + recent'.flatten.length := by
    rw [hflat', List.length_append]
  rw [hlines] at hle
  refine ⟨older'.flatten, recent'.flatten, hflat', ?_, hlines, ?_, by omega⟩
  · intro hnil
    rw [hnil, List.length_nil] at hlen'
    omega
  · rcases hstop with rfl | hmore
    · simp only [List.flatten_nil, List.length_nil] at hlen'
      omega
    · exact Nat.lt_of_le_of_lt (le_computeRenderBudget _ _ (by omega)) hmore

/-! ### Every line of a buffer -/

/-- The visual lines of messages, told apart by the number of the message and the place in it. -/
def numbered : (first : Nat) → (heights : List Nat) → List (List (Nat × Nat))
  | _, [] => []
  | first, n :: heights =>
    (List.range n).map (fun k => (first, k)) :: numbered (first + 1) heights

theorem le_of_mem_numbered {first : Nat} {heights : List Nat} {line : Nat × Nat}
    (h : line ∈ (numbered first heights).flatten) : first ≤ line.1 := by
  induction heights generalizing first with
  | nil => simp [numbered] at h
  | cons n heights ih =>
    rw [numbered, List.flatten_cons] at h
    rcases List.mem_append.mp h with h | h
    · obtain ⟨k, -, rfl⟩ := List.mem_map.mp h
      exact Nat.le_refl first
    · exact Nat.le_of_succ_le (ih h)

theorem nodup_numbered (first : Nat) (heights : List Nat) :
    (numbered first heights).flatten.Nodup := by
  induction heights generalizing first with
  | nil => exact List.nodup_nil
  | cons n heights ih =>
    rw [numbered, List.flatten_cons, List.nodup_append']
    refine ⟨?_, ih (first + 1), ?_⟩
    · exact List.Nodup.map (fun _ _ heq => (Prod.mk.inj heq).2) List.nodup_range
    · intro line hline hlater
      obtain ⟨k, -, rfl⟩ := List.mem_map.mp hline
      exact absurd (le_of_mem_numbered hlater) (by omega)

/-- How many lines the messages of a buffer wrap to, the oldest first; they are held in memory. -/
structure Scrollback where
  heights : List Nat
  fits : (numbered 0 heights).flatten.length ≤ usizeMax

namespace Scrollback

def lines (b : Scrollback) : List (List (Nat × Nat)) := numbered 0 b.heights

theorem length_lines_le (b : Scrollback) : b.lines.flatten.length ≤ usizeMax := b.fits

theorem nodup_lines (b : Scrollback) : b.lines.flatten.Nodup := nodup_numbered 0 b.heights

/-- The view shows what it should exactly within the bound on the budget. -/
theorem renderLines_eq_iff (b : Scrollback) {height : Nat} (hheight : 1 ≤ height) (offset : Nat) :
    renderLines b.lines height offset = fullLines b.lines height offset ↔
      Within b.lines height offset := by
  constructor
  · intro heq
    by_contra hnot
    obtain ⟨front, back, hflat, hfront, hback, hlong, hshort⟩ :=
      collect_of_not_within b.length_lines_le hnot offset
    have hnodup : (front ++ back).Nodup := hflat ▸ b.nodup_lines
    apply visibleLines_append_ne hheight hnodup hfront (Nat.le_of_lt hlong) hshort
    rw [← hflat, ← hback]
    exact heq.symm
  · exact renderLines_eq_of_within b.length_lines_le

/-- Every line can be scrolled to exactly if the view is within the bound wherever it is scrolled
to. -/
theorem reachable_iff (b : Scrollback) {height : Nat} (hheight : 1 ≤ height) :
    (∀ line ∈ b.lines.flatten, ∃ offset, line ∈ renderLines b.lines height offset) ↔
      ∀ offset, Within b.lines height offset := by
  constructor
  · intro hreach offset
    by_contra hnot
    obtain ⟨front, back, hflat, hfront, -⟩ :=
      collect_of_not_within b.length_lines_le hnot offset
    obtain ⟨line, rest, rfl⟩ := List.exists_cons_of_ne_nil hfront
    obtain ⟨offset', hline⟩ := hreach line (by rw [hflat]; simp)
    -- the first line is in front of what is collected, wherever the view is scrolled to
    obtain ⟨front', back', hflat', hfront', hback', -⟩ :=
      collect_of_not_within b.length_lines_le hnot offset'
    obtain ⟨line', rest', rfl⟩ := List.exists_cons_of_ne_nil hfront'
    have hsame : line = line' := (List.cons.inj (hflat.symm.trans hflat')).1
    have hmem : line' ∈ back' := by
      rw [← hback', ← hsame]
      exact mem_of_mem_visibleLines hline
    have hnodup := b.nodup_lines
    rw [hflat', List.cons_append] at hnodup
    exact (List.nodup_cons.mp hnodup).1 (List.mem_append_right _ hmem)
  · intro h line hline
    obtain ⟨offset, hmem⟩ := exists_mem_visibleLines hheight hline
    refine ⟨offset, ?_⟩
    rw [renderLines_eq_of_within b.length_lines_le (h offset)]
    exact hmem

/-- What the view shows and what can be scrolled to, exactly within the bound on the budget. -/
theorem shows_and_reaches_iff (b : Scrollback) {height : Nat} (hheight : 1 ≤ height) :
    (∀ offset, renderLines b.lines height offset = fullLines b.lines height offset ↔
      Within b.lines height offset) ∧
    ((∀ line ∈ b.lines.flatten, ∃ offset, line ∈ renderLines b.lines height offset) ↔
      ∀ offset, Within b.lines height offset) :=
  ⟨b.renderLines_eq_iff hheight, b.reachable_iff hheight⟩

/-- Two messages of three lines each, on one row. -/
theorem short_messages_shown :
    (∀ offset, renderLines (lines ⟨[3, 3], by decide⟩) 1 offset =
      fullLines (lines ⟨[3, 3], by decide⟩) 1 offset) ∧
    ∀ line ∈ (lines ⟨[3, 3], by decide⟩).flatten,
      ∃ offset, line ∈ renderLines (lines ⟨[3, 3], by decide⟩) 1 offset := by
  have hwithin : ∀ offset, Within (lines ⟨[3, 3], by decide⟩) 1 offset := by
    intro offset older recent heq hmore
    -- there are no more lines than the bound
    have hlen : older.flatten.length + recent.flatten.length = 6 := by
      rw [← List.length_append, ← List.flatten_append, ← heq]
      rfl
    have hbound : 6 ≤ max ((lines ⟨[3, 3], by decide⟩).length * maxWrappedLinesPerMsg) 1 := by
      decide
    omega
  obtain ⟨hshows, hreaches⟩ := shows_and_reaches_iff ⟨[3, 3], by decide⟩ (by decide : 1 ≤ 1)
  exact ⟨fun offset => (hshows offset).mpr (hwithin offset), hreaches.mpr hwithin⟩

/-- The first of two messages of forty lines cannot be scrolled to. -/
theorem long_messages_not_shown :
    ¬ renderLines (lines ⟨[40, 40], by decide⟩) 1 79 =
      fullLines (lines ⟨[40, 40], by decide⟩) 1 79 := by
  decide +kernel

end Scrollback

end ChatView

end Repartee
