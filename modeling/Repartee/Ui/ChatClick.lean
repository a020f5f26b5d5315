import Repartee.Ui.ChatView
import Repartee.Ui.Wrap

/-!
# Clicks into the chat view

`handle_chat_click` of `app/input.rs` counts messages to find the message in a row. The view counts
visual lines, so the two agree only while messages are one line each.

## Main definitions

- `chosenMessage`: the message that a click takes
- `Pane`: the messages of a buffer as the view wraps them; each has a line
- `Pane.drawnMessage`: the message whose line the view draws in a row
- `Pane.CountsAlike`: counting messages is as good as counting lines

## Main results

- `Pane.clicks_hit_iff`: when every click takes the message that is drawn
-/

set_option autoImplicit false

namespace Repartee

namespace ChatView

variable {α : Type}

/-- The message that `handle_chat_click` takes the URL from. -/
def chosenMessage (messages : List α) (chatHeight scrollOffset yOffset : Nat) : Option α :=
  let total := messages.length
  let maxScroll := total - chatHeight
  let scroll := min scrollOffset maxScroll
  let skip := total - (chatHeight + scroll)
  messages[skip + yOffset]?

/-! ### Lists of positive numbers -/

section Heights

variable {heights : List Nat}

theorem length_le_sum (h : ∀ k ∈ heights, 1 ≤ k) : heights.length ≤ heights.sum := by
  induction heights with
  | nil => exact Nat.le_refl 0
  | cons k heights ih =>
    have hk := h k List.mem_cons_self
    have hrest := ih (fun k' hk' => h k' (List.mem_cons_of_mem k hk'))
    rw [List.length_cons, List.sum_cons]
    omega

/-- Positive numbers that add up to how many they are, are ones. -/
theorem sum_le_length_iff (h : ∀ k ∈ heights, 1 ≤ k) :
    heights.sum ≤ heights.length ↔ ∀ k ∈ heights, k = 1 := by
  induction heights with
  | nil => simp
  | cons k heights ih =>
    have hk := h k List.mem_cons_self
    have hpos : ∀ k' ∈ heights, 1 ≤ k' := fun k' hk' => h k' (List.mem_cons_of_mem k hk')
    have hle := length_le_sum hpos
    rw [List.forall_mem_cons, ← ih hpos, List.length_cons, List.sum_cons]
    omega

theorem sum_of_forall_eq_one (h : ∀ k ∈ heights, k = 1) : heights.sum = heights.length := by
  have hpos : ∀ k ∈ heights, 1 ≤ k := fun k hk => Nat.le_of_eq (h k hk).symm
  exact le_antisymm ((sum_le_length_iff hpos).mpr h) (length_le_sum hpos)

end Heights

/-! ### The message of a line -/

/-- How many lines the first messages have. -/
def linesBefore (heights : List Nat) (m : Nat) : Nat := (heights.take m).sum

theorem linesBefore_add_sum_drop (heights : List Nat) (m : Nat) :
    linesBefore heights m + (heights.drop m).sum = heights.sum := by
  rw [linesBefore, ← List.sum_append, List.take_append_drop]

theorem length_numbered (first : Nat) (heights : List Nat) :
    (numbered first heights).length = heights.length := by
  induction heights generalizing first with
  | nil => rfl
  | cons n heights ih => rw [numbered, List.length_cons, List.length_cons, ih]

theorem length_flatten_numbered (first : Nat) (heights : List Nat) :
    (numbered first heights).flatten.length = heights.sum := by
  induction heights generalizing first with
  | nil => rfl
  | cons n heights ih =>
    rw [numbered, List.flatten_cons, List.length_append, List.length_map, List.length_range,
      List.sum_cons, ih]

/-- The lines of a message are behind the lines of those before it. -/
theorem message_of_line_iff (heights : List Nat) (first i m : Nat) :
    (numbered first heights).flatten[i]?.map Prod.fst = some (first + m) ↔
      linesBefore heights m ≤ i ∧ i < linesBefore heights (m + 1) := by
  induction heights generalizing first i m with
  | nil => simp [numbered, linesBefore]
  | cons n heights ih =>
    rw [numbered, List.flatten_cons]
    by_cases hi : i < n
    · have hlen : i < ((List.range n).map (fun k => (first, k))).length := by
        simpa using hi
      rw [List.getElem?_append_left hlen, List.getElem?_map, List.getElem?_range hi]
      cases m with
      | zero => simp [linesBefore, hi]
      | succ m =>
        simp only [linesBefore, List.take_succ_cons, List.sum_cons, Option.map_some,
          Option.some.injEq]
        omega
    · have hlen : ((List.range n).map (fun k => (first, k))).length ≤ i := by
        simpa using Nat.le_of_not_lt hi
      rw [List.getElem?_append_right hlen, List.length_map, List.length_range]
      cases m with
      | zero =>
        simp only [linesBefore, List.take_zero, List.take_succ_cons, List.sum_cons,
          List.sum_nil, Nat.add_zero]
        refine iff_of_false (fun h => ?_) (fun h => hi h.2)
        obtain ⟨line, hline, heq⟩ := Option.map_eq_some_iff.mp h
        have hle := le_of_mem_numbered (List.mem_of_getElem? hline)
        omega
      | succ m =>
        have hnum : first + (m + 1) = first + 1 + m := by omega
        rw [hnum, ih]
        simp only [linesBefore, List.take_succ_cons, List.sum_cons]
        omega

/-- The lines of later messages are not of the first ones. -/
theorem le_of_mem_flatten {first : Nat} {heights : List Nat}
    {older recent : List (List (Nat × Nat))}
    (h : numbered first heights = older ++ recent) {line : Nat × Nat}
    (hline : line ∈ recent.flatten) : first + older.length ≤ line.1 := by
  induction older generalizing first heights with
  | nil =>
    rw [List.nil_append] at h
    exact le_of_mem_numbered (h ▸ hline)
  | cons lines older ih =>
    cases heights with
    | nil => exact absurd h (by simp [numbered])
    | cons n heights =>
      rw [numbered, List.cons_append] at h
      have hle := ih (List.cons.inj h).2
      rw [List.length_cons]
      omega

/-! ### What is clicked and what is drawn -/

/-- The messages of a buffer as the view wraps them: each has at least one line. -/
structure Pane extends Scrollback where
  pos : ∀ k ∈ heights, 1 ≤ k

namespace Pane

/-- How many messages there are. -/
def total (b : Pane) : Nat := b.heights.length

/-- How many lines there are. -/
def totalLines (b : Pane) : Nat := b.heights.sum

/-- The number of the message that a click takes. -/
def clickedMessage (b : Pane) (height offset y : Nat) : Option Nat :=
  chosenMessage (List.range b.total) height offset y

/-- The number of the message whose line is drawn in a row. -/
def drawnMessage (b : Pane) (height offset y : Nat) : Option Nat :=
  (renderLines b.lines height offset)[y]?.map Prod.fst

/-- The view can be told from the numbers of messages: with room to spare all messages are one
line each; before the view is scrolled to the first message the ones below the topmost row are;
and then the topmost row has the last line of the first message and the messages of the rows below
it are one line each. -/
def CountsAlike (b : Pane) (height offset : Nat) : Prop :=
  if b.total < height then ∀ k ∈ b.heights, k = 1
  else if height + offset ≤ b.total then
    ∀ k ∈ b.heights.drop (b.total - (height + offset) + 1), k = 1
  else
    Within b.lines height offset ∧
    b.totalLines - (height + offset) < linesBefore b.heights 1 ∧
    (2 ≤ height → linesBefore b.heights 1 = b.totalLines - (height + offset) + 1 ∧
      ∀ k ∈ (b.heights.drop 1).take (height - 2), k = 1)

variable (b : Pane) {height offset : Nat}

theorem total_le_totalLines : b.total ≤ b.totalLines := length_le_sum b.pos

theorem linesBefore_succ_gt {m : Nat} (hm : m < b.total) :
    linesBefore b.heights m < linesBefore b.heights (m + 1) := by
  have hk := b.pos b.heights[m] (List.getElem_mem hm)
  rw [linesBefore, linesBefore, ← List.take_append_getElem hm, List.sum_append,
    List.sum_singleton]
  omega

theorem clickedMessage_eq (height offset y : Nat) :
    b.clickedMessage height offset y =
      if b.total - (height + offset) + y < b.total then some (b.total - (height + offset) + y)
      else none := by
  have hskip : b.total - (height + min offset (b.total - height)) =
      b.total - (height + offset) := by omega
  rw [clickedMessage, chosenMessage]
  simp only [List.length_range, hskip]
  split_ifs with hlt
  · exact List.getElem?_range hlt
  · exact List.getElem?_eq_none (by rw [List.length_range]; exact Nat.le_of_not_lt hlt)

/-- Within the bound on the budget, the view draws the lines that the scroll offset selects of
all. -/
theorem drawnMessage_of_within (h : Within b.lines height offset) {y : Nat} (hy : y < height) :
    b.drawnMessage height offset y =
      b.lines.flatten[b.totalLines - (height + offset) + y]?.map Prod.fst := by
  have hlen : b.lines.flatten.length = b.totalLines := length_flatten_numbered 0 b.heights
  have hskip : b.totalLines - (height + min offset (b.totalLines - height)) =
      b.totalLines - (height + offset) := by omega
  rw [drawnMessage, renderLines_eq_of_within b.length_lines_le h, fullLines, visibleLines]
  simp only [hlen, hskip]
  rw [List.getElem?_take, if_pos hy, List.getElem?_drop]

theorem drawnMessage_eq_some_iff (h : Within b.lines height offset) {y : Nat} (hy : y < height)
    (m : Nat) :
    b.drawnMessage height offset y = some m ↔
      linesBefore b.heights m ≤ b.totalLines - (height + offset) + y ∧
        b.totalLines - (height + offset) + y < linesBefore b.heights (m + 1) := by
  have hline := message_of_line_iff b.heights 0 (b.totalLines - (height + offset) + y) m
  rw [Nat.zero_add] at hline
  rw [drawnMessage_of_within b h hy, ← hline]
  rfl

theorem drawnMessage_eq_none_iff (h : Within b.lines height offset) {y : Nat} (hy : y < height) :
    b.drawnMessage height offset y = none ↔
      b.totalLines ≤ b.totalLines - (height + offset) + y := by
  rw [drawnMessage_of_within b h hy, Option.map_eq_none_iff, List.getElem?_eq_none_iff]
  show (numbered 0 b.heights).flatten.length ≤ _ ↔ _
  rw [length_flatten_numbered]
  rfl

/-! ### When they agree -/

/-- As long as there are messages above the topmost row, enough is collected. -/
theorem within_of_le_total (h : height + offset ≤ b.total) : Within b.lines height offset := by
  intro older recent hsplit hmore
  have hlen : b.lines.length = b.total := length_numbered 0 b.heights
  rw [hlen, maxWrappedLinesPerMsg] at hmore
  exact .inl (by omega)

/-- Beyond the bound on the budget, the topmost row has a line of a later message than the
first. -/
theorem drawnMessage_zero_of_not_within (hheight : 1 ≤ height)
    (h : ¬ Within b.lines height offset) :
    ∃ m, 1 ≤ m ∧ b.drawnMessage height offset 0 = some m := by
  obtain ⟨front, back, hflat, hfront, hback, hlong, hshort⟩ :=
    collect_of_not_within b.length_lines_le h offset
  obtain ⟨older, recent, hsplit, hcollect, -⟩ :=
    collect_reverse_cases (computeRenderBudget b.lines.length height offset) b.lines
  have hrecent : recent.flatten = back := hcollect.symm.trans hback
  have holder : older ≠ [] := by
    rintro rfl
    rw [List.nil_append] at hsplit
    rw [hsplit, hrecent] at hflat
    exact hfront (List.self_eq_append_left.mp hflat)
  have hzero : back.length - (height + min offset (back.length - height)) = 0 := by omega
  cases hhead : back with
  | nil =>
    rw [hhead, List.length_nil] at hlong
    omega
  | cons line rest =>
    refine ⟨line.1, ?_, ?_⟩
    · have hline : line ∈ recent.flatten := by
        rw [hrecent, hhead]
        exact List.mem_cons_self
      have hle := le_of_mem_flatten hsplit hline
      have hpos := List.length_pos_iff.mpr holder
      omega
    · rw [drawnMessage, renderLines, hback, ← List.head?_eq_getElem?,
        head?_visibleLines _ _ hheight, hzero, hhead]
      rfl

/-- In a row, the message with as many lines before it as there are messages. -/
theorem linesBefore_of_ones {m : Nat} (hm : m ≤ b.total)
    (hone : ∀ k ∈ b.heights.drop m, k = 1) :
    linesBefore b.heights m + b.total = b.totalLines + m := by
  have hsum := linesBefore_add_sum_drop b.heights m
  have hrest := sum_of_forall_eq_one hone
  rw [List.length_drop] at hrest
  have htotal : b.total = b.heights.length := rfl
  have htotalLines : b.totalLines = b.heights.sum := rfl
  omega

/-- A click on the topmost row that takes the first message shows that the view is within its
lines: past them, a later message is drawn there. -/
theorem within_of_click (hheight : 1 ≤ height) (hskip : b.total - (height + offset) = 0)
    (hzero : b.clickedMessage height offset 0 = b.drawnMessage height offset 0) :
    Within b.lines height offset := by
  by_contra hnot
  obtain ⟨m, hm, hdrawn⟩ := drawnMessage_zero_of_not_within b hheight hnot
  rw [hdrawn, clickedMessage_eq, hskip] at hzero
  split_ifs at hzero
  simp only [Option.some.injEq] at hzero
  omega

/-- There is room for all messages: the view must not have more lines than there are messages. -/
theorem clicks_hit_of_room (h : b.total < height) :
    (∀ y, y < height → b.clickedMessage height offset y = b.drawnMessage height offset y) ↔
      ∀ k ∈ b.heights, k = 1 := by
  have hskip : b.total - (height + offset) = 0 := by omega
  have hle := b.total_le_totalLines
  constructor
  · intro hall
    have hwithin := within_of_click b (by omega) hskip (hall 0 (by omega))
    -- The first row that takes no message must have no line.
    have hlast := hall b.total h
    rw [clickedMessage_eq, hskip, if_neg (by omega), eq_comm,
      drawnMessage_eq_none_iff b hwithin h] at hlast
    exact (sum_le_length_iff b.pos).mp (show b.totalLines ≤ b.total by omega)
  · intro hone y hy
    have htotal : b.totalLines = b.total := sum_of_forall_eq_one hone
    have hwithin : Within b.lines height offset := by
      intro older recent hsplit hmore
      have hlen : b.lines.flatten.length = b.totalLines := length_flatten_numbered 0 b.heights
      rw [hsplit, List.flatten_append, List.length_append] at hlen
      omega
    rw [clickedMessage_eq, hskip, Nat.zero_add]
    split_ifs with hlt
    · refine ((drawnMessage_eq_some_iff b hwithin hy y).mpr ?_).symm
      have hones : ∀ m, ∀ k ∈ b.heights.drop m, k = 1 := fun m k hk =>
        hone k (List.mem_of_mem_drop hk)
      have hbefore := linesBefore_of_ones b (Nat.le_of_lt hlt) (hones y)
      have hbehind : linesBefore b.heights (y + 1) + b.total = b.totalLines + (y + 1) :=
        linesBefore_of_ones b hlt (hones (y + 1))
      omega
    · exact ((drawnMessage_eq_none_iff b hwithin hy).mpr (by omega)).symm

/-- There are messages above the topmost row: only the first message that is drawn may have more
lines. -/
theorem clicks_hit_of_above (hheight : 1 ≤ height) (h : height + offset ≤ b.total) :
    (∀ y, y < height → b.clickedMessage height offset y = b.drawnMessage height offset y) ↔
      ∀ k ∈ b.heights.drop (b.total - (height + offset) + 1), k = 1 := by
  have hwithin := within_of_le_total b h
  have hle := b.total_le_totalLines
  constructor
  · intro hall
    have hzero := hall 0 hheight
    rw [clickedMessage_eq, if_pos (by omega), eq_comm,
      drawnMessage_eq_some_iff b hwithin hheight] at hzero
    -- What is drawn behind that message has as many lines as there are messages.
    have hsum := linesBefore_add_sum_drop b.heights (b.total - (height + offset) + 1)
    refine (sum_le_length_iff (fun k hk => b.pos k (List.mem_of_mem_drop hk))).mp ?_
    rw [List.length_drop]
    have htotal : b.total = b.heights.length := rfl
    have htotalLines : b.totalLines = b.heights.sum := rfl
    simp only [Nat.add_zero] at hzero
    omega
  · intro hone y hy
    have hones : ∀ m, b.total - (height + offset) + 1 ≤ m → ∀ k ∈ b.heights.drop m, k = 1 := by
      intro m hm k hk
      rw [← Nat.add_sub_of_le hm, ← List.drop_drop] at hk
      exact hone k (List.mem_of_mem_drop hk)
    rw [clickedMessage_eq, if_pos (by omega)]
    refine ((drawnMessage_eq_some_iff b hwithin hy _).mpr ⟨?_, ?_⟩).symm
    · cases y with
      | zero =>
        have hsum := linesBefore_add_sum_drop b.heights (b.total - (height + offset) + 0)
        have hpos : ∀ k ∈ b.heights.drop (b.total - (height + offset) + 0), 1 ≤ k :=
          fun k hk => b.pos k (List.mem_of_mem_drop hk)
        have hrest := length_le_sum hpos
        rw [List.length_drop] at hrest
        have htotal : b.total = b.heights.length := rfl
        have htotalLines : b.totalLines = b.heights.sum := rfl
        omega
      | succ y =>
        have hbefore := linesBefore_of_ones b (m := b.total - (height + offset) + (y + 1))
          (by omega) (hones _ (by omega))
        omega
    · have hbehind := linesBefore_of_ones b (m := b.total - (height + offset) + y + 1) (by omega)
        (hones _ (by omega))
      omega

/-- The lines before a message behind the first one. -/
theorem linesBefore_succ_eq (heights : List Nat) (m : Nat) :
    linesBefore heights (m + 1) = linesBefore heights 1 + ((heights.drop 1).take m).sum := by
  cases heights with
  | nil => simp [linesBefore]
  | cons n heights => simp [linesBefore]

/-- The view is scrolled to where a count of messages would show the first one on top. -/
theorem clicks_hit_of_top (hheight : 1 ≤ height) (hroom : ¬ b.total < height)
    (habove : ¬ height + offset ≤ b.total) :
    (∀ y, y < height → b.clickedMessage height offset y = b.drawnMessage height offset y) ↔
      Within b.lines height offset ∧
      b.totalLines - (height + offset) < linesBefore b.heights 1 ∧
      (2 ≤ height → linesBefore b.heights 1 = b.totalLines - (height + offset) + 1 ∧
        ∀ k ∈ (b.heights.drop 1).take (height - 2), k = 1) := by
  have hskip : b.total - (height + offset) = 0 := by omega
  have hclick : ∀ y, y < height → b.clickedMessage height offset y = some y := by
    intro y hy
    rw [clickedMessage_eq, hskip, if_pos (by omega), Nat.zero_add]
  have htotal : b.total = b.heights.length := rfl
  have hpos : ∀ k ∈ (b.heights.drop 1).take (height - 2), 1 ≤ k := fun k hk =>
    b.pos k (List.mem_of_mem_drop (List.mem_of_mem_take hk))
  have hlen : ((b.heights.drop 1).take (height - 2)).length = height - 2 := by
    rw [List.length_take, List.length_drop]
    omega
  constructor
  · intro hall
    have hwithin := within_of_click b hheight hskip (hall 0 hheight)
    have hrow : ∀ y, y < height →
        linesBefore b.heights y ≤ b.totalLines - (height + offset) + y ∧
          b.totalLines - (height + offset) + y < linesBefore b.heights (y + 1) := by
      intro y hy
      exact (drawnMessage_eq_some_iff b hwithin hy y).mp ((hclick y hy ▸ hall y hy).symm)
    have hfirst := (hrow 0 hheight).2
    rw [Nat.add_zero] at hfirst
    refine ⟨hwithin, hfirst, fun htwo => ?_⟩
    -- The second row fixes where the first message ends, and the last row all that follows.
    have hsecond := (hrow 1 htwo).1
    have hlast := (hrow (height - 1) (by omega)).1
    have hsplit := linesBefore_succ_eq b.heights (height - 2)
    rw [show height - 2 + 1 = height - 1 by omega] at hsplit
    rw [Nat.zero_add] at hfirst
    refine ⟨by omega, (sum_le_length_iff hpos).mp ?_⟩
    omega
  · rintro ⟨hwithin, hfirst, hrest⟩ y hy
    rw [hclick y hy]
    refine ((drawnMessage_eq_some_iff b hwithin hy y).mpr ?_).symm
    cases y with
    | zero => exact ⟨Nat.zero_le _, hfirst⟩
    | succ y =>
      obtain ⟨hone, hones⟩ := hrest (by omega)
      have htake : ((b.heights.drop 1).take y).sum = y := by
        rw [sum_of_forall_eq_one (fun k hk => hones k ?_), List.length_take, List.length_drop]
        · omega
        · exact (List.take_sublist_take_left (by omega)).subset hk
      have hbefore := linesBefore_succ_eq b.heights y
      have hgrow := linesBefore_succ_gt b (m := y + 1) (by omega)
      omega

/-- **Clicks and rows**: in a chat area with at least one row every click takes the message whose
line is drawn there, and nothing where no line is drawn, exactly when messages may be counted in
place of lines. -/
theorem clicks_hit_iff (b : Pane) {height : Nat} (hheight : 1 ≤ height) (offset : Nat) :
    (∀ y, y < height → b.clickedMessage height offset y = b.drawnMessage height offset y) ↔
      b.CountsAlike height offset := by
  rw [CountsAlike]
  split_ifs with hroom habove
  · exact clicks_hit_of_room b hroom
  · exact clicks_hit_of_above b hheight habove
  · exact clicks_hit_of_top b hheight hroom habove

/-- Three messages, of which the last two have one line each, scrolled up by one. -/
theorem one_line_messages_hit :
    CountsAlike ⟨⟨[2, 1, 1], by decide⟩, by decide⟩ 2 1 ∧
      ∀ y, y < 2 → clickedMessage ⟨⟨[2, 1, 1], by decide⟩, by decide⟩ 2 1 y =
        drawnMessage ⟨⟨[2, 1, 1], by decide⟩, by decide⟩ 2 1 y := by
  have halike : CountsAlike ⟨⟨[2, 1, 1], by decide⟩, by decide⟩ 2 1 := by
    rw [CountsAlike, if_neg (by decide), if_pos (by decide)]
    decide
  exact ⟨halike, (clicks_hit_iff ⟨⟨[2, 1, 1], by decide⟩, by decide⟩ (by decide) 1).mpr halike⟩

/-! ### Messages that are wrapped -/

section Wrapped

variable {σ : Type} [DecidableEq σ] [Inhabited σ]

open Layout

theorem wrapLine_ne_nil (m : Measure) (line : Line σ) (width indent : Nat) :
    wrapLine m line width indent ≠ [] := by
  rw [wrapLine]
  dsimp only
  split_ifs with hfits hempty
  · exact List.cons_ne_nil line []
  · exact List.cons_ne_nil line []
  · exact fun hnil => hempty (List.isEmpty_iff.mpr hnil)

/-- The messages of a buffer, rendered to the given lines and wrapped to a width. -/
def ofLines (m : Measure) (messages : List (Line σ)) (width indent : Nat)
    (fits : (numbered 0 (messages.map (fun line =>
      (wrapLine m line width indent).length))).flatten.length ≤ usizeMax) : Pane where
  heights := messages.map (fun line => (wrapLine m line width indent).length)
  fits := fits
  pos := by
    intro k hk
    obtain ⟨line, -, rfl⟩ := List.mem_map.mp hk
    exact List.length_pos_iff.mpr (wrapLine_ne_nil m line width indent)

end Wrapped

/-- A message that wraps to two lines, and a message below it. -/
def samplePane : Pane :=
  ofLines Layout.sampleMeasure [Layout.plainLine (str "ab cd"), Layout.plainLine (str "e")] 4 0
    (by decide +kernel)

/-- A click on the second line of the first message takes the message below it. -/
theorem click_takes_message_below :
    ¬ ∀ y, y < 3 → samplePane.clickedMessage 3 0 y = samplePane.drawnMessage 3 0 y := by
  intro hall
  have hrow := hall 1 (by decide)
  revert hrow
  decide +kernel

end Pane

end ChatView

end Repartee
