import Repartee.Storage.Log

/-!
# The writer of the log

`storage/writer.rs`: a background task takes rows from a bounded channel, collects them and
inserts them in transactions. A flush that does not get as far as `BEGIN` is tried again with the
same rows; one that fails later is not. How each flush fares is a parameter of the step.

## Main definitions

- `flush`, `Writer`, `Writer.step`: the task and its channel
- `Stored`: a row of the database stores a row of the log

## Main results

- `writer_bounded`: neither the channel nor the queue outgrows its bound
- `log_in_order`: what is stored are rows that were sent, in order and each at most once
- `nothing_lost`: in runs without a failed transaction, nothing is lost
-/

set_option autoImplicit false

namespace Repartee.Storage

/-- `BATCH_SIZE` -/
def batchSize : Nat := 50

/-- `MAX_PENDING_ROWS` -/
@[irreducible] def maxPendingRows : Nat := 4096

/-- The capacity of the channel. -/
def channelCapacity : Nat := 4096

/-! ### Flushing -/

/-- What the database makes of one insertion: the number of the row, the nonce its text is
encrypted with, and whether it is accepted. -/
structure Insertion where
  id : Nat
  iv : List UInt8
  accepted : Bool

/-- How a flush fares; `insertion` has the answer for each place of the queue. -/
structure Attempt where
  panics : Bool
  locks : Bool
  begins : Bool
  insertion : Nat → Insertion
  commits : Bool

section Flush

variable {Key : Type} (cipher : Cipher Key) (cryptoKey : Option Key)

def insertRow (a : Insertion) (row : LogRow) : Option Row :=
  (flushRow cipher cryptoKey a.iv a.id row).filter (fun _ => a.accepted)

/-- The loop of `flush`: a row that fails is skipped. -/
def insertRows (insertion : Nat → Insertion) : List LogRow → List Row
  | [] => []
  | row :: rows =>
    (insertRow cipher cryptoKey (insertion 0) row).toList ++
      insertRows (fun k => insertion (k + 1)) rows

/-- `flush`: the database, and what is left of the queue. -/
def flush (db : List Row) (queue : List LogRow) (a : Attempt) : List Row × List LogRow :=
  if !a.locks then (db, queue)
  else if !a.begins then (db, queue)
  else if !a.commits then (db, [])
  else (db ++ insertRows cipher cryptoKey a.insertion queue, [])

/-- `flush_blocking` -/
def flushBlocking (db : List Row) (queue : List LogRow) (a : Attempt) :
    List Row × List LogRow :=
  if a.panics then (db, []) else flush cipher cryptoKey db queue a

/-- A row of the database stores a row of the log. -/
def Stored (row : LogRow) (r : Row) : Prop :=
  ∃ iv id, flushRow cipher cryptoKey iv id row = some r

/-- The insertion of every row of the queue succeeds. -/
def Attempt.InsertsAll (a : Attempt) (queue : List LogRow) : Prop :=
  ∀ k row, queue[k]? = some row → (insertRow cipher cryptoKey (a.insertion k) row).isSome

/-- The flush gets through. -/
structure Attempt.GetsThrough (a : Attempt) (queue : List LogRow) : Prop where
  runs : a.panics = false
  locks : a.locks = true
  begins : a.begins = true
  inserts : a.InsertsAll cipher cryptoKey queue
  commits : a.commits = true

/-- The flush gets through, or does not get as far as `BEGIN`. -/
def Attempt.Safe (a : Attempt) (queue : List LogRow) : Prop :=
  a.GetsThrough cipher cryptoKey queue ∨
    (a.panics = false ∧ (a.locks = false ∨ a.begins = false))

variable {cipher cryptoKey}

theorem stored_of_insertRow {a : Insertion} {row : LogRow} {r : Row}
    (h : insertRow cipher cryptoKey a row = some r) : Stored cipher cryptoKey row r :=
  ⟨a.iv, a.id, (Option.filter_eq_some_iff.mp h).1⟩

/-- What is inserted stores some of the rows, in order. -/
theorem insertRows_stored (queue : List LogRow) : ∀ insertion : Nat → Insertion,
    ∃ kept, kept.Sublist queue ∧
      List.Forall₂ (Stored cipher cryptoKey) kept
        (insertRows cipher cryptoKey insertion queue) := by
  induction queue with
  | nil => exact fun _ => ⟨[], .slnil, .nil⟩
  | cons row queue ih =>
    intro insertion
    obtain ⟨kept, hsub, hstored⟩ := ih (fun k => insertion (k + 1))
    rw [insertRows]
    cases hr : insertRow cipher cryptoKey (insertion 0) row with
    | none => exact ⟨kept, hsub.cons row, hstored⟩
    | some r => exact ⟨row :: kept, hsub.cons_cons row, .cons (stored_of_insertRow hr) hstored⟩

theorem insertRows_all {queue : List LogRow} : ∀ {insertion : Nat → Insertion},
    (∀ k row, queue[k]? = some row → (insertRow cipher cryptoKey (insertion k) row).isSome) →
    List.Forall₂ (Stored cipher cryptoKey) queue (insertRows cipher cryptoKey insertion queue) := by
  induction queue with
  | nil => exact fun _ => .nil
  | cons row queue ih =>
    intro insertion h
    obtain ⟨r, hr⟩ := Option.isSome_iff_exists.mp (h 0 row rfl)
    rw [insertRows, hr]
    exact .cons (stored_of_insertRow hr) (ih (fun k row hk => h (k + 1) row hk))

variable (cipher cryptoKey)

/-- **What a flush does**: it leaves the queue, or empties it; and it stores some of the rows. -/
theorem flushBlocking_cases (db : List Row) (queue : List LogRow) (a : Attempt) :
    flushBlocking cipher cryptoKey db queue a = (db, queue) ∨
      ∃ kept rows, kept.Sublist queue ∧ List.Forall₂ (Stored cipher cryptoKey) kept rows ∧
        flushBlocking cipher cryptoKey db queue a = (db ++ rows, []) := by
  have hlost : ∃ kept rows, kept.Sublist queue ∧ List.Forall₂ (Stored cipher cryptoKey) kept rows ∧
      ((db, []) : List Row × List LogRow) = (db ++ rows, []) :=
    ⟨[], [], List.nil_sublist queue, .nil, by rw [List.append_nil]⟩
  rw [flushBlocking, flush]
  cases a.panics
  · cases a.locks
    · exact .inl rfl
    · cases a.begins
      · exact .inl rfl
      · cases a.commits
        · exact .inr hlost
        · obtain ⟨kept, hsub, hstored⟩ :=
            @insertRows_stored Key cipher cryptoKey queue a.insertion
          exact .inr ⟨kept, _, hsub, hstored, rfl⟩
  · exact .inr hlost

variable {cipher cryptoKey}

theorem flushBlocking_of_getsThrough {db : List Row} {queue : List LogRow} {a : Attempt}
    (h : a.GetsThrough cipher cryptoKey queue) :
    flushBlocking cipher cryptoKey db queue a =
      (db ++ insertRows cipher cryptoKey a.insertion queue, []) := by
  simp [flushBlocking, flush, h.runs, h.locks, h.begins, h.commits]

theorem flushBlocking_of_safe (db : List Row) {queue : List LogRow} {a : Attempt}
    (h : a.Safe cipher cryptoKey queue) :
    flushBlocking cipher cryptoKey db queue a = (db, queue) ∨
      ∃ rows, List.Forall₂ (Stored cipher cryptoKey) queue rows ∧
        flushBlocking cipher cryptoKey db queue a = (db ++ rows, []) := by
  rcases h with h | ⟨hruns, hfails⟩
  · exact .inr ⟨_, insertRows_all h.inserts, flushBlocking_of_getsThrough h⟩
  · refine .inl ?_
    rcases hfails with hlocks | hbegins
    · simp [flushBlocking, flush, hruns, hlocks]
    · cases hlocks : a.locks <;> simp [flushBlocking, flush, hruns, hlocks, hbegins]

end Flush

/-! ### The task -/

/-- `cap_pending_rows`: the oldest rows are dropped. -/
def capPendingRows (queue : List LogRow) : List LogRow :=
  queue.drop (queue.length - maxPendingRows)

theorem length_capPendingRows (queue : List LogRow) :
    (capPendingRows queue).length ≤ maxPendingRows := by
  rw [capPendingRows, List.length_drop]
  omega

theorem capPendingRows_of_le {queue : List LogRow} (h : queue.length ≤ maxPendingRows) :
    capPendingRows queue = queue := by
  rw [capPendingRows, Nat.sub_eq_zero_of_le h, List.drop_zero]

/-- A row is taken from the channel. -/
def push (queue : List LogRow) (row : LogRow) : List LogRow := capPendingRows (queue ++ [row])

/-- The channel is drained. -/
def drain (queue channel : List LogRow) : List LogRow := channel.foldl push queue

@[simp] theorem drain_nil (queue : List LogRow) : drain queue [] = queue := rfl

@[simp] theorem drain_cons (queue : List LogRow) (row : LogRow) (channel : List LogRow) :
    drain queue (row :: channel) = drain (push queue row) channel := rfl

theorem length_drain (channel : List LogRow) : ∀ {queue : List LogRow},
    queue.length ≤ maxPendingRows → (drain queue channel).length ≤ maxPendingRows := by
  induction channel with
  | nil => exact fun h => h
  | cons row channel ih =>
    intro queue _
    rw [drain_cons]
    exact ih (length_capPendingRows (queue ++ [row]))

theorem drain_sublist (channel : List LogRow) : ∀ queue : List LogRow,
    (drain queue channel).Sublist (queue ++ channel) := by
  induction channel with
  | nil => exact fun queue => List.sublist_append_left queue []
  | cons row channel ih =>
    intro queue
    rw [drain_cons, List.append_cons queue row channel]
    exact (ih (push queue row)).trans ((List.drop_sublist _ _).append_right channel)

theorem drain_of_le (channel : List LogRow) : ∀ {queue : List LogRow},
    queue.length + channel.length ≤ maxPendingRows → drain queue channel = queue ++ channel := by
  induction channel with
  | nil => exact fun _ => (List.append_nil _).symm
  | cons row channel ih =>
    intro queue h
    rw [List.length_cons] at h
    have hpush : push queue row = queue ++ [row] :=
      capPendingRows_of_le (by rw [List.length_append, List.length_singleton]; omega)
    rw [drain_cons, hpush, ih (by rw [List.length_append, List.length_singleton]; omega),
      ← List.append_cons]

/-- The channel, the rows that the task has taken, and the database. `sent` are the rows that the
channel has accepted, which no function of the source reads. -/
structure Writer where
  channel : List LogRow
  queue : List LogRow
  db : List Row
  stopped : Bool
  sent : List LogRow

def Writer.spawn : Writer := ⟨[], [], [], false, []⟩

inductive WriterInput
  /-- `try_send`, of `maybe_log` -/
  | send (row : LogRow)
  | recv (a : Attempt)
  | tick (a : Attempt)
  | shutdown (a : Attempt)

section Runs

variable {Key : Type} (cipher : Cipher Key) (cryptoKey : Option Key)

namespace Writer

def flushed (w : Writer) (a : Attempt) : Writer :=
  let r := flushBlocking cipher cryptoKey w.db w.queue a
  { w with db := r.1, queue := r.2 }

/-- One turn of `writer_loop`, or of a sender. -/
def step (w : Writer) : WriterInput → Writer
  | .send row =>
    if w.stopped = false ∧ w.channel.length < channelCapacity then
      { w with channel := w.channel ++ [row], sent := w.sent ++ [row] }
    else w
  | .recv a =>
    if w.stopped then w
    else
      match w.channel with
      | [] => w
      | row :: rest =>
        let w' : Writer := { w with channel := rest, queue := push w.queue row }
        if batchSize ≤ w'.queue.length then w'.flushed cipher cryptoKey a else w'
  | .tick a =>
    if w.stopped ∨ w.queue = [] then w else w.flushed cipher cryptoKey a
  | .shutdown a =>
    if w.stopped then w
    else
      let w' : Writer := { w with channel := [], queue := drain w.queue w.channel }
      { w'.flushed cipher cryptoKey a with queue := [], stopped := true }

/-- What has become of the rows: `kept` are stored, and the others wait. -/
structure InOrder (w : Writer) (kept : List LogRow) : Prop where
  stored : List.Forall₂ (Stored cipher cryptoKey) kept w.db
  order : (kept ++ w.queue ++ w.channel).Sublist w.sent

/-- Nothing is lost, and nothing waits once the task has stopped. -/
structure Whole (w : Writer) (kept : List LogRow) : Prop where
  stored : List.Forall₂ (Stored cipher cryptoKey) kept w.db
  order : kept ++ w.queue ++ w.channel = w.sent
  stopped : w.stopped = true → w.queue = [] ∧ w.channel = []

/-- The flush of the step gets through or is tried again, and no row is dropped to make room. -/
def SafeInput (w : Writer) : WriterInput → Prop
  | .send _ => True
  | .recv a => ∀ row rest, w.channel = row :: rest → w.queue.length < maxPendingRows ∧
      a.Safe cipher cryptoKey (w.queue ++ [row])
  | .tick a => w.queue ≠ [] → a.Safe cipher cryptoKey w.queue
  | .shutdown a => w.stopped = false → w.queue.length + w.channel.length ≤ maxPendingRows ∧
      a.GetsThrough cipher cryptoKey (w.queue ++ w.channel)

variable {cipher cryptoKey}

theorem inOrder_flushed {w : Writer} {kept : List LogRow} (h : w.InOrder cipher cryptoKey kept)
    (a : Attempt) : ∃ kept', (w.flushed cipher cryptoKey a).InOrder cipher cryptoKey kept' := by
  rcases flushBlocking_cases cipher cryptoKey w.db w.queue a with hf | ⟨more, rows, hsub, hrows, hf⟩
  · refine ⟨kept, ?_⟩
    rw [flushed, hf]
    exact h
  · refine ⟨kept ++ more, ?_⟩
    rw [flushed, hf]
    refine ⟨List.rel_append h.stored hrows, ?_⟩
    rw [List.append_nil]
    exact (((List.Sublist.refl kept).append hsub).append_right w.channel).trans h.order

theorem whole_flushed {w : Writer} {kept : List LogRow} (h : w.Whole cipher cryptoKey kept)
    (hgoes : w.stopped = false) {a : Attempt} (ha : a.Safe cipher cryptoKey w.queue) :
    ∃ kept', (w.flushed cipher cryptoKey a).Whole cipher cryptoKey kept' := by
  have hstopped : ∀ {p : Prop}, w.stopped = true → p := by
    intro p hs
    rw [hgoes] at hs
    cases hs
  rcases flushBlocking_of_safe w.db ha with hf | ⟨rows, hrows, hf⟩
  · refine ⟨kept, ?_⟩
    rw [flushed, hf]
    exact h
  · refine ⟨kept ++ w.queue, ?_⟩
    rw [flushed, hf]
    refine ⟨List.rel_append h.stored hrows, ?_, hstopped⟩
    rw [List.append_nil]
    exact h.order

theorem inOrder_step {w : Writer} {kept : List LogRow} (h : w.InOrder cipher cryptoKey kept)
    (i : WriterInput) : ∃ kept', (w.step cipher cryptoKey i).InOrder cipher cryptoKey kept' := by
  cases i with
  | send row =>
    rw [step]
    split
    · refine ⟨kept, h.stored, ?_⟩
      rw [← List.append_assoc]
      exact h.order.append_right [row]
    · exact ⟨kept, h⟩
  | recv a =>
    rw [step]
    split
    · exact ⟨kept, h⟩
    · split
      · exact ⟨kept, h⟩
      · rename_i row rest hchannel
        have hpushed : ({ w with channel := rest, queue := push w.queue row } : Writer).InOrder
            cipher cryptoKey kept := by
          refine ⟨h.stored, ?_⟩
          have hsub : (push w.queue row).Sublist (w.queue ++ [row]) := List.drop_sublist _ _
          have horder := h.order
          rw [hchannel, List.append_cons, List.append_assoc kept] at horder
          exact (((List.Sublist.refl kept).append hsub).append_right rest).trans horder
        dsimp only
        split
        · exact inOrder_flushed hpushed a
        · exact ⟨kept, hpushed⟩
  | tick a =>
    rw [step]
    split
    · exact ⟨kept, h⟩
    · exact inOrder_flushed h a
  | shutdown a =>
    rw [step]
    split
    · exact ⟨kept, h⟩
    · have hdrained : ({ w with channel := [], queue := drain w.queue w.channel } :
          Writer).InOrder cipher cryptoKey kept := by
        refine ⟨h.stored, ?_⟩
        have horder := h.order
        rw [List.append_assoc] at horder
        rw [List.append_nil]
        exact ((List.Sublist.refl kept).append (drain_sublist w.channel w.queue)).trans horder
      obtain ⟨kept', hflushed⟩ := inOrder_flushed hdrained a
      refine ⟨kept', hflushed.stored, ?_⟩
      -- what a failed last flush leaves is forgotten
      refine (List.Sublist.append_right ?_ _).trans hflushed.order
      rw [List.append_nil]
      exact List.sublist_append_left kept' _

theorem whole_step {w : Writer} {kept : List LogRow} (h : w.Whole cipher cryptoKey kept)
    {i : WriterInput} (hi : w.SafeInput cipher cryptoKey i) :
    ∃ kept', (w.step cipher cryptoKey i).Whole cipher cryptoKey kept' := by
  cases i with
  | send row =>
    rw [step]
    split
    · rename_i hroom
      refine ⟨kept, h.stored, ?_, fun hs => ?_⟩
      · rw [← List.append_assoc, h.order]
      · rw [hroom.1] at hs
        cases hs
    · exact ⟨kept, h⟩
  | recv a =>
    rw [step]
    split
    · exact ⟨kept, h⟩
    · rename_i hgoes
      have hgoes : w.stopped = false := by simpa using hgoes
      split
      · exact ⟨kept, h⟩
      · rename_i row rest hchannel
        obtain ⟨hroom, hsafe⟩ := hi row rest hchannel
        have hpush : push w.queue row = w.queue ++ [row] :=
          capPendingRows_of_le (by rw [List.length_append, List.length_singleton]; omega)
        have hpushed : ({ w with channel := rest, queue := push w.queue row } : Writer).Whole
            cipher cryptoKey kept := by
          refine ⟨h.stored, ?_, fun hs => ?_⟩
          · rw [hpush, ← List.append_assoc, ← List.append_cons, ← hchannel]
            exact h.order
          · exact absurd hs (by simp [hgoes])
        dsimp only
        split
        · exact whole_flushed hpushed hgoes (hpush ▸ hsafe)
        · exact ⟨kept, hpushed⟩
  | tick a =>
    rw [step]
    split
    · exact ⟨kept, h⟩
    · rename_i hgoes
      rw [not_or] at hgoes
      exact whole_flushed h (by simpa using hgoes.1) (hi hgoes.2)
  | shutdown a =>
    rw [step]
    split
    · exact ⟨kept, h⟩
    · rename_i hgoes
      obtain ⟨hroom, hthrough⟩ := hi (by simpa using hgoes)
      have hdrain := drain_of_le w.channel hroom
      refine ⟨kept ++ (w.queue ++ w.channel), ?_, ?_, fun _ => ⟨rfl, rfl⟩⟩
      · dsimp only [flushed]
        rw [hdrain, flushBlocking_of_getsThrough hthrough]
        exact List.rel_append h.stored (insertRows_all hthrough.inserts)
      · dsimp only [flushed]
        rw [List.append_nil, List.append_nil, ← List.append_assoc]
        exact h.order

theorem length_flushed (w : Writer) (a : Attempt) :
    (w.flushed cipher cryptoKey a).queue.length ≤ w.queue.length := by
  rcases flushBlocking_cases cipher cryptoKey w.db w.queue a with hf | ⟨_, _, -, -, hf⟩
  · rw [flushed, hf]
  · rw [flushed, hf]
    exact Nat.zero_le _

/-- Neither the queue nor the channel outgrows its bound. -/
def Bounded (w : Writer) : Prop :=
  w.queue.length ≤ maxPendingRows ∧ w.channel.length ≤ channelCapacity

theorem bounded_step (w : Writer) (i : WriterInput) (h : w.Bounded) :
    (w.step cipher cryptoKey i).Bounded := by
  cases i with
  | send row =>
    rw [step]
    split
    · rename_i hroom
      refine ⟨h.1, ?_⟩
      rw [List.length_append, List.length_singleton]
      exact hroom.2
    · exact h
  | recv a =>
    rw [step]
    split
    · exact h
    · split
      · exact h
      · rename_i row rest hchannel
        have hqueue : (push w.queue row).length ≤ maxPendingRows := length_capPendingRows _
        have hrest : rest.length ≤ channelCapacity := by
          have hle := h.2
          rw [hchannel, List.length_cons] at hle
          omega
        dsimp only
        split
        · exact ⟨(length_flushed _ a).trans hqueue, hrest⟩
        · exact ⟨hqueue, hrest⟩
  | tick a =>
    rw [step]
    split
    · exact h
    · exact ⟨(length_flushed w a).trans h.1, h.2⟩
  | shutdown a =>
    rw [step]
    split
    · exact h
    · exact ⟨Nat.zero_le _, Nat.zero_le _⟩

end Writer

/-- **The log is in order**: whatever fails, the rows of the database store rows that were sent, in
the order of sending and each at most once, and the rows that still wait come behind them. -/
theorem log_in_order (is : List WriterInput) :
    let w := Run.run (Writer.step cipher cryptoKey) .spawn is
    ∃ kept, List.Forall₂ (Stored cipher cryptoKey) kept w.db ∧
      (kept ++ w.queue ++ w.channel).Sublist w.sent := by
  have hspawn : ∃ kept, Writer.spawn.InOrder cipher cryptoKey kept := ⟨[], .nil, .slnil⟩
  obtain ⟨kept, h⟩ := Run.invariant
    (P := fun w : Writer => ∃ kept, w.InOrder cipher cryptoKey kept)
    (fun w i h => h.elim fun _ h => Writer.inOrder_step h i) hspawn is
  exact ⟨kept, h.stored, h.order⟩

/-- **Nothing is lost** in runs whose flushes get through or are tried again, as long as no row is
dropped to make room: every row that was sent is stored or waits, and once the task has stopped
they are all stored. -/
theorem nothing_lost {is : List WriterInput}
    (hsafe : Run.Guarded (Writer.step cipher cryptoKey) (Writer.SafeInput cipher cryptoKey) .spawn
      is) :
    let w := Run.run (Writer.step cipher cryptoKey) .spawn is
    ∃ kept, List.Forall₂ (Stored cipher cryptoKey) kept w.db ∧
      kept ++ w.queue ++ w.channel = w.sent ∧ (w.stopped = true → kept = w.sent) := by
  have hspawn : ∃ kept, Writer.spawn.Whole cipher cryptoKey kept :=
    ⟨[], .nil, rfl, fun _ => ⟨rfl, rfl⟩⟩
  obtain ⟨kept, h⟩ := Run.Guarded.invariant
    (P := fun w : Writer => ∃ kept, w.Whole cipher cryptoKey kept)
    (fun w i h hi => h.elim fun _ h => Writer.whole_step h hi) hspawn hsafe
  refine ⟨kept, h.stored, h.order, fun hs => ?_⟩
  obtain ⟨hqueue, hchannel⟩ := h.stopped hs
  have horder := h.order
  rw [hqueue, hchannel, List.append_nil, List.append_nil] at horder
  exact horder

/-- A row, and a database that takes it. -/
def helloRow : LogRow where
  msgId := str "1"
  network := str "libera"
  buffer := str "#rust"
  timestamp := 0
  msgType := .message
  nick := some (str "alice")
  text := str "hello"
  highlight := false
  refId := none
  tags := none
  eventKey := none

/-- Another row of the same buffer. -/
def helloRow.then (id text : Str) : LogRow := { helloRow with msgId := id, text := text }

/-- A flush that gets through, into a database of `n` rows. -/
def goodAttempt (n : Nat) : Attempt := ⟨false, true, true, fun k => ⟨n + k + 1, [], true⟩, true⟩

/-- Another process keeps the database locked. -/
def busyAttempt : Attempt := { goodAttempt 0 with begins := false }

def noCipher : Cipher Unit := ⟨fun _ _ _ => none, fun _ _ _ => none⟩

theorem goodAttempt_getsThrough (n : Nat) (queue : List LogRow) :
    (goodAttempt n).GetsThrough noCipher none queue where
  runs := rfl
  locks := rfl
  begins := rfl
  inserts _ _ _ := rfl
  commits := rfl

theorem busyAttempt_safe (queue : List LogRow) : busyAttempt.Safe noCipher none queue :=
  .inr ⟨rfl, .inr rfl⟩

/-- The first flush finds the database locked, the second one takes the same rows, and the third
row is in the channel when the task is stopped. -/
def retriedRun : List WriterInput :=
  [.send helloRow, .send (helloRow.then (str "2") (str "anybody here?")),
    .recv (goodAttempt 0), .recv (goodAttempt 0), .tick busyAttempt, .tick (goodAttempt 0),
    .send (helloRow.then (str "3") (str "bye")), .shutdown (goodAttempt 2)]

theorem helloRow_not_lost :
    let w := Run.run (Writer.step noCipher none) .spawn retriedRun
    (∃ kept, List.Forall₂ (Stored noCipher none) kept w.db ∧
      kept ++ w.queue ++ w.channel = w.sent ∧ (w.stopped = true → kept = w.sent)) ∧
    w.stopped = true ∧ w.sent.map LogRow.msgId = [str "1", str "2", str "3"] ∧
    w.db.map (fun r => (r.id, r.text)) =
      [(1, str "hello"), (2, str "anybody here?"), (3, str "bye")] := by
  refine ⟨nothing_lost noCipher none ⟨trivial, trivial, fun _ _ _ => ?_, fun _ _ _ => ?_,
    fun _ => busyAttempt_safe _, fun _ => .inl (goodAttempt_getsThrough 0 _), trivial,
    fun _ => ⟨?_, goodAttempt_getsThrough 2 _⟩, trivial⟩, ?_⟩
  · exact ⟨by decide +kernel, .inl (goodAttempt_getsThrough 0 _)⟩
  · exact ⟨by decide +kernel, .inl (goodAttempt_getsThrough 0 _)⟩
  · decide +kernel
  · decide +kernel

/-- **The writer is bounded**: however long the database refuses to work, neither the queue nor
the channel holds more rows than it may, and the queue does not either while the channel is drained
into it. -/
theorem writer_bounded (is : List WriterInput) :
    let w := Run.run (Writer.step cipher cryptoKey) .spawn is
    w.queue.length ≤ maxPendingRows ∧ w.channel.length ≤ channelCapacity ∧
      ∀ taken rest, w.channel = taken ++ rest → (drain w.queue taken).length ≤ maxPendingRows := by
  have hspawn : Writer.spawn.Bounded := ⟨Nat.zero_le _, Nat.zero_le _⟩
  have h : (Run.run (Writer.step cipher cryptoKey) .spawn is).Bounded :=
    Run.invariant (P := Writer.Bounded) (fun w i h => w.bounded_step i h) hspawn is
  exact ⟨h.1, h.2, fun taken _ _ => length_drain taken h.1⟩

end Runs

end Repartee.Storage
