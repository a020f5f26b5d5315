import Mathlib.Data.List.Dedup
import Repartee.Irc.Bans
import Repartee.Lib.Split
import Repartee.Lib.Utf8
import Repartee.State.Events

/-!
# The queries behind a JOIN

A channel that we join is asked for its users, its modes and its bans (`app/who.rs`). The queries
wait in a queue for each connection and go out in batches; the next one goes when all channels of
the last one have been answered, or after half a minute.

## Main definitions

- `App`, `App.step`: the queues, what is in flight, and one event
- `View`: what concerns one connection
- `View.Live`: nothing is stuck, lost or sent twice
- `Sent.Asks`: the lines of a batch are the queries about its channels

## Main results

- `live_after`: nothing is, after any events
- `asks_after`: whatever is sent asks for its channels
- `length_queue_checkStale_lt`: a late check sends a batch
-/

set_option autoImplicit false

namespace Repartee

namespace JoinQueries

open Store (Host Isupport ChannelBuffer)
open Store.State (removeCaseInsensitive)
open Utf8 (byteLen)

/-! ### The code -/

/-- `has_whox` -/
def hasWhox (tokens : Isupport) : Bool := (tokens.lookup (str "WHOX")).isSome

/-- `supports_multi_target_mode` -/
def supportsMultiTargetMode (tokens : Isupport) : Bool :=
  match tokens.lookup (str "TARGMAX") with
  | none => true
  | some targmax =>
    (targmax.splitOn ',').any fun entry =>
      match Text.splitOnce ':' entry with
      | some (cmd, limit) => cmd = str "MODE" ∧ limit ≠ ['1'] ∧ limit ≠ ['0']
      | none => false

/-- A connection with its WHOX tokens. -/
structure Connection extends Store.Connection where
  whoTokenCounter : UInt32

/-- What one call of `send_channel_query_batch` sends to a connection. -/
structure Sent where
  connId : Str
  channels : List Str
  /-- The arguments of the lines, behind their command. -/
  commands : List (List Str)

structure App where
  connections : Dict Str Connection
  buffers : Dict Str ChannelBuffer
  channelQueryQueues : Dict Str (List Str)
  /-- The channels of the last batch that are not answered yet, in the order of the set. -/
  channelQueryInFlight : Dict Str (List Str)
  /-- The time of the last batch, in nanoseconds. -/
  channelQuerySentAt : Dict Str Nat
  sent : List Sent

/-- What does not change: the connections that have a handle, and the order in which the entries of
a hash map come. -/
structure Env where
  host : Host
  handles : List Str
  order : List Str → List Str
  order_perm : ∀ l, (order l).Perm l

def maxWhoTargets : Nat := 5

/-- Insert into a set. -/
def insertSet (set : List Str) (x : Str) : List Str := if set.contains x then set else set ++ [x]

/-- The loop that fills a batch from the front of the queue. -/
def takeBatch (budget : Nat) : (batch : List Str) → (len : Nat) → (queue : List Str) →
    List Str × List Str
  | batch, _, [] => (batch, [])
  | batch, len, ch :: queue =>
    if maxWhoTargets ≤ batch.length then (batch, ch :: queue)
    else
      let add := if batch = [] then byteLen ch else 1 + byteLen ch
      if budget < len + add ∧ batch ≠ [] then (batch, ch :: queue)
      else takeBatch budget (batch ++ [ch]) (len + add) queue

namespace App

variable (env : Env) (s : App)

/-- What the server of a connection has announced. -/
def isupport? (connId : Str) : Option Isupport :=
  (s.connections.lookup connId).map (fun c => c.isupport)

/-- The bytes that the channels of a batch may take, so that both commands fit into a line. -/
def budget (connId : Str) : Nat :=
  let whoOverhead := if (s.isupport? connId).any hasWhox then 22 else 6
  min (512 - whoOverhead) (512 - 7)

/-- `next_who_token` -/
def nextWhoToken (connId : Str) : App × Str :=
  match s.connections.lookup connId with
  | some c =>
    ({ s with
        connections := s.connections.modify connId
          (fun c => { c with whoTokenCounter := c.whoTokenCounter + 1 }) },
      fmtNat (c.whoTokenCounter + 1).toNat)
  | none => (s, ['0'])

/-- The lines of a batch; the token is there for a server with WHOX. -/
def batchCommands (batch : List Str) (token : Option Str) (multiMode : Bool) : List (List Str) :=
  let chanlist := [','].intercalate batch
  (match token with
    | some token => [[str "WHO", chanlist, str "%tcuihnfar," ++ token]]
    | none => [[str "WHO", chanlist]]) ++
  (if multiMode then [[str "MODE", chanlist]] else batch.map (fun ch => [str "MODE", ch])) ++
  batch.map (fun ch => [str "MODE", ch, ['b']])

/-- Mark a batch as silent, and make room for its ban lists. -/
def silence (connId : Str) (batch : List Str) : App :=
  { s with
    connections := s.connections.modify connId (fun c =>
      { c with
        silentWhoChannels := batch.foldl insertSet c.silentWhoChannels
        silentBanlistChannels := batch.foldl insertSet c.silentBanlistChannels })
    buffers := batch.foldl (fun buffers ch =>
      buffers.modify (Store.makeBufferId env.host connId ch) (fun b => b.banStep env.host .request))
      s.buffers }

/-- The token of a WHO command, if the server takes one. -/
def whoToken (connId : Str) : App × Option Str :=
  if (s.isupport? connId).any hasWhox then
    ((s.nextWhoToken connId).1, some (s.nextWhoToken connId).2)
  else (s, none)

/-- The WHO and MODE commands of a batch. -/
def sendCommands (connId : Str) (batch : List Str) : App :=
  let token := s.whoToken connId
  let multiMode := (token.1.isupport? connId).any supportsMultiTargetMode
  { token.1 with
    sent := token.1.sent ++ [⟨connId, batch, batchCommands batch token.2 multiMode⟩] }

/-- `send_channel_query_batch` -/
def sendChannelQueryBatch (now : Nat) (connId : Str) : App :=
  match s.channelQueryQueues.lookup connId with
  | none | some [] =>
    { s with
      channelQueryInFlight := s.channelQueryInFlight.erase connId
      channelQuerySentAt := s.channelQuerySentAt.erase connId }
  | some (ch :: queue) =>
    let (batch, rest) := takeBatch (s.budget connId) [] 0 (ch :: queue)
    let s := { s with channelQueryQueues := s.channelQueryQueues.insert connId rest }
    if batch = [] ∨ connId ∉ env.handles then
      { s with channelQueryInFlight := s.channelQueryInFlight.erase connId }
    else
      let s := { s with
        channelQueryInFlight := s.channelQueryInFlight.insert connId (env.order batch.dedup)
        channelQuerySentAt := s.channelQuerySentAt.insert connId now }
      (s.silence env connId batch).sendCommands connId batch

/-- `queue_channel_query` -/
def queueChannelQuery (now : Nat) (connId channel : Str) : App :=
  let queue := (s.channelQueryQueues.lookup connId).getD []
  let s := { s with channelQueryQueues := s.channelQueryQueues.insert connId (queue ++ [channel]) }
  if (s.channelQueryInFlight.lookup connId).isSome then s
  else s.sendChannelQueryBatch env now connId

/-- The channels in flight that a reply leaves. -/
def unanswered (inFlight : List Str) (target : Str) : List Str :=
  let inFlight := removeCaseInsensitive inFlight target
  if target.contains ',' then (target.splitOn ',').foldl removeCaseInsensitive inFlight
  else inFlight

/-- `handle_who_batch_complete` -/
def handleWhoBatchComplete (now : Nat) (connId target : Str) : App :=
  match s.channelQueryInFlight.lookup connId with
  | none => s
  | some inFlight =>
    let inFlight := unanswered inFlight target
    if inFlight = [] then
      { s with
        channelQueryInFlight := s.channelQueryInFlight.erase connId
        }.sendChannelQueryBatch env now connId
    else
      { s with channelQueryInFlight := s.channelQueryInFlight.insert connId inFlight }

/-- A batch has waited for more than 30 seconds. -/
def isStale (now sentAt : Nat) : Bool := 30 * 10 ^ 9 < now - sentAt

/-- What happens to a connection whose batch is stale. -/
def dropStaleBatch (now : Nat) (connId : Str) : App :=
  { s with
    channelQueryInFlight := s.channelQueryInFlight.erase connId
    channelQuerySentAt := s.channelQuerySentAt.erase connId
    }.sendChannelQueryBatch env now connId

/-- `check_stale_who_batches` -/
def checkStaleWhoBatches (now : Nat) : App :=
  let staleConns := env.order
    ((s.channelQuerySentAt.rows.filter (fun row => isStale now row.2)).map Prod.fst)
  staleConns.foldl (fun s connId => s.dropStaleBatch env now connId) s

end App

/-- An event, with its time. -/
inductive Event where
  | queue (connId channel : Str) (now : Nat)
  | complete (connId target : Str) (now : Nat)
  | checkStale (now : Nat)

def App.step (env : Env) (s : App) : Event → App
  | .queue connId channel now => s.queueChannelQuery env now connId channel
  | .complete connId target now => s.handleWhoBatchComplete env now connId target
  | .checkStale now => s.checkStaleWhoBatches env now

/-! ### The lines -/

/-- What a line asks a server for. -/
inductive Query where
  | who
  | modes
  | bans
  deriving DecidableEq

/-- How a server reads a line: what it asks for, and the channels that it names. -/
def readLine : List Str → Option (Query × List Str)
  | [command, targets] =>
    if command = str "WHO" then some (.who, targets.splitOn ',')
    else if command = str "MODE" then some (.modes, targets.splitOn ',')
    else none
  | [command, targets, argument] =>
    if command = str "WHO" then some (.who, targets.splitOn ',')
    else if command = str "MODE" ∧ argument = ['b'] then some (.bans, targets.splitOn ',')
    else none
  | _ => none

/-- The lists of channels that the lines of a query name, line by line. -/
def named (q : Query) (lines : List (List Str)) : List (List Str) :=
  ((lines.filterMap readLine).filter (fun r => r.1 = q)).map Prod.snd

/-- The lines of a batch are queries and name its channels, which are asked for their users, modes
and bans, each once; one line asks for the users. A channel's name is read as it is unless a comma
is in it. -/
structure Sent.Asks (sent : Sent) : Prop where
  understood : ∀ line ∈ sent.commands, (readLine line).isSome
  channels : ∀ q, (named q sent.commands).flatten = sent.channels.flatMap (List.splitOn ',')
  oneWho : (named .who sent.commands).length = 1

theorem splitOn_chanlist {batch : List Str} (hne : batch ≠ []) :
    ([','].intercalate batch).splitOn ',' = batch.flatMap (List.splitOn ',') := by
  induction batch with
  | nil => exact absurd rfl hne
  | cons ch batch ih =>
    cases batch with
    | nil => simp
    | cons ch' batch =>
      rw [List.intercalate_cons_cons, List.append_assoc, List.singleton_append,
        Text.splitOn_append_cons, ih (List.cons_ne_nil ch' batch)]
      rfl

section Lines

variable (targets fields : Str)

@[simp] theorem readLine_who : readLine [str "WHO", targets] =
    some (.who, targets.splitOn ',') := rfl

@[simp] theorem readLine_whox : readLine [str "WHO", targets, fields] =
    some (.who, targets.splitOn ',') := rfl

@[simp] theorem readLine_mode : readLine [str "MODE", targets] =
    some (.modes, targets.splitOn ',') := rfl

@[simp] theorem readLine_bans : readLine [str "MODE", targets, ['b']] =
    some (.bans, targets.splitOn ',') := rfl

/-- What a server reads from the lines of a batch. -/
def readBatch (batch : List Str) (multiMode : Bool) : List (Query × List Str) :=
  (.who, batch.flatMap (List.splitOn ',')) ::
    ((if multiMode then [(.modes, batch.flatMap (List.splitOn ','))]
      else batch.map (fun ch => (.modes, ch.splitOn ','))) ++
    batch.map (fun ch => (.bans, ch.splitOn ',')))

theorem map_readLine_batchCommands {batch : List Str} (hne : batch ≠ []) (token : Option Str)
    (multiMode : Bool) : (App.batchCommands batch token multiMode).map readLine =
      (readBatch batch multiMode).map some := by
  rw [readBatch, ← splitOn_chanlist hne]
  cases token <;> cases multiMode <;> simp [App.batchCommands, Function.comp_def]

theorem named_batchCommands {batch : List Str} (hne : batch ≠ []) (token : Option Str)
    (multiMode : Bool) (q : Query) : named q (App.batchCommands batch token multiMode) =
      ((readBatch batch multiMode).filter (fun r => r.1 = q)).map Prod.snd := by
  have hread := congrArg (List.filterMap id) (map_readLine_batchCommands hne token multiMode)
  rw [List.filterMap_map, List.filterMap_map, Function.id_comp, Function.id_comp,
    List.filterMap_some] at hread
  rw [named, hread]

theorem asks_batchCommands (connId : Str) {batch : List Str} (hne : batch ≠ [])
    (token : Option Str) (multiMode : Bool) :
    (Sent.mk connId batch (App.batchCommands batch token multiMode)).Asks where
  understood line hline := by
    have hmem := List.mem_map_of_mem (f := readLine) hline
    rw [map_readLine_batchCommands hne] at hmem
    obtain ⟨r, -, hr⟩ := List.mem_map.mp hmem
    rw [← hr]
    rfl
  channels q := by
    rw [named_batchCommands hne, readBatch]
    cases q <;> cases multiMode <;>
      simp [List.filter_map, Function.comp_def, List.flatMap_def]
  oneWho := by
    rw [named_batchCommands hne, readBatch]
    cases multiMode <;> simp [List.filter_map, Function.comp_def]

end Lines

/-! ### One connection -/

/-- What concerns one connection. -/
@[ext] structure View where
  queue : List Str
  inFlight : Option (List Str)
  sentAt : Option Nat
  batches : List (List Str)

/-- What there is for a connection. -/
def App.view (s : App) (connId : Str) : View where
  queue := (s.channelQueryQueues.lookup connId).getD []
  inFlight := s.channelQueryInFlight.lookup connId
  sentAt := s.channelQuerySentAt.lookup connId
  batches := (s.sent.filter (fun sent => sent.connId = connId)).map (fun sent => sent.channels)

/-- The channel that an event queues for a connection. -/
def Event.queued (connId : Str) : Event → Option Str
  | .queue connId' channel _ => if connId' = connId then some channel else none
  | .complete _ _ _ => none
  | .checkStale _ => none

/-- Nothing is stuck, lost or sent twice, if `channels` have been queued. -/
structure View.Live (v : View) (channels : List Str) : Prop where
  /-- Every channel is in one batch or still waits, in the order of the queue. -/
  once : v.batches.flatten ++ v.queue = channels
  sizes : ∀ batch ∈ v.batches, 1 ≤ batch.length ∧ batch.length ≤ maxWhoTargets
  /-- While channels wait, a batch is in flight. -/
  waits : v.queue ≠ [] → v.inFlight.isSome
  /-- What is in flight is what is left of the last batch, and it is known when it was sent. -/
  inFlight : ∀ channels, v.inFlight = some channels → channels ≠ [] ∧ v.sentAt.isSome ∧
    ∃ earlier batch, v.batches = earlier ++ [batch] ∧ ∀ ch ∈ channels, ch ∈ batch

/-- The queue of a connection, and what is in flight, after its next batch has gone. -/
def View.sendBatch (env : Env) (budget now : Nat) (v : View) : View :=
  if v.queue = [] then { v with inFlight := none, sentAt := none }
  else
    let (batch, rest) := takeBatch budget [] 0 v.queue
    { queue := rest
      inFlight := some (env.order batch.dedup)
      sentAt := some now
      batches := v.batches ++ [batch] }

/-- **A batch** is taken from the front of the queue, and has between one and five channels. -/
theorem takeBatch_spec (budget : Nat) (batch : List Str) (len : Nat) (queue : List Str)
    (hlen : batch.length ≤ maxWhoTargets) (hne : batch ≠ [] ∨ queue ≠ []) :
    ∃ batch' rest, takeBatch budget batch len queue = (batch', rest) ∧
      batch' ++ rest = batch ++ queue ∧ batch' ≠ [] ∧ batch'.length ≤ maxWhoTargets := by
  induction queue generalizing batch len with
  | nil => exact ⟨batch, [], rfl, rfl, hne.resolve_right (fun h => h rfl), hlen⟩
  | cons ch queue ih =>
    rw [takeBatch]
    by_cases hfull : maxWhoTargets ≤ batch.length
    · rw [if_pos hfull]
      refine ⟨batch, ch :: queue, rfl, rfl, ?_, hlen⟩
      rintro rfl
      exact absurd hfull (by decide)
    rw [if_neg hfull]
    dsimp only
    generalize hadd : (if batch = [] then byteLen ch else 1 + byteLen ch) = add
    by_cases hbudget : budget < len + add ∧ batch ≠ []
    · rw [if_pos hbudget]
      exact ⟨batch, ch :: queue, rfl, rfl, hbudget.2, hlen⟩
    · rw [if_neg hbudget]
      have hone : (batch ++ [ch]).length = batch.length + 1 := List.length_append
      have hmore : batch ++ [ch] ≠ [] :=
        List.append_ne_nil_of_right_ne_nil batch (List.cons_ne_nil ch [])
      obtain ⟨batch', rest, heq, hsplit, hne', hlen'⟩ :=
        ih (batch ++ [ch]) (len + add) (Nat.le_trans (Nat.le_of_eq hone) (Nat.not_le.mp hfull))
          (.inl hmore)
      exact ⟨batch', rest, heq, hsplit.trans (List.append_cons batch ch queue).symm, hne', hlen'⟩

/-! #### Operations -/

section Operations

variable (env : Env) (s : App) (c c' : Str)

theorem view_silence (batch : List Str) : (s.silence env c' batch).view c = s.view c := rfl

theorem view_whoToken : (s.whoToken c').1.view c = s.view c := by
  rw [App.whoToken]
  split_ifs
  · rw [App.nextWhoToken]
    split <;> rfl
  · rfl

/-- Only the batches of the connection change when the commands are sent. -/
theorem view_sendCommands (batch : List Str) : (s.sendCommands c' batch).view c =
    ⟨(s.view c).queue, (s.view c).inFlight, (s.view c).sentAt,
      if c' = c then (s.view c).batches ++ [batch] else (s.view c).batches⟩ := by
  rw [← view_whoToken s c c', App.sendCommands, App.view]
  dsimp only
  rw [List.filter_append, List.map_append, List.filter_singleton]
  by_cases hc : c' = c
  · rw [if_pos hc, decide_eq_true hc]
    rfl
  · rw [if_neg hc, decide_eq_false hc, cond_false, List.map_nil, List.append_nil]
    rfl

theorem view_sendChannelQueryBatch_other {c c' : Str} (hne : c' ≠ c) (now : Nat) :
    (s.sendChannelQueryBatch env now c').view c = s.view c := by
  rw [App.sendChannelQueryBatch]
  split
  · apply View.ext <;> simp [App.view, Dict.lookup_erase, hne]
  · apply View.ext <;> simp [App.view, Dict.lookup_erase, hne]
  · dsimp only
    split_ifs
    · apply View.ext <;> simp [App.view, Dict.lookup_erase, Dict.lookup_insert, hne]
    · rw [view_sendCommands, view_silence, if_neg hne]
      apply View.ext <;> simp [App.view, Dict.lookup_insert, hne]

/-- A batch for a connection with a handle. -/
theorem view_sendChannelQueryBatch {c : Str} (hhandle : c ∈ env.handles) (now : Nat) :
    (s.sendChannelQueryBatch env now c).view c = (s.view c).sendBatch env (s.budget c) now := by
  rw [App.sendChannelQueryBatch, View.sendBatch]
  cases hqueue : s.channelQueryQueues.lookup c with
  | none =>
    have hempty : (s.view c).queue = [] := by rw [App.view, hqueue, Option.getD_none]
    rw [if_pos hempty]
    apply View.ext <;> simp [App.view, Dict.lookup_erase]
  | some queue =>
    have hview : (s.view c).queue = queue := by rw [App.view, hqueue, Option.getD_some]
    rw [hview]
    cases queue with
    | nil =>
      rw [if_pos rfl]
      apply View.ext <;> simp [App.view, Dict.lookup_erase, hqueue]
    | cons ch queue =>
      rw [if_neg (List.cons_ne_nil ch queue)]
      obtain ⟨batch, rest, hbatch, -, hne, -⟩ := takeBatch_spec (s.budget c) [] 0
        (ch :: queue) (Nat.zero_le maxWhoTargets) (.inr (List.cons_ne_nil ch queue))
      dsimp only
      rw [hbatch]
      dsimp only
      rw [if_neg (by simp [hne, hhandle]), view_sendCommands, view_silence, if_pos rfl]
      apply View.ext <;> simp [App.view, Dict.lookup_insert]

end Operations

/-! ### Liveness -/

section Live

variable {env : Env} {v : View} {channels : List Str}

/-- A batch leaves fewer channels. -/
theorem View.length_queue_sendBatch (budget now : Nat) :
    (v.sendBatch env budget now).queue.length ≤ v.queue.length ∧
      (v.queue ≠ [] → (v.sendBatch env budget now).queue.length < v.queue.length) := by
  rw [View.sendBatch]
  split_ifs with hqueue
  · exact ⟨Nat.le_refl _, fun hne => absurd hqueue hne⟩
  · obtain ⟨batch, rest, hbatch, hsplit, hne, -⟩ := takeBatch_spec budget [] 0 v.queue
      (Nat.zero_le maxWhoTargets) (.inr hqueue)
    rw [hbatch]
    have hlen := congrArg List.length hsplit
    rw [List.length_append, List.nil_append] at hlen
    have hpos := List.length_pos_iff.mpr hne
    exact ⟨by dsimp only; omega, fun _ => by dsimp only; omega⟩

/-- A batch goes out whatever was in flight before. -/
theorem View.Live.sendBatch (budget now : Nat) (honce : v.batches.flatten ++ v.queue = channels)
    (hsizes : ∀ batch ∈ v.batches, 1 ≤ batch.length ∧ batch.length ≤ maxWhoTargets) :
    (v.sendBatch env budget now).Live channels := by
  rw [View.sendBatch]
  split_ifs with hqueue
  · exact ⟨honce, hsizes, fun hne => absurd hqueue hne, fun _ h => nomatch h⟩
  · obtain ⟨batch, rest, hbatch, hsplit, hne, hlen⟩ := takeBatch_spec budget [] 0 v.queue
      (Nat.zero_le maxWhoTargets) (.inr hqueue)
    rw [hbatch]
    refine ⟨?_, ?_, fun _ => rfl, ?_⟩
    · dsimp only
      rw [List.flatten_append, List.flatten_singleton, List.append_assoc, hsplit]
      exact honce
    · intro b hb
      rcases List.mem_append.mp hb with hb | hb
      · exact hsizes b hb
      · rw [List.mem_singleton.mp hb]
        exact ⟨List.length_pos_iff.mpr hne, hlen⟩
    · -- the set of the batch keeps its channels once, in some order
      rintro _ ⟨⟩
      have hmem : ∀ ch, ch ∈ env.order batch.dedup ↔ ch ∈ batch := fun ch =>
        (env.order_perm _).mem_iff.trans List.mem_dedup
      refine ⟨?_, rfl, v.batches, batch, rfl, fun ch => (hmem ch).mp⟩
      obtain ⟨ch, hch⟩ := List.exists_mem_of_ne_nil batch hne
      exact List.ne_nil_of_mem ((hmem ch).mpr hch)

end Live

section Events

variable {env : Env} {s : App} {c : Str} {channels : List Str}

theorem live_sendChannelQueryBatch (hhandle : c ∈ env.handles) (now : Nat)
    (honce : (s.view c).batches.flatten ++ (s.view c).queue = channels)
    (hsizes : ∀ batch ∈ (s.view c).batches, 1 ≤ batch.length ∧ batch.length ≤ maxWhoTargets) :
    ((s.sendChannelQueryBatch env now c).view c).Live channels := by
  rw [view_sendChannelQueryBatch env s hhandle]
  exact View.Live.sendBatch _ now honce hsizes

/-- A channel that is queued comes behind the others. -/
theorem live_queueChannelQuery (hhandle : c ∈ env.handles) (h : (s.view c).Live channels)
    (now : Nat) (channel : Str) :
    ((s.queueChannelQuery env now c channel).view c).Live (channels ++ [channel]) := by
  have honce : (s.view c).batches.flatten ++ ((s.view c).queue ++ [channel]) =
      channels ++ [channel] := by
    rw [← List.append_assoc, h.once]
  have hqueue : (s.channelQueryQueues.lookup c).getD [] = (s.view c).queue := rfl
  rw [App.queueChannelQuery, hqueue]
  dsimp only
  generalize (s.view c).queue ++ [channel] = queue at honce ⊢
  have hview : ({ s with channelQueryQueues := s.channelQueryQueues.insert c queue } : App).view c =
      ⟨queue, (s.view c).inFlight, (s.view c).sentAt, (s.view c).batches⟩ := by
    apply View.ext <;> simp [App.view, Dict.lookup_insert]
  split_ifs with hflight
  · -- a batch is out already, and the channel waits behind it
    rw [hview]
    exact ⟨honce, h.sizes, fun _ => hflight, h.inFlight⟩
  · refine live_sendChannelQueryBatch hhandle now ?_ ?_
    · rw [hview]
      exact honce
    · rw [hview]
      exact h.sizes

theorem mem_of_mem_removeCaseInsensitive {set : List Str} {x ch : Str}
    (h : ch ∈ removeCaseInsensitive set x) : ch ∈ set := by
  rw [removeCaseInsensitive] at h
  split_ifs at h
  · exact List.mem_of_mem_filter h
  · split at h
    · exact h
    · exact List.mem_of_mem_filter h

/-- A reply takes channels out of the set, and puts none in. -/
theorem mem_of_mem_unanswered {set : List Str} {target ch : Str}
    (h : ch ∈ App.unanswered set target) : ch ∈ set := by
  have hfold : ∀ (targets set : List Str), ch ∈ targets.foldl removeCaseInsensitive set →
      ch ∈ set := by
    intro targets
    induction targets with
    | nil => exact fun _ h => h
    | cons t targets ih => exact fun set h => mem_of_mem_removeCaseInsensitive (ih _ h)
  rw [App.unanswered] at h
  split_ifs at h
  · exact mem_of_mem_removeCaseInsensitive (hfold _ _ h)
  · exact mem_of_mem_removeCaseInsensitive h

theorem live_handleWhoBatchComplete (hhandle : c ∈ env.handles) (h : (s.view c).Live channels)
    (now : Nat) (target : Str) :
    ((s.handleWhoBatchComplete env now c target).view c).Live channels := by
  rw [App.handleWhoBatchComplete]
  cases hflight : s.channelQueryInFlight.lookup c with
  | none => exact h
  | some inFlight =>
    dsimp only
    obtain ⟨-, hsentAt, earlier, batch, hbatches, hsub⟩ := h.inFlight inFlight hflight
    have hleft : ∀ ch ∈ App.unanswered inFlight target, ch ∈ batch :=
      fun ch hch => hsub ch (mem_of_mem_unanswered hch)
    generalize App.unanswered inFlight target = left at hleft ⊢
    split_ifs with hempty
    · refine live_sendChannelQueryBatch hhandle now ?_ ?_
      · exact h.once
      · exact h.sizes
    · have hview : ({ s with
          channelQueryInFlight := s.channelQueryInFlight.insert c left } : App).view c =
          ⟨(s.view c).queue, some left, (s.view c).sentAt, (s.view c).batches⟩ := by
        apply View.ext <;> simp [App.view, Dict.lookup_insert]
      rw [hview]
      refine ⟨h.once, h.sizes, fun _ => rfl, ?_⟩
      rintro _ ⟨⟩
      exact ⟨hempty, hsentAt, earlier, batch, hbatches, hleft⟩

theorem live_dropStaleBatch (hhandle : c ∈ env.handles) (h : (s.view c).Live channels)
    (now : Nat) : ((s.dropStaleBatch env now c).view c).Live channels :=
  live_sendChannelQueryBatch hhandle now h.once h.sizes

/-! #### Other connections -/

theorem view_queueChannelQuery_other {c' : Str} (hne : c' ≠ c) (now : Nat) (channel : Str) :
    (s.queueChannelQuery env now c' channel).view c = s.view c := by
  rw [App.queueChannelQuery]
  dsimp only
  generalize (s.channelQueryQueues.lookup c').getD [] ++ [channel] = queue
  have hview : ({ s with
      channelQueryQueues := s.channelQueryQueues.insert c' queue } : App).view c = s.view c := by
    apply View.ext <;> simp [App.view, Dict.lookup_insert, hne]
  split_ifs
  · exact hview
  · exact (view_sendChannelQueryBatch_other env _ hne now).trans hview

theorem view_handleWhoBatchComplete_other {c' : Str} (hne : c' ≠ c) (now : Nat) (target : Str) :
    (s.handleWhoBatchComplete env now c' target).view c = s.view c := by
  rw [App.handleWhoBatchComplete]
  split
  · rfl
  · dsimp only
    split_ifs
    · refine (view_sendChannelQueryBatch_other env _ hne now).trans ?_
      apply View.ext <;> simp [App.view, Dict.lookup_erase, hne]
    · apply View.ext <;> simp [App.view, Dict.lookup_insert, hne]

theorem view_dropStaleBatch_other {c' : Str} (hne : c' ≠ c) (now : Nat) :
    (s.dropStaleBatch env now c').view c = s.view c := by
  refine (view_sendChannelQueryBatch_other env _ hne now).trans ?_
  apply View.ext <;> simp [App.view, Dict.lookup_erase, hne]

/-! #### Stale batches -/

/-- Whatever connections a check goes through, nothing is lost. -/
theorem live_dropStaleBatches (hhandle : c ∈ env.handles) (now : Nat) (conns : List Str)
    (h : (s.view c).Live channels) :
    ((conns.foldl (fun s connId => s.dropStaleBatch env now connId) s).view c).Live channels := by
  induction conns generalizing s with
  | nil => exact h
  | cons c' conns ih =>
    refine ih ?_
    by_cases hc : c' = c
    · subst hc
      exact live_dropStaleBatch hhandle h now
    · rw [view_dropStaleBatch_other hc]
      exact h

theorem live_step (hhandle : c ∈ env.handles) (h : (s.view c).Live channels) (e : Event) :
    ((s.step env e).view c).Live (channels ++ (e.queued c).toList) := by
  cases e with
  | queue c' channel now =>
    rw [App.step, Event.queued]
    by_cases hc : c' = c
    · subst hc
      rw [if_pos rfl]
      exact live_queueChannelQuery hhandle h now channel
    · rw [if_neg hc, view_queueChannelQuery_other hc, Option.toList_none, List.append_nil]
      exact h
  | complete c' target now =>
    rw [App.step, Event.queued, Option.toList_none, List.append_nil]
    by_cases hc : c' = c
    · subst hc
      exact live_handleWhoBatchComplete hhandle h now target
    · rw [view_handleWhoBatchComplete_other hc]
      exact h
  | checkStale now =>
    rw [App.step, Event.queued, Option.toList_none, List.append_nil]
    exact live_dropStaleBatches hhandle now _ h

/-- Channels only leave a queue. -/
theorem length_queue_dropStaleBatch_le (hhandle : c ∈ env.handles) (now : Nat) (c' : Str) :
    ((s.dropStaleBatch env now c').view c).queue.length ≤ (s.view c).queue.length ∧
      (c' = c → (s.view c).queue ≠ [] →
        ((s.dropStaleBatch env now c').view c).queue.length < (s.view c).queue.length) := by
  by_cases hc : c' = c
  · subst hc
    rw [App.dropStaleBatch, view_sendChannelQueryBatch env _ hhandle]
    obtain ⟨hle, hlt⟩ := View.length_queue_sendBatch
      (({ s with
        channelQueryInFlight := s.channelQueryInFlight.erase c'
        channelQuerySentAt := s.channelQuerySentAt.erase c' } : App).budget c') now
    exact ⟨hle, fun _ => hlt⟩
  · rw [view_dropStaleBatch_other hc]
    exact ⟨Nat.le_refl _, fun heq => absurd heq hc⟩

theorem length_queue_dropStaleBatches_le (hhandle : c ∈ env.handles) (now : Nat)
    (conns : List Str) :
    ((conns.foldl (fun s connId => s.dropStaleBatch env now connId) s).view c).queue.length ≤
      (s.view c).queue.length := by
  induction conns generalizing s with
  | nil => exact Nat.le_refl _
  | cons c' conns ih => exact ih.trans (length_queue_dropStaleBatch_le hhandle now c').1

/-- A check that goes through a connection takes channels off its queue. -/
theorem length_queue_dropStaleBatches_lt (hhandle : c ∈ env.handles) (now : Nat)
    {conns : List Str} (hmem : c ∈ conns) (hqueue : (s.view c).queue ≠ []) :
    ((conns.foldl (fun s connId => s.dropStaleBatch env now connId) s).view c).queue.length <
      (s.view c).queue.length := by
  obtain ⟨before, behind, rfl⟩ := List.append_of_mem hmem
  rw [List.foldl_append, List.foldl_cons]
  have hbefore := length_queue_dropStaleBatches_le (s := s) hhandle now before
  generalize before.foldl (fun s connId => s.dropStaleBatch env now connId) s = s' at hbefore ⊢
  have hbehind := length_queue_dropStaleBatches_le (s := s'.dropStaleBatch env now c) hhandle now
    behind
  have hpos := List.length_pos_iff.mpr hqueue
  have hdrop := length_queue_dropStaleBatch_le (s := s') hhandle now c
  by_cases hempty : (s'.view c).queue = []
  · rw [hempty, List.length_nil] at hdrop
    omega
  · have hlt := hdrop.2 rfl hempty
    omega

/-- **A check behind the half minute** sends a batch. -/
theorem length_queue_checkStale_lt (hhandle : c ∈ env.handles) {now at' : Nat}
    (hsentAt : (s.view c).sentAt = some at') (hstale : App.isStale now at' = true)
    (hqueue : (s.view c).queue ≠ []) :
    ((s.checkStaleWhoBatches env now).view c).queue.length < (s.view c).queue.length := by
  refine length_queue_dropStaleBatches_lt hhandle now ?_ hqueue
  refine (env.order_perm _).mem_iff.mpr (List.mem_map.mpr ⟨(c, at'), ?_, rfl⟩)
  exact List.mem_filter.mpr ⟨Dict.mem_rows_iff_lookup.mpr hsentAt, hstale⟩

/-! #### What is sent -/

/-- A batch adds the lines that ask for its channels. -/
theorem asks_sendChannelQueryBatch (h : ∀ sent ∈ s.sent, sent.Asks) (now : Nat) (c : Str) :
    ∀ sent ∈ (s.sendChannelQueryBatch env now c).sent, sent.Asks := by
  rw [App.sendChannelQueryBatch]
  split
  · exact h
  · exact h
  · dsimp only
    split_ifs with hnone
    · exact h
    · obtain ⟨hne, -⟩ := not_or.mp hnone
      intro sent hsent
      rw [App.sendCommands] at hsent
      rcases List.mem_append.mp hsent with hsent | hsent
      · refine h sent ?_
        rw [App.whoToken, App.nextWhoToken] at hsent
        split_ifs at hsent
        · split at hsent <;> exact hsent
        · exact hsent
      · rw [List.mem_singleton.mp hsent]
        exact asks_batchCommands c hne _ _

theorem asks_step (h : ∀ sent ∈ s.sent, sent.Asks) (e : Event) :
    ∀ sent ∈ (s.step env e).sent, sent.Asks := by
  cases e with
  | queue c channel now =>
    rw [App.step, App.queueChannelQuery]
    dsimp only
    split_ifs
    · exact h
    · exact asks_sendChannelQueryBatch (by exact h) now c
  | complete c target now =>
    rw [App.step, App.handleWhoBatchComplete]
    split
    · exact h
    · dsimp only
      split_ifs
      · exact asks_sendChannelQueryBatch (by exact h) now c
      · exact h
  | checkStale now =>
    rw [App.step, App.checkStaleWhoBatches]
    generalize env.order _ = conns
    induction conns generalizing s with
    | nil => exact h
    | cons c conns ih => exact ih (asks_sendChannelQueryBatch (by exact h) now c)

end Events

/-! ### Runs -/

section Runs

variable (env : Env) (connections : Dict Str Connection) (buffers : Dict Str ChannelBuffer)
  (events : List Event) {c : Str}

/-- A client that has not queued anything. -/
def App.start : App := ⟨connections, buffers, Table.empty, Table.empty, Table.empty, []⟩

/-- The client after some events. -/
def after : App := Run.run (App.step env) (.start connections buffers) events

/-- The channels that have been queued for a connection. -/
def queued (c : Str) : List Str := events.filterMap (Event.queued c)

/-- The queries of a connection are never stuck or repeated. -/
structure NeverStuck (c : Str) : Prop where
  live : ((after env connections buffers events).view c).Live (queued events c)
  /-- What has been sent for a batch asks for its channels. -/
  asks : ∀ sent ∈ (after env connections buffers events).sent, sent.connId = c → sent.Asks
  /-- A check behind the half minute takes channels off the queue. -/
  progress : ∀ now at',
    ((after env connections buffers events).view c).sentAt = some at' →
    App.isStale now at' = true → ((after env connections buffers events).view c).queue ≠ [] →
    ((after env connections buffers (events ++ [.checkStale now])).view c).queue.length <
      ((after env connections buffers events).view c).queue.length
  /-- After enough of them every channel has been sent once. -/
  drains : ∃ checks : List Nat,
    ((after env connections buffers (events ++ checks.map .checkStale)).view c).batches.flatten =
      queued events c

theorem after_concat (e : Event) : after env connections buffers (events ++ [e]) =
    (after env connections buffers events).step env e := Run.run_append _ events [e]

theorem live_after (hhandle : c ∈ env.handles) :
    ((after env connections buffers events).view c).Live (queued events c) := by
  induction events using List.reverseRecOn with
  | nil =>
    exact ⟨rfl, fun _ h => absurd h List.not_mem_nil, fun h => absurd rfl h, fun _ h => nomatch h⟩
  | append_singleton events e ih =>
    have hqueued : queued (events ++ [e]) c = queued events c ++ (e.queued c).toList := by
      rw [queued, List.filterMap_append, ← queued]
      cases hqueued : e.queued c <;> simp [hqueued]
    rw [after_concat, hqueued]
    exact live_step hhandle ih e

theorem asks_after : ∀ sent ∈ (after env connections buffers events).sent, sent.Asks :=
  Run.invariant (P := fun s : App => ∀ sent ∈ s.sent, sent.Asks)
    (fun _ e h => asks_step h e) (fun _ h => absurd h List.not_mem_nil) events

theorem queued_checks (checks : List Nat) :
    queued (events ++ checks.map .checkStale) c = queued events c := by
  rw [queued, List.filterMap_append, List.filterMap_map]
  have hnone : Event.queued c ∘ Event.checkStale = fun _ => none := rfl
  rw [hnone, List.filterMap_none, List.append_nil]
  rfl

theorem drains_after (hhandle : c ∈ env.handles) : ∃ checks : List Nat,
    ((after env connections buffers (events ++ checks.map .checkStale)).view c).queue = [] := by
  induction hlen : ((after env connections buffers events).view c).queue.length using
    Nat.strongRecOn generalizing events with
  | _ n ih =>
    subst hlen
    have hlive := live_after env connections buffers events hhandle
    by_cases hempty : ((after env connections buffers events).view c).queue = []
    · refine ⟨[], ?_⟩
      rw [List.map_nil, List.append_nil]
      exact hempty
    · obtain ⟨inFlight, hflight⟩ := Option.isSome_iff_exists.mp (hlive.waits hempty)
      obtain ⟨at', hsentAt⟩ := Option.isSome_iff_exists.mp (hlive.inFlight inFlight hflight).2.1
      -- a check that comes late enough
      have hstale : App.isStale (at' + (30 * 10 ^ 9 + 1)) at' = true := by
        rw [App.isStale, Nat.add_sub_cancel_left]
        exact decide_eq_true (Nat.lt_succ_self _)
      have hlt := length_queue_checkStale_lt hhandle hsentAt hstale hempty
      obtain ⟨checks, hchecks⟩ := ih _ hlt (events ++ [.checkStale (at' + (30 * 10 ^ 9 + 1))])
        (by rw [after_concat]; rfl)
      refine ⟨(at' + (30 * 10 ^ 9 + 1)) :: checks, ?_⟩
      rw [List.map_cons, List.append_cons]
      exact hchecks

/-- **The queries behind a JOIN** are never stuck or repeated on a connection with a handle. -/
theorem neverStuck_run (hhandle : c ∈ env.handles) :
    NeverStuck env connections buffers events c where
  live := live_after env connections buffers events hhandle
  asks := fun sent hsent _ => asks_after env connections buffers events sent hsent
  progress now at' hsentAt hstale hqueue := by
    rw [after_concat]
    exact length_queue_checkStale_lt hhandle hsentAt hstale hqueue
  drains := by
    obtain ⟨checks, hempty⟩ := drains_after env connections buffers events hhandle
    refine ⟨checks, ?_⟩
    have honce := (live_after env connections buffers (events ++ checks.map .checkStale)
      hhandle).once
    rw [hempty, List.append_nil, queued_checks] at honce
    exact honce

/-- Three channels are joined, the first batch is answered in another case, and a later reply names
a channel of it once more. -/
def threeChannels : List Event :=
  [.queue (str "n") (str "#a") 0, .queue (str "n") (str "#b") 1, .queue (str "n") (str "#c") 1,
    .complete (str "n") (str "#A") 2, .complete (str "n") (str "#a,#B") 3, .checkStale 4]

theorem neverStuck_three_channels :
    let env : Env := ⟨Store.sampleHost, [str "n"], id, fun l => List.Perm.refl l⟩
    (after env Table.empty Table.empty threeChannels).sent.map Sent.commands =
      [[[str "WHO", str "#a"], [str "MODE", str "#a"], [str "MODE", str "#a", str "b"]],
        [[str "WHO", str "#b,#c"], [str "MODE", str "#b"], [str "MODE", str "#c"],
          [str "MODE", str "#b", str "b"], [str "MODE", str "#c", str "b"]]] ∧
    NeverStuck env Table.empty Table.empty threeChannels (str "n") :=
  ⟨by decide, neverStuck_run _ _ _ _ List.mem_cons_self⟩

end Runs

end JoinQueries

end Repartee
