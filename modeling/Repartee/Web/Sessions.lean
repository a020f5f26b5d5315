import Mathlib.Data.List.Induction
import Repartee.E2e.Basic
import Repartee.Lib.Run
import Repartee.Lib.Table

/-!
# The login sessions

The server keeps its login sessions in memory, by the HMAC of their token, and writes them to a
file; a validation moves the last use of a session and writes the file at most once a minute. After
a crash the sessions are read from the file, so that a last use or the end of an expired session
may be lost, but no revocation is.

## Main definitions

- `SessionStore.create`, `SessionStore.validate`, `SessionStore.revoke`, `SessionStore.revokeAll`,
  `SessionStore.purgeExpired`, `load`: the store of the server
- `Server.step`: an operation or a crash, with what it answers
- `lastUse`: the last use of a token, read off the answers
- `Server.Inv`: how the memory, the file and the answers agree

## Main results

- `inv_step`, `inv_run`: every run keeps the agreement
- `validate_run`: a token is valid only within the maximum age of its last use, and is valid then
  if there was no crash since
-/

set_option autoImplicit false

namespace Repartee.Web

/-- One persisted web session. Times are in seconds. -/
structure PersistedSession (Hash : Type) where
  tokenHash : Hash
  createdAt : Int
  lastUsed : Int
  userAgent : Str
  label : Option Str

structure PersistedFile (Hash : Type) where
  version : Nat
  sessions : List (PersistedSession Hash)

structure Session where
  createdAt : Int
  lastUsed : Int
  userAgent : Str
  deriving DecidableEq

def fileVersion : Nat := 1

/-- The debounce of the file, in the milliseconds of the monotonic clock. -/
def saveDebounce : Nat := 60000

/-- HMAC-SHA256 under the secret of the server, the format of the file, and the configured lifetime
of a session. -/
structure SessionHost (Hash Bytes : Type) where
  hash : Str → Hash
  toBytes : PersistedFile Hash → Bytes
  fromBytes : Bytes → Option (PersistedFile Hash)
  maxAge : Nat

/-- The sessions in memory and the file on disk. -/
structure SessionStore (Hash Bytes : Type) where
  sessions : Dict Hash (PersistedSession Hash)
  dirty : Bool
  lastSaved : Nat
  file : Option Bytes

namespace SessionStore

variable {Hash Bytes : Type} [DecidableEq Hash] (host : SessionHost Hash Bytes)
  (s : SessionStore Hash Bytes)

/-- Write the file, unless nothing has changed or it was written a moment ago. -/
def flushIfNeeded (force : Bool) (instant : Nat) : SessionStore Hash Bytes :=
  if s.dirty = false then s
  else if (!force && decide (instant - s.lastSaved < saveDebounce)) = true then s
  else { s with
    file := some (host.toBytes ⟨fileVersion, s.sessions.values⟩), dirty := false,
    lastSaved := instant }

/-- Log in; `raw` is the random token. -/
def create (raw userAgent : Str) (now : Int) (instant : Nat) : SessionStore Hash Bytes :=
  let tokenHash := host.hash raw
  let session := ⟨tokenHash, now, now, userAgent, none⟩
  { s with sessions := s.sessions.insert tokenHash session, dirty := true }.flushIfNeeded host true
    instant

def validate (rawToken : Str) (now : Int) (instant : Nat) :
    Option Session × SessionStore Hash Bytes :=
  let hash := host.hash rawToken
  match s.sessions.lookup hash with
  | none => (none, s)
  | some session =>
    if session.lastUsed + host.maxAge ≤ now then
      (none, { s with sessions := s.sessions.erase hash, dirty := true }.flushIfNeeded host false
        instant)
    else
      let session := { session with lastUsed := now }
      (some ⟨session.createdAt, session.lastUsed, session.userAgent⟩,
        { s with sessions := s.sessions.insert hash session, dirty := true }.flushIfNeeded host
          false instant)

def revoke (rawToken : Str) (instant : Nat) : SessionStore Hash Bytes :=
  let hash := host.hash rawToken
  if (s.sessions.lookup hash).isSome then
    { s with sessions := s.sessions.erase hash, dirty := true }.flushIfNeeded host true instant
  else s

def revokeAll (instant : Nat) : SessionStore Hash Bytes :=
  if s.sessions.rows.isEmpty then s
  else { s with sessions := Table.empty, dirty := true }.flushIfNeeded host true instant

/-- The sessions whose lifetime is not over. -/
def unexpired (sessions : Dict Hash (PersistedSession Hash)) (now : Int) :
    Dict Hash (PersistedSession Hash) :=
  sessions.retain (fun _ session => decide (now < session.lastUsed + host.maxAge))

def purgeExpired (now : Int) (instant : Nat) : SessionStore Hash Bytes :=
  let kept := unexpired host s.sessions now
  if kept.rows.length ≠ s.sessions.rows.length then
    { s with sessions := kept, dirty := true }.flushIfNeeded host true instant
  else { s with sessions := kept }

end SessionStore

section Load

variable {Hash Bytes : Type} [DecidableEq Hash] (host : SessionHost Hash Bytes)

/-- The sessions of a file by their hashes. -/
def byHash (sessions : List (PersistedSession Hash)) : Dict Hash (PersistedSession Hash) :=
  sessions.foldl (fun d session => d.insert session.tokenHash session) Table.empty

/-- `SessionStore::load`, where the server starts. A missing or corrupt file yields an empty
store. -/
def load (file : Option Bytes) (now : Int) (instant : Nat) : SessionStore Hash Bytes :=
  let sessions :=
    match file.bind host.fromBytes with
    | none => Table.empty
    | some file =>
      if file.version = fileVersion then SessionStore.unexpired host (byHash file.sessions) now
      else Table.empty
  ⟨sessions, false, instant, file⟩

end Load

/-! ### Runs -/

inductive SessionOp where
  | create (raw userAgent : Str)
  | validate (rawToken : Str)
  | revoke (rawToken : Str)
  | revokeAll
  | purgeExpired
  | reload
  deriving DecidableEq

/-- An operation, the two clocks when it runs, and what it answers. -/
structure Answered where
  now : Int
  instant : Nat
  op : SessionOp
  answer : Option Session

/-- A store and the answers it has given. -/
structure Server (Hash Bytes : Type) where
  store : SessionStore Hash Bytes
  log : List Answered

section Step

variable {Hash Bytes : Type} [DecidableEq Hash] (host : SessionHost Hash Bytes)

/-- What an operation answers, and the store after it. -/
def SessionStore.perform (s : SessionStore Hash Bytes) (now : Int) (instant : Nat) :
    SessionOp → Option Session × SessionStore Hash Bytes
  | .create raw userAgent => (none, s.create host raw userAgent now instant)
  | .validate rawToken => s.validate host rawToken now instant
  | .revoke rawToken => (none, s.revoke host rawToken instant)
  | .revokeAll => (none, s.revokeAll host instant)
  | .purgeExpired => (none, s.purgeExpired host now instant)
  | .reload => (none, load host s.file now instant)

/-- An operation and the two clocks when it runs. -/
abbrev SessionEvent := Int × Nat × SessionOp

def Server.step (s : Server Hash Bytes) (e : SessionEvent) : Server Hash Bytes :=
  let performed := s.store.perform host e.1 e.2.1 e.2.2
  ⟨performed.2, s.log ++ [⟨e.1, e.2.1, e.2.2, performed.1⟩]⟩

/-- A server that starts without a file. -/
def Server.start : Server Hash Bytes := ⟨⟨Table.empty, false, 0, none⟩, []⟩

end Step

/-! ### The last use of a token -/

/-- The last use of a token that was created and is not revoked since: its creation, or a validation
that has succeeded. -/
def lastUseStep (token : Str) (use : Option Int) (a : Answered) : Option Int :=
  match a.op with
  | .create raw _ => if raw = token then some a.now else use
  | .validate rawToken =>
    if rawToken = token ∧ a.answer.isSome then use.map (fun _ => a.now) else use
  | .revoke rawToken => if rawToken = token then none else use
  | .revokeAll => none
  | .purgeExpired => use
  | .reload => use

def lastUse (token : Str) (log : List Answered) : Option Int :=
  log.foldl (lastUseStep token) none

/-- There was a crash since the last use of a token. -/
def crashedStep (token : Str) (crashed : Bool) (a : Answered) : Bool :=
  match a.op with
  | .create raw _ => if raw = token then false else crashed
  | .validate rawToken => if rawToken = token ∧ a.answer.isSome then false else crashed
  | .reload => true
  | _ => crashed

def crashedSince (token : Str) (log : List Answered) : Bool :=
  log.foldl (crashedStep token) false

theorem lastUse_concat (token : Str) (log : List Answered) (a : Answered) :
    lastUse token (log ++ [a]) = lastUseStep token (lastUse token log) a := by
  rw [lastUse, List.foldl_append]
  rfl

theorem crashedSince_concat (token : Str) (log : List Answered) (a : Answered) :
    crashedSince token (log ++ [a]) = crashedStep token (crashedSince token log) a := by
  rw [crashedSince, List.foldl_append]
  rfl

/-! ### Memory, file and answers -/

section Agreement

variable {Hash Bytes : Type} [DecidableEq Hash] (host : SessionHost Hash Bytes)

/-- What the memory has of the answers given so far. -/
structure Remembers (sessions : Dict Hash (PersistedSession Hash)) (log : List Answered)
    (now : Int) : Prop where
  keyed : ∀ h session, sessions.lookup h = some session → session.tokenHash = h
  past : ∀ h session, sessions.lookup h = some session → session.lastUsed ≤ now
  used : ∀ token session, sessions.lookup (host.hash token) = some session →
    ∃ use, lastUse token log = some use ∧ session.lastUsed ≤ use
  live : ∀ token use, lastUse token log = some use → crashedSince token log = false →
    use + host.maxAge ≤ now ∨
      ∃ session, sessions.lookup (host.hash token) = some session ∧ session.lastUsed = use

/-- What the file has of the memory: a session that is not in memory has expired. -/
def OnFile (s : SessionStore Hash Bytes) (now : Int) : Prop :=
  ∀ bytes, s.file = some bytes → ∃ sessions,
    host.fromBytes bytes = some ⟨fileVersion, sessions⟩ ∧
      (sessions.map PersistedSession.tokenHash).Nodup ∧
      ∀ session ∈ sessions, session.lastUsed + host.maxAge ≤ now ∨
        ∃ session', s.sessions.lookup session.tokenHash = some session' ∧
          session.lastUsed ≤ session'.lastUsed

structure Server.Inv (s : Server Hash Bytes) (now : Int) : Prop where
  remembers : Remembers host s.store.sessions s.log now
  onFile : OnFile host s.store now

variable {host} {sessions : Dict Hash (PersistedSession Hash)} {log : List Answered} {now : Int}

theorem Remembers.later (h : Remembers host sessions log now) {now' : Int} (hle : now ≤ now') :
    Remembers host sessions log now' where
  keyed := h.keyed
  past h' session hsession := Int.le_trans (h.past h' session hsession) hle
  used := h.used
  live token use huse hcrashed := (h.live token use huse hcrashed).imp_left (fun hover => by omega)

theorem OnFile.later {s : SessionStore Hash Bytes} (h : OnFile host s now) {now' : Int}
    (hle : now ≤ now') : OnFile host s now' := by
  intro bytes hbytes
  obtain ⟨sessions, hread, hnodup, hkept⟩ := h bytes hbytes
  exact ⟨sessions, hread, hnodup, fun session hsession =>
    (hkept session hsession).imp_left (fun hover => by omega)⟩

/-! ### The file -/

omit [DecidableEq Hash] in
@[simp] theorem sessions_flushIfNeeded (s : SessionStore Hash Bytes) (force : Bool)
    (instant : Nat) :
    (s.flushIfNeeded host force instant).sessions = s.sessions := by
  rw [SessionStore.flushIfNeeded]
  split_ifs <;> rfl

/-- What has just been written is what the memory has. -/
theorem onFile_written (hcodec : ∀ file, host.fromBytes (host.toBytes file) = some file)
    {s : SessionStore Hash Bytes} (hkeyed : ∀ h session, s.sessions.lookup h = some session →
      session.tokenHash = h)
    (hfile : s.file = some (host.toBytes ⟨fileVersion, s.sessions.values⟩)) :
    OnFile host s now := by
  intro bytes hbytes
  rw [hfile, Option.some.injEq] at hbytes
  have hrow : ∀ e ∈ s.sessions.rows, e.2.tokenHash = e.1 := fun e he =>
    hkeyed e.1 e.2 (Dict.mem_rows_iff_lookup.mp he)
  refine ⟨s.sessions.values, by rw [← hbytes, hcodec], ?_, fun session hsession => Or.inr ?_⟩
  · have hkeys : s.sessions.values.map PersistedSession.tokenHash =
        s.sessions.rows.map Prod.fst := by
      rw [Dict.values, List.map_map]
      exact List.map_congr_left hrow
    rw [hkeys]
    exact s.sessions.nodup
  · obtain ⟨e, he, rfl⟩ := List.mem_map.mp hsession
    refine ⟨e.2, ?_, Int.le_refl _⟩
    rw [hrow e he]
    exact Dict.mem_rows_iff_lookup.mp he

/-- A flush keeps the file in agreement; a forced one brings it about. -/
theorem onFile_flush (hcodec : ∀ file, host.fromBytes (host.toBytes file) = some file)
    {s : SessionStore Hash Bytes} (hkeyed : ∀ h session, s.sessions.lookup h = some session →
      session.tokenHash = h)
    {force : Bool} (hfile : (force = true ∧ s.dirty = true) ∨ OnFile host s now) (instant : Nat) :
    OnFile host (s.flushIfNeeded host force instant) now := by
  rw [SessionStore.flushIfNeeded]
  by_cases hdirty : s.dirty = false
  · rw [if_pos hdirty]
    exact hfile.resolve_left (fun h => by rw [hdirty] at h; cases h.2)
  · rw [if_neg hdirty]
    by_cases hsoon : (!force && decide (instant - s.lastSaved < saveDebounce)) = true
    · rw [if_pos hsoon]
      exact hfile.resolve_left (fun h => by rw [h.1] at hsoon; cases hsoon)
    · rw [if_neg hsoon]
      exact onFile_written hcodec hkeyed rfl

/-- The file does not see a session that is used once more, nor the end of an expired one. -/
theorem OnFile.of_sessions {s : SessionStore Hash Bytes} (h : OnFile host s now)
    {sessions : Dict Hash (PersistedSession Hash)} {dirty : Bool}
    (hkept : ∀ hash session, s.sessions.lookup hash = some session →
      session.lastUsed + host.maxAge ≤ now ∨
        ∃ session', sessions.lookup hash = some session' ∧ session.lastUsed ≤ session'.lastUsed) :
    OnFile host { s with sessions := sessions, dirty := dirty } now := by
  intro bytes hbytes
  obtain ⟨written, hread, hnodup, hold⟩ := h bytes hbytes
  refine ⟨written, hread, hnodup, fun session hsession => ?_⟩
  rcases hold session hsession with hover | ⟨session', hlookup, hle⟩
  · exact Or.inl hover
  · rcases hkept _ session' hlookup with hover | ⟨session'', hlookup', hle'⟩
    · exact Or.inl (by omega)
    · exact Or.inr ⟨session'', hlookup', Int.le_trans hle hle'⟩

/-! ### The memory -/

/-- A token is used now. -/
theorem Remembers.touch (hinj : Function.Injective host.hash) (h : Remembers host sessions log now)
    {token : Str} (session : PersistedSession Hash) (hkey : session.tokenHash = host.hash token)
    (hused : session.lastUsed = now) {a : Answered}
    (huse : ∀ token', lastUseStep token' (lastUse token' log) a =
      if token = token' then some now else lastUse token' log)
    (hcrashed : ∀ token' crashed, crashedStep token' crashed a =
      if token = token' then false else crashed) :
    Remembers host (sessions.insert (host.hash token) session) (log ++ [a]) now where
  keyed h' session' hsession' := by
    rw [Dict.lookup_insert] at hsession'
    by_cases hh : host.hash token = h'
    · rw [if_pos hh, Option.some.injEq] at hsession'
      rw [← hsession', hkey, hh]
    · rw [if_neg hh] at hsession'
      exact h.keyed h' session' hsession'
  past h' session' hsession' := by
    rw [Dict.lookup_insert] at hsession'
    by_cases hh : host.hash token = h'
    · rw [if_pos hh, Option.some.injEq] at hsession'
      rw [← hsession']
      exact Int.le_of_eq hused
    · rw [if_neg hh] at hsession'
      exact h.past h' session' hsession'
  used token' session' hsession' := by
    rw [lastUse_concat, huse]
    rw [Dict.lookup_insert] at hsession'
    by_cases htoken : token = token'
    · rw [if_pos htoken]
      rw [if_pos (congrArg host.hash htoken), Option.some.injEq] at hsession'
      rw [← hsession']
      exact ⟨now, rfl, Int.le_of_eq hused⟩
    · rw [if_neg htoken]
      rw [if_neg (fun hh => htoken (hinj hh))] at hsession'
      exact h.used token' session' hsession'
  live token' use := by
    rw [lastUse_concat, huse, crashedSince_concat, hcrashed, Dict.lookup_insert]
    by_cases htoken : token = token'
    · rw [if_pos htoken, if_pos (congrArg host.hash htoken)]
      intro hnow _
      exact Or.inr ⟨session, rfl, by rw [hused]; exact Option.some.inj hnow⟩
    · rw [if_neg htoken, if_neg htoken, if_neg (fun hh => htoken (hinj hh))]
      exact h.live token' use

/-- A session goes, because its token is revoked or because it has expired. -/
theorem Remembers.erase (hinj : Function.Injective host.hash) (h : Remembers host sessions log now)
    {token : Str} {a : Answered}
    (hgone : (∀ use, lastUseStep token use a = none) ∨
      (∀ use, lastUseStep token use a = use) ∧ ∃ session,
        sessions.lookup (host.hash token) = some session ∧ session.lastUsed + host.maxAge ≤ now)
    (huse : ∀ token' use, token ≠ token' → lastUseStep token' use a = use)
    (hcrashed : ∀ token' crashed, crashedStep token' crashed a = crashed) :
    Remembers host (sessions.erase (host.hash token)) (log ++ [a]) now where
  keyed h' session' hsession' := h.keyed h' session' (Dict.lookup_of_erase hsession').1
  past h' session' hsession' := h.past h' session' (Dict.lookup_of_erase hsession').1
  used token' session' hsession' := by
    obtain ⟨hold, hne⟩ := Dict.lookup_of_erase hsession'
    rw [lastUse_concat, huse token' _ (fun htoken => hne (by rw [htoken]))]
    exact h.used token' session' hold
  live token' use := by
    rw [lastUse_concat, crashedSince_concat, hcrashed, Dict.lookup_erase]
    by_cases htoken : token = token'
    · subst htoken
      intro hlast hsince
      rcases hgone with hrevoked | ⟨hkept, session, hsession, hover⟩
      · rw [hrevoked] at hlast
        cases hlast
      · rw [hkept] at hlast
        refine Or.inl ((h.live token use hlast hsince).elim id ?_)
        rintro ⟨session', hsession', rfl⟩
        rw [hsession, Option.some.injEq] at hsession'
        rw [← hsession']
        exact hover
    · rw [huse token' _ htoken, if_neg (fun hh => htoken (hinj hh))]
      exact h.live token' use

/-- What says nothing about the tokens leaves the memory as it is. -/
theorem Remembers.quiet (h : Remembers host sessions log now) {a : Answered}
    (huse : ∀ token use, lastUseStep token use a = use)
    (hcrashed : ∀ token crashed, crashedStep token crashed a = crashed) :
    Remembers host sessions (log ++ [a]) now where
  keyed := h.keyed
  past := h.past
  used token session hsession := by
    rw [lastUse_concat, huse]
    exact h.used token session hsession
  live token use := by
    rw [lastUse_concat, crashedSince_concat, huse, hcrashed]
    exact h.live token use

/-- No session is left. -/
theorem remembers_nothing (hnone : ∀ h, sessions.lookup h = none) {a : Answered}
    (huse : ∀ token use, lastUseStep token use a = none) :
    Remembers host sessions (log ++ [a]) now where
  keyed h session hsession := by rw [hnone] at hsession; cases hsession
  past h session hsession := by rw [hnone] at hsession; cases hsession
  used token session hsession := by rw [hnone] at hsession; cases hsession
  live token use := by
    rw [lastUse_concat, huse]
    exact nofun

theorem lookup_unexpired {h : Hash} {session : PersistedSession Hash} :
    (SessionStore.unexpired host sessions now).lookup h = some session ↔
      sessions.lookup h = some session ∧ now < session.lastUsed + host.maxAge := by
  rw [SessionStore.unexpired, Dict.lookup_retain, Option.filter_eq_some_iff, decide_eq_true_iff]

theorem lookup_foldl_insert (written : List (PersistedSession Hash)) (h : Hash) :
    (written.foldl (fun d session => d.insert session.tokenHash session) sessions).lookup h =
      ((written.reverse.find? (fun session => decide (session.tokenHash = h))).or
        (sessions.lookup h)) := by
  induction written generalizing sessions with
  | nil => rfl
  | cons session written ih =>
    rw [List.foldl_cons, ih, Dict.lookup_insert, List.reverse_cons, List.find?_append,
      Option.or_assoc]
    congr 1
    by_cases hh : session.tokenHash = h
    · simp [hh]
    · simp [hh]

theorem mem_of_lookup_byHash {written : List (PersistedSession Hash)} {h : Hash}
    {session : PersistedSession Hash} (hlookup : (byHash written).lookup h = some session) :
    session ∈ written ∧ session.tokenHash = h := by
  rw [byHash, lookup_foldl_insert, Dict.lookup_empty, Option.or_none] at hlookup
  have hkey := List.find?_some hlookup
  rw [decide_eq_true_iff] at hkey
  exact ⟨List.mem_reverse.mp (List.mem_of_find?_eq_some hlookup), hkey⟩

theorem lookup_byHash_of_mem {written : List (PersistedSession Hash)}
    (hnodup : (written.map PersistedSession.tokenHash).Nodup) {session : PersistedSession Hash}
    (hmem : session ∈ written) : (byHash written).lookup session.tokenHash = some session := by
  rw [byHash, lookup_foldl_insert, Dict.lookup_empty, Option.or_none]
  cases hfound : written.reverse.find?
      (fun session' => decide (session'.tokenHash = session.tokenHash)) with
  | none =>
    have hno := List.find?_eq_none.mp hfound session (List.mem_reverse.mpr hmem)
    exact absurd (decide_eq_true rfl) hno
  | some session' =>
    have hmem' := List.mem_reverse.mp (List.mem_of_find?_eq_some hfound)
    have hkey := List.find?_some hfound
    rw [decide_eq_true_iff] at hkey
    rw [List.inj_on_of_nodup_map hnodup hmem' hmem hkey]

/-! ### The steps -/

variable {s : Server Hash Bytes}

theorem inv_create (hcodec : ∀ file, host.fromBytes (host.toBytes file) = some file)
    (hinj : Function.Injective host.hash) (h : s.Inv host now) (instant : Nat)
    (raw userAgent : Str) : (s.step host (now, instant, .create raw userAgent)).Inv host now := by
  have hmemory : Remembers host _ _ now := h.remembers.touch hinj
    ⟨host.hash raw, now, now, userAgent, none⟩ rfl rfl
    (a := ⟨now, instant, .create raw userAgent, none⟩) (fun _ => rfl) (fun _ _ => rfl)
  refine ⟨?_, onFile_flush hcodec hmemory.keyed (Or.inl ⟨rfl, rfl⟩) instant⟩
  simp only [Server.step, SessionStore.perform, SessionStore.create, sessions_flushIfNeeded]
  exact hmemory

theorem inv_validate (hcodec : ∀ file, host.fromBytes (host.toBytes file) = some file)
    (hinj : Function.Injective host.hash) (h : s.Inv host now) (instant : Nat) (rawToken : Str) :
    (s.step host (now, instant, .validate rawToken)).Inv host now := by
  have hrejected : ∀ token, ¬ (rawToken = token ∧ (none : Option Session).isSome = true) :=
    fun token hboth => by cases hboth.2
  simp only [Server.step, SessionStore.perform, SessionStore.validate]
  cases hsession : s.store.sessions.lookup (host.hash rawToken) with
  | none =>
    exact ⟨h.remembers.quiet (fun token _ => if_neg (hrejected token))
      (fun token _ => if_neg (hrejected token)), h.onFile⟩
  | some session =>
    simp only
    by_cases hover : session.lastUsed + host.maxAge ≤ now
    · rw [if_pos hover]
      have hmemory : Remembers host _ _ now := h.remembers.erase hinj
        (a := ⟨now, instant, .validate rawToken, none⟩)
        (Or.inr ⟨fun _ => if_neg (hrejected _), session, hsession, hover⟩)
        (fun token _ _ => if_neg (hrejected token)) (fun token _ => if_neg (hrejected token))
      refine ⟨by rw [sessions_flushIfNeeded]; exact hmemory, ?_⟩
      refine onFile_flush hcodec hmemory.keyed (Or.inr (h.onFile.of_sessions ?_)) instant
      intro hash session' hsession'
      by_cases hkey : host.hash rawToken = hash
      · rw [← hkey, hsession, Option.some.injEq] at hsession'
        exact Or.inl (hsession' ▸ hover)
      · exact Or.inr ⟨session', by rw [Dict.lookup_erase, if_neg hkey]; exact hsession',
          Int.le_refl _⟩
    · rw [if_neg hover]
      have hkey := h.remembers.keyed _ session hsession
      have haccepted : ∀ token (α : Type) (x y : α),
          (if rawToken = token ∧ (some (⟨session.createdAt, now, session.userAgent⟩ :
            Session)).isSome = true then x else y) = if rawToken = token then x else y := by
        intro token α x y
        exact if_congr (and_iff_left rfl) rfl rfl
      have hmemory : Remembers host _ _ now := h.remembers.touch hinj
        { session with lastUsed := now } hkey rfl
        (a := ⟨now, instant, .validate rawToken,
          some ⟨session.createdAt, now, session.userAgent⟩⟩)
        (fun token => ?_) (fun token crashed => haccepted token _ false crashed)
      rotate_left
      · refine (haccepted token _ _ _).trans ?_
        by_cases htoken : rawToken = token
        · obtain ⟨use, huse, -⟩ := h.remembers.used rawToken session hsession
          rw [if_pos htoken, if_pos htoken, ← htoken, huse]
          rfl
        · rw [if_neg htoken, if_neg htoken]
      refine ⟨by rw [sessions_flushIfNeeded]; exact hmemory, ?_⟩
      refine onFile_flush hcodec hmemory.keyed (Or.inr (h.onFile.of_sessions ?_)) instant
      intro hash session' hsession'
      rw [Dict.lookup_insert]
      by_cases hkey : host.hash rawToken = hash
      · rw [if_pos hkey]
        exact Or.inr ⟨_, rfl, h.remembers.past hash session' hsession'⟩
      · rw [if_neg hkey]
        exact Or.inr ⟨session', hsession', Int.le_refl _⟩

theorem inv_revoke (hcodec : ∀ file, host.fromBytes (host.toBytes file) = some file)
    (hinj : Function.Injective host.hash) (h : s.Inv host now) (instant : Nat) (rawToken : Str) :
    (s.step host (now, instant, .revoke rawToken)).Inv host now := by
  have hmemory : Remembers host _ _ now := h.remembers.erase hinj
    (a := ⟨now, instant, .revoke rawToken, none⟩) (Or.inl (fun _ => if_pos rfl))
    (fun _ _ hne => if_neg hne) (fun _ _ => rfl)
  simp only [Server.step, SessionStore.perform, SessionStore.revoke]
  by_cases hsome : (s.store.sessions.lookup (host.hash rawToken)).isSome = true
  · rw [if_pos hsome]
    refine ⟨by rw [sessions_flushIfNeeded]; exact hmemory, ?_⟩
    exact onFile_flush hcodec hmemory.keyed (Or.inl ⟨rfl, rfl⟩) instant
  · rw [if_neg hsome]
    have hsame : s.store.sessions.erase (host.hash rawToken) = s.store.sessions := by
      refine Table.ext (List.filter_eq_self.mpr (fun e he => ?_))
      rw [Bool.not_eq_true', decide_eq_false_iff_not]
      intro hkey
      rw [← hkey, Dict.mem_rows_iff_lookup.mp he] at hsome
      exact hsome rfl
    rw [hsame] at hmemory
    exact ⟨hmemory, h.onFile⟩

theorem inv_revokeAll (hcodec : ∀ file, host.fromBytes (host.toBytes file) = some file)
    (h : s.Inv host now) (instant : Nat) :
    (s.step host (now, instant, .revokeAll)).Inv host now := by
  simp only [Server.step, SessionStore.perform, SessionStore.revokeAll]
  by_cases hempty : s.store.sessions.rows.isEmpty = true
  · rw [if_pos hempty]
    refine ⟨remembers_nothing (fun hash => ?_) (fun _ _ => rfl), h.onFile⟩
    have hrows : s.store.sessions = Table.empty := Table.ext (List.isEmpty_iff.mp hempty)
    rw [hrows, Dict.lookup_empty]
  · rw [if_neg hempty]
    have hmemory : Remembers host Table.empty
        (s.log ++ [⟨now, instant, .revokeAll, none⟩]) now :=
      remembers_nothing (fun _ => rfl) (fun _ _ => rfl)
    refine ⟨by rw [sessions_flushIfNeeded]; exact hmemory, ?_⟩
    exact onFile_flush hcodec hmemory.keyed (Or.inl ⟨rfl, rfl⟩) instant

/-- The expired sessions go. -/
theorem Remembers.unexpired (h : Remembers host sessions log now) {a : Answered}
    (huse : ∀ token use, lastUseStep token use a = use)
    (hcrashed : ∀ token crashed, crashedStep token crashed a = crashed) :
    Remembers host (SessionStore.unexpired host sessions now) (log ++ [a]) now where
  keyed h' session hsession := h.keyed h' session ((lookup_unexpired).mp hsession).1
  past h' session hsession := h.past h' session ((lookup_unexpired).mp hsession).1
  used token session hsession := by
    rw [lastUse_concat, huse]
    exact h.used token session ((lookup_unexpired).mp hsession).1
  live token use := by
    rw [lastUse_concat, crashedSince_concat, huse, hcrashed]
    intro hlast hsince
    rcases h.live token use hlast hsince with hover | ⟨session, hsession, hused⟩
    · exact Or.inl hover
    · by_cases hlive : now < session.lastUsed + host.maxAge
      · exact Or.inr ⟨session, (lookup_unexpired).mpr ⟨hsession, hlive⟩, hused⟩
      · exact Or.inl (by omega)

theorem inv_purgeExpired (hcodec : ∀ file, host.fromBytes (host.toBytes file) = some file)
    (h : s.Inv host now) (instant : Nat) :
    (s.step host (now, instant, .purgeExpired)).Inv host now := by
  have hmemory : Remembers host _ _ now := h.remembers.unexpired
    (a := ⟨now, instant, .purgeExpired, none⟩) (fun _ _ => rfl) (fun _ _ => rfl)
  simp only [Server.step, SessionStore.perform, SessionStore.purgeExpired]
  split_ifs with hdropped
  · refine ⟨by rw [sessions_flushIfNeeded]; exact hmemory, ?_⟩
    exact onFile_flush hcodec hmemory.keyed (Or.inl ⟨rfl, rfl⟩) instant
  · refine ⟨hmemory, h.onFile.of_sessions (fun hash session hsession => ?_)⟩
    by_cases hlive : now < session.lastUsed + host.maxAge
    · exact Or.inr ⟨session, (lookup_unexpired).mpr ⟨hsession, hlive⟩, Int.le_refl _⟩
    · exact Or.inl (by omega)

theorem inv_reload (h : s.Inv host now) (instant : Nat) :
    (s.step host (now, instant, .reload)).Inv host now := by
  simp only [Server.step, SessionStore.perform, load]
  cases hfile : s.store.file with
  | none =>
    refine ⟨⟨nofun, nofun, nofun, fun token use => ?_⟩, nofun⟩
    rw [crashedSince_concat]
    exact nofun
  | some bytes =>
    obtain ⟨written, hread, hnodup, hkept⟩ := h.onFile bytes hfile
    rw [Option.bind_some, hread]
    simp only [if_true]
    -- a session that is read was in memory, with the same last use or a later one
    have hmemory : ∀ hash session,
        (SessionStore.unexpired host (byHash written) now).lookup hash = some session →
        session.tokenHash = hash ∧ ∃ session', s.store.sessions.lookup hash = some session' ∧
          session.lastUsed ≤ session'.lastUsed := by
      intro hash session hsession
      obtain ⟨hlookup, hlive⟩ := (lookup_unexpired).mp hsession
      obtain ⟨hmem, rfl⟩ := mem_of_lookup_byHash hlookup
      exact ⟨rfl, (hkept session hmem).resolve_left (by omega)⟩
    refine ⟨⟨fun hash session hsession => (hmemory hash session hsession).1,
      fun hash session hsession => ?_, fun token session hsession => ?_, fun token use => ?_⟩, ?_⟩
    · obtain ⟨-, session', hsession', hle⟩ := hmemory hash session hsession
      exact Int.le_trans hle (h.remembers.past hash session' hsession')
    · obtain ⟨-, session', hsession', hle⟩ := hmemory _ session hsession
      obtain ⟨use, huse, hle'⟩ := h.remembers.used token session' hsession'
      rw [lastUse_concat]
      exact ⟨use, huse, Int.le_trans hle hle'⟩
    · rw [crashedSince_concat]
      exact nofun
    · intro bytes' hbytes
      rw [Option.some.injEq] at hbytes
      subst hbytes
      refine ⟨written, hread, hnodup, fun session hmem => ?_⟩
      by_cases hlive : now < session.lastUsed + host.maxAge
      · exact Or.inr ⟨session, (lookup_unexpired).mpr ⟨lookup_byHash_of_mem hnodup hmem, hlive⟩,
          Int.le_refl _⟩
      · exact Or.inl (by omega)

/-- Every operation keeps the agreement, and so does a crash. -/
theorem inv_step (hcodec : ∀ file, host.fromBytes (host.toBytes file) = some file)
    (hinj : Function.Injective host.hash) (h : s.Inv host now) {e : SessionEvent}
    (hle : now ≤ e.1) : (s.step host e).Inv host e.1 := by
  obtain ⟨now', instant, op⟩ := e
  have hlater : s.Inv host now' := ⟨h.remembers.later hle, h.onFile.later hle⟩
  cases op with
  | create raw userAgent => exact inv_create hcodec hinj hlater instant raw userAgent
  | validate rawToken => exact inv_validate hcodec hinj hlater instant rawToken
  | revoke rawToken => exact inv_revoke hcodec hinj hlater instant rawToken
  | revokeAll => exact inv_revokeAll hcodec hlater instant
  | purgeExpired => exact inv_purgeExpired hcodec hlater instant
  | reload => exact inv_reload hlater instant

end Agreement

/-! ### Runs -/

section Runs

variable {Hash Bytes : Type} [DecidableEq Hash] {host : SessionHost Hash Bytes}

/-- The clock does not go back. -/
def Ticks (es : List SessionEvent) : Prop := es.Pairwise (fun e e' => e.1 ≤ e'.1)

theorem inv_start (now : Int) : (Server.start : Server Hash Bytes).Inv host now :=
  ⟨⟨nofun, nofun, nofun, nofun⟩, nofun⟩

theorem inv_run (hcodec : ∀ file, host.fromBytes (host.toBytes file) = some file)
    (hinj : Function.Injective host.hash) {es : List SessionEvent} (hticks : Ticks es) {now : Int}
    (hnow : ∀ e ∈ es, e.1 ≤ now) : (Run.run (Server.step host) Server.start es).Inv host now := by
  induction es using List.reverseRecOn generalizing now with
  | nil => exact inv_start now
  | append_singleton es e ih =>
    obtain ⟨hes, -, hbefore⟩ := List.pairwise_append.mp hticks
    have hinv := inv_step hcodec hinj
      (ih hes (fun e' he' => hbefore e' he' e (List.mem_singleton_self e))) (Int.le_refl e.1)
    have hlast : e.1 ≤ now := hnow e (by simp)
    rw [Run.run_append]
    exact ⟨hinv.remembers.later hlast, hinv.onFile.later hlast⟩

/-- The token was returned by a login, and is not revoked since. -/
def Unrevoked (token : Str) (log : List Answered) : Prop :=
  ∃ pre a post userAgent, log = pre ++ a :: post ∧ a.op = .create token userAgent ∧
    ∀ b ∈ post, b.op ≠ .revoke token ∧ b.op ≠ .revokeAll

theorem Unrevoked.concat {token : Str} {log : List Answered} (h : Unrevoked token log)
    {a : Answered} (ha : a.op ≠ .revoke token ∧ a.op ≠ .revokeAll) :
    Unrevoked token (log ++ [a]) := by
  obtain ⟨pre, b, post, userAgent, rfl, hb, hpost⟩ := h
  refine ⟨pre, b, post ++ [a], userAgent, by simp, hb, fun c hc => ?_⟩
  rcases List.mem_append.mp hc with hc | hc
  · exact hpost c hc
  · rw [List.mem_singleton.mp hc]
    exact ha

/-- What has a last use was returned by a login, and is not revoked since. -/
theorem unrevoked_of_lastUse {token : Str} {log : List Answered} {use : Int}
    (h : lastUse token log = some use) : Unrevoked token log := by
  induction log using List.reverseRecOn generalizing use with
  | nil => cases h
  | append_singleton log a ih =>
    obtain ⟨now, instant, op, answer⟩ := a
    rw [lastUse_concat] at h
    cases op with
    | create raw userAgent =>
      by_cases hraw : raw = token
      · exact ⟨log, _, [], userAgent, rfl, by rw [hraw], nofun⟩
      · simp only [lastUseStep] at h
        rw [if_neg hraw] at h
        exact (ih h).concat ⟨nofun, nofun⟩
    | validate rawToken =>
      simp only [lastUseStep] at h
      refine Unrevoked.concat ?_ ⟨nofun, nofun⟩
      split_ifs at h
      · obtain ⟨use', huse', -⟩ := Option.map_eq_some_iff.mp h
        exact ih huse'
      · exact ih h
    | revoke rawToken =>
      simp only [lastUseStep] at h
      split_ifs at h with hraw
      exact (ih h).concat ⟨fun heq => hraw (SessionOp.revoke.inj heq), nofun⟩
    | revokeAll => cases h
    | purgeExpired => exact (ih h).concat ⟨nofun, nofun⟩
    | reload => exact (ih h).concat ⟨nofun, nofun⟩

/-- What a validation answers after a run: a session only if the token was created and not revoked
since and its last use is within the maximum age, and a session whenever it is within that age and
there was no crash since. -/
theorem validate_run (host : SessionHost Hash Bytes)
    (hcodec : ∀ file, host.fromBytes (host.toBytes file) = some file)
    (hinj : Function.Injective host.hash) (es : List SessionEvent) (now : Int)
    (hticks : Ticks es) (hnow : ∀ e ∈ es, e.1 ≤ now) (instant : Nat) (token : Str) :
    let s := Run.run (Server.step host) Server.start es
    ((s.store.validate host token now instant).1.isSome = true →
      Unrevoked token s.log ∧ ∃ use, lastUse token s.log = some use ∧ now - use ≤ host.maxAge) ∧
    (∀ use, lastUse token s.log = some use → crashedSince token s.log = false →
      now - use < host.maxAge → (s.store.validate host token now instant).1.isSome = true) := by
  have hinv := inv_run hcodec hinj hticks hnow
  intro s
  rw [SessionStore.validate]
  constructor
  · cases hsession : s.store.sessions.lookup (host.hash token) with
    | none => exact nofun
    | some session =>
      simp only
      by_cases hover : session.lastUsed + host.maxAge ≤ now
      · rw [if_pos hover]
        exact nofun
      · obtain ⟨use, huse, hle⟩ := hinv.remembers.used token session hsession
        exact fun _ => ⟨unrevoked_of_lastUse huse, use, huse, by omega⟩
  · intro use huse hsince hyoung
    obtain ⟨session, hsession, rfl⟩ := (hinv.remembers.live token use huse hsince).resolve_left
      (by omega)
    rw [hsession]
    simp only
    rw [if_neg (by omega)]
    rfl

end Runs

/-- Tokens are their own hashes, the file is what is written to it, and a session lives for an
hour. -/
def sampleSessionHost : SessionHost Str (PersistedFile Str) := ⟨id, id, some, 3600⟩

/-- A login, a use within the debounce of the file, and a crash. -/
def sampleSessions : List SessionEvent :=
  [(0, 0, .create (str "t") (str "ua")), (50, 50000, .validate (str "t")), (60, 60000, .reload)]

theorem validate_run_sampleSessions :
    let s := Run.run (Server.step sampleSessionHost) Server.start sampleSessions
    ((s.store.validate sampleSessionHost (str "t") 3599 3599000).1.isSome = true →
      Unrevoked (str "t") s.log ∧
        ∃ use, lastUse (str "t") s.log = some use ∧ 3599 - use ≤ sampleSessionHost.maxAge) ∧
    (∀ use, lastUse (str "t") s.log = some use → crashedSince (str "t") s.log = false →
      3599 - use < sampleSessionHost.maxAge →
      (s.store.validate sampleSessionHost (str "t") 3599 3599000).1.isSome = true) :=
  validate_run sampleSessionHost (fun _ => rfl) Function.injective_id sampleSessions 3599
    (by rw [Ticks]; decide) (by decide) 3599000 (str "t")

end Repartee.Web
