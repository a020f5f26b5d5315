import Repartee.E2e.Handshake

/-!
# The keyring

`keyring.rs`: typed records over the `e2e_*` tables. A table is a list of rows with a primary
key; a query or statement may fail (`Env.fault`), and a failing statement changes nothing.

## Main definitions

- `PeerRecord`, `IncomingSession`, `OutgoingSession`, `ChannelConfig`: the rows
- `Keyring`: the tables
-/

set_option autoImplicit false

namespace Repartee

/-- Trust status of a peer or session. -/
inductive TrustStatus where
  | pending
  | trusted
  | revoked
  deriving DecidableEq

/-- The stored text of a status. -/
def TrustStatus.asStr : TrustStatus → Str
  | .pending => str "pending"
  | .trusted => str "trusted"
  | .revoked => str "revoked"

/-- The text of a status in `{:?}`. -/
def TrustStatus.debug : TrustStatus → Str
  | .pending => str "Pending"
  | .trusted => str "Trusted"
  | .revoked => str "Revoked"

/-- Channel-level encryption mode. -/
inductive ChannelMode where
  | autoAccept
  | normal
  | quiet
  deriving DecidableEq

/-- The stored text of a mode. -/
def ChannelMode.asStr : ChannelMode → Str
  | .autoAccept => str "auto-accept"
  | .normal => str "normal"
  | .quiet => str "quiet"

/-- A known remote peer, identified by the fingerprint of its Ed25519 pubkey. -/
structure PeerRecord where
  fingerprint : Fingerprint
  pubkey : Bytes 32
  lastHandle : Option Str
  lastNick : Option Str
  firstSeen : Int
  lastSeen : Int
  globalStatus : TrustStatus
  deriving DecidableEq

/-- A peer's session key for a channel: we decrypt its messages with it. -/
structure IncomingSession where
  handle : Str
  channel : Str
  fingerprint : Fingerprint
  sk : SessionKey
  status : TrustStatus
  createdAt : Int
  deriving DecidableEq

/-- Our own session key for a channel. -/
structure OutgoingSession where
  channel : Str
  sk : SessionKey
  createdAt : Int
  pendingRotation : Bool
  deriving DecidableEq

structure ChannelConfig where
  channel : Str
  enabled : Bool
  mode : ChannelMode
  deriving DecidableEq

structure AutotrustRule where
  scope : Str
  handlePattern : Str
  createdAt : Int
  deriving DecidableEq

/-- A peer that our outgoing key of a channel was handed to. -/
structure OutgoingRecipient where
  channel : Str
  handle : Str
  fingerprint : Fingerprint
  firstSentAt : Int
  deriving DecidableEq

/-- The single row of `e2e_identity`. -/
structure IdentityRow where
  pubkey : Bytes 32
  privkey : Bytes 32
  fingerprint : Fingerprint
  createdAt : Int
  deriving DecidableEq

/-- The tables, each with its primary key (or, for autotrust, its uniqueness constraint). -/
structure Keyring where
  identity : Option IdentityRow
  peers : Table PeerRecord PeerRecord.fingerprint
  outgoing : Table OutgoingSession OutgoingSession.channel
  incoming : Table IncomingSession (fun s => (s.handle, s.channel))
  channels : Table ChannelConfig ChannelConfig.channel
  autotrust : Table AutotrustRule (fun r => (r.scope, r.handlePattern))
  recipients : Table OutgoingRecipient (fun r => (r.channel, r.handle))
  deriving DecidableEq

namespace Keyring

def empty : Keyring :=
  ⟨none, Table.empty, Table.empty, Table.empty, Table.empty, Table.empty, Table.empty⟩

variable (e : Env) (k : Keyring)

/-! ### Identity -/

def saveIdentity (row : IdentityRow) : Result Keyring :=
  e.exec .saveIdentity { k with identity := some row }

def loadIdentity : Result (Option IdentityRow) := e.exec .loadIdentity k.identity

/-! ### Peers -/

/-- The tables after `upsert_peer`; `pubkey` and `first_seen` of an existing row stay. -/
def putPeer (rec : PeerRecord) : Keyring :=
  { k with peers := k.peers.upsert rec (fun old =>
    { old with lastHandle := rec.lastHandle, lastNick := rec.lastNick,
               lastSeen := rec.lastSeen, globalStatus := rec.globalStatus }) (fun _ => rfl) }

/-- Insert or update a peer by fingerprint. -/
def upsertPeer (rec : PeerRecord) : Result Keyring := e.exec .upsertPeer (k.putPeer rec)

def getPeerByFingerprint (fp : Fingerprint) : Result (Option PeerRecord) :=
  e.exec (.getPeerByFingerprint fp) (k.peers.get? fp)

/-- The row with the latest `last_seen`. -/
def mostRecent : List PeerRecord → Option PeerRecord
  | [] => none
  | p :: ps =>
    match mostRecent ps with
    | none => some p
    | some q => if p.lastSeen < q.lastSeen then some q else some p

/-- The peers with the given last known handle. -/
def peersAt (handle : Str) : List PeerRecord :=
  k.peers.rows.filter (fun p => p.lastHandle = some handle)

/-- Find a peer by its last known handle; the most recently seen wins. -/
def getPeerByHandle (handle : Str) : Result (Option PeerRecord) :=
  e.exec .getPeerByHandle (mostRecent (k.peersAt handle))

def deletePeerByFingerprint (fp : Fingerprint) : Result Keyring :=
  e.exec .deletePeerByFingerprint
    { k with peers := k.peers.deleteWhere (fun p => p.fingerprint = fp) }

/-! ### Outgoing sessions -/

def setOutgoingSession (channel : Str) (sk : SessionKey) (createdAt : Int) : Result Keyring :=
  e.exec .setOutgoingSession
    { k with outgoing := k.outgoing.replace ⟨channel, sk, createdAt, false⟩ }

def getOutgoingSession (channel : Str) : Result (Option OutgoingSession) :=
  e.exec .getOutgoingSession (k.outgoing.get? channel)

def markOutgoingPendingRotation (channel : Str) : Result Keyring :=
  e.exec .markOutgoingPendingRotation
    { k with
      outgoing := k.outgoing.updateWhere (fun s => s.channel = channel)
        (fun s => { s with pendingRotation := true }) (fun _ => rfl) }

/-! ### Incoming sessions -/

def getIncomingSession (handle channel : Str) : Result (Option IncomingSession) :=
  e.exec .getIncomingSession (k.incoming.get? (handle, channel))

/-- Install an incoming session unless the row of its `(handle, channel)` has another
fingerprint. -/
def installIncomingSessionStrict (cr : Crates) (s : IncomingSession) : Result Keyring :=
  match e.fault .installIncomingSession with
  | some err => .error err
  | none =>
    match k.incoming.get? (s.handle, s.channel) with
    | some existing =>
      if existing.fingerprint ≠ s.fingerprint then
        .error (.handleMismatch (str "fp=" ++ cr.hexEncode existing.fingerprint.1)
          (str "fp=" ++ cr.hexEncode s.fingerprint.1))
      else .ok { k with incoming := k.incoming.replace s }
    | none => .ok { k with incoming := k.incoming.replace s }

def updateIncomingStatus (handle channel : Str) (status : TrustStatus) : Result Keyring :=
  e.exec .updateIncomingStatus
    { k with
      incoming := k.incoming.updateWhere
        (fun s => s.handle = handle && s.channel = channel)
        (fun s => { s with status := status }) (fun _ => rfl) }

def deleteIncomingSession (handle channel : Str) : Result Keyring :=
  e.exec .deleteIncomingSession
    { k with
      incoming := k.incoming.deleteWhere
        (fun s => s.handle = handle && s.channel = channel) }

/-- Delete the incoming sessions of a handle on all channels; returns how many. -/
def deleteIncomingSessionsForHandle (handle : Str) : Result (Nat × Keyring) :=
  e.exec .deleteIncomingSessionsForHandle
    (k.incoming.countWhere (fun s => s.handle = handle),
      { k with incoming := k.incoming.deleteWhere (fun s => s.handle = handle) })

/-! ### Channel config and autotrust -/

def setChannelConfig (cfg : ChannelConfig) : Result Keyring :=
  e.exec .setChannelConfig { k with channels := k.channels.replace cfg }

def getChannelConfig (channel : Str) : Result (Option ChannelConfig) :=
  e.exec .getChannelConfig (k.channels.get? channel)

/-- `INSERT OR IGNORE` -/
def addAutotrust (scope handlePattern : Str) (createdAt : Int) : Result Keyring :=
  e.exec .addAutotrust
    { k with
      autotrust := k.autotrust.upsert ⟨scope, handlePattern, createdAt⟩ id
        (fun _ => rfl) }

def removeAutotrust (pattern : Str) : Result Keyring :=
  e.exec .removeAutotrust
    { k with autotrust := k.autotrust.deleteWhere (fun r => r.handlePattern = pattern) }

/-- The loop of `glob_matches_ci`: the rest of the pattern and of the input, and what to resume
from at the last `*`. Every round consumes input, passes a `*` or moves the resumption point on,
so `fuel` bounds the number of rounds. -/
def globLoop : (fuel : Nat) → (star : Option (Str × Str)) → (pat inp : Str) → Bool
  | 0, _, _, _ => false
  | _ + 1, _, pat, [] => pat.all (fun c => c = '*')
  | fuel + 1, star, pat, i :: inp =>
    let resume :=
      match star with
      | some (starPat, _ :: starInp) => globLoop fuel (some (starPat, starInp)) starPat starInp
      | _ => false
    match pat with
    | [] => resume
    | p :: rest =>
      if p = '?' || p = i then globLoop fuel star rest inp
      else if p = '*' then globLoop fuel (some (rest, i :: inp)) rest (i :: inp)
      else resume

/-- Minimal case-insensitive glob matcher: `*` and `?`. -/
def globMatchesCi (cr : Crates) (pattern input : Str) : Bool :=
  let pat := pattern.flatMap cr.lowercase
  let inp := input.flatMap cr.lowercase
  globLoop ((inp.length + 2) * (inp.length + pat.length + 2)) none pat inp

/-- Whether any rule of scope `global` or of the channel matches the handle. -/
def autotrustMatches (cr : Crates) (handle channel : Str) : Result Bool :=
  e.exec .autotrustMatches (k.autotrust.rows.any (fun r =>
    (r.scope = str "global" || r.scope = channel) && globMatchesCi cr r.handlePattern handle))

/-! ### Outgoing recipients -/

/-- Record a recipient; an existing row keeps its `first_sent_at`. -/
def recordOutgoingRecipient (channel handle : Str) (fp : Fingerprint) (firstSentAt : Int) :
    Result Keyring :=
  e.exec .recordOutgoingRecipient
    { k with
      recipients := k.recipients.upsert ⟨channel, handle, fp, firstSentAt⟩
        (fun old => { old with fingerprint := fp }) (fun _ => rfl) }

def removeOutgoingRecipient (channel handle : Str) : Result Keyring :=
  e.exec .removeOutgoingRecipient
    { k with
      recipients := k.recipients.deleteWhere
        (fun r => r.channel = channel && r.handle = handle) }

/-- The recipients of a channel in the order they were first served. -/
def recipientsOf (channel : Str) : List OutgoingRecipient :=
  (k.recipients.rows.filter (fun r => r.channel = channel)).mergeSort
    (fun a b => a.firstSentAt ≤ b.firstSentAt)

def listOutgoingRecipients (channel : Str) : Result (List (Str × Fingerprint)) :=
  e.exec .listOutgoingRecipients
    ((k.recipientsOf channel).map (fun r => (r.handle, r.fingerprint)))

/-- Delete the recipient rows of a handle; returns how many. -/
def deleteOutgoingRecipientsForHandle (handle : Str) : Result (Nat × Keyring) :=
  e.exec .deleteOutgoingRecipientsForHandle
    (k.recipients.countWhere (fun r => r.handle = handle),
      { k with recipients := k.recipients.deleteWhere (fun r => r.handle = handle) })

/-! ### Listings -/

def listAllPeers : Result (List PeerRecord) :=
  e.exec .listAllPeers (k.peers.rows.mergeSort (fun a b => a.firstSeen ≤ b.firstSeen))

def listAllIncomingSessions : Result (List IncomingSession) :=
  e.exec .listAllIncomingSessions (k.incoming.rows.mergeSort (fun a b =>
    if a.channel = b.channel then Text.le a.handle b.handle else Text.le a.channel b.channel))

def listAllOutgoingSessions : Result (List OutgoingSession) :=
  e.exec .listAllOutgoingSessions
    (k.outgoing.rows.mergeSort (fun a b => Text.le a.channel b.channel))

def listAllChannelConfigs : Result (List ChannelConfig) :=
  e.exec .listAllChannelConfigs
    (k.channels.rows.mergeSort (fun a b => Text.le a.channel b.channel))

def listAutotrust : Result (List (Str × Str)) :=
  e.exec .listAutotrust (k.autotrust.rows.map (fun r => (r.scope, r.handlePattern)))

/-! ### Import -/

/-- The rows of an imported document. -/
structure ImportRows where
  identity : IdentityRow
  peers : List PeerRecord
  incoming : List IncomingSession
  outgoing : List OutgoingSession
  channels : List ChannelConfig
  autotrust : List AutotrustRule

/-- Replace every table in one transaction: a repeated key rolls it back. -/
def replaceAllForImport (rows : ImportRows) : Result Keyring :=
  match e.fault .replaceAllForImport, Table.ofRows? rows.peers, Table.ofRows? rows.incoming,
    Table.ofRows? rows.outgoing, Table.ofRows? rows.channels, Table.ofRows? rows.autotrust with
  | some err, _, _, _, _, _ => .error err
  | none, some peers, some incoming, some outgoing, some channels, some autotrust =>
    .ok { identity := some rows.identity, peers, outgoing, incoming, channels, autotrust,
          recipients := Table.empty }
  | none, _, _, _, _, _ => .error (.sqlite (str "UNIQUE constraint failed"))

end Keyring

end Repartee
