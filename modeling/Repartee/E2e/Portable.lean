import Repartee.E2e.Handlers

/-!
# Portable export and import

`portable.rs`: the keyring as one JSON document, and `load_or_init` of `manager.rs`, which builds
a manager over a keyring. The JSON crate and the file system are parameters.

## Main definitions

- `Portable`: the document
- `buildPortable`, `exportToPath`: export
- `validate`, `importFromPath`: import
- `loadOrInitWithTolerance`: a manager over a keyring
-/

set_option autoImplicit false

namespace Repartee

/-! ### The document -/

/-- Current schema version. -/
def exportVersion : Nat := 1

structure PortableIdentity where
  pubkey : Str
  privkey : Str
  fingerprint : Str
  createdAt : Int

structure PortablePeer where
  fingerprint : Str
  pubkey : Str
  lastHandle : Option Str
  lastNick : Option Str
  firstSeen : Int
  lastSeen : Int
  globalStatus : Str

structure PortableIncoming where
  handle : Str
  channel : Str
  fingerprint : Str
  sk : Str
  status : Str
  createdAt : Int

structure PortableOutgoing where
  channel : Str
  sk : Str
  createdAt : Int
  pendingRotation : Bool

structure PortableChannel where
  channel : Str
  enabled : Bool
  mode : Str

structure PortableAutotrust where
  scope : Str
  handlePattern : Str

structure Portable where
  version : Nat
  exportedAt : Int
  identity : PortableIdentity
  peers : List PortablePeer
  incomingSessions : List PortableIncoming
  outgoingSessions : List PortableOutgoing
  channels : List PortableChannel
  autotrust : List PortableAutotrust

/-- Row counts of an export. -/
structure ExportSummary where
  peers : Nat
  incoming : Nat
  outgoing : Nat
  channels : Nat
  autotrust : Nat

/-- Row counts of an import. -/
structure ImportSummary where
  identity : Bool
  peers : Nat
  incoming : Nat
  outgoing : Nat
  channels : Nat
  autotrust : Nat

/-- The JSON crate. -/
structure Json where
  toStringPretty : Portable → Except Str Str
  fromStr : Str → Except Str Portable

/-- Every document is written, and read back as it was. -/
structure Json.RoundTrips (js : Json) : Prop where
  writes : ∀ doc, ∃ text, js.toStringPretty doc = .ok text
  reads : ∀ {doc text}, js.toStringPretty doc = .ok text → js.fromStr text = .ok doc

variable (cr : Crates) (js : Json) (e : Env)

/-! ### Export -/

def PeerRecord.toPortable (p : PeerRecord) : PortablePeer where
  fingerprint := cr.hexEncode p.fingerprint.1
  pubkey := cr.hexEncode p.pubkey.1
  lastHandle := p.lastHandle
  lastNick := p.lastNick
  firstSeen := p.firstSeen
  lastSeen := p.lastSeen
  globalStatus := p.globalStatus.asStr

def IncomingSession.toPortable (s : IncomingSession) : PortableIncoming where
  handle := s.handle
  channel := s.channel
  fingerprint := cr.hexEncode s.fingerprint.1
  sk := cr.hexEncode s.sk.1
  status := s.status.asStr
  createdAt := s.createdAt

def OutgoingSession.toPortable (o : OutgoingSession) : PortableOutgoing where
  channel := o.channel
  sk := cr.hexEncode o.sk.1
  createdAt := o.createdAt
  pendingRotation := o.pendingRotation

def ChannelConfig.toPortable (c : ChannelConfig) : PortableChannel where
  channel := c.channel
  enabled := c.enabled
  mode := c.mode.asStr

def IdentityRow.toPortable (i : IdentityRow) : PortableIdentity where
  pubkey := cr.hexEncode i.pubkey.1
  privkey := cr.hexEncode i.privkey.1
  fingerprint := cr.hexEncode i.fingerprint.1
  createdAt := i.createdAt

def buildPortable (k : Keyring) : Result Portable := do
  match ← k.loadIdentity e with
  | none =>
    throw (.keyring (str "no identity present — nothing to export (run the client once to " ++
      str "generate one)"))
  | some identity =>
    let peers ← k.listAllPeers e
    let incoming ← k.listAllIncomingSessions e
    let outgoing ← k.listAllOutgoingSessions e
    let channels ← k.listAllChannelConfigs e
    let autotrust ← k.listAutotrust e
    return {
      version := exportVersion
      exportedAt := e.now
      identity := identity.toPortable cr
      peers := peers.map (PeerRecord.toPortable cr)
      incomingSessions := incoming.map (IncomingSession.toPortable cr)
      outgoingSessions := outgoing.map (OutgoingSession.toPortable cr)
      channels := channels.map ChannelConfig.toPortable
      autotrust := autotrust.map (fun r => ⟨r.1, r.2⟩) }

/-- Export a keyring; returns the text that is written with `writePrivateFile`. -/
def exportToPath (writePrivateFile : Str → Result Unit) (k : Keyring) :
    Result (Str × ExportSummary) := do
  let doc ← buildPortable cr e k
  let json ← (js.toStringPretty doc).mapError
    (fun err => .keyring (str "serialize export json: " ++ err))
  writePrivateFile json
  return (json, ⟨doc.peers.length, doc.incomingSessions.length, doc.outgoingSessions.length,
    doc.channels.length, doc.autotrust.length⟩)

/-! ### Validation -/

def parseHexArray (n : Nat) (field s : Str) : Result (Bytes n) :=
  match cr.hexDecode s with
  | .error err => .error (.keyring (field ++ str ": invalid hex (" ++ err ++ str ")"))
  | .ok bytes =>
    match Bytes.ofList? n bytes with
    | some out => .ok out
    | none => .error (.keyring (field ++ str ": expected " ++ fmtNat n ++
        str " bytes (hex length " ++ fmtNat (n * 2) ++ str "), got " ++ fmtNat bytes.length))

def parseTrustStatus (field s : Str) : Result TrustStatus :=
  if s = str "pending" then .ok .pending
  else if s = str "trusted" then .ok .trusted
  else if s = str "revoked" then .ok .revoked
  else .error (.keyring (field ++ str ": unknown status '" ++ s ++
    str "' (expected pending|trusted|revoked)"))

def parseChannelMode (field s : Str) : Result ChannelMode :=
  if s = str "auto-accept" || s = str "auto" then .ok .autoAccept
  else if s = str "normal" then .ok .normal
  else if s = str "quiet" then .ok .quiet
  else .error (.keyring (field ++ str ": unknown mode '" ++ s ++
    str "' (expected auto-accept|normal|quiet)"))

/-- The name of a field of the `idx`-th element of a list. -/
def fieldAt (list : String) (idx : Nat) (name : String) : Str :=
  str list ++ '[' :: (fmtNat idx ++ str "]." ++ str name)

/-- Validate the elements of a list, numbered from `idx`. -/
def validateAll {α β : Type} (f : Nat → α → Result β) : (idx : Nat) → List α → Result (List β)
  | _, [] => return []
  | idx, a :: rest => do
    let b ← f idx a
    let bs ← validateAll f (idx + 1) rest
    return b :: bs

def validateIdentity (i : PortableIdentity) : Result IdentityRow := do
  let pubkey ← parseHexArray cr 32 (str "identity.pubkey") i.pubkey
  let privkey ← parseHexArray cr 32 (str "identity.privkey") i.privkey
  let fingerprint ← parseHexArray cr 16 (str "identity.fingerprint") i.fingerprint
  return ⟨pubkey, privkey, fingerprint, i.createdAt⟩

def validatePeer (idx : Nat) (p : PortablePeer) : Result PeerRecord := do
  let fingerprint ← parseHexArray cr 16 (fieldAt "peers" idx "fingerprint") p.fingerprint
  let pubkey ← parseHexArray cr 32 (fieldAt "peers" idx "pubkey") p.pubkey
  let globalStatus ← parseTrustStatus (fieldAt "peers" idx "globalStatus") p.globalStatus
  return ⟨fingerprint, pubkey, p.lastHandle, p.lastNick, p.firstSeen, p.lastSeen, globalStatus⟩

def validateIncoming (idx : Nat) (s : PortableIncoming) : Result IncomingSession := do
  let fingerprint ← parseHexArray cr 16 (fieldAt "incomingSessions" idx "fingerprint") s.fingerprint
  let sk ← parseHexArray cr 32 (fieldAt "incomingSessions" idx "sk") s.sk
  let status ← parseTrustStatus (fieldAt "incomingSessions" idx "status") s.status
  return ⟨s.handle, s.channel, fingerprint, sk, status, s.createdAt⟩

def validateOutgoing (idx : Nat) (o : PortableOutgoing) : Result OutgoingSession := do
  let sk ← parseHexArray cr 32 (fieldAt "outgoingSessions" idx "sk") o.sk
  return ⟨o.channel, sk, o.createdAt, o.pendingRotation⟩

def validateChannel (idx : Nat) (c : PortableChannel) : Result ChannelConfig := do
  let mode ← parseChannelMode (fieldAt "channels" idx "mode") c.mode
  return ⟨c.channel, c.enabled, mode⟩

/-- Check a document and convert it into rows. -/
def validate (doc : Portable) : Result Keyring.ImportRows := do
  if doc.version ≠ exportVersion then
    throw (.keyring (str "unsupported export version: got " ++ fmtNat doc.version ++
      str ", expected " ++ fmtNat exportVersion))
  let identity ← validateIdentity cr doc.identity
  let peers ← validateAll (validatePeer cr) 0 doc.peers
  let incoming ← validateAll (validateIncoming cr) 0 doc.incomingSessions
  let outgoing ← validateAll (validateOutgoing cr) 0 doc.outgoingSessions
  let channels ← validateAll validateChannel 0 doc.channels
  return ⟨identity, peers, incoming, outgoing, channels,
    doc.autotrust.map (fun a => ⟨a.scope, a.handlePattern, doc.exportedAt⟩)⟩

/-! ### Import -/

namespace E2eManager

/-- Import a document; `file` is what opening and reading the file yields. -/
def importFromPath (file : Result Str) : M ImportSummary := do
  let raw ← lift file
  let doc ← lift ((js.fromStr raw).mapError (fun err => .keyring (str "parse json: " ++ err)))
  let validated ← lift (validate cr doc)
  tell (fun _ => Keyring.replaceAllForImport e validated)
  return ⟨true, validated.peers.length, validated.incoming.length, validated.outgoing.length,
    validated.channels.length, validated.autotrust.length⟩

/-- Build a manager over a keyring; one without an identity is given a fresh one. -/
def loadOrInitWithTolerance (k : Keyring) (tsToleranceSecs : Int) : Result E2eManager := do
  match ← k.loadIdentity e with
  | some stored =>
    let computedPk := cr.edPublic stored.privkey
    if computedPk ≠ stored.pubkey then
      throw (.crypto (str "stored identity public key does not match secret — keyring may be " ++
        str "corrupted"))
    if fingerprint cr computedPk ≠ stored.fingerprint then
      throw (.crypto (str "stored identity fingerprint does not match pubkey — keyring may be " ++
        str "corrupted"))
    return E2eManager.init stored.privkey k tsToleranceSecs
  | none =>
    let seed := e.random 0 32
    let pk := cr.edPublic seed
    let k ← k.saveIdentity e ⟨pk, seed, fingerprint cr pk, e.now⟩
    return { E2eManager.init seed k tsToleranceSecs with draws := 1 }

def loadOrInit (k : Keyring) : Result E2eManager :=
  loadOrInitWithTolerance cr e k defaultTsToleranceSecs

end E2eManager

end Repartee
