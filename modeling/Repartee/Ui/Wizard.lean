import Repartee.Config.Restart
import Repartee.Lib.Split

/-!
# The server wizard

The form engine of `ui/wizard/mod.rs` with the fields of a server (`ui/wizard/server.rs`): a server
is taken apart into the values of the form, and put together again from them, or from the form of
the web interface.

## Main definitions

- `WizardState`: a form with its values
- `buildWizard`, `build`, `buildFromWeb`: a server into the form, and out of it
- `ChangesNothing`, `HeldAs`: a server that is not touched stays as it is, or as the form holds it
- `Corresponds`: a form of the terminal and one of the web with the same contents

## Main results

- `changesNothing_iff`: when a server that is not touched stays as it is
- `wizard_keeps`: a server that is not touched comes back as the form holds it, and the two forms
  give the same result
-/

set_option autoImplicit false

namespace Repartee.Wizard

open Config (ServerConfig CredUpdate)

/-! ### The form engine -/

/-- What a field edits. -/
inductive FieldKind where
  | text
  | masked
  | toggle
  | select (options : List Str)
  | number

inductive FieldValue where
  | text (s : Str)
  | bool (b : Bool)
  /-- An index into the options of a `Select`. -/
  | choice (index : Nat)

/-- The key of a field, a text in the source. -/
inductive Key where
  | network
  | address
  | port
  | tls
  | tlsVerify
  | bindIp
  | id
  | nick
  | username
  | realname
  | channels
  | password
  | saslUser
  | saslPass
  | saslMechanism
  | encoding
  | autoconnect
  | autoReconnect
  | reconnectDelay
  | reconnectMaxRetries
  | autosendcmd
  | clientCertPath
  deriving DecidableEq

structure Field where
  key : Key
  label : Str
  kind : FieldKind
  page : Nat
  required : Bool
  readonly : Bool

inductive WizardMode where
  | add
  | edit (id : Str)

def WizardMode.isEdit : WizardMode → Bool
  | .add => false
  | .edit _ => true

/-- An open form; where its focus and its cursor are does not matter here. -/
structure WizardState where
  mode : WizardMode
  title : Str
  pageNames : List Str
  fields : List Field
  values : List FieldValue
  /-- Whether each field was edited. -/
  touched : List Bool

namespace WizardState

/-- `WizardState::new` -/
def new (mode : WizardMode) (title : Str) (pageNames : List Str) (fields : List Field)
    (values : List FieldValue) : WizardState where
  mode := mode
  title := title
  pageNames := pageNames
  fields := fields
  values := values
  touched := List.replicate fields.length false

variable (w : WizardState) (key : Key)

def fieldIndex : Option Nat := w.fields.findIdx? (fun f => f.key = key)

def text : Str :=
  match (w.fieldIndex key).bind (fun i => w.values[i]?) with
  | some (.text s) => s
  | _ => []

def boolean : Bool :=
  match (w.fieldIndex key).bind (fun i => w.values[i]?) with
  | some (.bool b) => b
  | _ => false

def choiceStr : Str :=
  match (w.fieldIndex key).bind (fun i => w.fields[i]?),
      (w.fieldIndex key).bind (fun i => w.values[i]?) with
  | some field, some (.choice c) =>
    match field.kind with
    | .select options => (options[c]?).getD []
    | _ => []
  | _, _ => []

def wasTouched : Bool := ((w.fieldIndex key).bind (fun i => w.touched[i]?)).getD false

/-- The label of a required text field that is left blank. -/
def missing : Field × FieldValue → Option Str
  | (f, .text s) => if f.required ∧ Text.trim s = [] then some f.label else none
  | _ => none

/-- Label of the first required text field that is left blank. -/
def firstMissingRequired : Option Str := (w.fields.zip w.values).findSome? missing

end WizardState

/-! ### Servers -/

/-- The characters of a slug, and whether the last one was `_`. -/
def slugChars : Bool → Str → Str
  | _, [] => []
  | prevUs, ch :: name =>
    if ch.toLower.isAlphanum then ch.toLower :: slugChars false name
    else if prevUs then slugChars prevUs name
    else '_' :: slugChars true name

/-- Slugify a network name into a server id. -/
def slugify (name : Str) : Str := Text.trimMatches '_' (slugChars false name)

/-- Make `base` unique against existing ids by appending `_2`, `_3`, … -/
def uniqueId (base : Str) (servers : Dict Str ServerConfig) : Str :=
  let base := if base = [] then str "server" else base
  if (servers.lookup base).isNone then base
  else servers.freeKey (fun n => base ++ '_' :: fmtNat (n + 2))

def saslMechs : List Str := [str "Auto", str "PLAIN", str "EXTERNAL"]

def mechIndex (m : Option Str) : Nat :=
  if m = some (str "PLAIN") then 1 else if m = some (str "EXTERNAL") then 2 else 0

def mechFromChoice (choice : Str) : Option Str :=
  if choice = str "PLAIN" then some (str "PLAIN")
  else if choice = str "EXTERNAL" then some (str "EXTERNAL")
  else none

/-- Trim and convert empty to `None`. -/
def opt (s : Str) : Option Str := if Text.trim s = [] then none else some (Text.trim s)

/-- A field that is neither required nor read-only. -/
def plain (key : Key) (label : String) (kind : FieldKind) (page : Nat) : Field :=
  ⟨key, str label, kind, page, false, false⟩

/-- The fields of a server, the basic ones and the advanced ones. -/
def schema (edit : Bool) : List Field :=
  [⟨.network, str "Network Name", .text, 0, true, false⟩,
    ⟨.address, str "Server address / IP", .text, 0, true, false⟩,
    plain .port "Port" .number 0,
    plain .tls "Use TLS/SSL" .toggle 0,
    plain .tlsVerify "Verify TLS certificate" .toggle 0,
    plain .bindIp "Bind IP" .text 0,
    ⟨.id, str "Server id", .text, 1, false, edit⟩,
    plain .nick "Nick" .text 1,
    plain .username "Username" .text 1,
    plain .realname "Realname" .text 1,
    plain .channels "Channels (comma-separated)" .text 1,
    plain .password "Server password" .masked 1,
    plain .saslUser "SASL user" .text 1,
    plain .saslPass "SASL pass" .masked 1,
    plain .saslMechanism "SASL mechanism" (.select saslMechs) 1,
    plain .encoding "Encoding" .text 1,
    plain .autoconnect "Autoconnect" .toggle 1,
    plain .autoReconnect "Auto-reconnect" .toggle 1,
    plain .reconnectDelay "Reconnect delay (s)" .number 1,
    plain .reconnectMaxRetries "Reconnect max retries" .number 1,
    plain .autosendcmd "Autosendcmd" .text 1,
    plain .clientCertPath "Client cert path" .text 1]

/-- The value that a field has without another one. -/
def FieldKind.blank : FieldKind → FieldValue
  | .toggle => .bool false
  | .select _ => .choice 0
  | _ => .text []

/-- Default values for an "add" wizard. -/
def addValues (fields : List Field) : List FieldValue :=
  fields.map fun f =>
    match f.key with
    | .port => .text (str "6667")
    | .tlsVerify | .autoconnect | .autoReconnect => .bool true
    | _ => f.kind.blank

/-- Values pre-filled from an existing server; credentials are left empty. -/
def editValues (fields : List Field) (id : Str) (s : ServerConfig) : List FieldValue :=
  fields.map fun f =>
    match f.key with
    | .network => .text s.label
    | .address => .text s.address
    | .port => .text (fmtNat s.port)
    | .tls => .bool s.tls
    | .tlsVerify => .bool s.tlsVerify
    | .bindIp => .text (s.bindIp.getD [])
    | .id => .text id
    | .nick => .text (s.nick.getD [])
    | .username => .text (s.username.getD [])
    | .realname => .text (s.realname.getD [])
    | .channels => .text ((str ", ").intercalate s.channels)
    | .saslUser => .text (s.saslUser.getD [])
    | .saslMechanism => .choice (mechIndex s.saslMechanism)
    | .encoding => .text (s.encoding.getD [])
    | .autoconnect => .bool s.autoconnect
    | .autoReconnect => .bool (s.autoReconnect.getD true)
    | .reconnectDelay => .text ((s.reconnectDelay.map fmtNat).getD [])
    | .reconnectMaxRetries => .text ((s.reconnectMaxRetries.map fmtNat).getD [])
    | .autosendcmd => .text (s.autosendcmd.getD [])
    | .clientCertPath => .text (s.clientCertPath.getD [])
    | .password | .saslPass => f.kind.blank

/-- Construct the server wizard for add or edit. -/
def buildWizard (mode : WizardMode) (existing : Option ServerConfig) : WizardState :=
  let fields := schema mode.isEdit
  let pageNames := [str "Basics", str "Advanced"]
  match mode, existing with
  | .edit id, some s =>
    .new mode (str "Edit Server — " ++ id) pageNames fields (editValues fields id s)
  | _, _ => .new mode (str "Add Server") pageNames fields (addValues fields)

structure BuiltServer where
  id : Str
  config : ServerConfig
  password : CredUpdate
  saslPass : CredUpdate

/-- The channels between commas. -/
def splitChannels (raw : Str) : List Str :=
  ((raw.splitOn ',').map Text.trim).filter (fun s => !s.isEmpty)

def parseOptNum (bits : Nat) (raw what : Str) : Except Str (Option Nat) :=
  let t := Text.trim raw
  if t = [] then .ok none
  else
    match Text.parseInt 0 (2 ^ bits - 1) t with
    | .ok n => .ok (some n.toNat)
    | .error _ => .error (what ++ str " must be a number")

/-- Resolve a masked credential field: the update, and the value in memory. -/
def resolveCred (w : WizardState) (key : Key) (existing : Option Str) :
    CredUpdate × Option Str :=
  if w.wasTouched key = false then (.keep, existing)
  else if w.text key = [] then (.remove, none)
  else (.set (w.text key), some (w.text key))

def defaultPort (tls : Bool) : Nat := if tls then 6697 else 6667

/-- The port with TLS is not the one without. -/
def bumpPort (tls : Bool) (port : Nat) : Nat := if tls ∧ port = 6667 then 6697 else port

/-- The text of a port; without one it is the default. -/
def parsePort (tls : Bool) (raw : Str) : Except Str Nat :=
  if raw = [] then .ok (defaultPort tls)
  else
    match Text.parseInt 0 (2 ^ 16 - 1) raw with
    | .ok n => .ok n.toNat
    | .error _ => .error (str "Port must be a number 1–65535")

/-- The id of the server: the one that is edited, or a new one. -/
def resolveId (w : WizardState) (servers : Dict Str ServerConfig) : Str :=
  match w.mode with
  | .edit id => id
  | .add =>
    let typed := Text.trim (w.text .id)
    let base := if typed = [] then slugify (Text.trim (w.text .network)) else slugify typed
    uniqueId base servers

/-- Validate and serialize the wizard. -/
def build (w : WizardState) (servers : Dict Str ServerConfig) : Except Str BuiltServer := do
  if let some label := w.firstMissingRequired then
    throw (label ++ str " is required")
  let network := Text.trim (w.text .network)
  let address := Text.trim (w.text .address)
  let tls := w.boolean .tls
  let port ← parsePort tls (Text.trim (w.text .port))
  let port := bumpPort tls port
  let reconnectDelay ← parseOptNum 64 (w.text .reconnectDelay) (str "Reconnect delay")
  let reconnectMaxRetries ←
    parseOptNum 32 (w.text .reconnectMaxRetries) (str "Reconnect max retries")
  let id := resolveId w servers
  let existing := servers.lookup id
  let password := resolveCred w .password (existing.bind ServerConfig.password)
  let saslPass := resolveCred w .saslPass (existing.bind ServerConfig.saslPass)
  return {
    id := id
    config := {
      label := network
      address := address
      port := port
      tls := tls
      tlsVerify := w.boolean .tlsVerify
      autoconnect := w.boolean .autoconnect
      channels := splitChannels (w.text .channels)
      nick := opt (w.text .nick)
      username := opt (w.text .username)
      realname := opt (w.text .realname)
      password := password.2
      saslUser := opt (w.text .saslUser)
      saslPass := saslPass.2
      bindIp := opt (w.text .bindIp)
      encoding := opt (w.text .encoding)
      autoReconnect := some (w.boolean .autoReconnect)
      reconnectDelay := reconnectDelay
      reconnectMaxRetries := reconnectMaxRetries
      autosendcmd := opt (w.text .autosendcmd)
      saslMechanism := mechFromChoice (w.choiceStr .saslMechanism)
      clientCertPath := opt (w.text .clientCertPath) }
    password := password.1
    saslPass := saslPass.1 }

/-! ### The web form -/

/-- Raw fields from the web wizard. -/
structure WebServerForm where
  /-- None or an empty one: add; another one: edit that id. -/
  id : Option Str
  network : Str
  address : Str
  port : Option Nat
  tls : Bool
  tlsVerify : Bool
  autoconnect : Bool
  channels : Str
  nick : Str
  username : Str
  realname : Str
  bindIp : Str
  encoding : Str
  saslUser : Str
  saslMechanism : Str
  autosendcmd : Str
  clientCertPath : Str
  autoReconnect : Bool
  reconnectDelay : Str
  reconnectMaxRetries : Str
  /-- None: leave unchanged; an empty one: clear; another one: set. -/
  password : Option Str
  saslPass : Option Str

/-- Resolve a web credential field. -/
def webCred (incoming existing : Option Str) : CredUpdate × Option Str :=
  match incoming with
  | none => (.keep, existing)
  | some [] => (.remove, none)
  | some v => (.set v, some v)

/-- The id that the form edits, or a new one. -/
def webId (form : WebServerForm) (servers : Dict Str ServerConfig) : Str :=
  let edit := form.id.any (fun s => s ≠ [])
  if edit then form.id.getD [] else uniqueId (slugify form.network) servers

/-- Validate and serialize a web form, mirroring `build`. -/
def buildFromWeb (form : WebServerForm) (servers : Dict Str ServerConfig) :
    Except Str BuiltServer := do
  if Text.trim form.network = [] then throw (str "Network Name is required")
  if Text.trim form.address = [] then throw (str "Server address is required")
  let tls := form.tls
  let port := bumpPort tls (form.port.getD (defaultPort tls))
  let reconnectDelay ← parseOptNum 64 form.reconnectDelay (str "Reconnect delay")
  let reconnectMaxRetries ←
    parseOptNum 32 form.reconnectMaxRetries (str "Reconnect max retries")
  let id := webId form servers
  let existing := servers.lookup id
  let password := webCred form.password (existing.bind ServerConfig.password)
  let saslPass := webCred form.saslPass (existing.bind ServerConfig.saslPass)
  return {
    id := id
    config := {
      label := Text.trim form.network
      address := Text.trim form.address
      port := port
      tls := tls
      tlsVerify := form.tlsVerify
      autoconnect := form.autoconnect
      channels := splitChannels form.channels
      nick := opt form.nick
      username := opt form.username
      realname := opt form.realname
      password := password.2
      saslUser := opt form.saslUser
      saslPass := saslPass.2
      bindIp := opt form.bindIp
      encoding := opt form.encoding
      autoReconnect := some form.autoReconnect
      reconnectDelay := reconnectDelay
      reconnectMaxRetries := reconnectMaxRetries
      autosendcmd := opt form.autosendcmd
      saslMechanism := mechFromChoice form.saslMechanism
      clientCertPath := opt form.clientCertPath }
    password := password.1
    saslPass := saslPass.1 }

/-! ### What they should do -/

/-- A server with numbers of the types that they have. -/
structure Typed (s : ServerConfig) : Prop where
  port : s.port < 2 ^ 16
  reconnectDelay : ∀ n, s.reconnectDelay = some n → n < 2 ^ 64
  reconnectMaxRetries : ∀ n, s.reconnectMaxRetries = some n → n < 2 ^ 32

/-- Optional texts that are equal up to surrounding blanks. -/
def SameText (a b : Option Str) : Prop := opt (a.getD []) = opt (b.getD [])

/-- The parts of a server that the form can always hold. -/
structure Alike (c s : ServerConfig) : Prop where
  tls : c.tls = s.tls
  tlsVerify : c.tlsVerify = s.tlsVerify
  autoconnect : c.autoconnect = s.autoconnect
  password : c.password = s.password
  saslPass : c.saslPass = s.saslPass
  nick : SameText c.nick s.nick
  username : SameText c.username s.username
  realname : SameText c.realname s.realname
  saslUser : SameText c.saslUser s.saslUser
  bindIp : SameText c.bindIp s.bindIp
  encoding : SameText c.encoding s.encoding
  autosendcmd : SameText c.autosendcmd s.autosendcmd
  clientCertPath : SameText c.clientCertPath s.clientCertPath
  /-- Without a value the client reconnects. -/
  autoReconnect : c.autoReconnect.getD true = s.autoReconnect.getD true
  reconnectDelay : c.reconnectDelay = s.reconnectDelay
  reconnectMaxRetries : c.reconnectMaxRetries = s.reconnectMaxRetries

/-- A server behaves like another one. -/
structure BehavesLike (c s : ServerConfig) : Prop extends Alike c s where
  label : c.label = s.label
  address : c.address = s.address
  port : c.port = s.port
  channels : c.channels = s.channels
  saslMechanism : c.saslMechanism = s.saslMechanism

/-- The mechanisms that the form offers. -/
def Offered (m : Option Str) : Prop :=
  m = none ∨ m = some (str "PLAIN") ∨ m = some (str "EXTERNAL")

/-- A server comes back as the form holds it. -/
structure HeldAs (c s : ServerConfig) : Prop extends Alike c s where
  label : c.label = Text.trim s.label
  address : c.address = Text.trim s.address
  port : c.port = bumpPort s.tls s.port
  channels : c.channels = s.channels.flatMap splitChannels
  saslMechanism : Offered s.saslMechanism → c.saslMechanism = s.saslMechanism

/-- The form of a server that is not touched. -/
def untouched (id : Str) (s : ServerConfig) : WizardState := buildWizard (.edit id) (some s)

/-- Editing a server without touching anything changes nothing. -/
def ChangesNothing (servers : Dict Str ServerConfig) (id : Str) (s : ServerConfig) : Prop :=
  ∃ c, build (untouched id s) servers = .ok ⟨id, c, .keep, .keep⟩ ∧ BehavesLike c s

/-- What the form can hold. -/
structure Holds (s : ServerConfig) : Prop where
  label : s.label ≠ [] ∧ Text.trim s.label = s.label
  address : s.address ≠ [] ∧ Text.trim s.address = s.address
  port : ¬ (s.tls = true ∧ s.port = 6667)
  channels : ∀ ch ∈ s.channels, ch ≠ [] ∧ Text.IsPart ',' ch
  saslMechanism : Offered s.saslMechanism

/-- A server that is not touched comes back as the form holds it, unless a required field is
blank. -/
structure KeepsUntouched (servers : Dict Str ServerConfig) (id : Str) (s : ServerConfig) :
    Prop where
  kept : Text.trim s.label ≠ [] → Text.trim s.address ≠ [] →
    ∃ c, build (untouched id s) servers = .ok ⟨id, c, .keep, .keep⟩ ∧ HeldAs c s
  refused : Text.trim s.label = [] ∨ Text.trim s.address = [] →
    ∃ e, build (untouched id s) servers = .error e
  unchanged : Holds s → ChangesNothing servers id s

def FieldKind.Fits : FieldKind → FieldValue → Prop
  | .text, .text _ | .masked, .text _ | .number, .text _ => True
  | .toggle, .bool _ => True
  | .select _, .choice _ => True
  | _, _ => False

/-- A form with the fields of a server. -/
structure IsServerForm (w : WizardState) : Prop where
  fields : w.fields = schema w.mode.isEdit
  values : List.Forall₂ (fun f v => f.kind.Fits v) w.fields w.values

/-- The web form names the server as the form does; it has no id for a new one. -/
def SameId (w : WizardState) (form : WebServerForm) : Prop :=
  match w.mode with
  | .add => Text.trim (w.text .id) = [] ∧ (form.id = none ∨ form.id = some [])
  | .edit id => id ≠ [] ∧ form.id = some id

/-- The port of the web form is a number already. -/
def SamePort (raw : Str) (port : Option Nat) : Prop :=
  match port with
  | none => Text.trim raw = []
  | some p => Text.parseInt 0 (2 ^ 16 - 1) (Text.trim raw) = .ok (p : Int)

/-- The web form sends a credential if its field was edited. -/
def SameCred (w : WizardState) (key : Key) (cred : Option Str) : Prop :=
  cred = if w.wasTouched key then some (w.text key) else none

/-- A form of the web with the contents of one of the terminal. -/
structure Corresponds (w : WizardState) (form : WebServerForm) : Prop extends IsServerForm w where
  id : SameId w form
  network : form.network = w.text .network
  address : form.address = w.text .address
  port : SamePort (w.text .port) form.port
  tls : form.tls = w.boolean .tls
  tlsVerify : form.tlsVerify = w.boolean .tlsVerify
  autoconnect : form.autoconnect = w.boolean .autoconnect
  channels : form.channels = w.text .channels
  nick : form.nick = w.text .nick
  username : form.username = w.text .username
  realname : form.realname = w.text .realname
  bindIp : form.bindIp = w.text .bindIp
  encoding : form.encoding = w.text .encoding
  saslUser : form.saslUser = w.text .saslUser
  saslMechanism : form.saslMechanism = w.choiceStr .saslMechanism
  autosendcmd : form.autosendcmd = w.text .autosendcmd
  clientCertPath : form.clientCertPath = w.text .clientCertPath
  autoReconnect : form.autoReconnect = w.boolean .autoReconnect
  reconnectDelay : form.reconnectDelay = w.text .reconnectDelay
  reconnectMaxRetries : form.reconnectMaxRetries = w.text .reconnectMaxRetries
  password : SameCred w .password form.password
  saslPass : SameCred w .saslPass form.saslPass

/-- Two forms give the same result; for a blank address each has its own message. -/
def SameResult (w : WizardState) (form : WebServerForm) (servers : Dict Str ServerConfig) : Prop :=
  build w servers = buildFromWeb form servers ∨
    Text.trim form.network ≠ [] ∧ Text.trim form.address = [] ∧
      (∃ e, build w servers = .error e) ∧ ∃ e, buildFromWeb form servers = .error e

/-! ### Required fields -/

section Required

variable {w : WizardState}

/-- The label that is missed if no other field than the first two is required. -/
theorem findSome_of_not_required {fields : List Field} {values : List FieldValue}
    (h : ∀ f ∈ fields, f.required = false) :
    (fields.zip values).findSome? WizardState.missing = none := by
  rw [List.findSome?_eq_none_iff]
  rintro ⟨f, v⟩ hmem
  have hf := h f (List.of_mem_zip hmem).1
  cases v with
  | text s => simp [WizardState.missing, hf]
  | bool b => rfl
  | choice c => rfl

theorem firstMissingRequired_eq (h : IsServerForm w) :
    w.firstMissingRequired =
      if Text.trim (w.text .network) = [] then some (str "Network Name")
      else if Text.trim (w.text .address) = [] then some (str "Server address / IP")
      else none := by
  obtain ⟨hfields, hvalues⟩ := h
  rcases w with ⟨mode, title, pageNames, fields, values, touched⟩
  dsimp only at hfields hvalues
  subst hfields
  rcases hvalues with _ | @⟨_, network, _, values, hnetwork, hvalues⟩
  rcases hvalues with _ | @⟨_, address, _, values, haddress, hvalues⟩
  cases network with
  | text network =>
    cases address with
    | text address =>
      -- only the first two fields are required
      have hrest : ∀ f ∈ (schema mode.isEdit).tail.tail, f.required = false := by
        cases mode.isEdit <;> decide
      have hnone := @findSome_of_not_required _ values hrest
      change (_ :: _ :: (schema mode.isEdit).tail.tail.zip values).findSome? WizardState.missing =
        if Text.trim network = [] then _ else if Text.trim address = [] then _ else none
      rw [List.findSome?_cons, List.findSome?_cons, hnone]
      by_cases hn : Text.trim network = []
      · simp [WizardState.missing, hn]
      · by_cases ha : Text.trim address = []
        · simp [WizardState.missing, hn, ha]
        · simp [WizardState.missing, hn, ha]
    | _ => exact absurd haddress id
  | _ => exact absurd hnetwork id

theorem build_error (h : IsServerForm w) {servers : Dict Str ServerConfig}
    (hblank : Text.trim (w.text .network) = [] ∨ Text.trim (w.text .address) = []) :
    build w servers =
      .error (str (if Text.trim (w.text .network) = [] then "Network Name"
        else "Server address / IP") ++ str " is required") := by
  by_cases hn : Text.trim (w.text .network) = []
  · rw [build, firstMissingRequired_eq h, if_pos hn, if_pos hn]
    rfl
  · rw [build, firstMissingRequired_eq h, if_neg hn, if_neg hn,
      if_pos (hblank.resolve_left hn)]
    rfl

end Required

/-! ### A server that is not touched -/

section Untouched

variable {servers : Dict Str ServerConfig} {id : Str} {s : ServerConfig}

theorem isServerForm_untouched : IsServerForm (untouched id s) where
  fields := rfl
  values := by
    change List.Forall₂ _ (schema true) (editValues (schema true) id s)
    repeat' constructor

/-- What the form makes of a server. -/
def held (s : ServerConfig) : ServerConfig where
  label := Text.trim s.label
  address := Text.trim s.address
  port := bumpPort s.tls s.port
  tls := s.tls
  tlsVerify := s.tlsVerify
  autoconnect := s.autoconnect
  channels := splitChannels ((str ", ").intercalate s.channels)
  nick := opt (s.nick.getD [])
  username := opt (s.username.getD [])
  realname := opt (s.realname.getD [])
  password := s.password
  saslUser := opt (s.saslUser.getD [])
  saslPass := s.saslPass
  bindIp := opt (s.bindIp.getD [])
  encoding := opt (s.encoding.getD [])
  autoReconnect := some (s.autoReconnect.getD true)
  reconnectDelay := s.reconnectDelay
  reconnectMaxRetries := s.reconnectMaxRetries
  autosendcmd := opt (s.autosendcmd.getD [])
  saslMechanism := mechFromChoice ((saslMechs[mechIndex s.saslMechanism]?).getD [])
  clientCertPath := opt (s.clientCertPath.getD [])

theorem isWord_fmtNat (n : Nat) : Text.IsWord (fmtNat n) := Text.isWord_formatInt n

theorem parseInt_fmtNat {bits n : Nat} (h : n < 2 ^ bits) :
    Text.parseInt 0 (2 ^ bits - 1) (fmtNat n) = .ok (n : Int) := by
  have hle : (n : Int) < 2 ^ bits := by exact_mod_cast h
  exact Text.parseInt_formatInt (Int.le_refl 0) (by omega) (Int.natCast_nonneg n) (by omega)

theorem parsePort_fmtNat {tls : Bool} {n : Nat} (h : n < 2 ^ 16) :
    parsePort tls (Text.trim (fmtNat n)) = .ok n := by
  rw [(isWord_fmtNat n).trim_eq, parsePort, if_neg (isWord_fmtNat n).1, parseInt_fmtNat h]
  rfl

theorem parseOptNum_fmtNat {bits : Nat} {what : Str} {o : Option Nat}
    (h : ∀ n, o = some n → n < 2 ^ bits) :
    parseOptNum bits ((o.map fmtNat).getD []) what = .ok o := by
  cases o with
  | none => rfl
  | some n =>
    rw [Option.map_some, Option.getD_some, parseOptNum, (isWord_fmtNat n).trim_eq,
      if_neg (isWord_fmtNat n).1, parseInt_fmtNat (h n rfl)]
    rfl

theorem build_untouched (hs : servers.lookup id = some s) (htyped : Typed s)
    (hlabel : Text.trim s.label ≠ []) (haddress : Text.trim s.address ≠ []) :
    build (untouched id s) servers = .ok ⟨id, held s, .keep, .keep⟩ := by
  have hrequired : (untouched id s).firstMissingRequired = none := by
    rw [firstMissingRequired_eq isServerForm_untouched]
    exact (if_neg hlabel).trans (if_neg haddress)
  have hport : parsePort ((untouched id s).boolean .tls)
      (Text.trim ((untouched id s).text .port)) = .ok s.port := parsePort_fmtNat htyped.port
  have hdelay : parseOptNum 64 ((untouched id s).text .reconnectDelay) (str "Reconnect delay") =
      .ok s.reconnectDelay := parseOptNum_fmtNat htyped.reconnectDelay
  have hretries : parseOptNum 32 ((untouched id s).text .reconnectMaxRetries)
      (str "Reconnect max retries") = .ok s.reconnectMaxRetries :=
    parseOptNum_fmtNat htyped.reconnectMaxRetries
  have hid : resolveId (untouched id s) servers = id := rfl
  simp only [build, hrequired, hport, hdelay, hretries, hid, hs]
  rfl

theorem opt_opt (raw : Str) : opt ((opt raw).getD []) = opt raw := by
  by_cases h : Text.trim raw = []
  · have hraw : opt raw = none := if_pos h
    rw [hraw]
    rfl
  · have hraw : opt raw = some (Text.trim raw) := if_neg h
    rw [hraw, Option.getD_some, opt, Text.trim_trim, if_neg h]

theorem sameText_opt (o : Option Str) : SameText (opt (o.getD [])) o := opt_opt _

theorem splitChannels_join (channels : List Str) :
    splitChannels ((str ", ").intercalate channels) = channels.flatMap splitChannels :=
  Text.nonemptyParts_join (by decide) channels

theorem mechFromChoice_mechIndex_iff {m : Option Str} :
    mechFromChoice ((saslMechs[mechIndex m]?).getD []) = m ↔ Offered m := by
  by_cases hplain : m = some (str "PLAIN")
  · subst hplain
    exact iff_of_true rfl (.inr (.inl rfl))
  by_cases hexternal : m = some (str "EXTERNAL")
  · subst hexternal
    exact iff_of_true rfl (.inr (.inr rfl))
  -- any other mechanism is shown as the first option
  have hindex : mechIndex m = 0 := by rw [mechIndex, if_neg hplain, if_neg hexternal]
  rw [hindex]
  constructor
  · exact fun h => .inl h.symm
  · rintro (rfl | h | h)
    · rfl
    · exact absurd h hplain
    · exact absurd h hexternal

theorem bumpPort_eq_iff {tls : Bool} {port : Nat} :
    bumpPort tls port = port ↔ ¬ (tls = true ∧ port = 6667) := by
  by_cases h : tls = true ∧ port = 6667
  · rw [bumpPort, if_pos h, h.2]
    exact iff_of_false (by decide) (fun hnot => hnot ⟨h.1, rfl⟩)
  · rw [bumpPort, if_neg h]
    exact iff_of_true rfl h

theorem alike_held (s : ServerConfig) : Alike (held s) s where
  tls := rfl
  tlsVerify := rfl
  autoconnect := rfl
  password := rfl
  saslPass := rfl
  nick := sameText_opt _
  username := sameText_opt _
  realname := sameText_opt _
  saslUser := sameText_opt _
  bindIp := sameText_opt _
  encoding := sameText_opt _
  autosendcmd := sameText_opt _
  clientCertPath := sameText_opt _
  autoReconnect := rfl
  reconnectDelay := rfl
  reconnectMaxRetries := rfl

theorem heldAs_held (s : ServerConfig) : HeldAs (held s) s where
  toAlike := alike_held s
  label := rfl
  address := rfl
  port := rfl
  channels := splitChannels_join s.channels
  saslMechanism := (mechFromChoice_mechIndex_iff).mpr

/-- **The form leaves a server as it is** just if it can hold it. -/
theorem changesNothing_iff (hs : servers.lookup id = some s) (htyped : Typed s) :
    ChangesNothing servers id s ↔ Holds s := by
  constructor
  · rintro ⟨c, hc, hbehaves⟩
    have hform := @isServerForm_untouched id s
    have hlabel : Text.trim s.label ≠ [] := by
      intro h
      rw [build_error hform (.inl h)] at hc
      exact nomatch hc
    have haddress : Text.trim s.address ≠ [] := by
      intro h
      rw [build_error hform (.inr h)] at hc
      exact nomatch hc
    rw [build_untouched hs htyped hlabel haddress] at hc
    obtain rfl : held s = c := congrArg BuiltServer.config (Except.ok.inj hc)
    constructor
    · exact ⟨fun h => hlabel (hbehaves.label.trans h), hbehaves.label⟩
    · exact ⟨fun h => haddress (hbehaves.address.trans h), hbehaves.address⟩
    · exact (bumpPort_eq_iff).mp hbehaves.port
    · exact Text.flatMap_nonemptyParts_eq_iff.mp
        ((splitChannels_join _).symm.trans hbehaves.channels)
    · exact (mechFromChoice_mechIndex_iff).mp hbehaves.saslMechanism
  · rintro ⟨⟨hlabel, hlabelTrim⟩, ⟨haddress, haddressTrim⟩, hport, hchannels, hmech⟩
    refine ⟨held s, build_untouched hs htyped (hlabelTrim.symm ▸ hlabel)
      (haddressTrim.symm ▸ haddress), ?_⟩
    exact {
      toAlike := alike_held s
      label := hlabelTrim
      address := haddressTrim
      port := (bumpPort_eq_iff).mpr hport
      channels := (splitChannels_join _).trans (Text.flatMap_nonemptyParts_eq_iff.mpr hchannels)
      saslMechanism := (mechFromChoice_mechIndex_iff).mpr hmech }

end Untouched

/-! ### The two forms -/

section Slugs

theorem isAlphanum_of_isWhitespace {c : Char} (h : Text.isWhitespace c = true) :
    c.toLower.isAlphanum = false := by
  simp only [Text.isWhitespace, Bool.or_eq_true, Bool.and_eq_true, decide_eq_true_eq,
    beq_iff_eq] at h
  have hval : c.val.toNat = c.toNat := rfl
  have hlower : c.toLower = c := by
    rw [Char.toLower, dif_neg]
    simp only [UInt32.le_iff_toNat_le, hval]
    rintro ⟨hA, hZ⟩
    have hA' : 65 ≤ c.toNat := hA
    have hZ' : c.toNat ≤ 90 := hZ
    omega
  rw [hlower]
  simp [Char.isAlphanum, Char.isAlpha, Char.isUpper, Char.isLower, Char.isDigit,
    UInt32.le_iff_toNat_le, hval]
  omega

/-- Blanks at the front of a name do not show up after a `_`. -/
theorem slugChars_true_append {blanks : Str} (h : ∀ c ∈ blanks, Text.isWhitespace c = true)
    (name : Str) : slugChars true (blanks ++ name) = slugChars true name := by
  induction blanks with
  | nil => rfl
  | cons c blanks ih =>
    have hc := isAlphanum_of_isWhitespace (h c List.mem_cons_self)
    rw [List.cons_append, slugChars, if_neg (by simp [hc]), if_pos rfl]
    exact ih (fun d hd => h d (List.mem_cons_of_mem c hd))

/-- A name after a `_` and at the start differ in a `_` at most. -/
theorem dropWhile_slugChars (name : Str) :
    (slugChars false name).dropWhile (fun d => d = '_') =
      (slugChars true name).dropWhile (fun d => d = '_') := by
  cases name with
  | nil => rfl
  | cons c name =>
    by_cases hc : c.toLower.isAlphanum = true
    · rw [slugChars, slugChars, if_pos hc, if_pos hc]
    · rw [slugChars, slugChars, if_neg hc, if_neg hc, if_neg (by simp), if_pos rfl]
      exact List.dropWhile_cons_of_pos (by simp)

/-- Blanks at the end of a name add a `_` at most. -/
theorem slugChars_append {blanks : Str} (h : ∀ c ∈ blanks, Text.isWhitespace c = true)
    (prevUs : Bool) (name : Str) :
    slugChars prevUs (name ++ blanks) = slugChars prevUs name ∨
      slugChars prevUs (name ++ blanks) = slugChars prevUs name ++ ['_'] := by
  induction name generalizing prevUs with
  | nil =>
    have hblanks : slugChars true blanks = [] := by
      simpa [slugChars] using slugChars_true_append h []
    cases prevUs with
    | true => exact .inl hblanks
    | false =>
      cases blanks with
      | nil => exact .inl rfl
      | cons c blanks =>
        -- the first blank becomes a `_`, and the others are dropped
        have hc := isAlphanum_of_isWhitespace (h c List.mem_cons_self)
        rw [slugChars, if_neg (by simp [hc]), if_pos rfl] at hblanks
        right
        change slugChars false (c :: blanks) = ['_']
        rw [slugChars, if_neg (by simp [hc]), if_neg (by simp), hblanks]
  | cons c name ih =>
    rw [List.cons_append, slugChars, slugChars]
    split_ifs
    · exact (ih false).imp (congrArg _) (congrArg _)
    · exact ih prevUs
    · exact (ih true).imp (congrArg _) (congrArg _)

theorem trimMatches_append (c : Char) (s : Str) :
    Text.trimMatches c (s ++ [c]) = Text.trimMatches c s := by
  rw [Text.trimMatches, List.dropWhile_append]
  split_ifs with hempty
  · rw [Text.trimMatches, List.isEmpty_iff.mp hempty]
    simp
  · exact List.rdropWhile_concat_pos _ _ _ (by simp)

/-- A name has the same slug with blanks around it. -/
theorem slugify_trim (name : Str) : slugify (Text.trim name) = slugify name := by
  have hend : ∀ name : Str, slugify (Text.trimEnd name) = slugify name := by
    intro name
    have hblanks : ∀ c ∈ name.rtakeWhile Text.isWhitespace, Text.isWhitespace c = true :=
      fun c hc => List.mem_rtakeWhile_imp hc
    have hname : Text.trimEnd name ++ name.rtakeWhile Text.isWhitespace = name :=
      List.rdropWhile_append_rtakeWhile
    rcases slugChars_append hblanks false (Text.trimEnd name) with h | h
    · rw [hname] at h
      rw [slugify, slugify, h]
    · rw [hname] at h
      rw [slugify, slugify, h, trimMatches_append]
  have hstart : slugify (Text.trimStart name) = slugify name := by
    have hblanks : ∀ c ∈ name.takeWhile Text.isWhitespace, Text.isWhitespace c = true :=
      fun c hc => List.mem_takeWhile_imp hc
    -- without the leading `_` it does not matter whether one stands in front
    have htrue := slugChars_true_append hblanks (Text.trimStart name)
    rw [Text.trimStart, List.takeWhile_append_dropWhile] at htrue
    rw [slugify, slugify, Text.trimMatches, Text.trimMatches, dropWhile_slugChars,
      dropWhile_slugChars name, htrue]
    rfl
  rw [Text.trim, hend, hstart]

end Slugs

section Forms

variable {w : WizardState} {form : WebServerForm} {servers : Dict Str ServerConfig}

theorem resolveId_eq (hid : SameId w form) (hnetwork : form.network = w.text .network) :
    resolveId w servers = webId form servers := by
  rw [resolveId, webId, hnetwork]
  cases hmode : w.mode with
  | add =>
    rw [SameId, hmode] at hid
    obtain ⟨htyped, hnone⟩ := hid
    have hedit : form.id.any (fun s => s ≠ []) = false := by
      rcases hnone with h | h <;> rw [h] <;> rfl
    rw [hedit]
    simp [htyped, slugify_trim]
  | edit id =>
    rw [SameId, hmode] at hid
    obtain ⟨hne, hid⟩ := hid
    rw [hid]
    simp [hne]

theorem parsePort_eq {tls : Bool} {raw : Str} {port : Option Nat} (h : SamePort raw port) :
    parsePort tls (Text.trim raw) = .ok (port.getD (defaultPort tls)) := by
  cases port with
  | none => exact if_pos h
  | some p =>
    have hread : Text.parseInt 0 (2 ^ 16 - 1) (Text.trim raw) = .ok (p : Int) := h
    -- an empty text is no number
    have hne : Text.trim raw ≠ [] := by
      intro hnil
      rw [hnil] at hread
      exact nomatch hread
    rw [parsePort, if_neg hne, hread]
    rfl

theorem resolveCred_eq {key : Key} {cred : Option Str} (h : SameCred w key cred)
    (existing : Option Str) : resolveCred w key existing = webCred cred existing := by
  rw [SameCred] at h
  subst h
  cases htouched : w.wasTouched key with
  | false => simp [resolveCred, webCred, htouched]
  | true =>
    cases htext : w.text key with
    | nil => simp [resolveCred, webCred, htouched, htext]
    | cons c s => simp [resolveCred, webCred, htouched, htext]

theorem build_eq_buildFromWeb (h : Corresponds w form)
    (hrequired : Text.trim form.network = [] ∨ Text.trim form.address ≠ []) :
    build w servers = buildFromWeb form servers := by
  rw [h.network, h.address] at hrequired
  by_cases hn : Text.trim (w.text .network) = []
  · have hblank : Text.trim form.network = [] := by rw [h.network, hn]
    rw [build_error h.toIsServerForm (.inl hn), if_pos hn, buildFromWeb, if_pos hblank]
    rfl
  · have ha := hrequired.resolve_left hn
    have hmissing : w.firstMissingRequired = none := by
      rw [firstMissingRequired_eq h.toIsServerForm, if_neg hn, if_neg ha]
    have hport := @parsePort_eq (w.boolean .tls) _ _ h.port
    simp only [build, buildFromWeb, hmissing, h.network, h.address, hn, ha, hport,
      resolveId_eq h.id h.network, resolveCred_eq h.password, resolveCred_eq h.saslPass,
      h.tls, h.tlsVerify, h.autoconnect, h.channels, h.nick, h.username, h.realname, h.bindIp,
      h.encoding, h.saslUser, h.saslMechanism, h.autosendcmd, h.clientCertPath, h.autoReconnect,
      h.reconnectDelay, h.reconnectMaxRetries]
    rfl

/-- **The two forms give the same result**, in their own words for a blank address. -/
theorem sameResult_of_corresponds (h : Corresponds w form) : SameResult w form servers := by
  by_cases hrequired : Text.trim form.network = [] ∨ Text.trim form.address ≠ []
  · exact .inl (build_eq_buildFromWeb h hrequired)
  · push Not at hrequired
    obtain ⟨hn, ha⟩ := hrequired
    refine .inr ⟨hn, ha, ⟨_, build_error h.toIsServerForm (.inr (h.address ▸ ha))⟩, ?_⟩
    exact ⟨str "Server address is required", by rw [buildFromWeb, if_neg hn, if_pos ha]; rfl⟩

end Forms

/-- A server that is not touched comes back as the form holds it, and the two forms give the same
result. -/
theorem wizard_keeps :
    (∀ servers id s, servers.lookup id = some s → Typed s → KeepsUntouched servers id s) ∧
      ∀ w form servers, Corresponds w form → SameResult w form servers := by
  refine ⟨fun servers id s hs htyped => ?_, fun w form servers h => sameResult_of_corresponds h⟩
  constructor
  · intro hlabel haddress
    exact ⟨held s, build_untouched hs htyped hlabel haddress, heldAs_held s⟩
  · exact fun hblank => ⟨_, build_error isServerForm_untouched hblank⟩
  · exact (changesNothing_iff hs htyped).mpr

/-- A client with one server. -/
def oneServer (id : Str) (s : ServerConfig) : Dict Str ServerConfig :=
  ⟨[(id, s)], List.nodup_singleton id⟩

/-- A server with channels and a password. -/
def libera : ServerConfig where
  label := str "Libera"
  address := str "irc.libera.chat"
  port := 7000
  tls := true
  tlsVerify := true
  autoconnect := true
  channels := [str "#rust", str "#repartee"]
  nick := none
  username := none
  realname := none
  password := some (str "secret")
  saslUser := none
  saslPass := none
  bindIp := none
  encoding := none
  autoReconnect := none
  reconnectDelay := some 42
  reconnectMaxRetries := none
  autosendcmd := none
  saslMechanism := some (str "PLAIN")
  clientCertPath := none

/-- The web form of that server. -/
def liberaForm : WebServerForm where
  id := some (str "libera")
  network := str "Libera"
  address := str "irc.libera.chat"
  port := some 7000
  tls := true
  tlsVerify := true
  autoconnect := true
  channels := str "#rust, #repartee"
  nick := []
  username := []
  realname := []
  bindIp := []
  encoding := []
  saslUser := []
  saslMechanism := str "PLAIN"
  autosendcmd := []
  clientCertPath := []
  autoReconnect := true
  reconnectDelay := str "42"
  reconnectMaxRetries := []
  password := none
  saslPass := none

theorem typed_libera : Typed libera where
  port := by decide
  reconnectDelay := by
    rintro n ⟨⟩
    decide
  reconnectMaxRetries := fun n h => nomatch h

theorem corresponds_libera : Corresponds (untouched (str "libera") libera) liberaForm where
  toIsServerForm := isServerForm_untouched
  id := ⟨by decide, rfl⟩
  network := rfl
  address := rfl
  port := rfl
  tls := rfl
  tlsVerify := rfl
  autoconnect := rfl
  channels := rfl
  nick := rfl
  username := rfl
  realname := rfl
  bindIp := rfl
  encoding := rfl
  saslUser := rfl
  saslMechanism := rfl
  autosendcmd := rfl
  clientCertPath := rfl
  autoReconnect := rfl
  reconnectDelay := rfl
  reconnectMaxRetries := rfl
  password := rfl
  saslPass := rfl

theorem libera_is_kept :
    KeepsUntouched (oneServer (str "libera") libera) (str "libera") libera ∧
      SameResult (untouched (str "libera") libera) liberaForm
        (oneServer (str "libera") libera) :=
  ⟨wizard_keeps.1 _ _ _ rfl typed_libera, wizard_keeps.2 _ _ _ corresponds_libera⟩

/-- A server with TLS on the port without. -/
def oftc : ServerConfig := { libera with label := str "OFTC", port := 6667 }

theorem tls_port_moves :
    (oneServer (str "oftc") oftc).lookup (str "oftc") = some oftc ∧ Typed oftc ∧
      ¬ ChangesNothing (oneServer (str "oftc") oftc) (str "oftc") oftc := by
  have htyped : Typed oftc := ⟨by decide, typed_libera.2, typed_libera.3⟩
  refine ⟨rfl, htyped, fun h => ?_⟩
  exact ((changesNothing_iff rfl htyped).mp h).port ⟨rfl, rfl⟩

end Repartee.Wizard
