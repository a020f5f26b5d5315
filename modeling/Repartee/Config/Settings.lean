import Repartee.E2e.Basic
import Repartee.Lib.Table

/-!
# Settings by dot-notation path

The configuration (`config/mod.rs`) and how `/set` reads and writes it by path
(`commands/settings.rs`). Every setting of a section is an entry of the section's table; `/set`
finds the section and the entry by the parts of the path.

## Main definitions

- `AppConfig`: the settings that have a path
- `Setting`: how a setting is shown, and how it is read from what the user typed
- `getConfigValue`, `setConfigValue`: the value at a path
-/

set_option autoImplicit false

namespace Repartee.Config

/-- What the settings need of strings and floating-point numbers. -/
structure Builtins (F : Type) where
  toUppercase : Str → Str
  toLowercase : Str → Str
  parseF32 : Str → Option F
  showF32 : F → Str
  /-- Whether a number lies between 0 and 1. -/
  inUnit : F → Bool
  hexDecode : Str → Option (List UInt8)

/-! ### The configuration -/

inductive NickAlignment where
  | left
  | right
  | center
  deriving DecidableEq

inductive RenderMode where
  | graphical
  | text
  | off
  deriving DecidableEq

inductive EmoteLang where
  | en
  | pl
  deriving DecidableEq

structure GeneralConfig where
  nick : Str
  username : Str
  realname : Str
  theme : Str
  timestampFormat : Str
  floodProtection : Bool
  floodExemptions : List Str
  ctcpVersion : Str
  defaultBindIp : Option Str

structure DisplayConfig (F : Type) where
  nickColumnWidth : Nat
  nickMaxLength : Nat
  nickAlignment : NickAlignment
  nickTruncation : Bool
  showTimestamps : Bool
  scrollbackLines : Nat
  backlogLines : Nat
  nickColors : Bool
  nickColorsInNicklist : Bool
  nickColorSaturation : F
  nickColorLightness : F
  mentionsBuffer : Bool

structure PanelConfig where
  width : Nat
  visible : Bool

structure SidepanelConfig where
  left : PanelConfig
  right : PanelConfig

structure StatusbarConfig where
  enabled : Bool
  separator : Str
  prompt : Str
  background : Str
  textColor : Str
  accentColor : Str
  mutedColor : Str
  dimColor : Str
  promptColor : Str
  inputColor : Str
  cursorColor : Str

structure ImagePreviewConfig where
  enabled : Bool
  maxWidth : Nat
  maxHeight : Nat
  cacheMaxMb : Nat
  cacheMaxDays : Nat
  fetchTimeout : Nat
  maxFileSize : Nat
  protocol : Str
  kittyFormat : Str

structure DccConfig where
  timeout : Nat
  ownIp : Str
  portRange : Str
  autoacceptLowports : Bool
  autochatMasks : List Str
  maxConnections : Nat

structure ShrinkConfig where
  enabled : Bool
  apiUrl : Str
  /-- Never written to `config.toml`. -/
  apiKey : Str
  outgoingEnabled : Bool
  incomingEnabled : Bool
  minUrlLength : Nat
  outgoingTimeoutMs : Nat
  incomingTimeoutMs : Nat
  cacheMaxEntries : Nat

structure SpellcheckConfig where
  enabled : Bool
  computing : Bool
  mode : Str
  languages : List Str
  dictionaryDir : Str

structure LoggingConfig where
  retentionDays : Nat
  eventRetentionHours : Nat

structure WebConfig (F : Type) where
  enabled : Bool
  bindAddress : Str
  port : Nat
  tlsCert : Str
  tlsKey : Str
  timestampFormat : Str
  lineHeight : F
  nickColumnWidth : Nat
  nickMaxLength : Nat
  theme : Str
  sessionDays : Nat
  username : Str
  imagePreviews : Bool
  imagePreviewsMaxPerMsg : Nat
  thumbnailCacheMb : Nat
  cloudflareTunnelName : Str
  /-- Never written to `config.toml`. -/
  password : Str
  /-- Never written to `config.toml`. -/
  sessionSecret : List UInt8

structure EmotesConfig where
  enabled : Bool
  render : RenderMode
  lang : EmoteLang

structure ServerConfig where
  label : Str
  address : Str
  port : Nat
  tls : Bool
  tlsVerify : Bool
  autoconnect : Bool
  channels : List Str
  nick : Option Str
  username : Option Str
  realname : Option Str
  /-- Never written to `config.toml`. -/
  password : Option Str
  saslUser : Option Str
  /-- Never written to `config.toml`. -/
  saslPass : Option Str
  bindIp : Option Str
  encoding : Option Str
  /-- `true` where `config.toml` has none. -/
  autoReconnect : Option Bool
  reconnectDelay : Option Nat
  reconnectMaxRetries : Option Nat
  autosendcmd : Option Str
  saslMechanism : Option Str
  clientCertPath : Option Str
  deriving DecidableEq

structure AppConfig (F : Type) where
  general : GeneralConfig
  display : DisplayConfig F
  sidepanel : SidepanelConfig
  statusbar : StatusbarConfig
  imagePreview : ImagePreviewConfig
  servers : Dict Str ServerConfig
  logging : LoggingConfig
  dcc : DccConfig
  spellcheck : SpellcheckConfig
  web : WebConfig F
  shrink : ShrinkConfig
  emotes : EmotesConfig

/-! ### Values as text -/

def boolText (b : Bool) : Str := if b then str "true" else str "false"

def natText (n : Nat) : Str := Nat.toDigits 10 n

def joined (xs : List Str) : Str := (str ", ").intercalate xs

def parseBool (raw : Str) : Except Str Bool :=
  if raw = str "true" then .ok true
  else if raw = str "false" then .ok false
  else .error (str "Expected true or false")

/-- `raw.parse()` for an unsigned integer of so many bits. -/
def parseUnsigned (bits : Nat) (error : String) (raw : Str) : Except Str Nat :=
  match Text.parseInt 0 (2 ^ bits - 1) raw with
  | .ok n => .ok n.toNat
  | .error _ => .error (str error)

/-- The parts between commas, trimmed. -/
def splitCommas (raw : Str) : List Str := (raw.splitOn ',').map Text.trim

/-- The parts between commas that are not blank. -/
def splitList (raw : Str) : List Str := (splitCommas raw).filter (fun s => !s.isEmpty)

def toAsciiLowercase (raw : Str) : Str := raw.map Char.toLower

/-! ### Settings -/

/-- A setting of a section. -/
structure Setting (σ : Type) where
  name : Str
  get : σ → Str
  set : σ → Str → Except Str σ

section Families

variable {σ : Type} (name : String)

def textSetting (get : σ → Str) (put : σ → Str → σ) : Setting σ where
  name := str name
  get := get
  set := fun s raw => .ok (put s raw)

def boolSetting (get : σ → Bool) (put : σ → Bool → σ) : Setting σ where
  name := str name
  get := fun s => boolText (get s)
  set := fun s raw => (parseBool raw).map (put s)

def natSetting (bits : Nat) (error : String) (get : σ → Nat) (put : σ → Nat → σ) : Setting σ where
  name := str name
  get := fun s => natText (get s)
  set := fun s raw => (parseUnsigned bits error raw).map (put s)

/-- A number that has to reach a floor. -/
def floorSetting (bits floor : Nat) (error : String) (get : σ → Nat) (put : σ → Nat → σ) :
    Setting σ where
  name := str name
  get := fun s => natText (get s)
  set := fun s raw =>
    match parseUnsigned bits "Expected a number" raw with
    | .error e => .error e
    | .ok n => if n < floor then .error (str error) else .ok (put s n)

def listSetting (split : Str → List Str) (get : σ → List Str) (put : σ → List Str → σ) :
    Setting σ where
  name := str name
  get := fun s => joined (get s)
  set := fun s raw => .ok (put s (split raw))

/-- A text that need not be there; what the user typed always is. -/
def optTextSetting (get : σ → Option Str) (put : σ → Option Str → σ) : Setting σ where
  name := str name
  get := fun s => (get s).getD []
  set := fun s raw => .ok (put s (some raw))

def optNatSetting (bits : Nat) (get : σ → Option Nat) (put : σ → Option Nat → σ) :
    Setting σ where
  name := str name
  get := fun s => ((get s).map natText).getD []
  set := fun s raw =>
    (parseUnsigned bits "Expected a positive integer" raw).map (fun n => put s (some n))

/-- A number between 0 and 1. -/
def unitSetting {F : Type} (b : Builtins F) (error : String) (get : σ → F) (put : σ → F → σ) :
    Setting σ where
  name := str name
  get := fun s => b.showF32 (get s)
  set := fun s raw =>
    match b.parseF32 raw with
    | none => .error (str "invalid float: " ++ raw)
    | some v => if b.inUnit v then .ok (put s v) else .error (str error)

/-- One of some words. -/
def choiceSetting {α : Type} (read : Str → Str) (choices : List (String × α)) (error : String)
    (get : σ → Str) (put : σ → α → σ) : Setting σ where
  name := str name
  get := get
  set := fun s raw =>
    match choices.find? (fun c => str c.1 = read raw) with
    | some c => .ok (put s c.2)
    | none => .error (str error)

end Families

def NickAlignment.text : NickAlignment → Str
  | .left => str "left"
  | .right => str "right"
  | .center => str "center"

def RenderMode.name : RenderMode → Str
  | .graphical => str "graphical"
  | .text => str "text"
  | .off => str "off"

def EmoteLang.name : EmoteLang → Str
  | .en => str "en"
  | .pl => str "pl"

def number : String := "Expected a number"

def generalSettings : List (Setting GeneralConfig) :=
  [textSetting "nick" (·.nick) (fun s v => { s with nick := v }),
    textSetting "username" (·.username) (fun s v => { s with username := v }),
    textSetting "realname" (·.realname) (fun s v => { s with realname := v }),
    textSetting "theme" (·.theme) (fun s v => { s with theme := v }),
    textSetting "timestamp_format" (·.timestampFormat) (fun s v => { s with timestampFormat := v }),
    boolSetting "flood_protection" (·.floodProtection) (fun s v => { s with floodProtection := v }),
    listSetting "flood_exemptions" splitList (·.floodExemptions)
      (fun s v => { s with floodExemptions := v }),
    textSetting "ctcp_version" (·.ctcpVersion) (fun s v => { s with ctcpVersion := v }),
    -- an empty text clears the field
    textSetting "default_bind_ip" (fun s => s.defaultBindIp.getD [])
      (fun s v => { s with defaultBindIp := if v.isEmpty then none else some v })]

def panelSettings : List (Setting PanelConfig) :=
  [natSetting "width" 16 number (·.width) (fun s v => { s with width := v }),
    boolSetting "visible" (·.visible) (fun s v => { s with visible := v })]

def statusbarSettings : List (Setting StatusbarConfig) :=
  [boolSetting "enabled" (·.enabled) (fun s v => { s with enabled := v }),
    textSetting "separator" (·.separator) (fun s v => { s with separator := v }),
    textSetting "prompt" (·.prompt) (fun s v => { s with prompt := v }),
    textSetting "background" (·.background) (fun s v => { s with background := v }),
    textSetting "text_color" (·.textColor) (fun s v => { s with textColor := v }),
    textSetting "accent_color" (·.accentColor) (fun s v => { s with accentColor := v }),
    textSetting "muted_color" (·.mutedColor) (fun s v => { s with mutedColor := v }),
    textSetting "dim_color" (·.dimColor) (fun s v => { s with dimColor := v }),
    textSetting "prompt_color" (·.promptColor) (fun s v => { s with promptColor := v }),
    textSetting "input_color" (·.inputColor) (fun s v => { s with inputColor := v }),
    textSetting "cursor_color" (·.cursorColor) (fun s v => { s with cursorColor := v })]

def imagePreviewSettings : List (Setting ImagePreviewConfig) :=
  [boolSetting "enabled" (·.enabled) (fun s v => { s with enabled := v }),
    natSetting "max_width" 32 number (·.maxWidth) (fun s v => { s with maxWidth := v }),
    natSetting "max_height" 32 number (·.maxHeight) (fun s v => { s with maxHeight := v }),
    natSetting "cache_max_mb" 32 number (·.cacheMaxMb) (fun s v => { s with cacheMaxMb := v }),
    natSetting "cache_max_days" 32 number (·.cacheMaxDays)
      (fun s v => { s with cacheMaxDays := v }),
    natSetting "fetch_timeout" 32 number (·.fetchTimeout) (fun s v => { s with fetchTimeout := v }),
    natSetting "max_file_size" 64 number (·.maxFileSize) (fun s v => { s with maxFileSize := v }),
    textSetting "protocol" (·.protocol) (fun s v => { s with protocol := v }),
    textSetting "kitty_format" (·.kittyFormat) (fun s v => { s with kittyFormat := v })]

def dccSettings : List (Setting DccConfig) :=
  [natSetting "timeout" 64 number (·.timeout) (fun s v => { s with timeout := v }),
    textSetting "own_ip" (·.ownIp) (fun s v => { s with ownIp := v }),
    textSetting "port_range" (·.portRange) (fun s v => { s with portRange := v }),
    boolSetting "autoaccept_lowports" (·.autoacceptLowports)
      (fun s v => { s with autoacceptLowports := v }),
    listSetting "autochat_masks" splitCommas (·.autochatMasks)
      (fun s v => { s with autochatMasks := v }),
    natSetting "max_connections" 64 number (·.maxConnections)
      (fun s v => { s with maxConnections := v })]

def shrinkSettings : List (Setting ShrinkConfig) :=
  [boolSetting "enabled" (·.enabled) (fun s v => { s with enabled := v }),
    textSetting "api_url" (·.apiUrl) (fun s v => { s with apiUrl := v }),
    boolSetting "outgoing_enabled" (·.outgoingEnabled) (fun s v => { s with outgoingEnabled := v }),
    boolSetting "incoming_enabled" (·.incomingEnabled) (fun s v => { s with incomingEnabled := v }),
    floorSetting "min_url_length" 32 25 "shrink.min_url_length must be at least 25"
      (·.minUrlLength) (fun s v => { s with minUrlLength := v }),
    floorSetting "outgoing_timeout_ms" 64 100 "shrink.outgoing_timeout_ms must be at least 100"
      (·.outgoingTimeoutMs) (fun s v => { s with outgoingTimeoutMs := v }),
    floorSetting "incoming_timeout_ms" 64 100 "shrink.incoming_timeout_ms must be at least 100"
      (·.incomingTimeoutMs) (fun s v => { s with incomingTimeoutMs := v }),
    floorSetting "cache_max_entries" 32 1 "shrink.cache_max_entries must be at least 1"
      (·.cacheMaxEntries) (fun s v => { s with cacheMaxEntries := v })]

def loggingSettings : List (Setting LoggingConfig) :=
  [natSetting "event_retention_hours" 32 number (·.eventRetentionHours)
      (fun s v => { s with eventRetentionHours := v }),
    natSetting "retention_days" 32 number (·.retentionDays)
      (fun s v => { s with retentionDays := v })]

def emotesSettings : List (Setting EmotesConfig) :=
  [boolSetting "enabled" (·.enabled) (fun s v => { s with enabled := v }),
    choiceSetting "render" toAsciiLowercase
      [("graphical", RenderMode.graphical), ("text", .text), ("off", .off)]
      "Expected graphical, text, or off" (·.render.name) (fun s v => { s with render := v }),
    choiceSetting "lang" toAsciiLowercase [("en", EmoteLang.en), ("pl", .pl)]
      "Expected en or pl" (·.lang.name) (fun s v => { s with lang := v })]

def serverSettings : List (Setting ServerConfig) :=
  [textSetting "label" (·.label) (fun s v => { s with label := v }),
    textSetting "address" (·.address) (fun s v => { s with address := v }),
    natSetting "port" 16 number (·.port) (fun s v => { s with port := v }),
    boolSetting "tls" (·.tls) (fun s v => { s with tls := v }),
    boolSetting "tls_verify" (·.tlsVerify) (fun s v => { s with tlsVerify := v }),
    boolSetting "autoconnect" (·.autoconnect) (fun s v => { s with autoconnect := v }),
    listSetting "channels" splitCommas (·.channels) (fun s v => { s with channels := v }),
    optTextSetting "nick" (·.nick) (fun s v => { s with nick := v }),
    optTextSetting "username" (·.username) (fun s v => { s with username := v }),
    optTextSetting "realname" (·.realname) (fun s v => { s with realname := v }),
    optTextSetting "password" (·.password) (fun s v => { s with password := v }),
    optTextSetting "sasl_user" (·.saslUser) (fun s v => { s with saslUser := v }),
    optTextSetting "sasl_pass" (·.saslPass) (fun s v => { s with saslPass := v }),
    optTextSetting "bind_ip" (·.bindIp) (fun s v => { s with bindIp := v }),
    optTextSetting "encoding" (·.encoding) (fun s v => { s with encoding := v }),
    ⟨str "auto_reconnect", fun s => (s.autoReconnect.map boolText).getD [],
      fun s raw => (parseBool raw).map (fun v => { s with autoReconnect := some v })⟩,
    optNatSetting "reconnect_delay" 64 (·.reconnectDelay)
      (fun s v => { s with reconnectDelay := v }),
    optNatSetting "reconnect_max_retries" 32 (·.reconnectMaxRetries)
      (fun s v => { s with reconnectMaxRetries := v }),
    optTextSetting "autosendcmd" (·.autosendcmd) (fun s v => { s with autosendcmd := v }),
    optTextSetting "sasl_mechanism" (·.saslMechanism) (fun s v => { s with saslMechanism := v }),
    optTextSetting "client_cert_path" (·.clientCertPath)
      (fun s v => { s with clientCertPath := v })]

section

variable {F : Type} (b : Builtins F)

def displaySettings : List (Setting (DisplayConfig F)) :=
  [natSetting "nick_column_width" 16 number (·.nickColumnWidth)
      (fun s v => { s with nickColumnWidth := v }),
    natSetting "nick_max_length" 16 number (·.nickMaxLength)
      (fun s v => { s with nickMaxLength := v }),
    choiceSetting "nick_alignment" id
      [("left", NickAlignment.left), ("right", .right), ("center", .center)]
      "Expected left, right, or center" (·.nickAlignment.text)
      (fun s v => { s with nickAlignment := v }),
    boolSetting "nick_truncation" (·.nickTruncation) (fun s v => { s with nickTruncation := v }),
    boolSetting "show_timestamps" (·.showTimestamps) (fun s v => { s with showTimestamps := v }),
    natSetting "scrollback_lines" 64 number (·.scrollbackLines)
      (fun s v => { s with scrollbackLines := v }),
    natSetting "backlog_lines" 64 number (·.backlogLines) (fun s v => { s with backlogLines := v }),
    boolSetting "nick_colors" (·.nickColors) (fun s v => { s with nickColors := v }),
    boolSetting "nick_colors_in_nicklist" (·.nickColorsInNicklist)
      (fun s v => { s with nickColorsInNicklist := v }),
    unitSetting "nick_color_saturation" b "saturation must be 0.0–1.0" (·.nickColorSaturation)
      (fun s v => { s with nickColorSaturation := v }),
    unitSetting "nick_color_lightness" b "lightness must be 0.0–1.0" (·.nickColorLightness)
      (fun s v => { s with nickColorLightness := v }),
    boolSetting "mentions_buffer" (·.mentionsBuffer) (fun s v => { s with mentionsBuffer := v })]

def spellcheckSettings : List (Setting SpellcheckConfig) :=
  [boolSetting "enabled" (·.enabled) (fun s v => { s with enabled := v }),
    boolSetting "computing" (·.computing) (fun s v => { s with computing := v }),
    choiceSetting "mode" b.toLowercase
      [("replace", str "replace"), ("highlight", str "highlight")]
      "Expected 'replace' or 'highlight'" (·.mode) (fun s v => { s with mode := v }),
    listSetting "languages" splitCommas (·.languages) (fun s v => { s with languages := v }),
    textSetting "dictionary_dir" (·.dictionaryDir) (fun s v => { s with dictionaryDir := v })]

def webSettings : List (Setting (WebConfig F)) :=
  [boolSetting "enabled" (·.enabled) (fun s v => { s with enabled := v }),
    textSetting "bind_address" (·.bindAddress) (fun s v => { s with bindAddress := v }),
    natSetting "port" 16 number (·.port) (fun s v => { s with port := v }),
    textSetting "tls_cert" (·.tlsCert) (fun s v => { s with tlsCert := v }),
    textSetting "tls_key" (·.tlsKey) (fun s v => { s with tlsKey := v }),
    textSetting "timestamp_format" (·.timestampFormat) (fun s v => { s with timestampFormat := v }),
    ⟨str "line_height", fun s => b.showF32 s.lineHeight,
      fun s raw =>
        match b.parseF32 raw with
        | some v => .ok { s with lineHeight := v }
        | none => .error (str "Expected a decimal number")⟩,
    natSetting "nick_column_width" 32 number (·.nickColumnWidth)
      (fun s v => { s with nickColumnWidth := v }),
    natSetting "nick_max_length" 32 number (·.nickMaxLength)
      (fun s v => { s with nickMaxLength := v }),
    textSetting "theme" (·.theme) (fun s v => { s with theme := v }),
    natSetting "session_days" 32 "Expected a positive integer (days)" (·.sessionDays)
      (fun s v => { s with sessionDays := v }),
    textSetting "username" (·.username) (fun s v => { s with username := v }),
    boolSetting "image_previews" (·.imagePreviews) (fun s v => { s with imagePreviews := v }),
    natSetting "image_previews_max_per_msg" 32 number (·.imagePreviewsMaxPerMsg)
      (fun s v => { s with imagePreviewsMaxPerMsg := v }),
    natSetting "thumbnail_cache_mb" 32 number (·.thumbnailCacheMb)
      (fun s v => { s with thumbnailCacheMb := v }),
    textSetting "cloudflare_tunnel_name" (·.cloudflareTunnelName)
      (fun s v => { s with cloudflareTunnelName := v }),
    textSetting "password" (·.password) (fun s v => { s with password := v })]

end

/-! ### Sections -/

/-- A setting of a section as one of the configuration. -/
def Setting.within {σ τ : Type} (get : τ → σ) (put : τ → σ → τ) (s : Setting σ) : Setting τ where
  name := s.name
  get := fun c => s.get (get c)
  set := fun c raw => (s.set (get c) raw).map (put c)

def find {σ : Type} (settings : List (Setting σ)) (name : Str) : Option (Setting σ) :=
  settings.find? (fun s => s.name = name)

/-- Result of resolving a dot-notation config path. -/
structure Resolved where
  value : Str
  isCredential : Bool
  deriving DecidableEq

section Paths

variable {F : Type} (b : Builtins F)

/-- The sections whose settings have paths of two parts. -/
def sections : List (Str × List (Setting (AppConfig F))) :=
  [(str "general", generalSettings.map (.within (·.general) (fun c s => { c with general := s }))),
    (str "display",
      (displaySettings b).map (.within (·.display) (fun c s => { c with display := s }))),
    (str "statusbar",
      statusbarSettings.map (.within (·.statusbar) (fun c s => { c with statusbar := s }))),
    (str "image_preview",
      imagePreviewSettings.map
        (.within (·.imagePreview) (fun c s => { c with imagePreview := s }))),
    (str "dcc", dccSettings.map (.within (·.dcc) (fun c s => { c with dcc := s }))),
    (str "shrink", shrinkSettings.map (.within (·.shrink) (fun c s => { c with shrink := s }))),
    (str "spellcheck",
      (spellcheckSettings b).map (.within (·.spellcheck) (fun c s => { c with spellcheck := s }))),
    (str "logging", loggingSettings.map (.within (·.logging) (fun c s => { c with logging := s }))),
    (str "web", (webSettings b).map (.within (·.web) (fun c s => { c with web := s }))),
    (str "emotes", emotesSettings.map (.within (·.emotes) (fun c s => { c with emotes := s })))]

/-- The settings of the two side panels. -/
def panels : List (Str × List (Setting (AppConfig F))) :=
  [(str "left", panelSettings.map (.within (·.sidepanel.left)
      (fun c s => { c with sidepanel := { c.sidepanel with left := s } }))),
    (str "right", panelSettings.map (.within (·.sidepanel.right)
      (fun c s => { c with sidepanel := { c.sidepanel with right := s } })))]

/-- The credentials of a server, which `/set` does not show. -/
def isServerCredential (name : Str) : Bool :=
  name = str "password" || name = str "sasl_pass" || name = str "sasl_user"

/-- The table under a name. -/
def tableOf {σ : Type} (tables : List (Str × List (Setting σ))) (name : Str) :
    Option (List (Setting σ)) := (tables.find? (fun t => t.1 = name)).map Prod.snd

/-- Get a config value by the parts of its path. -/
def getParts (config : AppConfig F) : List Str → Option Resolved
  | sec :: name :: rest =>
    if sec = str "sidepanel" then
      match tableOf panels name, rest with
      | some settings, field :: _ => (find settings field).map (fun s => ⟨s.get config, false⟩)
      | _, _ => none
    else if sec = str "servers" then
      match config.servers.lookup name, rest with
      | some server, field :: _ =>
        (find serverSettings field).map (fun s => ⟨s.get server, isServerCredential field⟩)
      | _, _ => none
    else
      match tableOf (sections b) sec with
      | some settings =>
        (find settings name).map
          (fun s => ⟨s.get config, sec = str "web" && name = str "password"⟩)
      | none => none
  | _ => none

/-- Get a config value by dot-notation path. -/
def getConfigValue (config : AppConfig F) (path : Str) : Option Resolved :=
  getParts b config (path.splitOn '.')

/-- Set the setting of a table, if it has one of the name. -/
def setIn {σ : Type} (settings : List (Setting σ)) (field path raw : Str) (s : σ) : Except Str σ :=
  match find settings field with
  | some setting => setting.set s raw
  | none => .error (str "Unknown field: " ++ path)

/-- Set a config value by the parts of its path. -/
def setParts (config : AppConfig F) (path raw : Str) : List Str → Except Str (AppConfig F)
  | sec :: name :: rest =>
    match decide (sec = str "sidepanel"), decide (sec = str "servers"), rest with
    | true, _, field :: _ =>
      match tableOf panels name with
      | some settings => setIn settings field path raw config
      | none => .error (str "Unknown panel: " ++ name)
    | _, true, field :: _ =>
      match config.servers.lookup name with
      | some server =>
        (setIn serverSettings field path raw server).map
          (fun s => { config with servers := config.servers.modify name (fun _ => s) })
      | none => .error (str "Unknown server: " ++ name)
    | _, _, _ =>
      match tableOf (sections b) sec with
      | some settings => setIn settings name path raw config
      | none => .error (str "Unknown section: " ++ sec)
  | _ => .error (str "Invalid path")

/-- Set a config value by dot-notation path. -/
def setConfigValue (config : AppConfig F) (path raw : Str) : Except Str (AppConfig F) :=
  setParts b config path raw (path.splitOn '.')

end Paths

end Repartee.Config
