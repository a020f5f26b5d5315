import Mathlib.Data.List.Pairwise
import Repartee.Config.Tables

/-!
# Settings as lenses

The paths that `/set` lists (`commands/settings.rs`), and what reading and writing them have to do
with each other: what is read can be written, writing it changes nothing, and a path is written
without the others.

## Main definitions

- `getSettingPaths`: all setting paths of a configuration
- `LensLaws`: what the paths of a configuration should do
- `Canonical`: a configuration that `/set` could have written

## Main results

- `lensLaws_of_canonical`: the laws of canonical configurations
- `lensLaws_iff`: the laws hold just for the canonical configurations
-/

set_option autoImplicit false

namespace Repartee.Config

open Lens (IsLens Settles Stable Keeps)

/-! ### Paths -/

/-- Base setting paths (without server-specific ones). -/
def basePaths : List Str :=
  ["general.nick", "general.username", "general.realname", "general.theme",
    "general.timestamp_format", "general.flood_protection", "general.flood_exemptions",
    "general.ctcp_version", "general.default_bind_ip", "display.nick_column_width",
    "display.nick_max_length", "display.nick_alignment", "display.nick_truncation",
    "display.show_timestamps", "display.scrollback_lines", "display.backlog_lines",
    "display.nick_colors", "display.nick_colors_in_nicklist", "display.nick_color_saturation",
    "display.nick_color_lightness", "display.mentions_buffer", "sidepanel.left.width",
    "sidepanel.left.visible", "sidepanel.right.width", "sidepanel.right.visible",
    "statusbar.enabled", "statusbar.separator", "statusbar.prompt", "statusbar.background",
    "statusbar.text_color", "statusbar.accent_color", "statusbar.muted_color",
    "statusbar.dim_color", "statusbar.prompt_color", "statusbar.input_color",
    "statusbar.cursor_color", "image_preview.enabled", "image_preview.max_width",
    "image_preview.max_height", "image_preview.cache_max_mb", "image_preview.cache_max_days",
    "image_preview.fetch_timeout", "image_preview.max_file_size", "image_preview.protocol",
    "image_preview.kitty_format", "dcc.timeout", "dcc.own_ip", "dcc.port_range",
    "dcc.autoaccept_lowports", "dcc.autochat_masks", "dcc.max_connections", "shrink.enabled",
    "shrink.api_url", "shrink.outgoing_enabled", "shrink.incoming_enabled",
    "shrink.min_url_length", "shrink.outgoing_timeout_ms", "shrink.incoming_timeout_ms",
    "shrink.cache_max_entries", "logging.event_retention_hours", "logging.retention_days",
    "spellcheck.enabled", "spellcheck.computing", "spellcheck.mode", "spellcheck.languages",
    "spellcheck.dictionary_dir", "web.enabled", "web.bind_address", "web.port", "web.tls_cert",
    "web.tls_key", "web.timestamp_format", "web.line_height", "web.nick_column_width",
    "web.nick_max_length", "web.theme", "web.session_days", "web.username",
    "web.image_previews", "web.image_previews_max_per_msg", "web.thumbnail_cache_mb",
    "web.cloudflare_tunnel_name", "web.password", "emotes.enabled", "emotes.render",
    "emotes.lang"].map str

def serverFields : List Str :=
  ["label", "address", "port", "tls", "tls_verify", "autoconnect", "channels", "nick",
    "username", "realname", "password", "sasl_user", "sasl_pass", "bind_ip", "encoding",
    "auto_reconnect", "reconnect_delay", "reconnect_max_retries", "autosendcmd",
    "sasl_mechanism", "client_cert_path"].map str

/-- The path of a field of a server. -/
def serverPath (id field : Str) : Str := str "servers." ++ id ++ '.' :: field

section Paths

variable {F : Type} (b : Builtins F)

/-- Get all valid setting paths for tab completion. -/
def getSettingPaths (config : AppConfig F) : List Str :=
  (basePaths ++ (config.servers.rows.map Prod.fst).flatMap
    (fun id => serverFields.map (serverPath id))).mergeSort Text.le

/-- The configuration after something was set at a path. -/
def afterSet (config : AppConfig F) (path raw : Str) : AppConfig F :=
  match setConfigValue b config path raw with
  | .ok config' => config'
  | .error _ => config

/-- What the paths of a configuration should do. -/
structure LensLaws (config : AppConfig F) : Prop where
  readable : ∀ p ∈ getSettingPaths config, ∃ r, getConfigValue b config p = some r
  settles : ∀ p ∈ getSettingPaths config, ∀ raw config',
    setConfigValue b config p raw = .ok config' →
    ∃ r, getConfigValue b config' p = some r ∧ setConfigValue b config' p r.value = .ok config'
  frame : ∀ p ∈ getSettingPaths config, ∀ raw config',
    setConfigValue b config p raw = .ok config' →
    ∀ q ∈ getSettingPaths config, q ≠ p → getConfigValue b config' q = getConfigValue b config q
  failed : ∀ p ∈ getSettingPaths config, ∀ raw e,
    setConfigValue b config p raw = .error e → afterSet b config p raw = config
  stable : ∀ p ∈ getSettingPaths config, ∀ r, getConfigValue b config p = some r →
    afterSet b config p r.value = config

/-- A list that a text between commas gives back. -/
def CanonicalList (xs : List Str) : Prop := xs ≠ [] ∧ ∀ x ∈ xs, Text.IsPart ',' x

/-- A server as `/set` could have written it. -/
structure CanonicalServer (s : ServerConfig) : Prop where
  channels : CanonicalList s.channels
  texts : ∀ o ∈ [s.nick, s.username, s.realname, s.password, s.saslUser, s.saslPass, s.bindIp,
    s.encoding, s.autosendcmd, s.saslMechanism, s.clientCertPath], o ≠ none

/-- A configuration as `/set` could have written it, with ids that are one part of a path. -/
structure Canonical (config : AppConfig F) : Prop where
  floodExemptions : ∀ x ∈ config.general.floodExemptions, x ≠ [] ∧ Text.IsPart ',' x
  defaultBindIp : config.general.defaultBindIp ≠ some []
  autochatMasks : CanonicalList config.dcc.autochatMasks
  mode : CanonicalMode b config.spellcheck.mode
  languages : CanonicalList config.spellcheck.languages
  ids : ∀ id s, config.servers.lookup id = some s → '.' ∉ id
  servers : ∀ id s, config.servers.lookup id = some s → CanonicalServer s

/-! ### Sections -/

/-- The settings of two tables keep each other. -/
def Apart {σ : Type} (t t' : List (Setting σ)) : Prop :=
  ∀ st ∈ t, ∀ st' ∈ t', Keeps st.set st'.get ∧ Keeps st'.set st.get

theorem apart_within {σ σ' τ : Type} {get : τ → σ} {put : τ → σ → τ} {get' : τ → σ'}
    {put' : τ → σ' → τ} {settings : List (Setting σ)} {settings' : List (Setting σ')}
    (h : ∀ t s, get' (put t s) = get' t) (h' : ∀ t s, get (put' t s) = get t) :
    Apart (settings.map (.within get put)) (settings'.map (.within get' put')) := by
  intro st hst st' hst'
  obtain ⟨s, -, rfl⟩ := List.mem_map.mp hst
  obtain ⟨s', -, rfl⟩ := List.mem_map.mp hst'
  exact ⟨Lens.keeps_of_put (fun t v => congrArg s'.get (h t v)),
    Lens.keeps_of_put (fun t v => congrArg s.get (h' t v))⟩

/-- The tables of all settings outside the servers. -/
def tables : List (Str × List (Setting (AppConfig F))) := sections b ++ panels

theorem apart_tables : (tables b).Pairwise (fun t t' => Apart t.2 t'.2) := by
  rw [tables, sections, panels]
  simp only [List.cons_append, List.nil_append]
  repeat' first
    | exact List.Pairwise.nil
    | refine List.Pairwise.cons ?_ ?_
    | exact apart_within (fun _ _ => rfl) (fun _ _ => rfl)
    | refine List.forall_mem_cons.mpr ⟨?_, ?_⟩
    | exact fun t ht => absurd ht List.not_mem_nil

/-- What holds of every table. -/
structure BaseTable (t : List (Setting (AppConfig F))) : Prop where
  lawful : ∃ P, LawfulTable t P ∧ ∀ c, Canonical b c → P c
  get_servers : ∀ st ∈ t, ∀ c servers, st.get { c with servers := servers } = st.get c
  keeps_servers : ∀ st ∈ t, Keeps st.set AppConfig.servers

variable {b}

theorem baseTable_within {σ : Type} {get : AppConfig F → σ} {put : AppConfig F → σ → AppConfig F}
    {settings : List (Setting σ)} {P : σ → Prop} (h : LawfulTable settings P)
    (hP : ∀ c, Canonical b c → P (get c)) (hp : IsLens get put)
    (hget : ∀ c servers, get { c with servers := servers } = get c)
    (hput : ∀ c s, (put c s).servers = c.servers) :
    BaseTable b (settings.map (.within get put)) where
  lawful := ⟨_, h.within hp, hP⟩
  get_servers := by
    intro st hst c servers
    obtain ⟨s, -, rfl⟩ := List.mem_map.mp hst
    exact congrArg s.get (hget c servers)
  keeps_servers := by
    intro st hst
    obtain ⟨s, -, rfl⟩ := List.mem_map.mp hst
    exact Lens.keeps_of_put hput

theorem baseTable_of_mem (hb : b.Lawful) : ∀ t ∈ tables b, BaseTable b t.2 := by
  have hlist : ∀ {xs : List Str}, CanonicalList xs → splitCommas (joined xs) = xs :=
    fun h => splitCommas_joined_iff.mpr h
  rw [tables, sections, panels]
  simp only [List.cons_append, List.nil_append, List.forall_mem_cons]
  refine ⟨
    baseTable_within lawful_general
      (fun c h => ⟨splitList_joined_iff.mpr h.floodExemptions, h.defaultBindIp, trivial⟩) ?_ ?_ ?_,
    baseTable_within (lawful_display hb) (fun _ _ => trivial) ?_ ?_ ?_,
    baseTable_within lawful_statusbar (fun _ _ => trivial) ?_ ?_ ?_,
    baseTable_within lawful_imagePreview (fun _ _ => trivial) ?_ ?_ ?_,
    baseTable_within lawful_dcc (fun c h => ⟨hlist h.autochatMasks, trivial⟩) ?_ ?_ ?_,
    baseTable_within lawful_shrink (fun _ _ => trivial) ?_ ?_ ?_,
    baseTable_within (lawful_spellcheck hb) (fun c h => ⟨h.mode, hlist h.languages, trivial⟩)
      ?_ ?_ ?_,
    baseTable_within lawful_logging (fun _ _ => trivial) ?_ ?_ ?_,
    baseTable_within (lawful_web hb) (fun _ _ => trivial) ?_ ?_ ?_,
    baseTable_within lawful_emotes (fun _ _ => trivial) ?_ ?_ ?_,
    baseTable_within lawful_panel (fun _ _ => trivial) ?_ ?_ ?_,
    baseTable_within lawful_panel (fun _ _ => trivial) ?_ ?_ ?_,
    fun t ht => absurd ht List.not_mem_nil⟩
  -- every section is a field of the configuration
  all_goals
    first
    | exact fun _ _ => rfl
    | exact ⟨fun _ _ => rfl, fun _ => rfl, fun _ _ _ => rfl⟩

/-- Settings under different names keep each other. -/
theorem keeps_of_mem_tables (hb : b.Lawful) {n n' : Str} {t t' : List (Setting (AppConfig F))}
    {st st' : Setting (AppConfig F)} (ht : (n, t) ∈ tables b) (ht' : (n', t') ∈ tables b)
    (hst : st ∈ t) (hst' : st' ∈ t') (hne : n ≠ n' ∨ t = t' ∧ st.name ≠ st'.name) :
    Keeps st.set st'.get := by
  rcases hne with hne | ⟨rfl, hname⟩
  · have : Std.Symm (fun t t' : Str × List (Setting (AppConfig F)) => Apart t.2 t'.2) :=
      ⟨fun _ _ h st hst st' hst' => (h st' hst' st hst).symm⟩
    have hapart := (apart_tables b).forall ht ht' (fun heq => hne (congrArg Prod.fst heq))
    exact (hapart st hst st' hst').1
  · obtain ⟨P, hlawful, -⟩ := (baseTable_of_mem hb _ ht).lawful
    exact hlawful.keeps st hst st' hst' hname

/-! ### What a path leads to -/

/-- The parts of the path of a setting outside the servers. -/
def baseParts (table name : Str) : List Str :=
  if table = str "left" ∨ table = str "right" then [str "sidepanel", table, name]
  else [table, name]

/-- A path leads to a setting outside the servers. -/
structure LeadsTo (b : Builtins F) (p n : Str) (t : List (Setting (AppConfig F)))
    (st : Setting (AppConfig F)) : Prop where
  table : (n, t) ∈ tables b
  mem : st ∈ t
  parts : p.splitOn '.' = baseParts n st.name
  get : ∃ cred, ∀ config, getConfigValue b config p = some ⟨st.get config, cred⟩
  set : ∀ config raw, setConfigValue b config p raw = st.set config raw

/-- The names of the settings of some tables. -/
def namesOf {σ : Type} (tables : List (Str × List (Setting σ))) : List (Str × List Str) :=
  tables.map (fun t => (t.1, t.2.map Setting.name))

/-- There is a setting of a name in the table of a name. -/
def hasName (names : List (Str × List Str)) (table name : Str) : Bool :=
  (names.find? (fun t => t.1 = table)).any (fun t => name ∈ t.2)

theorem exists_of_hasName {σ : Type} {tables : List (Str × List (Setting σ))} {n name : Str}
    (h : hasName (namesOf tables) n name = true) :
    ∃ t st, tableOf tables n = some t ∧ find t name = some st := by
  rw [hasName, namesOf, List.find?_map] at h
  cases hfind : tables.find? (fun t => t.1 = n) with
  | none =>
    have hnone : tables.find? ((fun t : Str × List Str => decide (t.1 = n)) ∘
        fun t => (t.1, t.2.map Setting.name)) = none := hfind
    rw [hnone] at h
    exact nomatch h
  | some t =>
    have hsome : tables.find? ((fun t : Str × List Str => decide (t.1 = n)) ∘
        fun t => (t.1, t.2.map Setting.name)) = some t := hfind
    rw [hsome] at h
    have hname : name ∈ t.2.map Setting.name := by simpa using h
    obtain ⟨st, hst, hname⟩ := List.mem_map.mp hname
    have hissome : (find t.2 name).isSome = true :=
      List.find?_isSome.mpr ⟨st, hst, decide_eq_true hname⟩
    obtain ⟨st', hst'⟩ := Option.isSome_iff_exists.mp hissome
    exact ⟨t.2, st', by rw [tableOf, hfind]; rfl, hst'⟩

/-- There is a setting under these parts of a path. -/
def hasParts (sectionNames panelNames : List (Str × List Str)) : List Str → Bool
  | [sec, name] =>
    hasName sectionNames sec name && sec ≠ str "sidepanel" && sec ≠ str "servers"
  | [sec, name, field] => sec = str "sidepanel" && hasName panelNames name field
  | _ => false

theorem hasParts_of_eq {paths : List Str} {sectionNames panelNames : List (Str × List Str)}
    (hpaths : basePaths = paths) (hsections : namesOf (sections b) = sectionNames)
    (hpanels : namesOf (panels (F := F)) = panelNames)
    (h : paths.all (fun p => hasParts sectionNames panelNames (p.splitOn '.')) = true) :
    basePaths.all (fun p => hasParts (namesOf (sections b)) (namesOf (panels (F := F)))
      (p.splitOn '.')) = true := by
  rw [hpaths, hsections, hpanels]
  exact h

-- what is left to compute works on the characters of the literals
theorem hasParts_basePaths :
    basePaths.all (fun p => hasParts (namesOf (sections b)) (namesOf (panels (F := F)))
      (p.splitOn '.')) = true := by
  apply hasParts_of_eq
  · unfold basePaths
    simp only [-String.reduceToList, List.map_cons, List.map_nil]
    repeat' first | apply Text.cons_ofList | exact Eq.refl []
  · unfold namesOf sections
    simp only [-String.reduceToList, List.map_cons, List.map_nil, Setting.within, generalSettings,
      displaySettings, statusbarSettings, imagePreviewSettings, dccSettings, shrinkSettings,
      spellcheckSettings, loggingSettings, webSettings, emotesSettings, textSetting, boolSetting,
      natSetting, floorSetting, listSetting, unitSetting, choiceSetting]
    repeat' first | apply Text.cons_ofList_pair | apply Text.cons_ofList | exact Eq.refl []
  · unfold namesOf panels
    simp only [-String.reduceToList, List.map_cons, List.map_nil, Setting.within, panelSettings,
      boolSetting, natSetting]
    repeat' first | apply Text.cons_ofList_pair | apply Text.cons_ofList | exact Eq.refl []
  · decide +kernel

theorem leadsTo_section {p n name : Str} {t : List (Setting (AppConfig F))}
    {st : Setting (AppConfig F)} (hp : p.splitOn '.' = [n, name]) (hpanel : n ≠ str "sidepanel")
    (hservers : n ≠ str "servers") (ht : tableOf (sections b) n = some t)
    (hst : find t name = some st) : LeadsTo b p n t st where
  table := List.mem_append_left _ (tableOf_some ht)
  mem := (find_some hst).1
  parts := by
    have hside : ¬ (n = str "left" ∨ n = str "right") := by
      rintro (rfl | rfl)
      · exact nomatch ht
      · exact nomatch ht
    rw [hp, baseParts, if_neg hside, (find_some hst).2]
  get := ⟨_, fun config => by rw [getConfigValue, hp, getParts_section b _ hpanel hservers ht hst]⟩
  set := by
    intro config raw
    rw [setConfigValue, hp]
    simp [setParts, hpanel, hservers, ht, setIn, hst]

theorem leadsTo_panel {p n name : Str} {t : List (Setting (AppConfig F))}
    {st : Setting (AppConfig F)} (hp : p.splitOn '.' = [str "sidepanel", n, name])
    (ht : tableOf panels n = some t) (hst : find t name = some st) : LeadsTo b p n t st where
  table := List.mem_append_right _ (tableOf_some ht)
  mem := (find_some hst).1
  parts := by
    have hside : n = str "left" ∨ n = str "right" := by
      have hmem : n ∈ panels.map Prod.fst := List.mem_map.mpr ⟨_, tableOf_some ht, rfl⟩
      simpa [panels] using hmem
    rw [hp, baseParts, if_pos hside, (find_some hst).2]
  get := ⟨_, fun config => by rw [getConfigValue, hp, getParts_panel b _ ht hst]⟩
  set := by
    intro config raw
    rw [setConfigValue, hp]
    simp [setParts, ht, setIn, hst]

theorem leadsTo_of_mem {p : Str} (hp : p ∈ basePaths) : ∃ n t st, LeadsTo b p n t st := by
  have hparts := List.all_eq_true.mp (hasParts_basePaths (b := b)) p hp
  rcases hsplit : p.splitOn '.' with _ | ⟨sec, _ | ⟨name, _ | ⟨field, _ | ⟨more, rest⟩⟩⟩⟩
  · exact absurd hsplit (List.splitOn_ne_nil '.' p)
  · rw [hsplit] at hparts
    exact nomatch hparts
  · rw [hsplit, hasParts, Bool.and_eq_true, Bool.and_eq_true, decide_eq_true_eq,
      decide_eq_true_eq] at hparts
    obtain ⟨⟨hname, hpanel⟩, hservers⟩ := hparts
    obtain ⟨t, st, ht, hst⟩ := exists_of_hasName hname
    exact ⟨sec, t, st, leadsTo_section hsplit hpanel hservers ht hst⟩
  · rw [hsplit, hasParts, Bool.and_eq_true, decide_eq_true_eq] at hparts
    obtain ⟨rfl, hname⟩ := hparts
    obtain ⟨t, st, ht, hst⟩ := exists_of_hasName hname
    exact ⟨name, t, st, leadsTo_panel hsplit ht hst⟩
  · rw [hsplit] at hparts
    exact nomatch hparts

/-! ### Servers -/

theorem splitOn_serverPath (id : Str) {field : Str} (hfield : '.' ∉ field) :
    (serverPath id field).splitOn '.' = str "servers" :: (id.splitOn '.' ++ [field]) := by
  have hpath : serverPath id field = str "servers" ++ '.' :: (id ++ '.' :: field) := rfl
  rw [hpath, Text.splitOn_append_cons, Text.splitOn_append_cons,
    Text.splitOn_of_notMem hfield]
  rfl

theorem dot_notMem_serverFields : ∀ field ∈ serverFields, '.' ∉ field := by
  decide +kernel

/-- The fields that are listed are those that the settings of a server have. -/
theorem names_serverSettings : serverSettings.map Setting.name = serverFields := rfl

theorem exists_find_serverSettings {field : Str} (h : field ∈ serverFields) :
    ∃ st, find serverSettings field = some st := by
  rw [← names_serverSettings] at h
  obtain ⟨st, hst, hname⟩ := List.mem_map.mp h
  exact Option.isSome_iff_exists.mp (List.find?_isSome.mpr ⟨st, hst, decide_eq_true hname⟩)

theorem mem_getSettingPaths {config : AppConfig F} {p : Str} :
    p ∈ getSettingPaths config ↔
      p ∈ basePaths ∨ ∃ id s field, config.servers.lookup id = some s ∧ field ∈ serverFields ∧
        p = serverPath id field := by
  rw [getSettingPaths, List.mem_mergeSort, List.mem_append, List.mem_flatMap]
  refine or_congr_right ?_
  constructor
  · rintro ⟨id, hid, hp⟩
    obtain ⟨s, hs⟩ := Option.isSome_iff_exists.mp (Dict.mem_keys_iff.mp hid)
    obtain ⟨field, hfield, rfl⟩ := List.mem_map.mp hp
    exact ⟨id, s, field, hs, hfield, rfl⟩
  · rintro ⟨id, s, field, hs, hfield, rfl⟩
    exact ⟨id, Dict.mem_keys_iff.mpr (hs ▸ rfl), List.mem_map.mpr ⟨field, hfield, rfl⟩⟩

/-- The configuration with another server under an id. -/
def withServer (config : AppConfig F) (id : Str) (s : ServerConfig) : AppConfig F :=
  { config with servers := config.servers.modify id (fun _ => s) }

theorem lookup_withServer {config : AppConfig F} {id : Str} {s : ServerConfig}
    (hs : config.servers.lookup id = some s) (s' : ServerConfig) :
    (withServer config id s').servers.lookup id = some s' := by
  rw [withServer, Dict.lookup_modify, if_pos rfl, hs]
  rfl

theorem withServer_self {config : AppConfig F} {id : Str} {s : ServerConfig}
    (hs : config.servers.lookup id = some s) : withServer config id s = config := by
  rw [withServer, Dict.modify_eq_self hs]

section Server

variable {config : AppConfig F} {id field : Str} {rest : List Str} {s : ServerConfig}
  {st : Setting ServerConfig}

/-- Setting a field of a server, whatever comes after it in the path. -/
theorem setParts_server (hs : config.servers.lookup id = some s)
    (hst : find serverSettings field = some st) (path raw : Str) :
    setParts b config path raw (str "servers" :: id :: field :: rest) =
      (st.set s raw).map (withServer config id) := by
  have hservers : str "servers" ≠ str "sidepanel" := by decide
  simp [setParts, hservers, hs, setIn, hst]
  rfl

theorem splitOn_path (hid : '.' ∉ id) (hfield : field ∈ serverFields) :
    (serverPath id field).splitOn '.' = [str "servers", id, field] := by
  rw [splitOn_serverPath id (dot_notMem_serverFields field hfield), Text.splitOn_of_notMem hid]
  rfl

theorem getConfigValue_server (hid : '.' ∉ id) (hfield : field ∈ serverFields)
    (hs : config.servers.lookup id = some s) (hst : find serverSettings field = some st) :
    getConfigValue b config (serverPath id field) =
      some ⟨st.get s, isServerCredential field⟩ := by
  rw [getConfigValue, splitOn_path hid hfield, getParts_server b hs hst]

theorem setConfigValue_server (hid : '.' ∉ id) (hfield : field ∈ serverFields)
    (hs : config.servers.lookup id = some s) (hst : find serverSettings field = some st)
    (raw : Str) : setConfigValue b config (serverPath id field) raw =
      (st.set s raw).map (withServer config id) := by
  rw [setConfigValue, splitOn_path hid hfield, setParts_server hs hst]

end Server

/-! ### The laws of canonical configurations -/

section Canonical

variable {config : AppConfig F}

theorem names_tables_nodup : ((tables b).map Prod.fst).Nodup := by
  have hnames : (tables b).map Prod.fst = (tables asciiBuiltins).map Prod.fst := rfl
  rw [hnames]
  decide +kernel

theorem table_unique {n : Str} {t t' : List (Setting (AppConfig F))} (ht : (n, t) ∈ tables b)
    (ht' : (n, t') ∈ tables b) : t = t' :=
  congrArg Prod.snd (List.inj_on_of_nodup_map names_tables_nodup ht ht' rfl)

/-- Different paths lead to settings that keep each other. -/
theorem LeadsTo.keeps (hb : b.Lawful) {p q n n' : Str} {t t' : List (Setting (AppConfig F))}
    {st st' : Setting (AppConfig F)} (hp : LeadsTo b p n t st) (hq : LeadsTo b q n' t' st')
    (hne : q ≠ p) : Keeps st.set st'.get := by
  refine keeps_of_mem_tables hb hp.table hq.table hp.mem hq.mem ?_
  by_cases hn : n = n'
  · subst hn
    refine .inr ⟨table_unique hp.table hq.table, fun hname => hne ?_⟩
    apply Text.splitOn_injective
    rw [hq.parts, hp.parts, hname]
  · exact .inl hn

theorem stable_serverSettings_iff {s : ServerConfig} :
    (∀ st ∈ serverSettings, Stable st.get st.set s) ↔ CanonicalServer s := by
  rw [lawful_server.stable_iff, splitCommas_joined_iff]
  constructor
  · rintro ⟨hchannels, hnick, husername, hrealname, hpassword, huser, hpass, hbind, hencoding,
      hautosend, hmechanism, hcert, -⟩
    refine ⟨hchannels, ?_⟩
    simp only [List.forall_mem_cons]
    exact ⟨hnick, husername, hrealname, hpassword, huser, hpass, hbind, hencoding, hautosend,
      hmechanism, hcert, fun o ho => absurd ho List.not_mem_nil⟩
  · rintro ⟨hchannels, htexts⟩
    simp only [List.forall_mem_cons] at htexts
    obtain ⟨hnick, husername, hrealname, hpassword, huser, hpass, hbind, hencoding, hautosend,
      hmechanism, hcert, -⟩ := htexts
    exact ⟨hchannels, hnick, husername, hrealname, hpassword, huser, hpass, hbind, hencoding,
      hautosend, hmechanism, hcert, trivial⟩

theorem afterSet_eq_self_iff {p raw : Str} : afterSet b config p raw = config ↔
    ∀ config', setConfigValue b config p raw = .ok config' → config' = config := by
  rw [afterSet]
  cases setConfigValue b config p raw with
  | error e => exact iff_of_true rfl (fun _ h => nomatch h)
  | ok config' =>
    constructor
    · rintro h _ heq
      exact (Except.ok.inj heq).symm.trans h
    · exact fun h => h config' rfl

/-- A path that is listed leads to a setting, of the configuration or of a server. -/
theorem canonical_path (h : Canonical b config) {p : Str} (hp : p ∈ getSettingPaths config) :
    (∃ n t st, LeadsTo b p n t st) ∨
      ∃ id s field st, config.servers.lookup id = some s ∧ '.' ∉ id ∧ field ∈ serverFields ∧
        find serverSettings field = some st ∧ p = serverPath id field := by
  rcases (mem_getSettingPaths).mp hp with hp | ⟨id, s, field, hs, hfield, rfl⟩
  · exact .inl (leadsTo_of_mem hp)
  · obtain ⟨st, hst⟩ := exists_find_serverSettings hfield
    exact .inr ⟨id, s, field, st, hs, h.ids id s hs, hfield, hst, rfl⟩

theorem canonical_readable (h : Canonical b config) {p : Str} (hp : p ∈ getSettingPaths config) :
    ∃ r, getConfigValue b config p = some r := by
  rcases canonical_path h hp with ⟨n, t, st, hlead⟩ | ⟨id, s, field, st, hs, hid, hfield, hst, rfl⟩
  · obtain ⟨cred, hget⟩ := hlead.get
    exact ⟨_, hget config⟩
  · exact ⟨_, getConfigValue_server hid hfield hs hst⟩

theorem canonical_settles (hb : b.Lawful) (h : Canonical b config) {p : Str}
    (hp : p ∈ getSettingPaths config) {raw : Str} {config' : AppConfig F}
    (hset : setConfigValue b config p raw = .ok config') :
    ∃ r, getConfigValue b config' p = some r ∧
      setConfigValue b config' p r.value = .ok config' := by
  rcases canonical_path h hp with ⟨n, t, st, hlead⟩ | ⟨id, s, field, st, hs, hid, hfield, hst, rfl⟩
  · rw [hlead.set] at hset
    obtain ⟨cred, hget⟩ := hlead.get
    obtain ⟨P, hlawful, -⟩ := (baseTable_of_mem hb _ hlead.table).lawful
    refine ⟨_, hget config', ?_⟩
    rw [hlead.set]
    exact hlawful.settles st hlead.mem config raw config' hset
  · rw [setConfigValue_server hid hfield hs hst] at hset
    obtain ⟨s', hs', rfl⟩ := Lens.map_eq_ok hset
    have hlookup := lookup_withServer hs s'
    refine ⟨_, getConfigValue_server hid hfield hlookup hst, ?_⟩
    rw [setConfigValue_server hid hfield hlookup hst,
      lawful_server.settles st (find_some hst).1 s raw s' hs']
    exact congrArg Except.ok (withServer_self hlookup)

theorem canonical_frame (hb : b.Lawful) (h : Canonical b config) {p q : Str}
    (hp : p ∈ getSettingPaths config) (hq : q ∈ getSettingPaths config) (hne : q ≠ p) {raw : Str}
    {config' : AppConfig F} (hset : setConfigValue b config p raw = .ok config') :
    getConfigValue b config' q = getConfigValue b config q := by
  rcases canonical_path h hp with ⟨n, t, st, hlead⟩ | ⟨id, s, field, st, hs, hid, hfield, hst, rfl⟩
  · rw [hlead.set] at hset
    rcases canonical_path h hq with ⟨n', t', st', hlead'⟩ |
      ⟨id', s', field', st', hs', hid', hfield', hst', rfl⟩
    -- both paths lead to the tables
    · obtain ⟨cred, hget⟩ := hlead'.get
      rw [hget, hget, hlead.keeps hb hlead' hne config raw config' hset]
    -- no table sets a server
    · have hservers : config'.servers = config.servers :=
        (baseTable_of_mem hb _ hlead.table).keeps_servers st hlead.mem config raw config' hset
      rw [getConfigValue_server hid' hfield' hs' hst',
        getConfigValue_server hid' hfield' (hservers ▸ hs') hst']
  · rw [setConfigValue_server hid hfield hs hst] at hset
    obtain ⟨snew, hsnew, rfl⟩ := Lens.map_eq_ok hset
    rcases canonical_path h hq with ⟨n', t', st', hlead'⟩ |
      ⟨id', s', field', st', hs', hid', hfield', hst', rfl⟩
    -- no table shows a server
    · obtain ⟨cred, hget⟩ := hlead'.get
      rw [hget, hget, withServer,
        (baseTable_of_mem hb _ hlead'.table).get_servers st' hlead'.mem config]
    · by_cases hsame : id = id'
      · -- another field of the same server
        subst hsame
        rw [hs] at hs'
        obtain rfl := Option.some.inj hs'
        have hname : st.name ≠ st'.name := by
          rw [(find_some hst).2, (find_some hst').2]
          exact fun heq => hne (by rw [heq])
        have hkeep := lawful_server.keeps st (find_some hst).1 st' (find_some hst').1 hname s raw
          snew hsnew
        rw [getConfigValue_server hid hfield' (lookup_withServer hs snew) hst',
          getConfigValue_server hid hfield' hs hst', hkeep]
      · have hlookup : (withServer config id snew).servers.lookup id' = some s' := by
          rw [withServer, Dict.lookup_modify, if_neg hsame, hs']
        rw [getConfigValue_server hid' hfield' hlookup hst',
          getConfigValue_server hid' hfield' hs' hst']

theorem canonical_stable (hb : b.Lawful) (h : Canonical b config) {p : Str}
    (hp : p ∈ getSettingPaths config) {r : Resolved} (hr : getConfigValue b config p = some r) :
    afterSet b config p r.value = config := by
  rw [afterSet_eq_self_iff]
  intro config' hset
  rcases canonical_path h hp with ⟨n, t, st, hlead⟩ | ⟨id, s, field, st, hs, hid, hfield, hst, rfl⟩
  · obtain ⟨cred, hget⟩ := hlead.get
    rw [hget] at hr
    obtain rfl := Option.some.inj hr
    rw [hlead.set] at hset
    obtain ⟨P, hlawful, hP⟩ := (baseTable_of_mem hb _ hlead.table).lawful
    exact (hlawful.stable_iff config).mpr (hP config h) st hlead.mem config' hset
  · rw [getConfigValue_server hid hfield hs hst] at hr
    obtain rfl := Option.some.inj hr
    rw [setConfigValue_server hid hfield hs hst] at hset
    obtain ⟨s', hs', rfl⟩ := Lens.map_eq_ok hset
    have hstable := (stable_serverSettings_iff).mpr (h.servers id s hs) st (find_some hst).1
    rw [hstable s' hs', withServer_self hs]

theorem lensLaws_of_canonical (hb : b.Lawful) (h : Canonical b config) : LensLaws b config where
  readable := fun _ hp => canonical_readable h hp
  settles := fun _ hp _ _ hset => canonical_settles hb h hp hset
  frame := fun _ hp _ _ hset _ hq hne => canonical_frame hb h hp hq hne hset
  failed := fun p _ raw e herror => by rw [afterSet, herror]
  stable := fun _ hp _ hr => canonical_stable hb h hp hr

end Canonical

/-! ### What the laws need -/

section Needs

variable {config : AppConfig F}

/-- A setting shows a text that was set, for every server. -/
def Shows (st : Setting ServerConfig) (raw : Str) : Prop :=
  ∀ s, ∃ s', st.set s raw = .ok s' ∧ st.get s' = raw

section Shows

variable {name : String} {bits n : Nat} {error : String} {raw : Str}

theorem shows_nat {get : ServerConfig → Nat} {put : ServerConfig → Nat → ServerConfig}
    (h : ∀ s v, get (put s v) = v) (hread : parseUnsigned bits error raw = .ok n)
    (hwrite : natText n = raw) : Shows (natSetting name bits error get put) raw := by
  intro s
  exact ⟨put s n, congrArg (Except.map (put s)) hread, (congrArg natText (h s n)).trans hwrite⟩

theorem shows_optNat {get : ServerConfig → Option Nat}
    {put : ServerConfig → Option Nat → ServerConfig} (h : ∀ s v, get (put s v) = v)
    (hread : parseUnsigned bits "Expected a positive integer" raw = .ok n)
    (hwrite : natText n = raw) : Shows (optNatSetting name bits get put) raw := by
  intro s
  refine ⟨put s (some n), congrArg (Except.map (fun n => put s (some n))) hread, ?_⟩
  change ((get (put s (some n))).map natText).getD [] = raw
  rw [h]
  exact hwrite

end Shows

/-- Every field of a server can be set to something else. -/
theorem exists_set_server : ∀ st ∈ serverSettings, ∀ s, ∃ raw s', st.set s raw = .ok s' ∧
    st.get s' ≠ st.get s := by
  have hmove : ∀ {st : Setting ServerConfig} (r r' : Str), r ≠ r' → Shows st r → Shows st r' →
      ∀ s, ∃ raw s', st.set s raw = .ok s' ∧ st.get s' ≠ st.get s := by
    intro st r r' hne hr hr' s
    -- one of the two texts is not what is shown now
    by_cases heq : st.get s = r
    · obtain ⟨s', hset, hget⟩ := hr' s
      exact ⟨r', s', hset, by rw [hget, heq]; exact hne.symm⟩
    · obtain ⟨s', hset, hget⟩ := hr s
      exact ⟨r, s', hset, by rw [hget]; exact fun h => heq h.symm⟩
  rw [serverSettings]
  simp -proj only [List.forall_mem_cons]
  refine ⟨?_, ?_, ?_, ?_, ?_, ?_, ?_, ?_, ?_, ?_, ?_, ?_, ?_, ?_, ?_, ?_, ?_, ?_, ?_, ?_, ?_,
    fun st hst => absurd hst List.not_mem_nil⟩
  all_goals first
    | exact hmove (str "true") (str "false") (by decide) (fun _ => ⟨_, rfl, rfl⟩)
        (fun _ => ⟨_, rfl, rfl⟩)
    | exact hmove (str "1") (str "2") (by decide) (shows_nat (n := 1) (fun _ _ => rfl) rfl rfl)
        (shows_nat (n := 2) (fun _ _ => rfl) rfl rfl)
    | refine hmove (str "1") (str "2") (by decide) ?_ ?_
      · exact shows_optNat (n := 1) (fun _ _ => rfl) rfl rfl
      · exact shows_optNat (n := 2) (fun _ _ => rfl) rfl rfl

theorem exists_of_getParts_server {id field : Str} {rest : List Str} {r : Resolved}
    (h : getParts b config (str "servers" :: id :: field :: rest) = some r) :
    ∃ s st, config.servers.lookup id = some s ∧ find serverSettings field = some st := by
  rw [getParts.eq_def] at h
  dsimp only at h
  rw [if_neg (by decide), if_pos rfl] at h
  cases hs : config.servers.lookup id with
  | none =>
    rw [hs] at h
    cases h
  | some s =>
    rw [hs] at h
    obtain ⟨st, hst, -⟩ := Option.map_eq_some_iff.mp h
    exact ⟨s, st, rfl, hst⟩

theorem serverPath_mem {id field : Str} {s : ServerConfig}
    (hs : config.servers.lookup id = some s) (hfield : field ∈ serverFields) :
    serverPath id field ∈ getSettingPaths config :=
  (mem_getSettingPaths).mpr (.inr ⟨id, s, field, hs, hfield, rfl⟩)

/-- Two fields of a server whose id has a dot are one setting, if any. -/
theorem ids_of_lensLaws (h : LensLaws b config) {id : Str} {s : ServerConfig}
    (hs : config.servers.lookup id = some s) : '.' ∉ id := by
  intro hdot
  obtain ⟨d, e, ds, hsplit⟩ := Text.exists_splitOn_of_mem hdot
  have hlabel : str "label" ∈ serverFields := by decide
  have haddress : str "address" ∈ serverFields := by decide
  have hparts : ∀ field ∈ serverFields, (serverPath id field).splitOn '.' =
      str "servers" :: d :: e :: (ds ++ [field]) := by
    intro field hfield
    rw [splitOn_serverPath id (dot_notMem_serverFields field hfield), hsplit]
    rfl
  obtain ⟨r, hr⟩ := h.readable _ (serverPath_mem hs hlabel)
  rw [getConfigValue, hparts _ hlabel] at hr
  obtain ⟨s', st, hs', hst⟩ := exists_of_getParts_server hr
  -- setting the label sets that field, and the address shows it
  obtain ⟨raw, snew, hset, hne⟩ := exists_set_server st (find_some hst).1 s'
  have hsetConfig : setConfigValue b config (serverPath id (str "label")) raw =
      .ok (withServer config d snew) := by
    rw [setConfigValue, hparts _ hlabel, setParts_server hs' hst, hset]
    rfl
  have hpaths : serverPath id (str "address") ≠ serverPath id (str "label") := by
    intro heq
    exact absurd (List.append_cancel_left heq) (by decide)
  have hframe := h.frame _ (serverPath_mem hs hlabel) raw _ hsetConfig _
    (serverPath_mem hs haddress) hpaths
  rw [getConfigValue, getConfigValue, hparts _ haddress,
    getParts_server b (lookup_withServer hs' snew) hst, getParts_server b hs' hst] at hframe
  exact hne (congrArg Resolved.value (Option.some.inj hframe))

theorem find_serverSettings_name {st : Setting ServerConfig} (hst : st ∈ serverSettings) :
    find serverSettings st.name = some st := by
  have hnodup : (serverSettings.map Setting.name).Nodup := by decide +kernel
  have hfield : st.name ∈ serverFields := names_serverSettings ▸ List.mem_map_of_mem hst
  obtain ⟨st', hst'⟩ := exists_find_serverSettings hfield
  obtain ⟨hmem, hname⟩ := find_some hst'
  rw [hst', List.inj_on_of_nodup_map hnodup hmem hst hname]

theorem server_of_lensLaws (h : LensLaws b config) {id : Str} {s : ServerConfig}
    (hs : config.servers.lookup id = some s) : CanonicalServer s := by
  rw [← stable_serverSettings_iff]
  intro st hst s' hset
  have hid := ids_of_lensLaws h hs
  have hfield : st.name ∈ serverFields := names_serverSettings ▸ List.mem_map_of_mem hst
  have hfind := find_serverSettings_name hst
  have hstable := h.stable _ (serverPath_mem hs hfield) _
    (getConfigValue_server hid hfield hs hfind)
  rw [afterSet_eq_self_iff] at hstable
  have hsame := hstable (withServer config id s')
    (by rw [setConfigValue_server hid hfield hs hfind, hset]; rfl)
  have hlookup := lookup_withServer hs s'
  rw [hsame, hs] at hlookup
  exact (Option.some.inj hlookup).symm

/-- Setting what is shown at a base path changes nothing. -/
theorem base_of_lensLaws (h : LensLaws b config) (p : Str) (parts : List Str) {r : Resolved}
    {config' : AppConfig F} (hp : p ∈ basePaths) (hsplit : p.splitOn '.' = parts)
    (hget : getParts b config parts = some r)
    (hset : setParts b config p r.value parts = .ok config') : config' = config := by
  subst hsplit
  exact (afterSet_eq_self_iff).mp
    (h.stable p ((mem_getSettingPaths).mpr (.inl hp)) r hget) config' hset

theorem setParts_mode (config : AppConfig F) (path raw : Str) :
    setParts b config path raw [str "spellcheck", str "mode"] =
      ((modeCode b).read raw).map
        (fun m => { config with spellcheck := { config.spellcheck with mode := m } }) := by
  change Except.map (fun s => { config with spellcheck := s })
    ((choiceSetting "mode" b.toLowercase
      [("replace", str "replace"), ("highlight", str "highlight")]
      "Expected 'replace' or 'highlight'" SpellcheckConfig.mode
      (fun s v => { s with mode := v })).set config.spellcheck raw) = _
  rw [choiceSetting, modeCode, choiceCode]
  dsimp only
  cases [("replace", str "replace"), ("highlight", str "highlight")].find?
    (fun c => str c.1 = b.toLowercase raw) <;> rfl

theorem canonical_of_lensLaws (h : LensLaws b config) : Canonical b config where
  floodExemptions := by
    have hsame := base_of_lensLaws h (str "general.flood_exemptions")
      [str "general", str "flood_exemptions"] (List.mem_map_of_mem (by simp)) (by decide) rfl rfl
    exact splitList_joined_iff.mp (congrArg (fun c => c.general.floodExemptions) hsame)
  defaultBindIp := by
    intro hempty
    have hsame := base_of_lensLaws h (str "general.default_bind_ip")
      [str "general", str "default_bind_ip"] (List.mem_map_of_mem (by simp)) (by decide) rfl rfl
    have hcleared : clearableCode.read (config.general.defaultBindIp.getD []) =
        .ok config.general.defaultBindIp :=
      congrArg (fun c : AppConfig F => Except.ok c.general.defaultBindIp) hsame
    rw [hempty] at hcleared
    exact nomatch Except.ok.inj hcleared
  autochatMasks := by
    have hsame := base_of_lensLaws h (str "dcc.autochat_masks") [str "dcc", str "autochat_masks"]
      (List.mem_map_of_mem (by simp)) (by decide) rfl rfl
    exact splitCommas_joined_iff.mp (congrArg (fun c => c.dcc.autochatMasks) hsame)
  mode := by
    rw [← modeCode_fixes_iff]
    intro mode hread
    have hset := (setParts_mode config (str "spellcheck.mode") config.spellcheck.mode).trans
      (congrArg (Except.map _) hread)
    have hsame := base_of_lensLaws h (str "spellcheck.mode") [str "spellcheck", str "mode"]
      (List.mem_map_of_mem (by simp)) (by decide) rfl hset
    exact congrArg (fun c => c.spellcheck.mode) hsame
  languages := by
    have hsame := base_of_lensLaws h (str "spellcheck.languages")
      [str "spellcheck", str "languages"] (List.mem_map_of_mem (by simp)) (by decide) rfl rfl
    exact splitCommas_joined_iff.mp (congrArg (fun c => c.spellcheck.languages) hsame)
  ids := fun _ _ hs => ids_of_lensLaws h hs
  servers := fun _ _ hs => server_of_lensLaws h hs

end Needs

/-- **The lens laws hold just for the configurations that `/set` could have written** and whose
server ids have no dot. -/
theorem lensLaws_iff (hb : b.Lawful) (config : AppConfig F) :
    LensLaws b config ↔ Canonical b config :=
  ⟨canonical_of_lensLaws, lensLaws_of_canonical hb⟩

end Paths

/-! ### Two configurations -/

/-- The floating-point numbers 0 and 1. -/
inductive Binary where
  | zero
  | one
  deriving DecidableEq

/-- Built-ins for ASCII texts and two numbers. -/
def binaryBuiltins : Builtins Binary where
  toUppercase := fun s => s.map Char.toUpper
  toLowercase := fun s => s.map Char.toLower
  parseF32 := fun raw =>
    if raw = str "0" then some .zero else if raw = str "1" then some .one else none
  showF32
    | .zero => str "0"
    | .one => str "1"
  inUnit := fun _ => true
  hexDecode := fun _ => none

theorem lawful_binaryBuiltins : binaryBuiltins.Lawful where
  parse_show := fun v => by cases v <;> rfl
  lower_replace := by decide
  lower_highlight := by decide

/-- A configuration with one server. -/
def plainConfig (id : Str) (server : ServerConfig) : AppConfig Binary where
  general := liberaConfig.general
  display := ⟨8, 8, .right, true, true, 2000, 20, true, true, .one, .one, true⟩
  sidepanel := liberaConfig.sidepanel
  statusbar := liberaConfig.statusbar
  imagePreview := liberaConfig.imagePreview
  servers := Dict.insert Table.empty id server
  logging := liberaConfig.logging
  dcc := { liberaConfig.dcc with autochatMasks := [str "*!*@host"] }
  spellcheck := liberaConfig.spellcheck
  web := ⟨false, str "127.0.0.1", 8443, [], [], str "%H:%M", .one, 12, 9, str "nightfall", 90,
    str "repartee", false, 4, 200, [], [], []⟩
  shrink := liberaConfig.shrink
  emotes := liberaConfig.emotes

/-- A server all of whose texts are set. -/
def fullServer : ServerConfig :=
  { liberaServer with
    channels := [str "#rust"]
    nick := some (str "me")
    username := some (str "me")
    realname := some (str "me")
    password := some []
    saslUser := some []
    saslPass := some []
    bindIp := some []
    encoding := some []
    autosendcmd := some []
    saslMechanism := some []
    clientCertPath := some [] }

theorem lensLaws_fullServer : LensLaws binaryBuiltins (plainConfig (str "libera") fullServer) := by
  have hserver : ∀ id s, (plainConfig (str "libera") fullServer).servers.lookup id = some s →
      id = str "libera" ∧ s = fullServer := by
    intro id s hs
    rw [plainConfig, Dict.lookup_insert] at hs
    split_ifs at hs with hid
    · exact ⟨hid.symm, (Option.some.inj hs).symm⟩
    · cases hs
  refine (lensLaws_iff lawful_binaryBuiltins _).mpr ⟨?_, ?_, ?_, ?_, ?_, ?_, ?_⟩
  · exact fun x hx => absurd hx List.not_mem_nil
  · exact (Option.some_ne_none _).symm
  · refine ⟨List.cons_ne_nil _ _, fun x hx => ?_⟩
    rw [List.mem_singleton.mp hx]
    exact ⟨by decide, by decide⟩
  · exact ⟨fun _ => rfl, fun h => absurd h (by decide)⟩
  · refine ⟨List.cons_ne_nil _ _, fun x hx => ?_⟩
    rw [List.mem_singleton.mp hx]
    exact ⟨by decide, by decide⟩
  · intro id s hs
    rw [(hserver id s hs).1]
    decide
  · intro id s hs
    rw [(hserver id s hs).2]
    refine ⟨⟨List.cons_ne_nil _ _, fun x hx => ?_⟩, by decide⟩
    rw [List.mem_singleton.mp hx]
    exact ⟨by decide, by decide⟩

/-- A field that is not set is set to what it shows, and a server whose id has a dot has paths that
lead nowhere. -/
theorem unset_field_is_set :
    binaryBuiltins.Lawful ∧
      ¬ LensLaws binaryBuiltins (plainConfig (str "libera") { fullServer with nick := none }) ∧
      ¬ LensLaws binaryBuiltins (plainConfig (str "irc.libera.chat") fullServer) := by
  refine ⟨lawful_binaryBuiltins, fun h => ?_, fun h => ?_⟩
  · have hserver := (canonical_of_lensLaws h).servers (str "libera") _ rfl
    exact hserver.texts none List.mem_cons_self rfl
  · have hid := (canonical_of_lensLaws h).ids (str "irc.libera.chat") fullServer rfl
    exact hid (by decide)

end Repartee.Config
