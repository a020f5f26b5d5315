import Repartee.Config.Env
import Repartee.Config.Settings
import Repartee.Lib.Lens

/-!
# Settings after a restart

Saving a server with its credentials (`commands/handlers_admin.rs`), `/set`
(`commands/settings.rs`), and what the next start reads back (`config/env.rs`, `config/mod.rs`).
The credentials are in `.env`, everything else is in `config.toml`; a restart agrees with the
session where the two files together say what was in memory.

## Main definitions

- `AppConfig.stored`: what `config.toml` gives back of a configuration
- `restart`: the configuration after the next start
- `applyServerConfig`, `cmdSet`: the two ways to change a server
- `Kept`, `PathKept`: what a server and a path need in order to come back

## Main results

- `survives_iff`: when the servers and the values of `/set` survive a restart
- `quoted_password_is_lost`: a password in quotes does not
-/

set_option autoImplicit false

namespace Repartee.Config

open Text (trim)

/-! ### The files -/

/-- What a session leaves on disk. -/
structure Disk (F : Type) where
  /-- The content of `config.toml`. -/
  toml : AppConfig F
  env : EnvFile

/-- A server as `config.toml` gives it back. -/
def ServerConfig.stored (s : ServerConfig) : ServerConfig :=
  { s with password := none, saslPass := none, autoReconnect := s.autoReconnect.or (some true) }

section

variable {F : Type} (b : Builtins F)

/-- The configuration as `config.toml` gives it back: the fields that it never holds have their
defaults. -/
def AppConfig.stored (c : AppConfig F) : AppConfig F :=
  { c with
    servers := c.servers.mapValues ServerConfig.stored
    web := { c.web with password := [], sessionSecret := [] }
    shrink := { c.shrink with apiKey := [] } }

def pwKey (id : Str) : Str := b.toUppercase id ++ str "_PASSWORD"

def saslKey (id : Str) : Str := b.toUppercase id ++ str "_SASL_PASS"

def saslUserKey (id : Str) : Str := b.toUppercase id ++ str "_SASL_USER"

/-- A server with the credentials that `.env` has for it. -/
def withCredentials (env : Dict Str Str) (id : Str) (s : ServerConfig) : ServerConfig :=
  { s with
    saslUser := (env.lookup (saslUserKey b id)).or s.saslUser
    saslPass := (env.lookup (saslKey b id)).or s.saslPass
    password := (env.lookup (pwKey b id)).or s.password }

/-- Apply .env credentials to server configs. -/
def applyCredentials (env : Dict Str Str) (servers : Dict Str ServerConfig) :
    Dict Str ServerConfig := servers.mapWithKey (withCredentials b env)

/-- The session secret that `.env` has, if it is one. -/
def sessionSecretOf (env : Dict Str Str) : Option (List UInt8) :=
  ((env.lookup (str "WEB_SESSION_SECRET")).bind (fun val => b.hexDecode (trim val))).filter
    (fun bytes => bytes.length = 32)

/-- Apply .env credentials to the web config. -/
def applyWebCredentials (env : Dict Str Str) (web : WebConfig F) : WebConfig F :=
  { web with
    password := (env.lookup (str "WEB_PASSWORD")).getD web.password
    sessionSecret := (sessionSecretOf b env).getD web.sessionSecret }

/-- Apply `.env`-stored credentials to the shrink config. -/
def applyShrinkCredentials (env : Dict Str Str) (shrink : ShrinkConfig) : ShrinkConfig :=
  { shrink with apiKey := ((env.lookup (str "SHRINK_API_KEY")).map trim).getD shrink.apiKey }

/-- The configuration that the next start loads. -/
def restart (disk : Disk F) : AppConfig F :=
  { disk.toml with
    servers := applyCredentials b (loadEnv disk.env) disk.toml.servers
    web := applyWebCredentials b (loadEnv disk.env) disk.toml.web
    shrink := applyShrinkCredentials (loadEnv disk.env) disk.toml.shrink }

end

/-! ### Saving -/

/-- How a credential should be persisted to `.env`. -/
inductive CredUpdate where
  | keep
  | set (value : Str)
  | remove

/-- The credential in memory. -/
def CredUpdate.resolve (existing : Option Str) : CredUpdate → Option Str
  | .keep => existing
  | .set v => some v
  | .remove => none

/-- The credential in `.env`. -/
def CredUpdate.write (key : Str) (file : EnvFile) : CredUpdate → EnvFile
  | .keep => file
  | .set v => setEnvValue file key v
  | .remove => removeEnvValue file key

section

variable {F : Type} (b : Builtins F)

/-- The server with its resolved credentials; `Keep` reads the existing entry. -/
def resolved (servers : Dict Str ServerConfig) (id : Str) (server : ServerConfig)
    (password saslPass : CredUpdate) : ServerConfig :=
  { server with
    password := password.resolve ((servers.lookup id).bind ServerConfig.password)
    saslPass := saslPass.resolve ((servers.lookup id).bind ServerConfig.saslPass) }

/-- Insert or overwrite a server, persist `config.toml`, and route its credentials to `.env`. -/
def applyServerConfig (config : AppConfig F) (disk : Disk F) (id : Str) (server : ServerConfig)
    (password saslPass : CredUpdate) : AppConfig F × Disk F :=
  let config' := { config with
    servers := config.servers.insert id (resolved config.servers id server password saslPass) }
  (config', ⟨config'.stored,
    saslPass.write (saslKey b id) (password.write (pwKey b id) disk.env)⟩)

/-- `/set path raw`, if it reports success. -/
def cmdSet (config : AppConfig F) (disk : Disk F) (path raw : Str) :
    Option (AppConfig F × Disk F) :=
  if (getConfigValue b config path).isNone then none
  else match setConfigValue b config path raw with
    | .error _ => none
    | .ok config' =>
      some (config', ⟨config'.stored,
        if path = str "web.password" then setEnvValue disk.env (str "WEB_PASSWORD") raw
        else disk.env⟩)

/-! ### What survives -/

/-- The credentials of a server. -/
def ServerConfig.credentials (s : ServerConfig) : Option Str × Option Str :=
  (s.password, s.saslPass)

/-- After a restart the servers are those in memory, and no other server's credentials differ
from before. -/
def Survives (config : AppConfig F) (disk : Disk F) (id : Str) (server : ServerConfig)
    (password saslPass : CredUpdate) : Prop :=
  let after := applyServerConfig b config disk id server password saslPass
  (restart b after.2).servers = after.1.servers ∧
    ∀ other, other ≠ id →
      ((restart b after.2).servers.lookup other).map ServerConfig.credentials =
        (config.servers.lookup other).map ServerConfig.credentials

/-- After a restart the path has the value that `/set` gave it. -/
def SetSurvives (config : AppConfig F) (disk : Disk F) (path raw : Str) : Prop :=
  ∀ after, cmdSet b config disk path raw = some after →
    getConfigValue b (restart b after.2) path = getConfigValue b after.1 path

/-- The lines that removing a credential deletes. -/
def CredUpdate.drops (key line : Str) : CredUpdate → Bool
  | .remove => isFor key line
  | _ => false

/-- The lines of `.env` that no removal deletes. -/
def remaining (file : EnvFile) (id : Str) (password saslPass : CredUpdate) : List Str :=
  file.lines.filter
    (fun line => !(password.drops (pwKey b id) line || saslPass.drops (saslKey b id) line))

/-- What some lines will say about `k` once `key` was updated. A value that is set counts without
the blanks and quotes around it, and only if no line behind the replaced one assigns the key. -/
def valueAfter (ls : List Str) (key k : Str) : CredUpdate → Option Str
  | .set v =>
    if k = key then some ((later (assignments ls key)).getD (unquote v)) else valueIn ls k
  | _ => valueIn ls k

/-- A value that can be written behind its key. -/
def CredUpdate.Writable (key : Str) : CredUpdate → Prop
  | .set v => Legible key ∧ '\n' ∉ v
  | _ => True

/-- What a server in memory needs for a restart to give it back. -/
structure Kept (file : EnvFile) (id : Str) (password saslPass : CredUpdate) (i : Str)
    (s : ServerConfig) : Prop where
  reconnects : s.autoReconnect ≠ none
  sasl_user : ∀ v, valueIn (remaining b file id password saslPass) (saslUserKey b i) = some v →
    s.saslUser = some v
  same_password : s.password =
    valueAfter (remaining b file id password saslPass) (pwKey b id) (pwKey b i) password
  same_sasl_pass : s.saslPass =
    valueAfter (remaining b file id password saslPass) (saslKey b id) (saslKey b i) saslPass

/-- When all servers survive: the values that are set can be written, and each server is kept. -/
def AllKept (config : AppConfig F) (file : EnvFile) (id : Str) (server : ServerConfig)
    (password saslPass : CredUpdate) : Prop :=
  password.Writable (pwKey b id) ∧ saslPass.Writable (saslKey b id) ∧
    Kept b file id password saslPass id (resolved config.servers id server password saslPass) ∧
    ∀ i s, i ≠ id → config.servers.lookup i = some s → Kept b file id password saslPass i s

/-- What a value needs for a restart to give it back at its path. -/
def PathKept (file : EnvFile) (path raw : Str) : List Str → Prop
  | sec :: name :: rest =>
    (sec = str "servers" →
      (rest.head? = some (str "password") → (valueIn file.lines (pwKey b name)).getD [] = raw) ∧
      (rest.head? = some (str "sasl_pass") → (valueIn file.lines (saslKey b name)).getD [] = raw) ∧
      (rest.head? = some (str "sasl_user") →
        ∀ v, valueIn file.lines (saslUserKey b name) = some v → v = raw)) ∧
    (sec = str "web" → name = str "password" →
      if path = str "web.password" then
        '\n' ∉ raw ∧
          (later (assignments file.lines (str "WEB_PASSWORD"))).getD (unquote raw) = raw
      else (valueIn file.lines (str "WEB_PASSWORD")).getD [] = raw)
  | _ => True

end

/-! ### The keys of a server -/

/-- A suffix of a key. -/
def IsSuffix (t : Str) : Prop :=
  Text.IsWord t ∧ '=' ∉ t ∧ '\n' ∉ t ∧ t.head? ≠ some '#'

/-- Whether a key is legible does not depend on its suffix. -/
theorem legible_append {u t t' : Str} (ht' : IsSuffix t')
    (h : Legible (u ++ t)) : Legible (u ++ t') := by
  have hequals := h.no_equals
  have hnewline := h.no_newline
  rw [List.mem_append, not_or] at hequals hnewline
  have hhead : ∀ c, (u ++ t').head? = some c → Text.isWhitespace c = false ∧ c ≠ '#' := by
    intro c hc
    cases u with
    | nil =>
      refine ⟨ht'.1.2 c (List.mem_of_head? hc), ?_⟩
      rintro rfl
      exact ht'.2.2.2 hc
    | cons d u =>
      have hd : d = c := Option.some.inj hc
      subst hd
      refine ⟨Text.head_trim (s := d :: u ++ t) (by rw [h.trimmed]; rfl), ?_⟩
      rintro rfl
      exact h.no_comment rfl
  refine ⟨?_, ?_, ?_, ?_⟩
  · rw [List.mem_append, not_or]
    exact ⟨hequals.1, ht'.2.1⟩
  · rw [List.mem_append, not_or]
    exact ⟨hnewline.1, ht'.2.2.1⟩
  · have hstart : Text.trimStart (u ++ t') = u ++ t' :=
      Text.trimStart_eq_self (fun c hc => (hhead c hc).1)
    have hlast : (u ++ t').dropLast ++ [t'.getLast ht'.1.1] = u ++ t' := by
      have hne : u ++ t' ≠ [] := fun hnil => ht'.1.1 (List.append_eq_nil_iff.mp hnil).2
      rw [← List.getLast_append_of_ne_nil hne ht'.1.1]
      exact List.dropLast_append_getLast hne
    rw [trim, hstart, ← hlast, Text.trimEnd_eq_rdropWhile]
    apply List.rdropWhile_concat_neg
    rw [Bool.not_eq_true]
    exact ht'.1.2 _ (List.getLast_mem ht'.1.1)
  · intro hcomment
    exact (hhead '#' hcomment).2 rfl

theorem isSuffix_password : IsSuffix (str "_PASSWORD") :=
  ⟨Text.isWord_of_all (by decide) (by decide), by decide, by decide, by decide⟩

theorem isSuffix_saslPass : IsSuffix (str "_SASL_PASS") :=
  ⟨Text.isWord_of_all (by decide) (by decide), by decide, by decide, by decide⟩

section

variable {F : Type} (b : Builtins F)

theorem legible_pwKey_iff (id : Str) : Legible (pwKey b id) ↔ Legible (saslKey b id) :=
  ⟨legible_append isSuffix_saslPass, legible_append isSuffix_password⟩

/-- Keys with different suffixes of one length are different keys. -/
theorem append_ne {u v t t' : Str} (h : t.getLast? ≠ t'.getLast?) (ht : t ≠ []) (ht' : t' ≠ []) :
    u ++ t ≠ v ++ t' := by
  intro heq
  have hlast := congrArg List.getLast? heq
  rw [List.getLast?_append_of_ne_nil _ ht, List.getLast?_append_of_ne_nil _ ht'] at hlast
  exact h hlast

theorem pwKey_ne_saslKey (i j : Str) : pwKey b i ≠ saslKey b j :=
  append_ne (by decide) (by decide) (by decide)

theorem saslUserKey_ne_pwKey (i j : Str) : saslUserKey b i ≠ pwKey b j :=
  append_ne (by decide) (by decide) (by decide)

theorem saslUserKey_ne_saslKey (i j : Str) : saslUserKey b i ≠ saslKey b j :=
  append_ne (by decide) (by decide) (by decide)

end

/-! ### What an update does to each key -/

/-- An update, on the assignments of its key. -/
def CredUpdate.act : CredUpdate → List Assignment → List Assignment
  | .keep, as => as
  | .set v, as => assign (unquote v) as
  | .remove, as => as.filter (fun a => !a.bare)

/-- What the deleted lines leave of the assignments of a key. -/
def CredUpdate.thin : CredUpdate → List Assignment → List Assignment
  | .remove, as => as.filter (fun a => !a.bare)
  | _, as => as

theorem assignments_write {key : Str} (h : Legible key) {upd : CredUpdate}
    (hwrite : upd.Writable key) (file : EnvFile) (k : Str) :
    assignments (upd.write key file).lines k =
      if key = k then upd.act (assignments file.lines k) else assignments file.lines k := by
  cases upd with
  | keep => exact (ite_self _).symm
  | set v => exact assignments_setEnvValue h hwrite.2 file k
  | remove =>
    exact (assignments_removeEnvValue file key k).trans (assignments_filter h file.lines k)

theorem filter_not_drops (upd : CredUpdate) (key : Str) (h : upd ≠ .remove) (ls : List Str) :
    ls.filter (fun line => !upd.drops key line) = ls := by
  rw [List.filter_eq_self]
  intro line _
  cases upd with
  | keep => rfl
  | set v => rfl
  | remove => exact absurd rfl h

theorem assignments_not_drops {key : Str} (h : Legible key) (upd : CredUpdate) (ls : List Str)
    (k : Str) : assignments (ls.filter (fun line => !upd.drops key line)) k =
      if key = k then upd.thin (assignments ls k) else assignments ls k := by
  cases upd with
  | keep =>
    rw [filter_not_drops .keep key (by simp)]
    exact (ite_self _).symm
  | set v =>
    rw [filter_not_drops (.set v) key (by simp)]
    exact (ite_self _).symm
  | remove => exact assignments_filter h ls k

/-- The last assignment after an update of a legible key. -/
theorem valueAfter_self {key : Str} {upd : CredUpdate} {ls : List Str} {as : List Assignment}
    (has : assignments ls key = upd.thin as) :
    (upd.act as).getLast?.map Assignment.value = valueAfter ls key key upd := by
  cases upd with
  | keep =>
    show _ = valueIn ls key
    rw [valueIn, has]
    rfl
  | remove =>
    show _ = valueIn ls key
    rw [valueIn, has]
    rfl
  | set v =>
    rw [valueAfter, if_pos rfl, has]
    exact getLast?_assign (unquote v) as

theorem valueAfter_of_ne {key k : Str} (upd : CredUpdate) (ls : List Str) (h : k ≠ key) :
    valueAfter ls key k upd = valueIn ls k := by
  cases upd with
  | keep => rfl
  | remove => rfl
  | set v => exact if_neg h

/-- An update that sets nothing, read off line by line. -/
theorem filterMap_write {α : Type} {f : Str → Option α} (htrim : ∀ l, f (trim l) = f l)
    (hblank : f [] = none) {upd : CredUpdate} (hset : ∀ v, upd ≠ .set v) (file : EnvFile)
    (key : Str) : (upd.write key file).lines.filterMap f =
      (file.lines.filter (fun line => !upd.drops key line)).filterMap f := by
  cases upd with
  | keep =>
    rw [filter_not_drops .keep key (by simp)]
    rfl
  | set v => exact absurd rfl (hset v)
  | remove => exact filterMap_removeEnvValue htrim hblank file key

section

variable {F : Type} (b : Builtins F)

theorem remaining_eq (file : EnvFile) (id : Str) (password saslPass : CredUpdate) :
    remaining b file id password saslPass =
      (file.lines.filter (fun line => !password.drops (pwKey b id) line)).filter
        (fun line => !saslPass.drops (saslKey b id) line) := by
  rw [remaining, List.filter_filter]
  congr 1
  funext line
  rw [Bool.not_or, Bool.and_comm]

/-- The `.env` file after both credentials were updated. -/
def written (file : EnvFile) (id : Str) (password saslPass : CredUpdate) : EnvFile :=
  saslPass.write (saslKey b id) (password.write (pwKey b id) file)

theorem valueIn_written_legible {id : Str} (h : Legible (pwKey b id))
    {password saslPass : CredUpdate} (hpw : password.Writable (pwKey b id))
    (hsasl : saslPass.Writable (saslKey b id))
    (file : EnvFile) (k : Str) :
    (k ≠ saslKey b id → valueIn (written b file id password saslPass).lines k =
      valueAfter (remaining b file id password saslPass) (pwKey b id) k password) ∧
    (k ≠ pwKey b id → valueIn (written b file id password saslPass).lines k =
      valueAfter (remaining b file id password saslPass) (saslKey b id) k saslPass) := by
  have hs := (legible_pwKey_iff b id).mp h
  have hwritten : assignments (written b file id password saslPass).lines k =
      if saslKey b id = k then saslPass.act (assignments (password.write (pwKey b id) file).lines k)
      else assignments (password.write (pwKey b id) file).lines k := assignments_write hs hsasl _ k
  have hfirst := assignments_write h hpw file k
  have hremaining := assignments_not_drops hs saslPass
    (file.lines.filter (fun line => !password.drops (pwKey b id) line)) k
  have hdrops := assignments_not_drops h password file.lines k
  rw [← remaining_eq b file id password saslPass] at hremaining
  constructor
  · intro hk
    rw [if_neg (Ne.symm hk)] at hwritten hremaining
    rw [valueIn, hwritten, hfirst]
    by_cases hkey : k = pwKey b id
    · subst hkey
      rw [if_pos rfl] at hdrops ⊢
      exact valueAfter_self (hremaining.trans hdrops)
    · rw [if_neg (Ne.symm hkey)] at hdrops ⊢
      rw [valueAfter_of_ne password _ hkey, valueIn, hremaining, hdrops]
  · intro hk
    rw [if_neg (Ne.symm hk)] at hfirst hdrops
    rw [valueIn, hwritten, hfirst]
    by_cases hkey : k = saslKey b id
    · subst hkey
      rw [if_pos rfl] at hremaining ⊢
      exact valueAfter_self (hremaining.trans (congrArg saslPass.thin hdrops))
    · rw [if_neg (Ne.symm hkey)] at hremaining ⊢
      rw [valueAfter_of_ne saslPass _ hkey, valueIn, hremaining, hdrops]

/-- What is read for each key after both credentials were updated. -/
theorem valueIn_written {id : Str} {password saslPass : CredUpdate}
    (hpw : password.Writable (pwKey b id)) (hsasl : saslPass.Writable (saslKey b id))
    (file : EnvFile) (k : Str) :
    (k ≠ saslKey b id → valueIn (written b file id password saslPass).lines k =
      valueAfter (remaining b file id password saslPass) (pwKey b id) k password) ∧
    (k ≠ pwKey b id → valueIn (written b file id password saslPass).lines k =
      valueAfter (remaining b file id password saslPass) (saslKey b id) k saslPass) := by
  by_cases h : Legible (pwKey b id)
  · exact valueIn_written_legible b h hpw hsasl file k
  · -- nothing is set, so lines are only deleted
    have hpwset : ∀ v, password ≠ .set v := by
      rintro v rfl
      exact h hpw.1
    have hsaslset : ∀ v, saslPass ≠ .set v := by
      rintro v rfl
      exact h ((legible_pwKey_iff b id).mpr hsasl.1)
    have hvalue : valueIn (written b file id password saslPass).lines k =
        valueIn (remaining b file id password saslPass) k := by
      let f : Str → Option Assignment := fun line =>
        if saslPass.drops (saslKey b id) line then none else assignmentOf k line
      have hdrops : ∀ l, saslPass.drops (saslKey b id) (trim l) =
          saslPass.drops (saslKey b id) l := by
        intro l
        cases saslPass with
        | remove => exact isFor_trim _ l
        | keep => rfl
        | set v => rfl
      have htrim : ∀ l, f (trim l) = f l := by
        intro l
        show (if _ then _ else _) = (if _ then _ else _)
        rw [hdrops, assignmentOf_trim]
      have hblank : f [] = none := by
        show (if _ then _ else _) = _
        rw [assignmentOf_nil, ite_self]
      have hfilter : ∀ ls : List Str,
          (ls.filter (fun line => !saslPass.drops (saslKey b id) line)).filterMap
            (assignmentOf k) = ls.filterMap f := by
        intro ls
        rw [List.filterMap_filter]
        congr 1
        funext line
        show _ = (if _ then _ else _)
        cases saslPass.drops (saslKey b id) line <;> rfl
      rw [valueIn, valueIn, assignments, assignments, written,
        filterMap_write (assignmentOf_trim k) (assignmentOf_nil k) hsaslset, hfilter,
        filterMap_write htrim hblank hpwset, remaining_eq, hfilter]
    constructor
    · intro _
      rw [hvalue]
      cases password with
      | set v => exact absurd rfl (hpwset v)
      | keep => rfl
      | remove => rfl
    · intro _
      rw [hvalue]
      cases saslPass with
      | set v => exact absurd rfl (hsaslset v)
      | keep => rfl
      | remove => rfl

/-! ### Servers after a restart -/

/-- The server that a restart gives back. -/
theorem withCredentials_stored_eq_iff (env : Dict Str Str) (id : Str) (s : ServerConfig) :
    withCredentials b env id s.stored = s ↔
      s.autoReconnect ≠ none ∧
      (∀ v, env.lookup (saslUserKey b id) = some v → s.saslUser = some v) ∧
      s.password = env.lookup (pwKey b id) ∧ s.saslPass = env.lookup (saslKey b id) := by
  have hfields : withCredentials b env id s.stored = s ↔
      s.autoReconnect.or (some true) = s.autoReconnect ∧
      (env.lookup (saslUserKey b id)).or s.saslUser = s.saslUser ∧
      (env.lookup (pwKey b id)).or none = s.password ∧
      (env.lookup (saslKey b id)).or none = s.saslPass := by
    constructor
    · intro h
      exact ⟨congrArg ServerConfig.autoReconnect h, congrArg ServerConfig.saslUser h,
        congrArg ServerConfig.password h, congrArg ServerConfig.saslPass h⟩
    · rintro ⟨hreconnect, huser, hpassword, hpass⟩
      cases s
      simp only [withCredentials, ServerConfig.stored, ServerConfig.mk.injEq, true_and, and_true]
      exact ⟨hpassword, huser, hpass, hreconnect⟩
  rw [hfields, Option.or_none, Option.or_none]
  refine and_congr ?_ (and_congr ?_ (and_congr eq_comm eq_comm))
  · cases s.autoReconnect with
    | none => simp
    | some v => simp
  · cases env.lookup (saslUserKey b id) with
    | none => simp
    | some v => simp [eq_comm]

theorem servers_restart (config : AppConfig F) (env : EnvFile) :
    (restart b ⟨config.stored, env⟩).servers =
      config.servers.mapWithKey (fun id s => withCredentials b (loadEnv env) id s.stored) :=
  Dict.mapWithKey_mapValues _ _ _

/-- The servers in memory are given back if and only if each of them is. -/
theorem servers_restart_eq_iff (config : AppConfig F) (env : EnvFile) :
    (restart b ⟨config.stored, env⟩).servers = config.servers ↔
      ∀ id s, config.servers.lookup id = some s →
        withCredentials b (loadEnv env) id s.stored = s := by
  rw [servers_restart]
  exact Dict.mapWithKey_eq_self_iff _ _

/-- A server comes back from the written files if and only if it is kept. -/
theorem withCredentials_written_iff {file : EnvFile} {id : Str} {password saslPass : CredUpdate}
    (hpw : password.Writable (pwKey b id)) (hsasl : saslPass.Writable (saslKey b id)) (i : Str)
    (s : ServerConfig) :
    withCredentials b (loadEnv (written b file id password saslPass)) i s.stored = s ↔
      Kept b file id password saslPass i s := by
  have huser := (valueIn_written b hpw hsasl file (saslUserKey b i)).1
    (saslUserKey_ne_saslKey b i id)
  have hpassword := (valueIn_written b hpw hsasl file (pwKey b i)).1 (pwKey_ne_saslKey b i id)
  have hpass := (valueIn_written b hpw hsasl file (saslKey b i)).2
    (Ne.symm (pwKey_ne_saslKey b id i))
  rw [valueAfter_of_ne password _ (saslUserKey_ne_pwKey b i id)] at huser
  rw [withCredentials_stored_eq_iff, lookup_loadEnv, lookup_loadEnv, lookup_loadEnv, huser,
    hpassword, hpass]
  exact ⟨fun h => ⟨h.1, h.2.1, h.2.2.1, h.2.2.2⟩,
    fun h => ⟨h.reconnects, h.sasl_user, h.same_password, h.same_sasl_pass⟩⟩

/-- What comes back for the server itself could be written. -/
theorem writable_of_survives {file : EnvFile} {id : Str} {server : ServerConfig}
    {password saslPass : CredUpdate} {servers : Dict Str ServerConfig}
    (h : withCredentials b (loadEnv (written b file id password saslPass)) id
      (resolved servers id server password saslPass).stored =
        resolved servers id server password saslPass) :
    password.Writable (pwKey b id) ∧ saslPass.Writable (saslKey b id) := by
  obtain ⟨-, -, hpassword, hpass⟩ := (withCredentials_stored_eq_iff b _ id _).mp h
  rw [lookup_loadEnv] at hpassword hpass
  constructor
  · cases password with
    | keep => exact True.intro
    | remove => exact True.intro
    | set v => exact legible_of_valueIn (newline_not_mem_lines _) hpassword.symm
  · cases saslPass with
    | keep => exact True.intro
    | remove => exact True.intro
    | set v => exact legible_of_valueIn (newline_not_mem_lines _) hpass.symm

/-- If the servers come back, the other credentials are the ones from before. -/
theorem credentials_of_servers_eq {config : AppConfig F} {disk : Disk F} {id : Str}
    {server : ServerConfig} {password saslPass : CredUpdate}
    (h : (restart b (applyServerConfig b config disk id server password saslPass).2).servers =
      (applyServerConfig b config disk id server password saslPass).1.servers) (other : Str)
    (hother : other ≠ id) :
    ((restart b (applyServerConfig b config disk id server password saslPass).2).servers.lookup
        other).map ServerConfig.credentials =
      (config.servers.lookup other).map ServerConfig.credentials := by
  rw [h]
  show ((config.servers.insert id _).lookup other).map _ = _
  rw [Dict.lookup_insert, if_neg (Ne.symm hother)]

theorem survives_applyServerConfig_iff (config : AppConfig F) (disk : Disk F) (id : Str)
    (server : ServerConfig) (password saslPass : CredUpdate) :
    Survives b config disk id server password saslPass ↔
      AllKept b config disk.env id server password saslPass := by
  let config' := (applyServerConfig b config disk id server password saslPass).1
  have hlookup : ∀ i, config'.servers.lookup i =
      if id = i then some (resolved config.servers id server password saslPass)
      else config.servers.lookup i := fun i => Dict.lookup_insert _ _ _ _
  have hservers := servers_restart_eq_iff b config'
    (written b disk.env id password saslPass)
  constructor
  · rintro ⟨hsame, -⟩
    have hall := hservers.mp hsame
    have hself := hall id _ ((hlookup id).trans (if_pos rfl))
    obtain ⟨hpw, hsasl⟩ := writable_of_survives b hself
    refine ⟨hpw, hsasl, (withCredentials_written_iff b hpw hsasl id _).mp hself, ?_⟩
    intro i s hi hs
    exact (withCredentials_written_iff b hpw hsasl i s).mp
      (hall i s ((hlookup i).trans ((if_neg (Ne.symm hi)).trans hs)))
  · rintro ⟨hpw, hsasl, hself, hothers⟩
    have hsame : (restart b ⟨config'.stored, written b disk.env id password saslPass⟩).servers =
        config'.servers := by
      rw [hservers]
      intro i s hs
      rw [withCredentials_written_iff b hpw hsasl]
      rw [hlookup] at hs
      by_cases hi : id = i
      · subst hi
        rw [if_pos rfl] at hs
        exact Option.some.inj hs ▸ hself
      · rw [if_neg hi] at hs
        exact hothers i s (Ne.symm hi) hs
    exact ⟨hsame, credentials_of_servers_eq b hsame⟩

end

/-! ### Paths after a restart -/

/-- The settings of a server that `config.toml` need not give back as they are. -/
def isVolatile (name : Str) : Bool := isServerCredential name || name = str "auto_reconnect"

theorem get_server_congr {s : Setting ServerConfig} (hs : s ∈ serverSettings)
    (h : isVolatile s.name = false) (c : ServerConfig) (p q r : Option Str) (a : Option Bool) :
    s.get { c with password := p, saslPass := q, saslUser := r, autoReconnect := a } =
      s.get c := by
  revert s
  rw [serverSettings]
  simp only [List.forall_mem_cons]
  refine ⟨?_, ?_, ?_, ?_, ?_, ?_, ?_, ?_, ?_, ?_, ?_, ?_, ?_, ?_, ?_, ?_, ?_, ?_, ?_, ?_, ?_, ?_⟩
  all_goals first
    | exact fun _ => rfl
    | exact fun h => absurd h (by decide)
    | exact fun s hs => absurd hs List.not_mem_nil

theorem get_shrink_congr {s : Setting ShrinkConfig} (hs : s ∈ shrinkSettings) (c : ShrinkConfig)
    (k : Str) : s.get { c with apiKey := k } = s.get c := by
  revert s
  rw [shrinkSettings]
  simp only [List.forall_mem_cons]
  exact ⟨rfl, rfl, rfl, rfl, rfl, rfl, rfl, rfl, fun s hs => absurd hs List.not_mem_nil⟩

theorem find_some {σ : Type} {settings : List (Setting σ)} {name : Str} {s : Setting σ}
    (h : find settings name = some s) : s ∈ settings ∧ s.name = name :=
  ⟨List.mem_of_find?_eq_some h, by simpa using List.find?_some h⟩

section

variable {F : Type} (b : Builtins F)

theorem get_web_congr {s : Setting (WebConfig F)} (hs : s ∈ webSettings b)
    (h : s.name ≠ str "password") (c : WebConfig F) (p : Str) (k : List UInt8) :
    s.get { c with password := p, sessionSecret := k } = s.get c := by
  revert s
  rw [webSettings]
  simp only [List.forall_mem_cons]
  refine ⟨?_, ?_, ?_, ?_, ?_, ?_, ?_, ?_, ?_, ?_, ?_, ?_, ?_, ?_, ?_, ?_, ?_, ?_⟩
  all_goals first
    | exact fun _ => rfl
    | exact fun _ => True.intro
    | exact fun h => absurd rfl h
    | exact fun s hs => absurd hs List.not_mem_nil

/-- The sections besides the web's come back as they were. -/
theorem get_section_restart (config : AppConfig F) (env : EnvFile) :
    ∀ t ∈ sections b, t.1 ≠ str "web" → ∀ s ∈ t.2,
      s.get (restart b ⟨config.stored, env⟩) = s.get config := by
  have hmap : ∀ {σ : Type} {settings : List (Setting σ)} {get : AppConfig F → σ}
      {put : AppConfig F → σ → AppConfig F},
      (∀ s ∈ settings, s.get (get (restart b ⟨config.stored, env⟩)) = s.get (get config)) →
      ∀ s ∈ settings.map (Setting.within get put),
        s.get (restart b ⟨config.stored, env⟩) = s.get config := by
    intro σ settings get put h s hs
    obtain ⟨s', hs', rfl⟩ := List.mem_map.mp hs
    exact h s' hs'
  rw [sections]
  simp only [List.forall_mem_cons]
  refine ⟨?_, ?_, ?_, ?_, ?_, ?_, ?_, ?_, ?_, ?_, fun t ht => absurd ht List.not_mem_nil⟩
  all_goals intro hname
  all_goals first
    | exact hmap (fun _ _ => rfl)
    | exact hmap (fun _ hs => get_shrink_congr hs config.shrink _)
    | exact absurd rfl hname

/-- A setting of a server, shown before and after a restart. -/
theorem get_withCredentials_iff {field raw : Str} {setting : Setting ServerConfig}
    (hfind : find serverSettings field = some setting) {server s : ServerConfig}
    (hset : setting.set server raw = .ok s) (env : Dict Str Str) (name : Str) :
    setting.get (withCredentials b env name s.stored) = setting.get s ↔
      (field = str "password" → (env.lookup (pwKey b name)).getD [] = raw) ∧
      (field = str "sasl_pass" → (env.lookup (saslKey b name)).getD [] = raw) ∧
      (field = str "sasl_user" → ∀ v, env.lookup (saslUserKey b name) = some v → v = raw) := by
  by_cases hpassword : field = str "password"
  · subst hpassword
    cases hfind
    cases hset
    show ((env.lookup (pwKey b name)).or none).getD [] = raw ↔ _
    rw [Option.or_none]
    exact ⟨fun h => ⟨fun _ => h, fun h' => absurd h' (by decide), fun h' => absurd h' (by decide)⟩,
      fun h => h.1 rfl⟩
  by_cases hpass : field = str "sasl_pass"
  · subst hpass
    cases hfind
    cases hset
    show ((env.lookup (saslKey b name)).or none).getD [] = raw ↔ _
    rw [Option.or_none]
    exact ⟨fun h => ⟨fun h' => absurd h' (by decide), fun _ => h, fun h' => absurd h' (by decide)⟩,
      fun h => h.2.1 rfl⟩
  by_cases huser : field = str "sasl_user"
  · subst huser
    cases hfind
    cases hset
    show ((env.lookup (saslUserKey b name)).or (some raw)).getD [] = raw ↔ _
    constructor
    · intro h
      refine ⟨fun h' => absurd h' (by decide), fun h' => absurd h' (by decide), fun _ v hv => ?_⟩
      rw [hv] at h
      exact h
    · rintro ⟨-, -, h⟩
      cases hv : env.lookup (saslUserKey b name) with
      | none => rfl
      | some v => exact h rfl v hv
  refine iff_of_true ?_ ⟨fun h => absurd h hpassword, fun h => absurd h hpass,
    fun h => absurd h huser⟩
  obtain ⟨hmem, hname⟩ := find_some hfind
  by_cases hreconnect : field = str "auto_reconnect"
  · -- what is set is never absent, so its default is not used
    subst hreconnect
    cases hfind
    obtain ⟨v, -, rfl⟩ := Lens.map_eq_ok hset
    rfl
  · have hstable : isVolatile setting.name = false := by
      rw [hname, isVolatile, isServerCredential]
      simp [hpassword, hpass, huser, hreconnect]
    exact get_server_congr hmem hstable s _ _ _ _

theorem setIn_ok {σ : Type} {settings : List (Setting σ)} {field path raw : Str} {s s' : σ}
    (h : setIn settings field path raw s = .ok s') :
    ∃ setting, find settings field = some setting ∧ setting.set s raw = .ok s' := by
  rw [setIn] at h
  cases hfind : find settings field with
  | none =>
    rw [hfind] at h
    cases h
  | some setting =>
    rw [hfind] at h
    exact ⟨setting, rfl, h⟩

theorem section_ok {config c : AppConfig F} {sec name path raw : Str}
    (hset : (match tableOf (sections b) sec with
      | some settings => setIn settings name path raw config
      | none => .error (str "Unknown section: " ++ sec)) = Except.ok c) :
    ∃ settings setting, sec ≠ str "sidepanel" ∧ sec ≠ str "servers" ∧
      tableOf (sections b) sec = some settings ∧ find settings name = some setting ∧
      setting.set config raw = .ok c := by
  cases htable : tableOf (sections b) sec with
  | none =>
    rw [htable] at hset
    cases hset
  | some settings =>
    rw [htable] at hset
    obtain ⟨setting, hfind, hset⟩ := setIn_ok hset
    refine ⟨settings, setting, ?_, ?_, rfl, hfind, hset⟩
    · rintro rfl
      cases htable
    · rintro rfl
      cases htable

/-- The three kinds of path under which a value is set. -/
theorem setParts_cases {config c : AppConfig F} {path raw : Str} {parts : List Str}
    (h : setParts b config path raw parts = .ok c) :
    (∃ name field rest settings setting, parts = str "sidepanel" :: name :: field :: rest ∧
      tableOf panels name = some settings ∧ find settings field = some setting ∧
      setting.set config raw = .ok c) ∨
    (∃ name field rest server setting s, parts = str "servers" :: name :: field :: rest ∧
      config.servers.lookup name = some server ∧ find serverSettings field = some setting ∧
      setting.set server raw = .ok s ∧
      c = { config with servers := config.servers.modify name (fun _ => s) }) ∨
    ∃ sec name rest settings setting, parts = sec :: name :: rest ∧ sec ≠ str "sidepanel" ∧
      sec ≠ str "servers" ∧ tableOf (sections b) sec = some settings ∧
      find settings name = some setting ∧ setting.set config raw = .ok c := by
  rw [setParts.eq_def] at h
  split at h
  · rename_i sec name rest
    split at h
    · rename_i field rest hsec
      have hsec := of_decide_eq_true hsec
      subst hsec
      cases htable : tableOf panels name with
      | none =>
        rw [htable] at h
        cases h
      | some settings =>
        rw [htable] at h
        obtain ⟨setting, hfind, hset⟩ := setIn_ok h
        exact Or.inl ⟨name, field, rest, settings, setting, rfl, htable, hfind, hset⟩
    · rename_i field rest hsec _
      have hsec := of_decide_eq_true hsec
      subst hsec
      cases hlookup : config.servers.lookup name with
      | none =>
        rw [hlookup] at h
        cases h
      | some server =>
        rw [hlookup] at h
        obtain ⟨s, hset, rfl⟩ := Lens.map_eq_ok h
        obtain ⟨setting, hfind, hset⟩ := setIn_ok hset
        exact Or.inr (Or.inl ⟨name, field, rest, server, setting, s, rfl, hlookup, hfind, hset,
          rfl⟩)
    · obtain ⟨settings, setting, h⟩ := section_ok b h
      exact Or.inr (Or.inr ⟨_, _, _, settings, setting, rfl, h⟩)
  · cases h

/-- What the files have to say for a value that was set to come back. -/
def PathRead (file : EnvFile) (raw : Str) : List Str → Prop
  | sec :: name :: rest =>
    (sec = str "servers" →
      (rest.head? = some (str "password") → (valueIn file.lines (pwKey b name)).getD [] = raw) ∧
      (rest.head? = some (str "sasl_pass") → (valueIn file.lines (saslKey b name)).getD [] = raw) ∧
      (rest.head? = some (str "sasl_user") →
        ∀ v, valueIn file.lines (saslUserKey b name) = some v → v = raw)) ∧
    (sec = str "web" → name = str "password" →
      (valueIn file.lines (str "WEB_PASSWORD")).getD [] = raw)
  | _ => True

theorem getParts_section (config : AppConfig F) {sec name : Str} {rest : List Str}
    {settings : List (Setting (AppConfig F))} {setting : Setting (AppConfig F)}
    (hpanel : sec ≠ str "sidepanel") (hservers : sec ≠ str "servers")
    (htable : tableOf (sections b) sec = some settings)
    (hfind : find settings name = some setting) :
    getParts b config (sec :: name :: rest) =
      some ⟨setting.get config, sec = str "web" && name = str "password"⟩ := by
  rw [getParts.eq_def]
  dsimp only
  rw [if_neg hpanel, if_neg hservers, htable]
  dsimp only
  rw [hfind]
  rfl

theorem getParts_panel (config : AppConfig F) {name field : Str} {rest : List Str}
    {settings : List (Setting (AppConfig F))} {setting : Setting (AppConfig F)}
    (htable : tableOf panels name = some settings) (hfind : find settings field = some setting) :
    getParts b config (str "sidepanel" :: name :: field :: rest) =
      some ⟨setting.get config, false⟩ := by
  rw [getParts.eq_def]
  dsimp only
  rw [if_pos rfl, htable]
  dsimp only
  rw [hfind]
  rfl

theorem getParts_server {config : AppConfig F} {name field : Str} {rest : List Str}
    {server : ServerConfig} {setting : Setting ServerConfig}
    (hlookup : config.servers.lookup name = some server)
    (hfind : find serverSettings field = some setting) :
    getParts b config (str "servers" :: name :: field :: rest) =
      some ⟨setting.get server, isServerCredential field⟩ := by
  rw [getParts.eq_def]
  dsimp only
  rw [if_neg (by decide), if_pos rfl, hlookup]
  dsimp only
  rw [hfind]
  rfl

theorem resolved_eq_iff {x y : Str} {cred : Bool} :
    some (Resolved.mk x cred) = some ⟨y, cred⟩ ↔ x = y := by simp

/-- The settings of the side panels come back as they were. -/
theorem get_panel_restart (config : AppConfig F) (env : EnvFile) :
    ∀ t ∈ panels (F := F), ∀ s ∈ t.2, s.get (restart b ⟨config.stored, env⟩) = s.get config := by
  rw [panels]
  simp only [List.forall_mem_cons]
  refine ⟨?_, ?_, fun t ht => absurd ht List.not_mem_nil⟩
  all_goals
    intro s hs
    obtain ⟨s', -, rfl⟩ := List.mem_map.mp hs
    rfl

theorem tableOf_some {σ : Type} {tables : List (Str × List (Setting σ))} {name : Str}
    {settings : List (Setting σ)} (h : tableOf tables name = some settings) :
    (name, settings) ∈ tables := by
  obtain ⟨⟨n, l⟩, hfind, rfl⟩ := Option.map_eq_some_iff.mp h
  have hname : n = name := by simpa using List.find?_some hfind
  subst hname
  exact List.mem_of_find?_eq_some hfind

/-- A value that was set comes back if and only if the files say it. -/
theorem getParts_restart_iff {config c : AppConfig F} {path raw : Str} {parts : List Str}
    (h : setParts b config path raw parts = .ok c) (env : EnvFile) :
    getParts b (restart b ⟨c.stored, env⟩) parts = getParts b c parts ↔
      PathRead b env raw parts := by
  rcases setParts_cases b h with ⟨name, field, rest, settings, setting, rfl, htable, hfind, -⟩ |
    ⟨name, field, rest, server, setting, s, rfl, hlookup, hfind, hset, rfl⟩ |
    ⟨sec, name, rest, settings, setting, rfl, hpanel, hservers, htable, hfind, hset⟩
  · rw [getParts_panel b _ htable hfind, getParts_panel b _ htable hfind, resolved_eq_iff]
    refine iff_of_true ?_ ⟨fun h => absurd h (by decide), fun h => absurd h (by decide)⟩
    exact get_panel_restart b c env _ (tableOf_some htable) setting (find_some hfind).1
  · have hafter : (config.servers.modify name (fun _ => s)).lookup name = some s := by
      rw [Dict.lookup_modify, if_pos rfl, hlookup]
      rfl
    let c : AppConfig F := { config with servers := config.servers.modify name (fun _ => s) }
    have hrestart : (restart b ⟨c.stored, env⟩).servers.lookup name =
        some (withCredentials b (loadEnv env) name s.stored) := by
      rw [servers_restart, Dict.lookup_mapWithKey, hafter]
      rfl
    rw [getParts_server b hrestart hfind, getParts_server b hafter hfind, resolved_eq_iff,
      get_withCredentials_iff b hfind hset, lookup_loadEnv, lookup_loadEnv, lookup_loadEnv]
    constructor
    · rintro ⟨hpassword, hpass, huser⟩
      exact ⟨fun _ => ⟨fun hf => hpassword (Option.some.inj hf),
        fun hf => hpass (Option.some.inj hf), fun hf => huser (Option.some.inj hf)⟩,
        fun hweb => absurd hweb (by decide)⟩
    · rintro ⟨hread, -⟩
      obtain ⟨hpassword, hpass, huser⟩ := hread rfl
      exact ⟨fun hf => hpassword (congrArg some hf), fun hf => hpass (congrArg some hf),
        fun hf => huser (congrArg some hf)⟩
  · rw [getParts_section b _ hpanel hservers htable hfind,
      getParts_section b _ hpanel hservers htable hfind, resolved_eq_iff]
    by_cases hweb : sec = str "web"
    · subst hweb
      cases htable
      by_cases hname : name = str "password"
      · subst hname
        cases hfind
        cases hset
        show ((loadEnv env).lookup (str "WEB_PASSWORD")).getD [] = raw ↔ _
        rw [lookup_loadEnv]
        exact ⟨fun hread => ⟨fun h => absurd h (by decide), fun _ _ => hread⟩,
          fun hread => hread.2 rfl rfl⟩
      · refine iff_of_true ?_ ⟨fun h => absurd h (by decide), fun _ h => absurd h hname⟩
        obtain ⟨hmem, hsetting⟩ := find_some hfind
        obtain ⟨s, hs, rfl⟩ := List.mem_map.mp hmem
        exact get_web_congr b hs (fun h => hname (hsetting.symm.trans h)) c.web _ _
    · refine iff_of_true ?_ ⟨fun h => absurd h hservers, fun h => absurd h hweb⟩
      exact get_section_restart b c env _ (tableOf_some htable) hweb setting (find_some hfind).1

/-- A value that was set in `.env` and is read back. -/
theorem getD_valueIn_setEnvValue_iff {key : Str} (h : Legible key) (file : EnvFile) (raw : Str) :
    (valueIn (setEnvValue file key raw).lines key).getD [] = raw ↔
      '\n' ∉ raw ∧ (later (assignments file.lines key)).getD (unquote raw) = raw := by
  by_cases hnewline : '\n' ∈ raw
  · refine iff_of_false ?_ (fun h => h.1 hnewline)
    cases hvalue : valueIn (setEnvValue file key raw).lines key with
    | none =>
      rintro rfl
      exact List.not_mem_nil hnewline
    | some v =>
      rintro rfl
      exact (legible_of_valueIn (newline_not_mem_lines _) hvalue).2 hnewline
  · rw [valueIn, assignments_setEnvValue h hnewline, if_pos rfl, getLast?_assign]
    exact ⟨fun hread => ⟨hnewline, hread⟩, fun hread => hread.2⟩

/-- The file in which `/set` keeps the web password. -/
def setEnv (file : EnvFile) (path raw : Str) : EnvFile :=
  if path = str "web.password" then setEnvValue file (str "WEB_PASSWORD") raw else file

theorem pathRead_iff_pathKept (file : EnvFile) (path raw : Str) :
    PathRead b (setEnv file path raw) raw (path.splitOn '.') ↔
      PathKept b file path raw (path.splitOn '.') := by
  rw [setEnv]
  by_cases hpath : path = str "web.password"
  · subst hpath
    have hparts : (str "web.password").splitOn '.' = [str "web", str "password"] := by decide
    rw [hparts, if_pos rfl]
    have hlegible : Legible (str "WEB_PASSWORD") := by decide
    have hweb := getD_valueIn_setEnvValue_iff hlegible file raw
    constructor
    · rintro ⟨-, hread⟩
      exact ⟨fun h => absurd h (by decide), fun _ _ => hweb.mp (hread rfl rfl)⟩
    · rintro ⟨-, hkept⟩
      exact ⟨fun h => absurd h (by decide), fun _ _ => hweb.mpr (hkept rfl rfl)⟩
  · rw [if_neg hpath]
    cases path.splitOn '.' with
    | nil => exact Iff.rfl
    | cons sec rest =>
      cases rest with
      | nil => exact Iff.rfl
      | cons name rest => simp only [PathRead, PathKept, if_neg hpath]

theorem setSurvives_iff (config : AppConfig F) (disk : Disk F) (path raw : Str) :
    SetSurvives b config disk path raw ↔
      ((cmdSet b config disk path raw).isSome = true →
        PathKept b disk.env path raw (path.splitOn '.')) := by
  have hafter : ∀ after, cmdSet b config disk path raw = some after →
      (getConfigValue b (restart b after.2) path = getConfigValue b after.1 path ↔
        PathKept b disk.env path raw (path.splitOn '.')) := by
    intro after hset
    rw [cmdSet] at hset
    split at hset
    · cases hset
    · split at hset
      · cases hset
      · rename_i config' hconfig
        cases hset
        rw [← pathRead_iff_pathKept]
        exact getParts_restart_iff b hconfig _
  constructor
  · intro h hsome
    obtain ⟨after, hset⟩ := Option.isSome_iff_exists.mp hsome
    exact (hafter after hset).mp (h after hset)
  · intro h after hset
    exact (hafter after hset).mpr (h (hset ▸ rfl))

/-- The settings survive a restart: a saved server exactly if its credentials can be written and
each server in memory is what the files will say, a value of `/set` exactly if it is. -/
theorem survives_iff :
    (∀ (config : AppConfig F) (disk : Disk F) (id : Str) (server : ServerConfig)
      (password saslPass : CredUpdate),
      Survives b config disk id server password saslPass ↔
        AllKept b config disk.env id server password saslPass) ∧
    ∀ (config : AppConfig F) (disk : Disk F) (path raw : Str),
      SetSurvives b config disk path raw ↔
        ((cmdSet b config disk path raw).isSome = true →
          PathKept b disk.env path raw (path.splitOn '.')) :=
  ⟨survives_applyServerConfig_iff b, setSurvives_iff b⟩

end

/-! ### A password in quotes -/

/-- Built-ins for ASCII texts, without floating-point numbers. -/
def asciiBuiltins : Builtins Unit where
  toUppercase := fun s => s.map Char.toUpper
  toLowercase := fun s => s.map Char.toLower
  parseF32 := fun _ => none
  showF32 := fun _ => []
  inUnit := fun _ => true
  hexDecode := fun _ => none

def liberaServer : ServerConfig :=
  ⟨str "Libera", str "irc.libera.chat", 6697, true, true, false, [], none, none, none, none, none,
    none, none, none, some true, none, none, none, none, none⟩

def liberaConfig : AppConfig Unit where
  general := ⟨str "me", str "me", str "me", str "default", str "%H:%M:%S", true, [],
    str "repartee", none⟩
  display := ⟨8, 8, .right, true, true, 2000, 20, true, true, (), (), true⟩
  sidepanel := ⟨⟨20, true⟩, ⟨18, true⟩⟩
  statusbar := ⟨true, str " | ", str "[$server❱ ", [], [], [], [], [], [], [], []⟩
  imagePreview := ⟨true, 0, 0, 100, 7, 30, 10485760, str "auto", str "rgba"⟩
  servers := Dict.insert Table.empty (str "libera") liberaServer
  logging := ⟨0, 72⟩
  dcc := ⟨300, [], str "0", false, [], 10⟩
  spellcheck := ⟨false, true, str "replace", [str "en_US"], []⟩
  web := ⟨false, str "127.0.0.1", 8443, [], [], str "%H:%M", (), 12, 9, str "nightfall", 90,
    str "repartee", false, 4, 200, [], [], []⟩
  shrink := ⟨false, str "https://shr.al", [], true, true, 50, 2000, 2000, 500⟩
  emotes := ⟨true, .graphical, .en⟩

/-- A session that was just started, without a `.env`. -/
def liberaDisk : Disk Unit := ⟨liberaConfig.stored, none⟩

/-- A password in quotes is read back without them, and a password of `/set` not at all. -/
theorem quoted_password_is_lost :
    (¬ ∀ (config : AppConfig Unit) (disk : Disk Unit) (id : Str) (server : ServerConfig)
      (password saslPass : CredUpdate),
      Survives asciiBuiltins config disk id server password saslPass) ∧
    ¬ ∀ (config : AppConfig Unit) (disk : Disk Unit) (path raw : Str),
      SetSurvives asciiBuiltins config disk path raw := by
  constructor
  · intro h
    have hkept := ((survives_applyServerConfig_iff asciiBuiltins _ _ _ _ _ _).mp
      (h liberaConfig liberaDisk (str "libera") liberaServer (.set (str "\"secret\""))
        .keep)).2.2.1.same_password
    revert hkept
    decide +kernel
  · intro h
    have hkept := (setSurvives_iff asciiBuiltins _ _ _ _).mp
      (h liberaConfig liberaDisk (str "servers.libera.password") (str "secret"))
    have hparts : (str "servers.libera.password").splitOn '.' =
        [str "servers", str "libera", str "password"] := by decide
    rw [hparts] at hkept
    have hread := ((hkept (by decide +kernel)).1 rfl).1 rfl
    revert hread
    decide +kernel

end Repartee.Config
