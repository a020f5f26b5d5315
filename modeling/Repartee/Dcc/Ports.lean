import Repartee.Config.Settings
import Repartee.Dcc.Consent
import Repartee.Lib.Lines

/-!
# The ports of DCC chats

How the setting `dcc.port_range` is read (`dcc/chat.rs`) and a port is picked from it
(`commands/handlers_dcc.rs`). Every text is accepted by `/set`, also one that writes the greater
bound first, and the range is not looked at again before a port is drawn from it.

## Main definitions

- `parsePortRange`, `pickBindPort`: the range of a text, and a port of it
- `WritesBounds`: the bounds that a text writes
- `PortClient.step`: `/set dcc.port_range`, `/dcc chat`, and whatever else happens to the client

## Main results

- `usable_iff`: when a text can be used
- `reversed_range_aborts`: the bounds in the wrong order
-/

set_option autoImplicit false

namespace Repartee.Dcc

open Config (AppConfig Builtins getConfigValue setConfigValue)
open Store (Host)
open Text (trim splitOnce)

/-! ### Ranges -/

/-- `parse::<u16>()` -/
def parseU16 (s : Str) : Option Nat :=
  match Text.parseInt 0 65535 s with
  | .ok n => some n.toNat
  | .error _ => none

/-- The two parts of a range, separated by a space or else by a hyphen. -/
def rangeParts (s : Str) : Option (Str × Str) :=
  match splitOnce ' ' s with
  | some (lo, hi) => some (trim lo, trim hi)
  | none => (splitOnce '-' s).map (fun p => (trim p.1, trim p.2))

/-- Parse a DCC port-range string. -/
def parsePortRange (s : Str) : Nat × Nat :=
  let s := trim s
  if s = [] ∨ s = str "0" then (0, 0)
  else
    match rangeParts s with
    | some (loStr, hiStr) =>
      match parseU16 loStr, parseU16 hiStr with
      | some lo, some hi => (lo, hi)
      | _, _ => (0, 0)
    | none =>
      match parseU16 s with
      | some p => (p, p)
      | none => (0, 0)

/-- A draw from a range. An empty range is a panic. -/
structure Rng where
  randomRange : Nat → Nat → Option Nat
  empty : ∀ lo hi, hi < lo → randomRange lo hi = none
  mem : ∀ lo hi, lo ≤ hi → ∃ p, randomRange lo hi = some p ∧ lo ≤ p ∧ p ≤ hi

/-- Draws the lower bound. -/
def Rng.lowest : Rng where
  randomRange lo hi := if lo ≤ hi then some lo else none
  empty _ _ h := if_neg (Nat.not_le.mpr h)
  mem lo _ h := ⟨lo, if_pos h, Nat.le_refl lo, h⟩

/-- Pick a port to bind for DCC listening; `none` is a panic. -/
def pickBindPort (rng : Rng) : Nat × Nat → Option Nat
  | (lo, hi) =>
    if lo = 0 ∧ hi = 0 then some 0
    else if lo = hi then some lo
    else rng.randomRange lo hi

/-- The bounds that a text writes: a single port, or two of them around the first separator. -/
inductive WritesBounds (s : Str) : Nat → Nat → Prop
  | single {p : Nat} (hp : parseU16 (trim s) = some p) : WritesBounds s p p
  | space {a b : Str} {lo hi : Nat} (heq : trim s = a ++ ' ' :: b) (hfirst : ' ' ∉ a)
      (hlo : parseU16 (trim a) = some lo) (hhi : parseU16 (trim b) = some hi) :
      WritesBounds s lo hi
  | hyphen {a b : Str} {lo hi : Nat} (hspace : ' ' ∉ trim s) (heq : trim s = a ++ '-' :: b)
      (hfirst : '-' ∉ a) (hlo : parseU16 (trim a) = some lo) (hhi : parseU16 (trim b) = some hi) :
      WritesBounds s lo hi

/-! ### The client -/

/-- What the ports of a client depend on. -/
structure PortClient (F : Type) where
  config : AppConfig F
  portRange : Nat × Nat
  client : Client

/-- Whether `/dcc chat` opens a listener: for a passive request, or for an offer of the user. -/
def Client.opensListener (h : Host) (c : Client) (env : Surroundings) (args : List Str) : Bool :=
  let (isPassive, nicks) := chatArgs args
  match c.chosen h env isPassive nicks with
  | some r =>
    match c.dcc.records.lookup r.id with
    | some r => r.port = 0 && r.passiveToken.isSome
    | none => false
  | none =>
    !nicks.isEmpty && !isPassive && c.active.isSome &&
      !decide (c.dcc.maxConnections ≤ c.dcc.records.rows.length)

inductive PortAct where
  | setPortRange (raw : Str)
  /-- `/dcc chat`, with the port that binding to a port gives. -/
  | dccChat (rng : Rng) (bind : Nat → Option Nat) (env : Surroundings) (args : List Str)
  /-- Whatever else happens to the chats. -/
  | other (client : Client)

namespace PortClient

variable {F : Type} (b : Builtins F) (h : Host) (σ : PortClient F)

/-- `/set dcc.port_range` -/
def setPortRange (raw : Str) : PortClient F :=
  if (getConfigValue b σ.config (str "dcc.port_range")).isNone then σ
  else
    match setConfigValue b σ.config (str "dcc.port_range") raw with
    | .error _ => σ
    | .ok config =>
      { σ with config := config, portRange := parsePortRange config.dcc.portRange }

/-- `/dcc chat`, with the port for a listener picked first; `none` is the end of the client. -/
def dccChat (rng : Rng) (bind : Nat → Option Nat) (env : Surroundings) (args : List Str) :
    Option (PortClient F) :=
  if σ.client.opensListener h env args then
    (pickBindPort rng σ.portRange).map (fun port =>
      { σ with client := (σ.client.cmdDccChat h { env with bound := bind port } args).1 })
  else some { σ with client := (σ.client.cmdDccChat h env args).1 }

def step : PortAct → Option (PortClient F)
  | .setPortRange raw => some (σ.setPortRange b raw)
  | .dccChat rng bind env args => σ.dccChat h rng bind env args
  | .other client => some { σ with client := client }

def run : PortClient F → List PortAct → Option (PortClient F)
  | σ, [] => some σ
  | σ, act :: acts => (σ.step b h act).bind (fun σ => run σ acts)

end PortClient

/-- The act leaves the setting alone. -/
def PortAct.isLater : PortAct → Bool
  | .setPortRange _ => false
  | _ => true

/-- A port is picked from the range of the text, between the bounds that it writes, and once it is
set no later `/dcc chat` is the end of the client. -/
structure Usable {F : Type} (b : Builtins F) (h : Host) (s : Str) : Prop where
  picks : ∀ rng, ∃ p, pickBindPort rng (parsePortRange s) = some p ∧
    (parsePortRange s ≠ (0, 0) →
      ∃ lo hi, WritesBounds s lo hi ∧ min lo hi ≤ p ∧ p ≤ max lo hi)
  lasts : ∀ (σ : PortClient F) (acts : List PortAct), (∀ act ∈ acts, act.isLater = true) →
    ((σ.setPortRange b s).run b h acts).isSome = true

/-! ### The bounds of a range -/

theorem digitsFrom_isDigit {lo hi acc n : Int} {neg : Bool} {cs : Str}
    (h : Text.digitsFrom lo hi neg acc cs = .ok n) : ∀ c ∈ cs, c.isDigit = true := by
  induction cs generalizing acc with
  | nil => exact fun c hc => absurd hc List.not_mem_nil
  | cons c cs ih =>
    rw [Text.digitsFrom] at h
    by_cases hdigit : c.isDigit = true
    · rw [if_pos hdigit] at h
      dsimp only at h
      generalize (if neg then acc * 10 - ((c.toNat - 48 : Nat) : Int)
        else acc * 10 + ((c.toNat - 48 : Nat) : Int)) = acc' at h
      split_ifs at h
      exact List.forall_mem_cons.mpr ⟨hdigit, ih h⟩
    · rw [if_neg hdigit] at h
      cases h

/-- A number is written with digits, and a sign in front of them. -/
theorem notMem_of_parseU16 {s : Str} {p : Nat} (h : parseU16 s = some p) {c : Char}
    (hdigit : c.isDigit = false) (hplus : c ≠ '+') : c ∉ s := by
  intro hc
  rw [parseU16] at h
  cases hparse : Text.parseInt 0 65535 s with
  | error e =>
    rw [hparse] at h
    exact nomatch h
  | ok n =>
    unfold Text.parseInt at hparse
    split at hparse
    · exact nomatch hparse
    · exact nomatch hparse
    · exact nomatch hparse
    · have hall := digitsFrom_isDigit hparse
      rw [hall c ((List.mem_cons.mp hc).resolve_left hplus)] at hdigit
      exact nomatch hdigit
    · rw [if_neg (by omega)] at hparse
      exact nomatch hparse
    · rw [digitsFrom_isDigit hparse c hc] at hdigit
      exact nomatch hdigit

/-- A text with bounds is read as these bounds. -/
theorem WritesBounds.parsePortRange_eq {s : Str} {lo hi : Nat} (h : WritesBounds s lo hi) :
    parsePortRange s = (lo, hi) := by
  have hpair : ∀ {a b : Str} {sep : Char}, trim s = a ++ sep :: b → sep ≠ '0' →
      ¬ (trim s = [] ∨ trim s = str "0") := by
    intro a b sep heq hsep hempty
    have hmem : sep ∈ trim s := by
      rw [heq]
      exact List.mem_append_right _ List.mem_cons_self
    obtain hnil | hzero := hempty
    · rw [hnil] at hmem
      exact List.not_mem_nil hmem
    · rw [hzero] at hmem
      exact hsep (List.mem_singleton.mp hmem)
  rw [parsePortRange]
  cases h with
  | single hp =>
    by_cases hzero : trim s = [] ∨ trim s = str "0"
    · -- `0` is a number as well, and stands for the same bounds
      have h0 : lo = 0 := by
        obtain hnil | hzero := hzero
        · rw [hnil] at hp
          exact nomatch hp
        · rw [hzero] at hp
          exact (Option.some.inj hp).symm
      rw [h0]
      exact if_pos hzero
    · have hspace : ' ' ∉ trim s := notMem_of_parseU16 hp (by decide) (by decide)
      have hhyphen : '-' ∉ trim s := notMem_of_parseU16 hp (by decide) (by decide)
      rw [if_neg hzero, rangeParts, Text.splitOnce_of_notMem hspace,
        Text.splitOnce_of_notMem hhyphen]
      dsimp only [Option.map_none]
      rw [hp]
  | space heq hfirst hlo hhi =>
    rw [if_neg (hpair heq (by decide)), rangeParts, heq, Text.splitOnce_append hfirst]
    dsimp only
    rw [hlo, hhi]
  | hyphen hspace heq hfirst hlo hhi =>
    rw [if_neg (hpair heq (by decide)), rangeParts, Text.splitOnce_of_notMem hspace, heq,
      Text.splitOnce_append hfirst]
    dsimp only [Option.map_some]
    rw [hlo, hhi]

/-- Bounds that are read are written. -/
theorem writesBounds_of_ne {s : Str} (h : parsePortRange s ≠ (0, 0)) :
    WritesBounds s (parsePortRange s).1 (parsePortRange s).2 := by
  revert h
  rw [parsePortRange]
  split
  · exact fun h => absurd rfl h
  cases hparts : rangeParts (trim s) with
  | none =>
    dsimp only
    cases hp : parseU16 (trim s) with
    | none => exact fun h => absurd rfl h
    | some p => exact fun _ => .single hp
  | some parts =>
    obtain ⟨loStr, hiStr⟩ := parts
    dsimp only
    cases hlo : parseU16 loStr with
    | none => exact fun h => absurd rfl h
    | some lo =>
      cases hhi : parseU16 hiStr with
      | none => exact fun h => absurd rfl h
      | some hi =>
        intro _
        rw [rangeParts] at hparts
        cases hsplit : splitOnce ' ' (trim s) with
        | some p =>
          obtain ⟨a, b⟩ := p
          rw [hsplit] at hparts
          obtain ⟨rfl, rfl⟩ := Prod.mk.inj (Option.some.inj hparts)
          obtain ⟨hfirst, heq⟩ := Text.splitOnce_eq_some hsplit
          exact .space heq hfirst hlo hhi
        | none =>
          rw [hsplit] at hparts
          obtain ⟨⟨a, b⟩, hhyphen, hab⟩ := Option.map_eq_some_iff.mp hparts
          obtain ⟨rfl, rfl⟩ := Prod.mk.inj hab
          obtain ⟨hfirst, heq⟩ := Text.splitOnce_eq_some hhyphen
          -- a blank in the text would have split it
          refine .hyphen (fun hspace => ?_) heq hfirst hlo hhi
          obtain ⟨u, v, huv, hu⟩ := List.eq_append_cons_of_mem hspace
          rw [huv, Text.splitOnce_append hu] at hsplit
          exact nomatch hsplit

/-- A port is picked unless the first bound is the greater one. -/
theorem pickBindPort_eq_none_iff (rng : Rng) (lo hi : Nat) :
    pickBindPort rng (lo, hi) = none ↔ hi < lo := by
  rw [pickBindPort]
  by_cases hzero : lo = 0 ∧ hi = 0
  · rw [if_pos hzero]
    exact iff_of_false (Option.some_ne_none 0) (by omega)
  rw [if_neg hzero]
  by_cases hsame : lo = hi
  · rw [if_pos hsame]
    exact iff_of_false (Option.some_ne_none lo) (by omega)
  rw [if_neg hsame]
  constructor
  · intro hnone
    by_contra hle
    obtain ⟨p, hp, -⟩ := rng.mem lo hi (Nat.not_lt.mp hle)
    rw [hnone] at hp
    exact nomatch hp
  · exact rng.empty lo hi

theorem pickBindPort_mem {rng : Rng} {lo hi p : Nat} (h : pickBindPort rng (lo, hi) = some p) :
    lo ≤ p ∧ p ≤ hi := by
  have hle : lo ≤ hi := by
    by_contra hlt
    rw [(pickBindPort_eq_none_iff rng lo hi).mpr (Nat.not_le.mp hlt)] at h
    exact nomatch h
  rw [pickBindPort] at h
  split_ifs at h with hzero hsame
  · have hp := Option.some.inj h
    omega
  · have hp := Option.some.inj h
    omega
  · obtain ⟨q, hq, hmem⟩ := rng.mem lo hi hle
    rw [hq] at h
    rwa [← Option.some.inj h]

/-! ### Commands -/

namespace PortClient

variable {F : Type} {b : Builtins F} {h : Host} {σ : PortClient F}

/-- Every text is accepted. -/
theorem portRange_setPortRange (σ : PortClient F) (raw : Str) :
    (σ.setPortRange b raw).portRange = parsePortRange raw := rfl

theorem isSome_dccChat_iff (rng : Rng) (bind : Nat → Option Nat) (env : Surroundings)
    (args : List Str) :
    (σ.dccChat h rng bind env args).isSome = true ↔
      (σ.client.opensListener h env args = true →
        (pickBindPort rng σ.portRange).isSome = true) := by
  rw [dccChat]
  by_cases hopens : σ.client.opensListener h env args = true
  · rw [if_pos hopens, Option.isSome_map]
    exact ⟨fun hsome _ => hsome, fun hsome => hsome hopens⟩
  · rw [if_neg hopens]
    exact iff_of_true rfl (fun h => absurd h hopens)

/-- The range is kept until the next `/set`. -/
theorem portRange_step {act : PortAct} (hlater : act.isLater = true) {σ' : PortClient F}
    (hstep : σ.step b h act = some σ') : σ'.portRange = σ.portRange := by
  cases act with
  | setPortRange raw => exact nomatch hlater
  | dccChat rng bind env args =>
    rw [step, dccChat] at hstep
    split_ifs at hstep
    · obtain ⟨port, -, rfl⟩ := Option.map_eq_some_iff.mp hstep
      rfl
    · rw [← Option.some.inj hstep]
  | other client => rw [← Option.some.inj hstep]

/-- With its bounds in order a range does not end the client. -/
theorem isSome_run (hrange : σ.portRange.1 ≤ σ.portRange.2) {acts : List PortAct}
    (hlater : ∀ act ∈ acts, act.isLater = true) : (σ.run b h acts).isSome = true := by
  induction acts generalizing σ with
  | nil => rfl
  | cons act acts ih =>
    obtain ⟨hact, hacts⟩ := List.forall_mem_cons.mp hlater
    have hsome : (σ.step b h act).isSome = true := by
      cases act with
      | setPortRange raw => rfl
      | dccChat rng bind env args =>
        refine (isSome_dccChat_iff rng bind env args).mpr (fun _ => ?_)
        rw [Option.isSome_iff_ne_none, Ne, pickBindPort_eq_none_iff]
        exact Nat.not_lt.mpr hrange
      | other client => rfl
    obtain ⟨σ', hstep⟩ := Option.isSome_iff_exists.mp hsome
    rw [run, hstep, Option.bind_some]
    refine ih ?_ hacts
    rw [portRange_step hact hstep]
    exact hrange

end PortClient

/-- **Usable ranges.** Exactly the texts can be used that do not write two bounds of which the
first is the greater one. -/
theorem usable_iff {F : Type} (b : Builtins F) (h : Host) (s : Str) :
    Usable b h s ↔ ∀ lo hi, WritesBounds s lo hi → lo ≤ hi := by
  constructor
  · intro husable lo hi hwrites
    obtain ⟨p, hp, -⟩ := husable.picks .lowest
    rw [hwrites.parsePortRange_eq] at hp
    by_contra hlt
    rw [(pickBindPort_eq_none_iff .lowest lo hi).mpr (Nat.not_le.mp hlt)] at hp
    exact nomatch hp
  · intro hordered
    have hrange : (parsePortRange s).1 ≤ (parsePortRange s).2 := by
      by_cases hzero : parsePortRange s = (0, 0)
      · rw [hzero]
      · exact hordered _ _ (writesBounds_of_ne hzero)
    constructor
    · intro rng
      have hsome : pickBindPort rng (parsePortRange s) ≠ none := by
        rw [Ne, pickBindPort_eq_none_iff]
        exact Nat.not_lt.mpr hrange
      obtain ⟨p, hp⟩ := Option.ne_none_iff_exists'.mp hsome
      refine ⟨p, hp, fun hne => ⟨_, _, writesBounds_of_ne hne, ?_⟩⟩
      rw [Nat.min_eq_left hrange, Nat.max_eq_right hrange]
      exact pickBindPort_mem hp
    · intro σ acts hlater
      refine PortClient.isSome_run ?_ hlater
      rw [PortClient.portRange_setPortRange]
      exact hrange

/-- The range that was meant to be `5000-6000`. -/
theorem reversed_range_aborts : pickBindPort .lowest (parsePortRange (str "6000-5000")) = none := by
  decide +kernel

end Repartee.Dcc
