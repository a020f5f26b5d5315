import Repartee.Config.Restart
import Repartee.Lib.Lens
import Repartee.Lib.Split

/-!
# Settings as coded parts

Every setting of a section (`commands/settings.rs`) is a part of the section that is shown and set
through a code. So what is set is settled, and it keeps the other settings of the section; setting
what is shown changes nothing for the values that the code fixes.

## Main definitions

- `textCode`, `natCode`, `listCode` and so on: how the values of settings are read and written
- `LawfulTable`: what holds of the settings of a section

## Main results

- `LawfulFrom.table`: a table is lawful if its settings are so at their places
- `lawful_general`, `lawful_server` and so on: the tables of the configuration
-/

set_option autoImplicit false

namespace Repartee.Config

open Lens (IsLens Code Coded Settles Stable Keeps)

/-! ### Codes -/

section Codes

def textCode : Code Str Str := ⟨.ok, id⟩

/-- An empty text is no value. -/
def clearableCode : Code Str (Option Str) :=
  ⟨fun raw => .ok (if raw.isEmpty then none else some raw), fun o => o.getD []⟩

def boolCode : Code Str Bool := ⟨parseBool, boolText⟩

def natCode (bits : Nat) (error : String) : Code Str Nat := ⟨parseUnsigned bits error, natText⟩

def floorCode (bits floor : Nat) (error : String) : Code Str Nat where
  read := fun raw =>
    match parseUnsigned bits "Expected a number" raw with
    | .error e => .error e
    | .ok n => if n < floor then .error (str error) else .ok n
  write := natText

def listCode (split : Str → List Str) : Code Str (List Str) := ⟨fun raw => .ok (split raw), joined⟩

/-- A value that need not be there; what is read always is. -/
def optCode {α : Type} (c : Code Str α) : Code Str (Option α) :=
  ⟨fun raw => (c.read raw).map some, fun o => (o.map c.write).getD []⟩

def unitCode {F : Type} (b : Builtins F) (error : String) : Code Str F where
  read := fun raw =>
    match b.parseF32 raw with
    | none => .error (str "invalid float: " ++ raw)
    | some v => if b.inUnit v then .ok v else .error (str error)
  write := b.showF32

def floatCode {F : Type} (b : Builtins F) : Code Str F where
  read := fun raw =>
    match b.parseF32 raw with
    | some v => .ok v
    | none => .error (str "Expected a decimal number")
  write := b.showF32

def choiceCode {α : Type} (read : Str → Str) (choices : List (String × α)) (error : String)
    (write : α → Str) : Code Str α where
  read := fun raw =>
    match choices.find? (fun c => str c.1 = read raw) with
    | some c => .ok c.2
    | none => .error (str error)
  write := write

/-- Floating-point numbers are written so that they are read again; the two modes of the spell
checker are in lower case. -/
structure Builtins.Lawful {F : Type} (b : Builtins F) : Prop where
  parse_show : ∀ v, b.parseF32 (b.showF32 v) = some v
  lower_replace : b.toLowercase (str "replace") = str "replace"
  lower_highlight : b.toLowercase (str "highlight") = str "highlight"

theorem textCode_settles : textCode.Settles := fun _ _ _ => rfl

theorem textCode_fixes (v : Str) : textCode.Fixes v := fun _ h => (Except.ok.inj h).symm

theorem clearableCode_settles : clearableCode.Settles := by
  rintro raw v h
  obtain rfl := Except.ok.inj h
  cases raw <;> rfl

theorem clearableCode_fixes_iff {v : Option Str} : clearableCode.Fixes v ↔ v ≠ some [] := by
  constructor
  · rintro h rfl
    exact nomatch h none rfl
  · intro hv w hw
    obtain rfl := Except.ok.inj hw
    rcases v with _ | _ | ⟨c, s⟩
    · rfl
    · exact absurd rfl hv
    · rfl

theorem parseBool_boolText (v : Bool) : parseBool (boolText v) = .ok v := by cases v <;> rfl

theorem boolCode_settles : boolCode.Settles := fun _ v _ => parseBool_boolText v

theorem boolCode_fixes (v : Bool) : boolCode.Fixes v := by
  intro w hw
  exact (Except.ok.inj ((parseBool_boolText v).symm.trans hw)).symm

theorem parseUnsigned_ok {bits n : Nat} {error : String} {raw : Str}
    (h : parseUnsigned bits error raw = .ok n) :
    parseUnsigned bits error (natText n) = .ok n := by
  rw [parseUnsigned] at h
  have hpos : (0 : Int) < 2 ^ bits := Int.pow_pos (by decide)
  cases hread : Text.parseInt 0 (2 ^ bits - 1) raw with
  | error e =>
    rw [hread] at h
    cases h
  | ok m =>
    rw [hread] at h
    obtain ⟨hlow, hhigh⟩ := Text.parseInt_range (Int.le_refl 0) (by omega) hread
    -- what is read is not negative, so it is the number itself
    have hm : m = (n : Int) := by
      have hn : m.toNat = n := Except.ok.inj h
      omega
    have hagain := Text.parseInt_formatInt (Int.le_refl 0) (by omega) hlow hhigh
    rw [hm] at hagain
    have hwritten : Text.parseInt 0 (2 ^ bits - 1) (natText n) = .ok (n : Int) := hagain
    rw [parseUnsigned, hwritten]
    rfl

theorem parseUnsigned_natText {bits n m : Nat} {error : String}
    (h : parseUnsigned bits error (natText n) = .ok m) : m = n := by
  rw [parseUnsigned] at h
  cases hread : Text.parseInt 0 (2 ^ bits - 1) (natText n) with
  | error e =>
    rw [hread] at h
    cases h
  | ok k =>
    rw [hread] at h
    have hk := Text.parseInt_toDigits_value hread
    have hm : k.toNat = m := Except.ok.inj h
    omega

theorem natCode_settles {bits : Nat} {error : String} : (natCode bits error).Settles :=
  fun _ _ h => parseUnsigned_ok h

theorem natCode_fixes {bits : Nat} {error : String} (v : Nat) : (natCode bits error).Fixes v :=
  fun _ h => parseUnsigned_natText h

/-- A number that is read with a floor is read without one, and reaches it. -/
theorem floorCode_read_iff {bits floor n : Nat} {error : String} {raw : Str} :
    (floorCode bits floor error).read raw = .ok n ↔
      parseUnsigned bits "Expected a number" raw = .ok n ∧ floor ≤ n := by
  rw [floorCode]
  dsimp only
  cases parseUnsigned bits "Expected a number" raw with
  | error e => exact iff_of_false (fun h => nomatch h) (fun h => nomatch h.1)
  | ok m =>
    dsimp only
    split_ifs with hm
    · refine iff_of_false (fun h => nomatch h) ?_
      rintro ⟨hmn, hfloor⟩
      obtain rfl := Except.ok.inj hmn
      omega
    · constructor
      · intro h
        obtain rfl := Except.ok.inj h
        exact ⟨rfl, by omega⟩
      · exact fun h => h.1

theorem floorCode_map {bits floor : Nat} {error : String} {raw : Str} {β : Type} (f : Nat → β) :
    ((floorCode bits floor error).read raw).map f =
      match parseUnsigned bits "Expected a number" raw with
      | .error e => .error e
      | .ok n => if n < floor then .error (str error) else .ok (f n) := by
  rw [floorCode]
  dsimp only
  cases parseUnsigned bits "Expected a number" raw with
  | error e => rfl
  | ok n =>
    dsimp only
    split_ifs <;> rfl

theorem floorCode_settles {bits floor : Nat} {error : String} :
    (floorCode bits floor error).Settles := by
  intro raw v h
  obtain ⟨hread, hfloor⟩ := (floorCode_read_iff).mp h
  exact (floorCode_read_iff).mpr ⟨parseUnsigned_ok hread, hfloor⟩

theorem floorCode_fixes {bits floor : Nat} {error : String} (v : Nat) :
    (floorCode bits floor error).Fixes v :=
  fun _ h => parseUnsigned_natText ((floorCode_read_iff).mp h).1

theorem listCode_fixes_iff {split : Str → List Str} {v : List Str} :
    (listCode split).Fixes v ↔ split (joined v) = v :=
  ⟨fun h => h _ rfl, fun h _ hw => (Except.ok.inj hw).symm.trans h⟩

/-- The lists that a text between commas gives back. -/
theorem splitCommas_joined_iff {xs : List Str} :
    splitCommas (joined xs) = xs ↔ xs ≠ [] ∧ ∀ x ∈ xs, Text.IsPart ',' x := by
  by_cases hne : xs = []
  · subst hne
    exact iff_of_false (fun h => nomatch h) (fun h => h.1 rfl)
  · rw [and_iff_right hne, ← Text.flatMap_trimmedParts_eq_iff, ← Text.trimmedParts_join
      (by decide) hne]
    rfl

theorem splitList_joined_iff {xs : List Str} :
    splitList (joined xs) = xs ↔ ∀ x ∈ xs, x ≠ [] ∧ Text.IsPart ',' x := by
  rw [← Text.flatMap_nonemptyParts_eq_iff, ← Text.nonemptyParts_join (by decide)]
  rfl

theorem listCode_splitCommas_settles : (listCode splitCommas).Settles := by
  rintro raw v h
  obtain rfl := Except.ok.inj h
  refine congrArg Except.ok ((splitCommas_joined_iff).mpr ⟨?_, fun x hx => Text.isPart_of_mem hx⟩)
  rw [splitCommas, Ne, List.map_eq_nil_iff]
  exact List.splitOn_ne_nil ',' raw

theorem listCode_splitList_settles : (listCode splitList).Settles := by
  rintro raw v h
  obtain rfl := Except.ok.inj h
  refine congrArg Except.ok ((splitList_joined_iff).mpr (fun x hx => ?_))
  obtain ⟨hpart, hne⟩ := List.mem_filter.mp hx
  exact ⟨fun hnil => by simp [hnil] at hne, Text.isPart_of_mem hpart⟩

theorem optCode_settles {α : Type} {c : Code Str α} (hc : c.Settles) : (optCode c).Settles := by
  intro raw v h
  obtain ⟨w, hw, rfl⟩ := Lens.map_eq_ok h
  change (c.read (c.write w)).map some = _
  rw [hc raw w hw]
  rfl

theorem optCode_fixes_iff {α : Type} {c : Code Str α} (hc : ∀ v, c.Fixes v) {v : Option α} :
    (optCode c).Fixes v ↔ (v = none → ∀ w, c.read [] ≠ .ok w) := by
  cases v with
  | none =>
    constructor
    · intro h _ w hw
      exact nomatch h (some w) (congrArg (Except.map some) hw)
    · intro h w hw
      obtain ⟨u, hu, -⟩ := Lens.map_eq_ok hw
      exact absurd hu (h rfl u)
  | some v =>
    refine iff_of_true ?_ (fun h => nomatch h)
    intro w hw
    obtain ⟨u, hu, rfl⟩ := Lens.map_eq_ok hw
    exact congrArg some (hc v u hu)

theorem optText_fixes_iff {v : Option Str} : (optCode textCode).Fixes v ↔ v ≠ none := by
  rw [optCode_fixes_iff textCode_fixes]
  exact ⟨fun h hv => h hv [] rfl, fun h hv => absurd hv h⟩

section Floats

variable {F : Type} {b : Builtins F}

theorem floatCode_map {α : Type} {raw : Str} (f : F → α) :
    ((floatCode b).read raw).map f =
      match b.parseF32 raw with
      | some v => .ok (f v)
      | none => .error (str "Expected a decimal number") := by
  rw [floatCode]
  dsimp only
  cases b.parseF32 raw <;> rfl

theorem unitCode_settles (hb : b.Lawful) {error : String} : (unitCode b error).Settles := by
  intro raw v h
  rw [unitCode] at h ⊢
  dsimp only at h ⊢
  rw [hb.parse_show]
  cases hread : b.parseF32 raw with
  | none =>
    rw [hread] at h
    cases h
  | some u =>
    rw [hread] at h
    dsimp only at h
    split_ifs at h with hunit
    obtain rfl := Except.ok.inj h
    exact if_pos hunit

theorem unitCode_fixes (hb : b.Lawful) {error : String} (v : F) : (unitCode b error).Fixes v := by
  intro w hw
  rw [unitCode] at hw
  dsimp only at hw
  rw [hb.parse_show] at hw
  dsimp only at hw
  split_ifs at hw
  exact (Except.ok.inj hw).symm

theorem floatCode_settles (hb : b.Lawful) : (floatCode b).Settles := by
  intro raw v _
  rw [floatCode]
  dsimp only
  rw [hb.parse_show]

theorem floatCode_fixes (hb : b.Lawful) (v : F) : (floatCode b).Fixes v := by
  intro w hw
  rw [floatCode] at hw
  dsimp only at hw
  rw [hb.parse_show] at hw
  exact (Except.ok.inj hw).symm

end Floats

section Choices

variable {α : Type} {read : Str → Str} {choices : List (String × α)} {error : String}
  {write : α → Str}

theorem choiceCode_read {raw : Str} {v : α}
    (h : (choiceCode read choices error write).read raw = .ok v) :
    ∃ c ∈ choices, str c.1 = read raw ∧ c.2 = v := by
  rw [choiceCode] at h
  dsimp only at h
  cases hfind : choices.find? (fun c => str c.1 = read raw) with
  | none =>
    rw [hfind] at h
    cases h
  | some c =>
    rw [hfind] at h
    exact ⟨c, List.mem_of_find?_eq_some hfind, by simpa using List.find?_some hfind,
      Except.ok.inj h⟩

theorem choiceCode_map {β : Type} {raw : Str} (f : α → β) :
    ((choiceCode read choices error write).read raw).map f =
      match choices.find? (fun c => str c.1 = read raw) with
      | some c => .ok (f c.2)
      | none => .error (str error) := by
  rw [choiceCode]
  dsimp only
  cases choices.find? (fun c => str c.1 = read raw) <;> rfl

theorem choiceCode_settles
    (h : ∀ c ∈ choices, (choiceCode read choices error write).read (write c.2) = .ok c.2) :
    (choiceCode read choices error write).Settles := by
  intro raw v hread
  obtain ⟨c, hc, -, rfl⟩ := choiceCode_read hread
  exact h c hc

end Choices

/-- The mode of the spell checker. -/
def modeCode {F : Type} (b : Builtins F) : Code Str Str :=
  choiceCode b.toLowercase [("replace", str "replace"), ("highlight", str "highlight")]
    "Expected 'replace' or 'highlight'" id

/-- A mode that is not another spelling of one of the two. -/
def CanonicalMode {F : Type} (b : Builtins F) (mode : Str) : Prop :=
  (b.toLowercase mode = str "replace" → mode = str "replace") ∧
    (b.toLowercase mode = str "highlight" → mode = str "highlight")

theorem modeCode_read {F : Type} {b : Builtins F} {raw v : Str} :
    (modeCode b).read raw = .ok v ↔
      b.toLowercase raw = v ∧ (v = str "replace" ∨ v = str "highlight") := by
  constructor
  · intro h
    obtain ⟨c, hc, hname, rfl⟩ := choiceCode_read h
    rw [List.mem_cons, List.mem_singleton] at hc
    rcases hc with rfl | rfl
    · exact ⟨hname.symm, .inl rfl⟩
    · exact ⟨hname.symm, .inr rfl⟩
  · rintro ⟨rfl, h | h⟩
    · rw [modeCode, choiceCode]
      dsimp only
      rw [h]
      rfl
    · rw [modeCode, choiceCode]
      dsimp only
      rw [h]
      rfl

theorem modeCode_settles {F : Type} {b : Builtins F} (hb : b.Lawful) : (modeCode b).Settles := by
  intro raw v h
  obtain ⟨-, hv⟩ := (modeCode_read).mp h
  refine (modeCode_read).mpr ⟨?_, hv⟩
  rcases hv with rfl | rfl
  · exact hb.lower_replace
  · exact hb.lower_highlight

theorem modeCode_fixes_iff {F : Type} {b : Builtins F} {mode : Str} :
    (modeCode b).Fixes mode ↔ CanonicalMode b mode := by
  constructor
  · intro h
    exact ⟨fun hlow => (h _ ((modeCode_read).mpr ⟨hlow, .inl rfl⟩)).symm,
      fun hlow => (h _ ((modeCode_read).mpr ⟨hlow, .inr rfl⟩)).symm⟩
  · rintro ⟨hreplace, hhighlight⟩ w hw
    obtain ⟨hlow, rfl | rfl⟩ := (modeCode_read).mp hw
    · exact (hreplace hlow).symm
    · exact (hhighlight hlow).symm

end Codes

/-! ### Tables -/

section Tables

variable {σ α : Type} {all : List (Setting σ)} {i : Nat}

/-- A part of a record that only the setting at one place of a table shows. -/
structure Placed (all : List (Setting σ)) (i : Nat) (get : σ → α) (put : σ → α → σ) : Prop
    extends IsLens get put where
  frame : ∀ s v, (all.map (fun t => t.get (put s v))).eraseIdx i =
    (all.map (fun t => t.get s)).eraseIdx i

/-- A setting at a place of a table: what it sets it settles, and it keeps the others. -/
structure Lawful (all : List (Setting σ)) (i : Nat) (st : Setting σ) : Prop where
  settles : Settles st.get st.set
  frame : Keeps st.set (fun s => (all.map (fun t => t.get s)).eraseIdx i)

/-- The settings from a place on are lawful, and setting what they show changes nothing just if a
condition holds. -/
inductive LawfulFrom (all : List (Setting σ)) : Nat → List (Setting σ) → (σ → Prop) → Prop where
  | nil {i : Nat} : LawfulFrom all i [] (fun _ => True)
  | free {i : Nat} {st : Setting σ} {rest : List (Setting σ)} {P : σ → Prop} :
    Lawful all i st → (∀ s, Stable st.get st.set s) → LawfulFrom all (i + 1) rest P →
    LawfulFrom all i (st :: rest) P
  | held {i : Nat} {st : Setting σ} {rest : List (Setting σ)} {P Q : σ → Prop} :
    Lawful all i st → (∀ s, Stable st.get st.set s ↔ Q s) → LawfulFrom all (i + 1) rest P →
    LawfulFrom all i (st :: rest) (fun s => Q s ∧ P s)

/-- A table of settings, and when setting what they show changes nothing. -/
structure LawfulTable (all : List (Setting σ)) (P : σ → Prop) : Prop where
  settles : ∀ st ∈ all, Settles st.get st.set
  keeps : ∀ st ∈ all, ∀ st' ∈ all, st.name ≠ st'.name → Keeps st.set st'.get
  stable_iff : ∀ s, (∀ st ∈ all, Stable st.get st.set s) ↔ P s

section Rules

variable {st : Setting σ} {rest : List (Setting σ)} {P : σ → Prop} {c : Code Str α}
  (get : σ → α) (put : σ → α → σ)

theorem lawful_of_coded {get : σ → α} {put : σ → α → σ} (hp : Placed all i get put)
    (h : Coded c get put st.get st.set) (hc : c.Settles) : Lawful all i st :=
  ⟨h.settles hc, h.keeps hp.frame⟩

/-- A setting whose code fixes every value. -/
theorem LawfulFrom.freeCoded (hp : Placed all i get put)
    (hview : ∀ s, st.get s = c.write (get s))
    (hset : ∀ s raw, st.set s raw = (c.read raw).map (put s))
    (hc : c.Settles) (hfix : ∀ v, c.Fixes v) (h : LawfulFrom all (i + 1) rest P) :
    LawfulFrom all i (st :: rest) P :=
  have hcoded : Coded c get put st.get st.set := ⟨hp.toIsLens, hview, hset⟩
  .free (lawful_of_coded hp hcoded hc) (fun s => hcoded.stable_iff.mpr (hfix (get s))) h

/-- A setting whose code fixes some values. -/
theorem LawfulFrom.heldCoded {Q : α → Prop} (hp : Placed all i get put)
    (hview : ∀ s, st.get s = c.write (get s))
    (hset : ∀ s raw, st.set s raw = (c.read raw).map (put s))
    (hc : c.Settles) (hfix : ∀ v, c.Fixes v ↔ Q v) (h : LawfulFrom all (i + 1) rest P) :
    LawfulFrom all i (st :: rest) (fun s => Q (get s) ∧ P s) :=
  have hcoded : Coded c get put st.get st.set := ⟨hp.toIsLens, hview, hset⟩
  .held (lawful_of_coded hp hcoded hc) (fun s => hcoded.stable_iff.trans (hfix (get s))) h

end Rules

section Families

variable {name : String} {rest : List (Setting σ)} {P : σ → Prop}

theorem LawfulFrom.text {get : σ → Str} {put : σ → Str → σ} (hp : Placed all i get put)
    (h : LawfulFrom all (i + 1) rest P) : LawfulFrom all i (textSetting name get put :: rest) P :=
  .freeCoded get put hp (fun _ => rfl) (fun _ _ => rfl) textCode_settles textCode_fixes h

theorem LawfulFrom.bool {get : σ → Bool} {put : σ → Bool → σ} (hp : Placed all i get put)
    (h : LawfulFrom all (i + 1) rest P) : LawfulFrom all i (boolSetting name get put :: rest) P :=
  .freeCoded get put hp (fun _ => rfl) (fun _ _ => rfl) boolCode_settles boolCode_fixes h

theorem LawfulFrom.nat {bits : Nat} {error : String} {get : σ → Nat} {put : σ → Nat → σ}
    (hp : Placed all i get put) (h : LawfulFrom all (i + 1) rest P) :
    LawfulFrom all i (natSetting name bits error get put :: rest) P :=
  .freeCoded get put hp (fun _ => rfl) (fun _ _ => rfl) natCode_settles natCode_fixes h

theorem LawfulFrom.floor {bits floor : Nat} {error : String} {get : σ → Nat} {put : σ → Nat → σ}
    (hp : Placed all i get put) (h : LawfulFrom all (i + 1) rest P) :
    LawfulFrom all i (floorSetting name bits floor error get put :: rest) P :=
  .freeCoded (c := floorCode bits floor error) get put hp (fun _ => rfl)
    (fun s _ => (floorCode_map (put s)).symm) floorCode_settles floorCode_fixes h

theorem LawfulFrom.optNat {bits : Nat} {get : σ → Option Nat} {put : σ → Option Nat → σ}
    (hp : Placed all i get put) (h : LawfulFrom all (i + 1) rest P) :
    LawfulFrom all i (optNatSetting name bits get put :: rest) P := by
  refine .freeCoded (c := optCode (natCode bits "Expected a positive integer")) get put hp
    (fun _ => rfl) (fun s raw => ?_) (optCode_settles natCode_settles)
    (fun v => (optCode_fixes_iff natCode_fixes).mpr (fun _ w hw => nomatch hw)) h
  change (parseUnsigned bits _ raw).map _ = ((parseUnsigned bits _ raw).map some).map (put s)
  cases parseUnsigned bits "Expected a positive integer" raw <;> rfl

theorem LawfulFrom.list {split : Str → List Str} {get : σ → List Str} {put : σ → List Str → σ}
    (hp : Placed all i get put) (hc : (listCode split).Settles)
    (h : LawfulFrom all (i + 1) rest P) :
    LawfulFrom all i (listSetting name split get put :: rest)
      (fun s => split (joined (get s)) = get s ∧ P s) :=
  .heldCoded get put hp (fun _ => rfl) (fun _ _ => rfl) hc (fun _ => listCode_fixes_iff) h

theorem LawfulFrom.optText {get : σ → Option Str} {put : σ → Option Str → σ}
    (hp : Placed all i get put) (h : LawfulFrom all (i + 1) rest P) :
    LawfulFrom all i (optTextSetting name get put :: rest) (fun s => get s ≠ none ∧ P s) := by
  refine .heldCoded (Q := (· ≠ none)) get put hp (fun s => ?_) (fun _ _ => rfl)
    (optCode_settles textCode_settles) (fun _ => optText_fixes_iff) h
  change (get s).getD [] = ((get s).map id).getD []
  rw [Option.map_id]
  rfl

/-- A text whose empty value clears the field. -/
theorem LawfulFrom.clearable (get : σ → Option Str) (put : σ → Option Str → σ)
    (hp : Placed all i get put) (h : LawfulFrom all (i + 1) rest P) :
    LawfulFrom all i (textSetting name (fun s => (get s).getD [])
      (fun s v => put s (if v.isEmpty then none else some v)) :: rest)
      (fun s => get s ≠ some [] ∧ P s) :=
  .heldCoded (c := clearableCode) (Q := (· ≠ some [])) get put hp (fun _ => rfl)
    (fun _ _ => rfl) clearableCode_settles (fun _ => clearableCode_fixes_iff) h

theorem LawfulFrom.unit {F : Type} {b : Builtins F} (hb : b.Lawful) {error : String}
    {get : σ → F} {put : σ → F → σ} (hp : Placed all i get put)
    (h : LawfulFrom all (i + 1) rest P) :
    LawfulFrom all i (unitSetting name b error get put :: rest) P := by
  refine .freeCoded (c := unitCode b error) get put hp (fun _ => rfl) (fun s raw => ?_)
    (unitCode_settles hb) (unitCode_fixes hb) h
  rw [unitSetting, unitCode]
  dsimp only
  cases b.parseF32 raw with
  | none => rfl
  | some v =>
    dsimp only
    split_ifs <;> rfl

/-- A choice whose values have names of their own. -/
theorem LawfulFrom.choice {read : Str → Str} {choices : List (String × α)} {error : String}
    {write : α → Str} {get : σ → α} {put : σ → α → σ} (hp : Placed all i get put)
    (hc : ∀ v, (choiceCode read choices error write).read (write v) = .ok v)
    (h : LawfulFrom all (i + 1) rest P) :
    LawfulFrom all i (choiceSetting name read choices error (fun s => write (get s)) put :: rest)
      P :=
  .freeCoded (c := choiceCode read choices error write) get put hp (fun _ => rfl)
    (fun s _ => (choiceCode_map (put s)).symm) (choiceCode_settles (fun c _ => hc c.2))
    (fun v _ hw => (Except.ok.inj ((hc v).symm.trans hw)).symm) h

/-- A choice between words, some of which may be written in more than one way. -/
theorem LawfulFrom.word {read : Str → Str} {choices : List (String × Str)} {error : String}
    {get : σ → Str} {put : σ → Str → σ} {Q : Str → Prop} (hp : Placed all i get put)
    (hc : (choiceCode read choices error id).Settles)
    (hfix : ∀ v, (choiceCode read choices error id).Fixes v ↔ Q v)
    (h : LawfulFrom all (i + 1) rest P) :
    LawfulFrom all i (choiceSetting name read choices error get put :: rest)
      (fun s => Q (get s) ∧ P s) :=
  .heldCoded (c := choiceCode read choices error id) get put hp (fun _ => rfl)
    (fun s _ => (choiceCode_map (put s)).symm) hc hfix h

/-- Whether to reconnect is written like an optional truth value. -/
theorem optCode_boolCode_map (s : ServerConfig) (raw : Str) :
    (parseBool raw).map (fun v => { s with autoReconnect := some v }) =
      ((optCode boolCode).read raw).map (fun v => { s with autoReconnect := v }) := by
  change _ = ((parseBool raw).map some).map _
  cases parseBool raw <;> rfl

end Families

section Whole

variable {P : σ → Prop} {settings : List (Setting σ)}

theorem LawfulFrom.get {n : Nat} {st : Setting σ} (h : LawfulFrom all i settings P)
    (hst : settings[n]? = some st) : Lawful all (i + n) st := by
  induction h generalizing n with
  | nil => exact nomatch hst
  | free hlawful _ _ ih =>
    cases n with
    | zero =>
      obtain rfl := Option.some.inj hst
      exact hlawful
    | succ n =>
      have hrest := ih hst
      rwa [Nat.add_assoc, Nat.add_comm 1 n] at hrest
  | held hlawful _ _ ih =>
    cases n with
    | zero =>
      obtain rfl := Option.some.inj hst
      exact hlawful
    | succ n =>
      have hrest := ih hst
      rwa [Nat.add_assoc, Nat.add_comm 1 n] at hrest

theorem LawfulFrom.stable_iff (h : LawfulFrom all i settings P) (s : σ) :
    (∀ st ∈ settings, Stable st.get st.set s) ↔ P s := by
  induction h with
  | nil => exact iff_of_true (fun st hst => absurd hst List.not_mem_nil) trivial
  | free _ hstable _ ih => rw [List.forall_mem_cons, ih, and_iff_right (hstable s)]
  | held _ hstable _ ih => rw [List.forall_mem_cons, ih, hstable s]

/-- Lists that agree outside one place agree at another one. -/
theorem getElem?_of_eraseIdx_eq {β : Type} {xs ys : List β} {i j : Nat}
    (h : xs.eraseIdx i = ys.eraseIdx i) (hne : j ≠ i) : xs[j]? = ys[j]? := by
  rcases Nat.lt_or_gt_of_ne hne with hlt | hgt
  · have hj := congrArg (fun l => l[j]?) h
    simpa [List.getElem?_eraseIdx, hlt] using hj
  · obtain ⟨k, rfl⟩ : ∃ k, j = k + 1 := ⟨j - 1, by omega⟩
    have hj := congrArg (fun l => l[k]?) h
    have hk : ¬ k < i := by omega
    simpa [List.getElem?_eraseIdx, hk] using hj

/-- **A table whose settings are lawful at their places.** -/
theorem LawfulFrom.table (h : LawfulFrom all 0 all P) : LawfulTable all P where
  settles := by
    intro st hst
    obtain ⟨n, hn⟩ := List.mem_iff_getElem?.mp hst
    exact (h.get hn).settles
  keeps := by
    intro st hst st' hst' hname s raw s' hset
    obtain ⟨n, hn⟩ := List.mem_iff_getElem?.mp hst
    obtain ⟨m, hm⟩ := List.mem_iff_getElem?.mp hst'
    -- different names stand at different places
    have hne : m ≠ 0 + n := by
      rintro rfl
      rw [Nat.zero_add, hn] at hm
      exact hname (congrArg Setting.name (Option.some.inj hm))
    have hplace := getElem?_of_eraseIdx_eq ((h.get hn).frame s raw s' hset) hne
    simpa [hm] using hplace
  stable_iff := h.stable_iff

/-- The table of a part of a record. -/
theorem LawfulTable.within {τ : Type} {get : τ → σ} {put : τ → σ → τ} (hp : IsLens get put)
    (h : LawfulTable all P) :
    LawfulTable (all.map (.within get put)) (fun t => P (get t)) where
  settles := by
    intro st hst
    obtain ⟨s, hs, rfl⟩ := List.mem_map.mp hst
    exact hp.settles (h.settles s hs)
  keeps := by
    intro st hst st' hst' hname
    obtain ⟨s, hs, rfl⟩ := List.mem_map.mp hst
    obtain ⟨s', hs', rfl⟩ := List.mem_map.mp hst'
    exact hp.keeps (h.keeps s hs s' hs' hname)
  stable_iff := by
    intro t
    rw [← h.stable_iff (get t), List.forall_mem_map]
    exact forall₂_congr (fun s _ => hp.stable_iff)

end Whole

end Tables

/-! ### The tables of the configuration -/

section Settings

theorem lawful_panel : LawfulTable panelSettings (fun _ => True) := by
  refine (LawfulFrom.nat ?_ <| .bool ?_ .nil).table
  all_goals exact ⟨⟨fun _ _ => rfl, fun _ => rfl, fun _ _ _ => rfl⟩, fun _ _ => rfl⟩

theorem lawful_statusbar : LawfulTable statusbarSettings (fun _ => True) := by
  refine (LawfulFrom.bool ?_ <| .text ?_ <| .text ?_ <| .text ?_ <| .text ?_ <| .text ?_ <|
    .text ?_ <| .text ?_ <| .text ?_ <| .text ?_ <| .text ?_ .nil).table
  all_goals exact ⟨⟨fun _ _ => rfl, fun _ => rfl, fun _ _ _ => rfl⟩, fun _ _ => rfl⟩

theorem lawful_imagePreview : LawfulTable imagePreviewSettings (fun _ => True) := by
  refine (LawfulFrom.bool ?_ <| .nat ?_ <| .nat ?_ <| .nat ?_ <| .nat ?_ <| .nat ?_ <| .nat ?_ <|
    .text ?_ <| .text ?_ .nil).table
  all_goals exact ⟨⟨fun _ _ => rfl, fun _ => rfl, fun _ _ _ => rfl⟩, fun _ _ => rfl⟩

theorem lawful_shrink : LawfulTable shrinkSettings (fun _ => True) := by
  refine (LawfulFrom.bool ?_ <| .text ?_ <| .bool ?_ <| .bool ?_ <| .floor ?_ <| .floor ?_ <|
    .floor ?_ <| .floor ?_ .nil).table
  all_goals exact ⟨⟨fun _ _ => rfl, fun _ => rfl, fun _ _ _ => rfl⟩, fun _ _ => rfl⟩

theorem lawful_logging : LawfulTable loggingSettings (fun _ => True) := by
  refine (LawfulFrom.nat ?_ <| .nat ?_ .nil).table
  all_goals exact ⟨⟨fun _ _ => rfl, fun _ => rfl, fun _ _ _ => rfl⟩, fun _ _ => rfl⟩

theorem lawful_emotes : LawfulTable emotesSettings (fun _ => True) := by
  refine (LawfulFrom.bool ?_ <| .choice ?_ (fun v => by cases v <;> rfl) <|
    .choice ?_ (fun v => by cases v <;> rfl) .nil).table
  all_goals exact ⟨⟨fun _ _ => rfl, fun _ => rfl, fun _ _ _ => rfl⟩, fun _ _ => rfl⟩

/-- The exemptions are parts of a text that are not blank, and the address is not empty. -/
theorem lawful_general : LawfulTable generalSettings (fun s =>
    splitList (joined s.floodExemptions) = s.floodExemptions ∧
      s.defaultBindIp ≠ some [] ∧ True) := by
  refine (LawfulFrom.text ?_ <| .text ?_ <| .text ?_ <| .text ?_ <| .text ?_ <| .bool ?_ <|
    .list ?_ listCode_splitList_settles <| .text ?_ <|
    .clearable GeneralConfig.defaultBindIp (fun s v => { s with defaultBindIp := v }) ?_
      .nil).table
  all_goals exact ⟨⟨fun _ _ => rfl, fun _ => rfl, fun _ _ _ => rfl⟩, fun _ _ => rfl⟩

theorem lawful_dcc : LawfulTable dccSettings (fun s =>
    splitCommas (joined s.autochatMasks) = s.autochatMasks ∧ True) := by
  refine (LawfulFrom.nat ?_ <| .text ?_ <| .text ?_ <| .bool ?_ <|
    .list ?_ listCode_splitCommas_settles <| .nat ?_ .nil).table
  all_goals exact ⟨⟨fun _ _ => rfl, fun _ => rfl, fun _ _ _ => rfl⟩, fun _ _ => rfl⟩

theorem lawful_server : LawfulTable serverSettings (fun s =>
    splitCommas (joined s.channels) = s.channels ∧ s.nick ≠ none ∧ s.username ≠ none ∧
      s.realname ≠ none ∧ s.password ≠ none ∧ s.saslUser ≠ none ∧ s.saslPass ≠ none ∧
      s.bindIp ≠ none ∧ s.encoding ≠ none ∧ s.autosendcmd ≠ none ∧ s.saslMechanism ≠ none ∧
      s.clientCertPath ≠ none ∧ True) := by
  refine (LawfulFrom.text ?_ <| .text ?_ <| .nat ?_ <| .bool ?_ <| .bool ?_ <| .bool ?_ <|
    .list ?_ listCode_splitCommas_settles <| .optText ?_ <| .optText ?_ <| .optText ?_ <|
    .optText ?_ <| .optText ?_ <| .optText ?_ <| .optText ?_ <| .optText ?_ <|
    .freeCoded (c := optCode boolCode) ServerConfig.autoReconnect
      (fun s v => { s with autoReconnect := v }) ?_ (fun _ => rfl) optCode_boolCode_map
      (optCode_settles boolCode_settles)
      (fun _ => (optCode_fixes_iff boolCode_fixes).mpr (fun _ w hw => nomatch hw)) <|
    .optNat ?_ <| .optNat ?_ <| .optText ?_ <| .optText ?_ <| .optText ?_ .nil).table
  all_goals exact ⟨⟨fun _ _ => rfl, fun _ => rfl, fun _ _ _ => rfl⟩, fun _ _ => rfl⟩

section Display

variable {F : Type} {b : Builtins F}

theorem lawful_display (hb : b.Lawful) : LawfulTable (displaySettings b) (fun _ => True) := by
  refine (LawfulFrom.nat ?_ <| .nat ?_ <| .choice ?_ (fun v => by cases v <;> rfl) <| .bool ?_ <|
    .bool ?_ <| .nat ?_ <| .nat ?_ <| .bool ?_ <| .bool ?_ <| .unit hb ?_ <| .unit hb ?_ <|
    .bool ?_ .nil).table
  all_goals exact ⟨⟨fun _ _ => rfl, fun _ => rfl, fun _ _ _ => rfl⟩, fun _ _ => rfl⟩

theorem lawful_spellcheck (hb : b.Lawful) : LawfulTable (spellcheckSettings b) (fun s =>
    CanonicalMode b s.mode ∧ splitCommas (joined s.languages) = s.languages ∧ True) := by
  refine (LawfulFrom.bool ?_ <| .bool ?_ <|
    .word ?_ (modeCode_settles hb) (fun _ => modeCode_fixes_iff) <|
    .list ?_ listCode_splitCommas_settles <| .text ?_ .nil).table
  all_goals exact ⟨⟨fun _ _ => rfl, fun _ => rfl, fun _ _ _ => rfl⟩, fun _ _ => rfl⟩

theorem lawful_web (hb : b.Lawful) : LawfulTable (webSettings b) (fun _ => True) := by
  refine (LawfulFrom.bool ?_ <| .text ?_ <| .nat ?_ <| .text ?_ <| .text ?_ <| .text ?_ <|
    .freeCoded (c := floatCode b) WebConfig.lineHeight (fun s v => { s with lineHeight := v }) ?_
      (fun _ => rfl) (fun _ _ => (floatCode_map _).symm) (floatCode_settles hb)
      (floatCode_fixes hb) <|
    .nat ?_ <| .nat ?_ <| .text ?_ <| .nat ?_ <| .text ?_ <| .bool ?_ <| .nat ?_ <| .nat ?_ <|
    .text ?_ <| .text ?_ .nil).table
  all_goals exact ⟨⟨fun _ _ => rfl, fun _ => rfl, fun _ _ _ => rfl⟩, fun _ _ => rfl⟩

end Display

end Settings

end Repartee.Config
