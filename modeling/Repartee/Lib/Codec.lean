import Mathlib.Data.List.Basic

/-!
# Self-delimiting texts

A `Codec α` writes a value as a text from whose end the next value can be read on. Codecs compose:
the fields of a record are written one after the other.

## Main definitions

- `Codec`: a writer and the reader that inverts it
- `Codec.prod`, `Codec.list`, `Codec.option`, `Codec.map`: composition
- `Codec.parse`: a text that is one value
-/

set_option autoImplicit false

universe u v

/-- A writer of values, and a reader that takes a value off the front of a text. -/
structure Codec (α : Type u) where
  write : α → List Char
  read : List Char → Option (α × List Char)
  read_write : ∀ a rest, read (write a ++ rest) = some (a, rest)

namespace Codec

variable {α : Type u} {β : Type v}

def char : Codec Char where
  write c := [c]
  read
    | [] => none
    | c :: rest => some (c, rest)
  read_write _ _ := rfl

def bool : Codec Bool where
  write b := [if b then '1' else '0']
  read
    | '1' :: rest => some (true, rest)
    | '0' :: rest => some (false, rest)
    | _ => none
  read_write b _ := by cases b <;> rfl

/-- A pair, its first component first. -/
def prod (c : Codec α) (d : Codec β) : Codec (α × β) where
  write p := c.write p.1 ++ d.write p.2
  read s := (c.read s).bind (fun r => (d.read r.2).map (fun q => ((r.1, q.1), q.2)))
  read_write p rest := by
    rw [List.append_assoc, c.read_write, Option.bind_some, d.read_write]
    rfl

/-- A type whose values are images under `f`. -/
def map (c : Codec α) (f : α → β) (g : β → α) (h : ∀ b, f (g b) = b) : Codec β where
  write b := c.write (g b)
  read s := (c.read s).map (fun r => (f r.1, r.2))
  read_write b rest := by
    rw [c.read_write, Option.map_some, h]

def option (c : Codec α) : Codec (Option α) where
  write
    | none => ['0']
    | some a => '1' :: c.write a
  read
    | '0' :: rest => some (none, rest)
    | '1' :: rest => (c.read rest).map (fun r => (some r.1, r.2))
    | _ => none
  read_write a rest := by
    cases a with
    | none => rfl
    | some a =>
      show (c.read (c.write a ++ rest)).map _ = _
      rw [c.read_write]
      rfl

/-! ### Sequences -/

/-- A list, each element after a mark. -/
def writeList (c : Codec α) : List α → List Char
  | [] => ['0']
  | a :: l => '1' :: (c.write a ++ writeList c l)

/-- Read a list of fewer than `fuel` elements. -/
def readList (c : Codec α) : (fuel : Nat) → List Char → Option (List α × List Char)
  | 0, _ => none
  | _ + 1, '0' :: rest => some ([], rest)
  | fuel + 1, '1' :: rest =>
    (c.read rest).bind (fun r => (readList c fuel r.2).map (fun q => (r.1 :: q.1, q.2)))
  | _ + 1, _ => none

theorem readList_writeList (c : Codec α) (l : List α) (rest : List Char) {fuel : Nat}
    (hfuel : l.length < fuel) : readList c fuel (writeList c l ++ rest) = some (l, rest) := by
  induction l generalizing fuel with
  | nil =>
    obtain ⟨fuel, rfl⟩ := Nat.exists_eq_succ_of_ne_zero (Nat.ne_of_gt hfuel)
    rfl
  | cons a l ih =>
    rw [List.length_cons] at hfuel
    obtain ⟨fuel, rfl⟩ := Nat.exists_eq_succ_of_ne_zero (Nat.ne_of_gt (Nat.zero_lt_of_lt hfuel))
    show (c.read (c.write a ++ writeList c l ++ rest)).bind _ = _
    rw [List.append_assoc, c.read_write, Option.bind_some, ih (Nat.lt_of_succ_lt_succ hfuel)]
    rfl

theorem length_lt_length_writeList (c : Codec α) (l : List α) :
    l.length < (writeList c l).length := by
  induction l with
  | nil => exact Nat.one_pos
  | cons a l ih =>
    rw [writeList, List.length_cons, List.length_cons, List.length_append]
    omega

/-- A list of any length. -/
def list (c : Codec α) : Codec (List α) where
  write := writeList c
  read s := readList c s.length s
  read_write l rest := by
    apply readList_writeList
    have hl := length_lt_length_writeList c l
    rw [List.length_append]
    omega

def text : Codec (List Char) := list char

/-- A number, as so many marks. -/
def nat : Codec Nat :=
  (list (char.map (fun _ => ()) (fun _ => '|') (fun _ => rfl))).map List.length
    (fun n => List.replicate n ()) (fun _ => List.length_replicate)

/-- A number with a sign. -/
def int : Codec Int :=
  (bool.prod nat).map (fun p => if p.1 then Int.negSucc p.2 else Int.ofNat p.2)
    (fun i => match i with | .ofNat n => (false, n) | .negSucc n => (true, n))
    (fun i => by cases i <;> rfl)

/-! ### Whole texts -/

/-- The value that a text is. -/
def parse (c : Codec α) (s : List Char) : Option α :=
  match c.read s with
  | some (a, []) => some a
  | _ => none

theorem parse_write (c : Codec α) (a : α) : c.parse (c.write a) = some a := by
  have h := c.read_write a []
  rw [List.append_nil] at h
  rw [parse, h]

end Codec
