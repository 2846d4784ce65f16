-- SUMMARY: JSON values as `nlohmann::json` holds them, the defensive field readers, and what the code relies on of the library's text functions.
import ChoirOverlay.Base.Bytes
import ChoirOverlay.Json.Single
import Mathlib.Algebra.Ring.Int.Defs
import Mathlib.Algebra.Ring.Nat

/-!
# JSON values

The library itself is third-party code. Its values are modelled here, its text
functions `dump` and `parse` are the parameter `JsonLib`, which carries the
documented facts the code relies on.
-/

namespace Choir

/-- A `nlohmann::json` value. `int` is both `number_integer` and
    `number_unsigned`; an object lists its entries in the order of its
    `std::map`, by key. -/
inductive Json where
  | null
  | bool (b : Bool)
  | int (n : Int)
  | float (x : JsonFloat)
  | str (s : Bytes)
  | arr (xs : List Json)
  | obj (entries : List (Bytes × Json))
  deriving Repr

namespace Json

def isObject : Json → Bool
  | .obj _ => true
  | _ => false

/-- `find` and `contains`: the value at `key`, when the value is an object
    that has it. -/
def find? (key : String) : Json → Option Json
  | .obj entries => entries.lookup (ascii key)
  | _ => none

/-- `str_or`: a string field, `""` when it is missing or no string. -/
def strOr (j : Json) (key : String) : Bytes :=
  match j.find? key with
  | some (.str s) => s
  | _ => []

/-- `bool_or`: a Boolean field, `false` when it is missing or no Boolean. -/
def boolOr (j : Json) (key : String) : Bool :=
  match j.find? key with
  | some (.bool b) => b
  | _ => false

/-- `obj_or_empty`: an object field, the empty object when it is missing or no
    object. -/
def objOrEmpty (j : Json) (key : String) : Json :=
  match j.find? key with
  | some (.obj entries) => .obj entries
  | _ => .obj []

/-! ## What a text can carry -/

mutual
/-- Every string of the value is well-formed UTF-8. -/
def utf8 : Json → Bool
  | .str s => validUtf8 s
  | .arr xs => utf8List xs
  | .obj entries => utf8Entries entries
  | _ => true

def utf8List : List Json → Bool
  | [] => true
  | x :: xs => x.utf8 && utf8List xs

def utf8Entries : List (Bytes × Json) → Bool
  | [] => true
  | (k, v) :: rest => validUtf8 k && v.utf8 && utf8Entries rest
end

mutual
/-- The value survives a text: its integers fit the library's 64-bit types and
    its floats are those of `float` fields, each by the one decimal of its own. -/
def storable : Json → Bool
  | .int n => decide (-2 ^ 63 ≤ n ∧ n < 2 ^ 64)
  | .float x => decide (x ≠ .nonFinite ∧ x.narrow = x)
  | .arr xs => storableList xs
  | .obj entries => storableEntries entries
  | _ => true

def storableList : List Json → Bool
  | [] => true
  | x :: xs => x.storable && storableList xs

/-- Keys come in strictly increasing order, as a `std::map` yields them. -/
def storableEntries : List (Bytes × Json) → Bool
  | [] => true
  | (k, v) :: rest =>
    v.storable && (rest.head?.all fun e => decide (k < e.1)) && storableEntries rest
end

mutual
/-- The value with `null` for every non-finite number. -/
def nullNonFinite : Json → Json
  | .float .nonFinite => .null
  | .arr xs => .arr (nullNonFiniteList xs)
  | .obj entries => .obj (nullNonFiniteEntries entries)
  | j => j

def nullNonFiniteList : List Json → List Json
  | [] => []
  | x :: xs => x.nullNonFinite :: nullNonFiniteList xs

def nullNonFiniteEntries : List (Bytes × Json) → List (Bytes × Json)
  | [] => []
  | (k, v) :: rest => (k, v.nullNonFinite) :: nullNonFiniteEntries rest
end

theorem utf8List_eq_all (xs : List Json) : utf8List xs = xs.all utf8 := by
  induction xs with
  | nil => rfl
  | cons x xs ih => simp only [utf8List, ih, List.all_cons]

theorem storableList_eq_all (xs : List Json) : storableList xs = xs.all storable := by
  induction xs with
  | nil => rfl
  | cons x xs ih => simp only [storableList, ih, List.all_cons]

theorem nullNonFiniteList_eq_map (xs : List Json) :
    nullNonFiniteList xs = xs.map nullNonFinite := by
  induction xs with
  | nil => rfl
  | cons x xs ih => rw [nullNonFiniteList, ih, List.map_cons]

end Json

/-- The library's text functions. `dump` throws (`none`) exactly on a value
    with a string that is not UTF-8, and `parse` reads back what `dump` wrote. -/
structure JsonLib where
  dump : Json → Option Bytes
  parse : Bytes → Option Json
  dump_isSome : ∀ j, (dump j).isSome = j.utf8
  parse_dump : ∀ j text, j.storable → dump j = some text → parse text = some j

/-- What the documentation of the library adds: a text that parses is UTF-8
throughout, and a number that is none is written as `null`. -/
structure JsonLib.Documented (lib : JsonLib) : Prop where
  utf8_of_parse : ∀ text j, lib.parse text = some j → j.utf8 = true
  dump_nullNonFinite : ∀ j, lib.dump j.nullNonFinite = lib.dump j

namespace JsonLib

variable (lib : JsonLib)

theorem exists_dump {j : Json} (h : j.utf8 = true) : ∃ text, lib.dump j = some text :=
  Option.isSome_iff_exists.mp ((lib.dump_isSome j).trans h)

end JsonLib

end Choir
