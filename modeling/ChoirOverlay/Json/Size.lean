-- SUMMARY: How long the compact text of a JSON value is.
import ChoirOverlay.Json.Text

/-!
# The length of a text

The length of what `dump` writes, from the lengths of the parts. How many bytes
a float takes is the library's affair and a parameter.
-/

namespace Choir

/-- The bytes of a string in quotes, escapes included. -/
def stringSize (s : Bytes) : Nat := 2 + (s.map fun b => (JsonText.escape b).length).sum

/-- A bracket, and what closes each of these items: a comma or the bracket. -/
def sequenceSize (items : List Nat) : Nat := 1 + max 1 (items.map (· + 1)).sum

def decimalSize (n : Int) : Nat := (toDecimal n).length

namespace Json

mutual
/-- The length of the compact text of a value. -/
def size (floatSize : JsonFloat → Nat) : Json → Nat
  | .null => 4
  | .bool b => if b then 4 else 5
  | .int n => decimalSize n
  | .float x => floatSize x
  | .str s => stringSize s
  | .arr xs => sequenceSize (sizes floatSize xs)
  | .obj entries => sequenceSize (memberSizes floatSize entries)

def sizes (floatSize : JsonFloat → Nat) : List Json → List Nat
  | [] => []
  | x :: xs => x.size floatSize :: sizes floatSize xs

def memberSizes (floatSize : JsonFloat → Nat) : List (Bytes × Json) → List Nat
  | [] => []
  | (k, v) :: rest => (stringSize k + 1 + v.size floatSize) :: memberSizes floatSize rest
end

theorem sizes_eq_map (floatSize : JsonFloat → Nat) (xs : List Json) :
    sizes floatSize xs = xs.map (size floatSize) := by
  induction xs with
  | nil => rfl
  | cons x xs ih => rw [sizes, ih, List.map_cons]

end Json

/-! ## Bounds -/

theorem length_escape (b : UInt8) :
    1 ≤ (JsonText.escape b).length ∧ (JsonText.escape b).length ≤ 6 := by
  unfold JsonText.escape
  split_ifs <;> simp

theorem le_stringSize (s : Bytes) : 2 + s.length ≤ stringSize s := by
  induction s with
  | nil => exact Nat.le_refl 2
  | cons b s ih =>
    have hb := (length_escape b).1
    simp only [stringSize, List.map_cons, List.sum_cons, List.length_cons] at ih ⊢
    omega

theorem stringSize_le (s : Bytes) : stringSize s ≤ 2 + 6 * s.length := by
  induction s with
  | nil => exact Nat.le_refl 2
  | cons b s ih =>
    have hb := (length_escape b).2
    simp only [stringSize, List.map_cons, List.sum_cons, List.length_cons] at ih ⊢
    omega

/-- A string without escapes. -/
theorem stringSize_plain {s : Bytes} (h : ∀ b ∈ s, JsonText.escape b = [b]) :
    stringSize s = 2 + s.length := by
  induction s with
  | nil => rfl
  | cons b s ih =>
    obtain ⟨hb, hrest⟩ := List.forall_mem_cons.mp h
    have ih := ih hrest
    simp only [stringSize, List.map_cons, List.sum_cons, List.length_cons, hb,
      List.length_nil] at ih ⊢
    omega

theorem decimalSize_le {n k : Nat} (hk : 0 < k) (h : n < 10 ^ k) : decimalSize n ≤ k := by
  show (natDecimal n).length ≤ k
  rw [natDecimal, List.length_map]
  exact (Nat.length_toDigits_le_iff (by decide) hk).mpr h

/-- The library writes compact texts. -/
structure JsonLib.Compact (lib : JsonLib) (floatSize : JsonFloat → Nat) : Prop where
  length_dump : ∀ j text, lib.dump j = some text → text.length = j.size floatSize

namespace JsonText

/-- The bytes of a float in the compact text of this development. -/
def floatSize (x : JsonFloat) : Nat := (text (.float x)).length

theorem length_chars (s : Bytes) : (chars s).length + 1 = stringSize s := by
  simp only [chars, stringSize, List.length_append, List.length_flatMap, List.length_singleton]
  omega

theorem sequenceSize_cons (n : Nat) (items : List Nat) :
    sequenceSize (n :: items) = 2 + n + (items.map (· + 1)).sum := by
  simp only [sequenceSize, List.map_cons, List.sum_cons]
  omega

mutual
theorem length_text : ∀ j : Json, (text j).length = j.size floatSize
  | .null => rfl
  | .bool b => by cases b <;> rfl
  | .int _ => rfl
  | .float _ => rfl
  | .str s => by
    rw [text, List.length_cons, length_chars]
    rfl
  | .arr [] => rfl
  | .obj [] => rfl
  | .arr (x :: xs) => by
    rw [text, List.length_cons, List.length_append, length_text x, length_elems xs, Json.size,
      Json.sizes, sequenceSize_cons]
    omega
  | .obj ((k, v) :: es) => by
    have hk := length_chars k
    rw [text, List.length_cons, List.length_cons, List.length_append, List.length_cons,
      List.length_append, length_text v, length_members es, Json.size, Json.memberSizes,
      sequenceSize_cons]
    omega

theorem length_elems : ∀ xs : List Json,
    (elems xs).length = 1 + ((Json.sizes floatSize xs).map (· + 1)).sum
  | [] => rfl
  | x :: xs => by
    rw [elems, List.length_cons, List.length_append, length_text x, length_elems xs, Json.sizes,
      List.map_cons, List.sum_cons]
    omega

theorem length_members : ∀ es : List (Bytes × Json),
    (members es).length = 1 + ((Json.memberSizes floatSize es).map (· + 1)).sum
  | [] => rfl
  | (k, v) :: es => by
    have hk := length_chars k
    rw [members, List.length_cons, List.length_cons, List.length_append, List.length_cons,
      List.length_append, length_text v, length_members es, Json.memberSizes, List.map_cons,
      List.sum_cons]
    omega
end

end JsonText

theorem compactJson_compact : compactJson.Compact JsonText.floatSize where
  length_dump j t h := by
    replace h : JsonText.dump j = some t := h
    unfold JsonText.dump at h
    split at h
    · rw [← Option.some.inj h, JsonText.length_text]
    · cases h

end Choir
