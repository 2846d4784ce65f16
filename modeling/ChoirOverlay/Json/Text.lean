-- SUMMARY: Compact JSON text: what `dump` writes for a value, a parser of it, and the proof that the parser reads it back.
import ChoirOverlay.Json.Value
import Mathlib.Tactic.SplitIfs

/-!
# Compact JSON text

An instance of `JsonLib`: `dump` without indentation, and a recursive-descent
parser of such texts. The parser takes the length of the text as fuel, which
the round trip (`parseValue_text`) shows to be enough.
-/

namespace Choir

namespace JsonText

/-! ## Writing -/

def hexDigit (n : UInt8) : UInt8 := if n < 10 then 0x30 + n else 0x57 + n

/-- A byte of a string, with the escapes of `dump`. -/
def escape (b : UInt8) : Bytes :=
  if b = 0x22 then [0x5C, 0x22]
  else if b = 0x5C then [0x5C, 0x5C]
  else if b = 0x08 then [0x5C, 0x62]
  else if b = 0x09 then [0x5C, 0x74]
  else if b = 0x0A then [0x5C, 0x6E]
  else if b = 0x0C then [0x5C, 0x66]
  else if b = 0x0D then [0x5C, 0x72]
  else if b < 0x20 then [0x5C, 0x75, 0x30, 0x30, hexDigit (b / 16), hexDigit (b % 16)]
  else [b]

/-- A string from its first byte on, with the closing quote. -/
def chars (s : Bytes) : Bytes := s.flatMap escape ++ [0x22]

mutual
def text : Json → Bytes
  | .null => ascii "null"
  | .bool true => ascii "true"
  | .bool false => ascii "false"
  | .int n => toDecimal n
  | .float (.finite m e) => toDecimal m ++ 0x65 :: toDecimal e
  | .float .nonFinite => ascii "null"
  | .str s => 0x22 :: chars s
  | .arr [] => [0x5B, 0x5D]
  | .arr (x :: xs) => 0x5B :: (text x ++ elems xs)
  | .obj [] => [0x7B, 0x7D]
  | .obj ((k, v) :: es) => 0x7B :: 0x22 :: (chars k ++ 0x3A :: (text v ++ members es))

/-- What follows an element. -/
def elems : List Json → Bytes
  | [] => [0x5D]
  | x :: xs => 0x2C :: (text x ++ elems xs)

/-- What follows a member. -/
def members : List (Bytes × Json) → Bytes
  | [] => [0x7D]
  | (k, v) :: es => 0x2C :: 0x22 :: (chars k ++ 0x3A :: (text v ++ members es))
end

/-! ## Reading -/

def unhex (b : UInt8) : UInt8 := if b < 0x3A then b - 0x30 else b - 0x57

/-- The byte a two-character escape stands for. -/
def unescape (e : UInt8) : Option UInt8 :=
  if e = 0x22 then some 0x22
  else if e = 0x5C then some 0x5C
  else if e = 0x2F then some 0x2F
  else if e = 0x62 then some 0x08
  else if e = 0x74 then some 0x09
  else if e = 0x6E then some 0x0A
  else if e = 0x66 then some 0x0C
  else if e = 0x72 then some 0x0D
  else none

/-- A string from its first byte on, and what follows its closing quote. -/
def parseChars : Bytes → Option (Bytes × Bytes)
  | [] => none
  | b :: rest =>
    if b = 0x22 then some ([], rest)
    else if b = 0x5C then
      match rest with
      | [] => none
      | e :: rest =>
        match unescape e with
        | some c => (parseChars rest).map fun r => (c :: r.1, r.2)
        | none =>
          match rest with
          | z₀ :: z₁ :: hi :: lo :: rest =>
            if e = 0x75 ∧ z₀ = 0x30 ∧ z₁ = 0x30 then
              (parseChars rest).map fun r => ((unhex hi * 16 + unhex lo) :: r.1, r.2)
            else none
          | _ => none
    else if b < 0x20 then none
    else (parseChars rest).map fun r => (b :: r.1, r.2)

def parseNat (bs : Bytes) : Option (Nat × Bytes) :=
  if bs.takeWhile isDigit = [] then none
  else some (ofDecimal (bs.takeWhile isDigit), bs.dropWhile isDigit)

def parseInt : Bytes → Option (Int × Bytes)
  | [] => none
  | b :: rest =>
    if b = 0x2D then (parseNat rest).map fun r => (-(r.1 : Int), r.2)
    else (parseNat (b :: rest)).map fun r => ((r.1 : Int), r.2)

def parseNumber (bs : Bytes) : Option (Json × Bytes) :=
  match parseInt bs with
  | none => none
  | some (m, []) => some (.int m, [])
  | some (m, b :: rest) =>
    if b = 0x65 then (parseInt rest).map fun r => (.float (.finite m r.1), r.2)
    else some (.int m, b :: rest)

def parseWord (word : String) (j : Json) (bs : Bytes) : Option (Json × Bytes) :=
  if (ascii word).isPrefixOf bs then some (j, bs.drop (ascii word).length) else none

mutual
def parseValue : Nat → Bytes → Option (Json × Bytes)
  | 0, _ => none
  | _ + 1, [] => none
  | fuel + 1, b :: rest =>
    if b = 0x22 then (parseChars rest).map fun r => (.str r.1, r.2)
    else if b = 0x5B then
      if rest.head? = some 0x5D then some (.arr [], rest.tail)
      else (parseElems fuel rest).map fun r => (.arr r.1, r.2)
    else if b = 0x7B then
      if rest.head? = some 0x7D then some (.obj [], rest.tail)
      else (parseMembers fuel rest).map fun r => (.obj r.1, r.2)
    else if b = 0x6E then parseWord "null" .null (b :: rest)
    else if b = 0x74 then parseWord "true" (.bool true) (b :: rest)
    else if b = 0x66 then parseWord "false" (.bool false) (b :: rest)
    else parseNumber (b :: rest)

/-- Elements up to the closing bracket, at least one. -/
def parseElems : Nat → Bytes → Option (List Json × Bytes)
  | 0, _ => none
  | fuel + 1, bs =>
    match parseValue fuel bs with
    | some (x, b :: rest) =>
      if b = 0x2C then (parseElems fuel rest).map fun r => (x :: r.1, r.2)
      else if b = 0x5D then some ([x], rest)
      else none
    | _ => none

/-- Members up to the closing brace, at least one. -/
def parseMembers : Nat → Bytes → Option (List (Bytes × Json) × Bytes)
  | 0, _ => none
  | _ + 1, [] => none
  | fuel + 1, q :: bs =>
    if q = 0x22 then
      match parseChars bs with
      | some (k, c :: bs) =>
        if c = 0x3A then
          match parseValue fuel bs with
          | some (v, b :: rest) =>
            if b = 0x2C then (parseMembers fuel rest).map fun r => ((k, v) :: r.1, r.2)
            else if b = 0x7D then some ([(k, v)], rest)
            else none
          | _ => none
        else none
      | _ => none
    else none
end

def parse (bs : Bytes) : Option Json :=
  match parseValue bs.length bs with
  | some (j, []) => if j.utf8 then some j else none
  | _ => none

def dump (j : Json) : Option Bytes := if j.utf8 then some (text j) else none

/-! ## Reading back what was written -/

private theorem unhex_hexDigit {b : UInt8} (h : b < 0x20) :
    unhex (hexDigit (b / 16)) * 16 + unhex (hexDigit (b % 16)) = b := by
  have hall : ∀ n : Fin 32, unhex (hexDigit (UInt8.ofNat n / 16)) * 16 +
      unhex (hexDigit (UInt8.ofNat n % 16)) = UInt8.ofNat n := by decide
  have hlt : b.toNat < 32 := UInt8.lt_iff_toNat_lt.mp h
  have := hall ⟨b.toNat, hlt⟩
  simpa using this

theorem parseChars_escape (b : UInt8) (rest : Bytes) :
    parseChars (escape b ++ rest) = (parseChars rest).map fun r => (b :: r.1, r.2) := by
  unfold escape
  split_ifs with h₁ h₂ h₃ h₄ h₅ h₆ h₇ h₈
  · subst h₁; rfl
  · subst h₂; rfl
  · subst h₃; rfl
  · subst h₄; rfl
  · subst h₅; rfl
  · subst h₆; rfl
  · subst h₇; rfl
  · have hu : unescape 0x75 = none := by decide
    simp only [List.cons_append, List.nil_append, parseChars, hu, unhex_hexDigit h₈, and_self,
      if_true]
    rfl
  · rw [List.cons_append, List.nil_append, parseChars.eq_def]
    simp only [if_neg h₁, if_neg h₂, if_neg h₈]

/-- A string is read back up to its closing quote. -/
theorem parseChars_chars (s rest : Bytes) : parseChars (chars s ++ rest) = some (s, rest) := by
  unfold chars
  induction s with
  | nil =>
    rw [List.flatMap_nil, List.nil_append, List.cons_append, parseChars.eq_def]
    rfl
  | cons b s ih =>
    simp only [List.flatMap_cons, List.append_assoc] at ih ⊢
    rw [parseChars_escape, ih]
    rfl

/-- No number continues with the byte. -/
def Ends (rest : Bytes) : Prop := ∀ b ∈ rest.head?, isDigit b = false ∧ b ≠ 0x65

theorem parseNat_natDecimal (n : Nat) {rest : Bytes} (h : ∀ b ∈ rest.head?, isDigit b = false) :
    parseNat (natDecimal n ++ rest) = some (n, rest) := by
  have hdigits : ∀ b ∈ natDecimal n, isDigit b = true := fun _ => isDigit_of_mem_natDecimal
  have hrest : rest.takeWhile isDigit = [] ∧ rest.dropWhile isDigit = rest := by
    cases rest with
    | nil => exact ⟨rfl, rfl⟩
    | cons b rest =>
      have hb : isDigit b = false := h b rfl
      simp [hb]
  have htake : (natDecimal n ++ rest).takeWhile isDigit = natDecimal n := by
    rw [List.takeWhile_append_of_pos hdigits, hrest.1, List.append_nil]
  have hdrop : (natDecimal n ++ rest).dropWhile isDigit = rest := by
    rw [List.dropWhile_append_of_pos hdigits, hrest.2]
  rw [parseNat, htake, hdrop, if_neg (natDecimal_ne_nil n), ofDecimal_natDecimal]

/-- A decimal starts with a digit or a minus sign. -/
theorem toDecimal_cons (n : Int) :
    ∃ b ds, toDecimal n = b :: ds ∧ (b = 0x2D ∨ isDigit b = true) := by
  cases n with
  | ofNat n =>
    cases hn : natDecimal n with
    | nil => exact absurd hn (natDecimal_ne_nil n)
    | cons b ds =>
      exact ⟨b, ds, hn,
        .inr (isDigit_of_mem_natDecimal (n := n) (by rw [hn]; exact List.mem_cons_self))⟩
  | negSucc n => exact ⟨0x2D, _, rfl, .inl rfl⟩

theorem parseInt_toDecimal (n : Int) {rest : Bytes} (h : ∀ b ∈ rest.head?, isDigit b = false) :
    parseInt (toDecimal n ++ rest) = some (n, rest) := by
  cases n with
  | ofNat n =>
    obtain ⟨b, ds, hn, hb⟩ := toDecimal_cons (.ofNat n)
    have hdigit : isDigit b = true :=
      isDigit_of_mem_natDecimal (n := n)
        (by rw [show natDecimal n = b :: ds from hn]; exact List.mem_cons_self)
    have hne : b ≠ 0x2D := by
      rintro rfl
      exact absurd hdigit (by decide)
    have hparse : parseNat (toDecimal (.ofNat n) ++ rest) = some (n, rest) :=
      parseNat_natDecimal n h
    rw [hn, List.cons_append] at hparse ⊢
    rw [parseInt, if_neg hne, hparse]
    rfl
  | negSucc n =>
    rw [toDecimal, List.cons_append, parseInt, if_pos rfl, parseNat_natDecimal (n + 1) h]
    rfl

private theorem ends_exponent (rest : Bytes) :
    ∀ b ∈ (0x65 :: rest : Bytes).head?, isDigit b = false := by
  intro b hb
  simp only [List.head?_cons, Option.mem_def, Option.some.injEq] at hb
  subst hb
  decide

theorem Ends.digit {rest : Bytes} (h : Ends rest) : ∀ b ∈ rest.head?, isDigit b = false :=
  fun b hb => (h b hb).1

theorem parseNumber_int (n : Int) {rest : Bytes} (h : Ends rest) :
    parseNumber (toDecimal n ++ rest) = some (.int n, rest) := by
  rw [parseNumber, parseInt_toDecimal n h.digit]
  cases rest with
  | nil => rfl
  | cons b rest =>
    have hb : b ≠ 0x65 := (h b rfl).2
    simp only [if_neg hb]

theorem parseNumber_float (m e : Int) {rest : Bytes} (h : Ends rest) :
    parseNumber (toDecimal m ++ 0x65 :: (toDecimal e ++ rest)) =
      some (.float (.finite m e), rest) := by
  rw [parseNumber, parseInt_toDecimal m (ends_exponent _)]
  simp only [if_true, parseInt_toDecimal e h.digit]
  rfl

/-- A text that starts like a number is read as a number. -/
private theorem parseValue_number {fuel : Nat} {b : UInt8} {bs : Bytes}
    (hb : b = 0x2D ∨ isDigit b = true) :
    parseValue (fuel + 1) (b :: bs) = parseNumber (b :: bs) := by
  have hne : ∀ c : UInt8, c ≠ 0x2D → isDigit c = false → b ≠ c := by
    rintro c hc hd rfl
    rcases hb with rfl | hb
    · exact hc rfl
    · rw [hd] at hb
      cases hb
  rw [parseValue]
  rw [if_neg (hne 0x22 (by decide) (by decide)), if_neg (hne 0x5B (by decide) (by decide)),
    if_neg (hne 0x7B (by decide) (by decide)), if_neg (hne 0x6E (by decide) (by decide)),
    if_neg (hne 0x74 (by decide) (by decide)), if_neg (hne 0x66 (by decide) (by decide))]

theorem text_ne_nil (j : Json) : text j ≠ [] := by
  cases j with
  | null => decide
  | bool b => cases b <;> decide
  | int n =>
    obtain ⟨b, ds, hn, -⟩ := toDecimal_cons n
    simp [text, hn]
  | float x => cases x <;> simp [text, show ascii "null" ≠ [] by decide]
  | str s => simp [text]
  | arr xs => cases xs <;> simp [text]
  | obj es => rcases es with _ | ⟨⟨k, v⟩, es⟩ <;> simp [text]

private theorem ends_elems (xs : List Json) (rest : Bytes) : Ends (elems xs ++ rest) := by
  intro b hb
  cases xs <;> simp only [elems, List.cons_append, List.head?_cons, Option.mem_def,
    Option.some.injEq] at hb <;> subst hb <;> decide

private theorem ends_members (es : List (Bytes × Json)) (rest : Bytes) :
    Ends (members es ++ rest) := by
  intro b hb
  rcases es with _ | ⟨⟨k, v⟩, es⟩ <;> simp only [members, List.cons_append, List.head?_cons,
    Option.mem_def, Option.some.injEq] at hb <;> subst hb <;> decide

/-- No value starts with a closing bracket. -/
private theorem head?_text (j : Json) (rest : Bytes) : (text j ++ rest).head? ≠ some 0x5D := by
  have hdec : ∀ (n : Int) (tail : Bytes), (toDecimal n ++ tail).head? ≠ some 0x5D := by
    intro n tail heq
    obtain ⟨b, ds, hn, hb⟩ := toDecimal_cons n
    simp only [hn, List.cons_append, List.head?_cons, Option.some.injEq] at heq
    subst heq
    revert hb
    decide
  have hword : ∀ w : Bytes, w.head? ≠ some 0x5D → w ≠ [] → (w ++ rest).head? ≠ some 0x5D := by
    intro w hw hne
    cases w with
    | nil => exact absurd rfl hne
    | cons b w => exact hw
  cases j with
  | null => exact hword _ (by decide) (by decide)
  | bool b => cases b <;> exact hword _ (by decide) (by decide)
  | int n => exact hdec n rest
  | float x =>
    cases x with
    | finite m e =>
      rw [text, List.append_assoc]
      exact hdec m _
    | nonFinite => exact hword _ (by decide) (by decide)
  | str s => simp [text]
  | arr xs => cases xs <;> simp [text]
  | obj es => rcases es with _ | ⟨⟨k, v⟩, es⟩ <;> simp [text]

/-- With this much fuel the text of a value is read as the value. -/
private def ParsesValue (fuel : Nat) : Prop :=
  ∀ (j : Json) (rest : Bytes), j.storable → (text j).length ≤ fuel → Ends rest →
    parseValue fuel (text j ++ rest) = some (j, rest)

private def ParsesElems (fuel : Nat) : Prop :=
  ∀ (x : Json) (xs : List Json) (rest : Bytes), Json.storableList (x :: xs) →
    (text x ++ elems xs).length ≤ fuel →
    parseElems fuel (text x ++ (elems xs ++ rest)) = some (x :: xs, rest)

private def ParsesMembers (fuel : Nat) : Prop :=
  ∀ (k : Bytes) (v : Json) (es : List (Bytes × Json)) (rest : Bytes),
    Json.storableEntries ((k, v) :: es) → (text v ++ members es).length ≤ fuel →
    parseMembers fuel (0x22 :: (chars k ++ 0x3A :: (text v ++ (members es ++ rest)))) =
      some ((k, v) :: es, rest)

private theorem text_pos (j : Json) : 1 ≤ (text j).length := List.length_pos_iff.mpr (text_ne_nil j)

private theorem parsesValue_succ {fuel : Nat} (ihe : ParsesElems fuel) (ihm : ParsesMembers fuel) :
    ParsesValue (fuel + 1) := by
  intro j rest hj hlen hrest
  cases j with
  | null => rfl
  | bool b => cases b <;> rfl
  | int n =>
    obtain ⟨b, ds, hn, hb⟩ := toDecimal_cons n
    have := parseNumber_int n hrest
    simp only [text, hn, List.cons_append] at this ⊢
    rw [parseValue_number hb, this]
  | float x =>
    cases x with
    | finite m e =>
      obtain ⟨b, ds, hn, hb⟩ := toDecimal_cons m
      have := parseNumber_float m e hrest
      simp only [text, hn, List.cons_append, List.append_assoc] at this ⊢
      rw [parseValue_number hb, this]
    | nonFinite => simp [Json.storable] at hj
  | str s =>
    rw [text, List.cons_append, parseValue, if_pos rfl, parseChars_chars]
    rfl
  | arr xs =>
    cases xs with
    | nil => rfl
    | cons x xs =>
      simp only [text, List.length_cons] at hlen
      rw [text, List.cons_append, parseValue, if_neg (by decide), if_pos rfl, List.append_assoc,
        if_neg (head?_text x _), ihe x xs rest (by simpa [Json.storable] using hj) (by omega)]
      rfl
  | obj es =>
    rcases es with _ | ⟨⟨k, v⟩, es⟩
    · rfl
    · simp only [text, List.length_cons, List.length_append] at hlen
      have hm := ihm k v es rest (by simpa [Json.storable] using hj)
        (by rw [List.length_append]; omega)
      rw [text, List.cons_append, parseValue, if_neg (by decide), if_neg (by decide),
        if_pos rfl, List.cons_append, List.head?_cons, if_neg (by decide), List.append_assoc,
        List.cons_append, List.append_assoc, hm]
      rfl

private theorem parsesElems_succ {fuel : Nat} (ihv : ParsesValue fuel) (ihe : ParsesElems fuel) :
    ParsesElems (fuel + 1) := by
  intro x xs rest hxs hlen
  simp only [Json.storableList, Bool.and_eq_true] at hxs
  rw [List.length_append] at hlen
  cases xs with
  | nil =>
    simp only [elems, List.length_singleton] at hlen
    rw [parseElems, ihv x _ hxs.1 (by omega) (ends_elems [] rest)]
    rfl
  | cons y ys =>
    simp only [elems, List.length_cons, List.length_append] at hlen
    have hx := text_pos x
    have hy := ihe y ys rest (by simpa [Json.storableList] using hxs.2)
      (by rw [List.length_append]; omega)
    rw [parseElems, ihv x _ hxs.1 (by omega) (ends_elems (y :: ys) rest)]
    simp only [elems, List.cons_append, List.append_assoc, if_true, hy]
    rfl

private theorem parsesMembers_succ {fuel : Nat} (ihv : ParsesValue fuel)
    (ihm : ParsesMembers fuel) : ParsesMembers (fuel + 1) := by
  intro k v es rest hes hlen
  have hv : v.storable := by
    simp only [Json.storableEntries, Bool.and_eq_true] at hes
    exact hes.1.1
  rw [List.length_append] at hlen
  rw [parseMembers, if_pos rfl, parseChars_chars]
  simp only [if_true]
  rcases es with _ | ⟨⟨k', v'⟩, es⟩
  · simp only [members, List.length_singleton] at hlen
    rw [ihv v _ hv (by omega) (ends_members [] rest)]
    rfl
  · simp only [members, List.length_cons, List.length_append] at hlen
    have hv' := text_pos v
    have hes' : Json.storableEntries ((k', v') :: es) = true := by
      simp only [Json.storableEntries, Bool.and_eq_true] at hes
      simpa [Json.storableEntries] using hes.2
    have hrest := ihm k' v' es rest hes' (by rw [List.length_append]; omega)
    rw [ihv v _ hv (by omega) (ends_members _ rest)]
    simp only [members, List.cons_append, List.append_assoc, if_true, hrest]
    rfl

/-- By induction on the fuel, for values, elements and members together. -/
private theorem parses (fuel : Nat) : ParsesValue fuel ∧ ParsesElems fuel ∧ ParsesMembers fuel := by
  induction fuel with
  | zero =>
    refine ⟨fun j rest _ hlen => ?_, fun x xs rest _ hlen => ?_, fun k v es rest _ hlen => ?_⟩
    · exact absurd hlen (Nat.not_le.mpr (text_pos j))
    · have hx := text_pos x
      rw [List.length_append] at hlen
      omega
    · have hv := text_pos v
      rw [List.length_append] at hlen
      omega
  | succ fuel ih =>
    obtain ⟨ihv, ihe, ihm⟩ := ih
    exact ⟨parsesValue_succ ihe ihm, parsesElems_succ ihv ihe, parsesMembers_succ ihv ihm⟩

theorem parseValue_text (fuel : Nat) (j : Json) (rest : Bytes) (hj : j.storable)
    (hlen : (text j).length ≤ fuel) (hrest : Ends rest) :
    parseValue fuel (text j ++ rest) = some (j, rest) := (parses fuel).1 j rest hj hlen hrest

end JsonText

open JsonText in
/-- Compact JSON text. -/
def compactJson : JsonLib where
  dump := dump
  parse := parse
  dump_isSome j := by unfold dump; cases j.utf8 <;> rfl
  parse_dump j t hj ht := by
    unfold dump at ht
    split at ht
    · rename_i hutf
      obtain rfl : text j = t := by simpa using ht
      have hread := parseValue_text (text j).length j [] hj (Nat.le_refl _) (by simp [Ends])
      rw [List.append_nil] at hread
      simp only [parse, hread, hutf, if_true]
    · cases ht

namespace JsonText

mutual
theorem utf8_nullNonFinite : ∀ j : Json, j.nullNonFinite.utf8 = j.utf8
  | .null | .bool _ | .int _ | .str _ | .float (.finite ..) | .float .nonFinite => rfl
  | .arr xs => utf8List_nullNonFinite xs
  | .obj es => utf8Entries_nullNonFinite es

theorem utf8List_nullNonFinite : ∀ xs : List Json,
    Json.utf8List (Json.nullNonFiniteList xs) = Json.utf8List xs
  | [] => rfl
  | x :: xs => by
    rw [Json.nullNonFiniteList, Json.utf8List, Json.utf8List, utf8_nullNonFinite x,
      utf8List_nullNonFinite xs]

theorem utf8Entries_nullNonFinite : ∀ es : List (Bytes × Json),
    Json.utf8Entries (Json.nullNonFiniteEntries es) = Json.utf8Entries es
  | [] => rfl
  | (k, v) :: es => by
    rw [Json.nullNonFiniteEntries, Json.utf8Entries, Json.utf8Entries, utf8_nullNonFinite v,
      utf8Entries_nullNonFinite es]
end

mutual
theorem text_nullNonFinite : ∀ j : Json, text j.nullNonFinite = text j
  | .null | .bool _ | .int _ | .str _ | .float (.finite ..) | .float .nonFinite => rfl
  | .arr [] | .obj [] => rfl
  | .arr (x :: xs) => by
    rw [Json.nullNonFinite, Json.nullNonFiniteList, text, text, text_nullNonFinite x,
      elems_nullNonFinite xs]
  | .obj ((k, v) :: es) => by
    rw [Json.nullNonFinite, Json.nullNonFiniteEntries, text, text, text_nullNonFinite v,
      members_nullNonFinite es]

theorem elems_nullNonFinite : ∀ xs : List Json, elems (Json.nullNonFiniteList xs) = elems xs
  | [] => rfl
  | x :: xs => by
    rw [Json.nullNonFiniteList, elems, elems, text_nullNonFinite x, elems_nullNonFinite xs]

theorem members_nullNonFinite : ∀ es : List (Bytes × Json),
    members (Json.nullNonFiniteEntries es) = members es
  | [] => rfl
  | (k, v) :: es => by
    rw [Json.nullNonFiniteEntries, members, members, text_nullNonFinite v,
      members_nullNonFinite es]
end

end JsonText

theorem compactJson_documented : compactJson.Documented where
  utf8_of_parse text j h := by
    replace h : JsonText.parse text = some j := h
    unfold JsonText.parse at h
    grind
  dump_nullNonFinite j := by
    show JsonText.dump j.nullNonFinite = JsonText.dump j
    rw [JsonText.dump, JsonText.dump, JsonText.utf8_nullNonFinite, JsonText.text_nullNonFinite]

end Choir
