-- SUMMARY: Byte strings as the C++ code holds them: source literals, little-endian words and the UTF-8 check.

/-! # Byte strings -/

namespace Choir

/-- A `std::string` or a `std::vector<uint8_t>`: any bytes. -/
abbrev Bytes := List UInt8

/-- The bytes of an ASCII literal of the source. -/
def ascii (s : String) : Bytes := s.toList.map fun c => UInt8.ofNat c.toNat

/-! ## Decimal numbers -/

/-- The decimal digits of a natural number. -/
def natDecimal (n : Nat) : Bytes := (Nat.toDigits 10 n).map fun c => UInt8.ofNat c.toNat

/-- `std::to_string` of an integer. -/
def toDecimal : Int → Bytes
  | .ofNat n => natDecimal n
  | .negSucc n => 0x2D :: natDecimal (n + 1)

/-- `0` to `9`. -/
def isDigit (b : UInt8) : Bool := 0x30 ≤ b && b ≤ 0x39

/-- The number decimal digits spell. -/
def ofDecimal (digits : Bytes) : Nat :=
  Nat.ofDigitChars 10 (digits.map fun b => Char.ofNat b.toNat) 0

/-- A digit character is an ASCII byte. -/
private theorem digit_toNat {c : Char} (h : c.isDigit) : 0x30 ≤ c.toNat ∧ c.toNat ≤ 0x39 := by
  simp only [Char.isDigit, Bool.and_eq_true, decide_eq_true_eq] at h
  exact ⟨UInt32.le_iff_toNat_le.mp h.1, UInt32.le_iff_toNat_le.mp h.2⟩

theorem isDigit_of_mem_natDecimal {n : Nat} {b : UInt8} (h : b ∈ natDecimal n) :
    isDigit b = true := by
  simp only [natDecimal, List.mem_map] at h
  obtain ⟨c, hc, rfl⟩ := h
  have hd := digit_toNat (Nat.isDigit_of_mem_toDigits (by omega) (by omega) hc)
  simp only [isDigit, Bool.and_eq_true, decide_eq_true_eq, UInt8.le_iff_toNat_le,
    UInt8.toNat_ofNat']
  exact ⟨by simp; omega, by simp; omega⟩

theorem natDecimal_ne_nil (n : Nat) : natDecimal n ≠ [] := by
  simp [natDecimal, Nat.toDigits_ne_nil]

theorem ofDecimal_natDecimal (n : Nat) : ofDecimal (natDecimal n) = n := by
  have hback : (natDecimal n).map (fun b => Char.ofNat b.toNat) = Nat.toDigits 10 n := by
    rw [natDecimal, List.map_map]
    refine (List.map_congr_left fun c hc => ?_).trans (List.map_id _)
    have hd := digit_toNat (Nat.isDigit_of_mem_toDigits (by omega) (by omega) hc)
    simp only [Function.comp_apply, UInt8.toNat_ofNat', id_eq]
    rw [Nat.mod_eq_of_lt (by omega), Char.ofNat_toNat]
  rw [ofDecimal, hback, Nat.ofDigitChars_toDigits (by omega) (by omega)]

/-! ## Little-endian words -/

/-- The four bytes of a 32-bit word, least significant first. -/
def le32 (n : Nat) : Bytes :=
  [UInt8.ofNat n, UInt8.ofNat (n / 0x100), UInt8.ofNat (n / 0x10000), UInt8.ofNat (n / 0x1000000)]

/-- The unsigned word four bytes spell, least significant first. -/
def readLe32 (b₀ b₁ b₂ b₃ : UInt8) : Nat :=
  b₀.toNat + b₁.toNat * 0x100 + b₂.toNat * 0x10000 + b₃.toNat * 0x1000000

@[simp] theorem length_le32 (n : Nat) : (le32 n).length = 4 := rfl

theorem readLe32_le32 {n : Nat} (h : n < 0x100000000) :
    readLe32 (UInt8.ofNat n) (UInt8.ofNat (n / 0x100)) (UInt8.ofNat (n / 0x10000))
      (UInt8.ofNat (n / 0x1000000)) = n := by
  simp only [readLe32, UInt8.toNat_ofNat']
  omega

theorem le32_readLe32 (b₀ b₁ b₂ b₃ : UInt8) : le32 (readLe32 b₀ b₁ b₂ b₃) = [b₀, b₁, b₂, b₃] := by
  have h₀ := b₀.toNat_lt
  have h₁ := b₁.toNat_lt
  have h₂ := b₂.toNat_lt
  have h₃ := b₃.toNat_lt
  simp only [le32, readLe32, List.cons.injEq, ← UInt8.toNat_inj, UInt8.toNat_ofNat']
  refine ⟨?_, ?_, ?_, ?_, trivial⟩ <;> omega

theorem readLe32_lt (b₀ b₁ b₂ b₃ : UInt8) : readLe32 b₀ b₁ b₂ b₃ < 0x100000000 := by
  have h₀ := b₀.toNat_lt
  have h₁ := b₁.toNat_lt
  have h₂ := b₂.toNat_lt
  have h₃ := b₃.toNat_lt
  rw [readLe32]
  omega

/-! ## Reads -/

/-- What one `read` returns; no data is the end of the stream. -/
inductive ReadResult where
  | data (bytes : Bytes)
  | interrupted
  | wouldBlock
  | error

/-- The bytes of a read. -/
def ReadResult.bytes : ReadResult → Bytes
  | .data bytes => bytes
  | .interrupted | .wouldBlock | .error => []

/-- The end of the stream. -/
def ReadResult.atEnd : ReadResult → Bool
  | .data bytes => bytes.isEmpty
  | .interrupted | .wouldBlock | .error => false

/-! ## UTF-8

The check `nlohmann::json::dump` makes on every string: the automaton of
well-formed UTF-8, without overlong forms, surrogates or code points past
U+10FFFF. -/

/-- How many continuation bytes are owed, and which of them is restricted. -/
inductive Utf8State where
  | start | tail1 | tail2 | tail3 | afterE0 | afterED | afterF0 | afterF4
  deriving DecidableEq, Repr

/-- The state after the first byte of a character. -/
def Utf8State.first (b : UInt8) : Option Utf8State :=
  if b < 0x80 then some .start
  else if 0xC2 ≤ b ∧ b ≤ 0xDF then some .tail1
  else if b = 0xE0 then some .afterE0
  else if b = 0xED then some .afterED
  else if 0xE1 ≤ b ∧ b ≤ 0xEF then some .tail2
  else if b = 0xF0 then some .afterF0
  else if 0xF1 ≤ b ∧ b ≤ 0xF3 then some .tail3
  else if b = 0xF4 then some .afterF4
  else none

/-- The next state when the byte lies in the range, a refusal otherwise. -/
def Utf8State.within (lo hi b : UInt8) (next : Utf8State) : Option Utf8State :=
  if lo ≤ b ∧ b ≤ hi then some next else none

/-- One byte; `none` where no well-formed text continues. -/
def Utf8State.next : Utf8State → UInt8 → Option Utf8State
  | .start, b => first b
  | .tail1, b => within 0x80 0xBF b .start
  | .tail2, b => within 0x80 0xBF b .tail1
  | .tail3, b => within 0x80 0xBF b .tail2
  | .afterE0, b => within 0xA0 0xBF b .tail1
  | .afterED, b => within 0x80 0x9F b .tail1
  | .afterF0, b => within 0x90 0xBF b .tail2
  | .afterF4, b => within 0x80 0x8F b .tail2

/-- The bytes are well-formed UTF-8. -/
def validUtf8 (s : Bytes) : Bool :=
  s.foldlM Utf8State.next .start == some .start

example : validUtf8 (ascii "choir" ++ [0xC3, 0xA9]) = true := by decide

example : validUtf8 [0xC3] = false := by decide

end Choir
