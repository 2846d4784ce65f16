-- SUMMARY: Numbers of a JSON value as the `float` fields hold them: the narrowing to binary32.
import ChoirOverlay.Base.Rounding
import Mathlib.Algebra.Ring.Int.Defs

/-!
# Narrowing to `float`

The fields of type `float` hold binary32 numbers: 24 bits, counted here in
units of the smallest one, `2 ^ (-149)`. A `number_float` is kept as the exact
decimal it stands for, so a narrowed one has a decimal of its own.
-/

namespace Choir

/-- A `number_float`: `mantissa * 10 ^ exponent`, or an infinity or NaN. -/
inductive JsonFloat where
  | finite (mantissa exponent : Int)
  | nonFinite
  deriving DecidableEq, Repr

namespace JsonFloat

/-- `m / 10 ^ places` in shortest form. -/
def shorten (m : Int) : Nat → JsonFloat
  | 0 => .finite m 0
  | places + 1 =>
    if m % 10 = 0 then shorten (m / 10) places else .finite m (-((places + 1 : Nat) : Int))

/-- The decimal of `z` units. -/
def ofUnits (z : Int) : JsonFloat := shorten (z * 5 ^ 149) 149

/-- `|m| * 10 ^ e` in units, rounded to the 24 bits of a binary32. -/
def unitsOf (m e : Int) : Nat :=
  Rounding.toBits 24 (m.natAbs * 10 ^ e.toNat * 2 ^ 149) (10 ^ (-e).toNat)

/-- `static_cast<float>`; from `2 ^ 128` on it overflows. -/
def narrow : JsonFloat → JsonFloat
  | .finite m e =>
    if unitsOf m e < 2 ^ 24 * 2 ^ 253 then ofUnits (m.sign * unitsOf m e) else .nonFinite
  | .nonFinite => .nonFinite

/-- Closer to zero than halfway from the largest binary32 to `2 ^ 128`. -/
def fitsSingle : JsonFloat → Bool
  | .finite m e => m.natAbs * 10 ^ e.toNat < (2 ^ 128 - 2 ^ 103) * 10 ^ (-e).toNat
  | .nonFinite => false

/-! ## The shortest decimal -/

theorem shorten_ne_nonFinite (m : Int) (places : Nat) : shorten m places ≠ .nonFinite := by
  induction places generalizing m with
  | zero => simp [shorten]
  | succ places ih =>
    unfold shorten
    split
    · exact ih _
    · simp

/-- The shortest decimal has the value it was made from. -/
theorem exists_shorten (m : Int) (places : Nat) : ∃ (m' : Int) (j k : Nat),
    shorten m places = .finite m' (-(j : Int)) ∧ j + k = places ∧ m = m' * 10 ^ k := by
  induction places generalizing m with
  | zero => exact ⟨m, 0, 0, rfl, rfl, by simp⟩
  | succ places ih =>
    by_cases hm : m % 10 = 0
    · obtain ⟨m', j, k, heq, hjk, hval⟩ := ih (m / 10)
      refine ⟨m', j, k + 1, by rw [shorten, if_pos hm, heq], by omega, ?_⟩
      calc m = m / 10 * 10 := (Int.ediv_mul_cancel (Int.dvd_of_emod_eq_zero hm)).symm
        _ = m' * 10 ^ (k + 1) := by rw [hval, pow_succ]; ring
    · exact ⟨m, places + 1, 0, by rw [shorten, if_neg hm], by omega, by simp⟩

/-- Exact units come back from their decimal. -/
theorem narrow_ofUnits {z : Int} (hexact : Rounding.Exact 24 z.natAbs)
    (hlt : z.natAbs < 2 ^ 24 * 2 ^ 253) : (ofUnits z).narrow = ofUnits z := by
  obtain ⟨m, j, k, heq, hjk, hval⟩ := exists_shorten (z * 5 ^ 149) 149
  have hten : (0 : Int) < 10 ^ k := pow_pos (by decide) k
  have hsign : m.sign = z.sign := by
    have h := congrArg Int.sign hval
    rwa [Int.sign_mul, Int.sign_mul, Int.sign_eq_one_of_pos (by positivity : (0 : Int) < 5 ^ 149),
      Int.sign_eq_one_of_pos hten, Int.mul_one, Int.mul_one, eq_comm] at h
  have habs : z.natAbs * 5 ^ 149 = m.natAbs * 10 ^ k := by
    have h := congrArg Int.natAbs hval
    rwa [Int.natAbs_mul, Int.natAbs_mul, Int.natAbs_pow, Int.natAbs_pow] at h
  have hunits : unitsOf m (-(j : Int)) = z.natAbs := by
    calc unitsOf m (-(j : Int)) = Rounding.toBits 24 (m.natAbs * 2 ^ 149) (10 ^ j) := by
          rw [unitsOf, Int.neg_neg, Int.toNat_natCast, Int.toNat_neg_natCast, pow_zero, mul_one]
      _ = Rounding.toBits 24 (m.natAbs * 2 ^ 149 * 10 ^ k) (10 ^ j * 10 ^ k) :=
          (Rounding.toBits_mul (Nat.pow_pos (by decide)) ..).symm
      _ = Rounding.toBits 24 (z.natAbs * 10 ^ 149) (1 * 10 ^ 149) := by
          rw [← pow_add, hjk, Nat.one_mul, mul_right_comm, ← habs, mul_assoc, ← mul_pow]
          rfl
      _ = Rounding.toBits 24 z.natAbs 1 := Rounding.toBits_mul (Nat.pow_pos (by decide)) ..
      _ = z.natAbs := hexact.toBits
  have hz : ofUnits z = .finite m (-(j : Int)) := heq
  conv_lhs => rw [hz, narrow, hunits, if_pos hlt, hsign, Int.sign_mul_natAbs]

/-! ## Narrowing -/

theorem unitsOf_lt_iff (m e : Int) :
    unitsOf m e < 2 ^ 24 * 2 ^ 253 ↔ (JsonFloat.finite m e).fitsSingle = true := by
  have hten : 0 < 10 ^ (-e).toNat := Nat.pow_pos (by decide)
  rw [unitsOf, Rounding.toBits_lt_iff (by decide) hten]
  simp only [fitsSingle, decide_eq_true_eq]
  generalize m.natAbs * 10 ^ e.toNat = M
  generalize 10 ^ (-e).toNat = D
  omega

/-- A number is infinite as a `float` exactly when it is too large for one. -/
theorem narrow_eq_nonFinite (x : JsonFloat) : x.narrow = .nonFinite ↔ x.fitsSingle = false := by
  cases x with
  | nonFinite => exact iff_of_true rfl rfl
  | finite m e =>
    have hunits := unitsOf_lt_iff m e
    cases hfits : (JsonFloat.finite m e).fitsSingle with
    | true =>
      rw [narrow, if_pos (hunits.mpr hfits)]
      exact iff_of_false (shorten_ne_nonFinite _ _) (by decide)
    | false =>
      rw [narrow, if_neg (by rw [hunits, hfits]; decide)]
      exact iff_of_true rfl rfl

/-- Narrowing a narrowed number leaves it as it is. -/
theorem narrow_narrow (x : JsonFloat) : x.narrow.narrow = x.narrow := by
  cases x with
  | nonFinite => rfl
  | finite m e =>
    rw [narrow]
    split
    case isFalse => rfl
    case isTrue hlt =>
      have hten : 0 < 10 ^ (-e).toNat := Nat.pow_pos (by decide)
      have hexact : Rounding.Exact 24 (unitsOf m e) := Rounding.exact_toBits (by decide) hten _
      by_cases hm : m = 0
      · subst hm
        rw [Int.sign_zero, Int.zero_mul]
        exact narrow_ofUnits (Nat.dvd_zero _) (by decide)
      · have habs : (m.sign * (unitsOf m e : Int)).natAbs = unitsOf m e := by
          rw [Int.natAbs_mul, Int.natAbs_sign_of_ne_zero hm, Nat.one_mul, Int.natAbs_natCast]
        exact narrow_ofUnits (by rwa [habs]) (by rwa [habs])

example : (JsonFloat.finite 1 (-1)).narrow =
    .finite 100000001490116119384765625 (-27) := by decide

end JsonFloat

end Choir
