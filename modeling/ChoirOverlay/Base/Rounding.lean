-- SUMMARY: Rounding a fraction to a number of significant bits, ties to even: what it depends on, what it leaves alone, when it overflows.
import Mathlib.Tactic.Ring
import Mathlib.Tactic.Linarith
import Mathlib.Algebra.Order.Ring.Nat

/-!
# Rounding to significant bits

Numbers are counted in units of the smallest one the format has, so the small
numbers that keep fewer bits need no case of their own.
-/

namespace Rounding

/-- `a / d` to the nearest integer; a tie goes to the even one. -/
def nearest (a d : Nat) : Nat :=
  let q := a / d
  let r := a % d
  if 2 * r < d then q
  else if d < 2 * r then q + 1
  else q + q % 2

/-- The weight of the last bit that `p` bits of `n` keep. -/
def lastBit (p n : Nat) : Nat := n.log2 + 1 - p

/-- `a / d` to `p` significant bits. -/
def toBits (p a d : Nat) : Nat :=
  let k := lastBit p (a / d)
  nearest a (d * 2 ^ k) * 2 ^ k

/-- `n` needs no more than `p` significant bits. -/
def Exact (p n : Nat) : Prop := 2 ^ lastBit p n ∣ n

variable {a c d n p : Nat}

/-! ## To the nearest integer -/

theorem nearest_mul (hc : 0 < c) (a d : Nat) : nearest (a * c) (d * c) = nearest a d := by
  have hlt (x y : Nat) : 2 * (x * c) < y * c ↔ 2 * x < y := by
    rw [← Nat.mul_assoc]
    exact Nat.mul_lt_mul_right hc
  have hgt (x y : Nat) : y * c < 2 * (x * c) ↔ y < 2 * x := by
    rw [← Nat.mul_assoc]
    exact Nat.mul_lt_mul_right hc
  simp only [nearest, Nat.mul_div_mul_right a d hc, Nat.mul_mod_mul_right, hlt, hgt]

theorem nearest_of_dvd (hd : 0 < d) (n : Nat) : nearest (n * d) d = n := by
  simp [nearest, Nat.mul_div_cancel n hd, hd]

theorem le_nearest (hd : 0 < d) (h : n * d ≤ a) : n ≤ nearest a d := by
  have hq : n ≤ a / d := (Nat.le_div_iff_mul_le hd).mpr h
  unfold nearest
  dsimp only
  split_ifs <;> omega

theorem nearest_lt_iff (hd : 0 < d) (hn : 0 < n) (heven : n % 2 = 0) :
    nearest a d < n ↔ 2 * a < (2 * n - 1) * d := by
  have ha : d * (a / d) + a % d = a := Nat.div_add_mod a d
  have hr : a % d < d := Nat.mod_lt a hd
  unfold nearest
  dsimp only
  generalize a / d = q at ha ⊢
  generalize a % d = r at ha hr ⊢
  subst ha
  obtain ⟨m, rfl⟩ : ∃ m, n = m + 1 := ⟨n - 1, by omega⟩
  have hm : (2 * (m + 1) - 1) * d = 2 * (d * m) + d := by
    rw [show 2 * (m + 1) - 1 = 2 * m + 1 by omega]
    ring
  rw [hm]
  rcases Nat.lt_trichotomy q m with hqm | rfl | hqm
  · have hle : d * (q + 1) ≤ d * m := Nat.mul_le_mul_left d hqm
    rw [Nat.mul_add, Nat.mul_one] at hle
    split_ifs <;> omega
  · split_ifs <;> omega
  · have hle : d * (m + 1) ≤ d * q := Nat.mul_le_mul_left d hqm
    rw [Nat.mul_add, Nat.mul_one] at hle
    split_ifs <;> omega

theorem nearest_le (hd : 0 < d) (h : a ≤ n * d) : nearest a d ≤ n := by
  have hq : a / d ≤ n := (Nat.div_le_iff_le_mul_add_pred hd).mpr (by rw [Nat.mul_comm]; omega)
  have ha : d * (a / d) + a % d = a := Nat.div_add_mod a d
  unfold nearest
  dsimp only
  rcases Nat.lt_or_eq_of_le hq with hlt | heq
  · split_ifs <;> omega
  · rw [heq, Nat.mul_comm] at ha
    have hr : a % d = 0 := by omega
    rw [if_pos (by omega)]
    exact hq

/-! ## To significant bits -/

/-- Only the value of the fraction counts. -/
theorem toBits_mul (hc : 0 < c) (p a d : Nat) : toBits p (a * c) (d * c) = toBits p a d := by
  have hk (k : Nat) : d * c * 2 ^ k = d * 2 ^ k * c := by ring
  simp only [toBits, Nat.mul_div_mul_right a d hc, hk, nearest_mul hc]

theorem Exact.toBits (h : Exact p n) : toBits p n 1 = n := by
  obtain ⟨m, hm⟩ := h
  unfold Rounding.toBits
  dsimp only
  rw [Nat.div_one]
  generalize lastBit p n = k at hm ⊢
  rw [hm, Nat.one_mul, Nat.mul_comm (2 ^ k) m, nearest_of_dvd (Nat.two_pow_pos k)]

theorem lt_two_pow_lastBit (p n : Nat) : n < 2 ^ (p + lastBit p n) := by
  calc n < 2 ^ (n.log2 + 1) := Nat.lt_log2_self
    _ ≤ 2 ^ (p + lastBit p n) := Nat.pow_le_pow_right (by decide) (by unfold lastBit; omega)

theorem lastBit_le (hp : 0 < p) {k : Nat} (h : n < 2 ^ (p + k)) : lastBit p n ≤ k := by
  unfold lastBit
  by_cases hn : n = 0
  · subst hn
    simp only [Nat.log2_zero]
    omega
  · have hlog : n.log2 < p + k := (Nat.log2_lt hn).mpr h
    omega

/-- Rounding up to the next power of two is all that can happen past the bits
kept. -/
theorem nearest_lastBit_le (hd : 0 < d) (p a : Nat) :
    nearest a (d * 2 ^ lastBit p (a / d)) ≤ 2 ^ p := by
  refine nearest_le (Nat.mul_pos hd (Nat.two_pow_pos _)) ?_
  have hlt : a < d * 2 ^ (p + lastBit p (a / d)) :=
    (Nat.div_lt_iff_lt_mul hd).mp (lt_two_pow_lastBit p (a / d)) |>.trans_eq (Nat.mul_comm ..)
  calc a ≤ d * 2 ^ (p + lastBit p (a / d)) := hlt.le
    _ = 2 ^ p * (d * 2 ^ lastBit p (a / d)) := by rw [Nat.pow_add]; ring

theorem exact_toBits (hp : 0 < p) (hd : 0 < d) (a : Nat) : Exact p (toBits p a d) := by
  have hle := nearest_lastBit_le hd p a
  unfold toBits
  dsimp only
  generalize lastBit p (a / d) = k at hle ⊢
  generalize nearest a (d * 2 ^ k) = q at hle ⊢
  unfold Exact
  rcases Nat.lt_or_eq_of_le hle with hlt | rfl
  · have hbit : lastBit p (q * 2 ^ k) ≤ k := by
      refine lastBit_le hp ?_
      rw [Nat.pow_add]
      exact Nat.mul_lt_mul_of_pos_right hlt (Nat.two_pow_pos k)
    exact (Nat.pow_dvd_pow 2 hbit).trans (Nat.dvd_mul_left ..)
  · rw [← Nat.pow_add]
    refine Nat.pow_dvd_pow 2 ?_
    rw [lastBit, Nat.log2_two_pow]
    omega

/-- Rounding leaves the numbers from a power of two on above it. -/
theorem le_toBits (hp : 0 < p) (hd : 0 < d) {k : Nat} (h : 2 ^ (p + k) ≤ a / d) :
    2 ^ (p + k) ≤ toBits p a d := by
  have hA : a / d ≠ 0 := by
    have := Nat.two_pow_pos (p + k)
    omega
  have hlog : p + k ≤ (a / d).log2 := (Nat.le_log2 hA).mpr h
  have hself : 2 ^ (a / d).log2 * d ≤ a := (Nat.le_div_iff_mul_le hd).mp (Nat.log2_self_le hA)
  obtain ⟨j, hj⟩ : ∃ j, (a / d).log2 = p + k + j := ⟨_, (Nat.add_sub_cancel' hlog).symm⟩
  obtain ⟨p, rfl⟩ : ∃ m, p = m + 1 := ⟨p - 1, by omega⟩
  have hbit : lastBit (p + 1) (a / d) = k + j + 1 := by
    unfold lastBit
    omega
  have hq : 2 ^ p ≤ nearest a (d * 2 ^ (k + j + 1)) := by
    refine le_nearest (Nat.mul_pos hd (Nat.two_pow_pos _)) (le_trans (le_of_eq ?_) hself)
    rw [hj, show p + 1 + k + j = p + (k + j + 1) by omega, Nat.pow_add]
    ring
  unfold toBits
  dsimp only
  rw [hbit]
  calc 2 ^ (p + 1 + k) ≤ 2 ^ (p + (k + j + 1)) := Nat.pow_le_pow_right (by decide) (by omega)
    _ = 2 ^ p * 2 ^ (k + j + 1) := Nat.pow_add ..
    _ ≤ nearest a (d * 2 ^ (k + j + 1)) * 2 ^ (k + j + 1) := Nat.mul_le_mul_right _ hq

/-- With a last bit to spare there is room even for rounding up. -/
theorem toBits_lt_of_lastBit_lt (hd : 0 < d) {k : Nat} (h : lastBit p (a / d) < k) :
    toBits p a d < 2 ^ (p + k) := by
  have hle := nearest_lastBit_le hd p a
  unfold toBits
  dsimp only
  generalize lastBit p (a / d) = j at hle h ⊢
  calc nearest a (d * 2 ^ j) * 2 ^ j ≤ 2 ^ p * 2 ^ j := Nat.mul_le_mul_right _ hle
    _ = 2 ^ (p + j) := (Nat.pow_add ..).symm
    _ < 2 ^ (p + k) := Nat.pow_lt_pow_right (by decide) (by omega)

/-- A number overflows from halfway between the largest number with a last bit
of weight `k` and the next power of two on. -/
theorem toBits_lt_iff (hp : 0 < p) (hd : 0 < d) (a k : Nat) :
    toBits p a d < 2 ^ p * 2 ^ k ↔ 2 * a < (2 * 2 ^ p - 1) * (d * 2 ^ k) := by
  rw [← Nat.pow_add]
  have hk : 0 < 2 ^ k := Nat.two_pow_pos k
  have hdk : 0 < d * 2 ^ k := Nat.mul_pos hd hk
  have hpos : 0 < 2 ^ p := Nat.two_pow_pos p
  have heven : 2 ^ p % 2 = 0 := by
    obtain ⟨p, rfl⟩ : ∃ m, p = m + 1 := ⟨p - 1, by omega⟩
    rw [Nat.pow_succ]
    omega
  by_cases hA : a / d < 2 ^ (p + k)
  · rcases Nat.lt_or_eq_of_le (lastBit_le hp hA) with hlt | heq
    · refine iff_of_true (toBits_lt_of_lastBit_lt hd hlt) ?_
      have ha : a < 2 ^ (p + lastBit p (a / d)) * d :=
        (Nat.div_lt_iff_lt_mul hd).mp (lt_two_pow_lastBit p (a / d))
      generalize lastBit p (a / d) = j at hlt ha
      have hj : 2 * 2 ^ j ≤ 2 ^ k := by
        rw [← Nat.pow_succ']
        exact Nat.pow_le_pow_right (by decide) hlt
      calc 2 * a < 2 * (2 ^ (p + j) * d) := by omega
        _ = 2 ^ p * (d * (2 * 2 ^ j)) := by rw [Nat.pow_add]; ring
        _ ≤ 2 ^ p * (d * 2 ^ k) := Nat.mul_le_mul_left _ (Nat.mul_le_mul_left d hj)
        _ ≤ (2 * 2 ^ p - 1) * (d * 2 ^ k) := Nat.mul_le_mul_right _ (by omega)
    · unfold toBits
      dsimp only
      rw [heq, Nat.pow_add, Nat.mul_lt_mul_right hk, nearest_lt_iff hdk hpos heven]
  · rw [Nat.not_lt] at hA
    refine iff_of_false (Nat.not_lt.mpr (le_toBits hp hd hA)) (Nat.not_lt.mpr ?_)
    have ha : 2 ^ (p + k) * d ≤ a := (Nat.le_div_iff_mul_le hd).mp hA
    calc (2 * 2 ^ p - 1) * (d * 2 ^ k) ≤ 2 * 2 ^ p * (d * 2 ^ k) :=
          Nat.mul_le_mul_right _ (by omega)
      _ = 2 * (2 ^ (p + k) * d) := by rw [Nat.pow_add]; ring
      _ ≤ 2 * a := Nat.mul_le_mul_left 2 ha

end Rounding
