/-
The shortest decimal reads back to its double.

Whatever line the search stops at, it lies in the basin of the double: where the search found
it on a grid this was checked, and the last grid of all is so fine that the line just below
the double cannot miss.  A decimal in the basin is rounded to the double, however far apart
its digits and its exponent are, since the short cuts by size are taken only outside the
range of the finite doubles.
-/
import CaseGateway.Proofs.Number.Rounding

namespace CaseGateway

/-! ### Powers of two and of ten -/

theorem ten_zpow_pos (z : Int) : (0 : ℚ) < 10 ^ z :=
  zpow_pos (by norm_num) z

theorem ten_pow_le_two_pow {m n : Nat} (h : 10 * m ≤ 3 * n) : 10 ^ m ≤ 2 ^ n := by
  refine (Nat.pow_le_pow_iff_left (n := 3) (by decide)).mp ?_
  calc (10 ^ m) ^ 3 = (10 ^ 3) ^ m := by rw [← Nat.pow_mul, ← Nat.pow_mul, Nat.mul_comm]
    _ ≤ (2 ^ 10) ^ m := Nat.pow_le_pow_left (by decide) m
    _ = 2 ^ (10 * m) := (Nat.pow_mul ..).symm
    _ ≤ 2 ^ (3 * n) := Nat.pow_le_pow_right (by decide) h
    _ = (2 ^ n) ^ 3 := by rw [← Nat.pow_mul, Nat.mul_comm]

theorem two_pow_le_ten_pow {m n : Nat} (h : 28 * m ≤ 93 * n) : 2 ^ m ≤ 10 ^ n := by
  refine (Nat.pow_le_pow_iff_left (n := 28) (by decide)).mp ?_
  calc (2 ^ m) ^ 28 = 2 ^ (28 * m) := by rw [← Nat.pow_mul, Nat.mul_comm]
    _ ≤ 2 ^ (93 * n) := Nat.pow_le_pow_right (by decide) h
    _ = (2 ^ 93) ^ n := Nat.pow_mul ..
    _ ≤ (10 ^ 28) ^ n := Nat.pow_le_pow_left (by decide) n
    _ = (10 ^ n) ^ 28 := by rw [← Nat.pow_mul, ← Nat.pow_mul, Nat.mul_comm]

/-- The bounds on the exponents are tight enough for all that a double can have: the first is
for positive ones, the second for negative ones. -/
theorem ten_zpow_le_two_zpow {y z : Int} (hpos : 10 * y ≤ 3 * z) (hneg : 93 * y ≤ 28 * z) :
    (10 : ℚ) ^ y ≤ 2 ^ z := by
  obtain ⟨m, rfl | rfl⟩ := y.eq_nat_or_neg
  · obtain ⟨n, rfl⟩ := Int.eq_ofNat_of_zero_le (show 0 ≤ z by omega)
    exact_mod_cast ten_pow_le_two_pow (show 10 * m ≤ 3 * n by omega)
  · have hle : (2 : ℚ) ^ (-z).toNat ≤ 10 ^ m := by
      exact_mod_cast two_pow_le_ten_pow (show 28 * (-z).toNat ≤ 93 * m by omega)
    calc (10 : ℚ) ^ (-m : Int) = (10 ^ m)⁻¹ := by rw [zpow_neg, zpow_natCast]
      _ ≤ (2 ^ (-z).toNat)⁻¹ := inv_anti₀ (by positivity) hle
      _ = 2 ^ (-((-z).toNat : Int)) := by rw [zpow_neg, zpow_natCast]
      _ ≤ 2 ^ z := zpow_le_zpow_right₀ (by norm_num) (by omega)

theorem two_zpow_le_ten_zpow {y z : Int} (hpos : 28 * z ≤ 93 * y) (hneg : 3 * z ≤ 10 * y) :
    (2 : ℚ) ^ z ≤ 10 ^ y := by
  have hle := ten_zpow_le_two_zpow (y := -y) (z := -z) (by omega) (by omega)
  rwa [zpow_neg, zpow_neg, inv_le_inv₀ (ten_zpow_pos y) (two_zpow_pos z)] at hle

namespace Double

/-! ### Decimals in a basin -/

/-- What rounds to a finite double is neither too small nor too large for one. -/
theorem range_of_contains {rank : Nat} (hpos : 0 < rank) (hfinite : rank < infinityRank) {x : ℚ}
    (h : (basin rank).Contains x) : (2 : ℚ) ^ (-1075 : Int) ≤ x ∧ x < 2 ^ (1024 : Int) := by
  obtain ⟨hlow, hhigh⟩ := h.bounds
  have hquarter : (basin rank).quarter = exponent rank - 2 := rfl
  have hexpLow := exponent_ge rank
  have hexpHigh := exponent_le hfinite
  constructor
  · have hbelow : (2 : ℚ) ≤ (basin rank).below := by
      have hm : (1 : ℚ) ≤ significand rank := by exact_mod_cast significand_pos hpos
      linarith [le_below rank]
    calc (2 : ℚ) ^ (-1075 : Int) = 2 * 2 ^ (-1076 : Int) := by
          rw [← zpow_one_add₀ (by norm_num)]
          rfl
      _ ≤ (basin rank).below * 2 ^ (basin rank).quarter :=
          mul_le_mul hbelow (zpow_le_zpow_right₀ (by norm_num) (by omega)) (two_zpow_pos _).le
            (by positivity)
      _ ≤ x := hlow
  · have habove : ((basin rank).above : ℚ) < 2 ^ (55 : Int) := by
      have hm : 4 * significand rank + 2 < 2 ^ 55 := by
        have := significand_lt rank
        unfold binade at this
        omega
      exact_mod_cast hm
    calc x ≤ (basin rank).above * 2 ^ (basin rank).quarter := hhigh
      _ < 2 ^ (55 : Int) * 2 ^ (basin rank).quarter :=
          mul_lt_mul_of_pos_right habove (two_zpow_pos _)
      _ ≤ 2 ^ (55 : Int) * 2 ^ (969 : Int) :=
          mul_le_mul_of_nonneg_left (zpow_le_zpow_right₀ (by norm_num) (by omega))
            (two_zpow_pos _).le
      _ = 2 ^ (1024 : Int) := by
          rw [← zpow_add₀ (by norm_num)]
          rfl

end Double

namespace Decimal

/-- The rational a decimal stands for. -/
def value (d : Decimal) : ℚ :=
  d.digits * 10 ^ d.exponent

/-- The power of ten that the number of digits and the exponent tell. -/
theorem value_bounds {d : Decimal} (h : 0 < d.digits) :
    (10 : ℚ) ^ ((Text.digitsOfNatural d.digits).length + d.exponent - 1 : Int) ≤ d.value ∧
      d.value < 10 ^ ((Text.digitsOfNatural d.digits).length + d.exponent : Int) := by
  set size := (Text.digitsOfNatural d.digits).length with hsize
  have hpos : 0 < size := List.length_pos_iff.mpr Nat.toDigits_ne_nil
  have hlt : d.digits < 10 ^ size :=
    (Nat.length_toDigits_le_iff (by decide) hpos).mp hsize.ge
  have hle : 10 ^ (size - 1) ≤ d.digits := by
    rcases Nat.eq_zero_or_pos (size - 1) with hone | hmore
    · rw [hone]
      exact h
    · refine Nat.le_of_not_lt fun hshort => ?_
      have := (Nat.length_toDigits_le_iff (by decide) hmore).mpr hshort
      change size ≤ size - 1 at this
      omega
  have hlt : (d.digits : ℚ) < 10 ^ (size : Int) := by exact_mod_cast hlt
  have hle : (10 : ℚ) ^ ((size - 1 : Nat) : Int) ≤ d.digits := by exact_mod_cast hle
  constructor
  · rw [show (size + d.exponent - 1 : Int) = (size - 1 : Nat) + d.exponent by omega,
      zpow_add₀ (by norm_num)]
    exact mul_le_mul_of_nonneg_right hle (ten_zpow_pos _).le
  · rw [zpow_add₀ (by norm_num)]
    exact mul_lt_mul_of_pos_right hlt (ten_zpow_pos _)

/-- The value as a quotient of natural numbers. -/
theorem value_eq_div (d : Decimal) :
    d.value = ((d.digits * Nat.pow 10 d.exponent.toNat : Nat) : ℚ)
      / (Nat.pow 10 (-d.exponent).toNat : Nat) := by
  rw [value, zpow_eq_div 10 d.exponent, Nat.pow_eq, Nat.pow_eq]
  push_cast
  ring

theorem digits_pos_of_contains {rank : Nat} (hpos : 0 < rank) (hfinite : rank < Double.infinityRank)
    {d : Decimal} (h : (Double.basin rank).Contains d.value) : 0 < d.digits := by
  refine Nat.pos_of_ne_zero fun hzero => ?_
  have hlow := (Double.range_of_contains hpos hfinite h).1
  rw [value, hzero, Nat.cast_zero, zero_mul] at hlow
  exact absurd hlow (not_le.mpr (two_zpow_pos _))

/-- **A decimal in the basin of a double reads as that double.** -/
theorem nearestRank_of_contains {rank : Nat} (hpos : 0 < rank) (hfinite : rank < Double.infinityRank)
    {d : Decimal} (h : (Double.basin rank).Contains d.value) : d.nearestRank = rank := by
  obtain ⟨hlow, hhigh⟩ := Double.range_of_contains hpos hfinite h
  have hdigits := digits_pos_of_contains hpos hfinite h
  obtain ⟨hsizeLow, hsizeHigh⟩ := value_bounds hdigits
  set size : Int := (Text.digitsOfNatural d.digits).length + d.exponent with hsize
  have hsmall : ¬ 310 < size := by
    intro hgt
    have hreach : (10 : ℚ) ^ (310 : Int) < 2 ^ (1024 : Int) :=
      ((zpow_le_zpow_right₀ (by norm_num) (by omega)).trans hsizeLow).trans_lt hhigh
    exact absurd hreach (not_lt.mpr (two_zpow_le_ten_zpow (by decide) (by decide)))
  have hlarge : ¬ size < -330 := by
    intro hlt
    have hreach : (2 : ℚ) ^ (-1075 : Int) < 10 ^ (-331 : Int) :=
      (hlow.trans_lt hsizeHigh).trans_le (zpow_le_zpow_right₀ (by norm_num) (by omega))
    exact absurd hreach (not_lt.mpr (ten_zpow_le_two_zpow (by decide) (by decide)))
  unfold nearestRank
  rw [if_neg hdigits.ne']
  simp only [← hsize, if_neg hsmall, if_neg hlarge]
  refine Double.nearestRank_of_contains hpos hfinite ?_ ?_
  · exact Nat.pow_pos (by decide)
  · rwa [← value_eq_div]

end Decimal

namespace Double

/-! ### The search -/

/-- What a quarter unit and the distance of lines are scaled by to be integers both. -/
def Basin.scale (b : Basin) (place : Int) : ℚ :=
  2 ^ (-b.quarter).toNat * 10 ^ (-place).toNat

theorem Basin.scale_pos (b : Basin) (place : Int) : 0 < b.scale place := by
  unfold scale
  positivity

theorem Basin.scaled_eq (b : Basin) (place : Int) (n : Nat) :
    (b.scaled place n : ℚ) = n * 2 ^ b.quarter * b.scale place := by
  rw [scaled, scale, zpow_eq_div 2 b.quarter, Nat.cast_mul, natCast_shiftLeft, Nat.pow_eq]
  push_cast
  field_simp

theorem Basin.step_eq (b : Basin) (place : Int) :
    (b.step place : ℚ) = 10 ^ place * b.scale place := by
  rw [step, scale, zpow_eq_div 10 place, natCast_shiftLeft, Nat.pow_eq]
  push_cast
  field_simp

theorem Basin.scaled_le_iff (b : Basin) (place : Int) (k n : Nat) :
    b.scaled place k ≤ n * b.step place ↔ (k : ℚ) * 2 ^ b.quarter ≤ n * 10 ^ place := by
  rw [← Nat.cast_le (α := ℚ), Nat.cast_mul, scaled_eq, step_eq, ← mul_assoc,
    mul_le_mul_iff_left₀ (b.scale_pos place)]

theorem Basin.le_scaled_iff (b : Basin) (place : Int) (k n : Nat) :
    n * b.step place ≤ b.scaled place k ↔ (n : ℚ) * 10 ^ place ≤ k * 2 ^ b.quarter := by
  rw [← Nat.cast_le (α := ℚ), Nat.cast_mul, scaled_eq, step_eq, ← mul_assoc,
    mul_le_mul_iff_left₀ (b.scale_pos place)]

/-- A line holds just if it lies in the basin. -/
theorem Basin.holds_iff (b : Basin) (place : Int) (n : Nat) :
    b.holds place n ↔ b.Contains (n * 10 ^ place) := by
  simp only [holds, Contains]
  split
  · simp [scaled_le_iff, le_scaled_iff]
  · simp [← not_le, scaled_le_iff, le_scaled_iff]

/-- The line that is found holds. -/
theorem Basin.holds_of_line? {b : Basin} {place : Int} {n : Nat} (h : b.line? place = some n) :
    b.holds place n := by
  simp only [line?] at h
  split at h
  · exact nomatch h
  split at h
  · exact nomatch h
  · next hlow _ =>
    cases h
    exact hlow
  · next _ hhigh =>
    cases h
    exact hhigh
  · next hlow hhigh =>
    cases h
    rcases nearestInteger_eq_or (b.scaled place b.value) (b.step place) with hn | hn
    · rwa [hn]
    · rwa [hn]

theorem Basin.contains_of_lt {b : Basin} {x : ℚ} (hlow : b.below * 2 ^ b.quarter < x)
    (hhigh : x < b.above * 2 ^ b.quarter) : b.Contains x := by
  unfold Contains
  split
  · exact ⟨hlow.le, hhigh.le⟩
  · exact ⟨hlow, hhigh⟩

/-- The line just below the double lies in its basin if the lines are no wider apart than a quarter
unit. -/
theorem Basin.contains_line_below {b : Basin} (hbelow : b.below < b.value)
    (habove : b.value < b.above) {place : Int} (hfine : (10 : ℚ) ^ place ≤ 2 ^ b.quarter) :
    b.Contains ((b.scaled place b.value / b.step place : Nat) * 10 ^ place) := by
  set low := b.scaled place b.value / b.step place with hlow
  have hstep : 0 < b.step place := by
    have hpos : (0 : ℚ) < b.step place := by
      rw [step_eq]
      exact mul_pos (ten_zpow_pos place) (b.scale_pos place)
    exact_mod_cast hpos
  have hle : (low : ℚ) * 10 ^ place ≤ b.value * 2 ^ b.quarter :=
    (b.le_scaled_iff place b.value low).mp (Nat.div_mul_le_self _ _)
  have hgt : (b.value : ℚ) * 2 ^ b.quarter < (low + 1) * 10 ^ place := by
    have hnext : ¬ (low + 1) * b.step place ≤ b.scaled place b.value := by
      rw [← Nat.le_div_iff_mul_le hstep]
      omega
    rw [le_scaled_iff, not_le] at hnext
    exact_mod_cast hnext
  have hbelow : (b.below : ℚ) + 1 ≤ b.value := by exact_mod_cast hbelow
  have habove : (b.value : ℚ) < b.above := by exact_mod_cast habove
  have hunit := two_zpow_pos b.quarter
  refine contains_of_lt ?_ ?_
  · calc (b.below : ℚ) * 2 ^ b.quarter ≤ (b.value - 1) * 2 ^ b.quarter :=
          mul_le_mul_of_nonneg_right (by linarith) hunit.le
      _ ≤ b.value * 2 ^ b.quarter - 10 ^ place := by linarith
      _ < low * 10 ^ place := by linarith
  · exact hle.trans_lt (mul_lt_mul_of_pos_right habove hunit)

/-- The search ends in the basin if its last grid is no wider than a quarter unit. -/
theorem Basin.contains_search {b : Basin} (hbelow : b.below < b.value) (habove : b.value < b.above)
    (grids : Nat) (place : Int) (hlast : (10 : ℚ) ^ (place - grids) ≤ 2 ^ b.quarter) :
    b.Contains (b.search grids place).value := by
  induction grids generalizing place with
  | zero =>
    rw [Nat.cast_zero, Int.sub_zero] at hlast
    exact contains_line_below hbelow habove hlast
  | succ grids ih =>
    rw [search]
    split
    · next n hn => exact (b.holds_iff place n).mp (holds_of_line? hn)
    · refine ih (place - 1) ?_
      rwa [Nat.cast_succ, Int.add_comm, ← Int.sub_sub] at hlast

theorem contains_shortest {rank : Nat} (hpos : 0 < rank) (hfinite : rank < infinityRank) :
    (basin rank).Contains (shortest rank).value := by
  have hm := significand_pos hpos
  have hmtop := significand_lt rank
  have hlog : Nat.log2 (4 * significand rank) < 55 := by
    rw [Nat.log2_lt (by omega)]
    unfold binade at hmtop
    omega
  have hexpLow := exponent_ge rank
  have hexpHigh := exponent_le hfinite
  refine Basin.contains_search ?_ ?_ 24 _ (ten_zpow_le_two_zpow ?_ ?_)
  · simp only [basin]
    split <;> omega
  · simp only [basin]
    omega
  · simp only [Basin.highestPlace, basin]
    omega
  · simp only [Basin.highestPlace, basin]
    omega

/-- **The shortest decimal of a double reads as that double.** -/
theorem nearestRank_shortest {rank : Nat} (hpos : 0 < rank) (hfinite : rank < infinityRank) :
    (shortest rank).nearestRank = rank :=
  Decimal.nearestRank_of_contains hpos hfinite (contains_shortest hpos hfinite)

end Double

end CaseGateway
