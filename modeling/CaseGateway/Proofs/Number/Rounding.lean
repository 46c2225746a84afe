/-
Rounding to the nearest double.

A quotient is compared with the finite doubles as a rational number.  The rank of a double
is its significand and the binades below it, so it is enough that rounding finds the
double's own exponent and significand.  It does so for every quotient in the double's basin,
with one exception: just below a power of two the exponent found is one too small, and there
the significand comes out as twice the smallest one, which carries into the next binade.
-/
import CaseGateway.Number.Shortest
import Mathlib.Algebra.Order.Field.Power
import Mathlib.Data.Rat.Cast.Order
import Mathlib.Tactic.FieldSimp
import Mathlib.Tactic.Linarith
import Mathlib.Tactic.Positivity
import Mathlib.Tactic.Ring

namespace CaseGateway

/-! ### Powers with an exponent on either side -/

/-- A power is a fraction of which one part is one. -/
theorem zpow_eq_div (b : ℚ) (z : Int) : b ^ z = b ^ z.toNat / b ^ (-z).toNat := by
  obtain ⟨n, rfl | rfl⟩ := z.eq_nat_or_neg
  · simp
  · simp [zpow_neg]

theorem two_zpow_pos (z : Int) : (0 : ℚ) < 2 ^ z :=
  zpow_pos (by norm_num) z

theorem two_zpow_lt_iff {y z : Int} : (2 : ℚ) ^ y < 2 ^ z ↔ y < z :=
  zpow_lt_zpow_iff_right₀ (by norm_num)

theorem natCast_shiftLeft (n k : Nat) : ((n <<< k : Nat) : ℚ) = n * 2 ^ k := by
  rw [Nat.shiftLeft_eq]
  push_cast
  rfl

namespace Double

/-- Shifting the numerator or the denominator divides a quotient by a power of two. -/
theorem shiftLeft_div (num den : Nat) (place : Int) :
    ((num <<< (-place).toNat : Nat) : ℚ) / ((den <<< place.toNat : Nat) : ℚ)
      = num / den / 2 ^ place := by
  rw [natCast_shiftLeft, natCast_shiftLeft, zpow_eq_div 2 place]
  field_simp

theorem shiftLeft_pos {n : Nat} (h : 0 < n) (k : Nat) : 0 < n <<< k := by
  rw [Nat.shiftLeft_eq]
  exact Nat.mul_pos h (Nat.two_pow_pos k)

/-! ### The nearest integer -/

theorem nearestInteger_eq_or (num den : Nat) :
    nearestInteger num den = num / den ∨ nearestInteger num den = num / den + 1 := by
  simp only [nearestInteger]
  split_ifs <;> omega

/-- The nearest integer is the one that is not more than a half away, the even one of two. -/
theorem nearestInteger_eq {num den m : Nat} (hden : 0 < den) (hlow : (m : ℚ) - 1 / 2 ≤ num / den)
    (hhigh : (num : ℚ) / den ≤ m + 1 / 2)
    (htie : m % 2 = 0 ∨ (m : ℚ) - 1 / 2 < num / den ∧ (num : ℚ) / den < m + 1 / 2) :
    nearestInteger num den = m := by
  have hdenq : (0 : ℚ) < den := by exact_mod_cast hden
  -- the bounds, cleared of fractions
  have hlow : 2 * (den * m) ≤ 2 * num + den := by
    rw [le_div_iff₀ hdenq] at hlow
    have : (2 * (den * m) : ℚ) ≤ 2 * num + den := by linarith
    exact_mod_cast this
  have hhigh : 2 * num ≤ 2 * (den * m) + den := by
    rw [div_le_iff₀ hdenq] at hhigh
    have : (2 * num : ℚ) ≤ 2 * (den * m) + den := by linarith
    exact_mod_cast this
  have htie : m % 2 = 0 ∨ 2 * (den * m) < 2 * num + den ∧ 2 * num < 2 * (den * m) + den := by
    refine htie.imp_right fun ⟨hlt, hgt⟩ => ?_
    rw [lt_div_iff₀ hdenq] at hlt
    rw [div_lt_iff₀ hdenq] at hgt
    have hlt : (2 * (den * m) : ℚ) < 2 * num + den := by linarith
    have hgt : (2 * num : ℚ) < 2 * (den * m) + den := by linarith
    exact ⟨by exact_mod_cast hlt, by exact_mod_cast hgt⟩
  have hdivision : den * (num / den) + num % den = num := Nat.div_add_mod num den
  have hrest : num % den < den := Nat.mod_lt num hden
  -- the integer is the quotient's whole part or the next one
  have hm : m = num / den ∨ m = num / den + 1 := by
    have hle : num / den < m + 1 := by
      refine Nat.lt_of_mul_lt_mul_left (a := den) ?_
      rw [Nat.mul_add]
      omega
    have hge : m < num / den + 2 := by
      refine Nat.lt_of_mul_lt_mul_left (a := den) ?_
      rw [Nat.mul_add]
      omega
    omega
  simp only [nearestInteger]
  rcases hm with hm | hm
  · rw [← hm] at hdivision ⊢
    split_ifs <;> omega
  · have hprod : den * m = den * (num / den) + den := by rw [hm, Nat.mul_add, Nat.mul_one]
    split_ifs <;> omega

/-! ### The exponent -/

theorem log2_bounds {n : Nat} (h : 0 < n) :
    (2 : ℚ) ^ (Nat.log2 n : Int) ≤ n ∧ (n : ℚ) < 2 ^ ((Nat.log2 n : Int) + 1) := by
  have hle : 2 ^ Nat.log2 n ≤ n := Nat.log2_self_le h.ne'
  have hlt : n < 2 ^ (Nat.log2 n + 1) := Nat.lt_log2_self
  exact ⟨by exact_mod_cast hle, by exact_mod_cast hlt⟩

/-- A quotient reaches a power of two just if the shifted numerator reaches the denominator. -/
theorem shiftLeft_le_iff {num den : Nat} (hden : 0 < den) (k : Int) :
    den <<< k.toNat ≤ num <<< (-k).toNat ↔ (2 : ℚ) ^ k ≤ num / den := by
  have hscaled : (0 : ℚ) < (den <<< k.toNat : Nat) := Nat.cast_pos.mpr (shiftLeft_pos hden _)
  rw [← one_mul ((2 : ℚ) ^ k), ← le_div_iff₀ (two_zpow_pos k), ← shiftLeft_div,
    le_div_iff₀ hscaled, one_mul, Nat.cast_le]

theorem binaryExponent_spec {num den : Nat} (hnum : 0 < num) (hden : 0 < den) :
    (2 : ℚ) ^ binaryExponent num den ≤ num / den ∧
      (num : ℚ) / den < 2 ^ (binaryExponent num den + 1) := by
  have hdenq : (0 : ℚ) < den := Nat.cast_pos.mpr hden
  obtain ⟨hnumLow, hnumHigh⟩ := log2_bounds hnum
  obtain ⟨hdenLow, hdenHigh⟩ := log2_bounds hden
  set guess : Int := (Nat.log2 num : Int) - Nat.log2 den with hguess
  have hbelow : (2 : ℚ) ^ (guess - 1) ≤ num / den := by
    rw [le_div_iff₀ hdenq]
    calc (2 : ℚ) ^ (guess - 1) * den
        ≤ 2 ^ (guess - 1) * 2 ^ ((Nat.log2 den : Int) + 1) :=
          mul_le_mul_of_nonneg_left hdenHigh.le (two_zpow_pos _).le
      _ = 2 ^ (Nat.log2 num : Int) := by
          rw [← zpow_add₀ (by norm_num)]
          exact congrArg _ (by omega)
      _ ≤ num := hnumLow
  have habove : (num : ℚ) / den < 2 ^ (guess + 1) := by
    rw [div_lt_iff₀ hdenq]
    calc (num : ℚ) < 2 ^ ((Nat.log2 num : Int) + 1) := hnumHigh
      _ = 2 ^ (guess + 1) * 2 ^ (Nat.log2 den : Int) := by
          rw [← zpow_add₀ (by norm_num)]
          exact congrArg _ (by omega)
      _ ≤ 2 ^ (guess + 1) * den := mul_le_mul_of_nonneg_left hdenLow (two_zpow_pos _).le
  -- the guess is right if the quotient reaches that power, and one too large if not
  have hexponent : binaryExponent num den
      = if (2 : ℚ) ^ guess ≤ num / den then guess else guess - 1 := by
    simp only [binaryExponent, ← hguess, shiftLeft_le_iff hden]
  rw [hexponent]
  split_ifs with h
  · exact ⟨h, habove⟩
  · exact ⟨hbelow, by rw [Int.sub_add_cancel]; exact not_le.mp h⟩

theorem binaryExponent_eq {num den : Nat} (hnum : 0 < num) (hden : 0 < den) {k : Int}
    (hlow : (2 : ℚ) ^ k ≤ num / den) (hhigh : (num : ℚ) / den < 2 ^ (k + 1)) :
    binaryExponent num den = k := by
  obtain ⟨hlow', hhigh'⟩ := binaryExponent_spec hnum hden
  have h₁ := two_zpow_lt_iff.mp (hlow.trans_lt hhigh')
  have h₂ := two_zpow_lt_iff.mp (hlow'.trans_lt hhigh)
  omega

/-! ### Ranks -/

/-- A rank is its significand and the binades below. -/
theorem rank_eq (rank : Nat) :
    (exponent rank + 1074).toNat * binade + significand rank = rank := by
  unfold exponent significand binade
  split <;> omega

theorem exponent_ge (rank : Nat) : -1074 ≤ exponent rank := by
  unfold exponent binade
  split <;> omega

theorem exponent_le {rank : Nat} (h : rank < infinityRank) : exponent rank ≤ 971 := by
  unfold exponent binade
  unfold infinityRank at h
  split <;> omega

theorem significand_lt (rank : Nat) : significand rank < 2 * binade := by
  unfold significand binade
  split <;> omega

theorem significand_pos {rank : Nat} (h : 0 < rank) : 0 < significand rank := by
  unfold significand binade
  split <;> omega

/-- Only the doubles of the lowest exponent have a small significand. -/
theorem binade_le_significand {rank : Nat} (h : exponent rank ≠ -1074) :
    binade ≤ significand rank := by
  unfold exponent at h
  unfold significand
  split at h
  · exact absurd rfl h
  · next hsmall =>
    rw [if_neg hsmall]
    omega

/-! ### The basin of a double -/

/-- Whether a rational lies in the interval of a basin. -/
def Basin.Contains (b : Basin) (x : ℚ) : Prop :=
  if b.closed then b.below * 2 ^ b.quarter ≤ x ∧ x ≤ b.above * 2 ^ b.quarter
  else b.below * 2 ^ b.quarter < x ∧ x < b.above * 2 ^ b.quarter

theorem Basin.Contains.bounds {b : Basin} {x : ℚ} (h : b.Contains x) :
    b.below * 2 ^ b.quarter ≤ x ∧ x ≤ b.above * 2 ^ b.quarter := by
  unfold Basin.Contains at h
  split at h
  · exact h
  · exact ⟨h.1.le, h.2.le⟩

theorem le_below (rank : Nat) : (4 * significand rank - 2 : ℚ) ≤ (basin rank).below := by
  have h : 4 * significand rank ≤ (basin rank).below + 2 := by
    simp only [basin]
    split <;> omega
  have h : (4 * significand rank : ℚ) ≤ (basin rank).below + 2 := by exact_mod_cast h
  linarith

/-- Below a power of two the doubles are twice as dense. -/
theorem le_below_of_binade {rank : Nat} (hm : significand rank = binade)
    (hq : exponent rank ≠ -1074) : (4 * significand rank - 1 : ℚ) ≤ (basin rank).below := by
  have h : 4 * significand rank ≤ (basin rank).below + 1 := by
    simp only [basin, if_pos (And.intro hm hq)]
    omega
  have h : (4 * significand rank : ℚ) ≤ (basin rank).below + 1 := by exact_mod_cast h
  linarith

/-- The bounds of a basin in units of its double. -/
theorem unit_of_contains {rank : Nat} {x : ℚ} (h : (basin rank).Contains x) :
    ((basin rank).below : ℚ) / 4 ≤ x / 2 ^ exponent rank ∧
      x / 2 ^ exponent rank ≤ significand rank + 1 / 2 ∧
      (significand rank % 2 = 0 ∨ ((basin rank).below : ℚ) / 4 < x / 2 ^ exponent rank ∧
        x / 2 ^ exponent rank < significand rank + 1 / 2) := by
  have hunit : (0 : ℚ) < 2 ^ exponent rank := two_zpow_pos _
  have hquarter : (2 : ℚ) ^ (basin rank).quarter = 2 ^ exponent rank / 4 := by
    show (2 : ℚ) ^ (exponent rank - 2) = _
    rw [zpow_sub₀ (by norm_num)]
    norm_num
  have hbelow : ((basin rank).below : ℚ) / 4 * 2 ^ exponent rank
      = (basin rank).below * 2 ^ (basin rank).quarter := by
    rw [hquarter]
    ring
  have habove : ((significand rank : ℚ) + 1 / 2) * 2 ^ exponent rank
      = (basin rank).above * 2 ^ (basin rank).quarter := by
    rw [hquarter]
    show _ = ((4 * significand rank + 2 : Nat) : ℚ) * _
    push_cast
    ring
  obtain ⟨hlow, hhigh⟩ := h.bounds
  refine ⟨by rwa [le_div_iff₀ hunit, hbelow], by rwa [div_le_iff₀ hunit, habove], ?_⟩
  by_cases heven : significand rank % 2 = 0
  · exact Or.inl heven
  · have hopen : (basin rank).closed = false := decide_eq_false heven
    rw [Basin.Contains, hopen] at h
    obtain ⟨hlow, hhigh⟩ := h
    exact Or.inr ⟨by rwa [lt_div_iff₀ hunit, hbelow], by rwa [div_lt_iff₀ hunit, habove]⟩

/-- The rank found once the place and the integer at it are known. -/
theorem nearestRank_eq {num den : Nat} (hnum : 0 < num) {place : Int} {kept : Nat}
    (hplace : max (binaryExponent num den - 52) (-1074) = place)
    (hkept : nearestInteger (num <<< (-place).toNat) (den <<< place.toNat) = kept)
    (hfinite : (place + 1074).toNat * binade + kept < infinityRank) :
    nearestRank num den = (place + 1074).toNat * binade + kept := by
  simp only [nearestRank, if_neg hnum.ne', hplace, hkept]
  exact Nat.min_eq_left hfinite.le

section Rounding

variable {rank num den : Nat} (hfinite : rank < infinityRank) (hnum : 0 < num) (hden : 0 < den)
  (h : (basin rank).Contains ((num : ℚ) / den))
include hfinite hnum hden h

/-- At the double's own exponent the integer found is its significand. -/
theorem nearestRank_of_place
    (hplace : max (binaryExponent num den - 52) (-1074) = exponent rank) :
    nearestRank num den = rank := by
  obtain ⟨hlow, hhigh, htie⟩ := unit_of_contains h
  have hbelow := le_below rank
  have hkept : nearestInteger (num <<< (-exponent rank).toNat) (den <<< (exponent rank).toNat)
      = significand rank := by
    refine nearestInteger_eq (shiftLeft_pos hden _) ?_ ?_
        (htie.imp_right fun ⟨hlow, hhigh⟩ => ⟨?_, ?_⟩) <;>
      rw [shiftLeft_div] <;> linarith
  have hrank := rank_eq rank
  rw [nearestRank_eq hnum hplace hkept (by omega), hrank]

/-- With a place more, the integer found is twice the significand and carries. -/
theorem nearestRank_of_carry (hm : significand rank = binade) (hq : exponent rank ≠ -1074)
    (hplace : max (binaryExponent num den - 52) (-1074) = exponent rank - 1)
    (hshort : (num : ℚ) / den / 2 ^ exponent rank < binade) : nearestRank num den = rank := by
  obtain ⟨hlow, hhigh, -⟩ := unit_of_contains h
  have hbelow := le_below_of_binade hm hq
  have hhalf : (num : ℚ) / den / 2 ^ (exponent rank - 1) = 2 * (num / den / 2 ^ exponent rank) := by
    rw [zpow_sub_one₀ (by norm_num)]
    field_simp
  have hkept : nearestInteger (num <<< (-(exponent rank - 1)).toNat)
      (den <<< (exponent rank - 1).toNat) = 2 * binade := by
    have htwice : ((2 * binade : Nat) : ℚ) = 2 * binade := by push_cast; rfl
    rw [hm] at hbelow
    refine nearestInteger_eq (shiftLeft_pos hden _) ?_ ?_ (Or.inl (Nat.mul_mod_right 2 binade)) <;>
      rw [shiftLeft_div, hhalf, htwice] <;> linarith
  have hrank : (exponent rank - 1 + 1074).toNat * binade + 2 * binade = rank := by
    have hexponent := exponent_ge rank
    have hplaces : (exponent rank + 1074).toNat = (exponent rank - 1 + 1074).toNat + 1 := by omega
    have hrank := rank_eq rank
    rw [hm, hplaces, Nat.succ_mul] at hrank
    omega
  rw [nearestRank_eq hnum hplace hkept (by omega), hrank]

end Rounding

/-- **Every quotient in the basin of a double is rounded to it.** -/
theorem nearestRank_of_contains {rank num den : Nat} (hpos : 0 < rank) (hfinite : rank < infinityRank)
    (hden : 0 < den) (h : (basin rank).Contains ((num : ℚ) / den)) : nearestRank num den = rank := by
  obtain ⟨hlow, hhigh, -⟩ := unit_of_contains h
  have hbelow := le_below rank
  have hexponent := exponent_ge rank
  have hunit := two_zpow_pos (exponent rank)
  have hbinade : (binade : ℚ) = 2 ^ (52 : Int) := by norm_num [binade]
  have hmpos : (1 : ℚ) ≤ significand rank := by exact_mod_cast significand_pos hpos
  have hmtop : (significand rank : ℚ) + 1 ≤ 2 * binade := by
    have hlt : significand rank + 1 ≤ 2 * binade := significand_lt rank
    exact_mod_cast hlt
  have hnum : 0 < num := by
    refine Nat.pos_of_ne_zero fun hzero => ?_
    simp only [hzero, Nat.cast_zero, zero_div] at hlow
    linarith
  have hreaches (k : Int) :
      (2 : ℚ) ^ k ≤ num / den / 2 ^ exponent rank ↔ (2 : ℚ) ^ (k + exponent rank) ≤ num / den := by
    rw [le_div_iff₀ hunit, ← zpow_add₀ (by norm_num)]
  by_cases hlong : (binade : ℚ) ≤ num / den / 2 ^ exponent rank
  · have hexp : binaryExponent num den = 52 + exponent rank := by
      refine binaryExponent_eq hnum hden ((hreaches 52).mp (hbinade ▸ hlong)) ?_
      rw [add_right_comm, ← not_le, ← hreaches, zpow_add_one₀ (by norm_num), ← hbinade]
      linarith
    exact nearestRank_of_place hfinite hnum hden h (by omega)
  have hshort : (num : ℚ) / den < 2 ^ (52 + exponent rank) := by
    rwa [← not_le, ← hreaches, ← hbinade]
  by_cases hlowest : exponent rank = -1074
  · have hexp := two_zpow_lt_iff.mp ((binaryExponent_spec hnum hden).1.trans_lt hshort)
    exact nearestRank_of_place hfinite hnum hden h (by omega)
  · -- only below a power of two does the basin reach below the shortest significand
    have hm : significand rank = binade := by
      refine Nat.le_antisymm (Nat.le_of_not_lt fun hgt => ?_) (binade_le_significand hlowest)
      have hgt : (binade : ℚ) + 1 ≤ significand rank := by exact_mod_cast hgt
      linarith
    have hexp : binaryExponent num den = 51 + exponent rank := by
      refine binaryExponent_eq hnum hden ((hreaches 51).mp ?_) (by rwa [add_right_comm])
      rw [hm] at hbelow
      have hhalf : (2 : ℚ) ^ (51 : Int) + 1 ≤ binade := by norm_num [binade]
      linarith
    exact nearestRank_of_carry hfinite hnum hden h hm hlowest (by omega) (not_le.mp hlong)

/-! ### Quotients below the largest double -/

/-- A quotient that is clearly below the largest double is rounded to a finite one. -/
theorem nearestRank_lt_infinityRank {num den : Nat} (hden : 0 < den)
    (h : (num : ℚ) / den < 2 ^ (1023 : Int)) : nearestRank num den < infinityRank := by
  rcases Nat.eq_zero_or_pos num with rfl | hnum
  · rw [nearestRank, if_pos rfl]
    decide
  obtain ⟨hlow, hhigh⟩ := binaryExponent_spec hnum hden
  have hexponent := two_zpow_lt_iff.mp (hlow.trans_lt h)
  simp only [nearestRank, if_neg hnum.ne']
  set place := max (binaryExponent num den - 52) (-1074) with hplace
  have hwhole : (num <<< (-place).toNat) / (den <<< place.toNat) < 2 * binade := by
    rw [Nat.div_lt_iff_lt_mul (shiftLeft_pos hden _), ← Nat.cast_lt (α := ℚ), Nat.cast_mul,
      ← div_lt_iff₀ (Nat.cast_pos.mpr (shiftLeft_pos hden _)), shiftLeft_div,
      div_lt_iff₀ (two_zpow_pos place)]
    calc (num : ℚ) / den < 2 ^ (binaryExponent num den + 1) := hhigh
      _ ≤ 2 ^ (53 + place) := zpow_le_zpow_right₀ (by norm_num) (by omega)
      _ = (2 * binade : Nat) * 2 ^ place := by
          rw [zpow_add₀ (by norm_num)]
          norm_num [binade]
  have hkept := nearestInteger_eq_or (num <<< (-place).toNat) (den <<< place.toNat)
  refine (Nat.min_le_left _ _).trans_lt ?_
  unfold binade at hwhole ⊢
  unfold infinityRank
  omega

end Double

end CaseGateway
