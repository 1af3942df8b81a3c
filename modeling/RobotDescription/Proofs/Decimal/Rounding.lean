import Mathlib.Algebra.Order.Field.Power
import Mathlib.Tactic.Positivity
import RobotDescription.Decimal.Shortest
import RobotDescription.Proofs.Decimal.Nearest

/-!
# How decimals are rounded

A decimal is rounded by its value alone, however it is written. A decimal between one that is rounded
to a double and the double's own value is rounded to that double too, and one that is too small or too
large for a double is rounded to zero or to infinity.
-/

namespace RobotDescription

theorem decimalLength_le_iff {n length : Nat} (hlength : 0 < length) :
    decimalLength n ≤ length ↔ n < Nat.pow 10 length :=
  Nat.length_toDigits_le_iff (by decide) hlength

theorem decimalLength_pos (n : Nat) : 0 < decimalLength n :=
  Nat.length_toDigits_pos

theorem lt_pow_decimalLength (n : Nat) : n < Nat.pow 10 (decimalLength n) :=
  (decimalLength_le_iff (decimalLength_pos n)).mp (Nat.le_refl _)

theorem pow_le_of_lt_decimalLength {n exponent : Nat} (hpos : 0 < n)
    (hexponent : exponent < decimalLength n) : Nat.pow 10 exponent ≤ n := by
  rcases Nat.eq_zero_or_pos exponent with rfl | hexponentPos
  · exact hpos
  · rw [← Nat.not_lt, ← decimalLength_le_iff hexponentPos]
    exact Nat.not_le.mpr hexponent

theorem ten_zpow_eq (exponent : Int) :
    (10 : ℚ) ^ exponent = 10 ^ exponent.toNat / 10 ^ (-exponent).toNat := by
  rcases Int.le_total 0 exponent with hpos | hneg
  · obtain ⟨n, rfl⟩ := Int.eq_ofNat_of_zero_le hpos
    simp
  · obtain ⟨n, hn⟩ := Int.eq_ofNat_of_zero_le (Int.neg_nonneg_of_nonpos hneg)
    obtain rfl : exponent = -n := by omega
    simp

theorem ten_zpow_pos (exponent : Int) : (0 : ℚ) < 10 ^ exponent :=
  zpow_pos (by norm_num) exponent

theorem pow_mul_ten_zpow (zeros : Nat) (exponent : Int) :
    ((10 ^ zeros : Nat) : ℚ) * 10 ^ exponent = 10 ^ (exponent + zeros) := by
  rw [zpow_add₀ (by norm_num), zpow_natCast, mul_comm]
  push_cast
  rfl

section Powers

/-- A factor of ten is more than three factors of two. -/
theorem pow_two_le_pow_ten {n k : Nat} (hle : n ≤ 3 * k) : Nat.pow 2 n ≤ Nat.pow 10 k :=
  calc 2 ^ n ≤ 2 ^ (3 * k) := Nat.pow_le_pow_right (by decide) hle
    _ = (2 ^ 3) ^ k := Nat.pow_mul 2 3 k
    _ ≤ 10 ^ k := Nat.pow_le_pow_left (by decide) k

theorem two_mul_pow_two_le {n k : Nat} (hle : n + 1 ≤ 3 * k) : 2 * Nat.pow 2 n ≤ Nat.pow 10 k :=
  calc 2 * 2 ^ n = 2 ^ (n + 1) := Nat.pow_succ'.symm
    _ ≤ 10 ^ k := pow_two_le_pow_ten hle

theorem pow_two_mul_le {s n k m : Nat} (hle : s + n ≤ 3 * k + m) :
    Nat.pow 2 s * Nat.pow 2 n ≤ Nat.pow 10 k * Nat.pow 2 m :=
  calc 2 ^ s * 2 ^ n = 2 ^ (s + n) := (Nat.pow_add 2 s n).symm
    _ ≤ 2 ^ (3 * k + m) := Nat.pow_le_pow_right (by decide) hle
    _ = 2 ^ (3 * k) * 2 ^ m := Nat.pow_add 2 (3 * k) m
    _ ≤ 10 ^ k * 2 ^ m := Nat.mul_le_mul_right _ (pow_two_le_pow_ten (Nat.le_refl _))

end Powers

namespace Binary64

/-- From the 359th decimal place on, a place is not worth more than half a unit. -/
theorem two_mul_unitsPerOne_le {places : Nat} (hplaces : 359 ≤ places) :
    2 * unitsPerOne ≤ Nat.pow 10 places := by
  apply two_mul_pow_two_le
  omega

/-- A power of ten with 342 zeros or more is beyond the doubles. -/
theorem unitsOf_infiniteMagnitude_le {places : Nat} (hplaces : 342 ≤ places) :
    unitsOf infiniteMagnitude ≤ Nat.pow 10 places * unitsPerOne := by
  have hsignificand : significandOf infiniteMagnitude = Nat.pow 2 52 := by decide +kernel
  have hscale : scaleOf infiniteMagnitude = 2046 := by decide +kernel
  rw [unitsOf, hsignificand, hscale]
  apply pow_two_mul_le
  omega

end Binary64

namespace Scientific

attribute [local irreducible] Binary64.unitsPerOne Binary64.infiniteMagnitude

theorem denominator_pos (d : Scientific) : 0 < d.denominator :=
  Nat.pow_pos (by decide)

/-- The number that a decimal stands for. -/
def value (d : Scientific) : ℚ :=
  d.digits * 10 ^ d.exponent

/-- Zeros at the end of the digits can be moved into the exponent. -/
theorem value_shift (digits zeros : Nat) (exponent : Int) :
    value ⟨digits * Nat.pow 10 zeros, exponent⟩ = value ⟨digits, exponent + zeros⟩ := by
  rw [value, value, ← pow_mul_ten_zpow, ← mul_assoc, Nat.cast_mul]
  rfl

theorem value_eq (d : Scientific) : d.value = d.numerator / d.denominator := by
  rw [value, numerator, denominator, ten_zpow_eq]
  push_cast
  simp [mul_div_assoc]

theorem exists_isNearest (d : Scientific) :
    ∃ magnitude, Binary64.IsNearest d.value magnitude ∧
      d.nearestMagnitude = min Binary64.infiniteMagnitude magnitude := by
  rw [value_eq]
  exact Binary64.exists_isNearest d.numerator d.denominator_pos

/-- Decimals of one value are rounded alike. -/
theorem nearestMagnitude_congr {d d' : Scientific} (hvalue : d.value = d'.value) :
    d.nearestMagnitude = d'.nearestMagnitude := by
  obtain ⟨magnitude, hnearest, hrounded⟩ := d.exists_isNearest
  obtain ⟨magnitude', hnearest', hrounded'⟩ := d'.exists_isNearest
  rw [hrounded, hrounded', hnearest.unique (hvalue ▸ hnearest')]

theorem nearestMagnitude_eq_iff (d : Scientific) {magnitude : Nat}
    (hfinite : magnitude < Binary64.infiniteMagnitude) :
    d.nearestMagnitude = magnitude ↔ Binary64.IsNearest d.value magnitude := by
  rw [nearestMagnitude, Binary64.nearestMagnitude_eq_iff d.denominator_pos hfinite, value_eq]

/-- A decimal between one that is rounded to a magnitude and the magnitude's own value is rounded to
it too. -/
theorem isNearest_of_between {magnitude : Nat} {q : ℚ} (d : Scientific)
    (hnearest : Binary64.IsNearest q magnitude)
    (hbetween : q ≤ d.value ∧ d.value ≤ Binary64.value magnitude ∨
      Binary64.value magnitude ≤ d.value ∧ d.value ≤ q) : Binary64.IsNearest d.value magnitude := by
  obtain ⟨found, hfound, _⟩ := d.exists_isNearest
  have hvalue := Binary64.isNearest_value magnitude
  obtain rfl : found = magnitude := by
    rcases hbetween with ⟨habove, hbelow⟩ | ⟨habove, hbelow⟩
    · exact Nat.le_antisymm (hfound.mono hvalue hbelow) (hnearest.mono hfound habove)
    · exact Nat.le_antisymm (hfound.mono hnearest hbelow) (hvalue.mono hfound habove)
  exact hfound

section Sizes

theorem value_lt (d : Scientific) : d.value < 10 ^ (d.exponent + decimalLength d.digits) := by
  rw [value, ← pow_mul_ten_zpow, mul_lt_mul_iff_of_pos_right (ten_zpow_pos _)]
  exact_mod_cast lt_pow_decimalLength d.digits

theorem le_value {d : Scientific} (hpos : 0 < d.digits) :
    10 ^ (d.exponent + (decimalLength d.digits - 1 : Nat)) ≤ d.value := by
  have hlength := decimalLength_pos d.digits
  rw [value, ← pow_mul_ten_zpow, mul_le_mul_iff_of_pos_right (ten_zpow_pos _)]
  exact_mod_cast pow_le_of_lt_decimalLength hpos (by omega)

/-- What is less than half the least double is rounded to zero. -/
theorem nearestMagnitude_of_small {d : Scientific} {places : Nat} (hplaces : 359 ≤ places)
    (hsmall : d.value < 10 ^ (-places : Int)) : d.nearestMagnitude = 0 := by
  have hunits : (2 * Binary64.unitsPerOne : ℚ) ≤ 10 ^ places := by
    exact_mod_cast Binary64.two_mul_unitsPerOne_le hplaces
  have hpos : (0 : ℚ) < Binary64.unitsPerOne := by exact_mod_cast Binary64.unitsPerOne_pos
  have hleast : Binary64.value 1 = 1 / Binary64.unitsPerOne := by
    have hone : Binary64.unitsOf 1 = 1 := by decide
    rw [Binary64.value, hone, Nat.cast_one]
  rw [d.nearestMagnitude_eq_iff (by decide +kernel)]
  refine Binary64.isNearest_of_middles (fun _ hbefore => (Nat.succ_ne_zero _ hbefore.symm).elim) ?_
  rw [Binary64.value_zero, zero_add, hleast]
  calc 2 * d.value < 2 * 10 ^ (-places : Int) := by linarith
    _ = 2 / 10 ^ places := by rw [zpow_neg, zpow_natCast, div_eq_mul_inv]
    _ ≤ 1 / Binary64.unitsPerOne := by rwa [div_le_div_iff₀ (by positivity) hpos, one_mul]

/-- What is at least the first power of two beyond the doubles is infinite. -/
theorem nearestMagnitude_of_large {d : Scientific} {places : Nat} (hplaces : 342 ≤ places)
    (hlarge : 10 ^ (places : Int) ≤ d.value) :
    d.nearestMagnitude = Binary64.infiniteMagnitude := by
  obtain ⟨magnitude, hnearest, hrounded⟩ := d.exists_isNearest
  have hinfinite : Binary64.value Binary64.infiniteMagnitude ≤ d.value := by
    refine le_trans ?_ hlarge
    rw [Binary64.value, div_le_iff₀ (by exact_mod_cast Binary64.unitsPerOne_pos)]
    exact_mod_cast Binary64.unitsOf_infiniteMagnitude_le hplaces
  rw [hrounded, Nat.min_eq_left ((Binary64.isNearest_value _).mono hnearest hinfinite)]

/-- A decimal is too small for a double if all its digits are far behind the point. -/
theorem nearestMagnitude_of_low {d : Scientific}
    (hlow : d.digits = 0 ∨ d.exponent + decimalLength d.digits < -400) : d.nearestMagnitude = 0 := by
  refine nearestMagnitude_of_small (by decide : 359 ≤ 401) ?_
  rcases hlow with hzero | hlow
  · rw [value, hzero, Nat.cast_zero, zero_mul]
    exact ten_zpow_pos _
  · exact lt_of_lt_of_le d.value_lt (zpow_le_zpow_right₀ (by norm_num) (by omega))

/-- A decimal is too large for a double if its first digit is far before the point. -/
theorem nearestMagnitude_of_high {d : Scientific} (hpos : 0 < d.digits)
    (hhigh : 400 < d.exponent + decimalLength d.digits) :
    d.nearestMagnitude = Binary64.infiniteMagnitude := by
  refine nearestMagnitude_of_large (by decide : 342 ≤ 400) ?_
  exact le_trans (zpow_le_zpow_right₀ (by norm_num) (by omega)) (le_value hpos)

end Sizes

end Scientific

end RobotDescription
