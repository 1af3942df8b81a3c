import Mathlib.Algebra.Ring.Int.Defs
import RobotDescription.Proofs.Decimal.Literals

/-!
# Texts that denote integers

A decimal text denotes an integer if nothing but zeros stands behind its point, or if it has none. So
the text of a double denotes an integer exactly if the shortest digits of the double make it up.
-/

namespace RobotDescription

/-- Nothing follows the digits of an integer, or a fractional part of zeros. -/
def isIdle : List Char → Bool
  | [] => true
  | '.' :: zeros => zeros.all (· = '0')
  | _ => false

/-- The integer that a decimal text denotes. -/
def integer? (text : List Char) : Option Int :=
  let (negative, unsigned) := Binary64.takeSign text
  let whole := unsigned.takeWhile Char.isDigit
  if whole ≠ [] && isIdle (unsigned.dropWhile Char.isDigit) then some (signedValue negative whole)
  else none

theorem integer?_isInteger {text digits : List Char} {negative : Bool}
    (hinteger : IsInteger text negative digits) :
    integer? text = some (signedValue negative digits) := by
  obtain ⟨hsign, hwhole⟩ := hinteger
  unfold integer?
  rw [hsign]
  dsimp only
  rw [List.takeWhile_eq_self_iff.mpr hwhole.isDigit, List.dropWhile_eq_nil_iff.mpr hwhole.isDigit]
  exact if_pos (by simpa [isIdle] using hwhole.ne_nil)

theorem integer?_pointed {text unsigned whole fraction : List Char} {negative : Bool}
    (hsign : Binary64.takeSign text = (negative, unsigned))
    (hpointed : Pointed unsigned whole fraction) :
    integer? text =
      if fraction.all (· = '0') then some (signedValue negative whole) else none := by
  unfold integer?
  rw [hsign]
  dsimp only
  rw [hpointed.takeWhile_eq, hpointed.dropWhile_eq]
  simp [isIdle, hpointed.whole_ne_nil]

theorem digitsValue_cons (c : Char) (rest : List Char) :
    digitsValue (c :: rest) = Nat.pow 10 rest.length * digitValue c + digitsValue rest := by
  have hfirst : digitsValue [c] = digitValue c := Nat.zero_add _
  rw [← hfirst, ← digitsValue_append]
  rfl

theorem digitValue_eq_zero_iff {c : Char} (hdigit : c.isDigit = true) :
    digitValue c = 0 ↔ c = '0' := by
  have hrange := Char.isDigit_iff_toNat.mp hdigit
  have hzero : '0'.toNat = 48 := rfl
  rw [digitValue, ← Char.toNat_inj]
  omega

section Digits

variable {digits : List Char} (hdigits : ∀ c ∈ digits, c.isDigit = true)
include hdigits

theorem digitsValue_lt : digitsValue digits < Nat.pow 10 digits.length := by
  induction digits with
  | nil => decide
  | cons c rest ih =>
      obtain ⟨hfirst, hrest⟩ := List.forall_mem_cons.mp hdigits
      calc digitsValue (c :: rest)
          = Nat.pow 10 rest.length * digitValue c + digitsValue rest := digitsValue_cons c rest
        _ < Nat.pow 10 rest.length * digitValue c + Nat.pow 10 rest.length :=
            Nat.add_lt_add_left (ih hrest) _
        _ = Nat.pow 10 rest.length * (digitValue c + 1) := (Nat.mul_succ _ _).symm
        _ ≤ Nat.pow 10 rest.length * 10 := Nat.mul_le_mul_left _ (digitValue_lt hfirst)

/-- Only zeros have no value. -/
theorem digitsValue_eq_zero_iff : digitsValue digits = 0 ↔ ∀ c ∈ digits, c = '0' := by
  induction digits with
  | nil => exact iff_of_true rfl (List.forall_mem_nil _)
  | cons c rest ih =>
      obtain ⟨hfirst, hrest⟩ := List.forall_mem_cons.mp hdigits
      have hpower : Nat.pow 10 rest.length ≠ 0 := (Nat.pow_pos (by decide)).ne'
      rw [digitsValue_cons, Nat.add_eq_zero_iff, Nat.mul_eq_zero, or_iff_right hpower,
        digitValue_eq_zero_iff hfirst, ih hrest, List.forall_mem_cons]

end Digits

/-- A number with a point is whole exactly if its fraction has no value. -/
theorem mul_pow_eq_iff {whole fraction : List Char}
    (hfraction : ∀ c ∈ fraction, c.isDigit = true) (n : Nat) :
    digitsValue (whole ++ fraction) = n * Nat.pow 10 fraction.length ↔
      fraction.all (· = '0') = true ∧ digitsValue whole = n := by
  have hsmall := digitsValue_lt hfraction
  have hzeros : fraction.all (· = '0') = true ↔ digitsValue fraction = 0 := by
    rw [digitsValue_eq_zero_iff hfraction]
    simp
  rw [hzeros, digitsValue_append, Nat.mul_comm n]
  constructor
  · intro hsame
    have hzero : digitsValue fraction = 0 := by
      have hrest := congrArg (· % Nat.pow 10 fraction.length) hsame
      rwa [Nat.mul_add_mod, Nat.mul_mod_right, Nat.mod_eq_of_lt hsmall] at hrest
    rw [hzero, Nat.add_zero] at hsame
    exact ⟨hzero, Nat.eq_of_mul_eq_mul_left (Nat.pow_pos (by decide)) hsame⟩
  · rintro ⟨hzero, rfl⟩
    rw [hzero, Nat.add_zero]

namespace Scientific

theorem value_eq_natCast_iff (d : Scientific) (n : Nat) :
    d.value = n ↔ n * d.denominator = d.numerator := by
  have hpos : (0 : ℚ) < d.denominator := by exact_mod_cast d.denominator_pos
  rw [value_eq, div_eq_iff hpos.ne', eq_comm]
  exact_mod_cast Iff.rfl

/-- A decimal with a point is a natural number exactly if its fraction has no value. -/
theorem value_pointed_eq_iff {whole fraction : List Char}
    (hfraction : ∀ c ∈ fraction, c.isDigit = true) (n : Nat) :
    value ⟨digitsValue (whole ++ fraction), -fraction.length⟩ = n ↔
      fraction.all (· = '0') = true ∧ digitsValue whole = n := by
  have hpower : (0 : ℚ) < 10 ^ fraction.length := pow_pos (by norm_num) _
  rw [← mul_pow_eq_iff hfraction, value, zpow_neg, zpow_natCast, ← div_eq_mul_inv,
    div_eq_iff hpower.ne']
  exact_mod_cast Iff.rfl

/-- In positional notation a decimal denotes an integer exactly if it is that integer. -/
theorem integer?_positional (d : Scientific) {text : List Char} {negative : Bool}
    (hsign : Binary64.takeSign text = (negative, d.positional)) (n : Int) :
    integer? text = some n ↔ n.natAbs * d.denominator = d.numerator ∧
      n = if negative then -(n.natAbs : Int) else n.natAbs := by
  obtain ⟨whole, fraction, hpointed, hvalue⟩ := d.pointed_positional
  have hexact : n.natAbs * d.denominator = d.numerator ↔
      fraction.all (· = '0') = true ∧ digitsValue whole = n.natAbs := by
    rw [← value_eq_natCast_iff, ← hvalue, value_pointed_eq_iff hpointed.isDigit_fraction]
  rw [integer?_pointed hsign hpointed, hexact, Option.ite_none_right_eq_some, Option.some.injEq,
    and_assoc]
  refine and_congr_right fun _ => ?_
  cases negative with
  | true =>
      rw [signedValue, if_pos rfl, if_pos rfl]
      omega
  | false =>
      rw [signedValue, if_neg Bool.false_ne_true, if_neg Bool.false_ne_true]
      omega

end Scientific

namespace Binary64

section Parts

variable (negative : Bool) {magnitude : Nat} (hle : magnitude ≤ infiniteMagnitude)
include hle

theorem toNat_ofMagnitude : (ofMagnitude negative magnitude).bits.toNat =
    (if negative then signPlace else 0) + magnitude := by
  have hbound : infiniteMagnitude < signPlace := by decide +kernel
  have hsize : UInt64.size = 2 * signPlace := rfl
  refine UInt64.toNat_ofNat_of_lt' ?_
  split <;> omega

theorem isNegative_ofMagnitude : (ofMagnitude negative magnitude).isNegative = negative := by
  have hbound : infiniteMagnitude < signPlace := by decide +kernel
  rw [isNegative, toNat_ofMagnitude negative hle]
  cases negative with
  | true => exact decide_eq_true (Nat.le_add_right _ _)
  | false =>
      rw [if_neg Bool.false_ne_true, Nat.zero_add]
      exact decide_eq_false (Nat.not_le.mpr (Nat.lt_of_le_of_lt hle hbound))

end Parts

theorem isNegative_ofInt (n : Int) : (ofInt n).isNegative = decide (n < 0) :=
  isNegative_ofMagnitude _ (Nat.min_le_left _ _)

/-- The shortest digits of the double that is nearest to the integer make up the integer. -/
def Keeps (n : Int) : Prop :=
  n.natAbs * (shortest (ofInt n).magnitude).denominator = (shortest (ofInt n).magnitude).numerator

instance decidableKeeps (n : Int) : Decidable (Keeps n) :=
  inferInstanceAs (Decidable (_ = _))

/-- The double nearest to an integer is written as the integer only if it keeps the integer. -/
theorem integer?_toText_ofInt {n : Int} (hfinite : (ofInt n).isFinite = true) :
    integer? (ofInt n).toText.toList = some n ↔ Keeps n := by
  rw [Scientific.integer?_positional _ (takeSign_toText hfinite), isNegative_ofInt, Keeps]
  refine and_iff_left ?_
  split
  next hneg => rw [decide_eq_true_eq] at hneg; omega
  next hneg => rw [decide_eq_true_eq] at hneg; omega

end Binary64

end RobotDescription
