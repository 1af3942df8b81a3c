import RobotDescription.Proofs.Decimal.ReadBack

/-!
# Integer literals

An integer is written as a sign, which may be missing, and the digits of a whole number. Doubles
read it as the double nearest to it.
-/

namespace RobotDescription

/-- The digits of a whole number: a zero in front stands alone. -/
structure IsWhole (digits : List Char) : Prop where
  ne_nil : digits ≠ []
  isDigit : ∀ c ∈ digits, c.isDigit = true
  head_ne : digits = ['0'] ∨ digits.head? ≠ some '0'

theorem digitValue_lt {c : Char} (hdigit : c.isDigit = true) : digitValue c < 10 := by
  have hrange := Char.isDigit_iff_toNat.mp hdigit
  have hzero : '0'.toNat = 48 := rfl
  have hnine : '9'.toNat = 57 := rfl
  rw [digitValue]
  omega

/-- The digits of a positive number do not begin with a zero. -/
theorem head?_toDigits_ne {n : Nat} (hpos : 0 < n) : (Nat.toDigits 10 n).head? ≠ some '0' := by
  induction n using Nat.strongRecOn with
  | ind n ih =>
      by_cases hsmall : n < 10
      · rw [Nat.toDigits_of_lt_base hsmall, List.head?_cons]
        simp only [ne_eq, Option.some.injEq, Nat.digitChar_eq_zero]
        omega
      · have hfront := ih (n / 10) (by omega) (by omega)
        rw [Nat.toDigits_of_base_le (by decide) (by omega),
          List.head?_append_of_ne_nil _ Nat.toDigits_ne_nil]
        exact hfront

theorem isWhole_toDigits (n : Nat) : IsWhole (Nat.toDigits 10 n) := by
  refine ⟨Nat.toDigits_ne_nil, isDigit_toDigits n, ?_⟩
  rcases Nat.eq_zero_or_pos n with rfl | hpos
  · exact .inl (Nat.toDigits_zero 10)
  · exact .inr (head?_toDigits_ne hpos)

/-- The number that digits denote after a sign. -/
def signedValue (negative : Bool) (digits : List Char) : Int :=
  if negative then -(digitsValue digits : Int) else digitsValue digits

/-- A text is an integer: a sign or none, and the digits of a whole number. -/
structure IsInteger (text : List Char) (negative : Bool) (digits : List Char) : Prop where
  takeSign_eq : Binary64.takeSign text = (negative, digits)
  whole : IsWhole digits

theorem toList_toString (n : Int) :
    (toString n).toList = (if n < 0 then ['-'] else []) ++ Nat.toDigits 10 n.natAbs := by
  rw [Int.toString_eq_repr, Int.repr_eq_if]
  by_cases hneg : n < 0
  · rw [if_neg (by omega), if_pos hneg, String.toList_append, Nat.toList_repr,
      show (-n).toNat = n.natAbs by omega]
    rfl
  · rw [if_pos (by omega), if_neg hneg, Nat.toList_repr, show n.toNat = n.natAbs by omega]
    rfl

/-- An integer is written as its sign and its digits. -/
theorem isInteger_toString (n : Int) :
    IsInteger (toString n).toList (n < 0) (Nat.toDigits 10 n.natAbs) := by
  refine ⟨?_, isWhole_toDigits n.natAbs⟩
  rw [toList_toString]
  by_cases hneg : n < 0
  · rw [if_pos hneg, decide_eq_true hneg]
    rfl
  · rw [if_neg hneg, decide_eq_false hneg, List.nil_append]
    have hdigits := Binary64.takeSign_of_digits Nat.toDigits_ne_nil (isDigit_toDigits n.natAbs) []
    rwa [List.append_nil] at hdigits

theorem signedValue_toDigits (n : Int) :
    signedValue (n < 0) (Nat.toDigits 10 n.natAbs) = n := by
  rw [signedValue, digitsValue_toDigits]
  split
  next hneg => rw [decide_eq_true_eq] at hneg; omega
  next hneg => rw [decide_eq_true_eq] at hneg; omega

/-- Positional notation begins with a zero only directly before the point. -/
theorem isWhole_of_pointed {d : Scientific} (hzero : d.digits = 0 → d.exponent = 0)
    {whole fraction : List Char} (hpointed : Pointed d.positional whole fraction) :
    IsWhole whole := by
  refine ⟨hpointed.whole_ne_nil, hpointed.isDigit_whole, ?_⟩
  have hhead : whole.head? = d.positional.head? := by
    rw [hpointed.text_eq, List.head?_append_of_ne_nil _ hpointed.whole_ne_nil]
  have hlone : ∀ rest, d.positional = '0' :: '.' :: rest → whole = ['0'] := by
    intro rest hpositional
    rw [← hpointed.takeWhile_eq, hpositional]
    rfl
  obtain ⟨digits, exponent⟩ := d
  rcases Nat.eq_zero_or_pos digits with rfl | hpos
  · obtain rfl : exponent = 0 := hzero rfl
    exact .inl (hlone ['0'] rfl)
  · have hfirst := head?_toDigits_ne hpos
    cases exponent with
    | ofNat zeros =>
        refine .inr ?_
        rw [hhead, Scientific.positional]
        dsimp only
        rw [List.append_assoc, List.head?_append_of_ne_nil _ Nat.toDigits_ne_nil]
        exact hfirst
    | negSucc below =>
        by_cases hplaces : below + 1 < (Nat.toDigits 10 digits).length
        · refine .inr ?_
          rw [hhead, Scientific.positional]
          dsimp only
          rw [if_pos hplaces, List.head?_append_of_ne_nil _ (List.ne_nil_of_length_pos
            (by rw [List.length_take]; omega)), List.head?_take, if_neg (by omega)]
          exact hfirst
        · refine .inl (hlone (List.replicate (below + 1 - (Nat.toDigits 10 digits).length) '0' ++
            Nat.toDigits 10 digits) ?_)
          rw [Scientific.positional]
          dsimp only
          rw [if_neg hplaces]

namespace Binary64

theorem exponent_shortest {magnitude : Nat} (hfinite : magnitude < infiniteMagnitude)
    (hdigits : (shortest magnitude).digits = 0) : (shortest magnitude).exponent = 0 := by
  have hnearest := nearestMagnitude_shortest hfinite
  have hlow := Scientific.nearestMagnitude_of_low (.inl hdigits : (shortest magnitude).digits = 0 ∨
    (shortest magnitude).exponent + decimalLength (shortest magnitude).digits < -400)
  obtain rfl : magnitude = 0 := hnearest.symm.trans hlow
  rfl

theorem ofScientific_zero (negative : Bool) (n : Nat) :
    ofScientific negative n 0 = nearest negative n 1 := by
  have hnumerator : Scientific.numerator ⟨n, 0⟩ = n := Nat.mul_one n
  have hdenominator : Scientific.denominator ⟨n, 0⟩ = 1 := rfl
  rw [ofScientific_eq, Scientific.nearestMagnitude, hnumerator, hdenominator]
  rfl

/-- An integer is read as the double nearest to it. -/
theorem ofLiteral?_isInteger {text digits : List Char} {negative : Bool}
    (hinteger : IsInteger text negative digits) :
    ofLiteral? text = some (nearest negative (digitsValue digits) 1) := by
  rw [ofLiteral?_digits hinteger.takeSign_eq hinteger.whole.ne_nil hinteger.whole.isDigit,
    ofScientific_zero]

end Binary64

end RobotDescription
