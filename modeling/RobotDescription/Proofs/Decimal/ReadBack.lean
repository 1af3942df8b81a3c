import Mathlib.Data.List.TakeWhile
import RobotDescription.Decimal.Positional
import RobotDescription.Decimal.Reading
import RobotDescription.Proofs.Decimal.Shortest

/-!
# Texts of doubles read back

A double is written as digits on both sides of a point, after its sign. Reading decimals is exact up
to one rounding, also where the reader does not compute it, so the text of a finite double is read as
the double that was written.
-/

namespace RobotDescription

theorem digitsValue_eq (digits : List Char) : digitsValue digits = Nat.ofDigitChars 10 digits 0 :=
  Nat.ofDigitChars_eq_foldl.symm

theorem digitsValue_toDigits (n : Nat) : digitsValue (Nat.toDigits 10 n) = n := by
  rw [digitsValue_eq, Nat.ofDigitChars_toDigits (by decide) (by decide)]

theorem digitsValue_append (front back : List Char) :
    digitsValue (front ++ back) =
      Nat.pow 10 back.length * digitsValue front + digitsValue back := by
  rw [digitsValue_eq, Nat.ofDigitChars_append, Nat.ofDigitChars_eq_ofDigitChars_zero,
    ← digitsValue_eq, ← digitsValue_eq]
  rfl

theorem digitsValue_replicate_zero (count : Nat) :
    digitsValue (List.replicate count '0') = 0 := by
  rw [digitsValue_eq, Nat.ofDigitChars_replicate_zero, Nat.mul_zero]

theorem digitsValue_zeros_append (before after : Nat) (digits : List Char) :
    digitsValue (List.replicate before '0' ++ digits ++ List.replicate after '0') =
      digitsValue digits * Nat.pow 10 after := by
  rw [digitsValue_append, digitsValue_append, digitsValue_replicate_zero, digitsValue_replicate_zero,
    Nat.mul_zero, Nat.zero_add, Nat.add_zero, List.length_replicate, Nat.mul_comm]

theorem isDigit_toDigits (n : Nat) : ∀ c ∈ Nat.toDigits 10 n, c.isDigit = true :=
  fun _ hmem => Nat.isDigit_of_mem_toDigits (by decide) (by decide) hmem

theorem isDigit_replicate_zero (count : Nat) :
    ∀ c ∈ List.replicate count '0', c.isDigit = true := by
  intro c hmem
  rw [List.eq_of_mem_replicate hmem]
  rfl

/-- Digits on both sides of a point. -/
structure Pointed (text whole fraction : List Char) : Prop where
  text_eq : text = whole ++ '.' :: fraction
  whole_ne_nil : whole ≠ []
  fraction_ne_nil : fraction ≠ []
  isDigit_whole : ∀ c ∈ whole, c.isDigit = true
  isDigit_fraction : ∀ c ∈ fraction, c.isDigit = true

/-- The digits in front end at the point. -/
theorem Pointed.takeWhile_eq {text whole fraction : List Char}
    (hpointed : Pointed text whole fraction) : text.takeWhile Char.isDigit = whole := by
  have hpoint : ('.' :: fraction).takeWhile Char.isDigit = [] := rfl
  rw [hpointed.text_eq, List.takeWhile_append_of_pos hpointed.isDigit_whole, hpoint,
    List.append_nil]

theorem Pointed.dropWhile_eq {text whole fraction : List Char}
    (hpointed : Pointed text whole fraction) :
    text.dropWhile Char.isDigit = '.' :: fraction := by
  rw [hpointed.text_eq, List.dropWhile_append_of_pos hpointed.isDigit_whole]
  rfl

namespace Scientific

/-- Positional notation has digits on both sides of its point: those of the number, and zeros before
and after them. Zeros stand after them only if one of these zeros is the fraction. -/
theorem positional_spec (d : Scientific) :
    ∃ whole fraction before after, Pointed d.positional whole fraction ∧
      whole ++ fraction =
        List.replicate before '0' ++ Nat.toDigits 10 d.digits ++ List.replicate after '0' ∧
      (after : Int) = d.exponent + fraction.length ∧ (fraction = ['0'] ∨ after = 0) := by
  have hdigits := isDigit_toDigits d.digits
  obtain ⟨digits, exponent⟩ := d
  -- the point stands behind all digits, between two of them, or in front of them
  cases exponent with
  | ofNat zeros =>
      refine ⟨Nat.toDigits 10 digits ++ List.replicate zeros '0', ['0'], 0, zeros + 1,
        ⟨by simp [positional], List.append_ne_nil_of_left_ne_nil Nat.toDigits_ne_nil _,
          by decide, List.forall_mem_append.mpr ⟨hdigits, isDigit_replicate_zero zeros⟩,
          isDigit_replicate_zero 1⟩, ?_, rfl, .inl rfl⟩
      rw [List.replicate_succ', List.append_assoc]
      rfl
  | negSucc below =>
      by_cases hplaces : below + 1 < (Nat.toDigits 10 digits).length
      · obtain ⟨count, hcount⟩ : ∃ count,
            count = (Nat.toDigits 10 digits).length - (below + 1) := ⟨_, rfl⟩
        refine ⟨(Nat.toDigits 10 digits).take count, (Nat.toDigits 10 digits).drop count, 0, 0,
          ⟨by simp [positional, hplaces, hcount], ?_, ?_,
            fun c hmem => hdigits c (List.mem_of_mem_take hmem),
            fun c hmem => hdigits c (List.mem_of_mem_drop hmem)⟩, ?_, ?_, .inr rfl⟩
        · exact List.ne_nil_of_length_pos (by rw [List.length_take]; omega)
        · exact List.ne_nil_of_length_pos (by rw [List.length_drop]; omega)
        · simp
        · simp only [Int.negSucc_eq, List.length_drop]
          omega
      · refine ⟨['0'], List.replicate (below + 1 - (Nat.toDigits 10 digits).length) '0' ++
          Nat.toDigits 10 digits, below + 1 - (Nat.toDigits 10 digits).length + 1, 0,
          ⟨by simp [positional, hplaces], by decide,
            List.append_ne_nil_of_right_ne_nil _ Nat.toDigits_ne_nil, isDigit_replicate_zero 1,
            List.forall_mem_append.mpr ⟨isDigit_replicate_zero _, hdigits⟩⟩, ?_, ?_, .inr rfl⟩
        · simp [List.replicate_succ]
        · simp only [Int.negSucc_eq, List.length_append, List.length_replicate]
          omega

theorem value_pointed {d : Scientific} {whole fraction : List Char} {before after : Nat}
    (hdigits : whole ++ fraction =
      List.replicate before '0' ++ Nat.toDigits 10 d.digits ++ List.replicate after '0')
    (hafter : (after : Int) = d.exponent + fraction.length) :
    value ⟨digitsValue (whole ++ fraction), -fraction.length⟩ = d.value := by
  have hexponent : -(fraction.length : Int) + after = d.exponent := by omega
  rw [hdigits, digitsValue_zeros_append, digitsValue_toDigits, value_shift, hexponent]

/-- The digits on both sides of the point are together the number. -/
theorem pointed_positional (d : Scientific) :
    ∃ whole fraction, Pointed d.positional whole fraction ∧
      value ⟨digitsValue (whole ++ fraction), -fraction.length⟩ = d.value := by
  obtain ⟨whole, fraction, _, _, hpointed, hdigits, hafter, _⟩ := d.positional_spec
  exact ⟨whole, fraction, hpointed, value_pointed hdigits hafter⟩

end Scientific

namespace Binary64

attribute [local irreducible] unitsPerOne infiniteMagnitude

theorem ofMagnitude_magnitude (x : Binary64) : ofMagnitude x.isNegative x.magnitude = x := by
  obtain ⟨bits⟩ := x
  have hbound : bits.toNat < 2 * signPlace := bits.toNat_lt
  have hsum : (if (⟨bits⟩ : Binary64).isNegative then signPlace else 0) +
      (⟨bits⟩ : Binary64).magnitude = bits.toNat := by
    unfold isNegative magnitude
    split
    next hsign =>
      have hle : signPlace ≤ bits.toNat := of_decide_eq_true hsign
      rw [Nat.mod_eq_sub_mod hle, Nat.mod_eq_of_lt (by omega)]
      omega
    next hsign =>
      have hlt : bits.toNat < signPlace := by simpa using hsign
      rw [Nat.mod_eq_of_lt hlt, Nat.zero_add]
  rw [ofMagnitude, hsum, UInt64.ofNat_toNat]

/-- A decimal is read as the double nearest to it, also where its size alone decides. -/
theorem ofScientific_eq (negative : Bool) (digits : Nat) (exponent : Int) :
    ofScientific negative digits exponent =
      ofMagnitude negative (Scientific.nearestMagnitude ⟨digits, exponent⟩) := by
  unfold ofScientific
  dsimp only
  split
  next hlow =>
    rw [Bool.or_eq_true, decide_eq_true_eq, decide_eq_true_eq] at hlow
    rw [Scientific.nearestMagnitude_of_low hlow]
  next hlow =>
    rw [Bool.or_eq_true, decide_eq_true_eq, decide_eq_true_eq, not_or] at hlow
    split
    next hhigh =>
      rw [Scientific.nearestMagnitude_of_high (Nat.pos_of_ne_zero hlow.1) hhigh]
      rfl
    next => rfl

section Literals

variable {whole fraction : List Char}

theorem takeSign_of_digits (hwhole : whole ≠ []) (hdigits : ∀ c ∈ whole, c.isDigit = true)
    (rest : List Char) : takeSign (whole ++ rest) = (false, whole ++ rest) := by
  obtain ⟨first, more, rfl⟩ := List.exists_cons_of_ne_nil hwhole
  have hfirst := hdigits first List.mem_cons_self
  have hminus : first ≠ '-' := fun hsign => absurd (hsign ▸ hfirst) (by decide)
  have hplus : first ≠ '+' := fun hsign => absurd (hsign ▸ hfirst) (by decide)
  unfold takeSign
  split
  next heq => exact absurd (List.cons.inj heq).1 hminus
  next heq => exact absurd (List.cons.inj heq).1 hplus
  next => rfl

/-- Digits, a point and digits are read as the number that all digits make up, of which as many
stand behind the point as are written there. -/
theorem ofLiteral?_pointed {text unsigned : List Char} {negative : Bool}
    (hsign : takeSign text = (negative, unsigned)) (hpointed : Pointed unsigned whole fraction) :
    ofLiteral? text = some (ofScientific negative (digitsValue (whole ++ fraction))
      (-fraction.length)) := by
  unfold ofLiteral?
  rw [hsign]
  dsimp only
  rw [hpointed.takeWhile_eq, hpointed.dropWhile_eq]
  change (if decide (whole = []) && decide (fraction.takeWhile Char.isDigit = []) then none else
    (readExponent? (fraction.dropWhile Char.isDigit)).map fun exponent =>
      ofScientific negative (digitsValue (whole ++ fraction.takeWhile Char.isDigit))
        (exponent - (fraction.takeWhile Char.isDigit).length)) = _
  have hright := hpointed.isDigit_fraction
  rw [List.takeWhile_eq_self_iff.mpr hright, List.dropWhile_eq_nil_iff.mpr hright]
  simp [hpointed.whole_ne_nil, readExponent?]

/-- Digits alone are read as the number that they make up. -/
theorem ofLiteral?_digits {text : List Char} {negative : Bool}
    (hsign : takeSign text = (negative, whole)) (hwhole : whole ≠ [])
    (hdigits : ∀ c ∈ whole, c.isDigit = true) :
    ofLiteral? text = some (ofScientific negative (digitsValue whole) 0) := by
  unfold ofLiteral?
  rw [hsign]
  dsimp only
  rw [List.takeWhile_eq_self_iff.mpr hdigits, List.dropWhile_eq_nil_iff.mpr hdigits]
  simp [hwhole, readExponent?]

end Literals

/-- The text of a finite double is its sign and its shortest digits. -/
theorem toList_toText {x : Binary64} (hfinite : x.isFinite = true) :
    x.toText.toList = (if x.isNegative then ['-'] else []) ++ (shortest x.magnitude).positional := by
  have hmagnitude : x.magnitude < infiniteMagnitude := of_decide_eq_true hfinite
  have hnan : x.isNaN = false := decide_eq_false (Nat.not_lt.mpr hmagnitude.le)
  have hinfinite : x.isInfinite = false := beq_eq_false_iff_ne.mpr hmagnitude.ne
  unfold toText
  rw [hnan, hinfinite]
  cases x.isNegative <;> simp

theorem takeSign_toText {x : Binary64} (hfinite : x.isFinite = true) :
    takeSign x.toText.toList = (x.isNegative, (shortest x.magnitude).positional) := by
  obtain ⟨whole, fraction, hpointed, _⟩ := (shortest x.magnitude).pointed_positional
  rw [toList_toText hfinite, hpointed.text_eq]
  cases x.isNegative with
  | false => exact takeSign_of_digits hpointed.whole_ne_nil hpointed.isDigit_whole _
  | true => rfl

/-- The text of a finite double is read as the double, bit for bit. -/
theorem ofLiteral?_toText {x : Binary64} (hfinite : x.isFinite = true) :
    ofLiteral? x.toText.toList = some x := by
  obtain ⟨whole, fraction, hpointed, hvalue⟩ := (shortest x.magnitude).pointed_positional
  have hmagnitude : x.magnitude < infiniteMagnitude := of_decide_eq_true hfinite
  have hnearest : Scientific.nearestMagnitude
      ⟨digitsValue (whole ++ fraction), -fraction.length⟩ = x.magnitude := by
    rw [Scientific.nearestMagnitude_congr hvalue, nearestMagnitude_shortest hmagnitude]
  rw [ofLiteral?_pointed (takeSign_toText hfinite) hpointed, ofScientific_eq, hnearest,
    ofMagnitude_magnitude]

theorem eq_infinity {x : Binary64} (hinfinite : x.isInfinite = true) :
    x = infinity x.isNegative := by
  have hmagnitude : x.magnitude = infiniteMagnitude := beq_iff_eq.mp hinfinite
  rw [infinity, ← hmagnitude, ofMagnitude_magnitude]

theorem toText_infinity (negative : Bool) :
    (infinity negative).toText = if negative then "-inf" else "inf" := by
  cases negative <;> decide +kernel

/-- A double is finite, infinite or no number. -/
theorem isFinite_or_isInfinite {x : Binary64} (hnumber : x.isNaN = false) :
    x.isFinite = true ∨ x.isInfinite = true := by
  have hle : ¬ infiniteMagnitude < x.magnitude := of_decide_eq_false hnumber
  rcases Nat.lt_or_eq_of_le (Nat.not_lt.mp hle) with hlt | heq
  · exact .inl (decide_eq_true hlt)
  · exact .inr (beq_iff_eq.mpr heq)

/-- Reads what doubles other than NaN are written as. -/
def ofText? (text : String) : Option Binary64 :=
  if text = "inf" then some (infinity false)
  else if text = "-inf" then some (infinity true)
  else ofLiteral? text.toList

theorem ofText?_toText {x : Binary64} (hnumber : x.isNaN = false) : ofText? x.toText = some x := by
  rcases isFinite_or_isInfinite hnumber with hfinite | hinfinite
  · have hliteral := ofLiteral?_toText hfinite
    have hword : ∀ word : String, ofLiteral? word.toList = none → x.toText ≠ word := by
      rintro word hnone rfl
      rw [hnone] at hliteral
      cases hliteral
    rw [ofText?, if_neg (hword "inf" (by decide +kernel)), if_neg (hword "-inf" (by decide +kernel)),
      hliteral]
  · rw [eq_infinity hinfinite, toText_infinity]
    cases x.isNegative <;> rfl

/-- Doubles with the same text are the same, bit for bit, unless they are NaNs. -/
theorem toText_injective {x y : Binary64} (hx : x.isNaN = false) (hy : y.isNaN = false)
    (hsame : x.toText = y.toText) : x = y := by
  have hread := ofText?_toText hx
  rw [hsame, ofText?_toText hy] at hread
  exact (Option.some.inj hread).symm

end Binary64

end RobotDescription
