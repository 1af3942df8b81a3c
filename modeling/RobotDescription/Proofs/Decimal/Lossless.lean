import Mathlib.Data.List.DropRight
import RobotDescription.Proofs.Decimal.Denoting
import RobotDescription.Proofs.Decimal.Fewest
import RobotDescription.Proofs.Xacro.Escaping

/-!
# Texts of doubles lose nothing

The text of a finite double is a decimal with a point. Rounding takes the decimal back to the double,
and takes no decimal of fewer digits there, where zeros before and after the digits do not count. So
the text tells which double it is, also beside those of the infinities.
-/

namespace RobotDescription

/-- Digits without the zeros before and after them. -/
def significant (digits : List Char) : List Char :=
  (digits.dropWhile (· = '0')).rdropWhile (· = '0')

theorem exists_zeros_significant (digits : List Char) :
    ∃ before after, digits =
      List.replicate before '0' ++ significant digits ++ List.replicate after '0' := by
  have hzeros : ∀ zeros : List Char, (∀ c ∈ zeros, decide (c = '0') = true) →
      zeros = List.replicate zeros.length '0' :=
    fun zeros hmem => List.eq_replicate_of_mem fun c hc => of_decide_eq_true (hmem c hc)
  have hbefore := hzeros (digits.takeWhile (· = '0')) fun _ => List.mem_takeWhile_imp
  have hafter := hzeros ((digits.dropWhile (· = '0')).rtakeWhile (· = '0')) fun _ =>
    List.mem_rtakeWhile_imp
  refine ⟨(digits.takeWhile (· = '0')).length,
    ((digits.dropWhile (· = '0')).rtakeWhile (· = '0')).length, ?_⟩
  rw [← hbefore, ← hafter, List.append_assoc, significant, List.rdropWhile_append_rtakeWhile,
    List.takeWhile_append_dropWhile]

theorem length_significant_le {n : Nat} (hpos : 0 < n) (before after : Nat) :
    (significant (List.replicate before '0' ++ Nat.toDigits 10 n ++
      List.replicate after '0')).length ≤ decimalLength n := by
  have hzeros : ∀ count, ∀ c ∈ List.replicate count '0', decide (c = '0') = true :=
    fun count c hmem => decide_eq_true (List.eq_of_mem_replicate hmem)
  have hfirst : (Nat.toDigits 10 n ++ List.replicate after '0').dropWhile (· = '0') =
      Nat.toDigits 10 n ++ List.replicate after '0' := by
    obtain ⟨first, more, hdigits⟩ :=
      List.exists_cons_of_ne_nil (Nat.toDigits_ne_nil : Nat.toDigits 10 n ≠ [])
    have hhead := head?_toDigits_ne hpos
    rw [hdigits] at hhead
    rw [hdigits, List.cons_append, List.dropWhile_cons_of_neg]
    simpa using hhead
  rw [significant, List.append_assoc, List.dropWhile_append_of_pos (hzeros before), hfirst,
    List.rdropWhile, List.reverse_append, List.reverse_replicate,
    List.dropWhile_append_of_pos (hzeros after)]
  exact (List.rdropWhile_prefix (· = '0') (Nat.toDigits 10 n)).length_le

theorem isDigit_significant {digits : List Char} (hdigits : ∀ c ∈ digits, c.isDigit = true) :
    ∀ c ∈ significant digits, c.isDigit = true := by
  obtain ⟨before, after, hzeros⟩ := exists_zeros_significant digits
  intro c hmem
  refine hdigits c ?_
  rw [hzeros]
  exact List.mem_append_left _ (List.mem_append_right _ hmem)

theorem significant_eq_nil {digits : List Char} (hdigits : ∀ c ∈ digits, c.isDigit = true)
    (hzero : digitsValue digits = 0) : significant digits = [] := by
  have hzeros := (digitsValue_eq_zero_iff hdigits).mp hzero
  rw [significant, List.dropWhile_eq_nil_iff.mpr fun c hmem => decide_eq_true (hzeros c hmem),
    List.rdropWhile_nil]

namespace Scientific

/-- Positional notation in which a whole number has no point. -/
def plain (d : Scientific) : List Char :=
  match d.exponent with
  | .ofNat zeros => Nat.toDigits 10 d.digits ++ List.replicate zeros '0'
  | .negSucc _ => d.positional

/-- Exactly the numbers without a point get the fraction `0`. -/
theorem positional_eq_plain (d : Scientific) :
    d.positional = if '.' ∈ d.plain then d.plain else d.plain ++ ['.', '0'] := by
  obtain ⟨digits, exponent⟩ := d
  cases exponent with
  | ofNat zeros =>
      have hpoint : '.' ∉ plain ⟨digits, .ofNat zeros⟩ := by
        intro hmem
        rcases List.mem_append.mp hmem with hmem | hmem
        · exact absurd (isDigit_toDigits digits _ hmem) (by decide)
        · exact absurd (isDigit_replicate_zero zeros _ hmem) (by decide)
      rw [if_neg hpoint]
      rfl
  | negSucc below =>
      obtain ⟨whole, fraction, hpointed, _⟩ := pointed_positional ⟨digits, .negSucc below⟩
      have hpoint : '.' ∈ plain ⟨digits, .negSucc below⟩ := by
        change '.' ∈ positional ⟨digits, .negSucc below⟩
        rw [hpointed.text_eq]
        simp
      rw [if_pos hpoint]
      rfl

end Scientific

namespace Binary64

attribute [local irreducible] unitsPerOne infiniteMagnitude

/-- The shortest text of a double, in which a whole number has no point. -/
def plainText (x : Binary64) : String :=
  if x.isNaN then "NaN"
  else
    let unsigned := if x.isInfinite then "inf" else String.ofList (shortest x.magnitude).plain
    if x.isNegative then "-" ++ unsigned else unsigned

/-- The text of a double is its shortest text, and `.0` if it is finite and that has no point. -/
theorem toText_eq_plainText (x : Binary64) :
    x.toText = if x.isFinite && !x.plainText.toList.contains '.' then x.plainText ++ ".0"
      else x.plainText := by
  unfold toText plainText
  cases hfinite : x.isFinite with
  | false =>
      rw [Bool.false_and, if_neg Bool.false_ne_true]
      cases hnumber : x.isNaN with
      | true => rfl
      | false =>
          rw [(isFinite_or_isInfinite hnumber).resolve_left (by simp [hfinite])]
          rfl
  | true =>
      have hmagnitude : x.magnitude < infiniteMagnitude := of_decide_eq_true hfinite
      have hnumber : x.isNaN = false := decide_eq_false (Nat.not_lt.mpr hmagnitude.le)
      have hinfinite : x.isInfinite = false := beq_eq_false_iff_ne.mpr hmagnitude.ne
      rw [hnumber, hinfinite, Scientific.positional_eq_plain]
      by_cases hpoint : '.' ∈ (shortest x.magnitude).plain
      · cases x.isNegative <;> simp [hpoint]
      · cases x.isNegative <;> simp [hpoint, ← String.toList_inj]

/-- How a finite double is written: with digits `whole` before and digits `fraction` behind a point. -/
structure Written (x : Binary64) (whole fraction : List Char) : Prop where
  toList_eq : x.toText.toList =
    (if x.isNegative then ['-'] else []) ++ whole ++ '.' :: fraction
  isWhole : IsWhole whole
  fraction_ne_nil : fraction ≠ []
  isDigit_fraction : ∀ c ∈ fraction, c.isDigit = true
  isNearest : IsNearest (Scientific.value ⟨digitsValue (whole ++ fraction), -fraction.length⟩)
    x.magnitude
  /-- Any decimal is made of digits and the place of a point, which may be far from the digits. -/
  fewest : ∀ (digits : List Char) (exponent : Int), (∀ c ∈ digits, c.isDigit = true) →
    IsNearest (Scientific.value ⟨digitsValue digits, exponent⟩) x.magnitude →
      (significant (whole ++ fraction)).length ≤ (significant digits).length
  eq_zero_of_getLast : fraction.getLast? = some '0' → fraction = ['0']
  eq_zero_iff : fraction = ['0'] ↔
    ∃ n : Nat, Scientific.value ⟨digitsValue (whole ++ fraction), -fraction.length⟩ = n

section Shortest

variable {magnitude : Nat} (hfinite : magnitude < infiniteMagnitude)
include hfinite

theorem isNearest_shortest : IsNearest (shortest magnitude).value magnitude :=
  ((shortest magnitude).nearestMagnitude_eq_iff hfinite).mp (nearestMagnitude_shortest hfinite)

theorem decimalLength_shortest_le (hpos : 0 < magnitude) {digits : List Char} {exponent : Int}
    (hdigits : ∀ c ∈ digits, c.isDigit = true)
    (hnearest : IsNearest (Scientific.value ⟨digitsValue digits, exponent⟩) magnitude) :
    decimalLength (shortest magnitude).digits ≤ (significant digits).length := by
  obtain ⟨before, after, hzeros⟩ := exists_zeros_significant digits
  rw [hzeros, digitsValue_zeros_append, Scientific.value_shift] at hnearest
  have hfewer := (shortest_fewest hpos hfinite).2 _ _
    (digitsValue_lt (isDigit_significant hdigits)) hnearest
  by_contra hmore
  have hmany := pow_le_of_lt_decimalLength (digits_pos hpos (isNearest_shortest hfinite))
    (Nat.not_le.mp hmore)
  exact absurd hfewer (Nat.not_lt.mpr hmany)

end Shortest

/-- Of zero there is no digit that counts. -/
theorem length_significant_le_of_isNearest {magnitude : Nat} (hfinite : magnitude < infiniteMagnitude)
    {before after : Nat} {digits : List Char} {exponent : Int}
    (hdigits : ∀ c ∈ digits, c.isDigit = true)
    (hnearest : IsNearest (Scientific.value ⟨digitsValue digits, exponent⟩) magnitude) :
    (significant (List.replicate before '0' ++ Nat.toDigits 10 (shortest magnitude).digits ++
      List.replicate after '0')).length ≤ (significant digits).length := by
  rcases Nat.eq_zero_or_pos magnitude with rfl | hpos
  · have hzero : (shortest 0).digits = 0 := rfl
    rw [hzero, significant_eq_nil, List.length_nil]
    · exact Nat.zero_le _
    · exact List.forall_mem_append.mpr ⟨List.forall_mem_append.mpr
        ⟨isDigit_replicate_zero before, isDigit_toDigits 0⟩, isDigit_replicate_zero after⟩
    · rw [digitsValue_zeros_append, digitsValue_toDigits, Nat.zero_mul]
  · exact Nat.le_trans
      (length_significant_le (digits_pos hpos (isNearest_shortest hfinite)) before after)
      (decimalLength_shortest_le hfinite hpos hdigits hnearest)

theorem exists_written {x : Binary64} (hfinite : x.isFinite = true) :
    ∃ whole fraction, Written x whole fraction := by
  have hmagnitude : x.magnitude < infiniteMagnitude := of_decide_eq_true hfinite
  obtain ⟨whole, fraction, before, after, hpointed, hdigits, hafter, hone⟩ :=
    (shortest x.magnitude).positional_spec
  have hvalue := Scientific.value_pointed hdigits hafter
  have hlast : fraction.getLast? = some '0' → fraction = ['0'] := by
    intro hlast
    refine hone.resolve_right fun hnone => ?_
    subst hnone
    obtain ⟨front, rfl⟩ := List.getLast?_eq_some_iff.mp hlast
    rcases Nat.eq_zero_or_pos x.magnitude with hzero | hpos
    · have hexponent : (shortest 0).exponent = 0 := rfl
      rw [hzero, hexponent, List.length_append, List.length_singleton] at hafter
      omega
    · have hnumber := congrArg digitsValue hdigits
      have hfront : digitsValue ['0'] = 0 := rfl
      rw [digitsValue_zeros_append, digitsValue_toDigits, ← List.append_assoc, digitsValue_append,
        hfront, Nat.add_zero] at hnumber
      refine (shortest_fewest hpos hmagnitude).1 ?_
      change _ = _ * 1 at hnumber
      rw [Nat.mul_one] at hnumber
      rw [← hnumber]
      exact Nat.mul_mod_right 10 _
  refine ⟨whole, fraction, ?_, isWhole_of_pointed (exponent_shortest hmagnitude) hpointed,
    hpointed.fraction_ne_nil, hpointed.isDigit_fraction, hvalue ▸ isNearest_shortest hmagnitude, ?_,
    hlast, ?_⟩
  · rw [toList_toText hfinite, hpointed.text_eq, List.append_assoc]
  · intro digits exponent hcompetitor hnearest
    rw [hdigits]
    exact length_significant_le_of_isNearest hmagnitude hcompetitor hnearest
  · simp only [Scientific.value_pointed_eq_iff hpointed.isDigit_fraction]
    constructor
    · rintro rfl
      exact ⟨digitsValue whole, by decide, rfl⟩
    · rintro ⟨n, hzeros, _⟩
      refine hlast ?_
      rw [List.getLast?_eq_some_getLast hpointed.fraction_ne_nil, Option.some_inj]
      exact of_decide_eq_true (List.all_eq_true.mp hzeros _ (List.getLast_mem _))

/-- Texts of doubles are lossless positional notation: no two doubles but NaNs have the same one, and
no text holds a space or a double quote. -/
theorem toText_lossless :
    (∀ x : Binary64, x.toText =
      if x.isFinite && !x.plainText.toList.contains '.' then x.plainText ++ ".0"
      else x.plainText) ∧
    (∀ x : Binary64, x.isFinite = true →
      (∃ whole fraction, Written x whole fraction) ∧ ofLiteral? x.toText.toList = some x) ∧
    (∀ x : Binary64, x.isInfinite = true →
      x.toText = if x.isNegative then "-inf" else "inf") ∧
    (∀ x y : Binary64, x.isNaN = false → y.isNaN = false → x.toText = y.toText → x = y) ∧
    ∀ x : Binary64, ∀ c ∈ x.toText.toList, c ≠ ' ' ∧ c ≠ '"' := by
  refine ⟨toText_eq_plainText, fun x hfinite => ⟨exists_written hfinite, ofLiteral?_toText hfinite⟩,
    fun x hinfinite => ?_, fun _ _ => toText_injective, fun x => ?_⟩
  · conv_lhs => rw [eq_infinity hinfinite]
    exact toText_infinity x.isNegative
  · refine Xacro.forall_mem_toText (fun c hdigit => ⟨?_, ?_⟩) (by simp) x
    · rintro rfl
      exact absurd hdigit (by decide)
    · rintro rfl
      exact absurd hdigit (by decide)

example : (ofMagnitude true 0).toText = "-0.0" := by decide +kernel

end Binary64

end RobotDescription
