import Mathlib.Data.Rat.Floor
import Mathlib.Tactic.FieldSimp
import Mathlib.Tactic.Linarith
import RobotDescription.Decimal.Rounding

/-!
# Nearest doubles

What rounding finds is told without computing it: no other double is nearer to the rational, and if
one is equally near, the double that is found is the even one. There is only one such double, and a
greater rational does not have a lesser one.
-/

namespace RobotDescription

/-- What is rounded is at most a half away, and an odd number is never a half away. -/
theorem roundHalfEven_spec (numerator : Nat) {denominator rounded : Nat} (hpos : 0 < denominator)
    (hrounded : roundHalfEven numerator denominator = rounded) :
    2 * numerator ≤ 2 * (rounded * denominator) + denominator ∧
      2 * (rounded * denominator) ≤ 2 * numerator + denominator ∧
      (2 * numerator = 2 * (rounded * denominator) + denominator ∨
        2 * (rounded * denominator) = 2 * numerator + denominator → rounded % 2 = 0) := by
  have hdivision := Nat.div_add_mod numerator denominator
  have hrest := Nat.mod_lt numerator hpos
  unfold roundHalfEven at hrounded
  generalize numerator / denominator = quotient at hdivision hrounded
  generalize numerator % denominator = rest at hdivision hrest hrounded
  rw [Nat.mul_comm] at hdivision
  have hnext := Nat.add_one_mul quotient denominator
  dsimp only at hrounded
  split at hrounded
  next hlow =>
    subst hrounded
    omega
  next hlow =>
    split at hrounded
    next hhigh =>
      subst hrounded
      omega
    next hhigh =>
      -- the fraction is a half
      rcases Nat.mod_two_eq_zero_or_one quotient with heven | hodd
      · rw [heven, Nat.add_zero] at hrounded
        subst hrounded
        omega
      · rw [hodd] at hrounded
        subst hrounded
        omega

namespace Binary64

attribute [local irreducible] unitsPerOne infiniteMagnitude

theorem unitsPerOne_pos : 0 < unitsPerOne := by decide +kernel

/-- A magnitude is made of its scale and its significand, which has 53 bits unless the scale is the
least one. -/
theorem significandOf_spec (magnitude : Nat) :
    scaleOf magnitude * fractionCount + significandOf magnitude = magnitude ∧
      significandOf magnitude < 2 * fractionCount ∧
      (scaleOf magnitude = 0 ∨ fractionCount ≤ significandOf magnitude) := by
  have hdivision := Nat.div_add_mod magnitude fractionCount
  have hrest := Nat.mod_lt magnitude (by decide : 0 < fractionCount)
  unfold significandOf scaleOf
  generalize magnitude / fractionCount = exponent at hdivision ⊢
  generalize magnitude % fractionCount = fraction at hdivision hrest
  rw [Nat.mul_comm] at hdivision
  cases exponent with
  | zero => omega
  | succ scale =>
      rw [Nat.succ_mul] at hdivision
      rw [Nat.add_sub_cancel]
      omega

/-- A magnitude is made of a scale and a significand, also of one that carries into the next scale. -/
theorem unitsOf_eq {scale significand : Nat} (hscale : scale = 0 ∨ fractionCount ≤ significand)
    (hsignificand : significand ≤ 2 * fractionCount) :
    unitsOf (scale * fractionCount + significand) = significand * Nat.pow 2 scale := by
  have hunits : ∀ exponent rest : Nat, rest < fractionCount →
      exponent * fractionCount + rest = scale * fractionCount + significand →
      unitsOf (scale * fractionCount + significand) =
        (exponent * fractionCount + rest - (exponent - 1) * fractionCount) *
          Nat.pow 2 (exponent - 1) := by
    intro exponent rest hrest hsum
    have hscaleOf : scaleOf (exponent * fractionCount + rest) = exponent - 1 := by
      rw [scaleOf, Nat.mul_comm, Nat.mul_add_div (by decide), Nat.div_eq_of_lt hrest, Nat.add_zero]
    rw [← hsum, unitsOf, significandOf, hscaleOf]
  have hone := Nat.add_one_mul scale fractionCount
  have htwo := Nat.add_mul scale 2 fractionCount
  -- the stored exponent is 0 for a subnormal, else one more than the scale, or two after a carry
  by_cases hsmall : significand < fractionCount
  · obtain rfl : scale = 0 := by omega
    rw [hunits 0 significand hsmall rfl]
    simp
  · by_cases hcarry : significand < 2 * fractionCount
    · rw [hunits (scale + 1) (significand - fractionCount) (by omega) (by omega),
        Nat.add_sub_cancel]
      congr 1
      omega
    · obtain rfl : significand = 2 * fractionCount := by omega
      have hstep : Nat.pow 2 (scale + 1) = 2 * Nat.pow 2 scale := Nat.pow_succ'
      have hcount : (scale + 2) * fractionCount + 0 - (scale + 1) * fractionCount =
          fractionCount := by omega
      have hless : scale + 2 - 1 = scale + 1 := rfl
      rw [hunits (scale + 2) 0 (by decide) (by omega), hless, hcount, hstep, Nat.mul_left_comm,
        Nat.mul_assoc]

/-- From one magnitude to the next the value grows by a step of the first one's scale. -/
theorem unitsOf_succ (magnitude : Nat) :
    unitsOf (magnitude + 1) = unitsOf magnitude + Nat.pow 2 (scaleOf magnitude) := by
  obtain ⟨hsum, hbits, hnormal⟩ := significandOf_spec magnitude
  have hnext : scaleOf magnitude * fractionCount + (significandOf magnitude + 1) = magnitude + 1 := by
    omega
  rw [← hnext, unitsOf_eq (by omega) (by omega), Nat.add_one_mul, unitsOf]

theorem strictMono_unitsOf : StrictMono unitsOf :=
  strictMono_nat_of_lt_succ fun magnitude => by
    rw [unitsOf_succ]
    exact Nat.lt_add_of_pos_right (Nat.two_pow_pos _)

/-- The number that a magnitude stands for. Behind the finite magnitudes it goes on as if the exponents
did; so what counts as infinite begins at a power of two. -/
def value (magnitude : Nat) : ℚ :=
  unitsOf magnitude / unitsPerOne

theorem strictMono_value : StrictMono value := by
  intro magnitude other hlt
  have hunits : (unitsOf magnitude : ℚ) < unitsOf other := by
    exact_mod_cast strictMono_unitsOf hlt
  have hpos : (0 : ℚ) < unitsPerOne := by exact_mod_cast unitsPerOne_pos
  exact div_lt_div_of_pos_right hunits hpos

/-- No magnitude stands for a number nearer to a rational, and if another is as near, this one is
even. -/
structure IsNearest (q : ℚ) (magnitude : Nat) : Prop where
  nearest : ∀ other, |value magnitude - q| ≤ |value other - q|
  even : ∀ other, other ≠ magnitude → |value other - q| = |value magnitude - q| → magnitude % 2 = 0

/-- Of two numbers the greater one is at least as near to what lies at their middle or above it. -/
theorem abs_sub_le_abs_sub_iff_of_lt {low high q : ℚ} (hlt : low < high) :
    |high - q| ≤ |low - q| ↔ low + high ≤ 2 * q := by
  rcases abs_cases (high - q) with ⟨hhigh, _⟩ | ⟨hhigh, _⟩ <;>
    rcases abs_cases (low - q) with ⟨hlow, _⟩ | ⟨hlow, _⟩ <;>
      rw [hhigh, hlow] <;> constructor <;> intro <;> linarith

theorem abs_sub_le_abs_sub_iff_of_gt {low high q : ℚ} (hlt : low < high) :
    |low - q| ≤ |high - q| ↔ 2 * q ≤ low + high := by
  have hmirrored := abs_sub_le_abs_sub_iff_of_lt (q := -q) (neg_lt_neg hlt)
  rw [neg_sub_neg, neg_sub_neg, abs_sub_comm, abs_sub_comm q high] at hmirrored
  rw [hmirrored]
  constructor <;> intro <;> linarith

/-- A greater rational has no lesser nearest magnitude. -/
theorem IsNearest.mono {q q' : ℚ} {magnitude magnitude' : Nat} (hnearest : IsNearest q magnitude)
    (hnearest' : IsNearest q' magnitude') (hle : q ≤ q') : magnitude ≤ magnitude' := by
  by_contra hlt
  rw [Nat.not_le] at hlt
  have hvalue := strictMono_value hlt
  have habove := (abs_sub_le_abs_sub_iff_of_lt hvalue).mp (hnearest.nearest magnitude')
  have hbelow := (abs_sub_le_abs_sub_iff_of_gt hvalue).mp (hnearest'.nearest magnitude)
  -- both rationals are the middle, so both magnitudes are even and there is one between them
  obtain rfl : q = q' := by linarith
  have hsame : |value magnitude' - q| = |value magnitude - q| :=
    le_antisymm (hnearest'.nearest magnitude) (hnearest.nearest magnitude')
  have heven := hnearest.even magnitude' hlt.ne hsame
  have heven' := hnearest'.even magnitude hlt.ne' hsame.symm
  have hbetween : magnitude' + 1 < magnitude := by omega
  have hfirst := (abs_sub_le_abs_sub_iff_of_lt (strictMono_value hbetween)).mp
    (hnearest.nearest (magnitude' + 1))
  have hsecond := strictMono_value (Nat.lt_add_one magnitude')
  linarith

theorem IsNearest.unique {q : ℚ} {magnitude magnitude' : Nat} (hnearest : IsNearest q magnitude)
    (hnearest' : IsNearest q magnitude') : magnitude = magnitude' :=
  Nat.le_antisymm (hnearest.mono hnearest' le_rfl) (hnearest'.mono hnearest le_rfl)

theorem isNearest_value (magnitude : Nat) : IsNearest (value magnitude) magnitude where
  nearest other := by
    rw [sub_self, abs_zero]
    exact abs_nonneg _
  even other hne hsame := by
    rw [sub_self, abs_zero, abs_eq_zero, sub_eq_zero] at hsame
    exact absurd (strictMono_value.injective hsame) hne

theorem value_zero : value 0 = 0 := by
  rw [value, unitsOf, significandOf, Nat.zero_sub, Nat.zero_mul, Nat.cast_zero, zero_div]

theorem value_nonneg (magnitude : Nat) : 0 ≤ value magnitude :=
  div_nonneg (Nat.cast_nonneg _) (Nat.cast_nonneg _)

/-- Neighbours are apart by at least the `2 ^ 53`th part of the greater one. -/
theorem value_succ_le (magnitude : Nat) :
    value (magnitude + 1) ≤ 2 ^ 53 * (value (magnitude + 1) - value magnitude) := by
  have hbits := (significandOf_spec magnitude).2.1
  have hunits : unitsOf (magnitude + 1) ≤ 2 ^ 53 * (unitsOf (magnitude + 1) - unitsOf magnitude) := by
    rw [unitsOf_succ, Nat.add_sub_cancel_left, unitsOf, ← Nat.succ_mul]
    exact Nat.mul_le_mul_right _ hbits
  have hle : unitsOf magnitude ≤ unitsOf (magnitude + 1) :=
    strictMono_unitsOf.monotone (Nat.le_succ magnitude)
  rw [value, value, ← sub_div, ← mul_div_assoc, ← Nat.cast_sub hle]
  exact div_le_div_of_nonneg_right (by exact_mod_cast hunits) (Nat.cast_nonneg _)

/-- The magnitude on whose side of the middles to its neighbours a rational lies is the nearest. -/
theorem isNearest_of_middles {q : ℚ} {magnitude : Nat}
    (hbelow : ∀ before, magnitude = before + 1 → value before + value magnitude < 2 * q)
    (habove : 2 * q < value magnitude + value (magnitude + 1)) : IsNearest q magnitude := by
  have hstrict : ∀ other, other ≠ magnitude → |value magnitude - q| < |value other - q| := by
    intro other hne
    rw [← not_le]
    rcases Nat.lt_or_gt_of_ne hne with hlt | hgt
    · obtain ⟨before, rfl⟩ := Nat.exists_eq_add_one.mpr (Nat.zero_lt_of_lt hlt)
      have hother := strictMono_value.monotone (Nat.le_of_lt_succ hlt)
      rw [abs_sub_le_abs_sub_iff_of_gt (strictMono_value hlt)]
      linarith [hbelow before rfl]
    · have hother := strictMono_value.monotone (Nat.succ_le_of_lt hgt)
      rw [Nat.succ_eq_add_one] at hother
      rw [abs_sub_le_abs_sub_iff_of_lt (strictMono_value hgt)]
      linarith
  constructor
  · intro other
    by_cases hsame : other = magnitude
    · rw [hsame]
    · exact (hstrict other hsame).le
  · intro other hne hsame
    exact absurd hsame (hstrict other hne).ne'

/-- Within the precision of seventeen decimal digits the value of a magnitude is rounded to it. -/
theorem isNearest_of_near {q : ℚ} {magnitude : Nat}
    (hnear : 2 * 10 ^ 16 * |q - value magnitude| ≤ value magnitude) : IsNearest q magnitude := by
  have hupper := le_abs_self (q - value magnitude)
  have hlower := neg_abs_le (q - value magnitude)
  refine isNearest_of_middles ?_ ?_
  · rintro before rfl
    have hgap := value_succ_le before
    have hmono := strictMono_value (Nat.lt_add_one before)
    linarith
  · have hgap := value_succ_le magnitude
    have hmono := strictMono_value (Nat.lt_add_one magnitude)
    linarith

theorem unitsOf_add_le_of_lt {scale significand other : Nat}
    (hscale : scale = 0 ∨ fractionCount ≤ significand) (hsignificand : significand ≤ 2 * fractionCount)
    (hlt : scale * fractionCount + significand < other) :
    significand * Nat.pow 2 scale + Nat.pow 2 scale ≤ unitsOf other := by
  obtain ⟨magnitude, hmagnitude⟩ : ∃ n, n = scale * fractionCount + significand := ⟨_, rfl⟩
  have hstep : scale ≤ scaleOf magnitude := by
    rcases hscale with rfl | hnormal
    · exact Nat.zero_le _
    · have hexponent : scale + 1 ≤ magnitude / fractionCount := by
        rw [Nat.le_div_iff_mul_le (by decide), Nat.add_one_mul]
        omega
      exact Nat.le_sub_of_add_le hexponent
  have hunits := unitsOf_eq hscale hsignificand
  rw [← hmagnitude] at hlt hunits
  calc significand * Nat.pow 2 scale + Nat.pow 2 scale
      ≤ unitsOf magnitude + Nat.pow 2 (scaleOf magnitude) := by
        rw [hunits]
        exact Nat.add_le_add_left (Nat.pow_le_pow_right (by decide) hstep) _
    _ = unitsOf (magnitude + 1) := (unitsOf_succ magnitude).symm
    _ ≤ unitsOf other := strictMono_unitsOf.monotone hlt

/-- Below the least significand of a scale the values are twice as dense. -/
theorem unitsOf_add_le_of_gt {scale significand other : Nat}
    (hscale : scale = 0 ∨ fractionCount ≤ significand) (hsignificand : significand ≤ 2 * fractionCount)
    (hlt : other < scale * fractionCount + significand) :
    unitsOf other + Nat.pow 2 scale ≤ significand * Nat.pow 2 scale ∨
      0 < scale ∧ significand = fractionCount ∧ unitsOf other < significand * Nat.pow 2 scale := by
  by_cases hleast : 0 < scale ∧ significand = fractionCount
  · refine .inr ⟨hleast.1, hleast.2, ?_⟩
    rw [← unitsOf_eq hscale hsignificand]
    exact strictMono_unitsOf hlt
  · have hcount : 0 < fractionCount := by decide
    obtain ⟨before, rfl⟩ : ∃ before, significand = before + 1 :=
      Nat.exists_eq_add_one.mpr (by rcases hscale with rfl | hscale <;> omega)
    have hunits : unitsOf (scale * fractionCount + before) = before * Nat.pow 2 scale :=
      unitsOf_eq (by omega) (by omega)
    rw [Nat.add_one_mul, ← hunits]
    exact .inl (Nat.add_le_add_right (strictMono_unitsOf.monotone (by omega)) _)

/-- The distance from a fraction, in units and parts of them. -/
theorem abs_value_sub {numerator denominator : Nat} (hpos : 0 < denominator) (magnitude : Nat) :
    |value magnitude - numerator / denominator| =
      (((unitsOf magnitude * denominator : Nat) - (numerator * unitsPerOne : Nat) : Int).natAbs : ℚ) /
        (unitsPerOne * denominator) := by
  have hunits : (0 : ℚ) < unitsPerOne := by exact_mod_cast unitsPerOne_pos
  have hdenominator : (0 : ℚ) < denominator := by exact_mod_cast hpos
  rw [value, div_sub_div _ _ hunits.ne' hdenominator.ne', abs_div,
    abs_of_pos (mul_pos hunits hdenominator), Nat.cast_natAbs, Int.cast_abs]
  push_cast
  rw [mul_comm (unitsPerOne : ℚ) (numerator : ℚ)]

/-- A nearest magnitude can be found by distances that are whole numbers. -/
theorem isNearest_of_natAbs {numerator denominator magnitude : Nat} (hpos : 0 < denominator)
    (hnatAbs : ∀ other, other ≠ magnitude →
      let distance := fun n => ((unitsOf n * denominator : Nat) - (numerator * unitsPerOne : Nat) :
        Int).natAbs
      distance magnitude ≤ distance other ∧
        (distance other = distance magnitude → magnitude % 2 = 0)) :
    IsNearest (numerator / denominator) magnitude := by
  have hscale : (0 : ℚ) < unitsPerOne * denominator := by
    exact_mod_cast Nat.mul_pos unitsPerOne_pos hpos
  constructor
  · intro other
    by_cases hsame : other = magnitude
    · rw [hsame]
    · rw [abs_value_sub hpos, abs_value_sub hpos]
      exact div_le_div_of_nonneg_right (by exact_mod_cast (hnatAbs other hsame).1) hscale.le
  · intro other hne hsame
    rw [abs_value_sub hpos, abs_value_sub hpos, div_left_inj' hscale.ne'] at hsame
    exact (hnatAbs other hne).2 (by exact_mod_cast hsame)

/-- Above the least scale the significand has all its bits, and it never has more. -/
theorem log2_scale_spec {units denominator scale step : Nat} (hpos : 0 < denominator)
    (hscale : (units / denominator).log2 - 52 = scale)
    (hstep : Nat.pow 2 scale * denominator = step) :
    (scale = 0 ∨ fractionCount * step ≤ units) ∧ units < 2 * (fractionCount * step) := by
  have hproduct : fractionCount * step = 2 ^ (scale + 52) * denominator := by
    have hcount : fractionCount = 2 ^ 52 := rfl
    rw [hcount, ← hstep, ← Nat.mul_assoc, Nat.pow_add, Nat.mul_comm (2 ^ scale)]
    rfl
  rw [hproduct]
  constructor
  · refine (Nat.eq_zero_or_pos scale).imp_right fun hscalePos => ?_
    have hnonzero : units / denominator ≠ 0 := by
      rintro hzero
      rw [hzero, Nat.log2_zero] at hscale
      omega
    rw [← Nat.le_div_iff_mul_le hpos, ← Nat.le_log2 hnonzero]
    omega
  · have hlt : units / denominator < 2 ^ (scale + 53) :=
      Nat.lt_of_lt_of_le Nat.lt_log2_self (Nat.pow_le_pow_right (by decide) (by omega))
    rw [Nat.div_lt_iff_lt_mul hpos, Nat.pow_succ'] at hlt
    rwa [← Nat.mul_assoc]

/-- Rounding as if the exponents had no end. -/
theorem isNearest_rounded {numerator denominator scale significand : Nat} (hpos : 0 < denominator)
    (hscale : (numerator * unitsPerOne / denominator).log2 - 52 = scale)
    (hsignificand : roundHalfEven (numerator * unitsPerOne) (denominator * Nat.pow 2 scale) =
      significand) :
    IsNearest (numerator / denominator) (scale * fractionCount + significand) := by
  obtain ⟨units, hunits⟩ : ∃ units, numerator * unitsPerOne = units := ⟨_, rfl⟩
  obtain ⟨step, hstep⟩ : ∃ step, Nat.pow 2 scale * denominator = step := ⟨_, rfl⟩
  have hstepPos : 0 < step := hstep ▸ Nat.mul_pos (Nat.two_pow_pos scale) hpos
  rw [hunits] at hscale
  rw [hunits, Nat.mul_comm, hstep] at hsignificand
  obtain ⟨hupper, hlower, htie⟩ := roundHalfEven_spec units hstepPos hsignificand
  obtain ⟨hleast, hmost⟩ := log2_scale_spec hpos hscale hstep
  have hnormal : scale = 0 ∨ fractionCount ≤ significand := by
    refine hleast.imp_right fun hunits => ?_
    by_contra hlt
    have hless := Nat.mul_le_mul_right step (Nat.not_le.mp hlt)
    rw [Nat.succ_mul] at hless
    omega
  have hbits : significand ≤ 2 * fractionCount := by
    by_contra hgt
    have hmore := Nat.mul_le_mul_right step (Nat.not_le.mp hgt)
    rw [Nat.succ_mul, Nat.mul_assoc] at hmore
    omega
  have hvalue : unitsOf (scale * fractionCount + significand) * denominator =
      significand * step := by
    rw [unitsOf_eq hnormal hbits, Nat.mul_assoc, hstep]
  have hparity : (scale * fractionCount + significand) % 2 = significand % 2 := by
    have hcount : fractionCount = 4503599627370496 := rfl
    rw [hcount]
    omega
  refine isNearest_of_natAbs hpos fun other hne => ?_
  simp only [hvalue, hunits, hparity]
  -- every other magnitude is a step away, but below the first one of a scale the steps are narrower
  rcases Nat.lt_or_gt_of_ne hne with hgt | hlt
  · rcases unitsOf_add_le_of_gt hnormal hbits hgt with hapart | ⟨hscalePos, rfl, hbelow⟩
    · have hother := Nat.mul_le_mul_right denominator hapart
      rw [Nat.add_mul, Nat.mul_assoc significand, hstep] at hother
      omega
    · have hother := Nat.mul_lt_mul_of_pos_right hbelow hpos
      rw [Nat.mul_assoc fractionCount, hstep] at hother
      omega
  · have hother := Nat.mul_le_mul_right denominator (unitsOf_add_le_of_lt hnormal hbits hlt)
    rw [Nat.add_mul, Nat.mul_assoc, hstep] at hother
    omega

theorem exists_isNearest (numerator : Nat) {denominator : Nat} (hpos : 0 < denominator) :
    ∃ magnitude, IsNearest (numerator / denominator) magnitude ∧
      nearestMagnitude numerator denominator = min infiniteMagnitude magnitude :=
  ⟨_, isNearest_rounded hpos rfl rfl, rfl⟩

/-- Rounding finds a finite magnitude exactly if it is the nearest one. -/
theorem nearestMagnitude_eq_iff {numerator denominator magnitude : Nat} (hpos : 0 < denominator)
    (hfinite : magnitude < infiniteMagnitude) :
    nearestMagnitude numerator denominator = magnitude ↔
      IsNearest (numerator / denominator) magnitude := by
  obtain ⟨rounded, hrounded, hclipped⟩ := exists_isNearest numerator hpos
  rw [hclipped]
  constructor
  · intro hsame
    obtain rfl : rounded = magnitude := by omega
    exact hrounded
  · intro hnearest
    rw [hrounded.unique hnearest]
    omega

/-- What 64 bits hold is far from what is too large for a double. -/
theorem nearestMagnitude_lt_of_lt {n : Nat} (hsmall : n < 2 ^ 64) :
    nearestMagnitude n 1 < infiniteMagnitude := by
  obtain ⟨power, hpower⟩ : ∃ power, power = 1086 * fractionCount + fractionCount := ⟨_, rfl⟩
  obtain ⟨magnitude, hmagnitude, hclipped⟩ := exists_isNearest n Nat.one_pos
  have hunits : n * unitsPerOne ≤ unitsOf power := by
    have hexact : unitsOf power = 2 ^ 64 * unitsPerOne := by
      rw [hpower, unitsOf_eq (.inr le_rfl) (by omega)]
      decide +kernel
    rw [hexact]
    exact Nat.mul_le_mul_right _ hsmall.le
  have hle : ((n : Nat) : ℚ) / (1 : Nat) ≤ value power := by
    rw [Nat.cast_one, div_one, value, le_div_iff₀ (by exact_mod_cast unitsPerOne_pos)]
    exact_mod_cast hunits
  have hbelow := hmagnitude.mono (isNearest_value power) hle
  have hfar : power < infiniteMagnitude := by
    rw [hpower]
    decide +kernel
  omega

end Binary64

end RobotDescription
