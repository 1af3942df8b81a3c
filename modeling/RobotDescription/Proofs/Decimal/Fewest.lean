import RobotDescription.Proofs.Decimal.Shortest

/-!
# Shortest digits are fewest

If a decimal with few digits is rounded to a double, then so is one of the two neighbours of the
double on the grid of these digits, since the neighbour lies between the decimal and the double. So
the search, which goes from the coarsest grid on, does not get to more digits.
-/

namespace RobotDescription

namespace Binary64

attribute [local irreducible] unitsPerOne infiniteMagnitude

section Grid

variable {magnitude : Nat} {exponent : Int}

theorem choose?_eq_some {accepts : Scientific → Bool} {lower upper d : Scientific} {nearer : Bool}
    (hchosen : choose? accepts lower upper nearer = some d) : d = lower ∨ d = upper := by
  unfold choose? at hchosen
  split at hchosen
  next =>
    rw [Option.some_inj] at hchosen
    split at hchosen
    next => exact .inr hchosen.symm
    next => exact .inl hchosen.symm
  next => exact .inl (Option.some_inj.mp hchosen).symm
  next => exact .inr (Option.some_inj.mp hchosen).symm
  next => cases hchosen

/-- What is found on a grid is one of the two neighbours. -/
theorem onGrid?_eq_some {d : Scientific} (hgrid : onGrid? magnitude exponent = some d) :
    d = ⟨gridFloor magnitude exponent, exponent⟩ ∨
      d = ⟨gridFloor magnitude exponent + 1, exponent⟩ :=
  choose?_eq_some hgrid

/-- If some multiple of a power of ten is rounded to a magnitude, something is found on its grid. -/
theorem onGrid?_ne_none_of_isNearest (hfinite : magnitude < infiniteMagnitude) {digits : Nat}
    (hnearest : IsNearest (Scientific.value ⟨digits, exponent⟩) magnitude) :
    onGrid? magnitude exponent ≠ none := by
  intro hnone
  obtain ⟨hbelow, habove⟩ := gridFloor_spec magnitude exponent
  rcases onGrid?_spec magnitude exponent with ⟨d, hfound, _⟩ | ⟨hfloor, hnext, _⟩
  · rw [hnone] at hfound
    cases hfound
  · rw [ne_eq, Scientific.nearestMagnitude_eq_iff _ hfinite] at hfloor hnext
    have hstep := (ten_zpow_pos exponent).le
    rcases Nat.lt_or_ge (gridFloor magnitude exponent) digits with hlt | hle
    · refine hnext (Scientific.isNearest_of_between _ hnearest (.inr ⟨?_, ?_⟩))
      · exact_mod_cast habove.le
      · exact mul_le_mul_of_nonneg_right (by exact_mod_cast hlt) hstep
    · refine hfloor (Scientific.isNearest_of_between _ hnearest (.inl ⟨?_, hbelow⟩))
      exact mul_le_mul_of_nonneg_right (by exact_mod_cast hle) hstep

end Grid

section Shortest

variable {magnitude : Nat} (hpos : 0 < magnitude) (hfinite : magnitude < infiniteMagnitude)
include hpos

theorem digits_pos {d : Scientific} (hnearest : IsNearest d.value magnitude) : 0 < d.digits := by
  refine Nat.pos_of_ne_zero fun hzero => hpos.ne' (hnearest.unique ?_)
  have hvalue : d.value = value 0 := by
    rw [Scientific.value, hzero, Nat.cast_zero, zero_mul, value_zero]
  rw [hvalue]
  exact isNearest_value 0

/-- On the grid of some digits the neighbours of a value have no more digits, but for a one with zeros
behind it. -/
theorem digits_le_of_onGrid? {d : Scientific} {length : Nat}
    (hgrid : onGrid? magnitude (decimalPlace magnitude - length) = some d) :
    d.digits ≤ Nat.pow 10 length := by
  have hfloor : gridFloor magnitude (decimalPlace magnitude - length) < 10 ^ length := by
    have hstep := ten_zpow_pos (decimalPlace magnitude - length)
    have hscale : ((10 ^ length : Nat) : ℚ) * 10 ^ (decimalPlace magnitude - length) =
        10 ^ decimalPlace magnitude := by
      rw [pow_mul_ten_zpow, sub_add_cancel]
    have hbelow := lt_of_le_of_lt (gridFloor_spec magnitude (decimalPlace magnitude - length)).1
      (decimalPlace_spec hpos).2
    rw [← hscale, mul_lt_mul_iff_of_pos_right hstep] at hbelow
    exact_mod_cast hbelow
  rcases onGrid?_eq_some hgrid with rfl | rfl
  · exact hfloor.le
  · exact hfloor

include hfinite

/-- If a decimal of some digits is rounded to a magnitude, something is found on the grid of so many
digits. -/
theorem onGrid?_ne_none_of_length {d : Scientific} {length : Nat}
    (hlength : d.digits < Nat.pow 10 length) (hnearest : IsNearest d.value magnitude) :
    onGrid? magnitude (decimalPlace magnitude - length) ≠ none := by
  obtain ⟨coarse, hcoarse⟩ : ∃ coarse, coarse = decimalPlace magnitude - length := ⟨_, rfl⟩
  rw [← hcoarse]
  -- A finer decimal is below the first digit of the value, which is on every grid.
  suffices hcandidate : ∃ digits : Nat, IsNearest (Scientific.value ⟨digits, coarse⟩) magnitude by
    obtain ⟨digits, hdigits⟩ := hcandidate
    exact onGrid?_ne_none_of_isNearest hfinite hdigits
  rcases lt_or_ge d.exponent coarse with hfine | hle
  · have hlengthPos : 0 < length := by
      refine Nat.pos_of_ne_zero fun hzero => ?_
      rw [hzero] at hlength
      exact absurd (Nat.lt_one_iff.mp hlength) (digits_pos hpos hnearest).ne'
    have hplace : coarse + (length - 1 : Nat) = decimalPlace magnitude - 1 := by omega
    have hfirst : Scientific.value ⟨10 ^ (length - 1), coarse⟩ =
        10 ^ (decimalPlace magnitude - 1) := by
      rw [Scientific.value, pow_mul_ten_zpow, hplace]
    refine ⟨10 ^ (length - 1), Scientific.isNearest_of_between _ hnearest (.inl ⟨?_, ?_⟩)⟩
    · calc d.value ≤ ((10 ^ length : Nat) : ℚ) * 10 ^ d.exponent :=
            mul_le_mul_of_nonneg_right (by exact_mod_cast hlength.le) (ten_zpow_pos _).le
        _ = 10 ^ (d.exponent + length) := pow_mul_ten_zpow _ _
        _ ≤ 10 ^ (decimalPlace magnitude - 1) := zpow_le_zpow_right₀ (by norm_num) (by omega)
        _ = _ := hfirst.symm
    · rw [hfirst]
      exact (decimalPlace_spec hpos).1
  · obtain ⟨zeros, hzeros⟩ := Int.le.dest hle
    have hvalue : Scientific.value ⟨d.digits * Nat.pow 10 zeros, coarse⟩ = d.value := by
      rw [Scientific.value_shift, hzeros]
    exact ⟨d.digits * Nat.pow 10 zeros, hvalue ▸ hnearest⟩

/-- The shortest digits do not end in a zero, and no decimal of fewer digits is rounded to the
magnitude. -/
theorem shortest_fewest :
    (shortest magnitude).digits % 10 ≠ 0 ∧
      ∀ (d : Scientific) (length : Nat), d.digits < Nat.pow 10 length →
        IsNearest d.value magnitude → (shortest magnitude).digits < Nat.pow 10 length := by
  obtain ⟨n, hn, found, hgrid, hshortest, hnone⟩ := shortest_spec hpos hfinite
  have hnearest := ((shortest magnitude).nearestMagnitude_eq_iff hfinite).mp
    (nearestMagnitude_shortest hfinite)
  have hdigits := digits_pos hpos hnearest
  obtain ⟨_, hfewer, hlast⟩ := found.dropZeros_spec 20
  rw [← hshortest] at hfewer hlast
  have hbound : found.digits ≤ Nat.pow 10 (n + 1) :=
    digits_le_of_onGrid? hpos (by exact_mod_cast hgrid)
  have hend : (shortest magnitude).digits % 10 ≠ 0 := by
    refine hlast (Nat.lt_of_lt_of_le hdigits hfewer) (Nat.lt_of_le_of_lt hbound ?_)
    exact Nat.pow_lt_pow_right (by decide) (by omega)
  refine ⟨hend, fun d length hlength hd => ?_⟩
  by_contra hmore
  -- so these digits would have been found before
  have hshorter : length < n + 1 := by
    have hround : Nat.pow 10 (n + 1) % 10 = 0 := Nat.mul_mod_left _ _
    have hstrict : (shortest magnitude).digits ≠ Nat.pow 10 (n + 1) := by
      intro hsame
      rw [hsame] at hend
      exact hend hround
    rw [← Nat.pow_lt_pow_iff_right (by decide : 1 < 10)]
    change Nat.pow 10 length < Nat.pow 10 (n + 1)
    omega
  have hsome := onGrid?_ne_none_of_length hpos hfinite hlength hd
  rcases Nat.eq_zero_or_pos length with rfl | hlengthPos
  · exact absurd (Nat.lt_one_iff.mp hlength) (digits_pos hpos hd).ne'
  · obtain ⟨fewer, rfl⟩ := Nat.exists_eq_add_one.mpr hlengthPos
    exact hsome (by exact_mod_cast hnone fewer (by omega))

end Shortest

end Binary64

end RobotDescription
