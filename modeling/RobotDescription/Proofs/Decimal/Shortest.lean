import Mathlib.Algebra.Order.Floor.Semifield
import Mathlib.Data.List.Basic
import RobotDescription.Proofs.Decimal.Rounding

/-!
# Shortest digits read back

On a grid of seventeen digits the multiple nearest to a double is rounded to it again, since the
digits are more precise than the double's own neighbours are apart. So the search for shortest digits
finds some, and whatever it finds is rounded to the double that it stands for.
-/

namespace RobotDescription

namespace Scientific

/-- Only zeros are dropped, and none is left if there are few enough of them. -/
theorem dropZeros_spec (fuel : Nat) (d : Scientific) :
    (d.dropZeros fuel).value = d.value ∧ (d.dropZeros fuel).digits ≤ d.digits ∧
      (0 < d.digits → d.digits < Nat.pow 10 fuel → (d.dropZeros fuel).digits % 10 ≠ 0) := by
  induction fuel generalizing d with
  | zero =>
      refine ⟨rfl, Nat.le_refl _, fun hpos hlt => ?_⟩
      exact absurd (Nat.lt_one_iff.mp hlt) hpos.ne'
  | succ fuel ih =>
      unfold dropZeros
      split
      next hzero =>
        have hdigits : d.digits / 10 * Nat.pow 10 1 = d.digits :=
          Nat.div_mul_cancel (Nat.dvd_of_mod_eq_zero hzero)
        have hpower : Nat.pow 10 (fuel + 1) = Nat.pow 10 fuel * 10 := rfl
        have hshift := value_shift (d.digits / 10) 1 d.exponent
        rw [hdigits] at hshift
        obtain ⟨hvalue, hle, hlast⟩ := ih ⟨d.digits / 10, d.exponent + 1⟩
        refine ⟨hvalue.trans hshift.symm, hle.trans (Nat.div_le_self _ _), fun hpos hlt => ?_⟩
        rw [hpower] at hlt
        exact hlast (Nat.div_pos_iff.mpr ⟨by decide, by omega⟩) (Nat.div_lt_of_lt_mul (by omega))
      next hlast => exact ⟨rfl, Nat.le_refl _, fun _ _ => hlast⟩

end Scientific

namespace Binary64

attribute [local irreducible] unitsPerOne infiniteMagnitude

section Grid

variable {magnitude : Nat} {exponent : Int}

theorem gridFloor_eq_floor (magnitude : Nat) (exponent : Int) :
    gridFloor magnitude exponent = ⌊value magnitude / 10 ^ exponent⌋₊ := by
  have hquotient : value magnitude / 10 ^ exponent =
      (unitsOf magnitude * 10 ^ (-exponent).toNat : Nat) /
        (unitsPerOne * 10 ^ exponent.toNat : Nat) := by
    rw [value, ten_zpow_eq, div_div_div_eq]
    push_cast
    rfl
  rw [hquotient, Nat.floor_div_eq_div]
  rfl

/-- On a grid a value lies between its two neighbours. -/
theorem gridFloor_spec (magnitude : Nat) (exponent : Int) :
    gridFloor magnitude exponent * (10 : ℚ) ^ exponent ≤ value magnitude ∧
      value magnitude < (gridFloor magnitude exponent + 1) * 10 ^ exponent := by
  have hstep := ten_zpow_pos exponent
  rw [gridFloor_eq_floor, ← le_div_iff₀ hstep, ← div_lt_iff₀ hstep]
  exact ⟨Nat.floor_le (div_nonneg (value_nonneg _) hstep.le), Nat.lt_floor_add_one _⟩

/-- On a grid behind the point there is nothing to divide by but the units. -/
theorem gridFloor_neg (magnitude places : Nat) :
    gridFloor magnitude (-places) = unitsOf magnitude * Nat.pow 10 places / unitsPerOne := by
  rw [gridFloor, Int.neg_neg, Int.toNat_natCast, Int.toNat_neg_natCast]
  exact congrArg _ (Nat.mul_one _)

/-- A positive value is not below the multiples of a grid that is fine enough. -/
theorem gridFloor_neg_pos {places : Nat} (hpos : 0 < magnitude) (hplaces : 359 ≤ places) :
    0 < gridFloor magnitude (-places) := by
  have hunits : 0 < unitsOf magnitude := Nat.zero_lt_of_lt (strictMono_unitsOf hpos)
  have hone : unitsPerOne ≤ Nat.pow 10 places :=
    Nat.le_trans (Nat.le_mul_of_pos_left _ Nat.two_pos) (two_mul_unitsPerOne_le hplaces)
  rw [gridFloor_neg]
  exact Nat.div_pos (Nat.le_trans hone (Nat.le_mul_of_pos_left _ hunits)) unitsPerOne_pos

/-- The grid on which the first digit is looked for is fine enough for every positive value. -/
theorem exists_decimalPlace_eq (magnitude : Nat) :
    ∃ places : Nat, 359 ≤ places ∧
      decimalPlace magnitude = decimalLength (gridFloor magnitude (-places)) - places := by
  -- A power whose exponent is a number would be computed.
  obtain ⟨places, hplaces⟩ : ∃ places, places = 400 := ⟨_, rfl⟩
  have hcast : (places : Int) = 400 := by omega
  refine ⟨places, by omega, ?_⟩
  rw [gridFloor_neg, decimalPlace, ← hplaces, hcast]

/-- The place of a value is that of its first digit. -/
theorem decimalPlace_spec (hpos : 0 < magnitude) :
    (10 : ℚ) ^ (decimalPlace magnitude - 1) ≤ value magnitude ∧
      value magnitude < 10 ^ decimalPlace magnitude := by
  obtain ⟨places, hplaces, hplace⟩ := exists_decimalPlace_eq magnitude
  obtain ⟨hlower, hupper⟩ := gridFloor_spec magnitude (-places)
  have hfloor := gridFloor_neg_pos hpos hplaces
  rw [hplace]
  generalize gridFloor magnitude (-places) = digits at hlower hupper hfloor
  have hlength := decimalLength_pos digits
  have hfirst : 10 ^ (decimalLength digits - 1) ≤ digits :=
    pow_le_of_lt_decimalLength hfloor (by omega)
  have hlast : digits + 1 ≤ 10 ^ decimalLength digits := lt_pow_decimalLength digits
  have hbelow : (decimalLength digits - places - 1 : Int) =
      -places + (decimalLength digits - 1 : Nat) := by
    omega
  rw [hbelow, sub_eq_neg_add, ← pow_mul_ten_zpow, ← pow_mul_ten_zpow]
  constructor
  · refine le_trans (mul_le_mul_of_nonneg_right ?_ (ten_zpow_pos _).le) hlower
    exact_mod_cast hfirst
  · refine lt_of_lt_of_le hupper (mul_le_mul_of_nonneg_right ?_ (ten_zpow_pos _).le)
    exact_mod_cast hlast

/-- One of the two neighbours on a grid is within half a step. -/
theorem near_gridFloor (magnitude : Nat) (exponent : Int) :
    ∃ digits, (digits = gridFloor magnitude exponent ∨ digits = gridFloor magnitude exponent + 1) ∧
      2 * |Scientific.value ⟨digits, exponent⟩ - value magnitude| ≤ 10 ^ exponent := by
  obtain ⟨hbelow, habove⟩ := gridFloor_spec magnitude exponent
  rw [add_one_mul] at habove
  rcases le_total (2 * (value magnitude - gridFloor magnitude exponent * 10 ^ exponent)) (10 ^ exponent)
    with hlow | hhigh
  · refine ⟨_, .inl rfl, ?_⟩
    rw [Scientific.value, abs_sub_comm, abs_of_nonneg (by linarith)]
    exact hlow
  · refine ⟨_, .inr rfl, ?_⟩
    rw [Scientific.value, Nat.cast_add_one, add_one_mul, abs_of_nonneg (by linarith)]
    linarith

/-- What is chosen is accepted, and nothing is chosen only if neither candidate is accepted. -/
theorem choose?_spec (accepts : Scientific → Bool) (lower upper : Scientific) (nearer : Bool) :
    (∃ d, choose? accepts lower upper nearer = some d ∧ accepts d = true) ∨
      accepts lower = false ∧ accepts upper = false ∧
        choose? accepts lower upper nearer = none := by
  unfold choose?
  cases hlower : accepts lower with
  | false =>
      cases hupper : accepts upper with
      | false => exact .inr ⟨rfl, rfl, rfl⟩
      | true => exact .inl ⟨upper, rfl, hupper⟩
  | true =>
      cases hupper : accepts upper with
      | false => exact .inl ⟨lower, rfl, hlower⟩
      | true =>
          refine .inl ⟨if nearer then upper else lower, rfl, ?_⟩
          split
          next => exact hupper
          next => exact hlower

/-- What is found on a grid is rounded to the magnitude, and something is found if one of the
neighbours is. -/
theorem onGrid?_spec (magnitude : Nat) (exponent : Int) :
    (∃ d, onGrid? magnitude exponent = some d ∧ d.nearestMagnitude = magnitude) ∨
      Scientific.nearestMagnitude ⟨gridFloor magnitude exponent, exponent⟩ ≠ magnitude ∧
        Scientific.nearestMagnitude ⟨gridFloor magnitude exponent + 1, exponent⟩ ≠ magnitude ∧
        onGrid? magnitude exponent = none := by
  rcases choose?_spec (·.nearestMagnitude == magnitude) ⟨gridFloor magnitude exponent, exponent⟩
    ⟨gridFloor magnitude exponent + 1, exponent⟩ (upperIsNearer magnitude exponent) with
    ⟨d, hchosen, hnearest⟩ | ⟨hlower, hupper, hnone⟩
  · exact .inl ⟨d, hchosen, beq_iff_eq.mp hnearest⟩
  · exact .inr ⟨beq_eq_false_iff_ne.mp hlower, beq_eq_false_iff_ne.mp hupper, hnone⟩

/-- Something is found on a grid that is fine enough. -/
theorem onGrid?_ne_none (hfinite : magnitude < infiniteMagnitude)
    (hfine : 10 ^ (exponent + 16) ≤ value magnitude) : onGrid? magnitude exponent ≠ none := by
  rw [zpow_add₀ (by norm_num), zpow_ofNat] at hfine
  obtain ⟨digits, hdigits, hnear⟩ := near_gridFloor magnitude exponent
  have hnearest : Scientific.nearestMagnitude ⟨digits, exponent⟩ = magnitude := by
    rw [Scientific.nearestMagnitude_eq_iff _ hfinite]
    exact isNearest_of_near (by linarith)
  rcases onGrid?_spec magnitude exponent with ⟨d, hfound, _⟩ | ⟨hfloor, hnext, _⟩
  · rw [hfound]
    exact Option.some_ne_none d
  · rcases hdigits with rfl | rfl
    · exact absurd hnearest hfloor
    · exact absurd hnearest hnext

end Grid

/-- A search along the natural numbers ends at the first one at which something is found. -/
theorem exists_first_of_findSome?_range {α : Type} {search : Nat → Option α} {bound : Nat} {a : α}
    (hfound : (List.range bound).findSome? search = some a) :
    ∃ n < bound, search n = some a ∧ ∀ fewer < n, search fewer = none := by
  induction bound with
  | zero => cases hfound
  | succ bound ih =>
      rw [List.range_succ, List.findSome?_append] at hfound
      cases hbefore : (List.range bound).findSome? search with
      | some first =>
          rw [hbefore, Option.some_or, Option.some_inj] at hfound
          obtain ⟨n, hn, hfirst, hnone⟩ := ih (hfound ▸ hbefore)
          exact ⟨n, Nat.lt_succ_of_lt hn, hfirst, hnone⟩
      | none =>
          rw [hbefore, Option.none_or, List.findSome?_singleton] at hfound
          exact ⟨bound, Nat.lt_succ_self bound, hfound, fun fewer hfewer =>
            List.findSome?_eq_none_iff.mp hbefore fewer (List.mem_range.mpr hfewer)⟩

/-- Shortest digits are found on the coarsest grid on which something is found, and they are among the
first seventeen. -/
theorem shortest_spec {magnitude : Nat} (hpos : 0 < magnitude)
    (hfinite : magnitude < infiniteMagnitude) :
    ∃ n : Nat, n < 17 ∧ ∃ d, onGrid? magnitude (decimalPlace magnitude - (n + 1)) = some d ∧
      shortest magnitude = d.dropZeros 20 ∧
      ∀ fewer : Nat, fewer < n →
        onGrid? magnitude (decimalPlace magnitude - (fewer + 1)) = none := by
  have hshortest : shortest magnitude = (((List.range 17).findSome? fun n : Nat =>
      onGrid? magnitude (decimalPlace magnitude - (n + 1))).getD ⟨0, 0⟩).dropZeros 20 :=
    if_neg hpos.ne'
  cases hfound : (List.range 17).findSome? fun n : Nat =>
      onGrid? magnitude (decimalPlace magnitude - (n + 1)) with
  | some d =>
      obtain ⟨n, hn, hgrid, hnone⟩ := exists_first_of_findSome?_range hfound
      rw [hfound] at hshortest
      exact ⟨n, hn, d, hgrid, hshortest, hnone⟩
  | none =>
      have hlast := List.findSome?_eq_none_iff.mp hfound 16 (by decide)
      refine absurd hlast (onGrid?_ne_none hfinite ?_)
      have hplace : (decimalPlace magnitude - ((16 : Nat) + 1) + 16 : Int) =
          decimalPlace magnitude - 1 := by omega
      rw [hplace]
      exact (decimalPlace_spec hpos).1

/-- The shortest digits of a finite magnitude are rounded to the magnitude. -/
theorem nearestMagnitude_shortest {magnitude : Nat} (hfinite : magnitude < infiniteMagnitude) :
    (shortest magnitude).nearestMagnitude = magnitude := by
  rcases Nat.eq_zero_or_pos magnitude with rfl | hpos
  · exact Scientific.nearestMagnitude_of_low (.inl rfl)
  · obtain ⟨n, _, d, hgrid, hshortest, _⟩ := shortest_spec hpos hfinite
    rw [hshortest, Scientific.nearestMagnitude_congr (d.dropZeros_spec 20).1]
    rcases onGrid?_spec magnitude (decimalPlace magnitude - (n + 1)) with
      ⟨other, hother, hnearest⟩ | ⟨_, _, hnone⟩
    · rw [hgrid, Option.some_inj] at hother
      exact hother ▸ hnearest
    · rw [hgrid] at hnone
      cases hnone

end Binary64

end RobotDescription
