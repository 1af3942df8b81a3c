import RobotDescription.Proofs.Toml.Numbers
import RobotDescription.Toml.Document

/-!
# Integer literals in TOML documents

Where a value is read in a document and an integer is written there, it is read as itself if 64 bits
hold it, and otherwise nothing is read of the document.
-/

namespace RobotDescription.Toml

theorem exists_taken_of_number? {count start : Nat} {text : List Char} {found : Nat × List Char}
    (hread : Moment.number? count start text = some found) :
    ∃ taken, taken.length = count ∧ (∀ c ∈ taken, c.isDigit = true) ∧ text = taken ++ found.2 := by
  induction count generalizing start text with
  | zero =>
      cases hread
      exact ⟨[], rfl, List.forall_mem_nil _, rfl⟩
  | succ count ih =>
      obtain _ | ⟨first, rest⟩ := text
      · cases hread
      · rw [Moment.number?, Option.ite_none_right_eq_some] at hread
        obtain ⟨hdigit, hread⟩ := hread
        obtain ⟨taken, rfl, htaken, rfl⟩ := ih hread
        exact ⟨first :: taken, rfl, List.forall_mem_cons.mpr ⟨hdigit, htaken⟩, rfl⟩

section Literals

variable {literal digits rest : List Char} {negative : Bool}
  (hinteger : IsInteger literal negative digits) (hends : Number.EndsValue rest)
include hinteger

theorem exists_first : ∃ first more, literal = first :: more ∧
    (first.isDigit = true ∨ first = '-' ∨ first = '+') := by
  obtain ⟨hsign, hwhole⟩ := hinteger
  unfold Binary64.takeSign at hsign
  split at hsign
  next => exact ⟨_, _, rfl, .inr (.inl rfl)⟩
  next => exact ⟨_, _, rfl, .inr (.inr rfl)⟩
  next =>
    cases hsign
    obtain ⟨first, more, rfl⟩ := List.exists_cons_of_ne_nil hwhole.ne_nil
    exact ⟨first, more, rfl, .inl (hwhole.isDigit first List.mem_cons_self)⟩

include hends

/-- No date and no time begins with the literal. -/
theorem any_number?_eq_false {count : Nat} (hpos : 0 < count) {mark : Char}
    (hdigit : mark.isDigit = false) (hend : mark ∉ Number.valueEnds) :
    ((Moment.number? count 0 (literal ++ rest)).any fun (_, after) => after.head? = some mark) =
      false := by
  cases hread : Moment.number? count 0 (literal ++ rest) with
  | none => rfl
  | some found =>
      obtain ⟨taken, hlength, htaken, hsplit⟩ := exists_taken_of_number? hread
      refine decide_eq_false fun hhead => ?_
      rcases Number.isDigit_or_mem_valueEnds hinteger hends (List.ne_nil_of_length_pos (hlength ▸ hpos))
        htaken hsplit hhead with hmark | hmark
      · rw [hdigit] at hmark
        cases hmark
      · exact hend hmark

/-- Where a value is read, an integer is read as itself or not at all. -/
theorem run_value_integer (depth : Nat) :
    (Reader.value depth).run (literal ++ rest) =
      if -(2 ^ 63) ≤ signedValue negative digits ∧ signedValue negative digits < 2 ^ 63 then
        some (.int (Int64.ofInt (signedValue negative digits)), rest)
      else none := by
  have haround : ∀ inner, (Reader.valueAround inner).run (literal ++ rest) =
      Number.number? (literal ++ rest) := by
    intro inner
    have hdate : Moment.beginsDate (literal ++ rest) = false :=
      any_number?_eq_false hinteger hends (by decide) rfl (by decide)
    have htime : Moment.beginsTime (literal ++ rest) = false :=
      any_number?_eq_false hinteger hends (by decide) rfl (by decide)
    obtain ⟨first, more, hliteral, hfirst⟩ := exists_first hinteger
    have hplain : ∀ other ∈ ['"', '\'', '[', '\x7b', 't', 'f'], first ≠ other := by
      rintro other hother rfl
      have hnone : ∀ c ∈ ['"', '\'', '[', '\x7b', 't', 'f'],
          ¬ (c.isDigit = true ∨ c = '-' ∨ c = '+') := by simp
      exact hnone first hother hfirst
    simp only [List.forall_mem_cons] at hplain
    obtain ⟨hquote, hapostrophe, hbracket, hbrace, htrue, hfalse, _⟩ := hplain
    rw [hliteral, List.cons_append] at hdate htime ⊢
    unfold Reader.valueAround
    simp [Reader.peek, hquote, hapostrophe, hbracket, hbrace, htrue, hfalse, hdate, htime]
    rfl
  rw [← Number.number?_integer hinteger hends]
  cases depth with
  | zero => exact haround none
  | succ depth => exact haround (some (Reader.value depth))

end Literals

end RobotDescription.Toml
