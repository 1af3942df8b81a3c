import Mathlib.Algebra.Ring.Int.Defs
import RobotDescription.Proofs.Decimal.Literals
import RobotDescription.Yaml.Content

/-!
# Numbers in plain scalars

What plain scalars with numbers stand for. An integer keeps its value while 128 bits hold it, and is
otherwise read as a double or, where it is too large for that, as a text.
-/

namespace RobotDescription

/-- A digit comes first, or directly after the sign. -/
def isNumeric (text : List Char) : Bool :=
  (Binary64.takeSign text).2.head?.any Char.isDigit

theorem IsInteger.isNumeric {text digits : List Char} {negative : Bool}
    (hinteger : IsInteger text negative digits) : isNumeric text = true := by
  obtain ⟨hsign, hwhole⟩ := hinteger
  obtain ⟨first, rest, rfl⟩ := List.exists_cons_of_ne_nil hwhole.ne_nil
  rw [RobotDescription.isNumeric, hsign]
  exact hwhole.isDigit first List.mem_cons_self

theorem Binary64.isNumeric_toText {x : Binary64} (hfinite : x.isFinite = true) :
    isNumeric x.toText.toList = true := by
  obtain ⟨whole, fraction, hpointed, _⟩ := (shortest x.magnitude).pointed_positional
  obtain ⟨first, rest, rfl⟩ := List.exists_cons_of_ne_nil hpointed.whole_ne_nil
  rw [isNumeric, takeSign_toText hfinite, hpointed.text_eq]
  exact hpointed.isDigit_whole first List.mem_cons_self

/-- No word is a numeric text. -/
theorem contains_eq_false {words : List String}
    (hwords : words.all (fun word => !isNumeric word.toList) = true) {text : String}
    (hnumeric : isNumeric text.toList = true) : words.contains text = false := by
  refine Bool.eq_false_iff.mpr fun hcontains => ?_
  have hword := List.all_eq_true.mp hwords text (List.contains_iff_mem.mp hcontains)
  rw [hnumeric] at hword
  cases hword

theorem takeSign_cases (text : List Char) :
    (∃ rest, text = '-' :: rest ∧ Binary64.takeSign text = (true, rest)) ∨
      (∃ rest, text = '+' :: rest ∧ Binary64.takeSign text = (false, rest)) ∨
      Binary64.takeSign text = (false, text) ∧ text.head? ≠ some '-' ∧ text.head? ≠ some '+' := by
  unfold Binary64.takeSign
  split
  next rest => exact .inl ⟨rest, rfl, rfl⟩
  next rest => exact .inr (.inl ⟨rest, rfl, rfl⟩)
  next hminus hplus =>
    refine .inr (.inr ⟨rfl, fun hhead => ?_, fun hhead => ?_⟩)
    · obtain ⟨rest, rfl⟩ := List.head?_eq_some_iff.mp hhead
      exact hminus rest rfl
    · obtain ⟨rest, rfl⟩ := List.head?_eq_some_iff.mp hhead
      exact hplus rest rfl

namespace Text

theorem hexDigit?_of_isDigit {c : Char} (hdigit : c.isDigit = true) :
    (hexDigit? c).filter (· < 10) = some (digitValue c) := by
  have hvalue : digitValue c < 10 := digitValue_lt hdigit
  rw [hexDigit?, if_pos hdigit, Option.filter_some_pos (by simpa [digitValue] using hvalue)]
  rfl

theorem valueInBase?_digits {digits : List Char} (hdigits : ∀ c ∈ digits, c.isDigit = true) :
    valueInBase? 10 digits = some (digitsValue digits) := by
  unfold valueInBase? digitsValue
  generalize 0 = start
  induction digits generalizing start with
  | nil => rfl
  | cons c rest ih =>
      obtain ⟨hfirst, hrest⟩ := List.forall_mem_cons.mp hdigits
      rw [List.foldlM_cons, hexDigit?_of_isDigit hfirst]
      exact ih hrest _

/-- A character that is no digit spoils a number. -/
theorem valueInBase?_eq_none {base : Nat} {digits : List Char} {c : Char} (hmem : c ∈ digits)
    (hnone : (hexDigit? c).filter (· < base) = none) : valueInBase? base digits = none := by
  unfold valueInBase?
  generalize 0 = start
  induction digits generalizing start with
  | nil => cases hmem
  | cons first rest ih =>
      rw [List.foldlM_cons]
      rcases List.mem_cons.mp hmem with rfl | hmem
      · rw [hnone]
        rfl
      · cases (hexDigit? first).filter (· < base) with
        | none => rfl
        | some value => exact ih hmem _

end Text

namespace Yaml.Content

theorem hasLeadingZero_isWhole {digits : List Char} (hwhole : IsWhole digits) :
    hasLeadingZero digits = false := by
  have hhead := hwhole.head_ne
  unfold hasLeadingZero
  split
  next => simp at hhead
  next => rfl

theorem natural?_isWhole {digits : List Char} (hwhole : IsWhole digits) :
    natural? digits = some (digitsValue digits) := by
  have hleading := hasLeadingZero_isWhole hwhole
  obtain ⟨hnonempty, hdigits, _⟩ := hwhole
  have hbase : inBase? 10 digits = some (digitsValue digits) := by
    rw [inBase?, if_neg (by simpa using hnonempty), Text.valueInBase?_digits hdigits]
  unfold natural?
  split
  next => exact absurd (hdigits 'x' (by simp)) (by decide)
  next => exact absurd (hdigits 'o' (by simp)) (by decide)
  next => exact absurd (hdigits 'b' (by simp)) (by decide)
  next => rw [hleading, if_neg Bool.false_ne_true, hbase]

theorem int?_eq (text : String) :
    int? text =
      if (Binary64.takeSign text.toList).1 then
        ((natural? (Binary64.takeSign text.toList).2).filter (· ≤ Nat.pow 2 127)).map
          fun n : Nat => -(n : Int)
      else ((natural? (Binary64.takeSign text.toList).2).filter (· < Nat.pow 2 128)).map Int.ofNat := by
  unfold int?
  rcases takeSign_cases text.toList with ⟨rest, htext, hsign⟩ | ⟨rest, htext, hsign⟩ |
    ⟨hsign, hminus, hplus⟩
  · rw [hsign, htext]
    cases hnatural : (natural? rest).filter (· ≤ Nat.pow 2 127) <;> simp [hnatural]
  · rw [hsign, htext]
    rfl
  · rw [hsign]
    split
    next htext => rw [htext] at hminus; exact absurd rfl hminus
    next htext => rw [htext] at hplus; exact absurd rfl hplus
    next => rfl

/-- An integer keeps its value if it fits 128 bits. -/
theorem int?_isInteger {text : String} {negative : Bool} {digits : List Char}
    (hinteger : IsInteger text.toList negative digits) :
    int? text =
      if -(2 ^ 127) ≤ signedValue negative digits ∧ signedValue negative digits < 2 ^ 128 then
        some (signedValue negative digits)
      else none := by
  rw [int?_eq, hinteger.takeSign_eq, natural?_isWhole hinteger.whole]
  have hlow : Nat.pow 2 127 = 2 ^ 127 := rfl
  have hhigh : Nat.pow 2 128 = 2 ^ 128 := rfl
  rw [Option.filter_some, Option.filter_some]
  cases negative with
  | true =>
      simp only [signedValue, if_true, decide_eq_true_eq]
      by_cases hfits : digitsValue digits ≤ Nat.pow 2 127
      · rw [if_pos hfits, if_pos (by omega)]
        rfl
      · rw [if_neg hfits, if_neg (by omega)]
        rfl
  | false =>
      simp only [signedValue, Bool.false_eq_true, if_false, decide_eq_true_eq]
      by_cases hfits : digitsValue digits < Nat.pow 2 128
      · rw [if_pos hfits, if_pos (by omega)]
        rfl
      · rw [if_neg hfits, if_neg (by omega)]
        rfl

theorem dropPlus?_plus {first : Char} (hdigit : first.isDigit = true) (more : List Char) :
    dropPlus? ('+' :: first :: more) = some (first :: more) := by
  have hsigns : "+-".toList.contains first = false := by
    refine Bool.eq_false_iff.mpr fun hcontains => ?_
    have hmem : first ∈ ['+', '-'] := List.contains_iff_mem.mp hcontains
    rcases List.mem_cons.mp hmem with rfl | hmem
    · cases hdigit
    · rw [List.mem_singleton.mp hmem] at hdigit
      cases hdigit
  rw [dropPlus?, List.head?_cons, Option.any_some, hsigns, if_neg Bool.false_ne_true]

theorem dropPlus?_eq_self {text : List Char} (hnoplus : text.head? ≠ some '+') :
    dropPlus? text = some text := by
  unfold dropPlus?
  split
  next => exact absurd rfl hnoplus
  next => rfl

/-- A plus sign is dropped from a numeric text, and makes no difference to the literal. -/
theorem exists_dropPlus?_isNumeric {text : List Char} (hnumeric : isNumeric text = true) :
    ∃ literal, dropPlus? text = some literal ∧ isNumeric literal = true ∧
      Binary64.ofLiteral? literal = Binary64.ofLiteral? text := by
  rcases takeSign_cases text with ⟨rest, rfl, _⟩ | ⟨rest, rfl, hsign⟩ | ⟨_, _, hnoplus⟩
  · exact ⟨'-' :: rest, rfl, hnumeric, rfl⟩
  · rw [isNumeric, hsign] at hnumeric
    obtain _ | ⟨first, more⟩ := rest
    · cases hnumeric
    have hdigit : first.isDigit = true := hnumeric
    have hnosign : Binary64.takeSign (first :: more) = (false, first :: more) :=
      Binary64.takeSign_of_digits (List.cons_ne_nil _ _) (List.forall_mem_singleton.mpr hdigit) more
    refine ⟨first :: more, dropPlus?_plus hdigit more, ?_, ?_⟩
    · rw [isNumeric, hnosign]
      exact hdigit
    · rw [Binary64.ofLiteral?, Binary64.ofLiteral?, hsign, hnosign]
  · exact ⟨text, dropPlus?_eq_self hnoplus, hnumeric, rfl⟩

/-- A numeric text is read as a decimal literal. -/
theorem float?_isNumeric {text : String} (hnumeric : isNumeric text.toList = true) :
    float? text = (Binary64.ofLiteral? text.toList).filter Binary64.isFinite := by
  have hminus : ["-.inf", "-.Inf", "-.INF"].contains text = false :=
    contains_eq_false (by decide) hnumeric
  have hnan : [".nan", ".NaN", ".NAN"].contains text = false :=
    contains_eq_false (by decide) hnumeric
  obtain ⟨literal, hdrop, hliteral, hsame⟩ := exists_dropPlus?_isNumeric hnumeric
  have hinfinity : [".inf", ".Inf", ".INF"].contains (String.ofList literal) = false :=
    contains_eq_false (by decide) (by rwa [String.toList_ofList])
  rw [float?, hminus, hnan, hdrop, Option.bind_some, hinfinity]
  exact congrArg (Option.filter Binary64.isFinite) hsame

/-- A numeric text stands for an integer, if it is one that fits, and otherwise for a float, if it
has no zeros in front and is not too large. -/
theorem ofPlain_isNumeric {text : String} (hnumeric : isNumeric text.toList = true) :
    ofPlain text =
      match int? text with
      | some n => .int n
      | none =>
        if hasLeadingZero (Binary64.takeSign text.toList).2 then .text text
        else
          match (Binary64.ofLiteral? text.toList).filter Binary64.isFinite with
          | some x => .float x
          | none => .text text := by
  have hnonempty : text.isEmpty = false := by
    refine Bool.eq_false_iff.mpr fun hempty => ?_
    rw [String.isEmpty_iff.mp hempty] at hnumeric
    cases hnumeric
  have hnull : isNull text = false := contains_eq_false (by decide) hnumeric
  have hbool : bool? text = none := by
    rw [bool?, contains_eq_false (by decide) hnumeric, contains_eq_false (by decide) hnumeric]
    rfl
  rw [ofPlain, hnonempty, hnull, hbool, if_neg (by decide), float?_isNumeric hnumeric]
  cases int? text <;> rfl

section Pointed

variable {text whole fraction : List Char} (hpointed : Pointed text whole fraction)
include hpointed

theorem hasLeadingZero_pointed : hasLeadingZero text = false := by
  obtain ⟨rfl, hwhole, _, _, _⟩ := hpointed
  obtain ⟨first, rest, rfl⟩ := List.exists_cons_of_ne_nil hwhole
  unfold hasLeadingZero
  split
  next second more htext =>
    have hpoint : '.' ∈ second :: more := by
      rw [← (List.cons.inj htext).2]
      simp
    exact Bool.eq_false_iff.mpr fun hall => absurd (List.all_eq_true.mp hall '.' hpoint) (by decide)
  next => rfl

/-- A point keeps digits from being an integer. -/
theorem natural?_pointed : natural? text = none := by
  have hleading := hasLeadingZero_pointed hpointed
  obtain ⟨rfl, hwhole, _, hleft, hright⟩ := hpointed
  have hchars : ∀ c ∈ whole ++ '.' :: fraction, c.isDigit = true ∨ c = '.' := by
    refine List.forall_mem_append.mpr ⟨fun c hmem => .inl (hleft c hmem), ?_⟩
    exact List.forall_mem_cons.mpr ⟨.inr rfl, fun c hmem => .inl (hright c hmem)⟩
  unfold natural?
  split
  next htext => exact absurd (hchars 'x' (by simp [htext])) (by decide)
  next htext => exact absurd (hchars 'o' (by simp [htext])) (by decide)
  next htext => exact absurd (hchars 'b' (by simp [htext])) (by decide)
  next =>
    have hpoint : (Text.hexDigit? '.').filter (· < 10) = none := by decide
    rw [hleading, if_neg Bool.false_ne_true, inBase?, if_neg (by simp),
      Text.valueInBase?_eq_none (by simp) hpoint]

end Pointed

/-- The text of a finite double stands for the double, bit for bit. -/
theorem ofPlain_toText {x : Binary64} (hfinite : x.isFinite = true) :
    ofPlain x.toText = .float x := by
  obtain ⟨whole, fraction, hpointed, _⟩ := (Binary64.shortest x.magnitude).pointed_positional
  have hint : int? x.toText = none := by
    rw [int?_eq, Binary64.takeSign_toText hfinite, natural?_pointed hpointed]
    split <;> rfl
  rw [ofPlain_isNumeric (Binary64.isNumeric_toText hfinite), hint,
    Binary64.takeSign_toText hfinite]
  dsimp only
  rw [hasLeadingZero_pointed hpointed, if_neg Bool.false_ne_true,
    Binary64.ofLiteral?_toText hfinite, Option.filter_some, if_pos hfinite]

end Yaml.Content

end RobotDescription
