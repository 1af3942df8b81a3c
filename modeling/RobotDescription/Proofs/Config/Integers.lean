import RobotDescription.Proofs.Config.Report
import RobotDescription.Proofs.Config.Trees
import RobotDescription.Proofs.Decimal.Denoting
import RobotDescription.Proofs.Decimal.Nearest
import RobotDescription.Proofs.Generation.Bearers
import RobotDescription.Proofs.Toml.Literals
import RobotDescription.Proofs.Toml.Parameters
import RobotDescription.Proofs.Yaml.Parameters

/-!
# Integers given to parameters

A parameter that is given an integer keeps it while 64 bits with a sign hold it, and in TOML nothing
else is accepted. In YAML a greater one of 64 bits becomes the nearest double, and so does one of more
than 128 bits; what is written in its place is the integer only if the double's shortest digits make
it up. An integer between these is refused, and one too large for a double is kept as a text.
-/

namespace RobotDescription

namespace Binary64

attribute [local irreducible] unitsPerOne infiniteMagnitude

theorem magnitude_ofMagnitude (negative : Bool) {magnitude : Nat} (hle : magnitude ≤ infiniteMagnitude) :
    (ofMagnitude negative magnitude).magnitude = magnitude := by
  have hbound : infiniteMagnitude < signPlace := by decide +kernel
  rw [Binary64.magnitude, toNat_ofMagnitude negative hle]
  split
  next => rw [Nat.add_mod_left, Nat.mod_eq_of_lt (Nat.lt_of_le_of_lt hle hbound)]
  next => rw [Nat.zero_add, Nat.mod_eq_of_lt (Nat.lt_of_le_of_lt hle hbound)]

theorem isFinite_ofInt {n : Int} (hsmall : n.natAbs < 2 ^ 64) : (ofInt n).isFinite = true := by
  have hlt := nearestMagnitude_lt_of_lt hsmall
  rw [isFinite, ofInt, nearest, magnitude_ofMagnitude _ hlt.le]
  exact decide_eq_true hlt

/-- An integer literal is read as the double nearest to the integer; only a zero may differ from it in
its sign. -/
theorem nearest_signedValue {negative : Bool} {digits : List Char} (hne : signedValue negative digits ≠ 0) :
    nearest negative (digitsValue digits) 1 = ofInt (signedValue negative digits) := by
  cases negative with
  | true =>
      rw [signedValue, if_pos rfl] at hne ⊢
      rw [ofInt, Int.natAbs_neg, Int.natAbs_natCast, decide_eq_true (by omega)]
  | false =>
      rw [signedValue, if_neg Bool.false_ne_true] at hne ⊢
      rw [ofInt, Int.natAbs_natCast, decide_eq_false (by omega)]

end Binary64

/-- What is written for an integer that a literal gives to a parameter. -/
def integerText (literal : String) (n : Int) : String :=
  if -(2 ^ 63) ≤ n ∧ n < 2 ^ 63 then toString n
  else if (Binary64.ofInt n).isFinite then (Binary64.ofInt n).toText
  else literal

/-- What is written for an integer denotes it: because it is held as an integer, because it is not held
as a number at all, or because the double that is nearest to it keeps it. -/
def IsKept (n : Int) : Prop :=
  (-(2 ^ 63) ≤ n ∧ n < 2 ^ 63) ∨ (Binary64.ofInt n).isFinite = false ∨ Binary64.Keeps n

theorem integer?_toString (n : Int) : integer? (toString n).toList = some n := by
  rw [integer?_isInteger (isInteger_toString n), signedValue_toDigits]

theorem integer?_integerText {literal : String} {negative : Bool} {digits : List Char}
    (hinteger : IsInteger literal.toList negative digits) {n : Int}
    (hn : signedValue negative digits = n) :
    integer? (integerText literal n).toList = some n ↔ IsKept n := by
  rw [integerText, IsKept]
  split
  next hheld => exact iff_of_true (integer?_toString n) (.inl hheld)
  next hheld =>
    rw [or_iff_right hheld]
    split
    next hfinite =>
      rw [hfinite, or_iff_right Bool.true_eq_false.mp]
      exact Binary64.integer?_toText_ofInt hfinite
    next hfinite =>
      refine iff_of_true ?_ (.inl (Bool.eq_false_iff.mpr hfinite))
      rw [integer?_isInteger hinteger, hn]

namespace Yaml

/-- What an integer in a plain scalar gives. Those of 128 bits are refused unless 64 bits hold them, but
longer ones are not. -/
theorem Scalar.parameter?_integer {text : String} {negative : Bool} {digits : List Char}
    (hinteger : IsInteger text.toList negative digits) {n : Int}
    (hn : signedValue negative digits = n) :
    Scalar.parameter? ⟨text, .plain, none⟩ =
      if -(2 ^ 127) ≤ n ∧ n < 2 ^ 128 then
        if -(2 ^ 63) ≤ n ∧ n < 2 ^ 64 then
          some (if n < 2 ^ 63 then .int (Int64.ofInt n) else .float (.ofInt n))
        else none
      else if (Binary64.ofInt n).isFinite then some (.float (.ofInt n))
      else some (.text text) := by
  rw [Scalar.parameter?_plain, Content.ofPlain_isNumeric hinteger.isNumeric,
    Content.int?_isInteger hinteger, hn]
  by_cases hfits : -(2 ^ 127) ≤ n ∧ n < 2 ^ 128
  · rw [if_pos hfits, if_pos hfits]
  · have hne : signedValue negative digits ≠ 0 := by
      rintro hzero
      rw [← hn, hzero] at hfits
      exact hfits (by decide)
    rw [if_neg hfits, if_neg hfits, hinteger.takeSign_eq]
    dsimp only
    rw [Content.hasLeadingZero_isWhole hinteger.whole, if_neg Bool.false_ne_true,
      Binary64.ofLiteral?_isInteger hinteger, Binary64.nearest_signedValue hne, hn, Option.filter_some]
    cases (Binary64.ofInt n).isFinite with
    | true => rfl
    | false => rfl

/-- The integers that are accepted in plain scalars. -/
def AcceptsInteger (n : Int) : Prop :=
  -(2 ^ 63) ≤ n ∧ n < 2 ^ 64 ∨ n < -(2 ^ 127) ∨ 2 ^ 128 ≤ n

theorem Scalar.toText_of_parameter? {text : String} {negative : Bool} {digits : List Char}
    (hinteger : IsInteger text.toList negative digits) {n : Int}
    (hn : signedValue negative digits = n) {value : ParameterValue}
    (hvalue : Scalar.parameter? ⟨text, .plain, none⟩ = some value) :
    AcceptsInteger n ∧ value.toText = integerText text n := by
  rw [parameter?_integer hinteger hn] at hvalue
  rw [integerText]
  by_cases hfits : -(2 ^ 127) ≤ n ∧ n < 2 ^ 128
  · rw [if_pos hfits, Option.ite_none_right_eq_some] at hvalue
    obtain ⟨hheld, ⟨⟩⟩ := hvalue
    refine ⟨.inl hheld, ?_⟩
    by_cases hsmall : n < 2 ^ 63
    · rw [if_pos hsmall, if_pos ⟨hheld.1, hsmall⟩, ParameterValue.toText,
        Int64.toInt_ofInt_of_le hheld.1 hsmall]
    · have hfinite := Binary64.isFinite_ofInt (by omega : n.natAbs < 2 ^ 64)
      rw [if_neg hsmall, if_neg (fun hboth => hsmall hboth.2), if_pos hfinite]
      rfl
  · rw [if_neg hfits] at hvalue
    refine ⟨.inr (by omega), ?_⟩
    rw [if_neg (by omega)]
    split at hvalue
    next hfinite =>
      cases hvalue
      rw [if_pos hfinite]
      rfl
    next hfinite =>
      cases hvalue
      rw [if_neg hfinite]
      rfl

end Yaml

namespace Toml

/-- The integers that are read where a value is written. -/
def AcceptsInteger (n : Int) : Prop :=
  -(2 ^ 63) ≤ n ∧ n < 2 ^ 63

theorem toText_of_parameterValue {literal : String} {negative : Bool} {digits rest after : List Char}
    (hinteger : IsInteger literal.toList negative digits) (hends : Number.EndsValue rest) {n : Int}
    (hn : signedValue negative digits = n) {depth : Nat} {leaf : Value}
    (hleaf : (Reader.value depth).run (literal.toList ++ rest) = some (leaf, after))
    {value : ParameterValue} (hvalue : Reading.parameterValue leaf = .ok value) :
    AcceptsInteger n ∧ value.toText = integerText literal n := by
  rw [run_value_integer hinteger hends, hn, Option.ite_none_right_eq_some] at hleaf
  obtain ⟨hheld, ⟨⟩⟩ := hleaf
  cases hvalue
  rw [integerText, if_pos hheld, ParameterValue.toText, Int64.toInt_ofInt_of_le hheld.1 hheld.2]
  exact ⟨hheld, rfl⟩

end Toml

namespace Tree

/-- The value of a parameter is written as an integer literal: in a plain scalar, or where a value is
read. -/
inductive GivesInteger : Tree → Bearer → String → String → Int → Prop
  | yaml {document : Yaml.Document} {bearer : Bearer} {name literal : String} {negative : Bool}
      {digits : List Char}
      (hscalar : document.parameter? bearer name = some ⟨literal, .plain, none⟩)
      (hinteger : IsInteger literal.toList negative digits) :
      GivesInteger (.yaml document) bearer name literal (signedValue negative digits)
  | toml {value leaf : Toml.Value} {bearer : Bearer} {name literal : String} {negative : Bool}
      {digits rest after : List Char} {depth : Nat}
      (hvalue : value.parameter? bearer name = some leaf)
      (hinteger : IsInteger literal.toList negative digits) (hends : Toml.Number.EndsValue rest)
      (hleaf : (Toml.Reader.value depth).run (literal.toList ++ rest) = some (leaf, after)) :
      GivesInteger (.toml value) bearer name literal (signedValue negative digits)

def AcceptsInteger : Tree → Int → Prop
  | yaml _, n => Yaml.AcceptsInteger n
  | toml _, n => Toml.AcceptsInteger n

theorem exists_get?_of_givesInteger {tree : Tree} {config : RobotConfig}
    (hread : tree.config = .ok config) {bearer : Bearer} {name literal : String} {n : Int}
    (hgives : tree.GivesInteger bearer name literal n) :
    tree.AcceptsInteger n ∧
      (integer? (integerText literal n).toList = some n ↔ IsKept n) ∧
      ∃ held value, config.parametersOf? bearer = some held ∧ held.get? name = some value ∧
        value.toText = integerText literal n := by
  cases hgives with
  | yaml hscalar hinteger =>
      obtain ⟨held, value, hheld, hvalue, hgiven⟩ := Yaml.exists_get?_of_parameter? hread hscalar
      obtain ⟨haccepts, htext⟩ := Yaml.Scalar.toText_of_parameter? hinteger rfl hgiven
      exact ⟨haccepts, integer?_integerText hinteger rfl, held, value, hheld, hvalue, htext⟩
  | toml hleafValue hinteger hends hleaf =>
      obtain ⟨held, value, hheld, hvalue, hgiven⟩ := Toml.exists_get?_of_parameter? hread hleafValue
      obtain ⟨haccepts, htext⟩ := Toml.toText_of_parameterValue hinteger hends rfl hleaf hgiven
      exact ⟨haccepts, integer?_integerText hinteger rfl, held, value, hheld, hvalue, htext⟩

end Tree

/-- An integer that is given to a parameter in an accepted document is an argument of the call. The text
there denotes the integer exactly if it is kept, which each integer of 64 bits with a sign is. -/
theorem get?_call_of_givesInteger {format : Format} {content : String} {tree : Tree}
    {config : RobotConfig} {summary : Summary} (htree : Tree.ofText? format content = some tree)
    (hparse : RobotConfig.parse format content = .ok config)
    (hdone : (generate config Document.empty).result = .ok summary) {bearer : Bearer}
    {name literal : String} {n : Int} (hgives : tree.GivesInteger bearer name literal n)
    (hcalled : config.isCalled bearer = true) :
    tree.AcceptsInteger n ∧
      (integer? (integerText literal n).toList = some n ↔ IsKept n) ∧
      ∃ platform descriptor nested, PlatformModel.lookup? config.platform.model = some platform ∧
        config.descriptorOf? platform bearer = some descriptor ∧
        .call descriptor.macroName descriptor.arguments nested ∈
          (generate config Document.empty).sink.directives ∧
        descriptor.arguments.get? name = some (integerText literal n) := by
  have hread : tree.config = .ok config := by
    rw [← Tree.read_eq_config htree]
    exact (RobotConfig.parse_eq_ok_iff.mp hparse).1
  obtain ⟨haccepts, hkept, held, value, hheld, hvalue, htext⟩ :=
    Tree.exists_get?_of_givesInteger hread hgives
  obtain ⟨platform, descriptor, nested, hplatform, hdescriptor, hcall, harguments⟩ :=
    RobotConfig.exists_call_of_generate hdone hcalled hheld
  refine ⟨haccepts, hkept, platform, descriptor, nested, hplatform, hdescriptor, hcall, ?_⟩
  rw [harguments name value hvalue, htext]

section Labels

/-- The text of a document that gives an integer to the parameter of a mount. -/
def labelDocument (literal : String) : String :=
  "serial_number: a200-0001\nplatform:\n  model: a200\nmounts:\n  - name: sign\n    model: bracket\n" ++
    "    parameters:\n      label: " ++ literal ++ "\n"

/-- A robot with one mount that has a label. -/
def labelled (value : ParameterValue) : RobotConfig where
  serialNumber := "a200-0001"
  platform := { model := "a200" }
  mounts := [{ name := "sign", model := "bracket", parameters := .ofList [("label", value)] }]

/-- The label is beyond 64 bits with a sign, but a double keeps it. -/
theorem get?_call_of_givesInteger_label :
    ∃ tree config,
      Tree.ofText? .yaml (labelDocument "10000000000000000000") = some tree ∧
      RobotConfig.parse .yaml (labelDocument "10000000000000000000") = .ok config ∧
      (generate config Document.empty).result = .ok ⟨0, 0, 1⟩ ∧
      tree.GivesInteger (.mount 0) "label" "10000000000000000000" (10 ^ 19) ∧
      config.isCalled (.mount 0) = true ∧
      integer? "10000000000000000000.0".toList = some (10 ^ 19) ∧
      ∃ platform descriptor nested, config.descriptorOf? platform (.mount 0) = some descriptor ∧
        .call descriptor.macroName descriptor.arguments nested ∈
          (generate config Document.empty).sink.directives ∧
        descriptor.arguments.get? "label" = some "10000000000000000000.0" := by
  -- decided together, so that the document is read once
  obtain ⟨hparse, hscalar⟩ : RobotConfig.parse .yaml (labelDocument "10000000000000000000") =
        .ok (labelled (.float (.ofInt (10 ^ 19)))) ∧
      (Yaml.Document.ofText (labelDocument "10000000000000000000")).parameter? (.mount 0) "label" =
        some ⟨"10000000000000000000", .plain, none⟩ := by decide +kernel
  have hdone : (generate (labelled (.float (.ofInt (10 ^ 19)))) Document.empty).result =
      .ok ⟨0, 0, 1⟩ := rfl
  have hinteger : IsInteger "10000000000000000000".toList false "10000000000000000000".toList :=
    ⟨rfl, by decide, List.all_eq_true.mp rfl, by decide⟩
  have hgives : Tree.GivesInteger (.yaml (.ofText (labelDocument "10000000000000000000"))) (.mount 0)
      "label" "10000000000000000000" (10 ^ 19) := .yaml hscalar hinteger
  have htext : integerText "10000000000000000000" (10 ^ 19) = "10000000000000000000.0" := by
    decide +kernel
  have hkept : IsKept (10 ^ 19) := .inr (.inr (by decide +kernel))
  obtain ⟨_, hdenotes, platform, descriptor, nested, _, hdescriptor, hcall, hargument⟩ :=
    get?_call_of_givesInteger rfl hparse hdone hgives rfl
  rw [htext] at hdenotes hargument
  exact ⟨_, _, rfl, hparse, hdone, hgives, rfl, hdenotes.mpr hkept, platform, descriptor, nested,
    hdescriptor, hcall, hargument⟩

/-- The label is accepted and rounded: what is written is a greater integer. -/
theorem integer?_label_ne :
    ∃ tree config,
      Tree.ofText? .yaml (labelDocument "9223372036854775809") = some tree ∧
      RobotConfig.parse .yaml (labelDocument "9223372036854775809") = .ok config ∧
      (generate config Document.empty).result = .ok ⟨0, 0, 1⟩ ∧
      tree.GivesInteger (.mount 0) "label" "9223372036854775809" 9223372036854775809 ∧
      config.isCalled (.mount 0) = true ∧
      ∃ descriptor nested, config.descriptorOf? .a200 (.mount 0) = some descriptor ∧
        .call descriptor.macroName descriptor.arguments nested ∈
          (generate config Document.empty).sink.directives ∧
        descriptor.arguments.get? "label" = some "9223372036854776000.0" ∧
        integer? "9223372036854776000.0".toList = some 9223372036854776000 ∧
        integer? "9223372036854776000.0".toList ≠ some 9223372036854775809 := by
  obtain ⟨hparse, hscalar⟩ : RobotConfig.parse .yaml (labelDocument "9223372036854775809") =
        .ok (labelled (.float (.ofInt 9223372036854775809))) ∧
      (Yaml.Document.ofText (labelDocument "9223372036854775809")).parameter? (.mount 0) "label" =
        some ⟨"9223372036854775809", .plain, none⟩ := by decide +kernel
  have hinteger : IsInteger "9223372036854775809".toList false "9223372036854775809".toList :=
    ⟨rfl, by decide, List.all_eq_true.mp rfl, by decide⟩
  have hgives : Tree.GivesInteger (.yaml (.ofText (labelDocument "9223372036854775809"))) (.mount 0)
      "label" "9223372036854775809" 9223372036854775809 := .yaml hscalar hinteger
  refine ⟨_, _, rfl, hparse, rfl, hgives, rfl, _, [.origin .zero], rfl, ?_, ?_, ?_, ?_⟩
  all_goals decide +kernel

end Labels

end RobotDescription
