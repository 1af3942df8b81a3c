import Mathlib.Algebra.Ring.Int.Defs
import RobotDescription.Proofs.Decimal.Literals
import RobotDescription.Toml.Number

/-!
# Numbers in TOML documents

An integer that 64 bits hold is read as itself, and any other is no value at all. The text of a
finite double is read as the double.
-/

namespace RobotDescription.Toml.Number

/-- Neither a digit nor a group of digits goes on here. -/
def Stops (rest : List Char) : Prop :=
  ∀ c, rest.head? = some c → c.isDigit = false ∧ c ≠ '_'

theorem stops_nil : Stops [] :=
  nofun

theorem stops_point (rest : List Char) : Stops ('.' :: rest) := by
  rintro c ⟨⟩
  exact ⟨rfl, by decide⟩

section Digits

variable {digits rest : List Char} (hstops : Stops rest)
include hstops

theorem moreDigits?_append (hdigits : ∀ c ∈ digits, c.isDigit = true) :
    moreDigits? Char.isDigit (digits ++ rest) = some (digits, rest) := by
  induction digits with
  | nil =>
      rw [List.nil_append]
      unfold moreDigits?
      split
      next => exact absurd rfl (hstops '_' rfl).2
      next => exact absurd rfl (hstops '_' rfl).2
      next c _ _ _ => rw [if_neg (by rw [(hstops c rfl).1]; exact Bool.false_ne_true)]
      next => rfl
  | cons c more ih =>
      obtain ⟨hfirst, hmore⟩ := List.forall_mem_cons.mp hdigits
      have hplain : c ≠ '_' := fun hsame => absurd (hsame ▸ hfirst) (by decide)
      rw [List.cons_append]
      unfold moreDigits?
      split
      next heq => exact absurd (List.cons.inj heq).1 hplain
      next heq => exact absurd (List.cons.inj heq).1 hplain
      next heq =>
        obtain ⟨rfl, rfl⟩ := List.cons.inj heq
        rw [if_pos hfirst, ih hmore]
        rfl
      next heq => cases heq

theorem digits?_append (hnonempty : digits ≠ []) (hdigits : ∀ c ∈ digits, c.isDigit = true) :
    digits? Char.isDigit (digits ++ rest) = some (digits, rest) := by
  obtain ⟨first, more, rfl⟩ := List.exists_cons_of_ne_nil hnonempty
  obtain ⟨hfirst, hmore⟩ := List.forall_mem_cons.mp hdigits
  rw [List.cons_append, digits?, if_pos hfirst, moreDigits?_append hstops hmore]
  rfl

theorem whole?_append (hwhole : IsWhole digits) : whole? (digits ++ rest) = some (digits, rest) := by
  have hfirst : (digits ++ rest).head? = digits.head? :=
    List.head?_append_of_ne_nil digits hwhole.ne_nil
  rcases hwhole.head_ne with rfl | hhead
  · rfl
  · unfold whole?
    split
    next heq =>
      rw [heq] at hfirst
      exact absurd hfirst.symm hhead
    next => exact digits?_append hstops hwhole.ne_nil hwhole.isDigit

end Digits

/-- What may be next after a value. -/
def valueEnds : List Char :=
  [' ', '\t', '\r', '\n', ',', ']', '\x7d', '#']

/-- The text ends here, or what is next does not belong to a value any more. -/
def EndsValue (rest : List Char) : Prop :=
  ∀ c, rest.head? = some c → c ∈ valueEnds

theorem endsValue_nil : EndsValue [] :=
  nofun

theorem EndsValue.ne {rest : List Char} (hends : EndsValue rest) {c : Char} (hhead : rest.head? = some c)
    {other : Char} (hother : other ∉ valueEnds) : c ≠ other :=
  fun hsame => hother (hsame ▸ hends c hhead)

theorem ofInt?_eq (n : Int) :
    ofInt? n = if -(2 ^ 63) ≤ n ∧ n < 2 ^ 63 then some (.int (Int64.ofInt n)) else none := by
  have hrange : n ≤ 2 ^ 63 - 1 ↔ n < 2 ^ 63 := by omega
  rw [ofInt?, Int64.toInt_minValue, Int64.toInt_maxValue]
  simp only [Bool.and_eq_true, decide_eq_true_eq, hrange]

section Literals

variable {literal digits rest : List Char} {negative : Bool}
  (hinteger : IsInteger literal negative digits) (hends : EndsValue rest)

include hinteger in
theorem takeSign_append (rest : List Char) :
    Binary64.takeSign (literal ++ rest) = (negative, digits ++ rest) := by
  obtain ⟨hsign, hwhole⟩ := hinteger
  unfold Binary64.takeSign at hsign
  split at hsign
  next =>
    cases hsign
    rfl
  next =>
    cases hsign
    rfl
  next =>
    cases hsign
    exact Binary64.takeSign_of_digits hwhole.ne_nil hwhole.isDigit rest

include hinteger hends

/-- Digits in front are followed by a digit or by what ends the value. -/
theorem isDigit_or_mem_valueEnds {taken after : List Char} (hnonempty : taken ≠ [])
    (htaken : ∀ c ∈ taken, c.isDigit = true) (hsplit : literal ++ rest = taken ++ after) {c : Char}
    (hhead : after.head? = some c) : c.isDigit = true ∨ c ∈ valueEnds := by
  have hwhole := hinteger.whole
  have hsign := takeSign_append hinteger rest
  rw [hsplit, Binary64.takeSign_of_digits hnonempty htaken after, Prod.mk.injEq] at hsign
  rcases List.append_eq_append_iff.mp hsign.2 with ⟨between, rfl, hafter⟩ | ⟨between, rfl, hrest⟩
  · rw [hafter] at hhead
    rcases between with _ | ⟨first, more⟩
    · exact .inr (hends c hhead)
    · cases hhead
      exact .inl (hwhole.isDigit c (by simp))
  · rcases between with _ | ⟨first, more⟩
    · rw [List.nil_append] at hrest
      exact .inr (hends c (hrest ▸ hhead))
    · have hdigit := htaken first (by simp)
      have hend := hends first (by rw [hrest]; rfl)
      have hnone : ∀ d ∈ valueEnds, d.isDigit = false := by simp [valueEnds]
      rw [hnone first hend] at hdigit
      cases hdigit

omit hinteger

theorem stops_of_ends : Stops rest := by
  intro c hhead
  have hnone : ∀ d ∈ valueEnds, d.isDigit = false ∧ d ≠ '_' := by simp [valueEnds]
  exact hnone c (hends c hhead)

theorem fraction?_of_ends : fraction? rest = some ([], rest) := by
  unfold fraction?
  split
  next => exact absurd rfl (hends.ne rfl (by decide : '.' ∉ valueEnds))
  next => rfl

theorem exponent?_of_ends : exponent? rest = some ([], rest) := by
  unfold exponent?
  split
  next mark more =>
    have hsmall : mark ≠ 'e' := hends.ne rfl (by decide)
    have hlarge : mark ≠ 'E' := hends.ne rfl (by decide)
    rw [if_neg (by simp [hsmall, hlarge])]
  next => rfl

include hinteger

theorem decimal?_integer :
    decimal? (literal ++ rest) =
      (ofInt? (signedValue negative digits)).map fun value => (value, rest) := by
  unfold decimal?
  rw [takeSign_append hinteger]
  dsimp only
  rw [whole?_append (stops_of_ends hends) hinteger.whole]
  change (fraction? rest >>= fun taken => _) = _
  rw [fraction?_of_ends hends]
  change (exponent? rest >>= fun taken => _) = _
  rw [exponent?_of_ends hends]
  change (ofInt? (signedValue negative digits) >>= fun value => pure (value, rest)) = _
  cases ofInt? (signedValue negative digits) <;> rfl

/-- An integer is read as itself, if it fits 64 bits. -/
theorem number?_integer :
    number? (literal ++ rest) =
      if -(2 ^ 63) ≤ signedValue negative digits ∧ signedValue negative digits < 2 ^ 63 then
        some (.int (Int64.ofInt (signedValue negative digits)), rest)
      else none := by
  -- what follows keeps the literal from being a number in another base, or one that is spelled out
  have hsecond : ∀ c more, literal ++ rest = '0' :: c :: more → c.isDigit = true ∨ c ∈ valueEnds :=
    fun c more hsplit => isDigit_or_mem_valueEnds hinteger hends (List.cons_ne_nil '0' [])
      (List.forall_mem_singleton.mpr rfl) hsplit rfl
  have hfirst : ∀ c more, digits ++ rest = c :: more → c.isDigit = true := by
    intro c more hsplit
    obtain ⟨first, others, rfl⟩ := List.exists_cons_of_ne_nil hinteger.whole.ne_nil
    cases hsplit
    exact hinteger.whole.isDigit c List.mem_cons_self
  unfold number?
  rw [takeSign_append hinteger]
  dsimp only
  split
  next hsplit => exact absurd (hsecond 'x' _ hsplit) (by decide)
  next hsplit => exact absurd (hsecond 'o' _ hsplit) (by decide)
  next hsplit => exact absurd (hsecond 'b' _ hsplit) (by decide)
  next hsplit _ _ _ => exact absurd (hfirst 'i' _ hsplit) (by decide)
  next hsplit _ _ _ => exact absurd (hfirst 'n' _ hsplit) (by decide)
  next =>
    rw [decimal?_integer hinteger hends, ofInt?_eq]
    split <;> rfl

end Literals

section Decimals

variable {text unsigned : List Char} {negative : Bool}
  (hsign : Binary64.takeSign text = (negative, unsigned))
include hsign

/-- What consists of digits and points after its sign is a decimal number. -/
theorem number?_eq_decimal? (hchars : ∀ c ∈ unsigned, c.isDigit = true ∨ c = '.') :
    number? text = decimal? text := by
  have hletter : ∀ c, c.isDigit = false → c ≠ '.' → c ∉ unsigned := by
    intro c hdigit hpoint hmem
    rcases hchars c hmem with hdigit' | hsame
    · rw [hdigit] at hdigit'
      cases hdigit'
    · exact hpoint hsame
  have hfront : ∀ c rest, text = '0' :: c :: rest → c.isDigit = false → c ≠ '.' → False := by
    rintro c rest rfl hdigit hpoint
    cases hsign
    exact hletter c hdigit hpoint (by simp)
  unfold number?
  rw [hsign]
  dsimp only
  split
  next => exact (hfront 'x' _ rfl rfl (by decide)).elim
  next => exact (hfront 'o' _ rfl rfl (by decide)).elim
  next => exact (hfront 'b' _ rfl rfl (by decide)).elim
  next => exact absurd List.mem_cons_self (hletter 'i' rfl (by decide))
  next => exact absurd List.mem_cons_self (hletter 'n' rfl (by decide))
  next => rfl

theorem decimal?_pointed {whole fraction : List Char} (hpointed : Pointed unsigned whole fraction)
    (hwhole : IsWhole whole) {x : Binary64}
    (hread : Binary64.ofLiteral? ((if negative then ['-'] else []) ++ unsigned) = some x)
    (hfinite : x ≠ .infinity false) : decimal? text = some (.float x, []) := by
  obtain ⟨rfl, _, hnonempty, _, hright⟩ := hpointed
  have hdigits := digits?_append stops_nil hnonempty hright
  rw [List.append_nil] at hdigits
  have hfraction : fraction? ('.' :: fraction) = some ('.' :: fraction, []) := by
    rw [fraction?, hdigits]
    rfl
  unfold decimal?
  rw [hsign]
  dsimp only
  rw [whole?_append (stops_point fraction) hwhole]
  change (fraction? ('.' :: fraction) >>= fun taken => _) = _
  rw [hfraction]
  change (Binary64.ofLiteral? ((if negative then ['-'] else []) ++ whole ++ ('.' :: fraction) ++ []) >>=
    fun x => if x = .infinity false then none else some (Value.float x, [])) = _
  rw [List.append_nil, List.append_assoc, hread]
  exact if_neg hfinite

end Decimals

/-- The text of a finite double is read as the double, bit for bit. -/
theorem number?_toText {x : Binary64} (hfinite : x.isFinite = true) :
    number? x.toText.toList = some (.float x, []) := by
  obtain ⟨whole, fraction, hpointed, _⟩ := (Binary64.shortest x.magnitude).pointed_positional
  have hmagnitude : x.magnitude < Binary64.infiniteMagnitude := of_decide_eq_true hfinite
  have hchars : ∀ c ∈ (Binary64.shortest x.magnitude).positional, c.isDigit = true ∨ c = '.' := by
    rw [hpointed.text_eq]
    refine List.forall_mem_append.mpr ⟨fun c hmem => .inl (hpointed.isDigit_whole c hmem), ?_⟩
    exact List.forall_mem_cons.mpr
      ⟨.inr rfl, fun c hmem => .inl (hpointed.isDigit_fraction c hmem)⟩
  have hwhole := isWhole_of_pointed (Binary64.exponent_shortest hmagnitude) hpointed
  rw [number?_eq_decimal? (Binary64.takeSign_toText hfinite) hchars]
  refine decimal?_pointed (Binary64.takeSign_toText hfinite) hpointed hwhole ?_ ?_
  · rw [← Binary64.toList_toText hfinite, Binary64.ofLiteral?_toText hfinite]
  · rintro rfl
    cases hfinite

end RobotDescription.Toml.Number
