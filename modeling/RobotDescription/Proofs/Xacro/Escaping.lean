import RobotDescription.Proofs.Xacro.Reading
import RobotDescription.Xacro.Render

/-!
# Escaped texts are read back

An escaped attribute value holds no double quote and is decoded to the value. An escaped comment
holds no two adjacent hyphens, so its end mark is the first one. Coordinates need no escaping.
-/

namespace RobotDescription.Xacro

theorem decode_cons {c : Char} (hplain : c ≠ '&') (rest : List Char) :
    Reader.decode (c :: rest) = (Reader.decode rest).map (c :: ·) := by
  rw [Reader.decode, if_neg hplain]
  all_goals exact fun _ hampersand => absurd hampersand hplain

theorem decode_escapeChar (c : Char) (rest : List Char) :
    Reader.decode (escapeChar c ++ rest) = (Reader.decode rest).map (c :: ·) := by
  unfold escapeChar
  split
  next => rfl
  next => rfl
  next => rfl
  next => rfl
  next hplain _ _ _ => exact decode_cons hplain rest

/-- Decoding undoes escaping. -/
theorem decode_escapeAttribute (value : List Char) :
    Reader.decode (escapeAttribute value) = some value := by
  induction value with
  | nil => rfl
  | cons c rest ih =>
      change Reader.decode (escapeChar c ++ escapeAttribute rest) = _
      rw [decode_escapeChar, ih]
      rfl

/-- An escaped value cannot leave its quotes. -/
theorem quote_not_mem_escapeAttribute (value : List Char) : '"' ∉ escapeAttribute value := by
  intro hmem
  obtain ⟨c, _, hquote⟩ := List.mem_flatMap.mp hmem
  unfold escapeChar at hquote
  split at hquote
  next => exact absurd hquote (by decide)
  next => exact absurd hquote (by decide)
  next => exact absurd hquote (by decide)
  next => exact absurd hquote (by decide)
  next hother => exact hother (List.mem_singleton.mp hquote).symm

/-- The characters that cannot stand in an attribute value. -/
def special : List Char := ['&', '<', '>', '"']

theorem escapeChar_of_not_mem_special {c : Char} (hplain : c ∉ special) : escapeChar c = [c] := by
  unfold escapeChar
  split
  next => exact absurd List.mem_cons_self hplain
  next => exact absurd (by simp [special]) hplain
  next => exact absurd (by simp [special]) hplain
  next => exact absurd (by simp [special]) hplain
  next => rfl

theorem escapeAttribute_eq_self {value : List Char} (hplain : ∀ c ∈ value, c ∉ special) :
    escapeAttribute value = value := by
  induction value with
  | nil => rfl
  | cons c rest ih =>
      obtain ⟨hfirst, hrest⟩ := List.forall_mem_cons.mp hplain
      change escapeChar c ++ escapeAttribute rest = _
      rw [escapeChar_of_not_mem_special hfirst, ih hrest]
      rfl

theorem head?_escapeComment (text : List Char) : (escapeComment text).head? = text.head? := by
  unfold escapeComment
  split
  next => rfl
  next => split <;> simp_all
  next => split <;> simp_all

/-- An escaped comment has no two adjacent hyphens. -/
theorem hyphens_not_infix_escapeComment (text : List Char) :
    ¬ ['-', '-'] <:+: escapeComment text := by
  fun_induction escapeComment text with
  | case1 => simp
  | case2 => decide
  | case3 c hother => simp [List.infix_cons_iff]
  | case4 a b rest hhyphens ih => simp [List.infix_cons_iff, ih]
  | case5 a b rest hother ih =>
      -- what follows still begins with the same character, so no pair arises at the seam
      obtain ⟨tail, htail⟩ : ∃ tail, escapeComment (b :: rest) = b :: tail :=
        List.head?_eq_some_iff.mp (head?_escapeComment (b :: rest))
      rw [List.infix_cons_iff]
      rintro (hstarts | hinside)
      · obtain ⟨hfirst, hsecond⟩ := List.cons_prefix_cons.mp hstarts
        rw [htail] at hsecond
        exact hother (by simp [← hfirst, ← (List.cons_prefix_cons.mp hsecond).1])
      · exact ih hinside

/-- Escaping a comment adds nothing but spaces. -/
theorem filter_escapeComment (text : List Char) :
    (escapeComment text).filter (· ≠ ' ') = text.filter (· ≠ ' ') := by
  fun_induction escapeComment text with
  | case1 => rfl
  | case2 => rfl
  | case3 => rfl
  | case4 a b rest hhyphens ih =>
      have hfirst : a = '-' := by simp_all
      rw [hfirst]
      calc ('-' :: ' ' :: escapeComment (b :: rest)).filter (· ≠ ' ')
        _ = '-' :: (escapeComment (b :: rest)).filter (· ≠ ' ') := rfl
        _ = '-' :: (b :: rest).filter (· ≠ ' ') := by rw [ih]
        _ = ('-' :: b :: rest).filter (· ≠ ' ') := rfl
  | case5 a b rest hother ih => rw [List.filter_cons, List.filter_cons, ih]

theorem hyphens_not_infix_spaced (text : List Char) :
    ¬ ['-', '-'] <:+: ' ' :: (escapeComment text ++ [' ']) := by
  rw [List.infix_cons_iff, List.infix_concat_iff]
  rintro (hstarts | hends | hinside)
  · exact absurd (List.cons_prefix_cons.mp hstarts).1 (by decide)
  · have hlast := hends.getLast (List.cons_ne_nil _ _)
    simp at hlast
  · exact hyphens_not_infix_escapeComment text hinside

/-- The first end mark in a comment is its own. -/
theorem reads_comment (text : List Char) :
    Reader.Reads (Reader.upTo "-->") (" " ++ String.ofList (escapeComment text) ++ " " ++ "-->")
      (' ' :: (escapeComment text ++ [' '])) := by
  have htext : (" " ++ String.ofList (escapeComment text) ++ " ").toList =
      ' ' :: (escapeComment text ++ [' ']) := by
    simp
  rw [← htext]
  refine Reader.reads_upTo (by decide) fun suffix hne hends rest hstarts => ?_
  rw [htext] at hends
  match suffix, hne with
  | [c], _ =>
      have hfirst : '-' = c := (List.cons_prefix_cons.mp hstarts).1
      have hlast : c = ' ' := by
        have hsame := hends.getLast (List.cons_ne_nil c [])
        simpa [List.getLast_cons (l := escapeComment text ++ [' '])] using hsame
      exact absurd (hfirst.trans hlast) (by decide)
  | c :: d :: tail, _ =>
      obtain ⟨hfirst, hmore⟩ := List.cons_prefix_cons.mp hstarts
      have hsecond := (List.cons_prefix_cons.mp hmore).1
      subst hfirst hsecond
      exact hyphens_not_infix_spaced text
        ((List.prefix_append ['-', '-'] tail).isInfix.trans hends.isInfix)

theorem reads_namedValue {name : String} (hname : '=' ∉ name.toList) (value : String) :
    Reader.Reads Reader.namedValue (attributeText name value) (name, value) := by
  have htext : attributeText name value = " " ++ ((name ++ "=") ++
      ("\"" ++ ((String.ofList (escapeAttribute value.toList) ++ "\"") ++ ("" ++ "")))) := by
    simp [attributeText, quotedValue, String.append_assoc]
  have hquote : '"' ∉ (String.ofList (escapeAttribute value.toList)).toList := by
    rw [String.toList_ofList]
    exact quote_not_mem_escapeAttribute value.toList
  have hdecode : Reader.decode (String.ofList (escapeAttribute value.toList)).toList =
      some value.toList := by
    rw [String.toList_ofList, decode_escapeAttribute]
  rw [htext]
  apply Reader.reads_bind (Reader.reads_word " ")
  apply Reader.reads_bind (Reader.reads_upTo_char rfl hname)
  apply Reader.reads_bind (Reader.reads_word "\"")
  apply Reader.reads_bind (Reader.reads_upTo_char rfl hquote)
  apply Reader.reads_bind (Reader.reads_lift hdecode)
  rw [String.ofList_toList, String.ofList_toList]
  exact Reader.reads_pure (name, value)

/-- A number in positional notation is made of digits and a point. -/
theorem forall_mem_positional {property : Char → Prop} (hdigit : ∀ c, c.isDigit → property c)
    (hpoint : property '.') (number : Scientific) : ∀ c ∈ number.positional, property c := by
  have hdigits : ∀ c ∈ Nat.toDigits 10 number.digits, property c :=
    fun c hmem => hdigit c (Nat.isDigit_of_mem_toDigits (by decide) (by decide) hmem)
  have hzeros : ∀ count, ∀ c ∈ List.replicate count '0', property c := by
    intro count c hmem
    rw [List.eq_of_mem_replicate hmem]
    exact hdigit '0' rfl
  unfold Scientific.positional
  split
  next =>
    simp only [List.forall_mem_append, List.forall_mem_cons]
    exact ⟨⟨hdigits, hzeros _⟩, hpoint, hdigit '0' rfl, nofun⟩
  next =>
    dsimp only
    split
    next =>
      simp only [List.forall_mem_append, List.forall_mem_cons]
      exact ⟨fun c hmem => hdigits c (List.mem_of_mem_take hmem), hpoint,
        fun c hmem => hdigits c (List.mem_of_mem_drop hmem)⟩
    next =>
      simp only [List.forall_mem_append, List.forall_mem_cons]
      exact ⟨hdigit '0' rfl, hpoint, hzeros _, hdigits⟩

/-- The text of a double is made of digits, a point, a sign and the letters of its three words. -/
theorem forall_mem_toText {property : Char → Prop} (hdigit : ∀ c, c.isDigit → property c)
    (hother : ∀ c ∈ ".-NaNinf".toList, property c) (x : Binary64) :
    ∀ c ∈ x.toText.toList, property c := by
  have hunsigned : ∀ c ∈ (if x.isInfinite then "inf"
      else String.ofList (Binary64.shortest x.magnitude).positional).toList, property c := by
    split
    next => exact fun c hmem => hother c (List.mem_append_right ".-NaN".toList hmem)
    next =>
      rw [String.toList_ofList]
      exact forall_mem_positional hdigit (hother '.' (by simp)) _
  unfold Binary64.toText
  split
  next =>
    exact fun c hmem =>
      hother c (List.mem_append_right ".-".toList (List.mem_append_left "inf".toList hmem))
  next =>
    dsimp only
    split
    next =>
      rw [String.toList_append]
      exact List.forall_mem_append.mpr ⟨by simpa using hother '-' (by simp), hunsigned⟩
    next => exact hunsigned

theorem not_mem_special_of_mem_toText (x : Binary64) : ∀ c ∈ x.toText.toList, c ∉ special := by
  refine forall_mem_toText ?_ (by simp [special]) x
  rintro c hdigit hspecial
  simp only [special, List.mem_cons, List.not_mem_nil, or_false] at hspecial
  rcases hspecial with rfl | rfl | rfl | rfl <;> exact absurd hdigit (by decide)

theorem quotedValue_coordinates (v : Vector3) :
    quotedValue (coordinates v) = "\"" ++ coordinates v ++ "\"" := by
  have hspace : ∀ c ∈ " ".toList, c ∉ special := by simp [special]
  have hplain : escapeAttribute (coordinates v).toList = (coordinates v).toList := by
    refine escapeAttribute_eq_self ?_
    unfold coordinates
    simp only [String.toList_append, List.forall_mem_append]
    exact ⟨⟨⟨⟨not_mem_special_of_mem_toText v.x, hspace⟩, not_mem_special_of_mem_toText v.y⟩,
      hspace⟩, not_mem_special_of_mem_toText v.z⟩
  unfold quotedValue
  rw [hplain, String.ofList_toList]

end RobotDescription.Xacro
