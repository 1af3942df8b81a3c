import Mathlib.Data.List.Basic
import RobotDescription.Proofs.Xacro.Escaping

/-!
# What a reader of XML does to a text first

Before a reader of XML looks at a value it has gone over the text twice: every line end has become a
line feed, and then white space inside an attribute value has become a space. Both passes look at
one character at a time, so what they make of a text is put together from what they make of its
pieces.
-/

namespace RobotDescription.Xacro

/-- A pass over a text: what it keeps in mind, and what it writes for a character. -/
structure Pass (σ : Type) where
  next : σ → Char → σ
  shown : σ → Char → List Char

namespace Pass

variable {σ : Type} (pass : Pass σ)

def run : σ → List Char → List Char
  | _, [] => []
  | state, c :: rest => pass.shown state c ++ run (pass.next state c) rest

def after (state : σ) (text : List Char) : σ :=
  text.foldl pass.next state

/-- Between two states a text is rewritten as another. -/
structure Turns (before : σ) (text shown : String) (after : σ) : Prop where
  run_eq : pass.run before text.toList = shown.toList
  after_eq : pass.after before text.toList = after

theorem run_append (state : σ) (front back : List Char) :
    pass.run state (front ++ back) =
      pass.run state front ++ pass.run (pass.after state front) back := by
  induction front generalizing state with
  | nil => rfl
  | cons c rest ih =>
      simp only [List.cons_append, run, ih, List.append_assoc]
      rfl

variable {pass}

theorem Turns.append {before middle after : σ} {front front' back back' : String}
    (hfront : pass.Turns before front front' middle) (hback : pass.Turns middle back back' after) :
    pass.Turns before (front ++ back) (front' ++ back') after := by
  constructor
  · rw [String.toList_append, String.toList_append, run_append, hfront.run_eq, hfront.after_eq,
      hback.run_eq]
  · rw [String.toList_append, Pass.after, List.foldl_append, ← Pass.after, ← Pass.after,
      hfront.after_eq, hback.after_eq]

theorem turns_empty (state : σ) : pass.Turns state "" "" state :=
  ⟨rfl, rfl⟩

theorem turns_join {ι : Type} {state : σ} {items : List ι} {text text' : ι → String}
    (hitems : ∀ item ∈ items, pass.Turns state (text item) (text' item) state) :
    pass.Turns state (String.join (items.map text)) (String.join (items.map text')) state := by
  induction items with
  | nil => exact turns_empty state
  | cons item rest ih =>
      rw [List.map_cons, List.map_cons, String.join_cons, String.join_cons]
      exact (hitems item List.mem_cons_self).append
        (ih fun other hmem => hitems other (List.mem_cons_of_mem _ hmem))

/-- A text stays as it is where each of its characters does and the state comes back. -/
theorem turns_self {state : σ} {text : String}
    (hnext : ∀ c ∈ text.toList, pass.next state c = state)
    (hshown : ∀ c ∈ text.toList, pass.shown state c = [c]) : pass.Turns state text text state := by
  have hall : ∀ characters : List Char, characters ⊆ text.toList →
      pass.run state characters = characters ∧ pass.after state characters = state := by
    intro characters hsub
    induction characters with
    | nil => exact ⟨rfl, rfl⟩
    | cons c rest ih =>
        obtain ⟨hmem, hrest⟩ := List.cons_subset.mp hsub
        obtain ⟨hrun, hafter⟩ := ih hrest
        constructor
        · rw [run, hnext c hmem, hshown c hmem, hrun]
          rfl
        · rw [after, List.foldl_cons, hnext c hmem]
          exact hafter
  obtain ⟨hrun, hafter⟩ := hall text.toList (List.Subset.refl _)
  exact ⟨hrun, hafter⟩

end Pass

/-- Line ends become line feeds: a carriage return stands for one, together with the line feed after
it if there is one. In mind is whether the last character was a carriage return. -/
def lineEnds : Pass Bool where
  next _ c := c == '\r'
  shown afterReturn c :=
    if c = '\r' then ['\n'] else if c = '\n' && afterReturn then [] else [c]

/-- The text with its line ends as line feeds. -/
def unified (text : String) : String :=
  String.ofList (lineEnds.run false text.toList)

/-- Where in a document a character stands. -/
inductive Place where
  | content
  /-- After the opening bracket of a tag or a comment, and as much of the mark of a comment. -/
  | opened
  | declared
  | declaredHyphen
  | tag
  /-- In an attribute value that ends with the given quote. -/
  | value (quote : Char)
  /-- In a comment, after so many hyphens in a row. -/
  | comment (hyphens : Nat)
deriving DecidableEq

def Place.next : Place → Char → Place
  | .content, c => if c = '<' then .opened else .content
  | .opened, c => if c = '!' then .declared else if c = '>' then .content else .tag
  | .declared, c => if c = '-' then .declaredHyphen else if c = '>' then .content else .tag
  | .declaredHyphen, c => if c = '-' then .comment 0 else if c = '>' then .content else .tag
  | .tag, c => if c = '"' || c = '\'' then .value c else if c = '>' then .content else .tag
  | .value quote, c => if c = quote then .tag else .value quote
  | .comment hyphens, c =>
    if c = '-' then .comment (hyphens + 1)
    else if c = '>' && 2 ≤ hyphens then .content
    else .comment 0

/-- White space other than a space. -/
def isBreak (c : Char) : Bool :=
  c == '\t' || c == '\n' || c == '\r'

def toSpace (c : Char) : Char :=
  if isBreak c then ' ' else c

/-- White space in an attribute value becomes a space. -/
def values : Pass Place where
  next := Place.next
  shown
    | .value _, c => [toSpace c]
    | _, c => [c]

/-- The text with its white space as spaces. -/
def spaced (text : String) : String :=
  String.ofList (text.toList.map toSpace)

theorem escapeComment_cons_of_ne {c : Char} (hne : c ≠ '-') (rest : List Char) :
    escapeComment (c :: rest) = c :: escapeComment rest := by
  cases rest with
  | nil => simp [escapeComment, hne]
  | cons d tail => simp [escapeComment, hne]

theorem escapeComment_hyphen_cons {d : Char} (hne : d ≠ '-') (rest : List Char) :
    escapeComment ('-' :: d :: rest) = '-' :: escapeComment (d :: rest) := by
  simp [escapeComment, hne]

section LineEnds

theorem lineEnds_cons {c : Char} (hreturn : c ≠ '\r') (hfeed : c ≠ '\n') (afterReturn : Bool)
    (rest : List Char) :
    lineEnds.run afterReturn (c :: rest) = c :: lineEnds.run false rest := by
  have hnext : lineEnds.next afterReturn c = false := beq_eq_false_iff_ne.mpr hreturn
  have hshown : lineEnds.shown afterReturn c = [c] := by simp [lineEnds, hreturn, hfeed]
  rw [Pass.run, hnext, hshown]
  rfl

/-- What is written for a character is that character, or a line feed, or nothing. -/
theorem lineEnds_shown_cases (afterReturn : Bool) (c : Char) :
    lineEnds.shown afterReturn c = [c] ∨ lineEnds.shown afterReturn c = ['\n'] ∨
      lineEnds.shown afterReturn c = [] ∧ afterReturn = true := by
  simp only [lineEnds]
  split
  next => exact .inr (.inl rfl)
  next =>
    split
    next hfeed => exact .inr (.inr ⟨rfl, (Bool.and_eq_true_iff.mp hfeed).2⟩)
    next => exact .inl rfl

/-- What follows a character that is no carriage return does not begin with a hyphen that was not
there. -/
theorem exists_lineEnds_cons {c : Char} (hne : c ≠ '-') (rest : List Char) :
    ∃ d more, d ≠ '-' ∧ lineEnds.run false (c :: rest) = d :: more := by
  rw [Pass.run]
  rcases lineEnds_shown_cases false c with hshown | hshown | ⟨_, hfalse⟩
  · exact ⟨c, _, hne, by rw [hshown]; rfl⟩
  · exact ⟨'\n', _, by decide, by rw [hshown]; rfl⟩
  · cases hfalse

theorem lineEnds_escapeChar (afterReturn : Bool) (c : Char) (rest : List Char) :
    lineEnds.run afterReturn (escapeChar c ++ rest) =
      escapeAttribute (lineEnds.shown afterReturn c) ++
        lineEnds.run (lineEnds.next afterReturn c) rest := by
  by_cases hspecial : c ∈ special
  · simp only [special, List.mem_cons, List.not_mem_nil, or_false] at hspecial
    rcases hspecial with rfl | rfl | rfl | rfl <;> rfl
  · have hfeed : escapeAttribute ['\n'] = ['\n'] := rfl
    have hself : escapeAttribute [c] = [c] := by
      rw [escapeAttribute, List.flatMap_singleton, escapeChar_of_not_mem_special hspecial]
    rw [escapeChar_of_not_mem_special hspecial]
    rcases lineEnds_shown_cases afterReturn c with hshown | hshown | ⟨hshown, _⟩
    · simp [Pass.run, hshown, hself]
    · simp [Pass.run, hshown, hfeed]
    · simp [Pass.run, hshown, escapeAttribute]

theorem lineEnds_escapeAttribute (afterReturn : Bool) (value : List Char) :
    lineEnds.run afterReturn (escapeAttribute value) =
      escapeAttribute (lineEnds.run afterReturn value) := by
  induction value generalizing afterReturn with
  | nil => rfl
  | cons c rest ih =>
      change lineEnds.run afterReturn (escapeChar c ++ escapeAttribute rest) =
        escapeAttribute (lineEnds.shown afterReturn c ++ lineEnds.run _ rest)
      rw [lineEnds_escapeChar, ih, escapeAttribute, escapeAttribute, escapeAttribute,
        List.flatMap_append]

/-- A hyphen and what comes after it stay as close as they were. -/
theorem lineEnds_escapeComment (afterReturn : Bool) (text : List Char) :
    lineEnds.run afterReturn (escapeComment text) =
      escapeComment (lineEnds.run afterReturn text) := by
  have hfeed : ∀ rest, escapeComment ('\n' :: rest) = '\n' :: escapeComment rest :=
    escapeComment_cons_of_ne (by decide)
  -- a character that is no hyphen is followed by whatever follows it
  have hplain : ∀ (before : Bool) (c : Char) (rest : List Char), c ≠ '-' →
      escapeComment (lineEnds.shown before c ++ rest) =
        lineEnds.shown before c ++ escapeComment rest := by
    intro before c rest hne
    rcases lineEnds_shown_cases before c with hshown | hshown | ⟨hshown, _⟩
    · simp [hshown, escapeComment_cons_of_ne hne]
    · simp [hshown, hfeed]
    · simp [hshown]
  fun_induction escapeComment text generalizing afterReturn with
  | case1 => rfl
  | case2 => rfl
  | case3 c hother => exact (hplain afterReturn c [] hother).symm
  | case4 a b rest hhyphens ih =>
      obtain ⟨rfl, rfl⟩ : a = '-' ∧ b = '-' := by simpa using hhyphens
      rw [lineEnds_cons (by decide) (by decide), lineEnds_cons (by decide) (by decide), ih,
        lineEnds_cons (by decide) (by decide), lineEnds_cons (by decide) (by decide)]
      rfl
  | case5 a b rest hother ih =>
      rw [Pass.run, ih]
      by_cases ha : a = '-'
      · subst ha
        have hb : b ≠ '-' := by simpa using hother
        obtain ⟨d, more, hd, hrun⟩ := exists_lineEnds_cons hb rest
        change '-' :: escapeComment (lineEnds.run false (b :: rest)) =
          escapeComment ('-' :: lineEnds.run false (b :: rest))
        rw [hrun]
        exact (escapeComment_hyphen_cons hd more).symm
      · exact (hplain afterReturn a _ ha).symm

/-- Where a text is enclosed in characters that are no part of a line end, its own line ends are
all that changes. -/
theorem lineEnds_turns_enclosed {front back : Char} (hfront : front ≠ '\r' ∧ front ≠ '\n')
    (hback : back ≠ '\r' ∧ back ≠ '\n') (text : List Char) :
    lineEnds.Turns false (String.ofList (front :: (text ++ [back])))
      (String.ofList (front :: (lineEnds.run false text ++ [back]))) false := by
  constructor
  · rw [String.toList_ofList, String.toList_ofList, lineEnds_cons hfront.1 hfront.2,
      Pass.run_append, lineEnds_cons hback.1 hback.2]
    rfl
  · rw [String.toList_ofList, Pass.after, List.foldl_cons, List.foldl_append]
    exact beq_eq_false_iff_ne.mpr hback.1

theorem lineEnds_turns_quotedValue (value : String) :
    lineEnds.Turns false (quotedValue value) (quotedValue (unified value)) false := by
  have hquoted : ∀ value : String, quotedValue value =
      String.ofList ('"' :: (escapeAttribute value.toList ++ ['"'])) := by
    intro value
    simp [← String.toList_inj, quotedValue]
  rw [hquoted, hquoted, unified, String.toList_ofList, ← lineEnds_escapeAttribute]
  exact lineEnds_turns_enclosed (by decide) (by decide) _

theorem lineEnds_turns_comment (text : String) :
    lineEnds.Turns false (" " ++ String.ofList (escapeComment text.toList) ++ " ")
      (" " ++ String.ofList (escapeComment (unified text).toList) ++ " ") false := by
  have hspaced : ∀ text : List Char, " " ++ String.ofList text ++ " " =
      String.ofList (' ' :: (text ++ [' '])) := by
    intro text
    simp [← String.toList_inj]
  rw [hspaced, hspaced, unified, String.toList_ofList, ← lineEnds_escapeComment]
  exact lineEnds_turns_enclosed (by decide) (by decide) _

/-- A text without line ends stays as it is. -/
theorem lineEnds_turns_self {text : String} (hplain : ∀ c ∈ text.toList, c ≠ '\r' ∧ c ≠ '\n') :
    lineEnds.Turns false text text false :=
  Pass.turns_self (fun c hmem => beq_eq_false_iff_ne.mpr (hplain c hmem).1) fun c hmem => by
    simp [lineEnds, hplain c hmem]

end LineEnds

section Values

theorem escapeChar_toSpace (c : Char) : escapeChar (toSpace c) = (escapeChar c).map toSpace := by
  by_cases hspecial : c ∈ special
  · simp only [special, List.mem_cons, List.not_mem_nil, or_false] at hspecial
    rcases hspecial with rfl | rfl | rfl | rfl <;> rfl
  · have hspaced : toSpace c ∉ special := by
      unfold toSpace
      split
      · decide
      · exact hspecial
    rw [escapeChar_of_not_mem_special hspecial, escapeChar_of_not_mem_special hspaced]
    rfl

theorem escapeAttribute_map_toSpace (value : List Char) :
    escapeAttribute (value.map toSpace) = (escapeAttribute value).map toSpace := by
  rw [escapeAttribute, escapeAttribute, List.flatMap_map, List.map_flatMap]
  exact List.flatMap_congr fun c _ => escapeChar_toSpace c

/-- A value goes on to its quote, and its white space becomes spaces. -/
theorem values_in_value {quote : Char} {text : List Char} (hquote : quote ∉ text) :
    values.run (.value quote) text = text.map toSpace ∧
      values.after (.value quote) text = .value quote := by
  induction text with
  | nil => exact ⟨rfl, rfl⟩
  | cons c rest ih =>
      obtain ⟨hne, hrest⟩ := List.ne_and_not_mem_of_not_mem_cons hquote
      obtain ⟨hrun, hafter⟩ := ih hrest
      have hnext : values.next (.value quote) c = .value quote := if_neg (Ne.symm hne)
      constructor
      · rw [Pass.run, hnext, hrun]
        rfl
      · rw [Pass.after, List.foldl_cons, hnext]
        exact hafter

theorem values_turns_quotedValue (value : String) :
    values.Turns .tag (quotedValue value) (quotedValue (spaced value)) .tag := by
  have hquote : values.Turns .tag "\"" "\"" (.value '"') := ⟨rfl, rfl⟩
  have hend : values.Turns (.value '"') "\"" "\"" .tag := ⟨rfl, rfl⟩
  obtain ⟨hrun, hafter⟩ := values_in_value (quote_not_mem_escapeAttribute value.toList)
  have hinside : values.Turns (.value '"') (String.ofList (escapeAttribute value.toList))
      (String.ofList (escapeAttribute (spaced value).toList)) (.value '"') := by
    rw [spaced, String.toList_ofList, escapeAttribute_map_toSpace]
    exact ⟨by rwa [String.toList_ofList, String.toList_ofList], by rwa [String.toList_ofList]⟩
  exact (hquote.append hinside).append hend

/-- A comment stays as it is, and nothing in it ends it where no two hyphens are adjacent. -/
theorem values_in_comment (hyphens : Nat) {text : List Char} (hfew : hyphens ≤ 1)
    (hapart : ¬ ['-', '-'] <:+: List.replicate hyphens '-' ++ text) :
    values.run (.comment hyphens) text = text ∧
      ∃ last ≤ 1, values.after (.comment hyphens) text = .comment last := by
  induction text generalizing hyphens with
  | nil => exact ⟨rfl, hyphens, hfew, rfl⟩
  | cons c rest ih =>
      by_cases hhyphen : c = '-'
      · subst hhyphen
        have hnone : hyphens = 0 := by
          refine Nat.le_antisymm (Nat.le_of_lt_succ (Nat.lt_of_le_of_ne hfew ?_)) (Nat.zero_le _)
          rintro rfl
          exact hapart (List.prefix_append ['-', '-'] rest).isInfix
        subst hnone
        obtain ⟨hrun, hafter⟩ := ih 1 (Nat.le_refl 1) hapart
        exact ⟨congrArg ('-' :: ·) hrun, hafter⟩
      · have hnext : values.next (.comment hyphens) c = .comment 0 := by
          simp only [values, Place.next, if_neg hhyphen]
          exact if_neg (by simp; omega)
        have hrest : ¬ ['-', '-'] <:+: rest := fun hinside => hapart <|
          hinside.trans ((List.suffix_cons c rest).trans (List.suffix_append _ _)).isInfix
        obtain ⟨hrun, hafter⟩ := ih 0 (Nat.zero_le 1) hrest
        rw [Pass.run, hnext, hrun, Pass.after, List.foldl_cons, hnext]
        exact ⟨rfl, hafter⟩

theorem values_turns_comment (text : String) :
    values.Turns (.comment 0) (" " ++ String.ofList (escapeComment text.toList) ++ " " ++ "-->")
      (" " ++ String.ofList (escapeComment text.toList) ++ " " ++ "-->") .content := by
  have hspace : values.Turns (.comment 0) " " " " (.comment 0) := ⟨rfl, rfl⟩
  obtain ⟨hrun, last, _, hafter⟩ :=
    values_in_comment 0 (Nat.zero_le 1) (hyphens_not_infix_escapeComment text.toList)
  have hinside : values.Turns (.comment 0) (String.ofList (escapeComment text.toList))
      (String.ofList (escapeComment text.toList)) (.comment last) :=
    ⟨by rwa [String.toList_ofList], by rwa [String.toList_ofList]⟩
  have hback : values.Turns (.comment last) " " " " (.comment 0) := ⟨rfl, rfl⟩
  have hend : values.Turns (.comment 0) "-->" "-->" .content := ⟨rfl, rfl⟩
  exact ((hspace.append hinside).append hback).append hend

/-- Outside of values and comments nothing changes that does not begin or end a tag. -/
theorem values_turns_self {text : String}
    (hplain : ∀ c ∈ text.toList, c ≠ '"' ∧ c ≠ '\'' ∧ c ≠ '>') :
    values.Turns .tag text text .tag := by
  refine Pass.turns_self (fun c hmem => ?_) fun _ _ => rfl
  obtain ⟨hdouble, hsingle, hend⟩ := hplain c hmem
  simp [values, Place.next, hdouble, hsingle, hend]

end Values

end RobotDescription.Xacro
