import RobotDescription.Proofs.Xacro.Escaping

/-!
# Comments are changed as little as possible

Adjacent hyphens are told apart by passes that replace them in pairs, from the left. Where two pairs
meet a pass leaves a new pair, but this one stands alone, so a second pass is enough. What the passes
end with is the text with a space between every two adjacent hyphens; no text that holds all its
characters and can stand in a comment is shorter.
-/

namespace RobotDescription.Xacro

/-- Two hyphens are adjacent. -/
def HasPair (text : List Char) : Prop :=
  ['-', '-'] <:+: text

/-- One pass: every two adjacent hyphens get a space between them, and the next two are looked for
behind both. -/
def spacePairs : List Char → List Char
  | '-' :: '-' :: rest => '-' :: ' ' :: '-' :: spacePairs rest
  | c :: rest => c :: spacePairs rest
  | [] => []

/-- The loop that makes passes while hyphens are adjacent: from a text it comes by so many passes to
its end. -/
inductive Passes : List Char → Nat → List Char → Prop
  | done {text : List Char} (hnone : ¬ HasPair text) : Passes text 0 text
  | again {text ended : List Char} {count : Nat} (hpair : HasPair text)
      (hrest : Passes (spacePairs text) count ended) : Passes text (count + 1) ended

/-- The loop has only one end. -/
theorem Passes.unique {text ended ended' : List Char} {count count' : Nat}
    (hpasses : Passes text count ended) (hpasses' : Passes text count' ended') :
    count = count' ∧ ended = ended' := by
  induction hpasses generalizing count' with
  | done hnone =>
      cases hpasses' with
      | done => exact ⟨rfl, rfl⟩
      | again hpair => exact absurd hpair hnone
  | again hpair _ ih =>
      cases hpasses' with
      | done hnone => exact absurd hpair hnone
      | again _ hrest =>
          obtain ⟨rfl, rfl⟩ := ih hrest
          exact ⟨rfl, rfl⟩

theorem head?_spacePairs (text : List Char) : (spacePairs text).head? = text.head? := by
  unfold spacePairs
  split
  next => rfl
  next => rfl
  next => rfl

/-- A pass never leaves a pair in front. -/
theorem not_pair_prefix_spacePairs (text : List Char) : ¬ ['-', '-'] <+: spacePairs text := by
  fun_cases spacePairs text with
  | case1 rest =>
      intro hstarts
      obtain ⟨_, hsecond⟩ := List.cons_prefix_cons.mp hstarts
      exact absurd (List.cons_prefix_cons.mp hsecond).1 (by decide)
  | case2 c rest hother =>
      intro hstarts
      obtain ⟨rfl, hsecond⟩ := List.cons_prefix_cons.mp hstarts
      have hhead : rest.head? = some '-' := by
        rw [← head?_spacePairs]
        exact List.singleton_prefix_iff_head?_eq_some.mp hsecond
      obtain ⟨more, rfl⟩ := List.head?_eq_some_iff.mp hhead
      exact hother more rfl rfl
  | case3 => simp

/-- After a pass no three hyphens are adjacent. -/
theorem not_triple_infix_spacePairs (text : List Char) :
    ¬ ['-', '-', '-'] <:+: spacePairs text := by
  fun_induction spacePairs text with
  | case1 rest ih =>
      have hfront := not_pair_prefix_spacePairs rest
      simp [List.infix_cons_iff, List.cons_prefix_cons, hfront, ih]
  | case2 c rest hother ih =>
      rw [List.infix_cons_iff]
      rintro (hstarts | hinside)
      · exact not_pair_prefix_spacePairs rest (List.cons_prefix_cons.mp hstarts).2
      · exact ih hinside
  | case3 => simp

/-- Where no three hyphens are adjacent, one pass tells all pairs apart. -/
theorem not_hasPair_spacePairs {text : List Char} (htriple : ¬ ['-', '-', '-'] <:+: text) :
    ¬ HasPair (spacePairs text) := by
  unfold HasPair
  fun_induction spacePairs text with
  | case1 rest ih =>
      have hrest : ¬ ['-', '-', '-'] <:+: rest :=
        fun hinside => htriple (List.infix_cons (List.infix_cons hinside))
      have hhead : rest.head? ≠ some '-' := by
        intro hhead
        obtain ⟨more, rfl⟩ := List.head?_eq_some_iff.mp hhead
        exact htriple (List.prefix_append ['-', '-', '-'] more).isInfix
      -- behind a replaced pair comes no third hyphen, with which its second one could pair
      have hseam : ¬ ['-', '-'] <+: '-' :: spacePairs rest := by
        intro hstarts
        have hsecond := (List.cons_prefix_cons.mp hstarts).2
        rw [List.singleton_prefix_iff_head?_eq_some, head?_spacePairs] at hsecond
        exact hhead hsecond
      simp [List.infix_cons_iff, List.cons_prefix_cons, hseam, ih hrest]
  | case2 c rest hother ih =>
      have hrest : ¬ ['-', '-', '-'] <:+: rest := fun hinside => htriple (List.infix_cons hinside)
      rw [List.infix_cons_iff]
      rintro (hstarts | hinside)
      · obtain ⟨rfl, hsecond⟩ := List.cons_prefix_cons.mp hstarts
        rw [List.singleton_prefix_iff_head?_eq_some, head?_spacePairs] at hsecond
        obtain ⟨more, rfl⟩ := List.head?_eq_some_iff.mp hsecond
        exact hother more rfl rfl
      · exact ih hrest hinside
  | case3 => simp

/-- After the first pass the loop makes at most one more. -/
theorem exists_passes (text : List Char) :
    ∃ count ended, count ≤ 1 ∧ Passes (spacePairs text) count ended ∧ ¬ HasPair ended := by
  have htwice : ¬ HasPair (spacePairs (spacePairs text)) :=
    not_hasPair_spacePairs (not_triple_infix_spacePairs text)
  by_cases hpair : HasPair (spacePairs text)
  · exact ⟨1, _, Nat.le_refl 1, .again hpair (.done htwice), htwice⟩
  · exact ⟨0, _, Nat.zero_le 1, .done hpair, hpair⟩

/-- A character needs a space behind it if it is a hyphen, and another hyphen or nothing follows. -/
def needsSpace (c : Char) (next : Option Char) : Bool :=
  c = '-' && next.all (· = '-')

/-- A text that can stand in a comment as it is. -/
structure FitsComment (text : List Char) : Prop where
  not_hasPair : ¬ HasPair text
  getLast?_ne : text.getLast? ≠ some '-'

theorem fitsComment_nil : FitsComment [] :=
  ⟨by simp [HasPair], by simp⟩

theorem hasPair_cons_cons {c d : Char} {rest : List Char} :
    HasPair (c :: d :: rest) ↔ needsSpace c (some d) = true ∨ HasPair (d :: rest) := by
  have hfront : ['-', '-'] <+: c :: d :: rest ↔ needsSpace c (some d) = true := by
    rw [List.cons_prefix_cons, List.cons_prefix_cons, needsSpace, Bool.and_eq_true,
      decide_eq_true_eq, Option.all_some, decide_eq_true_eq]
    exact ⟨fun ⟨hc, hd, _⟩ => ⟨hc.symm, hd.symm⟩,
      fun ⟨hc, hd⟩ => ⟨hc.symm, hd.symm, List.nil_prefix⟩⟩
  rw [HasPair, List.infix_cons_iff, hfront, HasPair]

theorem fitsComment_cons_iff {c : Char} {rest : List Char} :
    FitsComment (c :: rest) ↔ needsSpace c rest.head? = false ∧ FitsComment rest := by
  cases rest with
  | nil =>
      have hpair : ¬ HasPair [c] := by simp [HasPair, List.infix_cons_iff]
      have hlast : [c].getLast? ≠ some '-' ↔ needsSpace c none = false := by simp [needsSpace]
      exact ⟨fun hfits => ⟨hlast.mp hfits.getLast?_ne, fitsComment_nil⟩,
        fun ⟨hneeds, _⟩ => ⟨hpair, hlast.mpr hneeds⟩⟩
  | cons d more =>
      have hlast : (c :: d :: more).getLast? = (d :: more).getLast? := List.getLast?_cons_cons
      constructor
      · rintro ⟨hnone, hend⟩
        rw [hasPair_cons_cons, not_or, Bool.not_eq_true] at hnone
        exact ⟨hnone.1, hnone.2, hlast ▸ hend⟩
      · rintro ⟨hneeds, hnone, hend⟩
        refine ⟨?_, hlast ▸ hend⟩
        rw [hasPair_cons_cons, not_or, Bool.not_eq_true]
        exact ⟨hneeds, hnone⟩

theorem escapeComment_cons (c : Char) (rest : List Char) :
    escapeComment (c :: rest) = (if needsSpace c rest.head? then [c, ' '] else [c]) ++
      escapeComment rest := by
  cases rest with
  | nil => by_cases hhyphen : c = '-' <;> simp [escapeComment, needsSpace, hhyphen]
  | cons d more => by_cases hhyphen : c = '-' <;> simp [escapeComment, needsSpace, hhyphen]; grind

/-- Escaped texts can stand in comments. -/
theorem fitsComment_escapeComment (text : List Char) : FitsComment (escapeComment text) := by
  induction text with
  | nil => exact fitsComment_nil
  | cons c rest ih =>
      rw [escapeComment_cons]
      split
      next =>
        have hspace : FitsComment (' ' :: escapeComment rest) := fitsComment_cons_iff.mpr ⟨rfl, ih⟩
        have hapart : needsSpace c (some ' ') = false := by simp [needsSpace]
        exact fitsComment_cons_iff.mpr ⟨hapart, hspace⟩
      next hneeds =>
        rw [← head?_escapeComment, Bool.not_eq_true] at hneeds
        exact fitsComment_cons_iff.mpr ⟨hneeds, ih⟩

/-- A text is escaped to itself exactly if it can stand in a comment. -/
theorem escapeComment_eq_self_iff {text : List Char} :
    escapeComment text = text ↔ FitsComment text := by
  constructor
  · intro hself
    rw [← hself]
    exact fitsComment_escapeComment text
  · intro hfits
    induction text with
    | nil => rfl
    | cons c rest ih =>
        obtain ⟨hneeds, hrest⟩ := fitsComment_cons_iff.mp hfits
        rw [escapeComment_cons, hneeds, ih hrest]
        rfl

/-- A pass makes no difference to what escaping finds. -/
theorem escapeComment_spacePairs (text : List Char) :
    escapeComment (spacePairs text) = escapeComment text := by
  have hcons : ∀ c rest, escapeComment (spacePairs rest) = escapeComment rest →
      escapeComment (c :: spacePairs rest) = escapeComment (c :: rest) := by
    intro c rest hsame
    rw [escapeComment_cons, escapeComment_cons, head?_spacePairs, hsame]
  fun_induction spacePairs text with
  | case1 rest ih =>
      calc escapeComment ('-' :: ' ' :: '-' :: spacePairs rest)
          = '-' :: ' ' :: escapeComment ('-' :: spacePairs rest) := rfl
        _ = '-' :: ' ' :: escapeComment ('-' :: rest) := by rw [hcons '-' rest ih]
        _ = escapeComment ('-' :: '-' :: rest) := rfl
  | case2 c rest _ ih => exact hcons c rest ih
  | case3 => rfl

theorem escapeComment_of_passes {text ended : List Char} {count : Nat}
    (hpasses : Passes text count ended) : escapeComment ended = escapeComment text := by
  induction hpasses with
  | done => rfl
  | again _ _ ih => rw [ih, escapeComment_spacePairs]

/-- Where no hyphens are adjacent, only one at the end needs a space. -/
theorem escapeComment_of_not_hasPair {text : List Char} (hnone : ¬ HasPair text) :
    escapeComment text = text ++ if text.getLast? = some '-' then [' '] else [] := by
  induction text with
  | nil => rfl
  | cons c rest ih =>
      cases rest with
      | nil => by_cases hhyphen : c = '-' <;> simp [escapeComment, hhyphen]
      | cons d more =>
          rw [hasPair_cons_cons, not_or, Bool.not_eq_true] at hnone
          rw [escapeComment_cons, List.head?_cons, hnone.1, ih hnone.2, List.getLast?_cons_cons]
          rfl

/-- Every character stays in its place, and is followed by a space exactly if it needs one. -/
theorem escapeComment_eq_flatMap (text : List Char) :
    escapeComment text = text.zipIdx.flatMap fun (c, place) =>
      if needsSpace c text[place + 1]? then [c, ' '] else [c] := by
  have hafter : ∀ front back : List Char, front ++ back = text →
      escapeComment back = (back.zipIdx front.length).flatMap fun (c, place) =>
        if needsSpace c text[place + 1]? then [c, ' '] else [c] := by
    intro front back hsplit
    induction back generalizing front with
    | nil => rfl
    | cons c rest ih =>
        have hnext : text[front.length + 1]? = rest.head? := by
          rw [← hsplit, List.getElem?_append_right (Nat.le_add_right _ _), Nat.add_sub_cancel_left,
            List.getElem?_cons_succ, List.head?_eq_getElem?]
        have hrest := ih (front ++ [c]) (by rw [List.append_assoc, List.singleton_append, hsplit])
        rw [List.length_append, List.length_singleton] at hrest
        rw [escapeComment_cons, List.zipIdx_cons, List.flatMap_cons, hrest, ← hnext]
  exact hafter [] text rfl

theorem FitsComment.of_append {front back : List Char} (hfits : FitsComment (front ++ back)) :
    FitsComment back := by
  induction front with
  | nil => exact hfits
  | cons c rest ih => exact ih (fitsComment_cons_iff.mp hfits).2

theorem exists_append_of_cons_sublist {c : Char} {rest safe : List Char}
    (hsub : (c :: rest).Sublist safe) :
    ∃ front back, safe = front ++ c :: back ∧ rest.Sublist back := by
  obtain ⟨front, back, rfl, hmem, hrest⟩ := List.cons_sublist_iff.mp hsub
  obtain ⟨before, after, rfl⟩ := List.append_of_mem hmem
  exact ⟨before, after ++ back, by simp, hrest.trans (List.sublist_append_right after back)⟩

/-- Nothing shorter that can stand in a comment holds all characters of the text. -/
theorem length_escapeComment_le {text safe : List Char} (hsub : text.Sublist safe)
    (hfits : FitsComment safe) : (escapeComment text).length ≤ safe.length := by
  induction text generalizing safe with
  | nil => exact Nat.zero_le _
  | cons c rest ih =>
      obtain ⟨front, back, rfl, hrest⟩ := exists_append_of_cons_sublist hsub
      obtain ⟨hapart, hback⟩ := fitsComment_cons_iff.mp hfits.of_append
      rw [escapeComment_cons, List.length_append, List.length_append, List.length_cons]
      by_cases hneeds : needsSpace c rest.head? = true
      · -- something else than the next hyphen follows, and the rest of the text stands behind it
        cases back with
        | nil =>
            rw [List.sublist_nil.mp hrest] at hneeds
            exact absurd (hneeds.symm.trans hapart) (by decide)
        | cons d more =>
            have hbehind : rest.Sublist more := by
              cases hrest with
              | cons _ hbehind => exact hbehind
              | cons_cons _ _ => exact absurd (hneeds.symm.trans hapart) (by decide)
            have hshorter := ih hbehind (fitsComment_cons_iff.mp hback).2
            rw [if_pos hneeds]
            simp only [List.length_cons, List.length_nil]
            omega
      · have hshorter := ih hrest hback
        rw [if_neg hneeds]
        simp only [List.length_cons, List.length_nil]
        omega

/-- What the grammar of documents admits between the marks of a comment: hyphens only before other
characters. -/
inductive IsCommentBody : List Char → Prop
  | nil : IsCommentBody []
  | plain {c : Char} {rest : List Char} (hplain : c ≠ '-') (hrest : IsCommentBody rest) :
      IsCommentBody (c :: rest)
  | hyphen {c : Char} {rest : List Char} (hplain : c ≠ '-') (hrest : IsCommentBody rest) :
      IsCommentBody ('-' :: c :: rest)

theorem FitsComment.isCommentBody : ∀ {text : List Char}, FitsComment text → IsCommentBody text
  | [], _ => .nil
  | [c], hfits => .plain (fun hhyphen => hfits.getLast?_ne (congrArg some hhyphen)) .nil
  | c :: d :: rest, hfits => by
    obtain ⟨hneeds, htail⟩ := fitsComment_cons_iff.mp hfits
    by_cases hhyphen : c = '-'
    · have hnext : d ≠ '-' := by simpa [needsSpace, hhyphen] using hneeds
      rw [hhyphen]
      exact .hyphen hnext (isCommentBody (fitsComment_cons_iff.mp htail).2)
    · exact .plain hhyphen htail.isCommentBody

/-- What stands between the marks of a written comment. -/
def commentBody (text : List Char) : List Char :=
  ' ' :: (escapeComment text ++ [' '])

theorem isCommentBody_commentBody (text : List Char) : IsCommentBody (commentBody text) := by
  refine FitsComment.isCommentBody ⟨hyphens_not_infix_spaced text, ?_⟩
  rw [commentBody, ← List.cons_append, List.getLast?_concat]
  decide

/-- After the first pass the loop comes to its one end by at most one pass more, and escaping finds
what it ends with, and a space behind a hyphen at the end. So just the hyphens that need a space get
one; the text can then stand in a comment, which ends at its own mark and conforms to the grammar, and
no shorter text with the same characters could. Escaping changes a text only if it cannot stand in a
comment, and never a second time. -/
theorem escapeComment_least_change (text : List Char) :
    (∃ count ended, count ≤ 1 ∧
      (∀ count' ended', Passes (spacePairs text) count' ended' ↔ count' = count ∧ ended' = ended) ∧
      escapeComment text = ended ++ if ended.getLast? = some '-' then [' '] else []) ∧
    (escapeComment text = text.zipIdx.flatMap fun (c, place) =>
      if c = '-' && text[place + 1]?.all (· = '-') then [c, ' '] else [c]) ∧
    ¬ ['-', '-'] <:+: escapeComment text ∧ (escapeComment text).getLast? ≠ some '-' ∧
    (∀ safe, text.Sublist safe → ¬ ['-', '-'] <:+: safe → safe.getLast? ≠ some '-' →
      (escapeComment text).length ≤ safe.length) ∧
    escapeComment (escapeComment text) = escapeComment text ∧
    (escapeComment text = text ↔ ¬ ['-', '-'] <:+: text ∧ text.getLast? ≠ some '-') ∧
    directiveText (.comment (String.ofList text)) =
      "  <!--" ++ String.ofList (commentBody text) ++ "-->\n" ∧
    IsCommentBody (commentBody text) ∧
    Reader.Reads (Reader.upTo "-->") (String.ofList (commentBody text) ++ "-->")
      (commentBody text) := by
  obtain ⟨hnone, hend⟩ := fitsComment_escapeComment text
  refine ⟨?_, escapeComment_eq_flatMap text, hnone, hend,
    fun safe hsub hnone hend => length_escapeComment_le hsub ⟨hnone, hend⟩,
    escapeComment_eq_self_iff.mpr ⟨hnone, hend⟩, ?_, ?_, isCommentBody_commentBody text, ?_⟩
  · obtain ⟨count, ended, hcount, hpasses, hnone⟩ := exists_passes text
    refine ⟨count, ended, hcount, fun count' ended' => ⟨fun h => h.unique hpasses, ?_⟩, ?_⟩
    · rintro ⟨rfl, rfl⟩
      exact hpasses
    · rw [← escapeComment_of_not_hasPair hnone, escapeComment_of_passes hpasses,
        escapeComment_spacePairs]
  · rw [escapeComment_eq_self_iff]
    exact ⟨fun ⟨hnone, hend⟩ => ⟨hnone, hend⟩, fun ⟨hnone, hend⟩ => ⟨hnone, hend⟩⟩
  · simp [directiveText, textOfLines, directiveLines, commentBody, ← String.toList_inj]
  · have hreads := reads_comment text
    have hbody : " " ++ String.ofList (escapeComment text) ++ " " =
        String.ofList (commentBody text) := by
      simp [commentBody, ← String.toList_inj]
    rwa [hbody] at hreads

/-- Where replaced pairs meet, the second pass is needed. -/
example : escapeComment "a-------b".toList = "a- - - - - - -b".toList := by decide

end RobotDescription.Xacro
