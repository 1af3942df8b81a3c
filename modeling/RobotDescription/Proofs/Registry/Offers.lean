import RobotDescription.Registry.Listing

/-!
# Reading the list of what is supported

A reader of the list sees its indented lines: a platform with the decorations after it, or the model
of a mount. What it reads is what the registries hold, since no name in them has a blank or a comma
in it.
-/

namespace RobotDescription.Listing

/-- What one line of the list offers. -/
inductive Offer where
  | platform (id : String) (kinds : List String)
  | mount (id : String)
deriving DecidableEq

def isSeparator (c : Char) : Bool :=
  c = ' ' || c = ','

def words (line : List Char) : List String :=
  ((line.splitOnP isSeparator).filter (· ≠ [])).map String.ofList

/-- Lines that are not indented are headings. A dash stands for no decorations. -/
def offer? (line : List Char) : Option Offer :=
  if line.take 2 = [' ', ' '] then
    match words line with
    | [id] => some (.mount id)
    | id :: _ :: "decorations:" :: kinds => some (.platform id (kinds.filter (· ≠ "-")))
    | _ => none
  else none

/-- What the lines of a text offer. -/
def offersIn (chars : List Char) : List Offer :=
  (chars.splitOn '\n').filterMap offer?

/-- What a reader of the list is offered. -/
def offers (list : String) : List Offer :=
  offersIn list.toList

/-- A text that stands as one word in a line. -/
def IsWord (name : String) : Prop :=
  name ≠ "" ∧ ∀ c ∈ name.toList, isSeparator c = false

instance (name : String) : Decidable (IsWord name) :=
  decidable_of_iff (name ≠ "" ∧ name.toList.any isSeparator = false) (by simp [IsWord])

section Words

variable {name : String} {c : Char}

theorem words_append_separator (hc : isSeparator c = true) (front back : List Char) :
    words (front ++ c :: back) = words front ++ words back := by
  simp [words, List.splitOnP_append_cons front back hc]

theorem words_cons_separator (hc : isSeparator c = true) (back : List Char) :
    words (c :: back) = words back :=
  words_append_separator hc [] back

theorem words_of_isWord (hname : IsWord name) : words name.toList = [name] := by
  rw [words, List.splitOnP_eq_singleton hname.2]
  simp [hname.1]

theorem words_isWord_append (hname : IsWord name) (hc : isSeparator c = true)
    (back : List Char) : words (name.toList ++ c :: back) = name :: words back := by
  rw [words_append_separator hc, words_of_isWord hname]
  rfl

/-- Blanks up to a width leave a word as it is. -/
theorem words_padded_append (hname : IsWord name) (width : Nat) (back : List Char) :
    words ((padded name width).toList ++ ' ' :: back) = name :: words back := by
  have hblanks : ∀ count, words (List.replicate count ' ' ++ ' ' :: back) = words back := by
    intro count
    induction count with
    | zero => exact words_cons_separator rfl back
    | succ count ih =>
        rw [List.replicate_succ, List.cons_append, words_cons_separator rfl, ih]
  have hpadded : (padded name width).toList =
      name.toList ++ List.replicate (width - name.length) ' ' := by
    simp [padded]
  rw [hpadded]
  cases hcount : width - name.length with
  | zero =>
      rw [List.replicate_zero, List.append_nil]
      exact words_isWord_append hname rfl back
  | succ count =>
      rw [List.replicate_succ, List.append_assoc, List.cons_append, words_isWord_append hname rfl,
        hblanks]

theorem words_intercalate {names : List String} (hnames : ∀ name ∈ names, IsWord name) :
    words (", ".intercalate names).toList = names := by
  induction names with
  | nil => rw [String.intercalate_nil]; rfl
  | cons name rest ih =>
      have hname := hnames name List.mem_cons_self
      have hrest := ih fun other hother => hnames other (List.mem_cons_of_mem _ hother)
      cases rest with
      | nil =>
          rw [String.intercalate_singleton]
          exact words_of_isWord hname
      | cons next more =>
          have hchars : (", ".intercalate (name :: next :: more)).toList =
              name.toList ++ ',' :: ' ' :: (", ".intercalate (next :: more)).toList := by
            rw [String.intercalate_cons_cons, String.toList_append, String.toList_append,
              List.append_assoc]
            rfl
          rw [hchars, words_isWord_append hname rfl, words_cons_separator rfl, hrest]

end Words

section Names

variable (platform : PlatformModel)

theorem isWord_platform : IsWord platform.id ∧ IsWord platform.displayName := by
  cases platform <;> decide

theorem isWord_kind (kind : DecorationKind) : IsWord kind.id ∧ kind.id ≠ "-" := by
  cases kind <;> decide

theorem isWord_mount (model : MountModel) : IsWord model.id := by
  cases model <;> decide

/-- The words after the heading of the decorations, the dash left out. -/
theorem words_decorations :
    (words (decorations platform).toList).filter (· ≠ "-") =
      (DecorationKind.supportedOn platform).map DecorationKind.id := by
  unfold decorations
  split
  next hnone =>
    rw [hnone]
    decide
  next =>
    have hwords : ∀ name ∈ (DecorationKind.supportedOn platform).map DecorationKind.id,
        IsWord name := by
      intro name hmem
      obtain ⟨kind, _, rfl⟩ := List.mem_map.mp hmem
      exact (isWord_kind kind).1
    rw [words_intercalate hwords, List.filter_eq_self]
    intro name hmem
    obtain ⟨kind, _, rfl⟩ := List.mem_map.mp hmem
    exact decide_eq_true (isWord_kind kind).2

end Names

theorem offersIn_line {line : List Char} (hline : '\n' ∉ line) (rest : List Char) :
    offersIn (line ++ '\n' :: rest) = (offer? line).toList ++ offersIn rest := by
  rw [offersIn, List.splitOn_append_cons_self_of_not_mem hline, List.filterMap_cons]
  cases offer? line <;> rfl

theorem offersIn_platformLine (platform : PlatformModel) (rest : List Char) :
    offersIn ((platformLine platform).toList ++ rest) =
      .platform platform.id ((DecorationKind.supportedOn platform).map DecorationKind.id) ::
        offersIn rest := by
  obtain ⟨hid, hname⟩ := isWord_platform platform
  let line : List Char := ' ' :: ' ' :: ((padded platform.id 8).toList ++ ' ' ::
    ((padded platform.displayName 12).toList ++ ' ' ::
      ("decorations:".toList ++ ' ' :: (decorations platform).toList)))
  have hchars : (platformLine platform).toList ++ rest = line ++ '\n' :: rest := by
    simp [platformLine, line]
  have hnewline : '\n' ∉ line := by
    cases platform <;> decide
  have hwords : words line = platform.id :: platform.displayName :: "decorations:" ::
      words (decorations platform).toList := by
    have hheading : IsWord "decorations:" := by decide
    rw [words_cons_separator rfl, words_cons_separator rfl, words_padded_append hid,
      words_padded_append hname, words_isWord_append hheading rfl]
  have hindented : line.take 2 = [' ', ' '] := rfl
  have hoffer : offer? line = some (.platform platform.id
      ((DecorationKind.supportedOn platform).map DecorationKind.id)) := by
    rw [← words_decorations, offer?, if_pos hindented, hwords]
    rfl
  rw [hchars, offersIn_line hnewline, hoffer]
  rfl

theorem offersIn_mountLine (model : MountModel) (rest : List Char) :
    offersIn ((mountLine model).toList ++ rest) = .mount model.id :: offersIn rest := by
  let line : List Char := ' ' :: ' ' :: model.id.toList
  have hchars : (mountLine model).toList ++ rest = line ++ '\n' :: rest := by
    simp [mountLine, line]
  have hnewline : '\n' ∉ line := by
    cases model <;> decide
  have hwords : words line = [model.id] := by
    rw [words_cons_separator rfl, words_cons_separator rfl, words_of_isWord (isWord_mount model)]
  have hindented : line.take 2 = [' ', ' '] := rfl
  have hoffer : offer? line = some (.mount model.id) := by
    rw [offer?, if_pos hindented, hwords]
  rw [hchars, offersIn_line hnewline, hoffer]
  rfl

/-- Reading line after line gives what the lines were made of. -/
theorem offersIn_flatMap {α : Type} {line : α → String} {offer : α → Offer}
    (hline : ∀ item rest, offersIn ((line item).toList ++ rest) = offer item :: offersIn rest)
    (items : List α) (rest : List Char) :
    offersIn ((items.map line).flatMap String.toList ++ rest) =
      items.map offer ++ offersIn rest := by
  induction items with
  | nil => rfl
  | cons item more ih =>
      rw [List.map_cons, List.flatMap_cons, List.append_assoc, hline, ih]
      rfl

/-- What is read is every platform with what is supported on it, and every mount. -/
theorem offers_text : offers text =
    (PlatformModel.all.map fun platform =>
      .platform platform.id ((DecorationKind.supportedOn platform).map DecorationKind.id)) ++
    MountModel.all.map fun model => .mount model.id := by
  have hchars : text.toList = "Platforms:".toList ++ '\n' ::
      ((PlatformModel.all.map platformLine).flatMap String.toList ++ ([] ++ '\n' ::
        ("Mounts:".toList ++ '\n' ::
          ((MountModel.all.map mountLine).flatMap String.toList ++ [])))) := by
    simp [text]
  rw [offers, hchars, offersIn_line (by decide), offersIn_flatMap offersIn_platformLine,
    offersIn_line (by decide), offersIn_line (by decide), offersIn_flatMap offersIn_mountLine]
  rfl

theorem platform_mem_offers {id : String} {kinds : List String} :
    .platform id kinds ∈ offers text ↔ ∃ platform ∈ PlatformModel.all, platform.id = id ∧
      (DecorationKind.supportedOn platform).map DecorationKind.id = kinds := by
  simp [offers_text]

theorem mount_mem_offers {id : String} :
    .mount id ∈ offers text ↔ ∃ model ∈ MountModel.all, model.id = id := by
  simp [offers_text]

end RobotDescription.Listing
