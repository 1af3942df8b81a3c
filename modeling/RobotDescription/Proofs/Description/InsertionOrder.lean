import Mathlib.Data.Finset.Card
import RobotDescription.Proofs.Description.Arguments
import RobotDescription.Proofs.Text.ByteOrder

/-!
# Arguments in the order of their insertion

Whatever is done to arguments, all that counts is the list of the pairs given so far. The names are
its names in the order in which each came first, a value is the last one that its name was given, and
nothing that is done later takes a name away or moves it.
-/

namespace RobotDescription

/-- Where no item stands twice, taking out later occurrences takes out nothing. -/
theorem eraseDups_of_nodup {items : List String} (hdistinct : items.Nodup) :
    items.eraseDups = items := by
  induction items with
  | nil => exact List.eraseDups_nil
  | cons item rest ih =>
      obtain ⟨hfresh, hrest⟩ := List.nodup_cons.mp hdistinct
      have hkept : rest.filter (fun other => !other == item) = rest := by
        refine List.filter_eq_self.mpr fun other hmem => ?_
        have hother : other ≠ item := fun hsame => hfresh (hsame ▸ hmem)
        simpa using hother
      rw [List.eraseDups_cons, hkept, ih hrest]

namespace Arguments

theorem names_set (arguments : Arguments) (name value : String) :
    (arguments.set name value).names =
      if name ∈ arguments.names then arguments.names else arguments.names ++ [name] :=
  names_assign name value arguments.entries

/-- Names that are given for the first time are added at the end, in the order in which they are
given. -/
theorem names_setAll (arguments : Arguments) (pairs : List (String × String)) :
    (arguments.setAll pairs).names = arguments.names ++
      ((pairs.map (·.1)).filter (· ∉ arguments.names)).eraseDups := by
  induction pairs generalizing arguments with
  | nil => simp [setAll]
  | cons pair rest ih =>
      have hrest := ih (arguments.set pair.1 pair.2)
      rw [names_set] at hrest
      refine hrest.trans ?_
      by_cases hknown : pair.1 ∈ arguments.names
      · simp [hknown]
      · have hfilter : (rest.map (·.1)).filter (· ∉ arguments.names ++ [pair.1]) =
            ((rest.map (·.1)).filter (· ∉ arguments.names)).filter fun other =>
              !other == pair.1 := by
          rw [List.filter_filter]
          refine List.filter_congr fun other _ => ?_
          by_cases hsame : other = pair.1 <;> simp [hsame]
        rw [if_neg hknown, hfilter, List.map_cons, List.filter_cons_of_pos (by simpa using hknown),
          List.eraseDups_cons, List.append_assoc]
        rfl

theorem names_ofList (pairs : List (String × String)) :
    (ofList pairs).names = (pairs.map (·.1)).eraseDups := by
  rw [ofList, names_setAll]
  simp [empty, names]

/-- One thing that is done to arguments. -/
inductive Change where
  | set (name value : String)
  | overlay (parameters : Parameters)

namespace Change

/-- The names that are given values, with these values, in the order in which they are given. -/
def pairs : Change → List (String × String)
  | .set name value => [(name, value)]
  | .overlay parameters => parameters.entries.map fun entry => (entry.1, entry.2.toText)

def names (change : Change) : List String :=
  change.pairs.map (·.1)

def apply (arguments : Arguments) : Change → Arguments
  | .set name value => arguments.set name value
  | .overlay parameters => arguments.overlay parameters

theorem apply_eq_setAll (arguments : Arguments) (change : Change) :
    change.apply arguments = arguments.setAll change.pairs := by
  cases change <;> rfl

theorem names_overlay (parameters : Parameters) : (overlay parameters).names = parameters.names :=
  List.map_map

/-- A change gives values in the order of the names' bytes. -/
theorem ascending_names (change : Change) :
    change.names.Pairwise fun a b => Text.bytes a < Text.bytes b := by
  cases change with
  | set name value => exact List.pairwise_singleton _ name
  | overlay parameters =>
      rw [names_overlay]
      refine List.pairwise_map.mpr (parameters.ascending.imp fun hless => ?_)
      exact (Text.lt_iff_bytes_lt _ _).mp hless

theorem nodup_names (change : Change) : change.names.Nodup := by
  refine change.ascending_names.imp fun hless hsame => ?_
  rw [hsame] at hless
  exact List.lt_irrefl _ hless

theorem names_apply (arguments : Arguments) (change : Change) :
    (change.apply arguments).names =
      arguments.names ++ change.names.filter (· ∉ arguments.names) := by
  rw [apply_eq_setAll, names_setAll]
  exact congrArg _ (eraseDups_of_nodup (change.nodup_names.filter _))

theorem get?_apply_of_not_mem (arguments : Arguments) {change : Change} {name : String}
    (hname : name ∉ change.names) : (change.apply arguments).get? name = arguments.get? name := by
  rw [apply_eq_setAll, get?_setAll, lookup_eq_none_of_not_mem, Option.none_or]
  rwa [List.map_reverse, List.mem_reverse]

end Change

/-- The arguments collected from pairs, after a history of changes. -/
def after (start : List (String × String)) (history : List Change) : Arguments :=
  history.foldl Change.apply (ofList start)

/-- All pairs that were given, the latest at the end. -/
def given (start : List (String × String)) (history : List Change) : List (String × String) :=
  start ++ history.flatMap Change.pairs

theorem setAll_append (arguments : Arguments) (front back : List (String × String)) :
    arguments.setAll (front ++ back) = (arguments.setAll front).setAll back :=
  List.foldl_append

theorem foldl_apply_eq_setAll (arguments : Arguments) (history : List Change) :
    history.foldl Change.apply arguments = arguments.setAll (history.flatMap Change.pairs) := by
  induction history generalizing arguments with
  | nil => rfl
  | cons change rest ih =>
      rw [List.foldl_cons, ih, Change.apply_eq_setAll, List.flatMap_cons, setAll_append]

/-- Of a history only the pairs that it gave count. -/
theorem after_eq_ofList (start : List (String × String)) (history : List Change) :
    after start history = ofList (given start history) := by
  rw [after, foldl_apply_eq_setAll, ofList, given, ofList, setAll_append]

theorem size_ofList (pairs : List (String × String)) :
    (ofList pairs).size = (pairs.map (·.1)).toFinset.card := by
  have hsame : (ofList pairs).names.toFinset = (pairs.map (·.1)).toFinset := by
    ext name
    rw [names_ofList, List.mem_toFinset, List.mem_toFinset, List.mem_eraseDups]
  have hcard := List.toFinset_card_of_nodup (ofList pairs).distinct
  rw [List.length_map] at hcard
  exact hcard.symm.trans (congrArg Finset.card hsame)

/-- After any history no name stands twice, the names stand in the order in which they came first,
every name has the value that it was given last, and the size is the number of different names. A
further change keeps the names in their places and adds at the end those that are new, in ascending
order of their bytes; the values of names that it does not mention stay as they are. -/
theorem after_insertion_ordered (start : List (String × String)) (history : List Change) :
    (after start history).names.Nodup ∧
      (after start history).names = ((given start history).map (·.1)).eraseDups ∧
      (∀ name, (after start history).get? name = (given start history).reverse.lookup name) ∧
      (after start history).size = ((given start history).map (·.1)).toFinset.card ∧
      ∀ change : Change,
        (after start (history ++ [change])).names = (after start history).names ++
            change.names.filter (· ∉ (after start history).names) ∧
          (change.names.Pairwise fun a b => Text.bytes a < Text.bytes b) ∧
          ∀ name, name ∉ change.names →
            (after start (history ++ [change])).get? name = (after start history).get? name := by
  have hstep : ∀ change : Change,
      after start (history ++ [change]) = change.apply (after start history) :=
    fun change => List.foldl_concat ..
  refine ⟨(after start history).distinct, ?_, fun name => ?_, ?_, fun change =>
    ⟨?_, change.ascending_names, fun name hname => ?_⟩⟩
  · rw [after_eq_ofList, names_ofList]
  · rw [after_eq_ofList, ofList, get?_setAll]
    exact Option.or_none
  · rw [after_eq_ofList, size_ofList]
  · rw [hstep, Change.names_apply]
  · rw [hstep, Change.get?_apply_of_not_mem _ hname]

/-- Pairs that name a bumper twice. -/
def namedTwice : List (String × String) :=
  [("name", "front_bumper"), ("extension", "0.0"), ("name", "bumper")]

/-- An overlay that replaces the extension and adds a model, and then one more argument. -/
def extended : List Change :=
  [.overlay (.ofList [("model", .text "wibotic"), ("extension", .int 1)]), .set "angle" "0.5"]

theorem after_insertion_ordered_bumper :
    "extension" ∉ (Change.set "name" "plow").names ∧
      (after namedTwice extended).names = ["name", "extension", "model", "angle"] ∧
      (after namedTwice extended).get? "name" = some "bumper" ∧
      (after namedTwice (extended ++ [.set "name" "plow"])).get? "extension" =
        (after namedTwice extended).get? "extension" := by
  obtain ⟨_, hnames, hvalue, _, hchange⟩ := after_insertion_ordered namedTwice extended
  have hother : "extension" ∉ (Change.set "name" "plow").names := by decide
  exact ⟨hother, hnames.trans (by decide), (hvalue "name").trans (by decide),
    (hchange _).2.2 "extension" hother⟩

end Arguments

end RobotDescription
