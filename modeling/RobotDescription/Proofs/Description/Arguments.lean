import RobotDescription.Description.Arguments

/-!
# The values of arguments

What a name stands for after arguments have been set: the value that it was given last. Configured
parameters are laid over what was set before them, so a parameter wins over an argument of its name.
-/

namespace RobotDescription

section Lookup

variable {α β : Type}

theorem lookup_cons_eq_ite (name key : String) (value : α) (rest : List (String × α)) :
    ((key, value) :: rest).lookup name = if name = key then some value else rest.lookup name := by
  by_cases hname : name = key
  · simp [hname]
  · have hkey : (name == key) = false := beq_eq_false_iff_ne.mpr hname
    simp [List.lookup_cons, hkey, hname]

theorem lookup_eq_none_of_not_mem {name : String} {pairs : List (String × α)}
    (hmem : name ∉ pairs.map (·.1)) : pairs.lookup name = none := by
  refine List.lookup_eq_none_iff.mpr fun pair hpair => bne_iff_ne.mpr fun hname => hmem ?_
  rw [hname]
  exact List.mem_map_of_mem hpair

/-- Where no name stands twice, the last value of a name is the first. -/
theorem lookup_reverse (name : String) {pairs : List (String × α)}
    (hdistinct : (pairs.map (·.1)).Nodup) : pairs.reverse.lookup name = pairs.lookup name := by
  induction pairs with
  | nil => rfl
  | cons pair rest ih =>
      obtain ⟨key, value⟩ := pair
      obtain ⟨hfresh, hrest⟩ := List.nodup_cons.mp hdistinct
      rw [List.reverse_cons, List.lookup_append, ih hrest, lookup_cons_eq_ite, lookup_cons_eq_ite]
      by_cases hname : name = key
      · subst hname
        simp [lookup_eq_none_of_not_mem hfresh]
      · simp [hname]

theorem mem_iff_lookup_eq_some {name : String} {value : α} {pairs : List (String × α)}
    (hdistinct : (pairs.map (·.1)).Nodup) :
    (name, value) ∈ pairs ↔ pairs.lookup name = some value := by
  induction pairs with
  | nil => simp
  | cons pair rest ih =>
      obtain ⟨key, held⟩ := pair
      obtain ⟨hfresh, hrest⟩ := List.nodup_cons.mp hdistinct
      rw [List.mem_cons, lookup_cons_eq_ite, ih hrest]
      by_cases hname : name = key
      · subst hname
        simp [lookup_eq_none_of_not_mem hfresh, eq_comm]
      · simp [hname]

theorem lookup_map (name : String) (convert : α → β) (pairs : List (String × α)) :
    (pairs.map fun pair => (pair.1, convert pair.2)).lookup name =
      (pairs.lookup name).map convert := by
  induction pairs with
  | nil => rfl
  | cons pair rest ih =>
      obtain ⟨key, value⟩ := pair
      rw [List.map_cons, lookup_cons_eq_ite, lookup_cons_eq_ite, ih]
      split <;> rfl

end Lookup

namespace Parameters

theorem nodup_names (parameters : Parameters) : parameters.names.Nodup := by
  refine List.pairwise_map.mpr (parameters.ascending.imp fun hbefore hsame => ?_)
  rw [hsame] at hbefore
  exact String.lt_irrefl _ hbefore

/-- The value of the parameter of a name. -/
def get? (parameters : Parameters) (name : String) : Option ParameterValue :=
  parameters.entries.lookup name

theorem mem_entries_iff {parameters : Parameters} {name : String} {value : ParameterValue} :
    (name, value) ∈ parameters.entries ↔ parameters.get? name = some value :=
  mem_iff_lookup_eq_some parameters.nodup_names

theorem get?_eq_none {parameters : Parameters} {name : String} (hmem : name ∉ parameters.names) :
    parameters.get? name = none :=
  lookup_eq_none_of_not_mem hmem

end Parameters

namespace Arguments

theorem lookup_assign (name value other : String) (entries : List (String × String)) :
    (assign name value entries).lookup other =
      if other = name then some value else entries.lookup other := by
  induction entries with
  | nil => exact lookup_cons_eq_ite other name value []
  | cons entry rest ih =>
      obtain ⟨key, held⟩ := entry
      by_cases hkey : key = name
      · subst hkey
        simp only [assign, if_true, lookup_cons_eq_ite]
        split <;> rfl
      · simp only [assign, hkey, if_false, lookup_cons_eq_ite, ih]
        by_cases hother : other = key
        · subst hother
          simp [hkey]
        · simp [hother]

theorem get?_set (arguments : Arguments) (name value other : String) :
    (arguments.set name value).get? other =
      if other = name then some value else arguments.get? other :=
  lookup_assign name value other arguments.entries

/-- The last pair of a name decides. -/
theorem get?_setAll (arguments : Arguments) (pairs : List (String × String)) (name : String) :
    (arguments.setAll pairs).get? name = (pairs.reverse.lookup name).or (arguments.get? name) := by
  induction pairs generalizing arguments with
  | nil => rfl
  | cons pair rest ih =>
      obtain ⟨key, value⟩ := pair
      have hrest := ih (arguments.set key value)
      rw [get?_set] at hrest
      rw [List.reverse_cons, List.lookup_append, Option.or_assoc, lookup_cons_eq_ite]
      refine hrest.trans ?_
      split <;> rfl

theorem get?_ofList {pairs : List (String × String)} (hdistinct : (pairs.map (·.1)).Nodup)
    (name : String) : (ofList pairs).get? name = pairs.lookup name := by
  refine (get?_setAll empty pairs name).trans ?_
  rw [lookup_reverse name hdistinct]
  exact Option.or_none

theorem get?_overlay (arguments : Arguments) (parameters : Parameters) (name : String) :
    (arguments.overlay parameters).get? name =
      ((parameters.get? name).map ParameterValue.toText).or (arguments.get? name) := by
  have hnames : (parameters.entries.map fun entry => (entry.1, entry.2.toText)).map (·.1) =
      parameters.names := by
    rw [List.map_map]
    rfl
  rw [overlay, get?_setAll, lookup_reverse name (hnames ▸ parameters.nodup_names), lookup_map]
  rfl

/-- The values of arguments are the texts of the parameters laid over them, and of the values below
those whose names no parameter has. -/
theorem forall_values_overlay_iff {property : String → Prop} {pairs : List (String × String)}
    (hdistinct : (pairs.map (·.1)).Nodup) (parameters : Parameters) :
    (∀ entry ∈ ((ofList pairs).overlay parameters).entries, property entry.2) ↔
      (∀ entry ∈ pairs, entry.1 ∉ parameters.names → property entry.2) ∧
        ∀ entry ∈ parameters.entries, property entry.2.toText := by
  have hvalue : ∀ name value, (name, value) ∈ ((ofList pairs).overlay parameters).entries ↔
      ((parameters.get? name).map ParameterValue.toText).or (pairs.lookup name) = some value := by
    intro name value
    rw [mem_iff_lookup_eq_some ((ofList pairs).overlay parameters).distinct, ← get?_ofList hdistinct,
      ← get?_overlay]
    rfl
  constructor
  · refine fun hall => ⟨fun (name, value) hmem hname => ?_, fun (name, value) hmem => ?_⟩
    · refine hall (name, value) ((hvalue name value).mpr ?_)
      rw [Parameters.get?_eq_none hname]
      exact (mem_iff_lookup_eq_some hdistinct).mp hmem
    · refine hall (name, value.toText) ((hvalue name value.toText).mpr ?_)
      rw [Parameters.mem_entries_iff.mp hmem]
      rfl
  · rintro ⟨hpairs, hparameters⟩ ⟨name, value⟩ hmem
    have hfound := (hvalue name value).mp hmem
    cases hparameter : parameters.get? name with
    | some held =>
        rw [hparameter] at hfound
        cases hfound
        exact hparameters (name, held) (Parameters.mem_entries_iff.mpr hparameter)
    | none =>
        rw [hparameter] at hfound
        refine hpairs (name, value) ((mem_iff_lookup_eq_some hdistinct).mpr hfound) fun hname => ?_
        obtain ⟨⟨_, held⟩, hheld, rfl⟩ := List.mem_map.mp hname
        rw [Parameters.mem_entries_iff.mp hheld] at hparameter
        cases hparameter

end Arguments

end RobotDescription
