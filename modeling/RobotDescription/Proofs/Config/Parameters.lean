import Mathlib.Data.List.Nodup
import RobotDescription.Proofs.Description.Arguments

/-!
# Parameters by name

Parameters are determined by the values that names have, and a name has the value that it was given
last. So where no name is given two values, the order in which they are given does not count.
-/

namespace RobotDescription.Parameters

/-- Parameters in which all names have the same values are the same. -/
theorem eq_of_get?_eq {parameters other : Parameters}
    (hget : ∀ name, parameters.get? name = other.get? name) : parameters = other := by
  have hperm : parameters.entries.Perm other.entries := by
    have hnodup : ∀ held : Parameters, held.entries.Nodup :=
      fun held => List.Nodup.of_map Prod.fst held.nodup_names
    refine (List.perm_ext_iff_of_nodup (hnodup _) (hnodup _)).mpr fun (name, value) => ?_
    rw [mem_entries_iff, mem_entries_iff, hget]
  have hentries : parameters.entries = other.entries := by
    refine hperm.eq_of_pairwise (fun a b _ _ hab hba => ?_) parameters.ascending other.ascending
    exact absurd (String.lt_trans hab hba) (String.lt_irrefl a.1)
  cases parameters
  cases other
  cases hentries
  rfl

theorem lookup_place (name other : String) (value : ParameterValue)
    (entries : List (String × ParameterValue)) :
    (place name value entries).lookup other =
      if other = name then some value else entries.lookup other := by
  induction entries with
  | nil => exact lookup_cons_eq_ite other name value []
  | cons entry rest ih =>
      obtain ⟨key, held⟩ := entry
      unfold place
      split
      next => exact lookup_cons_eq_ite other name value _
      next =>
        split
        next hsame =>
          subst hsame
          rw [lookup_cons_eq_ite, lookup_cons_eq_ite]
          split <;> rfl
        next hother =>
          rw [lookup_cons_eq_ite, lookup_cons_eq_ite, ih]
          by_cases hkey : other = key
          · subst hkey
            rw [if_pos rfl, if_neg (Ne.symm hother), if_pos rfl]
          · rw [if_neg hkey, if_neg hkey]

theorem get?_insert (parameters : Parameters) (name other : String) (value : ParameterValue) :
    (parameters.insert name value).get? other =
      if other = name then some value else parameters.get? other :=
  lookup_place name other value parameters.entries

/-- Of several values that a name is given, the last one counts. -/
theorem get?_ofList (pairs : List (String × ParameterValue)) (name : String) :
    (ofList pairs).get? name = pairs.reverse.lookup name := by
  have hfold : ∀ start : Parameters,
      (pairs.foldl (fun parameters pair => parameters.insert pair.1 pair.2) start).get? name =
        (pairs.reverse.lookup name).or (start.get? name) := by
    induction pairs with
    | nil => exact fun _ => rfl
    | cons pair rest ih =>
        intro start
        rw [List.foldl_cons, ih, get?_insert, List.reverse_cons, List.lookup_append,
          lookup_cons_eq_ite, Option.or_assoc]
        split <;> rfl
  exact (hfold empty).trans Option.or_none

/-- Where no name is given two values, the order of the names does not count. -/
theorem ofList_eq_of_perm {pairs others : List (String × ParameterValue)}
    (hdistinct : (pairs.map (·.1)).Nodup) (hperm : pairs.Perm others) :
    ofList pairs = ofList others := by
  have hdistinct' : (others.map (·.1)).Nodup := (hperm.map (·.1)).nodup_iff.mp hdistinct
  refine eq_of_get?_eq fun name => Option.ext fun value => ?_
  rw [get?_ofList, get?_ofList, lookup_reverse name hdistinct, lookup_reverse name hdistinct',
    ← mem_iff_lookup_eq_some hdistinct, ← mem_iff_lookup_eq_some hdistinct']
  exact hperm.mem_iff

/-- Parameters arise from their own entries. -/
theorem ofList_entries (parameters : Parameters) : ofList parameters.entries = parameters := by
  refine eq_of_get?_eq fun name => ?_
  rw [get?_ofList]
  exact lookup_reverse name parameters.nodup_names

end RobotDescription.Parameters
