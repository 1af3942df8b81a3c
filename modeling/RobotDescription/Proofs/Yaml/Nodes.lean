import RobotDescription.Proofs.Yaml.Following

/-!
# Readings of single nodes

What is read from a node, said without the counter: a text, a list, the entries of a map, the value
of a scalar. Where a reading only looks at what the node stands for, it takes a value exactly if one
can be picked there.
-/

namespace RobotDescription.Yaml

namespace Node

def scalar? : Node → Option Scalar
  | .scalar s => some s
  | _ => none

def text? (node : Node) : Option String :=
  node.scalar?.map (·.text)

/-- The items of a list, which may also be written as nothing. -/
def items? : Node → Option (List Node)
  | .sequence _ items => some items
  | .scalar s => if s.isAbsent then some [] else none
  | _ => none

/-- The entries of a map, which may also be written as nothing. -/
def entries? : Node → Option (List (Node × Node))
  | .mapping _ entries => some entries
  | .scalar s => if s.isAbsent then some [] else none
  | _ => none

end Node

/-- The value of a scalar in the place of one kind. -/
def Scalar.ofKind? {α : Type} (tag : CoreTag) (read? : String → Option α) (s : Scalar) :
    Option α :=
  if s.style = .plain || (s.style = .literal && s.coreTag? = some tag) then read? s.text else none

/-- Nothing or null stands in the place of half a pose. -/
def Scalar.isUnset (s : Scalar) : Bool :=
  s.style = .plain &&
    if s.coreTag? = some .null then Content.isNull s.text
    else s.tag.isNone && (s.text.isEmpty || Content.isNull s.text)

/-- The value of a parameter that a scalar gives. -/
def Scalar.parameter? (s : Scalar) : Option ParameterValue :=
  ((Reading.scalarContent s).bind Reading.ofContent).toOption

namespace Reading

variable {α : Type} {document : Document}

/-- The reading never succeeds. -/
def Fails (document : Document) (reading : Reading α) : Prop :=
  ∀ followed taken, reading document followed ≠ .ok taken

/-- What is read of a target is what can be picked there. -/
def Yields (document : Document) (next : Node → Reading α) (pick : Node → Option α) : Prop :=
  ∀ target, (∃ value, pick target = some value ∧ next target = pure value) ∨
    pick target = none ∧ Fails document (next target)

/-- What is read from a node is what can be picked where it leads. -/
def Picks (document : Document) (reader : Node → Reading α) (pick : Node → Option α) : Prop :=
  ∃ next : Node → Reading α, (∀ node, reader node = resolve node >>= next) ∧
    Yields document next pick

theorem fails_throw (error : ReadError) : Fails document (throw error : Reading α) :=
  nofun

theorem Fails.uniform {reading : Reading α} (hfails : Fails document reading) :
    IsUniform document reading :=
  fun followed value after hrun => absurd hrun (hfails followed (value, after))

theorem Fails.not_takes {reading : Reading α} (hfails : Fails document reading) {value : α}
    {count : Nat} : ¬ Takes document reading value count :=
  fun htakes => hfails 0 _ (htakes.run_eq 0 (by simpa using htakes.count_le))

theorem Yields.uniform {next : Node → Reading α} {pick : Node → Option α}
    (hyields : Yields document next pick) (target : Node) : IsUniform document (next target) := by
  rcases hyields target with ⟨value, _, hvalue⟩ | ⟨_, hfails⟩
  · rw [hvalue]
    exact uniform_pure value
  · exact hfails.uniform

section Picks

variable {reader : Node → Reading α} {pick : Node → Option α}
  (hpicks : Picks document reader pick)
include hpicks

theorem Picks.uniform (node : Node) : IsUniform document (reader node) := by
  obtain ⟨next, hreader, hyields⟩ := hpicks
  rw [hreader]
  exact (uniform_resolve node).bind hyields.uniform

theorem Picks.takes_iff {node : Node} {value : α} {count : Nat} :
    Takes document (reader node) value count ↔ count ≤ document.room ∧
      pick (document.target node) = some value ∧ count = node.hops := by
  obtain ⟨next, hreader, hyields⟩ := hpicks
  rw [hreader, takes_resolve_bind_iff hyields.uniform]
  refine and_congr_right fun hroom => ?_
  rcases hyields (document.target node) with ⟨picked, hpick, hvalue⟩ | ⟨hpick, hfails⟩
  · rw [hpick, hvalue, Option.some.injEq]
    constructor
    · rintro ⟨more, hmore, rfl⟩
      obtain ⟨rfl, rfl⟩ := takes_pure_iff.mp hmore
      exact ⟨rfl, rfl⟩
    · rintro ⟨rfl, rfl⟩
      exact ⟨0, takes_pure _, rfl⟩
  · rw [hpick]
    exact iff_of_false (fun ⟨_, hmore, _⟩ => hfails.not_takes hmore) nofun

/-- Where a reading goes on with what it has picked, only the node adds to its count. -/
theorem Picks.takes_bind_iff {β : Type} {next : α → Reading β}
    (hnext : ∀ value, IsUniform document (next value)) {node : Node} {result : β} {count : Nat} :
    Takes document (reader node >>= next) result count ↔ count ≤ document.room ∧
      ∃ value more, pick (document.target node) = some value ∧
        Takes document (next value) result more ∧ count = node.hops + more := by
  rw [Reading.takes_bind_iff (hpicks.uniform node) hnext]
  refine and_congr_right fun hroom => ?_
  constructor
  · rintro ⟨value, first, second, hfirst, hsecond, rfl⟩
    obtain ⟨_, hpick, rfl⟩ := hpicks.takes_iff.mp hfirst
    exact ⟨value, second, hpick, hsecond, rfl⟩
  · rintro ⟨value, more, hpick, hmore, rfl⟩
    exact ⟨value, node.hops, more, hpicks.takes_iff.mpr ⟨by omega, hpick, rfl⟩, hmore, rfl⟩

end Picks

theorem uniform_skip (node : Node) : IsUniform document (skip node) := by
  unfold skip
  split
  next => exact uniform_pure ()
  next => exact uniform_throw _

theorem takes_skip_iff {node : Node} {count : Nat} :
    Takes document (skip node) () count ↔ node.isComplete = true ∧ count = 0 := by
  unfold skip
  split
  next hcomplete => simp [hcomplete]
  next hcut => simp [hcut]

theorem picks_text : Picks document text Node.text? := by
  refine ⟨_, fun _ => rfl, fun target => ?_⟩
  cases target with
  | scalar s => exact .inl ⟨s.text, rfl, rfl⟩
  | _ => exact .inr ⟨rfl, fails_throw _⟩

theorem picks_items : Picks document items Node.items? := by
  refine ⟨_, fun _ => rfl, fun target => ?_⟩
  cases target with
  | sequence tag all => exact .inl ⟨all, rfl, rfl⟩
  | scalar s =>
      cases habsent : s.isAbsent with
      | true => exact .inl ⟨[], by simp [Node.items?, habsent], by simp [habsent]⟩
      | false => exact .inr ⟨by simp [Node.items?, habsent], by simp [habsent, fails_throw]⟩
  | _ => exact .inr ⟨rfl, fails_throw _⟩

theorem picks_entries : Picks document entries Node.entries? := by
  refine ⟨_, fun _ => rfl, fun target => ?_⟩
  cases target with
  | mapping tag all => exact .inl ⟨all, rfl, rfl⟩
  | scalar s =>
      cases habsent : s.isAbsent with
      | true => exact .inl ⟨[], by simp [Node.entries?, habsent], by simp [habsent]⟩
      | false => exact .inr ⟨by simp [Node.entries?, habsent], by simp [habsent, fails_throw]⟩
  | _ => exact .inr ⟨rfl, fails_throw _⟩

theorem picks_ofKind (tag : CoreTag) (read? : String → Option α) :
    Picks document (ofKind tag read?) fun target => target.scalar?.bind (·.ofKind? tag read?) := by
  refine ⟨_, fun _ => rfl, fun target => ?_⟩
  cases target with
  | scalar s =>
      simp only [Node.scalar?, Scalar.ofKind?, Option.bind_some]
      split
      next =>
        cases hread : read? s.text with
        | some value => exact .inl ⟨value, rfl, rfl⟩
        | none => exact .inr ⟨rfl, fails_throw _⟩
      next => exact .inr ⟨rfl, fails_throw _⟩
  | _ => exact .inr ⟨rfl, fails_throw _⟩

theorem picks_parameterValue (around : Nat) :
    Picks document (parameterValue around) fun target =>
      target.scalar?.bind (·.parameter?) := by
  refine ⟨_, fun _ => rfl, fun target => ?_⟩
  -- whatever is no scalar is walked through before it is refused, which can only fail earlier
  have hnone : ∀ other, Fails document
      (walk (maxDepth - around) other >>= fun _ => (throw .noVariant : Reading ParameterValue)) := by
    intro other followed taken hrun
    obtain ⟨_, _, _, hthrow⟩ := bind_eq_ok_iff.mp hrun
    cases hthrow
  cases target with
  | scalar s =>
      have hlift : (do ofContent (← scalarContent s) : Reading ParameterValue) =
          liftM ((scalarContent s).bind ofContent) := by
        cases scalarContent s <;> rfl
      cases houtcome : (scalarContent s).bind ofContent with
      | error reason =>
          refine .inr ⟨by simp [Node.scalar?, Scalar.parameter?, houtcome, Except.toOption], ?_⟩
          change Fails document (do ofContent (← scalarContent s) : Reading ParameterValue)
          rw [hlift, houtcome]
          exact fails_throw reason
      | ok value =>
          refine .inl ⟨value, by simp [Node.scalar?, Scalar.parameter?, houtcome, Except.toOption],
            ?_⟩
          change (do ofContent (← scalarContent s) : Reading ParameterValue) = _
          rw [hlift, houtcome]
          rfl
  | _ => exact .inr ⟨rfl, hnone _⟩

theorem uniform_coordinate (node : Node) : IsUniform document (coordinate node) :=
  (picks_ofKind .float Content.float?).uniform node

/-- Three coordinates, where nothing is left over. -/
def threeOf (coordinates : List Binary64) (others : List Node) : Reading Vector3 :=
  match coordinates, others with
  | [x, y, z], [] => return ⟨x, y, z⟩
  | _, _ => throw .invalidLength

/-- The vector that the items of a list make up. -/
def vectorOf (all : List Node) : Reading Vector3 := do
  let coordinates ← (all.take 3).mapM coordinate
  (all.drop 3).forM skip
  threeOf coordinates (all.drop 3)

theorem vector_eq (node : Node) : vector node = items node >>= vectorOf := rfl

theorem uniform_threeOf (coordinates : List Binary64) (others : List Node) :
    IsUniform document (threeOf coordinates others) := by
  unfold threeOf
  split
  next => exact uniform_pure _
  next => exact uniform_throw _

theorem uniform_vectorOf (all : List Node) : IsUniform document (vectorOf all) :=
  (uniform_mapM uniform_coordinate _).bind fun _ =>
    (uniform_forM uniform_skip _).bind fun _ => uniform_threeOf _ _

theorem uniform_vector (node : Node) : IsUniform document (vector node) := by
  rw [vector_eq]
  exact (picks_items.uniform node).bind uniform_vectorOf

theorem takes_vectorOf_iff {all : List Node} {v : Vector3} {count : Nat} :
    Takes document (vectorOf all) v count ↔ count ≤ document.room ∧
      ∃ x y z first second third, all = [x, y, z] ∧
        Takes document (coordinate x) v.x first ∧ Takes document (coordinate y) v.y second ∧
        Takes document (coordinate z) v.z third ∧ count = first + (second + third) := by
  have hend : ∀ coordinates, IsUniform document ((all.drop 3).forM skip >>= fun _ =>
      threeOf coordinates (all.drop 3)) :=
    fun _ => (uniform_forM uniform_skip _).bind fun _ => uniform_threeOf _ _
  unfold vectorOf
  rw [takes_bind_iff (uniform_mapM uniform_coordinate _) hend]
  refine and_congr_right fun hroom => ?_
  constructor
  · rintro ⟨coordinates, first, second, hfirst, hsecond, rfl⟩
    rw [takes_bind_iff (uniform_forM uniform_skip _) fun _ => uniform_threeOf _ _] at hsecond
    obtain ⟨_, _, third, fourth, hskipped, hthree, rfl⟩ := hsecond
    unfold threeOf at hthree
    split at hthree
    next x y z hnothing =>
      obtain ⟨rfl, rfl⟩ := takes_pure_iff.mp hthree
      rw [hnothing] at hskipped
      obtain ⟨_, rfl⟩ := takes_pure_iff.mp hskipped
      obtain ⟨_, taken, htaken, hvalues, rfl⟩ := (takes_mapM_iff uniform_coordinate).mp hfirst
      -- nothing is left over, so the three are all that the list has
      rw [List.take_of_length_le (List.drop_eq_nil_iff.mp hnothing)] at htaken
      rcases taken with _ | ⟨⟨x, a⟩, _ | ⟨⟨y, b⟩, _ | ⟨⟨z, c⟩, _ | _⟩⟩⟩ <;> cases hvalues
      obtain _ | ⟨hx, _ | ⟨hy, _ | ⟨hz, _ | _⟩⟩⟩ := htaken
      exact ⟨_, _, _, a, b, c, rfl, hx, hy, hz, rfl⟩
    next => exact absurd hthree not_takes_throw
  · rintro ⟨x, y, z, first, second, third, rfl, hx, hy, hz, rfl⟩
    refine ⟨[v.x, v.y, v.z], first + (second + third), 0, takes_mapM_iff uniform_coordinate |>.mpr
      ⟨hroom, [(v.x, first), (v.y, second), (v.z, third)], .cons hx (.cons hy (.cons hz .nil)), rfl,
        rfl⟩, ?_, rfl⟩
    exact takes_pure v

theorem takes_vector_iff {node : Node} {v : Vector3} {count : Nat} :
    Takes document (vector node) v count ↔ count ≤ document.room ∧
      ∃ all more, (document.target node).items? = some all ∧
        Takes document (vectorOf all) v more ∧ count = node.hops + more :=
  picks_items.takes_bind_iff uniform_vectorOf

/-- Half a pose, where the node that it is read from leads. -/
def poseHalfAt (target : Node) : Reading (Option Vector3) := do
  match target with
  | .scalar s =>
    if s.style = .plain && s.coreTag? = some .null then
      if Content.isNull s.text then return none else throw .malformed
    else if s.style = .plain && s.tag.isNone && (s.text.isEmpty || Content.isNull s.text) then
      return none
    else return some (← vector target)
  | _ => return some (← vector target)

theorem uniform_poseHalfAt (target : Node) : IsUniform document (poseHalfAt target) := by
  have hvector : IsUniform document (do return some (← vector target)) :=
    (uniform_vector target).bind fun _ => uniform_pure _
  unfold poseHalfAt
  split
  next =>
    split
    next =>
      split
      next => exact uniform_pure none
      next => exact uniform_throw _
    next =>
      split
      next => exact uniform_pure none
      next => exact hvector
  next => exact hvector

theorem uniform_poseHalf (node : Node) : IsUniform document (poseHalf node) :=
  (uniform_resolve node).bind uniform_poseHalfAt

theorem takes_poseHalf_iff {node : Node} {half : Option Vector3} {count : Nat} :
    Takes document (poseHalf node) half count ↔ count ≤ document.room ∧
      ∃ more, Takes document (poseHalfAt (document.target node)) half more ∧
        count = node.hops + more :=
  takes_resolve_bind_iff uniform_poseHalfAt

/-- A list gives half a pose if it is a vector. -/
theorem takes_poseHalfAt_sequence_iff {tag : Option String} {all : List Node}
    {half : Option Vector3} {count : Nat} :
    Takes document (poseHalfAt (.sequence tag all)) half count ↔
      ∃ v, half = some v ∧ Takes document (vectorOf all) v count := by
  change Takes document (do return some (← vector (.sequence tag all))) half count ↔ _
  rw [takes_bind_pure_iff (uniform_vector _)]
  constructor
  · rintro ⟨v, hv, rfl⟩
    obtain ⟨_, all', more, hall, hmore, rfl⟩ := takes_vector_iff.mp hv
    cases hall
    exact ⟨v, rfl, by simpa [Node.hops] using hmore⟩
  · rintro ⟨v, rfl, hv⟩
    refine ⟨v, takes_vector_iff.mpr ⟨hv.count_le, all, count, rfl, hv, ?_⟩, rfl⟩
    exact (Nat.zero_add count).symm

/-- A scalar gives half a pose only by leaving it unset. -/
theorem takes_poseHalfAt_scalar_iff {s : Scalar} {half : Option Vector3} {count : Nat} :
    Takes document (poseHalfAt (.scalar s)) half count ↔
      s.isUnset = true ∧ half = none ∧ count = 0 := by
  have hvector : ¬ Takes document (do return some (← vector (.scalar s))) half count := by
    rw [takes_bind_pure_iff (uniform_vector _)]
    rintro ⟨v, hv, _⟩
    obtain ⟨_, all, more, hall, hmore, _⟩ := takes_vector_iff.mp hv
    obtain ⟨_, x, y, z, _, _, _, rfl, _⟩ := takes_vectorOf_iff.mp hmore
    simp [Document.target, Node.items?] at hall
  unfold poseHalfAt Scalar.isUnset
  dsimp only
  by_cases hplain : s.style = .plain
  · by_cases htag : s.coreTag? = some .null
    · rw [if_pos (by simp [hplain, htag]), if_pos htag]
      by_cases hnull : Content.isNull s.text = true <;> simp [hplain, hnull]
    · rw [if_neg (by simp [htag]), if_neg htag]
      by_cases hunset : (s.tag.isNone && (s.text.isEmpty || Content.isNull s.text)) = true
      · rw [if_pos (by simpa [hplain] using hunset), takes_pure_iff, hunset]
        simp [hplain]
      · rw [if_neg (by simpa [hplain] using hunset)]
        exact iff_of_false hvector (by simp [hunset])
  · rw [if_neg (by simp [hplain]), if_neg (by simp [hplain])]
    exact iff_of_false hvector (by simp [hplain])

/-- The name and the value of a parameter. -/
def parameterEntry (around : Nat) (entry : Node × Node) : Reading (String × ParameterValue) := do
  return (← text entry.1, ← parameterValue around entry.2)

theorem uniform_parameterEntry (around : Nat) (entry : Node × Node) :
    IsUniform document (parameterEntry around entry) :=
  (picks_text.uniform entry.1).bind fun _ =>
    ((picks_parameterValue around).uniform entry.2).bind fun _ => uniform_pure _

theorem takes_parameterEntry_iff {around : Nat} {entry : Node × Node}
    {taken : String × ParameterValue} {count : Nat} :
    Takes document (parameterEntry around entry) taken count ↔ count ≤ document.room ∧
      (document.target entry.1).text? = some taken.1 ∧
      (document.target entry.2).scalar?.bind (·.parameter?) = some taken.2 ∧
      count = entry.1.hops + entry.2.hops := by
  unfold parameterEntry
  have hvalue : ∀ name : String, IsUniform document
      (parameterValue around entry.2 >>= fun value => pure (name, value)) :=
    fun _ => ((picks_parameterValue around).uniform entry.2).bind fun _ => uniform_pure _
  rw [picks_text.takes_bind_iff hvalue]
  refine and_congr_right fun hroom => ?_
  constructor
  · rintro ⟨name, more, hname, hrest, rfl⟩
    obtain ⟨value, hread, rfl⟩ :=
      (takes_bind_pure_iff ((picks_parameterValue around).uniform entry.2)).mp hrest
    obtain ⟨_, hvalue, rfl⟩ := (picks_parameterValue around).takes_iff.mp hread
    exact ⟨hname, hvalue, rfl⟩
  · rintro ⟨hname, hvalue, rfl⟩
    have hread := (picks_parameterValue around).takes_iff.mpr
      ⟨Nat.le_trans (Nat.le_add_left _ _) hroom, hvalue, rfl⟩
    refine ⟨taken.1, entry.2.hops, hname, ?_, rfl⟩
    exact (takes_bind_pure_iff ((picks_parameterValue around).uniform entry.2)).mpr
      ⟨taken.2, hread, rfl⟩

theorem parameters_eq (around : Nat) (node : Node) :
    parameters around node = (do
      return Parameters.ofList (← (← entries node).mapM (parameterEntry (around + 1)))) := by
  unfold parameters Parameters.ofList
  refine bind_congr fun all => ?_
  generalize Parameters.empty = start
  induction all generalizing start with
  | nil => rfl
  | cons entry rest ih =>
      rw [List.foldlM_cons, List.mapM_cons]
      simp only [parameterEntry, bind_assoc, pure_bind, ih]
      rfl

theorem uniform_parameters (around : Nat) (node : Node) :
    IsUniform document (parameters around node) := by
  rw [parameters_eq]
  exact (picks_entries.uniform node).bind fun all =>
    (uniform_mapM (uniform_parameterEntry _) all).bind fun _ => uniform_pure _

/-- Parameters are those of the entries of a map, set one after the other. -/
theorem takes_parameters_iff {around : Nat} {node : Node} {result : Parameters} {count : Nat} :
    Takes document (parameters around node) result count ↔ count ≤ document.room ∧
      ∃ all taken, (document.target node).entries? = some all ∧
        TakesAll document (parameterEntry (around + 1)) all taken ∧
        result = .ofList (taken.map (·.1)) ∧ count = node.hops + total taken := by
  have hentry : ∀ entry, IsUniform document (parameterEntry (around + 1) entry) :=
    uniform_parameterEntry (around + 1)
  have hall : ∀ all : List (Node × Node), IsUniform document
      (all.mapM (parameterEntry (around + 1)) >>= fun pairs => pure (Parameters.ofList pairs)) :=
    fun all => (uniform_mapM hentry all).bind fun _ => uniform_pure _
  rw [parameters_eq, picks_entries.takes_bind_iff hall]
  refine and_congr_right fun hroom => ?_
  constructor
  · rintro ⟨all, more, hentries, hrest, rfl⟩
    obtain ⟨pairs, hpairs, rfl⟩ := (takes_bind_pure_iff (uniform_mapM hentry all)).mp hrest
    obtain ⟨_, taken, htaken, rfl, rfl⟩ := (takes_mapM_iff hentry).mp hpairs
    exact ⟨all, taken, hentries, htaken, rfl, rfl⟩
  · rintro ⟨all, taken, hentries, htaken, rfl, rfl⟩
    have hfits : total taken ≤ document.room := by omega
    have hpairs := (takes_mapM_iff hentry).mpr ⟨hfits, taken, htaken, rfl, rfl⟩
    refine ⟨all, total taken, hentries, ?_, rfl⟩
    exact (takes_bind_pure_iff (uniform_mapM hentry all)).mpr ⟨_, hpairs, rfl⟩

end Reading

end RobotDescription.Yaml
