import Mathlib.Data.List.Forall2
import RobotDescription.Config.Yaml

/-!
# Aliases that a reading follows

A reading counts the aliases that it follows and gives up beyond a limit. What is read, and how many
aliases are followed for it, does not depend on how many were followed before. So a reading that
succeeds falls into readings with values and counts of their own, and these can be put together
again in another order.
-/

namespace RobotDescription.Yaml

/-- How many aliases may be followed while the document is read. -/
def Document.room (document : Document) : Nat :=
  Reading.maxFollowed * document.size

/-- The node that a node stands for. -/
def Document.target (document : Document) : Node → Node
  | .alias anchor => document.node anchor
  | other => other

/-- How many aliases are followed to what a node stands for. -/
def Node.hops : Node → Nat
  | .alias _ => 1
  | _ => 0

namespace Reading

variable {α β γ : Type} {document : Document}

/-- The reading gives the value after following so many aliases, wherever there is room for them.
-/
structure Takes (document : Document) (reading : Reading α) (value : α) (count : Nat) : Prop where
  count_le : count ≤ document.room
  run_eq : ∀ followed, followed + count ≤ document.room →
    reading document followed = .ok (value, followed + count)

/-- A reading that succeeds does so in the same way however many aliases were followed before. -/
def IsUniform (document : Document) (reading : Reading α) : Prop :=
  ∀ followed value after, reading document followed = .ok (value, after) →
    ∃ count, after = followed + count ∧ (count = 0 ∨ after ≤ document.room) ∧
      Takes document reading value count

theorem bind_eq_ok_iff {reading : Reading α} {next : α → Reading β} {followed after : Nat}
    {result : β} : (reading >>= next) document followed = .ok (result, after) ↔
      ∃ value middle, reading document followed = .ok (value, middle) ∧
        next value document middle = .ok (result, after) := by
  change (reading document followed >>= fun taken => next taken.1 document taken.2) = _ ↔ _
  cases reading document followed with
  | error reason => exact ⟨nofun, nofun⟩
  | ok taken => exact ⟨fun hnext => ⟨_, _, rfl, hnext⟩, fun ⟨_, _, htaken, hnext⟩ => by
      cases htaken
      exact hnext⟩

theorem takes_pure (value : α) : Takes document (pure value) value 0 :=
  ⟨Nat.zero_le _, fun _ _ => rfl⟩

theorem Takes.bind {reading : Reading α} {next : α → Reading β} {value : α} {result : β}
    {count more : Nat} (hreading : Takes document reading value count)
    (hnext : Takes document (next value) result more) (hroom : count + more ≤ document.room) :
    Takes document (reading >>= next) result (count + more) := by
  refine ⟨hroom, fun followed hfits => bind_eq_ok_iff.mpr ⟨value, followed + count, ?_, ?_⟩⟩
  · exact hreading.run_eq followed (by omega)
  · rw [← Nat.add_assoc]
    exact hnext.run_eq (followed + count) (by omega)

/-- What a reading takes is determined. -/
theorem Takes.unique {reading : Reading α} {value other : α} {count more : Nat}
    (htakes : Takes document reading value count) (hother : Takes document reading other more) :
    other = value ∧ more = count := by
  have hrun := htakes.run_eq 0 (by simpa using htakes.count_le)
  rw [hother.run_eq 0 (by simpa using hother.count_le)] at hrun
  simp only [Nat.zero_add, Except.ok.injEq, Prod.mk.injEq] at hrun
  exact hrun

theorem uniform_pure (value : α) : IsUniform document (pure value) := by
  rintro followed _ _ ⟨⟩
  exact ⟨0, rfl, .inl rfl, takes_pure value⟩

theorem uniform_throw (error : ReadError) : IsUniform document (throw error : Reading α) :=
  nofun

theorem IsUniform.bind {reading : Reading α} {next : α → Reading β}
    (hreading : IsUniform document reading) (hnext : ∀ value, IsUniform document (next value)) :
    IsUniform document (reading >>= next) := by
  intro followed result after hrun
  obtain ⟨value, middle, hfirst, hsecond⟩ := bind_eq_ok_iff.mp hrun
  obtain ⟨count, rfl, hroom, htakes⟩ := hreading _ _ _ hfirst
  obtain ⟨more, rfl, hroom', htakes'⟩ := hnext value _ _ _ hsecond
  have hfits : count + more = 0 ∨ followed + count + more ≤ document.room := by omega
  refine ⟨count + more, Nat.add_assoc .., hfits, htakes.bind htakes' ?_⟩
  omega

theorem IsUniform.takes {reading : Reading α} (huniform : IsUniform document reading) {value : α}
    {after : Nat} (hrun : reading document 0 = .ok (value, after)) :
    Takes document reading value after := by
  obtain ⟨count, rfl, _, htakes⟩ := huniform _ _ _ hrun
  rw [Nat.zero_add]
  exact htakes

/-- What two readings in a row take is taken by the one and the other. -/
theorem takes_bind_iff {reading : Reading α} {next : α → Reading β}
    (hreading : IsUniform document reading) (hnext : ∀ value, IsUniform document (next value))
    {result : β} {count : Nat} :
    Takes document (reading >>= next) result count ↔ count ≤ document.room ∧
      ∃ value first second, Takes document reading value first ∧
        Takes document (next value) result second ∧ count = first + second := by
  constructor
  · intro htakes
    have hrun := htakes.run_eq 0 (by simpa using htakes.count_le)
    obtain ⟨value, middle, hfirst, hsecond⟩ := bind_eq_ok_iff.mp hrun
    obtain ⟨first, rfl, _, hfirst⟩ := hreading _ _ _ hfirst
    obtain ⟨second, hcount, _, hsecond⟩ := hnext value _ _ _ hsecond
    exact ⟨htakes.count_le, value, first, second, hfirst, hsecond, by omega⟩
  · rintro ⟨hroom, value, first, second, hfirst, hsecond, rfl⟩
    exact hfirst.bind hsecond hroom

@[simp] theorem takes_pure_iff {value result : α} {count : Nat} :
    Takes document (pure value) result count ↔ result = value ∧ count = 0 := by
  constructor
  · exact (takes_pure value).unique
  · rintro ⟨rfl, rfl⟩
    exact takes_pure result

/-- What is made of a value takes nothing more than the value. -/
theorem takes_bind_pure_iff {reading : Reading α} (hreading : IsUniform document reading)
    {convert : α → β} {result : β} {count : Nat} :
    Takes document (reading >>= fun value => pure (convert value)) result count ↔
      ∃ value, Takes document reading value count ∧ result = convert value := by
  rw [takes_bind_iff hreading fun _ => uniform_pure _]
  constructor
  · rintro ⟨_, value, first, second, hfirst, hsecond, rfl⟩
    obtain ⟨rfl, rfl⟩ := takes_pure_iff.mp hsecond
    exact ⟨value, hfirst, rfl⟩
  · rintro ⟨value, htakes, rfl⟩
    exact ⟨htakes.count_le, value, count, 0, htakes, takes_pure _, rfl⟩

@[simp] theorem not_takes_throw {error : ReadError} {result : α} {count : Nat} :
    ¬ Takes document (throw error) result count := by
  intro htakes
  cases htakes.run_eq 0 (by simpa using htakes.count_le)

section Lift

theorem uniform_lift (outcome : Except ReadError α) :
    IsUniform document (liftM outcome : Reading α) := by
  cases outcome with
  | error reason => exact uniform_throw reason
  | ok value => exact uniform_pure value

theorem takes_lift_iff {outcome : Except ReadError α} {value : α} {count : Nat} :
    Takes document (liftM outcome : Reading α) value count ↔ outcome = .ok value ∧ count = 0 := by
  cases outcome with
  | error reason =>
      have hfails : ¬ Takes document (throw reason : Reading α) value count := not_takes_throw
      exact iff_of_false hfails nofun
  | ok result =>
      change Takes document (pure result) value count ↔ _
      rw [takes_pure_iff, Except.ok.injEq, eq_comm]

end Lift

theorem resolve_alias (anchor followed : Nat) :
    resolve (.alias anchor) document followed =
      if document.room ≤ followed then .error .malformed
      else .ok (document.node anchor, followed + 1) := by
  change (if document.room ≤ followed then (_ : Reading Node) else _) document followed = _
  split
  next => rfl
  next => rfl

/-- A node that is no alias stands for itself. -/
theorem resolve_cases (document : Document) (node : Node) :
    (∃ anchor, node = .alias anchor) ∨
      resolve node = pure node ∧ node.hops = 0 ∧ document.target node = node := by
  cases node <;> simp [resolve, Node.hops, Document.target]

theorem takes_resolve_iff {node target : Node} {count : Nat} :
    Takes document (resolve node) target count ↔
      count ≤ document.room ∧ target = document.target node ∧ count = node.hops := by
  rcases resolve_cases document node with ⟨anchor, rfl⟩ | ⟨hresolve, hhops, htarget⟩
  · constructor
    · intro htakes
      have hrun := htakes.run_eq 0 (by simpa using htakes.count_le)
      rw [resolve_alias] at hrun
      split at hrun
      next => cases hrun
      next =>
        simp only [Nat.zero_add, Except.ok.injEq, Prod.mk.injEq] at hrun
        exact ⟨htakes.count_le, hrun.1.symm, hrun.2.symm⟩
    · rintro ⟨hroom, rfl, rfl⟩
      refine ⟨hroom, fun followed hfits => ?_⟩
      simp only [Node.hops] at hfits
      rw [resolve_alias, if_neg (by omega)]
      rfl
  · rw [hresolve, takes_pure_iff, hhops, htarget]
    exact ⟨fun ⟨hvalue, hcount⟩ => ⟨hcount ▸ Nat.zero_le _, hvalue, hcount⟩,
      fun ⟨_, hvalue, hcount⟩ => ⟨hvalue, hcount⟩⟩

theorem uniform_resolve (node : Node) : IsUniform document (resolve node) := by
  rcases resolve_cases document node with ⟨anchor, rfl⟩ | ⟨hresolve, _⟩
  · intro followed target after hrun
    rw [resolve_alias] at hrun
    split at hrun
    next => cases hrun
    next hspare =>
      cases hrun
      exact ⟨1, rfl, .inr (by omega), takes_resolve_iff.mpr ⟨by omega, rfl, rfl⟩⟩
  · rw [hresolve]
    exact uniform_pure node

/-- A reading that begins with a node goes on with what the node stands for. -/
theorem takes_resolve_bind_iff {node : Node} {next : Node → Reading α}
    (hnext : ∀ target, IsUniform document (next target)) {value : α} {count : Nat} :
    Takes document (resolve node >>= next) value count ↔ count ≤ document.room ∧
      ∃ more, Takes document (next (document.target node)) value more ∧
        count = node.hops + more := by
  rw [takes_bind_iff (uniform_resolve node) hnext]
  refine and_congr_right fun hroom => ?_
  constructor
  · rintro ⟨target, first, second, hfirst, hsecond, rfl⟩
    obtain ⟨_, rfl, rfl⟩ := takes_resolve_iff.mp hfirst
    exact ⟨second, hsecond, rfl⟩
  · rintro ⟨more, hmore, rfl⟩
    exact ⟨_, _, more, takes_resolve_iff.mpr ⟨by omega, rfl, rfl⟩, hmore, rfl⟩

section Lists

/-- The readings of the items of a list, each with its value and count. -/
abbrev TakesAll (document : Document) (reader : γ → Reading α) :
    List γ → List (α × Nat) → Prop :=
  List.Forall₂ fun item taken => Takes document (reader item) taken.1 taken.2

/-- How many aliases are followed in all. -/
def total : List (α × Nat) → Nat
  | [] => 0
  | first :: rest => first.2 + total rest

theorem total_eq_zero {taken : List (α × Nat)} (hall : ∀ pair ∈ taken, pair.2 = 0) :
    total taken = 0 := by
  induction taken with
  | nil => rfl
  | cons first rest ih =>
      obtain ⟨hfirst, hrest⟩ := List.forall_mem_cons.mp hall
      rw [total, hfirst, ih hrest]

theorem total_map_zero (values : List α) : total (values.map fun value => (value, 0)) = 0 :=
  total_eq_zero (List.forall_mem_map.mpr fun _ _ => rfl)

theorem total_append (taken more : List (α × Nat)) :
    total (taken ++ more) = total taken + total more := by
  induction taken with
  | nil => exact (Nat.zero_add _).symm
  | cons first rest ih => rw [List.cons_append, total, total, ih, Nat.add_assoc]

theorem total_eq_of_perm {taken other : List (α × Nat)} (hperm : taken.Perm other) :
    total taken = total other := by
  induction hperm with
  | nil => rfl
  | cons first _ ih => rw [total, total, ih]
  | swap first second rest => rw [total, total, total, total, Nat.add_left_comm]
  | trans _ _ ih ih' => exact ih.trans ih'

variable {reader : γ → Reading α} (hreader : ∀ item, IsUniform document (reader item))
include hreader

theorem uniform_mapM (items : List γ) : IsUniform document (items.mapM reader) := by
  induction items with
  | nil => exact uniform_pure []
  | cons item rest ih =>
      rw [List.mapM_cons]
      exact (hreader item).bind fun _ => ih.bind fun _ => uniform_pure _

omit hreader in
theorem uniform_forM {reader : γ → Reading Unit} (hreader : ∀ item, IsUniform document (reader item))
    (items : List γ) : IsUniform document (items.forM reader) := by
  induction items with
  | nil => exact uniform_pure ()
  | cons item rest ih => exact (hreader item).bind fun _ => ih

/-- Items in a row follow as many aliases as each of them does, added up. -/
theorem takes_mapM_iff {items : List γ} {values : List α} {count : Nat} :
    Takes document (items.mapM reader) values count ↔ count ≤ document.room ∧
      ∃ taken, TakesAll document reader items taken ∧ values = taken.map (·.1) ∧
        count = total taken := by
  induction items generalizing values count with
  | nil =>
      rw [List.mapM_nil, takes_pure_iff]
      constructor
      · rintro ⟨rfl, rfl⟩
        exact ⟨Nat.zero_le _, [], .nil, rfl, rfl⟩
      · rintro ⟨_, taken, ⟨⟩, hvalues, hcount⟩
        exact ⟨hvalues, hcount⟩
  | cons item rest ih =>
      have hrest : ∀ value, IsUniform document
          (rest.mapM reader >>= fun values => pure (value :: values)) :=
        fun value => (uniform_mapM hreader rest).bind fun _ => uniform_pure _
      rw [List.mapM_cons, takes_bind_iff (hreader item) hrest]
      refine and_congr_right fun hroom => ?_
      constructor
      · rintro ⟨value, first, second, hfirst, hsecond, rfl⟩
        obtain ⟨others, hothers, rfl⟩ :=
          (takes_bind_pure_iff (uniform_mapM hreader rest)).mp hsecond
        obtain ⟨_, taken, htaken, rfl, rfl⟩ := ih.mp hothers
        exact ⟨(value, first) :: taken, .cons hfirst htaken, rfl, rfl⟩
      · rintro ⟨_, htaken, rfl, rfl⟩
        obtain _ | ⟨hfirst, htaken⟩ := htaken
        rename_i first taken
        rw [total] at hroom ⊢
        refine ⟨first.1, first.2, total taken, hfirst, ?_, rfl⟩
        have hothers := ih.mpr ⟨by omega, taken, htaken, rfl, rfl⟩
        exact (takes_bind_pure_iff (uniform_mapM hreader rest)).mpr ⟨_, hothers, rfl⟩

end Lists

end Reading

end RobotDescription.Yaml
