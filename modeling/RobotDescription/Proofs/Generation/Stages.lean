import RobotDescription.Generation.Plan

/-!
# What plans put

A plan is judged by the directives that it puts and the outcome that it ends with; its notes are
left aside. Both are computed along the structure of a plan, by one law for each way of building
one.
-/

namespace RobotDescription.Plan

variable {α β : Type}

@[simp] theorem directives_pure (value : α) : (Pure.pure value : Plan α).directives = [] := rfl

@[simp] theorem outcome_pure (value : α) : (Pure.pure value : Plan α).outcome = .ok value := rfl

@[simp] theorem directives_put (directive : Directive) :
    (put directive).directives = [directive] := rfl

@[simp] theorem outcome_put (directive : Directive) : (put directive).outcome = .ok () := rfl

@[simp] theorem directives_report (note : Note) : (report note).directives = [] := rfl

@[simp] theorem outcome_report (note : Note) : (report note).outcome = .ok () := rfl

@[simp] theorem directives_lift (result : Except GenerationError α) :
    (lift result).directives = [] := rfl

@[simp] theorem outcome_lift (result : Except GenerationError α) :
    (lift result).outcome = result := rfl

/-- What follows a plan is put only if the plan succeeds. -/
@[simp] theorem directives_bind (plan : Plan α) (next : α → Plan β) :
    (plan >>= next).directives = plan.directives ++
      match plan.outcome with
      | .ok value => (next value).directives
      | .error _ => [] := by
  obtain ⟨steps, outcome⟩ := plan
  cases outcome with
  | ok value => exact List.filterMap_append
  | error error => exact (List.append_nil _).symm

@[simp] theorem outcome_bind (plan : Plan α) (next : α → Plan β) :
    (plan >>= next).outcome =
      match plan.outcome with
      | .ok value => (next value).outcome
      | .error error => .error error := by
  obtain ⟨steps, outcome⟩ := plan
  cases outcome <;> rfl

/-- The plan puts exactly these directives and ends with this outcome. -/
structure Yields (plan : Plan α) (written : List Directive)
    (outcome : Except GenerationError α) : Prop where
  directives_eq : plan.directives = written
  outcome_eq : plan.outcome = outcome

section Loop

variable {σ : Type} {body : σ → α → Plan σ} {next : σ → α → σ} {part : α → List Directive}

/-- Running through items that all succeed puts the directives of each in order, and carries the
state from each to the next. -/
theorem yields_foldlM {items : List α} (state : σ)
    (hbody : ∀ item ∈ items, ∀ before, (body before item).Yields (part item)
      (.ok (next before item))) :
    (items.foldlM body state).Yields (items.flatMap part) (.ok (items.foldl next state)) := by
  induction items generalizing state with
  | nil => exact ⟨rfl, rfl⟩
  | cons item rest ih =>
      obtain ⟨hdirectives, houtcome⟩ := hbody item List.mem_cons_self state
      have hrest := ih (next state item) fun other hother =>
        hbody other (List.mem_cons_of_mem _ hother)
      constructor
      · simp [List.foldlM_cons, hdirectives, houtcome, hrest.directives_eq]
      · simp [List.foldlM_cons, houtcome, hrest.outcome_eq]

/-- Running through items ends with the first one that fails. -/
theorem yields_foldlM_error {before after : List α} {item : α} {written : List Directive}
    {error : GenerationError} (state : σ)
    (hbefore : ∀ earlier ∈ before, ∀ reached, (body reached earlier).Yields (part earlier)
      (.ok (next reached earlier)))
    (hitem : ∀ reached, (body reached item).Yields written (.error error)) :
    ((before ++ item :: after).foldlM body state).Yields
      (before.flatMap part ++ written) (.error error) := by
  induction before generalizing state with
  | nil =>
      obtain ⟨hdirectives, houtcome⟩ := hitem state
      constructor
      · simp [List.foldlM_cons, hdirectives, houtcome]
      · simp [List.foldlM_cons, houtcome]
  | cons earlier rest ih =>
      obtain ⟨hdirectives, houtcome⟩ := hbefore earlier List.mem_cons_self state
      have hrest := ih (next state earlier) fun other hother =>
        hbefore other (List.mem_cons_of_mem _ hother)
      constructor
      · simp only [List.cons_append, List.foldlM_cons, directives_bind, hdirectives, houtcome,
          hrest.directives_eq, List.flatMap_cons, List.append_assoc]
      · simp only [List.cons_append, List.foldlM_cons, outcome_bind, houtcome, hrest.outcome_eq]

end Loop

end RobotDescription.Plan
