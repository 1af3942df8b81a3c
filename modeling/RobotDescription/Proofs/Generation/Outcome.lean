import RobotDescription.Proofs.Generation.Layout

/-!
# What a configuration is planned as

The stages of a generation, each with its yield, and from them the two ways a whole plan can end:
every entity resolves and the plan is the whole layout, or the plan is the part of the layout
before the first entity that does not resolve. One of the two holds of every configuration.
-/

namespace RobotDescription

namespace Generation

variable {config : RobotConfig} {model : PlatformModel}

/-- A loop that counts each of its items has counted as many as there are. -/
theorem foldl_count {α : Type} {count : Summary → Summary} (total : Summary → Nat → Summary)
    (hzero : ∀ summary, total summary 0 = summary)
    (hsucc : ∀ summary n, total (count summary) n = total summary (n + 1))
    (items : List α) (summary : Summary) :
    items.foldl (fun before _ => count before) summary = total summary items.length := by
  induction items generalizing summary with
  | nil => exact (hzero summary).symm
  | cons item rest ih => rw [List.foldl_cons, ih, hsucc, List.length_cons]

theorem foldl_countDecoration (items : List Decoration) (summary : Summary) :
    items.foldl (fun before _ => before.countDecoration) summary =
      { summary with decorations := summary.decorations + items.length } := by
  refine foldl_count (fun before n => { before with decorations := before.decorations + n })
    (fun _ => rfl) (fun before n => ?_) items summary
  rw [Summary.countDecoration, Nat.add_right_comm, Nat.add_assoc]

theorem foldl_countMount (items : List Mount) (summary : Summary) :
    items.foldl (fun before _ => before.countMount) summary =
      { summary with mounts := summary.mounts + items.length } := by
  refine foldl_count (fun before n => { before with mounts := before.mounts + n })
    (fun _ => rfl) (fun before n => ?_) items summary
  rw [Summary.countMount, Nat.add_right_comm, Nat.add_assoc]

theorem difference_of_le {count part : Nat} (hle : part ≤ count) :
    difference count part = .ok (count - part) :=
  if_pos hle

/-- Whether decorations are reported as skipped makes no difference to what is put. -/
theorem yields_skipped (skipped : Nat) (summary : Summary) :
    (if 0 < skipped then do
        Plan.report (.skipped skipped)
        return summary
      else return summary : Plan Summary).Yields [] (.ok summary) := by
  split <;> exact ⟨rfl, rfl⟩

/-- The decorations that were counted are the enabled ones, so there are no more of them than
decorations. -/
theorem yields_decorations (hfits : ∀ item ∈ config.enabledDecorations, item.Fits model) :
    (decorations config model {}).Yields
      ([.comment "Decorations", .blank] ++
        config.enabledDecorations.flatMap (Layout.decoration model))
      (.ok {
        decorations := config.enabledDecorations.length
        skipped := config.platform.decorations.length - config.enabledDecorations.length }) := by
  have hloop := Plan.yields_foldlM {} fun item hmem =>
    yields_decoration (RobotConfig.enabled_of_mem hmem) (hfits item hmem)
  rw [foldl_countDecoration, Nat.zero_add] at hloop
  have hcount : config.enabledDecorations.length ≤ config.platform.decorations.length :=
    List.length_filter_le _ _
  have hleft := difference_of_le hcount
  generalize config.platform.decorations.length - config.enabledDecorations.length = skipped
    at hleft ⊢
  have hnote := yields_skipped skipped
  constructor
  · simp [decorations, hloop.directives_eq, hloop.outcome_eq, hleft, (hnote _).directives_eq]
  · simp [decorations, hloop.outcome_eq, hleft, (hnote _).outcome_eq]

theorem yields_decorations_error {before after : List Decoration} {item : Decoration}
    (hsplit : config.enabledDecorations = before ++ item :: after)
    (hbefore : ∀ earlier ∈ before, earlier.Fits model) (hfits : ¬ item.Fits model) :
    (decorations config model {}).Yields
      ([.comment "Decorations", .blank] ++ before.flatMap (Layout.decoration model))
      (.error (.unsupported (.decoration model.id item.kind))) := by
  have henabled : ∀ other ∈ before ++ item :: after, other.enabled = true := by
    rw [← hsplit]
    exact fun other hother => RobotConfig.enabled_of_mem hother
  have hloop := @Plan.yields_foldlM_error _ _ (decoration model) _ _ before after item _ _ {}
    (fun earlier hmem => yields_decoration (henabled earlier (List.mem_append_left _ hmem))
      (hbefore earlier hmem))
    (yields_decoration_error (henabled item (by simp)) hfits)
  rw [List.append_nil] at hloop
  constructor
  · simp [decorations, hsplit, hloop.directives_eq, hloop.outcome_eq]
  · simp [decorations, hsplit, hloop.outcome_eq]

theorem yields_mounts (hregistered : ∀ item ∈ config.mounts, item.Registered)
    (summary : Summary) :
    (mounts config summary).Yields
      ([.comment "Mounts", .blank] ++ config.mounts.flatMap Layout.mount)
      (.ok { summary with mounts := summary.mounts + config.mounts.length }) := by
  have hloop := Plan.yields_foldlM summary fun item hmem => yields_mount (hregistered item hmem)
  rw [foldl_countMount] at hloop
  constructor
  · simp [mounts, hloop.directives_eq]
  · simp [mounts, hloop.outcome_eq]

theorem yields_mounts_error {before after : List Mount} {item : Mount}
    (hsplit : config.mounts = before ++ item :: after)
    (hbefore : ∀ earlier ∈ before, earlier.Registered) (hregistered : ¬ item.Registered)
    (summary : Summary) :
    (mounts config summary).Yields
      ([.comment "Mounts", .blank] ++ before.flatMap Layout.mount ++ [.comment item.name])
      (.error (.unsupported (.mountModel item.name item.model))) := by
  have hloop := @Plan.yields_foldlM_error _ _ mount _ _ before after item _ _ summary
    (fun earlier hmem => yields_mount (hbefore earlier hmem)) (yields_mount_error hregistered)
  constructor
  · simp [mounts, hsplit, hloop.directives_eq]
  · simp [mounts, hsplit, hloop.outcome_eq]

/-- A configuration that resolves is planned as the whole layout, and what the loops have counted
are its entities. -/
theorem plan_yields_of_resolves (hresolves : config.Resolves model) :
    (plan config).Yields (Layout.whole config model)
      (.ok {
        decorations := config.enabledDecorations.length
        skipped := config.platform.decorations.length - config.enabledDecorations.length
        mounts := config.mounts.length }) := by
  have hplatform := yields_platform hresolves.platform_eq
  have hdecorations := yields_decorations hresolves.decorations
  have hmounts := yields_mounts hresolves.mounts
  constructor
  · simp [plan, hplatform.directives_eq, hplatform.outcome_eq, hdecorations.directives_eq,
      hdecorations.outcome_eq, (hmounts _).directives_eq, (hmounts _).outcome_eq, Layout.whole,
      Layout.beforeMounts, Layout.beforeDecorations, Layout.opening, commonInclusion,
      platformPackage]
  · simp [plan, hplatform.outcome_eq, hdecorations.outcome_eq, (hmounts _).outcome_eq]

/-- Any other configuration is planned as the part of the layout before the entity that stops it.
-/
theorem plan_yields_of_stopsAt {entity : Unsupported} {written : List Directive}
    (hstops : config.StopsAt entity written) :
    (plan config).Yields written (.error (.unsupported entity)) := by
  cases hstops with
  | platform hplatform =>
      have hstage := yields_platform_error hplatform
      constructor
      · simp [plan, hstage.directives_eq, hstage.outcome_eq, Layout.opening, commonInclusion,
          platformPackage]
      · simp [plan, hstage.outcome_eq]
  | decoration platform before after item hplatform hsplit hbefore hfits =>
      have hfirst := yields_platform hplatform
      have hstage := yields_decorations_error hsplit hbefore hfits
      constructor
      · simp [plan, hfirst.directives_eq, hfirst.outcome_eq, hstage.directives_eq,
          hstage.outcome_eq, Layout.beforeDecorations, Layout.opening, commonInclusion,
          platformPackage]
      · simp [plan, hfirst.outcome_eq, hstage.outcome_eq]
  | mount platform before after item hplatform hdecorations hsplit hbefore hregistered =>
      have hfirst := yields_platform hplatform
      have hsecond := yields_decorations hdecorations
      have hstage := yields_mounts_error hsplit hbefore hregistered
      constructor
      · simp [plan, hfirst.directives_eq, hfirst.outcome_eq, hsecond.directives_eq,
          hsecond.outcome_eq, (hstage _).directives_eq, (hstage _).outcome_eq,
          Layout.beforeMounts, Layout.beforeDecorations, Layout.opening, commonInclusion,
          platformPackage]
      · simp [plan, hfirst.outcome_eq, hsecond.outcome_eq, (hstage _).outcome_eq]

end Generation

end RobotDescription
