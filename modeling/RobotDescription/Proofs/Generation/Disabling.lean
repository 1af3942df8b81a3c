import RobotDescription.Proofs.Command.Modes
import RobotDescription.Proofs.Generation.Success

/-!
# Disabling decorations

Disabled decorations have no part in a description: whatever they are and wherever they stand among
the others, the same is written and the same error is met. A decoration that is enabled stands in
the description as two directives; disabling it takes these two out and leaves the rest as it is.
-/

namespace RobotDescription

namespace Summary

/-- What has been generated, with the skipped decorations left out. -/
def generated (summary : Summary) : Nat × Nat :=
  (summary.decorations, summary.mounts)

theorem exists_of_map_generated_eq {ε : Type} {first second : Except ε Summary}
    (hsame : first.map generated = second.map generated) :
    (∃ error, first = .error error ∧ second = .error error) ∨
      ∃ summary summary', first = .ok summary ∧ second = .ok summary' ∧
        summary.generated = summary'.generated := by
  cases first with
  | error error =>
      cases second with
      | error error' =>
          cases hsame
          exact .inl ⟨error, rfl, rfl⟩
      | ok summary' => cases hsame
  | ok summary =>
      cases second with
      | error error' => cases hsame
      | ok summary' => exact .inr ⟨summary, summary', rfl, rfl, Except.ok.inj hsame⟩

end Summary

/-- Two configurations that differ in nothing but decorations that are disabled. -/
structure RobotConfig.EnablesSame (config other : RobotConfig) : Prop where
  serialNumber_eq : other.serialNumber = config.serialNumber
  model_eq : other.platform.model = config.platform.model
  enabled_eq : other.enabledDecorations = config.enabledDecorations
  mounts_eq : other.mounts = config.mounts

section EnablesSame

variable {config other : RobotConfig} (hsame : config.EnablesSame other)
include hsame

theorem Layout.beforeMounts_congr (platform : PlatformModel) :
    beforeMounts other platform = beforeMounts config platform := by
  rw [beforeMounts, beforeMounts, hsame.enabled_eq]

theorem Layout.whole_congr (platform : PlatformModel) :
    whole other platform = whole config platform := by
  rw [whole, whole, beforeMounts_congr hsame, hsame.mounts_eq]

namespace RobotConfig.EnablesSame

theorem resolves {platform : PlatformModel} (hresolves : config.Resolves platform) :
    other.Resolves platform := by
  obtain ⟨hplatform, hdecorations, hmounts⟩ := hresolves
  rw [← hsame.model_eq] at hplatform
  rw [← hsame.enabled_eq] at hdecorations
  rw [← hsame.mounts_eq] at hmounts
  exact ⟨hplatform, hdecorations, hmounts⟩

/-- What comes first in one configuration comes first in the other. -/
theorem stopsAt {entity : Unsupported} {written : List Directive}
    (hstops : config.StopsAt entity written) : other.StopsAt entity written := by
  cases hstops with
  | platform hplatform =>
      rw [← hsame.model_eq] at hplatform ⊢
      exact .platform hplatform
  | decoration platform before after item hplatform hsplit hbefore hfits =>
      rw [← hsame.model_eq] at hplatform
      rw [← hsame.enabled_eq] at hsplit
      exact .decoration platform before after item hplatform hsplit hbefore hfits
  | mount platform before after item hplatform hdecorations hsplit hbefore hregistered =>
      rw [← hsame.model_eq] at hplatform
      rw [← hsame.enabled_eq] at hdecorations
      rw [← hsame.mounts_eq] at hsplit
      rw [← Layout.beforeMounts_congr hsame]
      exact .mount platform before after item hplatform hdecorations hsplit hbefore hregistered

end RobotConfig.EnablesSame

theorem Generation.plan_congr :
    (plan other).directives = (plan config).directives ∧
      (plan other).outcome.map Summary.generated =
        (plan config).outcome.map Summary.generated := by
  rcases plan_yields config with ⟨platform, _, hresolves, _⟩ | ⟨entity, written, hstops, hyields⟩
  · obtain ⟨hdirectives, houtcome⟩ := plan_yields_of_resolves hresolves
    obtain ⟨hdirectives', houtcome'⟩ := plan_yields_of_resolves (hsame.resolves hresolves)
    rw [hdirectives, hdirectives', houtcome, houtcome', Layout.whole_congr hsame,
      hsame.enabled_eq, hsame.mounts_eq]
    exact ⟨rfl, rfl⟩
  · obtain ⟨hdirectives', houtcome'⟩ := plan_yields_of_stopsAt (hsame.stopsAt hstops)
    rw [hyields.directives_eq, hyields.outcome_eq, hdirectives', houtcome']
    exact ⟨rfl, rfl⟩

theorem generate_congr {σ : Type} [Sink σ] (sink : σ) :
    (generate other sink).sink = (generate config sink).sink ∧
      (generate other sink).result.map Summary.generated =
        (generate config sink).result.map Summary.generated := by
  obtain ⟨hdirectives, houtcomes⟩ := Generation.plan_congr hsame
  -- the plans may differ in their notes, but a sink sees their directives only
  have hwrites : Sink.writeAll (Generation.plan other).directives sink =
      Sink.writeAll (Generation.plan config).directives sink := by
    rw [hdirectives]
  cases hwritten : (Sink.writeAll (Generation.plan config).directives sink).result with
  | error error =>
      obtain ⟨hend, hresult⟩ := generate_of_refused hwritten
      rw [← hwrites] at hwritten
      obtain ⟨hend', hresult'⟩ := generate_of_refused hwritten
      rw [hend, hend', hresult, hresult', hwrites]
      exact ⟨rfl, rfl⟩
  | ok =>
      have hwritten' := hwritten
      rw [← hwrites] at hwritten'
      rcases Summary.exists_of_map_generated_eq houtcomes with
        ⟨error, houtcome', houtcome⟩ | ⟨summary', summary, houtcome', houtcome, hcounts⟩
      · obtain ⟨hend, hresult⟩ := generate_of_stopped hwritten houtcome
        obtain ⟨hend', hresult'⟩ := generate_of_stopped hwritten' houtcome'
        rw [hend, hend', hresult, hresult', hwrites]
        exact ⟨rfl, rfl⟩
      · obtain ⟨hend, hresult⟩ := generate_of_written hwritten houtcome
        obtain ⟨hend', hresult'⟩ := generate_of_written hwritten' houtcome'
        rw [hend, hend', hresult, hresult', hwrites]
        refine ⟨rfl, ?_⟩
        split
        next => exact congrArg Except.ok hcounts
        next => rfl

theorem Xacro.stream_congr (destination : Destination) :
    (stream other destination).destination = (stream config destination).destination ∧
      (stream other destination).result.map Summary.generated =
        (stream config destination).result.map Summary.generated := by
  obtain ⟨hsink, hresults⟩ := generate_congr hsame Document.empty
  rcases Summary.exists_of_map_generated_eq hresults with
    ⟨error, hresult', hresult⟩ | ⟨summary', summary, hresult', hresult, hcounts⟩
  · simp [stream, hresult, hresult']
  · simp only [stream, hresult, hresult', hsink, hsame.serialNumber_eq]
    split
    next => exact ⟨rfl, rfl⟩
    next =>
      refine ⟨rfl, ?_⟩
      dsimp only
      split
      next => exact congrArg Except.ok hcounts
      next => rfl

end EnablesSame

/-- The configuration in which the decoration at a position is disabled. -/
def RobotConfig.disable (config : RobotConfig) (index : Nat) : RobotConfig :=
  { config with platform := { config.platform with
      decorations := config.platform.decorations.modify index fun item =>
        { item with enabled := false } } }

theorem Layout.length_flatMap_of_length {α : Type} {part : α → List Directive} {items : List α}
    {size : Nat} (hparts : ∀ item ∈ items, (part item).length = size) :
    (items.flatMap part).length = size * items.length := by
  rw [List.length_flatMap, List.map_congr_left hparts, List.map_const',
    List.sum_replicate_nat, Nat.mul_comm]

theorem Layout.length_flatMap_decoration {platform : PlatformModel} {items : List Decoration}
    (hreferences : ∀ item ∈ items, item.enabled = true ∧ item.Fits platform) :
    (items.flatMap (decoration platform)).length = 2 * items.length := by
  refine length_flatMap_of_length fun item hmem => ?_
  obtain ⟨henabled, hfits⟩ := hreferences item hmem
  obtain ⟨descriptor, _, hpart⟩ := decoration_eq_reference henabled hfits
  rw [hpart]
  rfl

section Disable

variable {config : RobotConfig} {index : Nat} {item : Decoration}
  (hitem : config.platform.decorations[index]? = some item)
include hitem

namespace RobotConfig

theorem decorations_eq_split :
    config.platform.decorations = config.platform.decorations.take index ++
      item :: config.platform.decorations.drop (index + 1) := by
  obtain ⟨hindex, rfl⟩ := List.getElem?_eq_some_iff.mp hitem
  rw [← List.drop_eq_getElem_cons hindex, List.take_append_drop]

theorem decorations_disable :
    (config.disable index).platform.decorations = config.platform.decorations.take index ++
      { item with enabled := false } :: config.platform.decorations.drop (index + 1) := by
  obtain ⟨hindex, rfl⟩ := List.getElem?_eq_some_iff.mp hitem
  exact List.modify_eq_take_cons_drop hindex

theorem NamesValid.disable (hnames : config.NamesValid) : (config.disable index).NamesValid := by
  refine ⟨fun other hmem => ?_, hnames.mounts⟩
  have hold := hnames.decorations
  rw [decorations_eq_split hitem] at hold
  rw [decorations_disable hitem] at hmem
  rcases List.mem_append.mp hmem with hbefore | hmem
  · exact hold other (List.mem_append_left _ hbefore)
  · rcases List.mem_cons.mp hmem with rfl | hafter
    · exact hold item (List.mem_append_right _ List.mem_cons_self)
    · exact hold other (List.mem_append_right _ (List.mem_cons_of_mem _ hafter))

variable (henabled : item.enabled = true)
include henabled

/-- Among the decorations that are generated, the one that is disabled is missing and the others
stay in their order. -/
theorem exists_enabledDecorations_split :
    ∃ before after, config.enabledDecorations = before ++ item :: after ∧
      (config.disable index).enabledDecorations = before ++ after ∧
      before.length = (config.platform.decorations.take index).countP (·.enabled) := by
  refine ⟨(config.platform.decorations.take index).filter (·.enabled),
    (config.platform.decorations.drop (index + 1)).filter (·.enabled), ?_, ?_,
    List.countP_eq_length_filter.symm⟩
  · rw [enabledDecorations, decorations_eq_split hitem, List.filter_append,
      List.filter_cons_of_pos henabled, ← decorations_eq_split hitem]
  · rw [enabledDecorations, decorations_disable hitem, List.filter_append,
      List.filter_cons_of_neg Bool.false_ne_true]

theorem Resolves.disable {platform : PlatformModel} (hresolves : config.Resolves platform) :
    (config.disable index).Resolves platform := by
  obtain ⟨before, after, hold, hnew, _⟩ := exists_enabledDecorations_split hitem henabled
  refine ⟨hresolves.platform_eq, fun other hmem => ?_, hresolves.mounts⟩
  apply hresolves.decorations
  rw [hnew] at hmem
  rw [hold]
  exact (List.mem_append.mp hmem).elim (List.mem_append_left _)
    fun hafter => List.mem_append_right _ (List.mem_cons_of_mem _ hafter)

theorem summary_disable :
    1 ≤ config.summary.decorations ∧
      (config.disable index).summary =
        { config.summary with
          decorations := config.summary.decorations - 1
          skipped := config.summary.skipped + 1 } := by
  obtain ⟨before, after, hold, hnew, _⟩ := exists_enabledDecorations_split hitem henabled
  -- what is skipped is a difference of natural numbers, which must not be cut off at zero
  have hcount : config.enabledDecorations.length ≤ config.platform.decorations.length :=
    List.length_filter_le _ _
  have hlength : (config.disable index).platform.decorations.length =
      config.platform.decorations.length := List.length_modify ..
  simp only [summary, hlength, hnew]
  simp only [hold, List.length_append, List.length_cons] at hcount ⊢
  refine ⟨by omega, ?_⟩
  congr 1
  omega

end RobotConfig

variable (henabled : item.enabled = true)
include henabled

/-- A layout consists of the two directives of a decoration, what precedes them and what follows
them; the layout without that decoration lacks these two. -/
theorem Layout.exists_whole_split {platform : PlatformModel}
    (hresolves : config.Resolves platform) :
    ∃ descriptor front back, item.describe platform = .ok descriptor ∧
      front.length = 7 + 2 * (config.platform.decorations.take index).countP (·.enabled) ∧
      whole config platform = front ++ [descriptor.inclusion, descriptor.call] ++ back ∧
      whole (config.disable index) platform = front ++ back := by
  obtain ⟨before, after, hold, hnew, hbefore⟩ :=
    RobotConfig.exists_enabledDecorations_split hitem henabled
  have hreferences : ∀ other ∈ before ++ item :: after,
      other.enabled = true ∧ other.Fits platform := by
    rw [← hold]
    exact fun other hmem => ⟨RobotConfig.enabled_of_mem hmem, hresolves.decorations other hmem⟩
  obtain ⟨_, hfits⟩ := hreferences item (List.mem_append_right _ List.mem_cons_self)
  obtain ⟨descriptor, hdescribe, hblocks⟩ := Decoration.describe_of_fits henabled hfits
  have hpair : decoration platform item = [descriptor.inclusion, descriptor.call] := by
    simp [decoration, hdescribe, reference, Descriptor.inclusion, Descriptor.call, hblocks]
  have hlength : (before.flatMap (decoration platform)).length = 2 * before.length :=
    length_flatMap_decoration fun other hmem => hreferences other (List.mem_append_left _ hmem)
  have hmounts : (config.disable index).mounts = config.mounts := rfl
  refine ⟨descriptor, beforeDecorations platform ++ before.flatMap (decoration platform),
    after.flatMap (decoration platform) ++ [.blank, .comment "Mounts", .blank] ++
      config.mounts.flatMap mount ++ [.blank], hdescribe, ?_, ?_, ?_⟩
  · rw [List.length_append, hlength, hbefore]
    rfl
  · simp [whole, beforeMounts, hold, hpair]
  · simp [whole, beforeMounts, hnew, hmounts]

end Disable

theorem Xacro.stored_of_resolves {config : RobotConfig} {platform : PlatformModel}
    {destination : Destination} (hreliable : destination.NeverFails)
    (hnames : config.NamesValid) (hresolves : config.Resolves platform) :
    (stream config destination).destination.stored = destination.stored ++
      (openingText config.serialNumber ++
        String.join ((Layout.whole config platform).map directiveText) ++ "</robot>\n").toUTF8 := by
  obtain ⟨hdirectives, houtcome⟩ := Generation.plan_yields_of_resolves hresolves
  obtain ⟨hstored, _⟩ := stream_of_written hreliable hnames houtcome
  rw [hstored, hdirectives]
  rfl

/-- Disabled decorations have no influence on what is written to any sink or stream, and none on the
error where there is one; of a summary they change how many were skipped. Disabling a decoration of
a description that succeeds leaves a description that succeeds, with the two directives of that
decoration taken out: they stand after the seven that open every description and two for each
enabled decoration before it. Of the text their own text is missing, and one decoration that was
counted as generated is counted as skipped. -/
theorem generate_disabled :
    (∀ config other : RobotConfig, config.EnablesSame other →
      (∀ (σ : Type) [Sink σ] (sink : σ),
        (generate other sink).sink = (generate config sink).sink ∧
          (generate other sink).result.map Summary.generated =
            (generate config sink).result.map Summary.generated) ∧
      ∀ destination,
        (Xacro.stream other destination).destination =
            (Xacro.stream config destination).destination ∧
          (Xacro.stream other destination).result.map Summary.generated =
            (Xacro.stream config destination).result.map Summary.generated) ∧
    ∀ (config : RobotConfig) (document : Document) (summary : Summary) (index : Nat)
      (item : Decoration),
      (generate config document).result = .ok summary →
      config.platform.decorations[index]? = some item → item.enabled = true →
      ∃ platform descriptor front back,
        PlatformModel.lookup? config.platform.model = some platform ∧
        item.describe platform = .ok descriptor ∧
        front.length = 7 + 2 * (config.platform.decorations.take index).countP (·.enabled) ∧
        (generate config document).sink =
          ⟨document.directives ++ (front ++ [descriptor.inclusion, descriptor.call] ++ back),
            true⟩ ∧
        (generate (config.disable index) document).sink =
          ⟨document.directives ++ (front ++ back), true⟩ ∧
        1 ≤ summary.decorations ∧
        (generate (config.disable index) document).result =
          .ok { summary with
            decorations := summary.decorations - 1
            skipped := summary.skipped + 1 } ∧
        (config.NamesValid → ∀ destination : Xacro.Destination, destination.NeverFails →
          let opening := "<?xml version=\"1.0\"?>\n" ++
            ("<robot name=\"" ++
              String.ofList (Xacro.escapeAttribute config.serialNumber.toList) ++
              "\" xmlns:xacro=\"http://ros.org/wiki/xacro\">\n")
          let text := fun part : List Directive => String.join (part.map Xacro.directiveText)
          (Xacro.stream config destination).destination.stored = destination.stored ++
            (opening ++ text front ++
              (Xacro.directiveText descriptor.inclusion ++ Xacro.directiveText descriptor.call) ++
              text back ++ "</robot>\n").toUTF8 ∧
          (Xacro.stream (config.disable index) destination).destination.stored =
            destination.stored ++
              (opening ++ text front ++ text back ++ "</robot>\n").toUTF8) := by
  refine ⟨fun config other hsame => ⟨fun σ _ sink => generate_congr hsame sink,
    Xacro.stream_congr hsame⟩, ?_⟩
  intro config document summary index item hdone hitem henabled
  have hopen : document.closed = false := Document.closed_eq_false_of_generate hdone
  obtain ⟨platform, hresolves, rfl⟩ := Document.exists_resolves_of_generate hdone
  have hdisabled : (config.disable index).Resolves platform := hresolves.disable hitem henabled
  obtain ⟨descriptor, front, back, hdescribe, hplace, hold, hnew⟩ :=
    Layout.exists_whole_split hitem henabled hresolves
  obtain ⟨hpositive, hsummary⟩ := RobotConfig.summary_disable hitem henabled
  obtain ⟨hsink, _⟩ := document.generate_of_resolves hopen hresolves
  obtain ⟨hsink', hresult'⟩ := document.generate_of_resolves hopen hdisabled
  rw [hold] at hsink
  rw [hnew] at hsink'
  rw [hsummary] at hresult'
  refine ⟨platform, descriptor, front, back, hresolves.platform_eq, hdescribe, hplace, hsink,
    hsink', hpositive, hresult', ?_⟩
  intro hnames destination hreliable
  rw [← Xacro.openingText_eq]
  intro opening text
  rw [Xacro.stored_of_resolves hreliable hnames hresolves,
    Xacro.stored_of_resolves hreliable (hnames.disable hitem) hdisabled, hold, hnew]
  have hserial : (config.disable index).serialNumber = config.serialNumber := rfl
  constructor
  · simp [opening, text, String.join_append, String.append_assoc]
  · simp [opening, text, hserial, String.join_append, String.append_assoc]

/-- A bumper twice, and between the two a decoration that is disabled and in no registry. -/
def twinBumpers : RobotConfig where
  serialNumber := "a200-0001"
  platform := {
    model := "a200"
    decorations := [
      { kind := "front_bumper", enabled := true },
      { kind := "spoiler" },
      { kind := "front_bumper", enabled := true }] }

/-- The same robot without mention of what is disabled. -/
def onlyTwinBumpers : RobotConfig :=
  { twinBumpers with
    platform := { twinBumpers.platform with decorations := twinBumpers.enabledDecorations } }

theorem generate_disabled_bumpers :
    twinBumpers.EnablesSame onlyTwinBumpers ∧
      (generate twinBumpers begun).result = .ok ⟨2, 1, 0⟩ ∧
      twinBumpers.platform.decorations[2]? = some { kind := "front_bumper", enabled := true } ∧
      twinBumpers.NamesValid ∧ Xacro.Destination.NeverFails {} ∧
      (∀ destination, (Xacro.stream onlyTwinBumpers destination).destination =
        (Xacro.stream twinBumpers destination).destination) ∧
      (generate (twinBumpers.disable 2) begun).result = .ok ⟨1, 2, 0⟩ ∧
      ∃ front bumper back ending : String,
        (Xacro.stream twinBumpers {}).destination.stored =
            .empty ++ (front ++ bumper ++ back ++ ending).toUTF8 ∧
          (Xacro.stream (twinBumpers.disable 2) {}).destination.stored =
            .empty ++ (front ++ back ++ ending).toUTF8 := by
  have hsame : twinBumpers.EnablesSame onlyTwinBumpers := ⟨rfl, rfl, rfl, rfl⟩
  have hdone : (generate twinBumpers begun).result = .ok ⟨2, 1, 0⟩ := rfl
  have hnames : twinBumpers.NamesValid := ⟨by decide, by decide⟩
  have hreliable : Xacro.Destination.NeverFails {} := ⟨rfl, rfl, rfl⟩
  obtain ⟨hstreams, hdisabling⟩ := generate_disabled
  obtain ⟨_, _, _, _, _, _, _, _, _, _, hdisabled, htext⟩ :=
    hdisabling twinBumpers begun _ 2 _ hdone rfl rfl
  exact ⟨hsame, hdone, rfl, hnames, hreliable,
    fun destination => ((hstreams _ _ hsame).2 destination).1, hdisabled,
    _, _, _, _, htext hnames {} hreliable⟩

end RobotDescription
