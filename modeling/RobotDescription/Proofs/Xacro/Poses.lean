import RobotDescription.Proofs.Decimal.ReadBack
import RobotDescription.Proofs.Generation.Disabling
import RobotDescription.Proofs.Xacro.Escaping

/-!
# Poses in the output

The text of an origin tells its six coordinates apart, bit for bit, as long as none of them is a NaN;
that a half of a pose is unset does not show. In a description, the pose of a mount is written inside
the call of that mount and nowhere else.
-/

namespace RobotDescription

/-- None of the coordinates is a NaN. -/
structure Vector3.IsNumeric (v : Vector3) : Prop where
  x : v.x.isNaN = false
  y : v.y.isNaN = false
  z : v.z.isNaN = false

/-- None of the coordinates that a pose sets is a NaN. -/
structure IsNumericPose (xyz rpy : Option Vector3) : Prop where
  xyz : ∀ v ∈ xyz, v.IsNumeric
  rpy : ∀ v ∈ rpy, v.IsNumeric

theorem Vector3.isNumeric_getD_zero {v : Option Vector3} (hnumeric : ∀ u ∈ v, u.IsNumeric) :
    (v.getD .zero).IsNumeric := by
  cases v with
  | none => exact ⟨by decide, by decide, by decide⟩
  | some u => exact hnumeric u rfl

namespace Xacro

/-- The first occurrence of a character splits a list in one way only. -/
theorem append_cons_inj_of_not_mem {c : Char} {a b rest rest' : List Char} (ha : c ∉ a)
    (hb : c ∉ b) (hsame : a ++ c :: rest = b ++ c :: rest') : a = b ∧ rest = rest' := by
  rcases List.append_eq_append_iff.mp hsame with ⟨between, rfl, hrest⟩ | ⟨between, rfl, hrest⟩
  · cases between with
    | nil => exact ⟨(List.append_nil a).symm, (List.cons.inj hrest).2⟩
    | cons first more =>
        obtain ⟨rfl, _⟩ := List.cons.inj hrest
        exact absurd (List.mem_append_right a List.mem_cons_self) hb
  · cases between with
    | nil => exact ⟨List.append_nil b, (List.cons.inj hrest).2.symm⟩
    | cons first more =>
        obtain ⟨rfl, _⟩ := List.cons.inj hrest
        exact absurd (List.mem_append_right b List.mem_cons_self) ha

/-- A separator ends the text before it, where its first character does not occur there. -/
theorem eq_of_separated {c : Char} {separator : String} (hhead : separator.toList.head? = some c)
    {a b rest rest' : String} (ha : c ∉ a.toList) (hb : c ∉ b.toList)
    (hsame : a ++ (separator ++ rest) = b ++ (separator ++ rest')) : a = b ∧ rest = rest' := by
  obtain ⟨more, hmore⟩ := List.head?_eq_some_iff.mp hhead
  have hlists := congrArg String.toList hsame
  simp only [String.toList_append, hmore, List.cons_append] at hlists
  obtain ⟨hfront, hback⟩ := append_cons_inj_of_not_mem ha hb hlists
  exact ⟨String.toList_inj.mp hfront, String.toList_inj.mp (List.append_cancel_left hback)⟩

theorem not_mem_toText {c : Char} (hdigit : c.isDigit = false) (hother : c ∉ ".-NaNinf".toList)
    (x : Binary64) : c ∉ x.toText.toList := by
  have hdiffers : ∀ other ∈ x.toText.toList, c ≠ other := by
    apply forall_mem_toText
    · rintro other hother rfl
      exact Bool.false_ne_true (hdigit.symm.trans hother)
    · rintro other hmem rfl
      exact hother hmem
  exact fun hmem => hdiffers c hmem rfl

theorem coordinates_injective {u v : Vector3} (hu : u.IsNumeric) (hv : v.IsNumeric)
    (hsame : coordinates u = coordinates v) : u = v := by
  have hspace : ∀ x : Binary64, ' ' ∉ x.toText.toList := not_mem_toText rfl (by decide)
  unfold coordinates at hsame
  simp only [String.append_assoc] at hsame
  obtain ⟨hx, hsame⟩ := eq_of_separated rfl (hspace _) (hspace _) hsame
  obtain ⟨hy, hz⟩ := eq_of_separated rfl (hspace _) (hspace _) hsame
  have hx := Binary64.toText_injective hu.x hv.x hx
  have hy := Binary64.toText_injective hu.y hv.y hy
  have hz := Binary64.toText_injective hu.z hv.z hz
  cases u
  cases v
  exact (Vector3.mk.injEq ..).mpr ⟨hx, hy, hz⟩

theorem quote_not_mem_coordinates (v : Vector3) : '"' ∉ (coordinates v).toList := by
  have hquote : ∀ x : Binary64, '"' ∉ x.toText.toList := not_mem_toText rfl (by decide)
  simp [coordinates, hquote]

/-- Origins without NaNs have the same text exactly if they are the same, bit for bit. -/
theorem renderOrigin_inj {origin other : Origin}
    (hxyz : origin.xyz.IsNumeric) (hrpy : origin.rpy.IsNumeric)
    (hxyz' : other.xyz.IsNumeric) (hrpy' : other.rpy.IsNumeric) :
    renderOrigin origin = renderOrigin other ↔ origin = other := by
  refine ⟨fun hsame => ?_, congrArg renderOrigin⟩
  unfold renderOrigin at hsame
  simp only [String.append_assoc, String.append_right_inj] at hsame
  obtain ⟨hfirst, hsecond⟩ := eq_of_separated rfl (quote_not_mem_coordinates _)
    (quote_not_mem_coordinates _) hsame
  have hfirst := coordinates_injective hxyz hxyz' hfirst
  have hsecond := coordinates_injective hrpy hrpy' ((String.append_left_inj _).mp hsecond)
  cases origin
  cases other
  exact (Origin.mk.injEq ..).mpr ⟨hfirst, hsecond⟩

/-- The text of an origin forgets of a pose nothing but whether a zero half is set. -/
theorem renderOrigin_ofPose_inj {xyz rpy xyz' rpy' : Option Vector3}
    (hnumeric : IsNumericPose xyz rpy) (hnumeric' : IsNumericPose xyz' rpy') :
    renderOrigin (.ofPose xyz rpy) = renderOrigin (.ofPose xyz' rpy') ↔
      xyz.getD .zero = xyz'.getD .zero ∧ rpy.getD .zero = rpy'.getD .zero := by
  rw [renderOrigin_inj (Vector3.isNumeric_getD_zero hnumeric.xyz)
    (Vector3.isNumeric_getD_zero hnumeric.rpy) (Vector3.isNumeric_getD_zero hnumeric'.xyz)
    (Vector3.isNumeric_getD_zero hnumeric'.rpy)]
  exact Iff.of_eq (Origin.mk.injEq ..)

end Xacro

def Mount.setPose (item : Mount) (xyz rpy : Option Vector3) : Mount :=
  { item with xyz := xyz, rpy := rpy }

/-- The configuration in which the mount at a position has another pose. -/
def RobotConfig.setPose (config : RobotConfig) (index : Nat) (xyz rpy : Option Vector3) :
    RobotConfig :=
  { config with mounts := config.mounts.modify index (·.setPose xyz rpy) }

namespace Mount

variable {item : Mount} {xyz rpy : Option Vector3}

theorem registered_setPose (hregistered : item.Registered) :
    (item.setPose xyz rpy).Registered :=
  hregistered

/-- A pose shows in the origin of a mount only. -/
theorem describe_setPose {descriptor : Descriptor} (hdescribe : item.describe = .ok descriptor) :
    (item.setPose xyz rpy).describe = .ok { descriptor with origin := some (.ofPose xyz rpy) } := by
  have hmodel : (item.setPose xyz rpy).model = item.model := rfl
  cases hfound : MountModel.lookup? item.model with
  | none => simp [describe, hfound] at hdescribe
  | some model =>
      simp only [describe, hfound] at hdescribe
      cases hdescribe
      simp only [describe, hmodel, hfound]
      rfl

end Mount

theorem RobotConfig.mountListIssues_modify_setPose (xyz rpy : Option Vector3) (place : Nat)
    (items : List Mount) (index : Nat) (earlier : List String) :
    mountListIssues index earlier (items.modify place (·.setPose xyz rpy)) =
      mountListIssues index earlier items := by
  induction items generalizing place index earlier with
  | nil => simp
  | cons item rest ih =>
      cases place with
      | zero => rfl
      | succ place =>
          rw [List.modify_succ_cons, mountListIssues, mountListIssues, ih]

namespace Layout

theorem length_flatMap_mount {items : List Mount}
    (hregistered : ∀ item ∈ items, item.Registered) :
    (items.flatMap mount).length = 4 * items.length := by
  refine length_flatMap_of_length fun item hmem => ?_
  obtain ⟨descriptor, _, hpart⟩ := mount_eq_reference (hregistered item hmem)
  rw [hpart]
  rfl

end Layout

section SetPose

variable {config : RobotConfig} {index : Nat} {item : Mount}
  (hitem : config.mounts[index]? = some item)
include hitem

namespace RobotConfig

theorem mounts_setPose (xyz rpy : Option Vector3) :
    (config.setPose index xyz rpy).mounts = config.mounts.take index ++
      item.setPose xyz rpy :: config.mounts.drop (index + 1) := by
  obtain ⟨hindex, rfl⟩ := List.getElem?_eq_some_iff.mp hitem
  exact List.modify_eq_take_cons_drop hindex

theorem setPose_self : config.setPose index item.xyz item.rpy = config := by
  obtain ⟨hindex, rfl⟩ := List.getElem?_eq_some_iff.mp hitem
  have hmounts : (config.setPose index config.mounts[index].xyz config.mounts[index].rpy).mounts =
      config.mounts := by
    rw [mounts_setPose hitem]
    change _ ++ config.mounts[index] :: _ = _
    rw [← List.drop_eq_getElem_cons hindex, List.take_append_drop]
  cases config
  exact congrArg _ hmounts

omit hitem in
theorem IsValid.setPose (hvalid : config.IsValid) (xyz rpy : Option Vector3) :
    (config.setPose index xyz rpy).IsValid := by
  have hissues : (config.setPose index xyz rpy).issues = config.issues :=
    congrArg (_ ++ ·) (mountListIssues_modify_setPose xyz rpy index config.mounts 0 [])
  exact hissues.trans hvalid

omit hitem in
theorem Resolves.setPose {platform : PlatformModel} (hresolves : config.Resolves platform)
    (xyz rpy : Option Vector3) : (config.setPose index xyz rpy).Resolves platform := by
  refine ⟨hresolves.platform_eq, hresolves.decorations, fun other hmem => ?_⟩
  obtain ⟨place, hplace⟩ := List.mem_iff_getElem?.mp hmem
  change (config.mounts.modify _ _)[place]? = _ at hplace
  rw [List.getElem?_modify] at hplace
  obtain ⟨old, hold, rfl⟩ := Option.map_eq_some_iff.mp hplace
  have hregistered := hresolves.mounts old (List.mem_of_getElem? hold)
  split
  next => exact Mount.registered_setPose hregistered
  next => exact hregistered

omit hitem in
theorem summary_setPose (xyz rpy : Option Vector3) :
    (config.setPose index xyz rpy).summary = config.summary := by
  have hmounts : (config.setPose index xyz rpy).mounts.length = config.mounts.length :=
    List.length_modify ..
  have hdecorations : (config.setPose index xyz rpy).enabledDecorations =
    config.enabledDecorations := rfl
  rw [summary, hmounts, hdecorations]
  rfl

end RobotConfig

/-- Of a layout, the pose of a mount decides nothing but what is nested in the mount's own call. -/
theorem Layout.exists_whole_setPose {platform : PlatformModel}
    (hresolves : config.Resolves platform) :
    ∃ descriptor front back, item.describe = .ok descriptor ∧
      front.length = 12 + 2 * config.enabledDecorations.length + 4 * index ∧
      ∀ xyz rpy, whole (config.setPose index xyz rpy) platform = front ++
        .call descriptor.macroName descriptor.arguments [.origin (.ofPose xyz rpy)] :: back := by
  obtain ⟨hindex, hget⟩ := List.getElem?_eq_some_iff.mp hitem
  have hregistered := hresolves.mounts item (List.mem_of_getElem? hitem)
  obtain ⟨descriptor, hdescribe, _⟩ := Mount.describe_of_registered hregistered
  refine ⟨descriptor, beforeMounts config platform ++ (config.mounts.take index).flatMap mount ++
      [.comment item.name, .inclusion descriptor.package descriptor.file descriptor.path],
    .blank :: (config.mounts.drop (index + 1)).flatMap mount ++ [.blank], hdescribe, ?_,
    fun xyz rpy => ?_⟩
  · have hbefore : (beforeMounts config platform).length =
        10 + 2 * config.enabledDecorations.length := by
      have hdecorations := length_flatMap_decoration fun other hmem =>
        ⟨RobotConfig.enabled_of_mem hmem, hresolves.decorations other hmem⟩
      have hplatform : (beforeDecorations platform).length = 7 := rfl
      rw [beforeMounts, List.length_append, List.length_append, hdecorations, hplatform]
      simp only [List.length_cons, List.length_nil]
      omega
    have hmounts := length_flatMap_mount fun other hmem =>
      hresolves.mounts other (List.mem_of_mem_take (i := index) hmem)
    rw [List.length_append, List.length_append, hbefore, hmounts,
      List.length_take_of_le (Nat.le_of_lt hindex)]
    simp only [List.length_cons, List.length_nil]
    omega
  · -- of all parts of the layout only the mount's own depends on the pose
    have hmount : mount (item.setPose xyz rpy) = [.comment item.name,
        .inclusion descriptor.package descriptor.file descriptor.path,
        .call descriptor.macroName descriptor.arguments [.origin (.ofPose xyz rpy)], .blank] := by
      rw [mount, Mount.describe_setPose hdescribe]
      rfl
    have hbefore : beforeMounts (config.setPose index xyz rpy) platform =
        beforeMounts config platform := rfl
    rw [whole, hbefore, RobotConfig.mounts_setPose hitem, List.flatMap_append, List.flatMap_cons,
      hmount]
    simp

end SetPose

namespace Xacro

theorem directiveText_call_origin (name : String) (arguments : Arguments) (origin : Origin) :
    directiveText (.call name arguments [.origin origin]) =
      "  " ++ startOfCall name arguments ++ ">\n    " ++ renderOrigin origin ++
        ("\n  </xacro:" ++ name ++ ">\n") := by
  have hnested : ">\n    " = ">\n" ++ "    " := rfl
  have hending : "\n  </xacro:" = "\n" ++ "  </xacro:" := rfl
  rw [hnested, hending]
  simp only [directiveText, textOfLines, directiveLines, renderBlock, String.join, List.map_cons,
    List.map_nil, List.cons_append, List.nil_append, List.foldl_cons, List.foldl_nil,
    String.empty_append, String.append_assoc]
  rfl

theorem stored_inj {stored : ByteArray} {front back text text' : String} :
    stored ++ (front ++ text ++ back).toUTF8 = stored ++ (front ++ text' ++ back).toUTF8 ↔
      text = text' := by
  rw [ByteArray.append_right_inj, String.toUTF8_eq_toByteArray,
    String.toUTF8_eq_toByteArray, String.toByteArray_inj, String.append_left_inj,
    String.append_right_inj]

/-- Poses without NaNs have the same text exactly if they are the same, bit for bit, once an unset
half is replaced by zeros. Two accepted and supported configurations that differ in nothing but such
a pose of one mount are described by texts that differ in nothing but the origin in that mount's
call; so they are described by the same text exactly under that condition. -/
theorem renderOrigin_tells_poses :
    (∀ xyz rpy xyz' rpy', IsNumericPose xyz rpy → IsNumericPose xyz' rpy' →
      (renderOrigin (.ofPose xyz rpy) = renderOrigin (.ofPose xyz' rpy') ↔
        xyz.getD .zero = xyz'.getD .zero ∧ rpy.getD .zero = rpy'.getD .zero)) ∧
    ∀ (config : RobotConfig) (summary : Summary) (index : Nat) (item : Mount)
      (xyz rpy : Option Vector3) (destination : Destination),
      config.IsValid → (generate config Document.empty).result = .ok summary →
      config.mounts[index]? = some item → IsNumericPose item.xyz item.rpy →
      IsNumericPose xyz rpy → destination.NeverFails →
      (config.setPose index xyz rpy).IsValid ∧
      (generate (config.setPose index xyz rpy) Document.empty).result = .ok summary ∧
      (∃ (descriptor : Descriptor) (before after : List Directive) (front back : String),
        item.describe = .ok descriptor ∧
        before.length = 12 + 2 * config.enabledDecorations.length + 4 * index ∧
        front = "<?xml version=\"1.0\"?>\n" ++
          ("<robot name=\"" ++ String.ofList (escapeAttribute config.serialNumber.toList) ++
            "\" xmlns:xacro=\"http://ros.org/wiki/xacro\">\n") ++
          String.join (before.map directiveText) ++
          ("  " ++ startOfCall descriptor.macroName descriptor.arguments ++ ">\n    ") ∧
        back = "\n  </xacro:" ++ descriptor.macroName ++ ">\n" ++
          (String.join (after.map directiveText) ++ "</robot>\n") ∧
        (stream config destination).destination.stored = destination.stored ++
          (front ++ renderOrigin (.ofPose item.xyz item.rpy) ++ back).toUTF8 ∧
        (stream (config.setPose index xyz rpy) destination).destination.stored =
          destination.stored ++ (front ++ renderOrigin (.ofPose xyz rpy) ++ back).toUTF8) ∧
      ((stream config destination).destination.stored =
          (stream (config.setPose index xyz rpy) destination).destination.stored ↔
        item.xyz.getD .zero = xyz.getD .zero ∧ item.rpy.getD .zero = rpy.getD .zero) := by
  refine ⟨fun _ _ _ _ => renderOrigin_ofPose_inj, ?_⟩
  simp only [← openingText_eq]
  intro config summary index item xyz rpy destination hvalid hdone hitem hold hnew hreliable
  obtain ⟨platform, hresolves, rfl⟩ := Document.exists_resolves_of_generate hdone
  obtain ⟨descriptor, before, after, hdescribe, hlength, hwhole⟩ :=
    Layout.exists_whole_setPose hitem hresolves
  obtain ⟨front, hfront⟩ : ∃ front, front = openingText config.serialNumber ++
      String.join (before.map directiveText) ++
      ("  " ++ startOfCall descriptor.macroName descriptor.arguments ++ ">\n    ") := ⟨_, rfl⟩
  obtain ⟨back, hback⟩ : ∃ back, back = "\n  </xacro:" ++ descriptor.macroName ++ ">\n" ++
      (String.join (after.map directiveText) ++ "</robot>\n") := ⟨_, rfl⟩
  have hstored : ∀ xyz rpy,
      (stream (config.setPose index xyz rpy) destination).destination.stored =
        destination.stored ++ (front ++ renderOrigin (.ofPose xyz rpy) ++ back).toUTF8 := by
    intro xyz rpy
    have hserial : (config.setPose index xyz rpy).serialNumber = config.serialNumber := rfl
    rw [stored_of_resolves hreliable (RobotConfig.namesValid_of_isValid (hvalid.setPose xyz rpy))
      (hresolves.setPose xyz rpy), hwhole, hserial, List.map_append, List.map_cons,
      directiveText_call_origin, hfront, hback]
    simp [String.join_append, String.append_assoc]
  have hstored' := hstored item.xyz item.rpy
  rw [RobotConfig.setPose_self hitem] at hstored'
  refine ⟨hvalid.setPose xyz rpy, ?_,
    ⟨descriptor, before, after, front, back, hdescribe, hlength, hfront, hback, hstored',
      hstored xyz rpy⟩, ?_⟩
  · rw [(Document.empty.generate_of_resolves rfl (hresolves.setPose xyz rpy)).2,
      RobotConfig.summary_setPose]
  · rw [hstored', hstored xyz rpy, stored_inj]
    exact renderOrigin_ofPose_inj hold hnew

/-- Two mounts, the second of which has only a position, infinitely far away. -/
def distantMount : RobotConfig where
  serialNumber := "a200-0001"
  platform := {
    model := "a200"
    decorations := [{ kind := "front_bumper", enabled := true }] }
  mounts := [
    { name := "near", model := "bracket" },
    { name := "far", model := "flir_ptu",
      xyz := some ⟨.infinity true, .ofMagnitude false 1, .zero⟩ }]

theorem renderOrigin_tells_zeros :
    IsNumericPose none (some .zero) ∧
      IsNumericPose (some ⟨.infinity true, .ofMagnitude false 1, .ofMagnitude true 0⟩) none ∧
      distantMount.IsValid ∧
      (generate distantMount Document.empty).result = .ok ⟨1, 0, 2⟩ ∧
      distantMount.mounts[1]? = some distantMount.mounts[1] ∧
      IsNumericPose distantMount.mounts[1].xyz distantMount.mounts[1].rpy ∧
      Destination.NeverFails {} ∧
      renderOrigin (.ofPose none (some .zero)) = renderOrigin (.ofPose (some .zero) none) ∧
      (stream distantMount {}).destination.stored ≠
        (stream (distantMount.setPose 1
          (some ⟨.infinity true, .ofMagnitude false 1, .ofMagnitude true 0⟩) none)
          {}).destination.stored := by
  obtain ⟨hposes, hmounts⟩ := renderOrigin_tells_poses
  have hnone : ∀ v ∈ (none : Option Vector3), v.IsNumeric := nofun
  have hsome : ∀ u : Vector3, u.IsNumeric → ∀ v ∈ some u, v.IsNumeric := by
    rintro u hnumeric v ⟨⟩
    exact hnumeric
  have hzero : Vector3.zero.IsNumeric := ⟨by decide, by decide, by decide⟩
  have hold : IsNumericPose distantMount.mounts[1].xyz distantMount.mounts[1].rpy :=
    ⟨hsome _ ⟨by decide, by decide, by decide⟩, hnone⟩
  have hnew : IsNumericPose
      (some ⟨.infinity true, .ofMagnitude false 1, .ofMagnitude true 0⟩) none :=
    ⟨hsome _ ⟨by decide, by decide, by decide⟩, hnone⟩
  have hvalid : distantMount.IsValid := by decide
  have hdone : (generate distantMount Document.empty).result = .ok ⟨1, 0, 2⟩ := rfl
  have hreliable : Destination.NeverFails {} := ⟨rfl, rfl, rfl⟩
  obtain ⟨_, _, _, htexts⟩ := hmounts distantMount _ 1 _ _ _ {} hvalid hdone rfl hold hnew hreliable
  refine ⟨⟨hnone, hsome _ hzero⟩, hnew, hvalid, hdone, rfl, hold, hreliable,
    (hposes _ _ _ _ ⟨hnone, hsome _ hzero⟩ ⟨hsome _ hzero, hnone⟩).mpr ⟨rfl, rfl⟩, ?_⟩
  exact fun hsame => absurd (htexts.mp hsame).1 (by decide)

end Xacro

end RobotDescription
