import Kpmx.Mixer.InitialUpdate

/-!
# Two ways to a strip's target

The target of a strip comes with the first update of its node, which recognises three families of names,
and later with an update for the node's name, which recognises the names of input strips only.

* `family_of_parsed` : the strict parser's names are in the family of the loose test;
* `routes_agree_on_inputs` : the two ways lead to the same input strip, and only the first one to the
  strips of groups and layers.
-/

namespace Kpmx

namespace LayersListModel

/-- The target object of the strip at a place, if there is one. -/
def targetAt (l : LayersListModel) (r : StripRef) : Option (Option String) :=
  (l.strip? r).map ChannelStripModel.targetObject

theorem targetAt_modifyStrip_self (l : LayersListModel) (r : StripRef)
    (f : ChannelStripModel → ChannelStripModel) :
    (l.modifyStrip r f).targetAt r = (l.strip? r).map fun strip => (f strip).targetObject := by
  rw [targetAt, strip?_modifyStrip, if_pos rfl, Option.map_map]
  rfl

theorem targetAt_modifyStrip_of_ne (l : LayersListModel) {r q : StripRef} (h : q ≠ r)
    (f : ChannelStripModel → ChannelStripModel) : (l.modifyStrip r f).targetAt q = l.targetAt q := by
  rw [targetAt, strip?_modifyStrip, if_neg h, targetAt]

theorem family_of_parsed {name : String} {p : Nat × Char} (h : parsePmxInputName name = some p) :
    family name = some .input := by
  obtain ⟨-, d0, d1, -, -, hname⟩ := parsePmxName_eq_some_iff.mp h
  exact family_input hname

theorem kind_ne_input_of_addressed {name : String} {r : StripRef} (haddressed : addressed name = some r)
    (h : parsePmxInputName name = none) : r.kind ≠ .input := by
  rw [addressed_eq] at haddressed
  split at haddressed
  · rw [h] at haddressed
    cases haddressed
  · obtain ⟨p, -, rfl⟩ := Option.map_eq_some_iff.mp haddressed
    exact fun hkind => by cases hkind
  · split at haddressed
    · obtain rfl := Option.some.inj haddressed
      exact fun hkind => by cases hkind
    · cases haddressed
  · cases haddressed

/-- Both ways to a name that the strict parser accepts ask for the same layer. -/
theorem routes_of_parsed (l : LayersListModel) {node : WireplumberNode} {name : String} {i : Nat}
    {c : Char} (hname : node.name = some name) (h : parsePmxInputName name = some (i, c)) :
    (0 ≤ layerIndex c ∧ layerIndex c < l.layers.length →
      l.initialChannelUpdate node = .ok (l.updateFromNode ⟨(layerIndex c).toNat, .input, i⟩ node) ∧
      l.updateTargetObjectForNodeName name node.targetObject =
        .ok (l.modifyStrip ⟨(layerIndex c).toNat, .input, i⟩ fun strip =>
          { strip with targetObject := node.targetObject })) ∧
    (¬ (0 ≤ layerIndex c ∧ layerIndex c < l.layers.length) →
      l.initialChannelUpdate node = .error .outOfRange ∧
      l.updateTargetObjectForNodeName name node.targetObject = .error .outOfRange) := by
  have hinitial : l.initialChannelUpdate node = l.initialInputChannelUpdate (layerIndex c) i node := by
    rw [initialChannelUpdate_eq hname, family_of_parsed h]
    simp only [h]
  have hupdate : l.updateTargetObjectForNodeName name node.targetObject =
      l.updateInputChannelTargetObject (layerIndex c) i node.targetObject := by
    rw [updateTargetObjectForNodeName, h]
  constructor
  · intro hindex
    obtain ⟨l₁, hl₁⟩ : ∃ l₁, l.initialInputChannelUpdate (layerIndex c) i node = .ok l₁ :=
      onChannels_isOk_iff.mpr hindex
    obtain ⟨l₂, hl₂⟩ : ∃ l₂, l.updateInputChannelTargetObject (layerIndex c) i node.targetObject =
        .ok l₂ := onChannels_isOk_iff.mpr hindex
    have hok₁ : l.initialChannelUpdate node = .ok l₁ := hinitial.trans hl₁
    have hok₂ : l.updateTargetObjectForNodeName name node.targetObject = .ok l₂ := hupdate.trans hl₂
    have heq₂ := updateTargetObjectForNodeName_ok hok₂
    rw [h] at heq₂
    rw [hok₁, hok₂, (initialUpdate_ok hl₁).2, heq₂]
    exact ⟨rfl, rfl⟩
  · intro hindex
    rw [hinitial, hupdate]
    exact ⟨if_neg hindex, if_neg hindex⟩

/-- What the two ways do with a target for the name of a node: where the first update returns, the later
one does, and leaves the same target in every input strip and the old one in every other. -/
structure RoutesAgree (l : LayersListModel) (node : WireplumberNode) (name : String) : Prop where
  same : ∀ l₁, l.initialChannelUpdate { node with name := some name } = .ok l₁ →
    ∃ l₂, l.updateTargetObjectForNodeName name node.targetObject = .ok l₂ ∧
      ∀ r, l₂.targetAt r = if r.kind = .input then l₁.targetAt r else l.targetAt r
  inputsOnly : ∀ l₂, l.updateTargetObjectForNodeName name node.targetObject = .ok l₂ →
    ∀ r, r.kind ≠ .input → l₂.targetAt r = l.targetAt r
  throws : (parsePmxInputName name).isSome = true ∨ family name = none → ∀ e,
    (l.initialChannelUpdate { node with name := some name } = .error e ↔
      l.updateTargetObjectForNodeName name node.targetObject = .error e)
  throwsOnly : ∀ e, l.updateTargetObjectForNodeName name node.targetObject = .error e →
    l.initialChannelUpdate { node with name := some name } = .error e

theorem routesAgree_of_parsed {l : LayersListModel} {node : WireplumberNode} {name : String} {i : Nat}
    {c : Char} (h : parsePmxInputName name = some (i, c)) : RoutesAgree l node name := by
  have hname : ({ node with name := some name } : WireplumberNode).name = some name := rfl
  obtain ⟨hfound, hmissing⟩ := routes_of_parsed l hname h
  by_cases hindex : 0 ≤ layerIndex c ∧ layerIndex c < l.layers.length
  · obtain ⟨hinitial, hupdate⟩ := hfound hindex
    simp only at hupdate
    refine ⟨fun l₁ hl₁ => ⟨_, hupdate, fun r => ?_⟩, fun l₂ hl₂ r hr => ?_, fun _ e => ?_, fun e he => ?_⟩
    · obtain rfl := Except.ok.inj (hinitial.symm.trans hl₁)
      by_cases hr : r = ⟨(layerIndex c).toNat, .input, i⟩
      · subst hr
        rw [if_pos rfl, updateFromNode, targetAt_modifyStrip_self, targetAt_modifyStrip_self]
      · rw [updateFromNode, targetAt_modifyStrip_of_ne l hr, targetAt_modifyStrip_of_ne l hr, ite_self]
    · obtain rfl := Except.ok.inj (hupdate.symm.trans hl₂)
      exact targetAt_modifyStrip_of_ne l (fun heq => hr (congrArg StripRef.kind heq)) _
    · rw [hinitial, hupdate]
      exact iff_of_false (fun he => by cases he) (fun he => by cases he)
    · rw [hupdate] at he
      cases he
  · obtain ⟨hinitial, hupdate⟩ := hmissing hindex
    simp only at hupdate
    refine ⟨fun l₁ hl₁ => ?_, fun l₂ hl₂ => ?_, fun _ e => ?_, fun e he => ?_⟩
    · rw [hinitial] at hl₁
      cases hl₁
    · rw [hupdate] at hl₂
      cases hl₂
    · rw [hinitial, hupdate]
    · rw [hinitial, ← hupdate, he]

theorem routesAgree_of_not_parsed {l : LayersListModel} {node : WireplumberNode} {name : String}
    (h : parsePmxInputName name = none) : RoutesAgree l node name := by
  have hupdate : l.updateTargetObjectForNodeName name node.targetObject = .ok l := by
    rw [updateTargetObjectForNodeName, h]
  refine ⟨fun l₁ hl₁ => ⟨l, hupdate, fun r => ?_⟩, fun l₂ hl₂ r _ => ?_, fun hcase e => ?_, fun e he => ?_⟩
  · have heq := initialChannelUpdate_ok hl₁
    rw [Option.bind_some] at heq
    split
    · next hr =>
      cases haddressed : addressed name with
      | none =>
        rw [haddressed] at heq
        rw [heq]
      | some q =>
        have hkind := kind_ne_input_of_addressed haddressed h
        have hrq : r ≠ q := fun hrq => hkind (hrq ▸ hr)
        rw [haddressed] at heq
        rw [heq]
        exact (targetAt_modifyStrip_of_ne l hrq _).symm
    · rfl
  · obtain rfl := Except.ok.inj (hupdate.symm.trans hl₂)
    rfl
  · rcases hcase with hparsed | hfamily
    · rw [h] at hparsed
      cases hparsed
    · have hinitial : l.initialChannelUpdate { node with name := some name } = .ok l := by
        rw [initialChannelUpdate_eq rfl, hfamily]
      rw [hinitial, hupdate]
  · rw [hupdate] at he
    cases he

/-- **The two ways lead to the same input strip**, and the later one to no other. -/
theorem routes_agree_on_inputs (l : LayersListModel) (node : WireplumberNode) (name : String) :
    RoutesAgree l node name := by
  cases h : parsePmxInputName name with
  | some p => exact routesAgree_of_parsed h
  | none => exact routesAgree_of_not_parsed h

/-- A target for a group's strip comes with the first update only. -/
theorem group_target_not_updated : ¬ ∀ (l : LayersListModel) (node : WireplumberNode) (name : String)
    (l₁ l₂ : LayersListModel), l.initialChannelUpdate { node with name := some name } = .ok l₁ →
      l.updateTargetObjectForNodeName name node.targetObject = .ok l₂ →
        ∀ r, l₂.targetAt r = l₁.targetAt r := by
  intro h
  let strip : ChannelStripModel := {}
  have hsame := h ⟨[⟨"Layer 0", ⟨[strip]⟩, ⟨[strip]⟩, ⟨[strip]⟩⟩]⟩ { targetObject := some "66" }
    "pmx-group-00-a-input" _ _ rfl rfl ⟨0, .group, 0⟩
  exact absurd hsame (by decide)

end LayersListModel

end Kpmx
