import Kpmx.Mixer.Layers

/-!
# The first update of a node and the strip it denotes

`initial_channel_update` recognises three families of names by a beginning and an ending. A name of a
family need not have the exact form of the names that denote a strip, and the layer it leads to need
not exist.

* `Denotes` : the exact form of a name, with the strip it stands for;
* `initialChannelUpdate_of_denotes` : a name that denotes an existing strip gives it the node;
* `touches_only_denoted_iff` : when the update returns and touches no other strip.
-/

namespace Kpmx

namespace LayersListModel

/-! ## Families and exact names -/

/-- The family of a name. -/
def family (name : String) : Option ChannelKind :=
  if startsWith name "pmx-input-" ∧ endsWith name "-input" then some .input
  else if startsWith name "pmx-group-" ∧ endsWith name "-input" then some .group
  else if startsWith name "pmx-layer-" ∧ endsWith name "-input" then some .layer
  else none

/-- The name is exactly that of a strip's node. -/
inductive Denotes (name : String) : StripRef → Prop where
  | input (d0 d1 c : Char) : d0.isDigit = true ∧ d1.isDigit = true → IsLower c →
      name.toList = "pmx-input-".toList ++ [d0, d1, '-', c] ++ "-input".toList →
      Denotes name ⟨(layerIndex c).toNat, .input, digitValue d0 * 10 + digitValue d1⟩
  | group (d0 d1 c : Char) : d0.isDigit = true ∧ d1.isDigit = true → IsLower c →
      name.toList = "pmx-group-".toList ++ [d0, d1, '-', c] ++ "-input".toList →
      Denotes name ⟨(layerIndex c).toNat, .group, digitValue d0 * 10 + digitValue d1⟩
  | layer (c : Char) : IsLower c → name.toList = "pmx-layer-".toList ++ [c] ++ "-input".toList →
      Denotes name ⟨(layerIndex c).toNat, .layer, 0⟩

theorem startsWith_of_toList {name start : String} {rest : List Char}
    (h : name.toList = start.toList ++ rest) : startsWith name start = true := by
  rw [startsWith, List.isPrefixOf_iff_prefix, h]
  exact List.prefix_append _ _

theorem endsWith_of_toList {name ending : String} {rest : List Char}
    (h : name.toList = rest ++ ending.toList) : endsWith name ending = true := by
  rw [endsWith, List.isSuffixOf_iff_suffix, h]
  exact List.suffix_append _ _

theorem family_input {name : String} {middle : List Char}
    (h : name.toList = "pmx-input-".toList ++ middle ++ "-input".toList) :
    family name = some .input := by
  have hstart := startsWith_of_toList (h.trans (List.append_assoc ..))
  rw [family, if_pos ⟨hstart, endsWith_of_toList h⟩]

theorem family_group {name : String} {middle : List Char}
    (h : name.toList = "pmx-group-".toList ++ middle ++ "-input".toList) :
    family name = some .group := by
  have hstart := startsWith_of_toList (h.trans (List.append_assoc ..))
  have hinput : startsWith name "pmx-input-" = false := by rw [startsWith, h]; rfl
  rw [family, if_neg (by simp [hinput]), if_pos ⟨hstart, endsWith_of_toList h⟩]

theorem family_layer {name : String} {middle : List Char}
    (h : name.toList = "pmx-layer-".toList ++ middle ++ "-input".toList) :
    family name = some .layer := by
  have hstart := startsWith_of_toList (h.trans (List.append_assoc ..))
  have hinput : startsWith name "pmx-input-" = false := by rw [startsWith, h]; rfl
  have hgroup : startsWith name "pmx-group-" = false := by rw [startsWith, h]; rfl
  rw [family, if_neg (by simp [hinput]), if_neg (by simp [hgroup]),
    if_pos ⟨hstart, endsWith_of_toList h⟩]

theorem layerIndex_nonneg {c : Char} (h : IsLower c) : 0 ≤ layerIndex c := by
  have hlo : 'a'.toNat ≤ c.toNat := h.1
  have hhi : c.toNat ≤ 'z'.toNat := h.2
  have ha : 'a'.toNat = 97 := rfl
  have hz : 'z'.toNat = 122 := rfl
  rw [layerIndex, charValue, charValue, if_pos (by omega), if_pos (by omega)]
  omega

theorem addressed_eq (name : String) : addressed name = match family name with
    | some .input => (parsePmxInputName name).map fun p => ⟨(layerIndex p.2).toNat, .input, p.1⟩
    | some .group => (parsePmxGroupName name).map fun p => ⟨(layerIndex p.2).toNat, .group, p.1⟩
    | some .layer => if 0 ≤ layerIndex (layerChar name) then
        some ⟨(layerIndex (layerChar name)).toNat, .layer, 0⟩ else none
    | none => none := by
  unfold addressed family
  by_cases hinput : startsWith name "pmx-input-" ∧ endsWith name "-input"
  · rw [if_pos hinput, if_pos hinput]
  rw [if_neg hinput, if_neg hinput]
  by_cases hgroup : startsWith name "pmx-group-" ∧ endsWith name "-input"
  · rw [if_pos hgroup, if_pos hgroup]
  rw [if_neg hgroup, if_neg hgroup]
  by_cases hlayer : startsWith name "pmx-layer-" ∧ endsWith name "-input"
  · rw [if_pos hlayer, if_pos hlayer]
  · rw [if_neg hlayer, if_neg hlayer]

theorem addressed_of_denotes {name : String} {r : StripRef} (h : Denotes name r) :
    addressed name = some r := by
  rw [addressed_eq]
  cases h with
  | input d0 d1 c hdigits hlower hname =>
    have hparse : parsePmxInputName name = some (digitValue d0 * 10 + digitValue d1, c) :=
      parsePmxName_eq_some_iff.mpr ⟨hlower, d0, d1, hdigits, rfl, hname⟩
    rw [family_input hname]
    simp only [hparse, Option.map_some]
  | group d0 d1 c hdigits hlower hname =>
    have hparse : parsePmxGroupName name = some (digitValue d0 * 10 + digitValue d1, c) :=
      parsePmxName_eq_some_iff.mpr ⟨hlower, d0, d1, hdigits, rfl, hname⟩
    rw [family_group hname]
    simp only [hparse, Option.map_some]
  | layer c hlower hname =>
    have hchar : layerChar name = c := by rw [layerChar, hname]; rfl
    rw [family_layer hname]
    simp only [hchar, if_pos (layerIndex_nonneg hlower)]

/-- Input and group names that lead to a strip have the exact form. -/
theorem denotes_of_addressed {name : String} {r : StripRef} (h : addressed name = some r)
    (hfamily : family name ≠ some .layer) : Denotes name r := by
  rw [addressed_eq] at h
  split at h
  · obtain ⟨⟨i, c⟩, hparse, rfl⟩ := Option.map_eq_some_iff.mp h
    obtain ⟨hlower, d0, d1, hdigits, rfl, hname⟩ := parsePmxName_eq_some_iff.mp hparse
    exact .input d0 d1 c hdigits hlower hname
  · obtain ⟨⟨i, c⟩, hparse, rfl⟩ := Option.map_eq_some_iff.mp h
    obtain ⟨hlower, d0, d1, hdigits, rfl, hname⟩ := parsePmxName_eq_some_iff.mp hparse
    exact .group d0 d1 c hdigits hlower hname
  · next hlayer => exact absurd hlayer hfamily
  · cases h

/-! ## When the update returns -/

/-- The family's handler finds a letter in the name, and the layer of the letter exists. -/
def LeadsToLayer (l : LayersListModel) (name : String) : Prop :=
  match family name with
  | some .input => ∃ p, parsePmxInputName name = some p ∧ layerIndex p.2 < l.layers.length
  | some .group => ∃ p, parsePmxGroupName name = some p ∧ layerIndex p.2 < l.layers.length
  | some .layer => 0 ≤ layerIndex (layerChar name) ∧ layerIndex (layerChar name) < l.layers.length
  | none => True

theorem onChannels_isOk_iff {l : LayersListModel} {layerIndex : Int} {kind : ChannelKind}
    {f : ChannelStripListModel → ChannelStripListModel} :
    (∃ l', l.onChannels layerIndex kind f = .ok l') ↔
      0 ≤ layerIndex ∧ layerIndex < l.layers.length := by
  unfold onChannels
  by_cases hindex : 0 ≤ layerIndex ∧ layerIndex < l.layers.length
  · rw [if_pos hindex]
    exact ⟨fun _ => hindex, fun _ => ⟨_, rfl⟩⟩
  · rw [if_neg hindex]
    exact ⟨fun ⟨_, h⟩ => absurd h (by simp), fun h => absurd h hindex⟩

theorem initialChannelUpdate_eq {l : LayersListModel} {node : WireplumberNode} {name : String}
    (hname : node.name = some name) : l.initialChannelUpdate node = match family name with
    | some .input => match parsePmxInputName name with
      | some (inputChannelId, layerChar) =>
        l.initialInputChannelUpdate (layerIndex layerChar) inputChannelId node
      | none => .error .badOptionalAccess
    | some .group => match parsePmxGroupName name with
      | some (groupChannelId, layerChar) =>
        l.initialGroupChannelUpdate (layerIndex layerChar) groupChannelId node
      | none => .error .badOptionalAccess
    | some .layer => l.initialLayerChannelUpdate (layerIndex (layerChar name)) node
    | none => .ok l := by
  unfold initialChannelUpdate family
  simp only [hname]
  by_cases hinput : startsWith name "pmx-input-" ∧ endsWith name "-input"
  · cases parsePmxInputName name <;> simp only [if_pos hinput]
  rw [if_neg hinput, if_neg hinput]
  by_cases hgroup : startsWith name "pmx-group-" ∧ endsWith name "-input"
  · cases parsePmxGroupName name <;> simp only [if_pos hgroup]
  rw [if_neg hgroup, if_neg hgroup]
  by_cases hlayer : startsWith name "pmx-layer-" ∧ endsWith name "-input"
  · rw [if_pos hlayer, if_pos hlayer]
  · rw [if_neg hlayer, if_neg hlayer]

/-- A parsed letter is a lower-case one, so only its layer's existence is in question. -/
theorem onChannels_parsed_isOk_iff {l : LayersListModel} {start name : String} {kind : ChannelKind}
    {node : WireplumberNode} :
    (∃ l', (match parsePmxName start name with
      | some (index, layerChar) => l.onChannels (layerIndex layerChar) kind fun channels =>
          channels.updateFromWireplumberNode index node
      | none => .error .badOptionalAccess) = .ok l') ↔
    ∃ p, parsePmxName start name = some p ∧ layerIndex p.2 < l.layers.length := by
  cases hparse : parsePmxName start name with
  | none => simp
  | some p =>
    obtain ⟨i, c⟩ := p
    have hlower := (parsePmxName_eq_some_iff.mp hparse).1
    refine onChannels_isOk_iff.trans ⟨fun h => ⟨(i, c), rfl, h.2⟩, ?_⟩
    rintro ⟨p, hp, hlt⟩
    obtain rfl := Option.some.inj hp
    exact ⟨layerIndex_nonneg hlower, hlt⟩

theorem initialChannelUpdate_isOk_iff {l : LayersListModel} {node : WireplumberNode} {name : String}
    (hname : node.name = some name) :
    (∃ l', l.initialChannelUpdate node = .ok l') ↔ LeadsToLayer l name := by
  rw [initialChannelUpdate_eq hname, LeadsToLayer]
  cases family name with
  | none => exact ⟨fun _ => trivial, fun _ => ⟨l, rfl⟩⟩
  | some kind =>
    cases kind with
    | input => exact onChannels_parsed_isOk_iff
    | group => exact onChannels_parsed_isOk_iff
    | layer => exact onChannels_isOk_iff

theorem layer_lt_of_strip? {l : LayersListModel} {r : StripRef} (h : (l.strip? r).isSome = true) :
    r.layer < l.layers.length := by
  by_contra hle
  rw [strip?, List.getElem?_eq_none (by omega)] at h
  cases h

/-- **A name that denotes an existing strip** gives the node to exactly this strip. -/
theorem initialChannelUpdate_of_denotes {l : LayersListModel} {node : WireplumberNode} {name : String}
    {r : StripRef} (hname : node.name = some name) (hdenotes : Denotes name r)
    (hstrip : (l.strip? r).isSome = true) :
    l.initialChannelUpdate node = .ok (l.updateFromNode r node) := by
  have hlayer := layer_lt_of_strip? hstrip
  have hleads : LeadsToLayer l name := by
    rw [LeadsToLayer]
    cases hdenotes with
    | input d0 d1 c hdigits hlower hform =>
      have hnonneg := layerIndex_nonneg hlower
      rw [family_input hform]
      refine ⟨_, parsePmxName_eq_some_iff.mpr ⟨hlower, d0, d1, hdigits, rfl, hform⟩, ?_⟩
      simp only at hlayer ⊢
      omega
    | group d0 d1 c hdigits hlower hform =>
      have hnonneg := layerIndex_nonneg hlower
      rw [family_group hform]
      refine ⟨_, parsePmxName_eq_some_iff.mpr ⟨hlower, d0, d1, hdigits, rfl, hform⟩, ?_⟩
      simp only at hlayer ⊢
      omega
    | layer c hlower hform =>
      have hnonneg := layerIndex_nonneg hlower
      have hchar : layerChar name = c := by rw [layerChar, hform]; rfl
      rw [family_layer hform]
      simp only [hchar] at hlayer ⊢
      exact ⟨hnonneg, by omega⟩
  obtain ⟨l', hl'⟩ := (initialChannelUpdate_isOk_iff hname).mpr hleads
  have heq := initialChannelUpdate_ok hl'
  rw [hname, Option.bind_some, addressed_of_denotes hdenotes] at heq
  rw [hl', heq]

/-- A target for a name that denotes an existing input strip reaches exactly this strip. -/
theorem updateTargetObjectForNodeName_of_denotes {l : LayersListModel} {name : String} {r : StripRef}
    (hdenotes : Denotes name r) (hkind : r.kind = .input) (hstrip : (l.strip? r).isSome = true)
    (targetObject : Option String) : l.updateTargetObjectForNodeName name targetObject =
      .ok (l.modifyStrip r fun strip => { strip with targetObject := targetObject }) := by
  have hlayer := layer_lt_of_strip? hstrip
  cases hdenotes with
  | input d0 d1 c hdigits hlower hform =>
    have hparse : parsePmxInputName name = some (digitValue d0 * 10 + digitValue d1, c) :=
      parsePmxName_eq_some_iff.mpr ⟨hlower, d0, d1, hdigits, rfl, hform⟩
    have hnonneg := layerIndex_nonneg hlower
    have hfound : ∃ l', l.updateInputChannelTargetObject (layerIndex c)
        (digitValue d0 * 10 + digitValue d1) targetObject = .ok l' :=
      onChannels_isOk_iff.mpr ⟨hnonneg, by simp only at hlayer; omega⟩
    obtain ⟨l', hl'⟩ := hfound
    have hok : l.updateTargetObjectForNodeName name targetObject = .ok l' := by
      rw [updateTargetObjectForNodeName, hparse]
      exact hl'
    have heq := updateTargetObjectForNodeName_ok hok
    rw [hparse] at heq
    rw [hok, heq]
  | group => cases hkind
  | layer => cases hkind

/-! ## What the update touches -/

/-- What a strip becomes when it takes a node over. -/
def takes (node : WireplumberNode) (strip : ChannelStripModel) : ChannelStripModel :=
  { strip with objectId := node.id, targetObject := node.targetObject }

/-- The node's name is exactly that of the strip's node. -/
def NodeDenotes (node : WireplumberNode) (r : StripRef) : Prop :=
  ∃ name, node.name = some name ∧ Denotes name r

/-- The update returns, gives the node to the strip that its name denotes, if there is one, and leaves
every other strip alone. -/
def TouchesOnlyDenoted (l : LayersListModel) (node : WireplumberNode) : Prop :=
  ∃ l', l.initialChannelUpdate node = .ok l' ∧ ∀ r,
    (NodeDenotes node r → l'.strip? r = (l.strip? r).map (takes node)) ∧
    (¬ NodeDenotes node r → l'.strip? r = l.strip? r)

/-- The handler finds an existing layer; and a layer name that is not of the exact form leads to a strip
that has the node already. -/
def Handled (l : LayersListModel) (node : WireplumberNode) : Prop :=
  ∀ name, node.name = some name → LeadsToLayer l name ∧
    (family name = some .layer → (∃ r, Denotes name r) ∨
      ∀ strip, l.strip? ⟨(layerIndex (layerChar name)).toNat, .layer, 0⟩ = some strip →
        takes node strip = strip)

theorem addressed_of_layer {l : LayersListModel} {name : String} (hleads : LeadsToLayer l name)
    (hfamily : family name = some .layer) :
    addressed name = some ⟨(layerIndex (layerChar name)).toNat, .layer, 0⟩ := by
  rw [LeadsToLayer, hfamily] at hleads
  rw [addressed_eq, hfamily]
  exact if_pos hleads.1

theorem strip?_updateFromNode (l : LayersListModel) (r q : StripRef) (node : WireplumberNode) :
    (l.updateFromNode r node).strip? q =
      if q = r then (l.strip? r).map (takes node) else l.strip? q :=
  l.strip?_modifyStrip r q _

theorem nodeDenotes_iff {node : WireplumberNode} {name : String} (hname : node.name = some name)
    (r : StripRef) : NodeDenotes node r ↔ Denotes name r := by
  constructor
  · rintro ⟨name', hname', hdenotes⟩
    obtain rfl := Option.some.inj (hname.symm.trans hname')
    exact hdenotes
  · exact fun hdenotes => ⟨name, hname, hdenotes⟩

theorem handled_of_touches {l : LayersListModel} {node : WireplumberNode}
    (h : TouchesOnlyDenoted l node) : Handled l node := by
  obtain ⟨l', hl', htouches⟩ := h
  intro name hname
  have hleads := (initialChannelUpdate_isOk_iff hname).mp ⟨l', hl'⟩
  refine ⟨hleads, fun hfamily => ?_⟩
  by_cases hdenotes : ∃ r, Denotes name r
  · exact .inl hdenotes
  · refine .inr fun strip hstrip => ?_
    have haddressed := addressed_of_layer hleads hfamily
    have heq := initialChannelUpdate_ok hl'
    rw [hname, Option.bind_some, haddressed] at heq
    have hnot : ∀ r, ¬ NodeDenotes node r := fun r h =>
      hdenotes ⟨r, (nodeDenotes_iff hname r).mp h⟩
    have hsame := (htouches ⟨(layerIndex (layerChar name)).toNat, .layer, 0⟩).2 (hnot _)
    rw [heq, strip?_updateFromNode, if_pos rfl, hstrip] at hsame
    exact Option.some.inj hsame

theorem touches_of_no_name (l : LayersListModel) {node : WireplumberNode} (hname : node.name = none) :
    TouchesOnlyDenoted l node := by
  have hnot : ∀ r, ¬ NodeDenotes node r := by
    rintro r ⟨name, h, -⟩
    rw [hname] at h
    cases h
  have hok : l.initialChannelUpdate node = .ok l := by rw [initialChannelUpdate, hname]
  exact ⟨l, hok, fun r => ⟨fun h => absurd h (hnot r), fun _ => rfl⟩⟩

/-- The strip that a handled name addresses without denoting it has the node already. -/
theorem takes_eq_of_not_denotes {l : LayersListModel} {node : WireplumberNode} {name : String}
    {r : StripRef} (hhandled : Handled l node) (hname : node.name = some name)
    (haddressed : addressed name = some r) (hdenotes : ¬ Denotes name r) {strip : ChannelStripModel}
    (hstrip : l.strip? r = some strip) : takes node strip = strip := by
  obtain ⟨hleads, hlayer⟩ := hhandled name hname
  have hfamily : family name = some .layer := by
    by_contra hfamily
    exact hdenotes (denotes_of_addressed haddressed hfamily)
  obtain rfl := Option.some.inj (haddressed.symm.trans (addressed_of_layer hleads hfamily))
  rcases hlayer hfamily with ⟨q, hq⟩ | hsame
  · obtain rfl := Option.some.inj (haddressed.symm.trans (addressed_of_denotes hq))
    exact absurd hq hdenotes
  · exact hsame strip hstrip

theorem touches_of_handled {l : LayersListModel} {node : WireplumberNode} (h : Handled l node) :
    TouchesOnlyDenoted l node := by
  cases hname : node.name with
  | none => exact touches_of_no_name l hname
  | some name =>
    obtain ⟨l', hl'⟩ := (initialChannelUpdate_isOk_iff hname).mpr (h name hname).1
    have heq := initialChannelUpdate_ok hl'
    rw [hname, Option.bind_some] at heq
    refine ⟨l', hl', fun r => ?_⟩
    rw [nodeDenotes_iff hname]
    refine ⟨fun hdenotes => ?_, fun hdenotes => ?_⟩
    · rw [addressed_of_denotes hdenotes] at heq
      rw [heq, strip?_updateFromNode, if_pos rfl]
    · cases haddressed : addressed name with
      | none => rw [haddressed] at heq; rw [heq]
      | some q =>
        rw [haddressed] at heq
        rw [heq, strip?_updateFromNode]
        split
        · next hrq =>
          subst hrq
          cases hstrip : l.strip? r with
          | none => rfl
          | some strip =>
            rw [Option.map_some, takes_eq_of_not_denotes h hname haddressed hdenotes hstrip]
        · rfl

/-- **The first update touches only the strip the name denotes**, and returns, exactly when the name
is handled. -/
theorem touches_only_denoted_iff (l : LayersListModel) (node : WireplumberNode) :
    TouchesOnlyDenoted l node ↔ Handled l node :=
  ⟨handled_of_touches, touches_of_handled⟩

/-- A mixer with one layer, and a node of a second one. -/
theorem missing_layer_throws : ¬ ∀ (l : LayersListModel) (node : WireplumberNode),
    (∀ layer ∈ l.layers, layer.layerChannels.channelStrips.length = 1) → TouchesOnlyDenoted l node := by
  intro h
  let strip : ChannelStripModel := {}
  obtain ⟨l', hl', -⟩ := h ⟨[⟨"Layer 0", ⟨[strip]⟩, ⟨[strip]⟩, ⟨[strip]⟩⟩]⟩
    { id := some 42, objectSerial := some 7, name := some "pmx-input-00-b-input" } (by simp)
  have herror : LayersListModel.initialChannelUpdate ⟨[⟨"Layer 0", ⟨[strip]⟩, ⟨[strip]⟩, ⟨[strip]⟩⟩]⟩
      { id := some 42, objectSerial := some 7, name := some "pmx-input-00-b-input" } =
        .error .outOfRange := rfl
  rw [herror] at hl'
  cases hl'

end LayersListModel

end Kpmx
