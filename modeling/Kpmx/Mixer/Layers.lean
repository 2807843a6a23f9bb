import Kpmx.Mixer.PortNames
import Kpmx.Mixer.StripList

/-!
# The layers of the mixer

`LayersListModel` holds the layers, each with its three lists of strips; `initialChannelUpdate` and
`updateTargetObjectForNodeName` are the two handlers that find a strip by a node's name. `addressed`
says which strip a name stands for.

* `strip?_modifyStrip` : an update of one strip leaves every other strip alone;
* `initialChannelUpdate_ok`, `updateTargetObjectForNodeName_ok` : a handler that returns has updated
  the addressed strip and nothing else.
-/

namespace Kpmx

structure LayerModel where
  name : String
  inputChannels : ChannelStripListModel
  groupChannels : ChannelStripListModel
  layerChannels : ChannelStripListModel

structure LayersListModel where
  layers : List LayerModel := []

/-- The lists of a layer. -/
inductive ChannelKind where
  | input
  | group
  | layer
  deriving DecidableEq

/-- Where a strip is: its layer, its list there and its index in the list. -/
structure StripRef where
  layer : Nat
  kind : ChannelKind
  index : Nat
  deriving DecidableEq

namespace LayerModel

def channels (l : LayerModel) : ChannelKind → ChannelStripListModel
  | .input => l.inputChannels
  | .group => l.groupChannels
  | .layer => l.layerChannels

def modifyChannels (l : LayerModel) (kind : ChannelKind)
    (f : ChannelStripListModel → ChannelStripListModel) : LayerModel :=
  match kind with
  | .input => { l with inputChannels := f l.inputChannels }
  | .group => { l with groupChannels := f l.groupChannels }
  | .layer => { l with layerChannels := f l.layerChannels }

theorem channels_modifyChannels (l : LayerModel) (kind kind' : ChannelKind)
    (f : ChannelStripListModel → ChannelStripListModel) :
    (l.modifyChannels kind f).channels kind' =
      if kind' = kind then f (l.channels kind) else l.channels kind' := by
  cases kind <;> cases kind' <;> rfl

end LayerModel

namespace LayersListModel

/-- `_layers.at(layer_index)`, then a call on one of the layer's lists. A negative index is converted
to one past the end. -/
def onChannels (l : LayersListModel) (layerIndex : Int) (kind : ChannelKind)
    (f : ChannelStripListModel → ChannelStripListModel) : Except StdException LayersListModel :=
  if 0 ≤ layerIndex ∧ layerIndex < l.layers.length then
    .ok { layers := l.layers.modify layerIndex.toNat fun layer => layer.modifyChannels kind f }
  else .error .outOfRange

def updateInputChannelTargetObject (l : LayersListModel) (layerIndex : Int) (channelIndex : Nat)
    (targetObject : Option String) : Except StdException LayersListModel :=
  l.onChannels layerIndex .input fun channels => channels.updateTargetObject channelIndex targetObject

def initialInputChannelUpdate (l : LayersListModel) (layerIndex : Int) (channelIndex : Nat)
    (node : WireplumberNode) : Except StdException LayersListModel :=
  l.onChannels layerIndex .input fun channels => channels.updateFromWireplumberNode channelIndex node

def initialGroupChannelUpdate (l : LayersListModel) (layerIndex : Int) (groupIndex : Nat)
    (node : WireplumberNode) : Except StdException LayersListModel :=
  l.onChannels layerIndex .group fun channels => channels.updateFromWireplumberNode groupIndex node

def initialLayerChannelUpdate (l : LayersListModel) (layerIndex : Int) (node : WireplumberNode) :
    Except StdException LayersListModel :=
  l.onChannels layerIndex .layer fun channels => channels.updateFromWireplumberNode 0 node

/-- `PerformanceMixerModel::update_target_object_for_node_name`. -/
def updateTargetObjectForNodeName (l : LayersListModel) (nodeName : String)
    (targetObject : Option String) : Except StdException LayersListModel :=
  match parsePmxInputName nodeName with
  | some (inputChannelId, layerChar) =>
    l.updateInputChannelTargetObject (layerIndex layerChar) inputChannelId targetObject
  | none => .ok l

/-- `PerformanceMixerModel::initial_channel_update`. -/
def initialChannelUpdate (l : LayersListModel) (node : WireplumberNode) :
    Except StdException LayersListModel :=
  match node.name with
  | none => .ok l
  | some name =>
    if startsWith name "pmx-input-" ∧ endsWith name "-input" then
      match parsePmxInputName name with
      | some (inputChannelId, layerChar) =>
        l.initialInputChannelUpdate (layerIndex layerChar) inputChannelId node
      | none => .error .badOptionalAccess
    else if startsWith name "pmx-group-" ∧ endsWith name "-input" then
      match parsePmxGroupName name with
      | some (groupChannelId, layerChar) =>
        l.initialGroupChannelUpdate (layerIndex layerChar) groupChannelId node
      | none => .error .badOptionalAccess
    else if startsWith name "pmx-layer-" ∧ endsWith name "-input" then
      l.initialLayerChannelUpdate (layerIndex (layerChar name)) node
    else .ok l

/-! ## Strips by place -/

def strip? (l : LayersListModel) (r : StripRef) : Option ChannelStripModel :=
  l.layers[r.layer]?.bind fun layer => (layer.channels r.kind).channelStrips[r.index]?

/-- The object id of the strip at a place, if there is one. -/
def objectIdAt (l : LayersListModel) (r : StripRef) : Option Int32 :=
  (l.strip? r).bind ChannelStripModel.objectId

/-- Update the strip at a place; where there is none nothing changes. -/
def modifyStrip (l : LayersListModel) (r : StripRef) (f : ChannelStripModel → ChannelStripModel) :
    LayersListModel where
  layers := l.layers.modify r.layer fun layer =>
    layer.modifyChannels r.kind fun channels => channels.modifyStrip r.index f

theorem strip?_modifyStrip (l : LayersListModel) (r q : StripRef)
    (f : ChannelStripModel → ChannelStripModel) :
    (l.modifyStrip r f).strip? q = if q = r then (l.strip? r).map f else l.strip? q := by
  obtain ⟨rl, rk, ri⟩ := r
  obtain ⟨ql, qk, qi⟩ := q
  simp only [strip?, modifyStrip, List.getElem?_modify, StripRef.mk.injEq, Option.map_eq_map]
  by_cases hl : rl = ql
  · subst hl
    cases l.layers[rl]? with
    | none => simp
    | some layer =>
      simp only [if_true, Option.map_some, Option.bind_some, LayerModel.channels_modifyChannels,
        true_and]
      by_cases hk : qk = rk
      · subst hk
        simp only [if_true, ChannelStripListModel.modifyStrip, List.getElem?_modify,
          Option.map_eq_map, true_and]
        by_cases hi : ri = qi
        · simp [hi]
        · simp [hi, Ne.symm hi]
      · simp [hk]
  · simp [hl, Ne.symm hl]

theorem objectIdAt_modifyStrip (l : LayersListModel) (r q : StripRef)
    {f : ChannelStripModel → ChannelStripModel} (hf : ∀ strip, (f strip).objectId = strip.objectId) :
    (l.modifyStrip r f).objectIdAt q = l.objectIdAt q := by
  unfold objectIdAt
  rw [strip?_modifyStrip]
  split
  · next hq => subst hq; cases l.strip? q <;> simp [hf]
  · rfl

/-! ## The strip that a name stands for -/

/-- The strip addressed by a node's name, whether or not the mixer has it. -/
def addressed (name : String) : Option StripRef :=
  if startsWith name "pmx-input-" ∧ endsWith name "-input" then
    (parsePmxInputName name).map fun p => ⟨(layerIndex p.2).toNat, .input, p.1⟩
  else if startsWith name "pmx-group-" ∧ endsWith name "-input" then
    (parsePmxGroupName name).map fun p => ⟨(layerIndex p.2).toNat, .group, p.1⟩
  else if startsWith name "pmx-layer-" ∧ endsWith name "-input" then
    if 0 ≤ layerIndex (layerChar name) then some ⟨(layerIndex (layerChar name)).toNat, .layer, 0⟩
    else none
  else none

theorem onChannels_ok {l l' : LayersListModel} {layerIndex : Int} {kind : ChannelKind}
    {f : ChannelStripListModel → ChannelStripListModel} (h : l.onChannels layerIndex kind f = .ok l') :
    0 ≤ layerIndex ∧
      l' = { layers := l.layers.modify layerIndex.toNat fun layer => layer.modifyChannels kind f } := by
  unfold onChannels at h
  split at h
  · next hindex => cases h; exact ⟨hindex.1, rfl⟩
  · cases h

/-- A strip takes over the id and the target of its node. -/
def updateFromNode (l : LayersListModel) (r : StripRef) (node : WireplumberNode) : LayersListModel :=
  l.modifyStrip r fun strip => { strip with objectId := node.id, targetObject := node.targetObject }

theorem initialUpdate_ok {l l' : LayersListModel} {layerIndex : Int} {kind : ChannelKind}
    {index : Nat} {node : WireplumberNode}
    (h : l.onChannels layerIndex kind (fun channels => channels.updateFromWireplumberNode index node) =
      .ok l') : 0 ≤ layerIndex ∧ l' = l.updateFromNode ⟨layerIndex.toNat, kind, index⟩ node := by
  obtain ⟨hindex, rfl⟩ := onChannels_ok h
  refine ⟨hindex, ?_⟩
  simp only [ChannelStripListModel.updateFromWireplumberNode_eq]
  rfl

theorem initialChannelUpdate_ok {l l' : LayersListModel} {node : WireplumberNode}
    (h : l.initialChannelUpdate node = .ok l') :
    l' = match node.name.bind addressed with
      | some r => l.updateFromNode r node
      | none => l := by
  unfold initialChannelUpdate at h
  cases hname : node.name with
  | none =>
    rw [hname] at h
    cases h
    rfl
  | some name =>
    simp only [hname] at h
    rw [Option.bind_some, addressed]
    by_cases hinput : startsWith name "pmx-input-" ∧ endsWith name "-input"
    · rw [if_pos hinput] at h ⊢
      cases hp : parsePmxInputName name with
      | none => rw [hp] at h; cases h
      | some p => rw [hp] at h; exact (initialUpdate_ok h).2
    rw [if_neg hinput] at h ⊢
    by_cases hgroup : startsWith name "pmx-group-" ∧ endsWith name "-input"
    · rw [if_pos hgroup] at h ⊢
      cases hp : parsePmxGroupName name with
      | none => rw [hp] at h; cases h
      | some p => rw [hp] at h; exact (initialUpdate_ok h).2
    rw [if_neg hgroup] at h ⊢
    by_cases hlayer : startsWith name "pmx-layer-" ∧ endsWith name "-input"
    · rw [if_pos hlayer] at h ⊢
      obtain ⟨hindex, rfl⟩ := initialUpdate_ok h
      rw [if_pos hindex]
    · rw [if_neg hlayer] at h ⊢
      cases h
      rfl

theorem updateTargetObjectForNodeName_ok {l l' : LayersListModel} {nodeName : String}
    {targetObject : Option String}
    (h : l.updateTargetObjectForNodeName nodeName targetObject = .ok l') :
    l' = match parsePmxInputName nodeName with
      | some (index, letter) => l.modifyStrip ⟨(layerIndex letter).toNat, .input, index⟩ fun strip =>
          { strip with targetObject := targetObject }
      | none => l := by
  unfold updateTargetObjectForNodeName at h
  cases hp : parsePmxInputName nodeName with
  | none => rw [hp] at h; cases h; rfl
  | some p =>
    rw [hp] at h
    obtain ⟨-, rfl⟩ := onChannels_ok h
    simp only [ChannelStripListModel.updateTargetObject_eq]
    rfl

theorem objectIdAt_updateTargetObjectForNodeName {l l' : LayersListModel} {nodeName : String}
    {targetObject : Option String}
    (h : l.updateTargetObjectForNodeName nodeName targetObject = .ok l') (r : StripRef) :
    l'.objectIdAt r = l.objectIdAt r := by
  rw [updateTargetObjectForNodeName_ok h]
  cases parsePmxInputName nodeName with
  | none => rfl
  | some p => exact l.objectIdAt_modifyStrip _ r fun _ => rfl

end LayersListModel

end Kpmx
