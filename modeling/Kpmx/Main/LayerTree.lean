import Kpmx.Main.Construction
import Kpmx.Mixer.InitialUpdate

/-!
# The layer tree and the names of the default setup

What `main` builds as a tree of layers, and whether the names of the default setup's nodes lead to the
strips built for them.

* `layersModel_construct` : the tree has the strips of the setup, all new;
* `resolved_iff` : the names lead to their strips exactly when there are at most a hundred inputs.
-/

namespace Kpmx

/-- The names of a layer's strips. -/
def Setup.LayerSetup.names (l : Setup.LayerSetup) : Kpmx.LayerSetup where
  inputChannels := l.inputs.map Prod.fst
  groupChannels := l.groups.map Prod.fst

/-- The prefix of a channel of a layer. -/
def Setup.LayerSetup.prefixAt (l : Setup.LayerSetup) (kind : ChannelKind) (index : Nat) :
    Option String :=
  match kind with
  | .input => l.inputChannels[index]?.map InputChannelSetup.pipewireNodeNamePerfix
  | .group => l.groupChannels[index]?.map GroupChannelSetup.pipewireNodeNamePerfix
  | .layer => if index = 0 then some l.layerChannel.pipewireNodeNamePrefix else none

namespace Main

/-! ## The tree -/

namespace Objects

/-- The models of the lists of strips. -/
def models (o : Objects) : List ChannelStripListModel := o.stripLists.map StripListObject.model

def LayerObject.model (models : List ChannelStripListModel) (layer : LayerObject) : LayerModel where
  name := layer.name
  inputChannels := models.getD layer.inputChannels {}
  groupChannels := models.getD layer.groupChannels {}
  layerChannels := models.getD layer.layerChannels {}

/-- `LayersListModel` with its pointers followed. -/
def layersModel (o : Objects) : LayersListModel where
  layers := o.layers.map (LayerObject.model o.models)

theorem models_newStripList (o : Objects) :
    o.newStripList.models = o.models ++ [({} : ChannelStripListModel)] :=
  List.map_append

theorem models_addChannel (o : Objects) (list channelIndex : Nat) (name nodePrefix : String) :
    (o.addChannel list channelIndex name nodePrefix).models = o.models.modify list fun m =>
      { channelStrips := m.channelStrips ++ [{ name := name }] } := by
  apply List.ext_getElem?
  intro i
  simp only [models, addChannel, addSyncInfo, addChannelStrip, addControlData, List.getElem?_map,
    List.getElem?_modify]
  by_cases h : list = i
  · subst h
    cases o.stripLists[list]? <;> simp [StripListObject.addChannelStrip]
  · cases o.stripLists[i]? <;> simp [h]

theorem models_addChannels (list channelIndex : Nat) (channels : List (String × String))
    (o : Objects) : (addChannels list channelIndex channels o).models = o.models.modify list fun m =>
      { channelStrips := m.channelStrips ++
          (ChannelStripListModel.ofNames (channels.map Prod.fst)).channelStrips } := by
  induction channels generalizing channelIndex o with
  | nil =>
    have hid : (fun m : ChannelStripListModel => ({ channelStrips := m.channelStrips ++
        (ChannelStripListModel.ofNames []).channelStrips } : ChannelStripListModel)) = id := by
      funext m
      simp [ChannelStripListModel.ofNames]
    rw [addChannels, List.map_nil, hid, List.modify_id]
  | cons channel channels ih =>
    rw [addChannels, ih, models_addChannel, List.modify_modify_eq]
    congr 1
    funext m
    simp [ChannelStripListModel.ofNames]

theorem layers_addChannels (list channelIndex : Nat) (channels : List (String × String))
    (o : Objects) : (addChannels list channelIndex channels o).layers = o.layers := by
  induction channels generalizing channelIndex o with
  | nil => rfl
  | cons channel channels ih => rw [addChannels, ih]; rfl

theorem modify_append_singleton {α : Type} (l : List α) (a : α) (f : α → α) :
    (l ++ [a]).modify l.length f = l ++ [f a] := by
  apply List.ext_getElem?
  intro i
  rw [List.getElem?_modify, getElem?_append_singleton, getElem?_append_singleton]
  by_cases h : i = l.length
  · simp [h]
  · simp [h, Ne.symm h]

theorem length_models (o : Objects) : o.models.length = o.stripLists.length := List.length_map ..

theorem models_addChannels_newStripList {o : Objects} {list : Nat} (hlist : o.stripLists.length = list)
    (channelIndex : Nat) (channels : List (String × String)) :
    (addChannels list channelIndex channels o.newStripList).models =
      o.models ++ [.ofNames (channels.map Prod.fst)] := by
  rw [models_addChannels, models_newStripList, ← hlist, ← length_models, modify_append_singleton]
  rfl

theorem models_addLayer (layerIndex : Nat) (layerSetup : Setup.LayerSetup) (o : Objects) :
    (addLayer layerIndex layerSetup o).models = o.models ++
      [.ofNames layerSetup.names.inputChannels, .ofNames layerSetup.names.groupChannels,
        .ofNames ["Layer " ++ toString layerIndex]] := by
  let inputs := addChannels o.stripLists.length 0 layerSetup.inputs o.newStripList
  let groups := addChannels (o.stripLists.length + 1) 0 layerSetup.groups inputs.newStripList
  have hinputsLength : inputs.stripLists.length = o.stripLists.length + 1 := by
    rw [length_stripLists_addChannels, length_stripLists_newStripList]
  have hgroupsLength : groups.stripLists.length = o.stripLists.length + 2 := by
    rw [length_stripLists_addChannels, length_stripLists_newStripList, hinputsLength]
  have hinputs := models_addChannels_newStripList (rfl : o.stripLists.length = _) 0
    layerSetup.inputs
  have hgroups := models_addChannels_newStripList hinputsLength 0 layerSetup.groups
  have hlayer := models_addChannels_newStripList hgroupsLength layerIndex
    [("Layer " ++ toString layerIndex, layerSetup.layerChannel.pipewireNodeNamePrefix)]
  rw [hgroups, hinputs, List.append_assoc, List.append_assoc] at hlayer
  rw [addLayer_eq]
  exact hlayer

theorem layers_addLayer (layerIndex : Nat) (layerSetup : Setup.LayerSetup) (o : Objects) :
    (addLayer layerIndex layerSetup o).layers = o.layers ++
      [⟨"Layer " ++ toString layerIndex, o.stripLists.length, o.stripLists.length + 1,
        o.stripLists.length + 2⟩] := by
  rw [addLayer_eq]
  simp only [newStripList, layers_addChannels]

/-- The layers built so far, with the pointers of each to lists that exist. -/
structure Layered (done : List LayerModel) (o : Objects) : Prop where
  layers : o.layersModel.layers = done
  exist : ∀ layer ∈ o.layers, layer.inputChannels < o.models.length ∧
    layer.groupChannels < o.models.length ∧ layer.layerChannels < o.models.length

/-- The layer that `main` adds. -/
def newLayer (layerIndex : Nat) (layerSetup : Setup.LayerSetup) : LayerModel where
  name := "Layer " ++ toString layerIndex
  inputChannels := .ofNames layerSetup.names.inputChannels
  groupChannels := .ofNames layerSetup.names.groupChannels
  layerChannels := .ofNames ["Layer " ++ toString layerIndex]

theorem LayerObject.model_append {layer : LayerObject} {models : List ChannelStripListModel}
    (h : layer.inputChannels < models.length ∧ layer.groupChannels < models.length ∧
      layer.layerChannels < models.length) (more : List ChannelStripListModel) :
    LayerObject.model (models ++ more) layer = LayerObject.model models layer := by
  obtain ⟨hinputs, hgroups, hlayers⟩ := h
  simp only [LayerObject.model, List.getD_eq_getElem?_getD, List.getElem?_append_left hinputs,
    List.getElem?_append_left hgroups, List.getElem?_append_left hlayers]

theorem Layered.addLayer {done : List LayerModel} {o : Objects} (h : Layered done o)
    (layerIndex : Nat) (layerSetup : Setup.LayerSetup) :
    Layered (done ++ [newLayer layerIndex layerSetup]) (Objects.addLayer layerIndex layerSetup o) where
  layers := by
    have hold : o.layers.map (LayerObject.model (Objects.addLayer layerIndex layerSetup o).models) =
        done := by
      rw [← h.layers, models_addLayer]
      exact List.map_congr_left fun layer hlayer => LayerObject.model_append (h.exist layer hlayer) _
    rw [layersModel, layers_addLayer, List.map_append, hold, models_addLayer, ← length_models]
    simp [LayerObject.model, newLayer]
  exist := fun layer hlayer => by
    rw [length_models, length_stripLists_addLayer]
    rw [layers_addLayer] at hlayer
    rcases List.mem_append.mp hlayer with hlayer | hlayer
    · have hexist := h.exist layer hlayer
      rw [length_models] at hexist
      omega
    · rw [List.mem_singleton.mp hlayer]
      simp only
      omega

theorem Layered.addLayers {done : List LayerModel} {o : Objects} (h : Layered done o)
    (layerIndex : Nat) (layers : List Setup.LayerSetup) :
    Layered (done ++ layers.mapIdx fun i layerSetup => newLayer (layerIndex + i) layerSetup)
      (Objects.addLayers layerIndex layers o) := by
  induction layers generalizing done o layerIndex with
  | nil => rwa [List.mapIdx_nil, List.append_nil]
  | cons layerSetup layers ih =>
    have hrest := ih (h.addLayer layerIndex layerSetup) (layerIndex + 1)
    rw [List.mapIdx_cons, Objects.addLayers]
    simpa only [List.append_assoc, List.singleton_append, Nat.add_zero, Nat.add_assoc,
      Nat.add_comm 1] using hrest

end Objects

/-- **The tree that `main` builds** has the strips of the setup, all new. -/
theorem layersModel_construct (setup : Setup.MixerSetup) :
    (construct setup).layersModel = .ofSetup (setup.layers.map Setup.LayerSetup.names) := by
  have hstart : Objects.Layered [] {} := ⟨rfl, fun _ h => absurd h (by simp)⟩
  have hlayers := (hstart.addLayers 0 setup.layers).layers
  rw [List.nil_append] at hlayers
  have hmodel : (construct setup).layersModel = ⟨(construct setup).layersModel.layers⟩ := rfl
  rw [hmodel, construct, hlayers, LayersListModel.ofSetup, LayersListModel.mk.injEq]
  apply List.ext_getElem?
  intro i
  simp only [List.getElem?_mapIdx, List.getElem?_map, Option.map_map, Nat.zero_add]
  rfl

/-! ## The names lead to their strips -/

/-- The prefix of the channel whose strip is at a place of the tree. -/
def prefixAt (setup : Setup.MixerSetup) (r : StripRef) : Option String :=
  setup.layers[r.layer]?.bind fun layer => layer.prefixAt r.kind r.index

/-- The node of every channel is given to the strip built for the channel and to no other. -/
def Resolved (setup : Setup.MixerSetup) : Prop :=
  ∀ r nodePrefix, prefixAt setup r = some nodePrefix →
    ((construct setup).layersModel.strip? r).isSome = true ∧
    ∀ node : WireplumberNode, node.name = some (nodePrefix ++ "-input") →
      ∃ l, (construct setup).layersModel.initialChannelUpdate node = .ok l ∧ ∀ q,
        l.strip? q = if q = r then
            ((construct setup).layersModel.strip? r).map (LayersListModel.takes node)
          else (construct setup).layersModel.strip? q

theorem strip?_isSome_of_prefixAt {setup : Setup.MixerSetup} {r : StripRef} {nodePrefix : String}
    (h : prefixAt setup r = some nodePrefix) :
    ((construct setup).layersModel.strip? r).isSome = true := by
  obtain ⟨layer, hlayer, h⟩ := Option.bind_eq_some_iff.mp h
  rw [layersModel_construct, LayersListModel.strip?, LayersListModel.ofSetup, List.getElem?_mapIdx,
    List.getElem?_map, hlayer]
  simp only [Option.map_some, Option.bind_some]
  cases hkind : r.kind with
  | input =>
    rw [hkind] at h
    obtain ⟨c, hc, -⟩ := Option.map_eq_some_iff.mp h
    simp [LayerModel.channels, ChannelStripListModel.ofNames, Setup.LayerSetup.names,
      Setup.LayerSetup.inputs, (List.getElem?_eq_some_iff.mp hc).1]
  | group =>
    rw [hkind] at h
    obtain ⟨c, hc, -⟩ := Option.map_eq_some_iff.mp h
    simp [LayerModel.channels, ChannelStripListModel.ofNames, Setup.LayerSetup.names,
      Setup.LayerSetup.groups, (List.getElem?_eq_some_iff.mp hc).1]
  | layer =>
    rw [hkind, Setup.LayerSetup.prefixAt] at h
    split at h
    · next hindex => simp [LayerModel.channels, ChannelStripListModel.ofNames, hindex]
    · cases h

/-- Names that denote their strips lead to them. -/
theorem resolved_of_denotes {setup : Setup.MixerSetup}
    (h : ∀ r nodePrefix, prefixAt setup r = some nodePrefix →
      LayersListModel.Denotes (nodePrefix ++ "-input") r) : Resolved setup := by
  intro r nodePrefix hprefix
  have hstrip := strip?_isSome_of_prefixAt hprefix
  refine ⟨hstrip, fun node hname => ?_⟩
  exact ⟨_, LayersListModel.initialChannelUpdate_of_denotes hname (h r nodePrefix hprefix) hstrip,
    fun q => LayersListModel.strip?_updateFromNode ..⟩

theorem toList_numbered {i : Nat} (h : i < 100) (start : String) (c : Char) :
    (start ++ Setup.format02 i ++ "-" ++ String.singleton c ++ "-input").toList =
      start.toList ++ [Nat.digitChar (i / 10), Nat.digitChar (i % 10), '-', c] ++ "-input".toList := by
  simp only [String.toList_append, Setup.toList_format02_of_lt h, String.toList_singleton]
  simp

theorem denotes_input {i : Nat} (h : i < 100) {c : Char} (hlower : IsLower c) :
    LayersListModel.Denotes
      ("pmx-input-" ++ Setup.format02 i ++ "-" ++ String.singleton c ++ "-input")
      ⟨(layerIndex c).toNat, .input, i⟩ := by
  have hform := LayersListModel.Denotes.input _ _ c
    ⟨isDigit_digitChar (n := i / 10) (by omega), isDigit_digitChar (n := i % 10) (by omega)⟩ hlower
    (toList_numbered h "pmx-input-" c)
  rwa [digitValue_digitChar (by omega), digitValue_digitChar (by omega), Nat.div_add_mod'] at hform

theorem denotes_group {i : Nat} (h : i < 100) {c : Char} (hlower : IsLower c) :
    LayersListModel.Denotes
      ("pmx-group-" ++ Setup.format02 i ++ "-" ++ String.singleton c ++ "-input")
      ⟨(layerIndex c).toNat, .group, i⟩ := by
  have hform := LayersListModel.Denotes.group _ _ c
    ⟨isDigit_digitChar (n := i / 10) (by omega), isDigit_digitChar (n := i % 10) (by omega)⟩ hlower
    (toList_numbered h "pmx-group-" c)
  rwa [digitValue_digitChar (by omega), digitValue_digitChar (by omega), Nat.div_add_mod'] at hform

theorem denotes_layer {c : Char} (hlower : IsLower c) :
    LayersListModel.Denotes ("pmx-layer-" ++ String.singleton c ++ "-input")
      ⟨(layerIndex c).toNat, .layer, 0⟩ :=
  .layer c hlower (by simp [String.toList_append])

/-- The names of a default layer denote its strips as long as its inputs have two-digit numbers. -/
theorem denotes_of_defaultLayer {name : String} {c : Char} {firstIndex n g : Nat}
    {layer : Setup.LayerSetup}
    (h : Setup.defaultLayer name (String.singleton c) firstIndex n g = some layer)
    (hlower : IsLower c) (hn : n ≤ 100) {kind : ChannelKind} {index : Nat} {nodePrefix : String}
    (hp : layer.prefixAt kind index = some nodePrefix) :
    LayersListModel.Denotes (nodePrefix ++ "-input") ⟨(layerIndex c).toNat, kind, index⟩ := by
  obtain ⟨groups, hgroups, rfl⟩ := Option.map_eq_some_iff.mp h
  cases kind with
  | input =>
    obtain ⟨channel, hchannel, rfl⟩ := Option.map_eq_some_iff.mp hp
    obtain ⟨i, hi, rfl⟩ := List.getElem?_map .. ▸ hchannel |> Option.map_eq_some_iff.mp
    obtain ⟨hlt, rfl⟩ := List.getElem?_eq_some_iff.mp hi
    rw [List.length_range] at hlt
    rw [List.getElem_range]
    exact denotes_input (by omega) hlower
  | group =>
    obtain ⟨channel, hchannel, rfl⟩ := Option.map_eq_some_iff.mp hp
    obtain ⟨hg, hgroups⟩ := Option.ite_none_right_eq_some.mp hgroups
    obtain rfl := Option.some.inj hgroups
    rw [List.getElem?_mapIdx] at hchannel
    obtain ⟨groupName, hname, rfl⟩ := Option.map_eq_some_iff.mp hchannel
    have hlt := (List.getElem?_eq_some_iff.mp hname).1
    rw [List.length_take] at hlt
    have hnames : Setup.groupNames.length = 4 := rfl
    exact denotes_group (by omega) hlower
  | layer =>
    rw [Setup.LayerSetup.prefixAt] at hp
    obtain ⟨rfl, hp⟩ := Option.ite_none_right_eq_some.mp hp
    obtain rfl := Option.some.inj hp
    exact denotes_layer hlower

theorem exists_defaultLayer {createBothLayers : Bool} {n g : Nat} {setup : Setup.MixerSetup}
    (h : Setup.createDefaultMixerSetup createBothLayers n g = some setup) {i : Nat}
    {layer : Setup.LayerSetup} (hlayer : setup.layers[i]? = some layer) :
    ∃ name c firstIndex, IsLower c ∧ (layerIndex c).toNat = i ∧
      Setup.defaultLayer name (String.singleton c) firstIndex n g = some layer := by
  obtain ⟨layers, hlayers, rfl⟩ := Option.map_eq_some_iff.mp h
  obtain ⟨left, hleft, hlayers⟩ := Option.bind_eq_some_iff.mp hlayers
  have hfirst : ∃ name c firstIndex, IsLower c ∧ (layerIndex c).toNat = 0 ∧
      Setup.defaultLayer name (String.singleton c) firstIndex n g = some left :=
    ⟨"Left Layer", 'a', 0, by decide, by decide, hleft⟩
  cases createBothLayers with
  | false =>
    obtain rfl := Option.some.inj hlayers
    obtain ⟨rfl, rfl⟩ : i = 0 ∧ left = layer := by
      match i with
      | 0 => exact ⟨rfl, Option.some.inj hlayer⟩
      | _ + 1 => cases hlayer
    exact hfirst
  | true =>
    obtain ⟨right, hright, rfl⟩ := Option.map_eq_some_iff.mp hlayers
    match i with
    | 0 => exact Option.some.inj hlayer ▸ hfirst
    | 1 =>
      exact Option.some.inj hlayer ▸ ⟨"Right Layer", 'b', 16, by decide, by decide, hright⟩
    | _ + 2 => cases hlayer

theorem exists_left {createBothLayers : Bool} {n g : Nat} {setup : Setup.MixerSetup}
    (h : Setup.createDefaultMixerSetup createBothLayers n g = some setup) :
    ∃ left, setup.layers[0]? = some left ∧
      left.inputChannels = Setup.defaultInputChannels n 0 "a" := by
  obtain ⟨layers, hlayers, rfl⟩ := Option.map_eq_some_iff.mp h
  obtain ⟨left, hleft, hlayers⟩ := Option.bind_eq_some_iff.mp hlayers
  obtain ⟨groups, -, hleft⟩ := Option.map_eq_some_iff.mp hleft
  refine ⟨left, ?_, hleft ▸ rfl⟩
  cases createBothLayers with
  | false => exact Option.some.inj hlayers ▸ rfl
  | true =>
    obtain ⟨right, -, rfl⟩ := Option.map_eq_some_iff.mp hlayers
    rfl

/-- The hundred-and-first input has a name that the parser does not accept. -/
theorem not_resolved {createBothLayers : Bool} {n g : Nat} {setup : Setup.MixerSetup}
    (h : Setup.createDefaultMixerSetup createBothLayers n g = some setup) (hn : 100 < n) :
    ¬ Resolved setup := by
  intro hresolved
  obtain ⟨left, hleft, hinputs⟩ := exists_left h
  have hp : prefixAt setup ⟨0, .input, 100⟩ = some "pmx-input-100-a" := by
    rw [prefixAt, hleft, Option.bind_some, Setup.LayerSetup.prefixAt, hinputs,
      Setup.defaultInputChannels, List.getElem?_map, List.getElem?_range hn]
    rfl
  obtain ⟨l, hl, -⟩ := (hresolved _ _ hp).2 { name := some "pmx-input-100-a-input" } rfl
  have herror : (construct setup).layersModel.initialChannelUpdate
      { name := some "pmx-input-100-a-input" } = .error .badOptionalAccess := rfl
  rw [herror] at hl
  cases hl

/-- **The names of the default setup lead to their strips** exactly when no layer has more than a
hundred inputs. -/
theorem resolved_iff (createBothLayers : Bool) (numberOfInputChannels numberOfGroupsChannels : Nat)
    {setup : Setup.MixerSetup}
    (h : Setup.createDefaultMixerSetup createBothLayers numberOfInputChannels
      numberOfGroupsChannels = some setup) : Resolved setup ↔ numberOfInputChannels ≤ 100 := by
  constructor
  · intro hresolved
    by_contra hn
    exact not_resolved h (by omega) hresolved
  · refine fun hn => resolved_of_denotes fun r nodePrefix hp => ?_
    obtain ⟨layer, hlayer, hp⟩ := Option.bind_eq_some_iff.mp hp
    obtain ⟨name, c, firstIndex, hlower, hindex, hdefault⟩ := exists_defaultLayer h hlayer
    obtain ⟨i, kind, index⟩ := r
    obtain rfl : (layerIndex c).toNat = i := hindex
    exact denotes_of_defaultLayer hdefault hlower hn hp

/-- The setup that `main` asks for. -/
theorem resolved_iff_shipped : ∃ setup, Setup.createDefaultMixerSetup false 8 2 = some setup ∧
    (Resolved setup ↔ 8 ≤ 100) :=
  ⟨_, rfl, resolved_iff false 8 2 rfl⟩

theorem hundred_and_one_inputs : ¬ ∀ (createBothLayers : Bool) (n g : Nat) (setup : Setup.MixerSetup),
    Setup.createDefaultMixerSetup createBothLayers n g = some setup → Resolved setup :=
  fun h => not_resolved (rfl : Setup.createDefaultMixerSetup false 101 0 = some _) (by omega)
    (h false 101 0 _ rfl)

end Main

end Kpmx
