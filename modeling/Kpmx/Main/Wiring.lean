import Kpmx.App.Application
import Kpmx.Main.LayerTree

/-!
# The wiring of the mixer

The objects that `main` allocates, seen as the tree of layers: the lists of layer `i` are numbered
`3 * i`, `3 * i + 1` and `3 * i + 2` (`Layout`).

* `strip?_layersModel`, `layersModel_applyUpdate` : the tree reads and updates the strips that the
  pointers lead to;
* `wiring` : the channels of a setup, as `main` wires them;
* `closed_wiring_iff` : which of them get their own feedback and no other.
-/

namespace Kpmx.Main

/-! ## Places in the tree -/

/-- The kind of a list of a layer, by its number there. -/
def kindOf : Nat → ChannelKind
  | 0 => .input
  | 1 => .group
  | _ => .layer

/-- Where a place is in the tree. -/
def refOf (place : Place) : StripRef where
  layer := place.list / 3
  kind := kindOf (place.list % 3)
  index := place.position

theorem kindOf_inj {a b : Nat} (ha : a < 3) (hb : b < 3) (h : kindOf a = kindOf b) : a = b := by
  match a, b with
  | 0, 0 | 1, 1 | 2, 2 => rfl
  | 0, 1 | 0, 2 | 1, 0 | 1, 2 | 2, 0 | 2, 1 => cases h

theorem refOf_injective : Function.Injective refOf := by
  rintro ⟨list, position⟩ ⟨list', position'⟩ h
  simp only [refOf, StripRef.mk.injEq] at h
  obtain ⟨hlayer, hkind, rfl⟩ := h
  have hmod := kindOf_inj (Nat.mod_lt _ (by decide)) (Nat.mod_lt _ (by decide)) hkind
  rw [Place.mk.injEq]
  omega

theorem kind_refOf_iff (place : Place) : (refOf place).kind = .layer ↔ place.list % 3 = 2 := by
  have hlt : place.list % 3 < 3 := Nat.mod_lt _ (by decide)
  simp only [refOf]
  generalize place.list % 3 = r at hlt
  match r with
  | 0 | 1 | 2 => simp [kindOf]

/-! ## The objects as a tree -/

/-- The lists are numbered layer by layer. -/
structure Layout (o : Objects) : Prop where
  lists : o.stripLists.length = 3 * o.layers.length
  layers : ∀ i layer, o.layers[i]? = some layer → layer.inputChannels = 3 * i ∧
    layer.groupChannels = 3 * i + 1 ∧ layer.layerChannels = 3 * i + 2

namespace Layout

open Objects

theorem addLayer {o : Objects} (h : Layout o) (layerIndex : Nat) (layerSetup : Setup.LayerSetup) :
    Layout (Objects.addLayer layerIndex layerSetup o) where
  lists := by
    rw [length_stripLists_addLayer, layers_addLayer, List.length_append, List.length_singleton, h.lists]
    omega
  layers := fun i layer hlayer => by
    rw [layers_addLayer, getElem?_append_singleton] at hlayer
    split at hlayer
    · next hi =>
      obtain rfl := Option.some.inj hlayer
      simp only [h.lists, hi, and_self]
    · exact h.layers i layer hlayer

theorem addLayers {o : Objects} (h : Layout o) (layerIndex : Nat) (layers : List Setup.LayerSetup) :
    Layout (Objects.addLayers layerIndex layers o) := by
  induction layers generalizing layerIndex o with
  | nil => exact h
  | cons layerSetup layers ih => exact ih (h.addLayer layerIndex layerSetup) (layerIndex + 1)

theorem construct (setup : Setup.MixerSetup) : Layout (construct setup) :=
  addLayers ⟨rfl, fun _ _ h => absurd h (by simp)⟩ 0 setup.layers

theorem channels {o : Objects} (h : Layout o) {list : Nat} {l : StripListObject}
    (hl : o.stripLists[list]? = some l) : ∃ layer, o.layers[list / 3]? = some layer ∧
      (LayerObject.model o.models layer).channels (kindOf (list % 3)) = l.model := by
  have hlt := (List.getElem?_eq_some_iff.mp hl).1
  rw [h.lists] at hlt
  have hlayer := List.getElem?_eq_getElem (show list / 3 < o.layers.length by omega)
  obtain ⟨hinputs, hgroups, hlayers⟩ := h.layers _ _ hlayer
  refine ⟨_, hlayer, ?_⟩
  have hmodel : o.models[list]? = some l.model := by
    rw [models, List.getElem?_map, hl]
    rfl
  have hmod : list % 3 < 3 := Nat.mod_lt _ (by decide)
  have hdiv := Nat.div_add_mod list 3
  generalize list % 3 = r at hmod hdiv ⊢
  obtain rfl | rfl | rfl : r = 0 ∨ r = 1 ∨ r = 2 := by omega
  · rw [← hdiv, Nat.add_zero, ← hinputs] at hmodel
    simp [kindOf, LayerModel.channels, LayerObject.model, hmodel]
  · rw [← hdiv, ← hgroups] at hmodel
    simp [kindOf, LayerModel.channels, LayerObject.model, hmodel]
  · rw [← hdiv, ← hlayers] at hmodel
    simp [kindOf, LayerModel.channels, LayerObject.model, hmodel]

/-- **The tree has the strips that the pointers lead to.** -/
theorem strip?_layersModel {o : Objects} (h : Layout o) (place : Place) :
    o.layersModel.strip? (refOf place) = o.strip? place := by
  unfold LayersListModel.strip? Objects.strip? layersModel refOf
  simp only [List.getElem?_map]
  cases hl : o.stripLists[place.list]? with
  | none =>
    have hle := List.getElem?_eq_none_iff.mp hl
    rw [h.lists] at hle
    rw [List.getElem?_eq_none (by omega)]
    rfl
  | some l =>
    obtain ⟨layer, hlayer, hchannels⟩ := h.channels hl
    rw [hlayer, Option.map_some, Option.bind_some, Option.bind_some, hchannels]

theorem getD_set {α : Type} (l : List α) {i : Nat} (hi : i < l.length) (a d : α) (j : Nat) :
    (l.set i a).getD j d = if j = i then a else l.getD j d := by
  simp only [List.getD_eq_getElem?_getD, List.getElem?_set]
  by_cases h : i = j
  · subst h
    simp [hi]
  · simp [h, Ne.symm h]

theorem model_set {models : List ChannelStripListModel} {layer : LayerObject} {i list : Nat}
    (hlayer : layer.inputChannels = 3 * i ∧ layer.groupChannels = 3 * i + 1 ∧
      layer.layerChannels = 3 * i + 2) (hlist : list < models.length) (m : ChannelStripListModel) :
    LayerObject.model (models.set list m) layer =
      if list / 3 = i then
        (LayerObject.model models layer).modifyChannels (kindOf (list % 3)) fun _ => m
      else LayerObject.model models layer := by
  obtain ⟨hinputs, hgroups, hlayers⟩ := hlayer
  have hmod : list % 3 < 3 := Nat.mod_lt _ (by decide)
  have hdiv := Nat.div_add_mod list 3
  simp only [LayerObject.model, hinputs, hgroups, hlayers, getD_set _ hlist]
  by_cases hi : list / 3 = i
  · subst hi
    rw [if_pos rfl]
    generalize list % 3 = r at hmod hdiv ⊢
    obtain rfl | rfl | rfl : r = 0 ∨ r = 1 ∨ r = 2 := by omega
    · rw [if_pos (by omega), if_neg (by omega), if_neg (by omega)]
      rfl
    · rw [if_neg (by omega), if_pos (by omega), if_neg (by omega)]
      rfl
    · rw [if_neg (by omega), if_neg (by omega), if_pos (by omega)]
      rfl
  · rw [if_neg (by omega), if_neg (by omega), if_neg (by omega), if_neg hi]

section
variable [CastUndefined] {o o' : Objects}

theorem applyUpdate (h : Layout o) {data : UpdatesToQtThreadData} {controlPod : Option SpaPod}
    (ho' : o.applyUpdate data controlPod = some o') : Layout o' := by
  obtain ⟨l, -, ho'⟩ := Option.bind_eq_some_iff.mp ho'
  obtain ⟨model, -, rfl⟩ := Option.map_eq_some_iff.mp ho'
  exact ⟨(List.length_set ..).trans h.lists, h.layers⟩

/-- **An update through the pointers is an update of the tree.** -/
theorem layersModel_applyUpdate (h : Layout o) (data : UpdatesToQtThreadData)
    (controlPod : Option SpaPod) : (o.applyUpdate data controlPod).map layersModel =
      o.layersModel.applyUpdate (refOf ⟨data.channelStripsModel, data.channelIndex⟩) controlPod := by
  unfold Objects.applyUpdate LayersListModel.applyUpdate layersModel
  simp only [refOf, List.getElem?_map]
  cases hl : o.stripLists[data.channelStripsModel]? with
  | none =>
    have hle := List.getElem?_eq_none_iff.mp hl
    rw [h.lists] at hle
    rw [List.getElem?_eq_none (show o.layers.length ≤ data.channelStripsModel / 3 by omega)]
    rfl
  | some l =>
    have hlt := (List.getElem?_eq_some_iff.mp hl).1
    obtain ⟨layer, hlayer, hchannels⟩ := h.channels hl
    rw [hlayer, Option.map_some, Option.bind_some, Option.bind_some, hchannels, Option.map_map]
    refine congrArg (Option.map · _) (funext fun model => congrArg LayersListModel.mk ?_)
    have hmodels : (List.set o.stripLists data.channelStripsModel { l with model := model }).map
        StripListObject.model = o.models.set data.channelStripsModel model := List.map_set ..
    apply List.ext_getElem?
    intro i
    rw [List.getElem?_map, Objects.models, hmodels, List.getElem?_set, List.getElem?_map]
    cases hi : o.layers[i]? with
    | none =>
      have hle := List.getElem?_eq_none_iff.mp hi
      rw [List.length_map]
      split
      · rw [if_neg (by omega)]
        rfl
      · rfl
    | some layer' =>
      have hlt' := (List.getElem?_eq_some_iff.mp hi).1
      rw [Option.map_some, model_set (h.layers i layer' hi) (by rwa [length_models]), List.length_map]
      split
      · next heq =>
        subst heq
        obtain rfl := Option.some.inj (hlayer.symm.trans hi)
        rw [if_pos (by omega)]
      · rfl

end

end Layout

/-! ## Feedback for the objects -/

section
variable [CastUndefined]

/-- A list of pods for sync entries, applied to the objects one after the other. -/
def feed (o : Objects) (messages : List (UpdatesToQtThreadData × Option SpaPod)) : Option Objects :=
  messages.foldlM (fun o message => o.applyUpdate message.1 message.2) o

/-- The same pods, applied to the tree. -/
def feedTree (l : LayersListModel) (messages : List (UpdatesToQtThreadData × Option SpaPod)) :
    Option LayersListModel :=
  messages.foldlM (fun l message =>
    l.applyUpdate (refOf ⟨message.1.channelStripsModel, message.1.channelIndex⟩) message.2) l

theorem Layout.feed {o o' : Objects} {messages : List (UpdatesToQtThreadData × Option SpaPod)}
    (h : Layout o) (ho' : feed o messages = some o') : Layout o' := by
  induction messages generalizing o with
  | nil => exact Option.some.inj ho' ▸ h
  | cons message messages ih =>
    rw [Main.feed, List.foldlM_cons] at ho'
    obtain ⟨o₁, ho₁, hrest⟩ := Option.bind_eq_some_iff.mp ho'
    exact ih (h.applyUpdate ho₁) hrest

theorem layersModel_feed {o : Objects} (h : Layout o)
    (messages : List (UpdatesToQtThreadData × Option SpaPod)) :
    (feed o messages).map Objects.layersModel = feedTree o.layersModel messages := by
  induction messages generalizing o with
  | nil => rfl
  | cons message messages ih =>
    rw [feed, feedTree, List.foldlM_cons, List.foldlM_cons, ← h.layersModel_applyUpdate]
    cases ho' : o.applyUpdate message.1 message.2 with
    | none => rfl
    | some o' => exact ih (h.applyUpdate ho')

/-- **The mixer that `main` allocates is the tree of its setup**: after any feedback for any entries, or
for pointers that no entry has, each is defined when the other is, and then the strip that a pointer and
an index lead to is the strip at that place of the tree. -/
theorem feed_construct (setup : Setup.MixerSetup)
    (messages : List (UpdatesToQtThreadData × Option SpaPod)) :
    (feed (construct setup) messages).map (fun o => o.strip?) =
      (feedTree (.ofSetup (setup.layers.map Setup.LayerSetup.names)) messages).map fun l place =>
        l.strip? (refOf place) := by
  rw [← layersModel_construct, ← layersModel_feed (.construct setup), Option.map_map]
  cases hfeed : feed (construct setup) messages with
  | none => rfl
  | some o =>
    refine congrArg some (funext fun place => ?_)
    exact (((Layout.construct setup).feed hfeed).strip?_layersModel place).symm

end

/-! ## The channels of a setup -/

theorem mem_channelSites {list channelIndex : Nat} {s : Site} {channels : List (String × String)}
    (h : s ∈ channelSites list channelIndex channels) : s.place.list = list := by
  induction channels generalizing channelIndex with
  | nil => exact absurd h (by simp [channelSites])
  | cons channel channels ih =>
    rcases List.mem_cons.mp h with rfl | h
    · rfl
    · exact ih h

/-- The sync entry of a layer's own channel has the index of the layer, every other one the index of
its strip. -/
theorem index_of_mem_sites {layerIndex : Nat} {layers : List Setup.LayerSetup} {s : Site}
    (h : s ∈ sites layerIndex layers) :
    (s.place.list % 3 = 2 → s.place.position = 0 ∧ s.channelIndex = s.place.list / 3) ∧
      (s.place.list % 3 ≠ 2 → s.channelIndex = s.place.position) := by
  induction layers generalizing layerIndex with
  | nil => exact absurd h (by simp [sites])
  | cons layer layers ih =>
    rw [sites, layerSites] at h
    rcases List.mem_append.mp h with h | h
    · rcases List.mem_append.mp h with h | h
      · rcases List.mem_append.mp h with h | h
        · have hlist := mem_channelSites h
          exact ⟨fun hmod => by omega, fun _ => channelIndex_of_mem_channelSites h⟩
        · have hlist := mem_channelSites h
          exact ⟨fun hmod => by omega, fun _ => channelIndex_of_mem_channelSites h⟩
      · obtain rfl := List.mem_singleton.mp h
        refine ⟨fun _ => ⟨rfl, ?_⟩, fun hmod => ?_⟩
        · simp only
          omega
        · simp only at hmod
          omega
    · exact ih h

section

variable (setup : Setup.MixerSetup)

/-- How many channels `main` makes. -/
abbrev channelCount : Nat := (sites 0 setup.layers).length

/-- The channel of a control entry, a sync entry and a queue. -/
def site (k : Fin (channelCount setup)) : Site := (sites 0 setup.layers).get k

theorem getElem?_site (k : Fin (channelCount setup)) :
    (sites 0 setup.layers)[k.val]? = some (site setup k) :=
  List.getElem?_eq_getElem k.isLt

theorem place_injective : Function.Injective fun k => (site setup k).place := by
  intro i j h
  have hqueue : ∀ k, (construct setup).queue? (site setup k).place = some k.val := by
    intro k
    rw [(Built.construct setup).queue, getElem?_site]
    rfl
  have hi := hqueue i
  rw [show (site setup i).place = (site setup j).place from h, hqueue j] at hi
  exact Fin.ext (Option.some.inj hi).symm

theorem strip?_site (k : Fin (channelCount setup)) :
    ((LayersListModel.ofSetup (setup.layers.map Setup.LayerSetup.names)).strip?
      (refOf (site setup k).place)).isSome = true := by
  rw [← layersModel_construct, (Layout.construct setup).strip?_layersModel,
    (Built.construct setup).strip_isSome,
    ((Built.construct setup).queue_iff (getElem?_site setup k) _).mpr rfl]
  rfl

/-- **The wiring of `main`**: the setters of a strip push to the queue of its channel, and the feedback
for a channel goes to the list and the index in its sync entry. -/
def wiring : Wiring (setup.layers.map Setup.LayerSetup.names) (channelCount setup) where
  sends k := refOf (site setup k).place
  shows k := refOf ⟨(site setup k).place.list, (site setup k).channelIndex⟩
  sends_injective := fun _ _ h => place_injective setup (refOf_injective h)
  sends_present := strip?_site setup
  shows_present := fun k => by
    obtain ⟨strip, hstrip⟩ := Option.isSome_iff_exists.mp (strip?_site setup k)
    obtain ⟨layer, hlayer, -⟩ := Option.bind_eq_some_iff.mp hstrip
    exact (List.getElem?_eq_some_iff.mp hlayer).1

theorem shows_eq_sends_iff (i k : Fin (channelCount setup)) :
    (wiring setup).shows i = (wiring setup).sends k ↔
      i = k ∧ (site setup k).channelIndex = (site setup k).place.position := by
  constructor
  · intro h
    obtain ⟨hlist, hindex⟩ := Place.mk.inj (refOf_injective h)
    have hposition : (site setup i).place.position = (site setup k).place.position := by
      obtain ⟨hlayer, hother⟩ := index_of_mem_sites (List.get_mem (sites 0 setup.layers) i)
      obtain ⟨hlayer', -⟩ := index_of_mem_sites (List.get_mem (sites 0 setup.layers) k)
      by_cases hmod : (site setup i).place.list % 3 = 2
      · -- the list of a layer's own channel has one strip
        exact (hlayer hmod).1.trans (hlayer' (hlist ▸ hmod)).1.symm
      · exact (hother hmod).symm.trans hindex
    obtain rfl : i = k := place_injective setup (congrArg₂ Place.mk hlist hposition)
    exact ⟨rfl, hindex⟩
  · rintro ⟨rfl, hindex⟩
    simp only [wiring, hindex]

theorem channelIndex_iff (k : Fin (channelCount setup)) :
    (site setup k).channelIndex = (site setup k).place.position ↔
      (((wiring setup).sends k).kind = .layer → ((wiring setup).sends k).layer = 0) := by
  obtain ⟨hlayer, hother⟩ := index_of_mem_sites (List.get_mem (sites 0 setup.layers) k)
  change _ ↔ ((refOf (site setup k).place).kind = .layer → _)
  rw [kind_refOf_iff]
  change _ ↔ (_ → (site setup k).place.list / 3 = 0)
  by_cases hmod : (site setup k).place.list % 3 = 2
  · obtain ⟨hposition, hindex⟩ := hlayer hmod
    change (site setup k).place.position = 0 at hposition
    change (site setup k).channelIndex = _ at hindex
    rw [hindex, hposition]
    exact ⟨fun h _ => h, fun h => h hmod⟩
  · exact ⟨fun _ h => absurd h hmod, fun _ => hother hmod⟩

/-- A channel is closed when its sync entry has its strip's index and no other stream its slot. -/
theorem closed_iff_slots (k : Fin (channelCount setup)) : (wiring setup).Closed k ↔
    (((wiring setup).sends k).kind = .layer → ((wiring setup).sends k).layer = 0) ∧
      ∀ j : Fin (channelCount setup), FeedbackSync.slotOf j = k ↔ j = k := by
  unfold Wiring.Closed
  simp only [shows_eq_sends_iff, ← channelIndex_iff]
  constructor
  · intro h
    have hindex := ((h k).mpr rfl).2
    exact ⟨hindex, fun j => by rw [← h j, and_iff_left hindex]⟩
  · rintro ⟨hindex, hslots⟩ j
    rw [and_iff_left hindex, hslots]

/-- **Which channels get their own feedback and no other**: all but the own channels of the layers after
the first, as long as no later channel has the same eight-bit number. -/
theorem closed_wiring_iff (k : Fin (channelCount setup)) : (wiring setup).Closed k ↔
    (((wiring setup).sends k).kind = .layer → ((wiring setup).sends k).layer = 0) ∧
      k.val < 256 ∧ channelCount setup ≤ k.val + 256 := by
  have hslot : ∀ j : Fin (channelCount setup), FeedbackSync.slotOf j = k ↔ j.val % 256 = k.val :=
    fun j => Fin.ext_iff
  rw [closed_iff_slots]
  refine and_congr_right fun _ => ?_
  simp only [hslot]
  constructor
  · intro h
    have hlt : k.val < 256 := by
      have hk := (h k).mpr rfl
      omega
    refine ⟨hlt, ?_⟩
    by_contra hcount
    have hwrap : k.val + 256 < channelCount setup := by omega
    have hk' := congrArg Fin.val ((h ⟨k.val + 256, hwrap⟩).mp (by simp only; omega))
    simp only at hk'
    omega
  · rintro ⟨hlt, hcount⟩ j
    refine ⟨fun hj => Fin.ext ?_, fun hj => by rw [hj]; omega⟩
    have hjlt := j.isLt
    omega

end

end Kpmx.Main
