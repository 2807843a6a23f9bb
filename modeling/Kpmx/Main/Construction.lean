import Kpmx.Feedback.Transport
import Kpmx.Setup.MixerSetup
import Kpmx.Wireplumber.Session

/-!
# The construction of the mixer

The loop of `main` over the layers of a setup. Objects that `main` allocates are numbered in the order
of their allocation, and a pointer is a number: the queues, the lists of strips. A strip keeps a copy
of the pointer to its queue.

* `Built.construct` : which control entry, sync entry and strip each channel gets;
* `consistent_construct_iff` : the feedback of every channel reaches its own strip exactly when there
  is at most one layer.
-/

namespace Kpmx.Main

/-! ## The objects -/

/-- `channel_data`: an entry of `pipewire_control_data`. -/
structure ChannelData where
  queue : Nat
  controlNodeName : String
  deriving DecidableEq

structure UpdatesToQtThreadData where
  channelStripsModel : Nat
  channelIndex : Nat
  feedbackNodeName : String
  controlNodeName : String
  monitorNodeName : String
  deriving DecidableEq

/-- A list of strips with the queue of each. -/
structure StripListObject where
  model : ChannelStripListModel := {}
  queues : List Nat := []

structure LayerObject where
  name : String
  inputChannels : Nat
  groupChannels : Nat
  layerChannels : Nat

/-- The objects that exist so far; of the queues only their number. -/
structure Objects where
  queues : Nat := 0
  stripLists : List StripListObject := []
  layers : List LayerObject := []
  channels : List ChannelData := []
  pipewireQtSyncInfo : List UpdatesToQtThreadData := []

def StripListObject.addChannelStrip (l : StripListObject) (name : String) (queue : Nat) :
    StripListObject where
  model := { channelStrips := l.model.channelStrips ++ [{ name := name }] }
  queues := l.queues ++ [queue]

namespace Objects

/-- `new ChannelStripListModel()`, which gets the number of lists before it. -/
def newStripList (o : Objects) : Objects := { o with stripLists := o.stripLists ++ [{}] }

/-- A new control entry with a queue of its own, which gets the number of queues before it. -/
def addControlData (o : Objects) (nodePrefix : String) : Objects :=
  { o with
    queues := o.queues + 1
    channels := o.channels ++ [{ queue := o.queues, controlNodeName := nodePrefix ++ "-control" }] }

def addChannelStrip (o : Objects) (list : Nat) (name : String) (queue : Nat) : Objects :=
  { o with stripLists := o.stripLists.modify list fun l => l.addChannelStrip name queue }

def addSyncInfo (o : Objects) (list channelIndex : Nat) (nodePrefix : String) : Objects :=
  { o with
    pipewireQtSyncInfo := o.pipewireQtSyncInfo ++ [
      { channelStripsModel := list
        channelIndex := channelIndex
        feedbackNodeName := nodePrefix ++ "-feedback"
        controlNodeName := nodePrefix ++ "-control"
        monitorNodeName := nodePrefix ++ "-monitor" }] }

/-- The body of the two inner loops. -/
def addChannel (o : Objects) (list channelIndex : Nat) (name nodePrefix : String) : Objects :=
  let queue := o.queues
  ((o.addControlData nodePrefix).addChannelStrip list name queue).addSyncInfo list channelIndex
    nodePrefix

/-- An inner loop over the names and the prefixes of the channels, with its running index. -/
def addChannels (list : Nat) : Nat → List (String × String) → Objects → Objects
  | _, [], o => o
  | channelIndex, (name, nodePrefix) :: channels, o =>
    addChannels list (channelIndex + 1) channels (o.addChannel list channelIndex name nodePrefix)

/-- The body of the outer loop. -/
def addLayer (layerIndex : Nat) (layerSetup : Setup.LayerSetup) (o : Objects) : Objects :=
  let inputChannelsModel := o.stripLists.length
  let o := addChannels inputChannelsModel 0 layerSetup.inputs o.newStripList
  let groupChannelsModel := o.stripLists.length
  let o := addChannels groupChannelsModel 0 layerSetup.groups o.newStripList
  let layerChannelsModel := o.stripLists.length
  let o := o.newStripList
  let nodePrefix := layerSetup.layerChannel.pipewireNodeNamePrefix
  let queue := o.queues
  let layerName := "Layer " ++ toString layerIndex
  let o := (o.addControlData nodePrefix).addChannelStrip layerChannelsModel layerName queue
  let layer : LayerObject :=
    { name := layerName
      inputChannels := inputChannelsModel
      groupChannels := groupChannelsModel
      layerChannels := layerChannelsModel }
  let o := { o with layers := o.layers ++ [layer] }
  -- the index of the layer, not that of its strip in the new list
  o.addSyncInfo layerChannelsModel layerIndex nodePrefix

def addLayers : Nat → List Setup.LayerSetup → Objects → Objects
  | _, [], o => o
  | layerIndex, layerSetup :: layers, o =>
    addLayers (layerIndex + 1) layers (addLayer layerIndex layerSetup o)

end Objects

def construct (setup : Setup.MixerSetup) : Objects := Objects.addLayers 0 setup.layers {}

/-! ## Strips by place -/

theorem getElem?_append_singleton {α : Type} (l : List α) (a : α) (i : Nat) :
    (l ++ [a])[i]? = if i = l.length then some a else l[i]? := by
  rcases Nat.lt_trichotomy i l.length with h | h | h
  · rw [List.getElem?_append_left h, if_neg h.ne]
  · rw [if_pos h, h, List.getElem?_concat_length]
  · rw [if_neg h.ne', List.getElem?_eq_none (by rw [List.length_append, List.length_singleton]; omega),
      List.getElem?_eq_none h.le]

/-- A list of strips and an index in it. -/
structure Place where
  list : Nat
  position : Nat
  deriving DecidableEq

namespace Objects

def strip? (o : Objects) (place : Place) : Option ChannelStripModel :=
  o.stripLists[place.list]?.bind fun l => l.model.channelStrips[place.position]?

/-- The queue of the strip at a place. -/
def queue? (o : Objects) (place : Place) : Option Nat :=
  o.stripLists[place.list]?.bind fun l => l.queues[place.position]?

/-- `apply_update` as `updates_to_qt_thread` posts it for an entry; a pointer to no list is undefined. -/
def applyUpdate [CastUndefined] (o : Objects) (data : UpdatesToQtThreadData)
    (controlPod : Option SpaPod) : Option Objects :=
  o.stripLists[data.channelStripsModel]?.bind fun l =>
    (l.model.applyUpdate data.channelIndex controlPod).map fun model =>
      { o with stripLists := o.stripLists.set data.channelStripsModel { l with model := model } }

theorem queue?_newStripList (o : Objects) (place : Place) :
    o.newStripList.queue? place = o.queue? place := by
  unfold queue? newStripList
  rw [getElem?_append_singleton]
  split
  · next h => rw [h, List.getElem?_eq_none le_rfl, Option.bind_some, Option.bind_none]; rfl
  · rfl

theorem queue?_addChannel {o : Objects} {list : Nat} {l : StripListObject}
    (hl : o.stripLists[list]? = some l) (channelIndex : Nat) (name nodePrefix : String)
    (place : Place) : (o.addChannel list channelIndex name nodePrefix).queue? place =
      if place = ⟨list, l.queues.length⟩ then some o.queues else o.queue? place := by
  obtain ⟨pl, pi⟩ := place
  simp only [queue?, addChannel, addSyncInfo, addChannelStrip, addControlData,
    List.getElem?_modify, Place.mk.injEq]
  by_cases hlist : list = pl
  · subst hlist
    simp only [hl, Option.map_eq_map, Option.map_some, Option.bind_some, if_true,
      StripListObject.addChannelStrip, true_and, getElem?_append_singleton]
  · simp [hlist, Ne.symm hlist]

theorem mem_stripLists_addChannel {o : Objects} {list : Nat} {l l' : StripListObject}
    (hl : o.stripLists[list]? = some l) {channelIndex : Nat} {name nodePrefix : String}
    (hl' : l' ∈ (o.addChannel list channelIndex name nodePrefix).stripLists) :
    l' ∈ o.stripLists ∨ l' = l.addChannelStrip name o.queues := by
  obtain ⟨i, hi⟩ := List.mem_iff_getElem?.mp hl'
  simp only [addChannel, addSyncInfo, addChannelStrip, addControlData, List.getElem?_modify] at hi
  split at hi
  · next heq =>
    subst heq
    rw [hl] at hi
    exact .inr (Option.some.inj hi).symm
  · obtain ⟨l'', hl'', rfl⟩ := Option.map_eq_some_iff.mp hi
    exact .inl (List.mem_iff_getElem?.mpr ⟨i, hl''⟩)

end Objects

/-! ## What has been built -/

/-- A channel that has been built: the prefix of its name, the place of its strip and the index in its
sync entry. -/
structure Site where
  nodePrefix : String
  place : Place
  channelIndex : Nat

def Site.syncInfo (s : Site) : UpdatesToQtThreadData where
  channelStripsModel := s.place.list
  channelIndex := s.channelIndex
  feedbackNodeName := s.nodePrefix ++ "-feedback"
  controlNodeName := s.nodePrefix ++ "-control"
  monitorNodeName := s.nodePrefix ++ "-monitor"

/-- The objects are those of the channels built so far; queue `q` belongs to channel `q`. -/
structure Built (sites : List Site) (o : Objects) : Prop where
  queues : o.queues = sites.length
  channels : o.channels = sites.mapIdx fun q s => ⟨q, s.nodePrefix ++ "-control"⟩
  syncInfo : o.pipewireQtSyncInfo = sites.map Site.syncInfo
  queue : ∀ place q, o.queue? place = some q ↔ sites[q]?.map Site.place = some place
  lengths : ∀ l ∈ o.stripLists, l.queues.length = l.model.channelStrips.length
  fresh : ∀ l ∈ o.stripLists, ∀ strip ∈ l.model.channelStrips, ∃ name, strip = { name := name }

namespace Built

theorem start : Built [] {} where
  queues := rfl
  channels := rfl
  syncInfo := rfl
  queue := fun _ _ => by simp [Objects.queue?]
  lengths := fun _ h => absurd h (by simp)
  fresh := fun _ h => absurd h (by simp)

theorem newStripList {sites : List Site} {o : Objects} (h : Built sites o) :
    Built sites o.newStripList where
  queues := h.queues
  channels := h.channels
  syncInfo := h.syncInfo
  queue := fun place q => by rw [o.queue?_newStripList, h.queue]
  lengths := fun l hl => by
    rcases List.mem_append.mp hl with hl | hl
    · exact h.lengths l hl
    · rw [List.mem_singleton.mp hl]
      rfl
  fresh := fun l hl => by
    rcases List.mem_append.mp hl with hl | hl
    · exact h.fresh l hl
    · rw [List.mem_singleton.mp hl]
      exact fun _ hstrip => absurd hstrip (by simp)

theorem addChannel {sites : List Site} {o : Objects} (h : Built sites o) {list : Nat}
    {l : StripListObject} (hl : o.stripLists[list]? = some l) (channelIndex : Nat)
    (name nodePrefix : String) :
    Built (sites ++ [⟨nodePrefix, ⟨list, l.queues.length⟩, channelIndex⟩])
      (o.addChannel list channelIndex name nodePrefix) where
  queues := by
    rw [List.length_append, ← h.queues]
    rfl
  channels := by
    rw [List.mapIdx_append, ← h.channels, ← h.queues]
    simp [Objects.addChannel, Objects.addSyncInfo, Objects.addChannelStrip, Objects.addControlData]
  syncInfo := by
    rw [List.map_append, ← h.syncInfo]
    rfl
  queue := fun place q => by
    rw [Objects.queue?_addChannel hl]
    split
    · next hplace =>
      rw [h.queues, Option.some.injEq]
      rw [getElem?_append_singleton]
      split
      · next hq => simp [hq, hplace]
      · next hq =>
        -- an older channel has another place
        refine ⟨fun hlength => absurd hlength.symm hq, fun hold => ?_⟩
        rw [← h.queue, hplace, Objects.queue?, hl, Option.bind_some,
          List.getElem?_eq_none le_rfl] at hold
        cases hold
    · next hplace =>
      rw [h.queue, getElem?_append_singleton]
      split
      · next hq =>
        rw [hq, List.getElem?_eq_none le_rfl]
        simp [Ne.symm hplace]
      · rfl
  lengths := fun l' hl' => by
    rcases Objects.mem_stripLists_addChannel hl hl' with hl' | rfl
    · exact h.lengths l' hl'
    · simp [StripListObject.addChannelStrip, h.lengths l (List.mem_iff_getElem?.mpr ⟨_, hl⟩)]
  fresh := fun l' hl' strip hstrip => by
    rcases Objects.mem_stripLists_addChannel hl hl' with hl' | rfl
    · exact h.fresh l' hl' strip hstrip
    · rcases List.mem_append.mp hstrip with hstrip | hstrip
      · exact h.fresh l (List.mem_iff_getElem?.mpr ⟨_, hl⟩) strip hstrip
      · exact ⟨name, List.mem_singleton.mp hstrip⟩

end Built

/-! ## The whole loop -/

def channelSites (list : Nat) : Nat → List (String × String) → List Site
  | _, [] => []
  | channelIndex, (_, nodePrefix) :: channels =>
    ⟨nodePrefix, ⟨list, channelIndex⟩, channelIndex⟩ :: channelSites list (channelIndex + 1) channels

/-- The channels of a layer whose three lists are numbered from `list`. -/
def layerSites (layerIndex list : Nat) (layerSetup : Setup.LayerSetup) : List Site :=
  channelSites list 0 layerSetup.inputs ++ channelSites (list + 1) 0 layerSetup.groups ++
    [⟨layerSetup.layerChannel.pipewireNodeNamePrefix, ⟨list + 2, 0⟩, layerIndex⟩]

def sites : Nat → List Setup.LayerSetup → List Site
  | _, [] => []
  | layerIndex, layerSetup :: layers =>
    layerSites layerIndex (3 * layerIndex) layerSetup ++ sites (layerIndex + 1) layers

theorem map_nodePrefix_channelSites (list channelIndex : Nat) (channels : List (String × String)) :
    (channelSites list channelIndex channels).map Site.nodePrefix = channels.map Prod.snd := by
  induction channels generalizing channelIndex with
  | nil => rfl
  | cons channel channels ih => rw [channelSites, List.map_cons, List.map_cons, ih]

theorem map_nodePrefix_sites (layerIndex : Nat) (layers : List Setup.LayerSetup) :
    (sites layerIndex layers).map Site.nodePrefix =
      layers.flatMap Setup.LayerSetup.nodePrefixes := by
  induction layers generalizing layerIndex with
  | nil => rfl
  | cons layer layers ih =>
    rw [sites, List.map_append, ih, List.flatMap_cons, layerSites, List.map_append, List.map_append,
      map_nodePrefix_channelSites, map_nodePrefix_channelSites]
    rfl

theorem channelIndex_of_mem_channelSites {list channelIndex : Nat} {s : Site}
    {channels : List (String × String)} (h : s ∈ channelSites list channelIndex channels) :
    s.channelIndex = s.place.position := by
  induction channels generalizing channelIndex with
  | nil => exact absurd h (by simp [channelSites])
  | cons channel channels ih =>
    rcases List.mem_cons.mp h with rfl | h
    · rfl
    · exact ih h

namespace Objects

@[simp] theorem length_stripLists_addChannel (o : Objects) (list channelIndex : Nat)
    (name nodePrefix : String) :
    (o.addChannel list channelIndex name nodePrefix).stripLists.length = o.stripLists.length :=
  List.length_modify ..

theorem length_stripLists_addChannels (list channelIndex : Nat) (channels : List (String × String))
    (o : Objects) :
    (addChannels list channelIndex channels o).stripLists.length = o.stripLists.length := by
  induction channels generalizing channelIndex o with
  | nil => rfl
  | cons channel channels ih => rw [addChannels, ih, length_stripLists_addChannel]

@[simp] theorem length_stripLists_newStripList (o : Objects) :
    o.newStripList.stripLists.length = o.stripLists.length + 1 := List.length_append

theorem getElem?_newStripList {o : Objects} {list : Nat} (h : o.stripLists.length = list) :
    o.newStripList.stripLists[list]? = some {} := by
  rw [newStripList, getElem?_append_singleton, if_pos h.symm]

theorem addLayer_eq (layerIndex : Nat) (layerSetup : Setup.LayerSetup) (o : Objects) :
    addLayer layerIndex layerSetup o =
      let n := o.stripLists.length
      let layerName := "Layer " ++ toString layerIndex
      let o' := (addChannels (n + 1) 0 layerSetup.groups
        (addChannels n 0 layerSetup.inputs o.newStripList).newStripList).newStripList
      { o'.addChannel (n + 2) layerIndex layerName layerSetup.layerChannel.pipewireNodeNamePrefix with
        layers := o'.layers ++ [⟨layerName, n, n + 1, n + 2⟩] } := by
  simp only [addLayer, length_stripLists_addChannels, length_stripLists_newStripList]
  rfl

theorem length_stripLists_addLayer (layerIndex : Nat) (layerSetup : Setup.LayerSetup) (o : Objects) :
    (addLayer layerIndex layerSetup o).stripLists.length = o.stripLists.length + 3 := by
  simp only [addLayer_eq, length_stripLists_addChannel, length_stripLists_newStripList,
    length_stripLists_addChannels]

end Objects

namespace Built

open Objects

theorem addChannels {list channelIndex : Nat} {sites : List Site} {o : Objects} {l : StripListObject}
    (h : Built sites o) (channels : List (String × String)) (hl : o.stripLists[list]? = some l)
    (hlength : l.queues.length = channelIndex) :
    Built (sites ++ channelSites list channelIndex channels)
      (Objects.addChannels list channelIndex channels o) := by
  induction channels generalizing channelIndex sites o l with
  | nil => rwa [channelSites, List.append_nil]
  | cons channel channels ih =>
    obtain ⟨name, nodePrefix⟩ := channel
    have hstep := h.addChannel hl channelIndex name nodePrefix
    have hnext : (o.addChannel list channelIndex name nodePrefix).stripLists[list]? =
        some (l.addChannelStrip name o.queues) := by
      simp [Objects.addChannel, addSyncInfo, addChannelStrip, addControlData, hl]
    have hnextLength : (l.addChannelStrip name o.queues).queues.length = channelIndex + 1 := by
      rw [StripListObject.addChannelStrip, List.length_append, hlength, List.length_singleton]
    have hrest := ih hstep hnext hnextLength
    rwa [List.append_assoc, List.singleton_append, hlength] at hrest

theorem setLayers {sites : List Site} {o : Objects} (h : Built sites o) (layers : List LayerObject) :
    Built sites { o with layers := layers } where
  queues := h.queues
  channels := h.channels
  syncInfo := h.syncInfo
  queue := h.queue
  lengths := h.lengths
  fresh := h.fresh

theorem addLayer {sites : List Site} {o : Objects} (h : Built sites o) (layerIndex : Nat)
    (layerSetup : Setup.LayerSetup) :
    Built (sites ++ layerSites layerIndex o.stripLists.length layerSetup)
      (Objects.addLayer layerIndex layerSetup o) := by
  rw [addLayer_eq, layerSites, ← List.append_assoc, ← List.append_assoc]
  apply setLayers
  have hinputs := h.newStripList.addChannels layerSetup.inputs (getElem?_newStripList rfl) rfl
  have hgroups := hinputs.newStripList.addChannels layerSetup.groups
    (getElem?_newStripList (by
      rw [length_stripLists_addChannels, length_stripLists_newStripList])) rfl
  exact hgroups.newStripList.addChannel (getElem?_newStripList (by
    rw [length_stripLists_addChannels, length_stripLists_newStripList,
      length_stripLists_addChannels, length_stripLists_newStripList])) layerIndex _ _

theorem addLayers {layerIndex : Nat} {done : List Site} {o : Objects} (h : Built done o)
    (layers : List Setup.LayerSetup) (hlength : o.stripLists.length = 3 * layerIndex) :
    Built (done ++ sites layerIndex layers) (Objects.addLayers layerIndex layers o) := by
  induction layers generalizing layerIndex done o with
  | nil => rwa [sites, List.append_nil]
  | cons layerSetup layers ih =>
    have hnextLength : (Objects.addLayer layerIndex layerSetup o).stripLists.length =
        3 * (layerIndex + 1) := by
      rw [length_stripLists_addLayer, hlength]
      omega
    have hrest := ih (h.addLayer layerIndex layerSetup) hnextLength
    rwa [List.append_assoc, hlength] at hrest

theorem construct (setup : Setup.MixerSetup) : Built (sites 0 setup.layers) (construct setup) :=
  start.addLayers setup.layers rfl

end Built

/-! ## Where feedback goes -/

/-- The strips' fields may differ, the strips there are and their wiring do not. -/
structure SameWiring (o o' : Objects) : Prop where
  channels : o'.channels = o.channels
  syncInfo : o'.pipewireQtSyncInfo = o.pipewireQtSyncInfo
  queue : ∀ place, o'.queue? place = o.queue? place
  strip : ∀ place, (o'.strip? place).isSome = (o.strip? place).isSome

theorem SameWiring.refl (o : Objects) : SameWiring o o := ⟨rfl, rfl, fun _ => rfl, fun _ => rfl⟩

/-- One strip sends its changes to the queue; a pod for the entry is applied to this strip, and every
other strip is left alone. -/
def FeedbackReaches [CastUndefined] (o : Objects) (queue : Nat) (data : UpdatesToQtThreadData) : Prop :=
  ∃ place strip, (∀ p, o.queue? p = some queue ↔ p = place) ∧ o.strip? place = some strip ∧
    ∀ pod : SpaPod, pod.isObject = true → ∃ o' strip', o.applyUpdate data (some pod) = some o' ∧
      (strip.apply pod).map Prod.fst = some strip' ∧
      ∀ p, o'.strip? p = if p = place then some strip' else o.strip? p

/-- Each channel of the setup has one control entry with a queue of its own, one sync entry and one
strip; and whatever the strips show by then, the feedback of a channel reaches the strip that sends to
its control entry. -/
structure Consistent [CastUndefined] (setup : Setup.MixerSetup) (o : Objects) : Prop where
  controlNames : o.channels.map ChannelData.controlNodeName = setup.nodePrefixes.map (· ++ "-control")
  queues : (o.channels.map ChannelData.queue).Nodup
  syncNames : o.pipewireQtSyncInfo.map
    (fun data => (data.feedbackNodeName, data.controlNodeName, data.monitorNodeName)) =
      setup.nodePrefixes.map fun nodePrefix =>
        (nodePrefix ++ "-feedback", nodePrefix ++ "-control", nodePrefix ++ "-monitor")
  strips : ∀ place, (o.strip? place).isSome = true →
    ∃ channel ∈ o.channels, o.queue? place = some channel.queue
  wired : ∀ o', SameWiring o o' → ∀ (k : Nat) channel data, o'.channels[k]? = some channel →
    o'.pipewireQtSyncInfo[k]? = some data → FeedbackReaches o' channel.queue data

theorem Objects.strip?_modifyStrip {o : Objects} {list : Nat} {l : StripListObject}
    (hl : o.stripLists[list]? = some l) (index : Nat) (f : ChannelStripModel → ChannelStripModel)
    (place : Place) :
    ({ o with stripLists := o.stripLists.set list { l with model := l.model.modifyStrip index f } } :
        Objects).strip? place =
      if place = ⟨list, index⟩ then (o.strip? place).map f else o.strip? place := by
  obtain ⟨pl, pi⟩ := place
  obtain ⟨hlt, -⟩ := List.getElem?_eq_some_iff.mp hl
  simp only [strip?, List.getElem?_set, Place.mk.injEq]
  by_cases hlist : list = pl
  · subst hlist
    simp only [if_true, hlt, hl, Option.bind_some, ChannelStripListModel.modifyStrip,
      List.getElem?_modify, Option.map_eq_map, true_and]
    by_cases hindex : index = pi
    · simp [hindex]
    · simp [hindex, Ne.symm hindex]
  · simp [hlist, Ne.symm hlist]

theorem Objects.strip?_applyUpdate [CastUndefined] {o o' : Objects} {data : UpdatesToQtThreadData}
    {pod : SpaPod} (hobj : pod.isObject = true) (h : o.applyUpdate data (some pod) = some o')
    (place : Place) : o'.strip? place =
      if place = ⟨data.channelStripsModel, data.channelIndex⟩ then
        (o.strip? place).map (applyParams pod.decodedParams)
      else o.strip? place := by
  obtain ⟨l, hl, h⟩ := Option.bind_eq_some_iff.mp h
  rw [ChannelStripListModel.applyUpdate_of_isObject _ _ hobj, Option.map_some] at h
  obtain rfl := Option.some.inj h
  exact strip?_modifyStrip hl _ _ place

theorem Objects.exists_applyUpdate [CastUndefined] {o : Objects} {data : UpdatesToQtThreadData}
    {pod : SpaPod} (hobj : pod.isObject = true) {position : Nat}
    (h : (o.strip? ⟨data.channelStripsModel, position⟩).isSome = true) :
    ∃ o', o.applyUpdate data (some pod) = some o' := by
  obtain ⟨strip, hstrip⟩ := Option.isSome_iff_exists.mp h
  obtain ⟨l, hl, -⟩ := Option.bind_eq_some_iff.mp hstrip
  simp only at hl
  rw [applyUpdate, hl, Option.bind_some, ChannelStripListModel.applyUpdate_of_isObject _ _ hobj]
  exact ⟨_, rfl⟩

namespace Built

variable {sites : List Site} {o o' : Objects}

theorem controlNames (h : Built sites o) :
    o.channels.map ChannelData.controlNodeName = sites.map fun s => s.nodePrefix ++ "-control" := by
  rw [h.channels]
  apply List.ext_getElem?
  intro q
  simp only [List.getElem?_map, List.getElem?_mapIdx]
  cases sites[q]? <;> rfl

theorem queueNumbers (h : Built sites o) :
    o.channels.map ChannelData.queue = List.range sites.length := by
  rw [h.channels]
  apply List.ext_getElem
  · simp
  · intro q _ _
    simp

theorem strip_isSome (h : Built sites o) (place : Place) :
    (o.strip? place).isSome = (o.queue? place).isSome := by
  unfold Objects.strip? Objects.queue?
  cases hl : o.stripLists[place.list]? with
  | none => rfl
  | some l =>
    have hlength := h.lengths l (List.mem_iff_getElem?.mpr ⟨_, hl⟩)
    exact Bool.eq_iff_iff.mpr (by simp [hlength])

theorem fresh_strip (h : Built sites o) {place : Place} {strip : ChannelStripModel}
    (hstrip : o.strip? place = some strip) : ∃ name, strip = { name := name } := by
  obtain ⟨l, hl, hget⟩ := Option.bind_eq_some_iff.mp hstrip
  exact h.fresh l (List.mem_iff_getElem?.mpr ⟨_, hl⟩) strip (List.mem_iff_getElem?.mpr ⟨_, hget⟩)

theorem queue_iff (h : Built sites o) {k : Nat} {s : Site} (hs : sites[k]? = some s) (place : Place) :
    o.queue? place = some k ↔ place = s.place := by
  rw [h.queue, hs, Option.map_some, Option.some.injEq, eq_comm]

variable [CastUndefined]

/-- **A channel whose sync entry has its strip's index** gets its own feedback. -/
theorem feedbackReaches (h : Built sites o) (hwiring : SameWiring o o') {k : Nat} {s : Site}
    (hs : sites[k]? = some s) (hindex : s.channelIndex = s.place.position) :
    FeedbackReaches o' k s.syncInfo := by
  have hqueue : o.queue? s.place = some k := (h.queue_iff hs s.place).mpr rfl
  have hsome : (o'.strip? s.place).isSome = true := by
    rw [hwiring.strip, h.strip_isSome, hqueue]
    rfl
  obtain ⟨strip, hstrip⟩ := Option.isSome_iff_exists.mp hsome
  refine ⟨s.place, strip, fun p => ?_, hstrip, fun pod hobj => ?_⟩
  · rw [hwiring.queue, h.queue_iff hs]
  · obtain ⟨o'', ho''⟩ : ∃ o'', o'.applyUpdate s.syncInfo (some pod) = some o'' :=
      Objects.exists_applyUpdate hobj hsome
    refine ⟨o'', applyParams pod.decodedParams strip, ho'', (apply_fst strip pod).trans (if_pos hobj),
      fun p => ?_⟩
    have hplace : (⟨s.syncInfo.channelStripsModel, s.syncInfo.channelIndex⟩ : Place) = s.place := by
      simp only [Site.syncInfo, hindex]
    rw [Objects.strip?_applyUpdate hobj ho'' p, hplace]
    split
    · next hp => rw [hp, hstrip, Option.map_some]
    · rfl

theorem looperMix_applyParams (name : String) :
    (applyParams (FeedbackPath.mixValue (.finite 70)).decodedParams { name := name }).looperMix =
      .finite 70 := rfl

/-- A channel whose sync entry has another index than its strip does not get its feedback. -/
theorem not_feedbackReaches (h : Built sites o) {k : Nat} {s : Site} (hs : sites[k]? = some s)
    (hindex : s.channelIndex ≠ s.place.position) : ¬ FeedbackReaches o k s.syncInfo := by
  rintro ⟨place, strip, hunique, hstrip, hreaches⟩
  obtain rfl : s.place = place := (hunique s.place).mp ((h.queue_iff hs s.place).mpr rfl)
  obtain ⟨o', strip', ho', hstrip', hall⟩ := hreaches (FeedbackPath.mixValue (.finite 70)) rfl
  have hplace : s.place ≠ ⟨s.syncInfo.channelStripsModel, s.syncInfo.channelIndex⟩ :=
    fun heq => hindex (congrArg Place.position heq).symm
  have hsame := hall s.place
  rw [if_pos rfl, Objects.strip?_applyUpdate rfl ho', if_neg hplace, hstrip] at hsame
  obtain rfl := Option.some.inj hsame
  obtain ⟨name, rfl⟩ := h.fresh_strip hstrip
  have happlied := Option.some.inj (((apply_fst _ _).trans (if_pos rfl)).symm.trans hstrip')
  have hmix := looperMix_applyParams name
  rw [happlied] at hmix
  exact absurd hmix (show (.finite 50 : Double) ≠ .finite 70 by decide)

end Built

/-! ## The construction is consistent up to one layer -/

theorem mem_sites_of_second {layer layer' : Setup.LayerSetup} (layers : List Setup.LayerSetup) :
    ⟨layer'.layerChannel.pipewireNodeNamePrefix, ⟨5, 0⟩, 1⟩ ∈ sites 0 (layer :: layer' :: layers) := by
  simp [sites, layerSites]

theorem sites_indices_iff (layers : List Setup.LayerSetup) :
    (∀ s ∈ sites 0 layers, s.channelIndex = s.place.position) ↔ layers.length ≤ 1 := by
  match layers with
  | [] => simp [sites]
  | [layer] =>
    refine ⟨fun _ => le_rfl, fun _ s hs => ?_⟩
    rw [sites, sites, List.append_nil, layerSites] at hs
    rcases List.mem_append.mp hs with hs | hs
    · rcases List.mem_append.mp hs with hs | hs
      · exact channelIndex_of_mem_channelSites hs
      · exact channelIndex_of_mem_channelSites hs
    · rw [List.mem_singleton.mp hs]
  | layer :: layer' :: layers =>
    refine ⟨fun h => absurd (h _ (mem_sites_of_second layers)) (by simp), fun h => ?_⟩
    simp only [List.length_cons] at h
    omega

section

variable [CastUndefined]

/-- What holds for every setup: the entries, the queues and the strips. -/
theorem Consistent.of_wired {setup : Setup.MixerSetup}
    (hwired : ∀ o', SameWiring (construct setup) o' → ∀ (k : Nat) channel data,
      o'.channels[k]? = some channel → o'.pipewireQtSyncInfo[k]? = some data →
      FeedbackReaches o' channel.queue data) : Consistent setup (construct setup) where
  controlNames := by
    rw [(Built.construct setup).controlNames, Setup.MixerSetup.nodePrefixes,
      ← map_nodePrefix_sites 0, List.map_map]
    rfl
  queues := by
    rw [(Built.construct setup).queueNumbers]
    exact List.nodup_range
  syncNames := by
    rw [(Built.construct setup).syncInfo, Setup.MixerSetup.nodePrefixes, ← map_nodePrefix_sites 0,
      List.map_map, List.map_map]
    rfl
  strips := fun place hplace => by
    rw [(Built.construct setup).strip_isSome] at hplace
    obtain ⟨q, hq⟩ := Option.isSome_iff_exists.mp hplace
    obtain ⟨s, hs, -⟩ := Option.map_eq_some_iff.mp (((Built.construct setup).queue place q).mp hq)
    refine ⟨⟨q, s.nodePrefix ++ "-control"⟩, ?_, hq⟩
    rw [(Built.construct setup).channels]
    exact List.mem_iff_getElem?.mpr ⟨q, by rw [List.getElem?_mapIdx, hs]; rfl⟩
  wired := hwired

/-- **The construction is consistent** exactly when there is at most one layer. -/
theorem consistent_construct_iff (setup : Setup.MixerSetup) :
    Consistent setup (construct setup) ↔ setup.layers.length ≤ 1 := by
  have hbuilt := Built.construct setup
  rw [← sites_indices_iff]
  constructor
  · intro h s hs
    by_contra hindex
    obtain ⟨k, hk⟩ := List.mem_iff_getElem?.mp hs
    refine hbuilt.not_feedbackReaches hk hindex
      (h.wired _ (.refl _) k ⟨k, s.nodePrefix ++ "-control"⟩ _ ?_ ?_)
    · rw [hbuilt.channels, List.getElem?_mapIdx, hk]
      rfl
    · rw [hbuilt.syncInfo, List.getElem?_map, hk]
      rfl
  · intro hindices
    refine .of_wired fun o' hwiring k channel data hchannel hdata => ?_
    rw [hwiring.channels, hbuilt.channels, List.getElem?_mapIdx] at hchannel
    rw [hwiring.syncInfo, hbuilt.syncInfo, List.getElem?_map] at hdata
    obtain ⟨s, hs, rfl⟩ := Option.map_eq_some_iff.mp hdata
    rw [hs, Option.map_some] at hchannel
    obtain rfl := Option.some.inj hchannel
    exact hbuilt.feedbackReaches hwiring hs (hindices s (List.mem_iff_getElem?.mpr ⟨k, hs⟩))

end

/-- Two layers without inputs and groups: the second layer's feedback reaches no strip. -/
theorem second_layer_gets_no_feedback : ¬ ∀ setup : Setup.MixerSetup,
    @Consistent .x86 setup (construct setup) := by
  intro h
  let setup : Setup.MixerSetup := { layers :=
    [{ layerChannel := { name := "Left Layer", pipewireNodeNamePrefix := "pmx-layer-a" } },
      { layerChannel := { name := "Right Layer", pipewireNodeNamePrefix := "pmx-layer-b" } }] }
  exact @Built.not_feedbackReaches _ _ .x86 (Built.construct setup) 1 ⟨"pmx-layer-b", ⟨5, 0⟩, 1⟩ rfl
    (by decide) (@Consistent.wired .x86 _ _ (h setup) _ (.refl _) 1 _ _ rfl rfl)

end Kpmx.Main
