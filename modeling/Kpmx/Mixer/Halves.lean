import Kpmx.Wireplumber.Session

/-!
# The two halves of a strip

A strip has a routing half, its target, its object id and its name, and a half of parameters and other
settings. The node messages read and write the routing half alone; the setters and the feedback leave
it alone.

* `routing_step` : a step of the session does to the routing halves what it does to the strips;
* `step_settings` : and leaves the other halves alone;
* `routing_perform`, `routing_applyParams` : setters and feedback leave the routing halves alone.
-/

namespace Kpmx

/-! ## Maps over all strips -/

def ChannelStripListModel.mapStrips (f : ChannelStripModel → ChannelStripModel)
    (l : ChannelStripListModel) : ChannelStripListModel where
  channelStrips := l.channelStrips.map f

def LayerModel.mapStrips (f : ChannelStripModel → ChannelStripModel) (l : LayerModel) : LayerModel where
  name := l.name
  inputChannels := l.inputChannels.mapStrips f
  groupChannels := l.groupChannels.mapStrips f
  layerChannels := l.layerChannels.mapStrips f

def LayersListModel.mapStrips (f : ChannelStripModel → ChannelStripModel) (l : LayersListModel) :
    LayersListModel where
  layers := l.layers.map (LayerModel.mapStrips f)

section MapStrips

variable {f g g' : ChannelStripModel → ChannelStripModel}

theorem map_modify_comm {α β : Type*} (l : List α) (i : Nat) (f : α → β) {g : α → α} {g' : β → β}
    (h : ∀ a, f (g a) = g' (f a)) : (l.modify i g).map f = (l.map f).modify i g' := by
  apply List.ext_getElem?
  intro j
  rw [List.getElem?_map, List.getElem?_modify, List.getElem?_modify, List.getElem?_map]
  by_cases hj : i = j
  · cases l[j]? <;> simp [hj, h]
  · cases l[j]? <;> simp [hj]

theorem ChannelStripListModel.mapStrips_modifyStrip (h : ∀ s, f (g s) = g' (f s))
    (l : ChannelStripListModel) (index : Nat) :
    (l.modifyStrip index g).mapStrips f = (l.mapStrips f).modifyStrip index g' :=
  congrArg ChannelStripListModel.mk (map_modify_comm l.channelStrips index f h)

theorem LayerModel.mapStrips_modifyChannels {F F' : ChannelStripListModel → ChannelStripListModel}
    (h : ∀ c, (F c).mapStrips f = F' (c.mapStrips f)) (l : LayerModel) (kind : ChannelKind) :
    (l.modifyChannels kind F).mapStrips f = (l.mapStrips f).modifyChannels kind F' := by
  cases kind <;> simp only [modifyChannels, mapStrips, h]

theorem LayerModel.channels_mapStrips (l : LayerModel) (kind : ChannelKind) :
    (l.mapStrips f).channels kind = (l.channels kind).mapStrips f := by
  cases kind <;> rfl

namespace LayersListModel

theorem strip?_mapStrips (l : LayersListModel) (r : StripRef) :
    (l.mapStrips f).strip? r = (l.strip? r).map f := by
  unfold strip? mapStrips
  rw [List.getElem?_map]
  cases l.layers[r.layer]? with
  | none => rfl
  | some layer =>
    rw [Option.map_some, Option.bind_some, Option.bind_some, LayerModel.channels_mapStrips]
    exact List.getElem?_map ..

theorem mapStrips_modifyStrip (h : ∀ s, f (g s) = g' (f s)) (l : LayersListModel) (r : StripRef) :
    (l.modifyStrip r g).mapStrips f = (l.mapStrips f).modifyStrip r g' :=
  congrArg LayersListModel.mk (map_modify_comm l.layers r.layer _ fun layer =>
    layer.mapStrips_modifyChannels (fun c => c.mapStrips_modifyStrip h r.index) r.kind)

theorem onChannels_mapStrips {F F' : ChannelStripListModel → ChannelStripListModel}
    (h : ∀ c, (F c).mapStrips f = F' (c.mapStrips f)) (l : LayersListModel) (layerIndex : Int)
    (kind : ChannelKind) : (l.mapStrips f).onChannels layerIndex kind F' =
      (l.onChannels layerIndex kind F).map (mapStrips f) := by
  unfold onChannels mapStrips
  rw [List.length_map]
  by_cases hindex : 0 ≤ layerIndex ∧ layerIndex < l.layers.length
  · rw [if_pos hindex, if_pos hindex, ← map_modify_comm l.layers layerIndex.toNat _ fun layer =>
      layer.mapStrips_modifyChannels h kind]
    rfl
  · rw [if_neg hindex, if_neg hindex]
    rfl

theorem modifyStrip_id (l : LayersListModel) (r : StripRef) : l.modifyStrip r id = l := by
  have hlayer : (fun layer : LayerModel =>
      layer.modifyChannels r.kind fun channels => channels.modifyStrip r.index id) = id := by
    funext layer
    simp only [ChannelStripListModel.modifyStrip_id]
    cases r.kind <;> rfl
  rw [modifyStrip, hlayer, List.modify_id]

theorem mapStrips_modifyStrip_of_eq (h : ∀ s, f (g s) = f s) (l : LayersListModel) (r : StripRef) :
    (l.modifyStrip r g).mapStrips f = l.mapStrips f :=
  (mapStrips_modifyStrip h l r).trans (modifyStrip_id _ r)

end LayersListModel

end MapStrips

/-! ## The routing half -/

/-- A new strip with the routing of a given one. -/
def ChannelStripModel.routing (s : ChannelStripModel) : ChannelStripModel where
  targetObject := s.targetObject
  objectId := s.objectId
  name := s.name

/-- The routing half of a setter's result, and what is pushed, depend on the routing half alone. -/
theorem ChannelStripModel.setTargetObject_routing (s : ChannelStripModel) (targetObject : QVariant) :
    (s.setTargetObject targetObject).strip.routing = (s.routing.setTargetObject targetObject).strip ∧
      (s.routing.setTargetObject targetObject).pushed = (s.setTargetObject targetObject).pushed := by
  have hid : s.routing.objectId = s.objectId := rfl
  have htarget : s.routing.targetObject = s.targetObject := rfl
  unfold setTargetObject
  rw [hid, htarget]
  cases targetObject with
  | some newValue =>
    cases s.objectId with
    | some id =>
      simp only
      split
      · exact ⟨rfl, rfl⟩
      · exact ⟨rfl, rfl⟩
    | none => exact ⟨rfl, rfl⟩
  | none =>
    cases s.objectId with
    | some id =>
      simp only
      split
      · exact ⟨rfl, rfl⟩
      · exact ⟨rfl, rfl⟩
    | none => exact ⟨rfl, rfl⟩

namespace LayersListModel

/-- The tree with the routing halves of its strips. -/
abbrev routing (l : LayersListModel) : LayersListModel := l.mapStrips ChannelStripModel.routing

theorem updateFromNode_routing (c : ChannelStripListModel) (index : Nat) (node : WireplumberNode) :
    (c.updateFromWireplumberNode index node).mapStrips ChannelStripModel.routing =
      (c.mapStrips ChannelStripModel.routing).updateFromWireplumberNode index node := by
  rw [ChannelStripListModel.updateFromWireplumberNode_eq,
    ChannelStripListModel.updateFromWireplumberNode_eq]
  refine ChannelStripListModel.mapStrips_modifyStrip ?_ c index
  intro s
  rfl

theorem initialChannelUpdate_routing (l : LayersListModel) (node : WireplumberNode) :
    l.routing.initialChannelUpdate node = (l.initialChannelUpdate node).map routing := by
  have hon : ∀ (layerIndex : Int) kind index,
      l.routing.onChannels layerIndex kind
          (fun c => c.updateFromWireplumberNode index node) =
        (l.onChannels layerIndex kind fun c => c.updateFromWireplumberNode index node).map routing :=
    fun layerIndex kind index =>
      l.onChannels_mapStrips (fun c => updateFromNode_routing c index node) layerIndex kind
  unfold initialChannelUpdate
  cases node.name with
  | none => rfl
  | some name =>
    simp only
    split
    · cases parsePmxInputName name with
      | none => rfl
      | some p => exact hon _ _ _
    · split
      · cases parsePmxGroupName name with
        | none => rfl
        | some p => exact hon _ _ _
      · split
        · exact hon _ _ _
        · rfl

theorem updateTargetObjectForNodeName_routing (l : LayersListModel) (nodeName : String)
    (targetObject : Option String) : l.routing.updateTargetObjectForNodeName nodeName targetObject =
      (l.updateTargetObjectForNodeName nodeName targetObject).map routing := by
  unfold updateTargetObjectForNodeName
  cases parsePmxInputName nodeName with
  | none => rfl
  | some p =>
    refine l.onChannels_mapStrips (fun c => ?_) _ _
    rw [ChannelStripListModel.updateTargetObject_eq, ChannelStripListModel.updateTargetObject_eq]
    refine ChannelStripListModel.mapStrips_modifyStrip ?_ c _
    intro s
    rfl

end LayersListModel

def QtModels.routing (m : QtModels) : QtModels where
  nodes := m.nodes
  layers := m.layers.routing

theorem PostedCall.run_routing (call : PostedCall) (m : QtModels) :
    call.run m.routing = (call.run m).map QtModels.routing := by
  cases call with
  | addNode node => rfl
  | initialChannelUpdate node =>
    change (m.layers.routing.initialChannelUpdate node).map _ = _
    rw [m.layers.initialChannelUpdate_routing node, run]
    cases m.layers.initialChannelUpdate node <;> rfl
  | deleteNodeByObjectSerial node =>
    rw [run, run]
    cases node.objectSerial <;> rfl
  | metadataUpdate update =>
    have hnodes : m.routing.nodes = m.nodes := rfl
    have hlayers : m.routing.layers = m.layers.routing := rfl
    rw [run, run, hnodes, hlayers]
    split
    · simp only
      cases (m.nodes.updateNodeTargetObject update.id update.value).1.nodeByObjectId update.id with
      | none => rfl
      | some node =>
        simp only
        cases hname : node.name with
        | none => rfl
        | some name =>
          simp only [m.layers.updateTargetObjectForNodeName_routing]
          cases m.layers.updateTargetObjectForNodeName name update.value <;> rfl
    · rfl

namespace Session

/-- The session with the routing halves of the strips. -/
def routing (st : Session) : Session := { st with models := st.models.routing }

theorem setTargetObject_routing (st : Session) (r : StripRef) (targetObject : QVariant) :
    st.routing.setTargetObject r targetObject = (st.setTargetObject r targetObject).map routing := by
  have hstrip : st.routing.models.layers.strip? r =
      (st.models.layers.strip? r).map ChannelStripModel.routing :=
    st.models.layers.strip?_mapStrips r
  unfold setTargetObject
  rw [hstrip]
  cases st.models.layers.strip? r with
  | none => rfl
  | some strip =>
    simp only [Option.map_some, (strip.setTargetObject_routing targetObject).2]
    have hlayers : (st.models.layers.modifyStrip r fun s => (s.setTargetObject targetObject).strip).routing =
        st.models.layers.routing.modifyStrip r fun s => (s.setTargetObject targetObject).strip :=
      st.models.layers.mapStrips_modifyStrip (fun s => (s.setTargetObject_routing targetObject).1) r
    simp only [routing, QtModels.routing, hlayers]
    rfl

theorem metadataUpdateThread_routing (st : Session) (s : DrainStep) :
    st.routing.metadataUpdateThread s = (st.metadataUpdateThread s).map routing := by
  have hqueue : st.routing.metadataUpdatesQueue = st.metadataUpdatesQueue := rfl
  have hmetadata : st.routing.metadata = st.metadata := rfl
  cases s with
  | start =>
    rw [metadataUpdateThread, metadataUpdateThread, hqueue]
    cases st.metadataUpdatesQueue.start <;> rfl
  | next =>
    rw [metadataUpdateThread, metadataUpdateThread, hqueue, hmetadata]
    cases st.metadataUpdatesQueue.next with
    | none => rfl
    | some p => cases st.metadata <;> rfl
  | finish =>
    rw [metadataUpdateThread, metadataUpdateThread, hqueue]
    cases st.metadataUpdatesQueue.finish <;> rfl

theorem nodesModelThread_routing (st : Session) (s : DrainStep) :
    st.routing.nodesModelThread s = (st.nodesModelThread s).map routing := by
  have hqueue : st.routing.queue = st.queue := rfl
  have htoPost : st.routing.toPost = st.toPost := rfl
  cases s with
  | start =>
    rw [nodesModelThread, nodesModelThread, hqueue]
    cases st.queue.start <;> rfl
  | next =>
    rw [nodesModelThread, nodesModelThread, htoPost, hqueue]
    split
    · cases st.queue.next with
      | none => rfl
      | some p =>
        change Option.map _ (updateModel p.1).toOption =
          (Option.map _ (updateModel p.1).toOption).map routing
        cases updateModel p.1 <;> rfl
    · rfl
  | finish =>
    rw [nodesModelThread, nodesModelThread, htoPost, hqueue]
    split
    · cases st.queue.finish <;> rfl
    · rfl

/-- **The session works on the routing halves**: a step does to them what it does to the strips. -/
theorem routing_step (st : Session) (l : Action) : step st.routing l = (step st l).map routing := by
  cases l with
  | setTargetObject r targetObject => exact st.setTargetObject_routing r targetObject
  | metadataUpdateThread s => exact st.metadataUpdateThread_routing s
  | idleCallback =>
    rw [step, step, show st.routing.idle = st.idle from rfl]
    cases st.idle <;> rfl
  | metadataAdded => rfl
  | metadataChangedCallback =>
    rw [step, step, show st.routing.changed = st.changed from rfl]
    cases st.changed <;> rfl
  | foreignChange update =>
    rw [step, step, show st.routing.metadata = st.metadata from rfl]
    cases st.metadata <;> rfl
  | nodeAddedCallback node => rfl
  | nodeRemovedCallback node => rfl
  | nodesModelThread s => exact st.nodesModelThread_routing s
  | post =>
    rw [step, step, show st.routing.toPost = st.toPost from rfl]
    cases st.toPost <;> rfl
  | postedCall =>
    rw [step, step, show st.routing.posted = st.posted from rfl]
    cases st.posted with
    | nil => rfl
    | cons call rest =>
      change Option.map _ (call.run st.models.routing).toOption =
        (Option.map _ (call.run st.models).toOption).map routing
      rw [call.run_routing]
      cases call.run st.models <;> rfl

end Session

/-! ## The other half -/

/-- A strip without its routing. -/
def ChannelStripModel.settings (s : ChannelStripModel) : ChannelStripModel :=
  { s with targetObject := none, objectId := none, name := "" }

theorem Param.get_settings (p : Param) (s : ChannelStripModel) : p.get s.settings = p.get s := by
  cases p <;> rfl

/-- The tree without its routing. -/
abbrev LayersListModel.settings (l : LayersListModel) : LayersListModel :=
  l.mapStrips ChannelStripModel.settings

theorem ChannelStripModel.setTargetObject_settings (s : ChannelStripModel) (targetObject : QVariant) :
    (s.setTargetObject targetObject).strip.settings = s.settings := by
  unfold setTargetObject
  cases targetObject <;> cases s.objectId <;> simp only <;> first | rfl | (split <;> rfl)

theorem PostedCall.run_settings {call : PostedCall} {m m' : QtModels} (h : call.run m = .ok m') :
    m'.layers.settings = m.layers.settings := by
  cases call with
  | addNode node => cases h; rfl
  | initialChannelUpdate node =>
    rw [run] at h
    cases hlayers : m.layers.initialChannelUpdate node with
    | error e => rw [hlayers] at h; cases h
    | ok layers =>
      rw [hlayers] at h
      cases h
      change layers.settings = _
      rw [LayersListModel.initialChannelUpdate_ok hlayers]
      cases node.name.bind LayersListModel.addressed with
      | none => rfl
      | some r =>
        refine m.layers.mapStrips_modifyStrip_of_eq ?_ r
        intro s
        rfl
  | deleteNodeByObjectSerial node =>
    rw [run] at h
    cases hserial : node.objectSerial with
    | none => rw [hserial] at h; cases h
    | some objectSerial => rw [hserial] at h; cases h; rfl
  | metadataUpdate update =>
    rw [run] at h
    split at h
    · simp only at h
      split at h
      · split at h
        · next name _ =>
          cases hlayers : m.layers.updateTargetObjectForNodeName name update.value with
          | error e => rw [hlayers] at h; cases h
          | ok layers =>
            rw [hlayers] at h
            cases h
            change layers.settings = _
            rw [LayersListModel.updateTargetObjectForNodeName_ok hlayers]
            cases parsePmxInputName name with
            | none => rfl
            | some p =>
              refine m.layers.mapStrips_modifyStrip_of_eq ?_ _
              intro s
              rfl
        · cases h
      · cases h; rfl
    · cases h; rfl

theorem Session.step_settings {a b : Session} {l : Action} (h : step a l = some b) :
    b.models.layers.settings = a.models.layers.settings := by
  cases l with
  | setTargetObject r targetObject =>
    obtain ⟨strip, -, rfl⟩ := setTargetObject_eq_some.mp h
    exact a.models.layers.mapStrips_modifyStrip_of_eq
      (fun s => s.setTargetObject_settings targetObject) r
  | metadataUpdateThread s =>
    obtain ⟨queue, -, rfl⟩ | ⟨update, queue, -, rfl⟩ := metadataUpdateThread_cases h
    · rfl
    · split <;> rfl
  | idleCallback => obtain ⟨update, rest, -, rfl⟩ := step_idleCallback h; rfl
  | metadataAdded => cases h; rfl
  | metadataChangedCallback => obtain ⟨update, rest, -, rfl⟩ := step_metadataChangedCallback h; rfl
  | foreignChange update => rw [step_foreignChange h]
  | nodeAddedCallback node => cases h; rfl
  | nodeRemovedCallback node => cases h; rfl
  | nodesModelThread s =>
    obtain ⟨queue, -, rfl⟩ | ⟨message, queue, calls, -, -, -, rfl⟩ := nodesModelThread_cases h
    · rfl
    · rfl
  | post => obtain ⟨call, rest, -, rfl⟩ := step_post h; rfl
  | postedCall =>
    obtain ⟨call, rest, models, -, hrun, rfl⟩ := step_postedCall h
    exact PostedCall.run_settings hrun

/-! ## Setters and feedback -/

theorem ChannelStripModel.routing_of_unsent {s t : ChannelStripModel} (h : s.unsent = t.unsent) :
    s.routing = t.routing := by
  simp only [unsent, UnsentFields.mk.injEq] at h
  simp only [routing, h]

theorem SetterCall.routing_perform (c : SetterCall) (s : ChannelStripModel) :
    (c.perform s).strip.routing = s.routing := by
  cases h : c.param.type.ne (c.param.get s) c.value with
  | false => rw [perform_of_eq h]
  | true =>
    rw [perform_of_ne h]
    exact ChannelStripModel.routing_of_unsent (c.param.unsent_set c.value s)

theorem LocalCall.routing_perform (c : LocalCall) (s : ChannelStripModel) :
    (c.perform s).strip.routing = s.routing := by
  cases c <;> simp only [perform, ChannelStripModel.setSelectedLoop,
    ChannelStripModel.setLooperPlaying, ChannelStripModel.setLooperRecording,
    ChannelStripModel.setPan] <;> split <;> rfl

theorem LocalCall.get_perform (c : LocalCall) (p : Param) (s : ChannelStripModel) :
    p.get (c.perform s).strip = p.get s := by
  cases c <;> simp only [perform, ChannelStripModel.setSelectedLoop,
    ChannelStripModel.setLooperPlaying, ChannelStripModel.setLooperRecording,
    ChannelStripModel.setPan] <;> split <;> cases p <;> rfl

theorem routing_applyParams [CastUndefined] (params : List DecodedParam) (s : ChannelStripModel) :
    (applyParams params s).routing = s.routing :=
  ChannelStripModel.routing_of_unsent (unsent_applyParams params s)

end Kpmx
