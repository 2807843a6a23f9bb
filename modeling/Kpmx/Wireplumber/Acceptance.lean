import Kpmx.Mixer.Halves
import Kpmx.Wireplumber.Targets

/-!
# Calls that return

The handlers of the posted calls throw at a name that leads to no layer, at a removed node without a
serial and at a row without a name.

* `Acceptable` : what a node, a call or a message needs for its handlers to return;
* `PostedCall.Acceptable.run_ok` : they return when the rows are acceptable too;
* `Session.Accepting.step` : as long as the callbacks report acceptable nodes, everything on its way and
  every row is acceptable.
-/

namespace Kpmx

open Runs Spsc

namespace LayersListModel

theorem leadsToLayer_congr {l l' : LayersListModel} (h : l.layers.length = l'.layers.length)
    (name : String) : LeadsToLayer l name ↔ LeadsToLayer l' name := by
  unfold LeadsToLayer
  rw [h]

theorem length_of_settings {l l' : LayersListModel} (h : l'.settings = l.settings) :
    l'.layers.length = l.layers.length := by
  have hlength := congrArg (fun l : LayersListModel => l.layers.length) h
  simpa [settings, mapStrips] using hlength

/-- A target reaches an existing layer when the first update of the node does. -/
theorem updateTargetObjectForNodeName_isOk {l : LayersListModel} {name : String}
    (h : LeadsToLayer l name) (targetObject : Option String) :
    ∃ l', l.updateTargetObjectForNodeName name targetObject = .ok l' := by
  unfold updateTargetObjectForNodeName
  cases hparse : parsePmxInputName name with
  | none => exact ⟨l, rfl⟩
  | some p =>
    rw [LeadsToLayer, family_of_parsed hparse, hparse] at h
    obtain ⟨q, hq, hlt⟩ := h
    obtain rfl := Option.some.inj hq
    have hlower := (parsePmxName_eq_some_iff.mp hparse).1
    exact onChannels_isOk_iff.mpr ⟨layerIndex_nonneg hlower, hlt⟩

end LayersListModel

/-! ## What the handlers need -/

/-- A name, if there is one, that leads to a layer; and a name if there is an id. -/
structure WireplumberNode.Acceptable (l : LayersListModel) (node : WireplumberNode) : Prop where
  leads : ∀ name, node.name = some name → l.LeadsToLayer name
  named : node.name = none → node.id = none

def PostedCall.Acceptable (l : LayersListModel) : PostedCall → Prop
  | .addNode node | .initialChannelUpdate node => node.Acceptable l
  | .deleteNodeByObjectSerial node => node.objectSerial.isSome = true
  | .metadataUpdate _ => True

def WireplumberObjectManagerQueueMessage.Acceptable (l : LayersListModel)
    (message : WireplumberObjectManagerQueueMessage) : Prop :=
  ∃ calls, updateModel message = .ok calls ∧ ∀ call ∈ calls, call.Acceptable l

/-- The nodes that the callbacks are given. -/
def Session.Action.Acceptable (l : LayersListModel) : Session.Action → Prop
  | .nodeAddedCallback node => node.Acceptable l
  | .nodeRemovedCallback node => node.objectSerial.isSome = true
  | _ => True

/-- The models that the handlers find. -/
structure QtModels.Accepting (l : LayersListModel) (m : QtModels) : Prop where
  layers : m.layers.layers.length = l.layers.length
  rows : ∀ row ∈ m.nodes.nodes, row.Acceptable l

/-- **The handlers return.** -/
theorem PostedCall.Acceptable.run_ok {l : LayersListModel} {call : PostedCall} {m : QtModels}
    (h : call.Acceptable l) (hm : m.Accepting l) : ∃ m', call.run m = .ok m' := by
  cases call with
  | addNode node => exact ⟨_, rfl⟩
  | initialChannelUpdate node =>
    have hlayers : ∃ layers, m.layers.initialChannelUpdate node = .ok layers := by
      cases hname : node.name with
      | none => exact ⟨m.layers, by rw [LayersListModel.initialChannelUpdate, hname]⟩
      | some name =>
        exact (LayersListModel.initialChannelUpdate_isOk_iff hname).mpr
          ((LayersListModel.leadsToLayer_congr hm.layers name).mpr (h.leads name hname))
    obtain ⟨layers, hlayers⟩ := hlayers
    exact ⟨{ m with layers := layers }, by rw [run, hlayers]; rfl⟩
  | deleteNodeByObjectSerial node =>
    obtain ⟨objectSerial, hserial⟩ := Option.isSome_iff_exists.mp h
    exact ⟨_, by rw [run, hserial]⟩
  | metadataUpdate update =>
    simp only [run, NodesListModel.nodeByObjectId_updateNodeTargetObject]
    split
    · cases hrow : m.nodes.nodeByObjectId update.id with
      | none => exact ⟨_, rfl⟩
      | some row =>
        have hid : row.id = some update.id := by simpa using List.find?_some hrow
        have hacceptable := hm.rows row (List.mem_of_find?_eq_some hrow)
        cases hname : row.name with
        | none => rw [hacceptable.named hname] at hid; cases hid
        | some name =>
          have hleads := (LayersListModel.leadsToLayer_congr hm.layers name).mpr
            (hacceptable.leads name hname)
          obtain ⟨layers, hlayers⟩ :=
            LayersListModel.updateTargetObjectForNodeName_isOk hleads update.value
          simp only [Option.map_some, hname, hlayers]
          exact ⟨_, rfl⟩
    · exact ⟨m, rfl⟩

/-! ## Runs -/

namespace Session

/-- Everything on its way is acceptable, and so are the rows. -/
structure Accepting (l : LayersListModel) (st : Session) : Prop where
  models : st.models.Accepting l
  messages : ∀ message ∈ st.queue.pending, message.Acceptable l
  calls : ∀ call ∈ st.calls, call.Acceptable l

theorem accepting_start (setup : List LayerSetup) : Accepting (.ofSetup setup) (start setup) where
  models := ⟨rfl, fun _ h => absurd h List.not_mem_nil⟩
  messages := fun _ h => absurd h List.not_mem_nil
  calls := fun _ h => absurd h List.not_mem_nil

section
variable {l : LayersListModel} {a b : Session}

theorem rows_acceptable_run {call : PostedCall} {m m' : QtModels} (h : call.Acceptable l)
    (hm : m.Accepting l) (hrun : call.run m = .ok m') : ∀ row ∈ m'.nodes.nodes, row.Acceptable l := by
  cases call with
  | addNode node =>
    obtain rfl := Except.ok.inj hrun
    intro row hrow
    rcases List.mem_append.mp hrow with hrow | hrow
    · exact hm.rows row hrow
    · exact List.mem_singleton.mp hrow ▸ h
  | initialChannelUpdate node =>
    rw [PostedCall.run] at hrun
    cases hlayers : m.layers.initialChannelUpdate node with
    | error e => rw [hlayers] at hrun; cases hrun
    | ok layers =>
      rw [hlayers] at hrun
      obtain rfl := Except.ok.inj hrun
      exact hm.rows
  | deleteNodeByObjectSerial node =>
    rw [PostedCall.run] at hrun
    split at hrun
    · next objectSerial _ =>
      obtain rfl := Except.ok.inj hrun
      exact fun row hrow =>
        hm.rows row ((QtModels.sublist_deleteNodeByObjectSerial _ objectSerial).subset hrow)
    · cases hrun
  | metadataUpdate update =>
    obtain rfl | ⟨before, row, after, name, hrows, -, hrows', -⟩ := QtModels.metadataUpdate_cases hrun
    · exact hm.rows
    · intro other hother
      have hold := hm.rows
      rw [hrows] at hold
      rw [hrows'] at hother
      simp only [List.mem_append, List.mem_cons] at hother hold
      rcases hother with hother | rfl | hother
      · exact hold other (.inl hother)
      · exact ⟨(hold row (.inr (.inl rfl))).leads, (hold row (.inr (.inl rfl))).named⟩
      · exact hold other (.inr (.inr hother))

theorem Accepting.of_eq (h : Accepting l a) (hmodels : b.models = a.models)
    (hpending : b.queue.pending = a.queue.pending) (hcalls : b.calls = a.calls) : Accepting l b where
  models := hmodels ▸ h.models
  messages := hpending ▸ h.messages
  calls := hcalls ▸ h.calls

theorem Accepting.pushMessage (h : Accepting l a) {message : WireplumberObjectManagerQueueMessage}
    (hmessage : message.Acceptable l) : Accepting l (a.pushMessage message) where
  models := h.models
  messages := fun other hother => by
    rcases Consuming.mem_pending_push hother with hother | rfl
    · exact h.messages other hother
    · exact hmessage
  calls := h.calls

theorem acceptable_metadataUpdate (update : WireplumberMetadataUpdate) :
    WireplumberObjectManagerQueueMessage.Acceptable l
      { object := some (.metadataUpdate update), operation := .metadataUpdate } :=
  ⟨_, rfl, fun _ h => List.mem_singleton.mp h ▸ trivial⟩

theorem Accepting.nodesModelThread {s : DrainStep} (h : Accepting l a)
    (hb : a.nodesModelThread s = some b) : Accepting l b := by
  obtain ⟨queue, hpending, rfl⟩ | ⟨message, queue, added, hnil, hpending, hadded, rfl⟩ :=
    nodesModelThread_cases hb
  · exact h.of_eq rfl hpending rfl
  · have hmessages := h.messages
    rw [hpending] at hmessages
    obtain ⟨calls, hcalls, hacceptable⟩ := hmessages message List.mem_cons_self
    obtain rfl := Except.ok.inj (hcalls.symm.trans hadded)
    refine ⟨h.models, fun other hother => hmessages other (List.mem_cons_of_mem _ hother), ?_⟩
    intro call hcall
    rcases List.mem_append.mp hcall with hcall | hcall
    · exact h.calls call (List.mem_append_left _ hcall)
    · exact hacceptable call hcall

theorem Accepting.step {k : Action} (h : Accepting l a) (hk : k.Acceptable l)
    (hb : step a k = some b) : Accepting l b := by
  cases k with
  | setTargetObject r targetObject =>
    obtain ⟨strip, -, rfl⟩ := setTargetObject_eq_some.mp hb
    exact { h with models := ⟨(List.length_modify ..).trans h.models.layers, h.models.rows⟩ }
  | metadataUpdateThread s =>
    obtain ⟨queue, -, rfl⟩ | ⟨update, queue, -, rfl⟩ := metadataUpdateThread_cases hb
    · exact { h with }
    · split_ifs
      · exact { h with }
      · exact { h with }
  | idleCallback => obtain ⟨update, rest, -, rfl⟩ := step_idleCallback hb; exact { h with }
  | metadataAdded => obtain rfl := Option.some.inj hb; exact { h with }
  | metadataChangedCallback =>
    obtain ⟨update, rest, -, rfl⟩ := step_metadataChangedCallback hb
    exact { h.pushMessage (acceptable_metadataUpdate update) with }
  | foreignChange update => obtain rfl := step_foreignChange hb; exact { h with }
  | nodeAddedCallback node =>
    obtain rfl := Option.some.inj hb
    refine h.pushMessage ⟨_, rfl, fun call hcall => ?_⟩
    simp only [List.mem_cons, List.not_mem_nil, or_false] at hcall
    rcases hcall with rfl | rfl
    · exact hk
    · exact hk
  | nodeRemovedCallback node =>
    obtain rfl := Option.some.inj hb
    exact h.pushMessage ⟨_, rfl, fun call hcall => List.mem_singleton.mp hcall ▸ hk⟩
  | nodesModelThread s => exact h.nodesModelThread hb
  | post =>
    obtain ⟨call, rest, htoPost, rfl⟩ := step_post hb
    refine h.of_eq rfl rfl ?_
    simp only [Session.calls, htoPost, List.append_assoc, List.singleton_append]
  | postedCall =>
    have hlength := LayersListModel.length_of_settings (step_settings hb)
    obtain ⟨call, rest, models, hposted, hrun, rfl⟩ := step_postedCall hb
    have hcalls := h.calls
    rw [Session.calls, hposted, List.cons_append, List.forall_mem_cons] at hcalls
    exact ⟨⟨hlength.trans h.models.layers, rows_acceptable_run hcalls.1 h.models hrun⟩, h.messages,
      hcalls.2⟩

end

end Session

end Kpmx
