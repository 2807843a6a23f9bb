import Kpmx.Lib.Runs
import Kpmx.Lib.Spsc
import Kpmx.Mixer.Layers
import Kpmx.Nodes.NodesList

/-!
# Nodes, strips and metadata

The path of a node from WirePlumber to the node list and the strips, and of a routing change from a
strip to the metadata object and back. The user interface runs the setters and the posted calls; the
WirePlumber thread runs the callbacks and the idle callbacks; `wireplumber_metadata_update_thread` and
`updates_to_qt_nodes_model_thread` drain a queue each.
-/

namespace Kpmx

open Spsc

/-! ## From a message to the models -/

/-- A call that `updates_to_qt_nodes_model_thread` posts to the Qt thread. -/
inductive PostedCall where
  | addNode (node : WireplumberNode)
  | initialChannelUpdate (node : WireplumberNode)
  | deleteNodeByObjectSerial (node : WireplumberNode)
  | metadataUpdate (update : WireplumberMetadataUpdate)
  deriving DecidableEq

namespace WireplumberObjectManagerQueueMessage

/-- `std::get<wireplumber_node>(message.object.value())`. -/
def node (message : WireplumberObjectManagerQueueMessage) : Except StdException WireplumberNode :=
  match message.object with
  | none => .error .badOptionalAccess
  | some (.node node) => .ok node
  | some (.metadataUpdate _) => .error .badVariantAccess

/-- `std::get<wireplumber_metadata_update>(message.object.value())`. -/
def update (message : WireplumberObjectManagerQueueMessage) :
    Except StdException WireplumberMetadataUpdate :=
  match message.object with
  | none => .error .badOptionalAccess
  | some (.metadataUpdate update) => .ok update
  | some (.node _) => .error .badVariantAccess

end WireplumberObjectManagerQueueMessage

/-- The calls posted for a message. -/
def updateModel (message : WireplumberObjectManagerQueueMessage) :
    Except StdException (List PostedCall) :=
  match message.operation with
  | .insert => message.node.map fun node => [.addNode node, .initialChannelUpdate node]
  | .delete => message.node.map fun node => [.deleteNodeByObjectSerial node]
  | .metadataUpdate => message.update.map fun update => [.metadataUpdate update]

/-- The models that the posted calls work on. -/
structure QtModels where
  nodes : NodesListModel
  layers : LayersListModel

/-- Run a posted call. -/
def PostedCall.run (m : QtModels) : PostedCall → Except StdException QtModels
  | .addNode node => .ok { m with nodes := (m.nodes.addNode node).1 }
  | .initialChannelUpdate node =>
    (m.layers.initialChannelUpdate node).map fun layers => { m with layers := layers }
  | .deleteNodeByObjectSerial node =>
    match node.objectSerial with
    | some objectSerial => .ok { m with nodes := (m.nodes.deleteNodeByObjectSerial objectSerial).1 }
    | none => .error .badOptionalAccess
  | .metadataUpdate update =>
    if update.key = "target_object" then
      let nodes := (m.nodes.updateNodeTargetObject update.id update.value).1
      match nodes.nodeByObjectId update.id with
      | some node =>
        match node.name with
        | some name => (m.layers.updateTargetObjectForNodeName name update.value).map fun layers =>
            { nodes := nodes, layers := layers }
        | none => .error .badOptionalAccess
      | none => .ok { m with nodes := nodes }
    else .ok m

/-! ## The session -/

/-- The strips of a layer, by name. -/
structure LayerSetup where
  inputChannels : List String
  groupChannels : List String

def ChannelStripListModel.ofNames (names : List String) : ChannelStripListModel where
  channelStrips := names.map fun name => { name := name }

/-- The layers as `main` creates them: every strip is new but for its name. -/
def LayersListModel.ofSetup (setup : List LayerSetup) : LayersListModel where
  layers := setup.mapIdx fun layerIndex layer =>
    { name := "Layer " ++ toString layerIndex
      inputChannels := .ofNames layer.inputChannels
      groupChannels := .ofNames layer.groupChannels
      layerChannels := .ofNames ["Layer " ++ toString layerIndex] }

theorem LayersListModel.objectIdAt_ofSetup (setup : List LayerSetup) (r : StripRef) :
    (ofSetup setup).objectIdAt r = none := by
  have hnames : ∀ names : List String, (ChannelStripListModel.ofNames names).channelStrips[r.index]?.bind
      ChannelStripModel.objectId = none := by
    intro names
    simp only [ChannelStripListModel.ofNames, List.getElem?_map]
    cases names[r.index]? <;> rfl
  unfold objectIdAt strip? ofSetup
  rw [List.getElem?_mapIdx]
  cases setup[r.layer]? with
  | none => rfl
  | some layer =>
    cases hk : r.kind <;> simp only [Option.map_some, Option.bind_some, LayerModel.channels, hnames]

/-- What `metadata_changed_callback` is given after `wp_metadata_set` with an update's C strings. -/
def WireplumberMetadataUpdate.echo (update : WireplumberMetadataUpdate) :
    WireplumberMetadataUpdate where
  id := update.id
  key := cStr update.key
  value := update.value.map cStr

/-- The models, the parties' queues and what they hold, oldest first. `metadata` says that
`impl->metadata` is set and `metadata_changed_callback` connected; `changed` are the events of the
metadata object still to be delivered, `toPost` the calls of the message being handled; `issued` and
`lost` are the history of the updates for which a setter changed a target. -/
structure Session where
  models : QtModels
  metadataUpdatesQueue : Consuming WireplumberMetadataUpdate queueCapacity
  metadata : Bool
  idle : List WireplumberMetadataUpdate
  metadataSet : List WireplumberMetadataUpdate
  changed : List WireplumberMetadataUpdate
  queue : Consuming WireplumberObjectManagerQueueMessage queueCapacity
  toPost : List PostedCall
  posted : List PostedCall
  issued : List WireplumberMetadataUpdate
  lost : List WireplumberMetadataUpdate

/-- A thread's steps through `consume_all`. -/
inductive DrainStep where
  | start
  | next
  | finish

namespace Session

inductive Action where
  | setTargetObject (r : StripRef) (targetObject : QVariant)
  | metadataUpdateThread (s : DrainStep)
  | idleCallback
  | metadataAdded
  | metadataChangedCallback
  | foreignChange (update : WireplumberMetadataUpdate)
  | nodeAddedCallback (node : WireplumberNode)
  | nodeRemovedCallback (node : WireplumberNode)
  | nodesModelThread (s : DrainStep)
  | post
  | postedCall

def start (setup : List LayerSetup) : Session where
  models := { nodes := {}, layers := .ofSetup setup }
  metadataUpdatesQueue := .empty
  metadata := false
  idle := []
  metadataSet := []
  changed := []
  queue := .empty
  toPost := []
  posted := []
  issued := []
  lost := []

/-- `setTargetObject` on a strip. -/
def setTargetObject (st : Session) (r : StripRef) (targetObject : QVariant) : Option Session :=
  (st.models.layers.strip? r).map fun strip =>
    let pushed := (strip.setTargetObject targetObject).pushed
    { st with
      models.layers := st.models.layers.modifyStrip r fun strip =>
        (strip.setTargetObject targetObject).strip
      metadataUpdatesQueue := pushed.foldl Consuming.push st.metadataUpdatesQueue
      issued := st.issued ++ pushed
      lost := if st.metadataUpdatesQueue.full then st.lost ++ pushed else st.lost }

/-- A step of `wireplumber_metadata_update_thread`: an update is scheduled as an idle callback if the
metadata object is there, else dropped. -/
def metadataUpdateThread (st : Session) : DrainStep → Option Session
  | .start => st.metadataUpdatesQueue.start.map fun queue => { st with metadataUpdatesQueue := queue }
  | .next => st.metadataUpdatesQueue.next.map fun (update, queue) =>
      if st.metadata then
        { st with metadataUpdatesQueue := queue, idle := st.idle ++ [update] }
      else { st with metadataUpdatesQueue := queue, lost := st.lost ++ [update] }
  | .finish => st.metadataUpdatesQueue.finish.map fun queue => { st with metadataUpdatesQueue := queue }

/-- A step of `updates_to_qt_nodes_model_thread`. -/
def nodesModelThread (st : Session) : DrainStep → Option Session
  | .start => st.queue.start.map fun queue => { st with queue := queue }
  | .next =>
    if st.toPost = [] then
      st.queue.next.bind fun (message, queue) => (updateModel message).toOption.map fun calls =>
        { st with queue := queue, toPost := calls }
    else none
  | .finish =>
    if st.toPost = [] then st.queue.finish.map fun queue => { st with queue := queue } else none

def pushMessage (st : Session) (message : WireplumberObjectManagerQueueMessage) : Session :=
  { st with queue := st.queue.push message }

/-- `none` when the party cannot move, or when a handler would throw. -/
def step (st : Session) : Action → Option Session
  | .setTargetObject r targetObject => st.setTargetObject r targetObject
  | .metadataUpdateThread s => st.metadataUpdateThread s
  | .idleCallback =>
    match st.idle with
    | [] => none
    | update :: rest => some { st with
        idle := rest
        metadataSet := st.metadataSet ++ [update]
        changed := st.changed ++ [update.echo] }
  | .metadataAdded => some { st with metadata := true }
  | .metadataChangedCallback =>
    match st.changed with
    | [] => none
    | update :: rest => some ({ st with changed := rest }.pushMessage
        { object := some (.metadataUpdate update), operation := .metadataUpdate })
  | .foreignChange update =>
    if st.metadata then some { st with changed := st.changed ++ [update] } else none
  | .nodeAddedCallback node =>
    some (st.pushMessage { object := some (.node node), operation := .insert })
  | .nodeRemovedCallback node =>
    some (st.pushMessage { object := some (.node node), operation := .delete })
  | .nodesModelThread s => st.nodesModelThread s
  | .post =>
    match st.toPost with
    | [] => none
    | call :: rest => some { st with toPost := rest, posted := st.posted ++ [call] }
  | .postedCall =>
    match st.posted with
    | [] => none
    | call :: rest => (call.run st.models).toOption.map fun models =>
        { st with models := models, posted := rest }

/-! ## What a step does -/

theorem ok_of_toOption {ε α : Type} {result : Except ε α} {a : α} (h : result.toOption = some a) :
    result = .ok a := by
  cases result with
  | error e => cases h
  | ok b => cases h; rfl

theorem setTargetObject_eq_some {a b : Session} {r : StripRef} {targetObject : QVariant} :
    a.setTargetObject r targetObject = some b ↔ ∃ strip, a.models.layers.strip? r = some strip ∧
      b = { a with
        models.layers := a.models.layers.modifyStrip r fun strip =>
          (strip.setTargetObject targetObject).strip
        metadataUpdatesQueue :=
          (strip.setTargetObject targetObject).pushed.foldl Consuming.push a.metadataUpdatesQueue
        issued := a.issued ++ (strip.setTargetObject targetObject).pushed
        lost := if a.metadataUpdatesQueue.full then
            a.lost ++ (strip.setTargetObject targetObject).pushed
          else a.lost } := by
  rw [setTargetObject, Option.map_eq_some_iff]
  exact exists_congr fun strip => and_congr_right fun _ => eq_comm

/-- The metadata thread moves on in its queue, or handles the oldest update. -/
theorem metadataUpdateThread_cases {a b : Session} {s : DrainStep}
    (h : a.metadataUpdateThread s = some b) :
    (∃ queue : Consuming _ _, queue.pending = a.metadataUpdatesQueue.pending ∧
      b = { a with metadataUpdatesQueue := queue }) ∨
    ∃ update, ∃ queue : Consuming _ _, a.metadataUpdatesQueue.pending = update :: queue.pending ∧
      b = if a.metadata then
          { a with metadataUpdatesQueue := queue, idle := a.idle ++ [update] }
        else { a with metadataUpdatesQueue := queue, lost := a.lost ++ [update] } := by
  cases s with
  | start =>
    obtain ⟨queue, hqueue, rfl⟩ := Option.map_eq_some_iff.mp h
    exact .inl ⟨queue, Consuming.pending_start hqueue, rfl⟩
  | next =>
    obtain ⟨⟨update, queue⟩, hqueue, rfl⟩ := Option.map_eq_some_iff.mp h
    exact .inr ⟨update, queue, Consuming.pending_next hqueue, rfl⟩
  | finish =>
    obtain ⟨queue, hqueue, rfl⟩ := Option.map_eq_some_iff.mp h
    exact .inl ⟨queue, Consuming.pending_finish hqueue, rfl⟩

/-- The thread of the node list moves on in its queue, or handles the oldest message. -/
theorem nodesModelThread_cases {a b : Session} {s : DrainStep}
    (h : a.nodesModelThread s = some b) :
    (∃ queue : Consuming _ _, queue.pending = a.queue.pending ∧ b = { a with queue := queue }) ∨
    ∃ message, ∃ queue : Consuming _ _, ∃ calls, a.toPost = [] ∧
      a.queue.pending = message :: queue.pending ∧ updateModel message = .ok calls ∧
      b = { a with queue := queue, toPost := calls } := by
  cases s with
  | start =>
    obtain ⟨queue, hqueue, rfl⟩ := Option.map_eq_some_iff.mp h
    exact .inl ⟨queue, Consuming.pending_start hqueue, rfl⟩
  | next =>
    obtain ⟨hnil, h⟩ := Option.ite_none_right_eq_some.mp h
    obtain ⟨⟨message, queue⟩, hqueue, h⟩ := Option.bind_eq_some_iff.mp h
    obtain ⟨calls, hcalls, rfl⟩ := Option.map_eq_some_iff.mp h
    exact .inr ⟨message, queue, calls, hnil, Consuming.pending_next hqueue, ok_of_toOption hcalls, rfl⟩
  | finish =>
    obtain ⟨-, h⟩ := Option.ite_none_right_eq_some.mp h
    obtain ⟨queue, hqueue, rfl⟩ := Option.map_eq_some_iff.mp h
    exact .inl ⟨queue, Consuming.pending_finish hqueue, rfl⟩

theorem step_idleCallback {a b : Session} (h : step a .idleCallback = some b) :
    ∃ update rest, a.idle = update :: rest ∧
      b = { a with
        idle := rest
        metadataSet := a.metadataSet ++ [update]
        changed := a.changed ++ [update.echo] } := by
  rw [step] at h
  split at h
  · exact absurd h (by simp)
  · next update rest hidle => exact ⟨update, rest, hidle, (Option.some.inj h).symm⟩

theorem step_metadataChangedCallback {a b : Session} (h : step a .metadataChangedCallback = some b) :
    ∃ update rest, a.changed = update :: rest ∧ b = { a with
      changed := rest
      queue := a.queue.push
        { object := some (.metadataUpdate update), operation := .metadataUpdate } } := by
  rw [step] at h
  split at h
  · exact absurd h (by simp)
  · next update rest hchanged => exact ⟨update, rest, hchanged, (Option.some.inj h).symm⟩

theorem step_post {a b : Session} (h : step a .post = some b) :
    ∃ call rest, a.toPost = call :: rest ∧
      b = { a with toPost := rest, posted := a.posted ++ [call] } := by
  rw [step] at h
  split at h
  · exact absurd h (by simp)
  · next call rest htoPost => exact ⟨call, rest, htoPost, (Option.some.inj h).symm⟩

theorem step_postedCall {a b : Session} (h : step a .postedCall = some b) :
    ∃ call rest models, a.posted = call :: rest ∧ call.run a.models = .ok models ∧
      b = { a with models := models, posted := rest } := by
  rw [step] at h
  split at h
  · exact absurd h (by simp)
  · next call rest hposted =>
    obtain ⟨models, hmodels, rfl⟩ := Option.map_eq_some_iff.mp h
    exact ⟨call, rest, models, hposted, ok_of_toOption hmodels, rfl⟩

theorem step_foreignChange {a b : Session} {update : WireplumberMetadataUpdate}
    (h : step a (.foreignChange update) = some b) :
    b = { a with changed := a.changed ++ [update] } :=
  (Option.some.inj (Option.ite_none_right_eq_some.mp h).2).symm

/-! ## Runs -/

/-- The calls posted and to be posted, oldest first. -/
def calls (st : Session) : List PostedCall := st.posted ++ st.toPost

/-- The node of the first input strip. -/
def firstInput : WireplumberNode :=
  { id := some 42, objectSerial := some 7, name := some "pmx-input-00-a-input" }

/-- The steps that take one added node to the models. -/
def insertRun (node : WireplumberNode) : List Action :=
  [.nodeAddedCallback node, .nodesModelThread .start, .nodesModelThread .next, .post, .post,
    .nodesModelThread .finish, .postedCall, .postedCall]

/-- Nothing is on its way. -/
structure Drained (st : Session) : Prop where
  updates : st.metadataUpdatesQueue.pending = []
  idle : st.idle = []
  changed : st.changed = []
  messages : st.queue.pending = []
  toPost : st.toPost = []
  posted : st.posted = []

instance (st : Session) : Decidable st.Drained :=
  decidable_of_iff (st.metadataUpdatesQueue.pending = [] ∧ st.idle = [] ∧ st.changed = [] ∧
      st.queue.pending = [] ∧ st.toPost = [] ∧ st.posted = [])
    ⟨fun ⟨hu, hi, hc, hm, ht, hp⟩ => ⟨hu, hi, hc, hm, ht, hp⟩,
      fun ⟨hu, hi, hc, hm, ht, hp⟩ => ⟨hu, hi, hc, hm, ht, hp⟩⟩

end Session

end Kpmx
