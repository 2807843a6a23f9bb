import Kpmx.Mixer.InitialUpdate
import Kpmx.Wireplumber.Session

/-!
# Handling messages one after the other

The calls posted for a message run on the Qt thread in the order they are posted, and nothing else
changes the node list. So the models see the messages one by one.

* `handle_insert`, `handle_target` : what the two kinds of messages about a node do;
* `insert_and_target` : the two orders of an insertion and a change of the target.
-/

namespace Kpmx

namespace QtModels

/-- Run posted calls in order, up to the first one that throws. -/
def runCalls (m : QtModels) (calls : List PostedCall) : Except StdException QtModels :=
  calls.foldlM PostedCall.run m

/-- Post the calls of a message and run them. -/
def handle (m : QtModels) (message : WireplumberObjectManagerQueueMessage) :
    Except StdException QtModels :=
  (updateModel message).bind m.runCalls

def handleAll (m : QtModels) (messages : List WireplumberObjectManagerQueueMessage) :
    Except StdException QtModels :=
  messages.foldlM handle m

theorem runCalls_cons_of_ok {m m' : QtModels} {call : PostedCall} (h : call.run m = .ok m')
    (calls : List PostedCall) : m.runCalls (call :: calls) = m'.runCalls calls := by
  rw [runCalls, List.foldlM_cons, h]
  rfl

theorem handleAll_cons_of_ok {m m' : QtModels} {message : WireplumberObjectManagerQueueMessage}
    (h : m.handle message = .ok m') (messages : List WireplumberObjectManagerQueueMessage) :
    m.handleAll (message :: messages) = m'.handleAll messages := by
  rw [handleAll, List.foldlM_cons, h]
  rfl

/-! ## Messages about one node -/

/-- The message of `node_added_callback`. -/
def insertMessage (node : WireplumberNode) : WireplumberObjectManagerQueueMessage :=
  { object := some (.node node), operation := .insert }

/-- The message of `metadata_changed_callback` with the key that the handler recognises. -/
def targetMessage (id : Int32) (value : Option String) : WireplumberObjectManagerQueueMessage :=
  { object := some (.metadataUpdate { id := id, key := "target_object", value := value })
    operation := .metadataUpdate }

/-- The targets of the row with an id and of the strip at a place. -/
def targets (m : QtModels) (id : Int32) (r : StripRef) :
    Option (Option String) × Option (Option String) :=
  ((m.nodes.nodeByObjectId id).map WireplumberNode.targetObject,
    (m.layers.strip? r).map ChannelStripModel.targetObject)

/-- An insertion adds the row and gives the node to the strip that its name denotes. -/
theorem handle_insert {m : QtModels} {node : WireplumberNode} {name : String} {r : StripRef}
    (hname : node.name = some name) (hdenotes : LayersListModel.Denotes name r)
    (hstrip : (m.layers.strip? r).isSome = true) : m.handle (insertMessage node) =
      .ok { nodes := (m.nodes.addNode node).1, layers := m.layers.updateFromNode r node } := by
  have hadd : (PostedCall.addNode node).run m = .ok { m with nodes := (m.nodes.addNode node).1 } := rfl
  have hupdate : (PostedCall.initialChannelUpdate node).run
      { m with nodes := (m.nodes.addNode node).1 } =
        .ok { nodes := (m.nodes.addNode node).1, layers := m.layers.updateFromNode r node } := by
    rw [PostedCall.run, LayersListModel.initialChannelUpdate_of_denotes hname hdenotes hstrip]
    rfl
  exact (runCalls_cons_of_ok hadd _).trans (runCalls_cons_of_ok hupdate [])

/-- A target for a row with a name reaches the row and the strip that the name denotes. -/
theorem handle_target {m : QtModels} {id : Int32} {row : WireplumberNode} {name : String}
    {r : StripRef} (hrow : m.nodes.nodeByObjectId id = some row) (hname : row.name = some name)
    (hdenotes : LayersListModel.Denotes name r) (hkind : r.kind = .input)
    (hstrip : (m.layers.strip? r).isSome = true) (value : Option String) :
    m.handle (targetMessage id value) = .ok
      { nodes := (m.nodes.updateNodeTargetObject id value).1
        layers := m.layers.modifyStrip r fun strip => { strip with targetObject := value } } := by
  have hfound : (m.nodes.updateNodeTargetObject id value).1.nodeByObjectId id =
      some { row with targetObject := value } := by
    rw [NodesListModel.nodeByObjectId_updateNodeTargetObject, hrow, Option.map_some]
  have hlayers := LayersListModel.updateTargetObjectForNodeName_of_denotes hdenotes hkind hstrip value
  refine (runCalls_cons_of_ok ?_ []).trans rfl
  rw [PostedCall.run, if_pos rfl]
  simp only [hfound, hname, hlayers]
  rfl

/-- A target for an id that no row has is dropped. -/
theorem handle_target_of_absent {m : QtModels} {id : Int32}
    (habsent : ∀ row ∈ m.nodes.nodes, row.id ≠ some id) (value : Option String) :
    m.handle (targetMessage id value) = .ok m := by
  have hnone := NodesListModel.nodeByObjectId_eq_none_of_absent habsent
  refine (runCalls_cons_of_ok ?_ []).trans rfl
  rw [PostedCall.run, if_pos rfl]
  simp only [NodesListModel.updateNodeTargetObject_of_absent habsent, hnone]

theorem denotes_of_addressed_input {name : String} {r : StripRef}
    (h : LayersListModel.addressed name = some r) (hkind : r.kind = .input) :
    LayersListModel.Denotes name r := by
  refine LayersListModel.denotes_of_addressed h fun hfamily => ?_
  rw [LayersListModel.addressed_eq, hfamily] at h
  simp only at h
  split at h
  · obtain rfl := Option.some.inj h
    cases hkind
  · cases h

/-- **An insertion and a change of the target**: in this order both the row and the strip have the
change's value; in the other order the change is dropped, and both have the target of the node. -/
theorem insert_and_target {m : QtModels} {node : WireplumberNode} {id : Int32} {name : String}
    {r : StripRef} (hid : node.id = some id) (hname : node.name = some name)
    (haddressed : LayersListModel.addressed name = some r) (hkind : r.kind = .input)
    (hstrip : (m.layers.strip? r).isSome = true) (habsent : ∀ row ∈ m.nodes.nodes, row.id ≠ some id)
    (value : Option String) :
    ∃ m₁ m₂, m.handleAll [insertMessage node, targetMessage id value] = .ok m₁ ∧
      m.handleAll [targetMessage id value, insertMessage node] = .ok m₂ ∧
      m₁.targets id r = (some value, some value) ∧
      m₂.targets id r = (some node.targetObject, some node.targetObject) := by
  have hdenotes := denotes_of_addressed_input haddressed hkind
  have hinsert := handle_insert hname hdenotes hstrip
  obtain ⟨strip, hget⟩ := Option.isSome_iff_exists.mp hstrip
  have hrow : (m.nodes.addNode node).1.nodeByObjectId id = some node :=
    NodesListModel.nodeByObjectId_addNode hid habsent
  have hupdated : (m.layers.updateFromNode r node).strip? r =
      some (LayersListModel.takes node strip) := by
    rw [LayersListModel.strip?_updateFromNode, if_pos rfl, hget, Option.map_some]
  have htarget := handle_target
    (m := { nodes := (m.nodes.addNode node).1, layers := m.layers.updateFromNode r node })
    hrow hname hdenotes hkind (by rw [hupdated]; rfl) value
  refine ⟨_, _, (handleAll_cons_of_ok hinsert _).trans (handleAll_cons_of_ok htarget []),
    (handleAll_cons_of_ok (handle_target_of_absent habsent value) _).trans
      (handleAll_cons_of_ok hinsert []), ?_, ?_⟩
  · simp only [targets, NodesListModel.nodeByObjectId_updateNodeTargetObject, hrow,
      LayersListModel.strip?_modifyStrip, if_true, hupdated, Option.map_some]
  · simp only [targets, hrow, hupdated, Option.map_some]
    rfl

/-- One input strip, its node and a target for it. -/
theorem insert_and_target_one : ∃ m₁ m₂,
    ({ nodes := {}, layers := .ofSetup [⟨["Channel 1"], []⟩] } : QtModels).handleAll
        [insertMessage Session.firstInput, targetMessage 42 (some "7")] = .ok m₁ ∧
      ({ nodes := {}, layers := .ofSetup [⟨["Channel 1"], []⟩] } : QtModels).handleAll
        [targetMessage 42 (some "7"), insertMessage Session.firstInput] = .ok m₂ ∧
      m₁.targets 42 ⟨0, .input, 0⟩ = (some (some "7"), some (some "7")) ∧
      m₂.targets 42 ⟨0, .input, 0⟩ = (some none, some none) :=
  insert_and_target rfl rfl (by decide) rfl rfl (by simp) (some "7")

theorem orders_differ : ¬ ∀ (m : QtModels) (node : WireplumberNode) (id : Int32) (name : String)
    (r : StripRef) (value : Option String), node.id = some id → node.name = some name →
    LayersListModel.addressed name = some r → r.kind = .input →
    (m.layers.strip? r).isSome = true → (∀ row ∈ m.nodes.nodes, row.id ≠ some id) →
    ∀ m₁ m₂, m.handleAll [insertMessage node, targetMessage id value] = .ok m₁ →
      m.handleAll [targetMessage id value, insertMessage node] = .ok m₂ →
      m₁.targets id r = m₂.targets id r := by
  intro h
  let m : QtModels := { nodes := {}, layers := .ofSetup [⟨["Channel 1"], []⟩] }
  have hsame := h m Session.firstInput 42 "pmx-input-00-a-input" ⟨0, .input, 0⟩ (some "7") rfl rfl
    (by decide) rfl rfl (by simp [m]) _ _ rfl rfl
  exact absurd hsame (by decide)

end QtModels

end Kpmx
