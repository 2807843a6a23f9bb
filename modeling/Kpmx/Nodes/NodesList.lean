import Kpmx.Model.Messages

/-!
# The list of nodes

`NodesListModel` holds the rows that the user interface shows. Every update answers with the model
and the notifications it sends to the views.
-/

namespace Kpmx

/-- What a view is told; rows count from 0. -/
inductive RowsNotification where
  | inserted (first last : Nat)
  | removed (first last : Nat)
  | targetObjectChanged (row : Nat)
  deriving DecidableEq

structure NodesListModel where
  nodes : List WireplumberNode := []

namespace NodesListModel

def addNode (l : NodesListModel) (node : WireplumberNode) : NodesListModel × List RowsNotification :=
  let newRow := l.nodes.length
  ({ nodes := l.nodes ++ [node] }, [.inserted newRow newRow])

/-- The first row with a serial, which `deleteNodeByObjectSerial` removes. -/
def nodeByObjectSerial (l : NodesListModel) (objectSerial : Int32) : Option WireplumberNode :=
  l.nodes.find? fun node => decide (node.objectSerial = some objectSerial)

def deleteNodeByObjectSerial (l : NodesListModel) (objectSerial : Int32) :
    NodesListModel × List RowsNotification :=
  match l.nodes.findIdx? fun node => decide (node.objectSerial = some objectSerial) with
  | some row => ({ nodes := l.nodes.eraseIdx row }, [.removed row row])
  | none => (l, [])

def updateNodeTargetObject (l : NodesListModel) (objectId : Int32) (targetObject : Option String) :
    NodesListModel × List RowsNotification :=
  match l.nodes.findIdx? fun node => decide (node.id = some objectId) with
  | some row => ({ nodes := l.nodes.modify row fun node => { node with targetObject := targetObject } },
      [.targetObjectChanged row])
  | none => (l, [])

def nodeByObjectId (l : NodesListModel) (objectId : Int32) : Option WireplumberNode :=
  l.nodes.find? fun node => decide (node.id = some objectId)

/-! ## Which rows are left -/

theorem mem_deleteNodeByObjectSerial {l : NodesListModel} {objectSerial : Int32}
    {node : WireplumberNode} (hmem : node ∈ l.nodes)
    (hne : l.nodeByObjectSerial objectSerial ≠ some node) :
    node ∈ (l.deleteNodeByObjectSerial objectSerial).1.nodes := by
  unfold deleteNodeByObjectSerial
  split
  · next row hrow =>
    obtain ⟨hlt, hserial, hfirst⟩ := List.findIdx?_eq_some_iff_getElem.mp hrow
    obtain ⟨i, hi⟩ := List.mem_iff_getElem?.mp hmem
    refine List.mem_eraseIdx_iff_getElem?.mpr ⟨i, ?_, hi⟩
    rintro rfl
    obtain ⟨_, rfl⟩ := List.getElem?_eq_some_iff.mp hi
    exact hne (List.find?_eq_some_iff_getElem.mpr
      ⟨hserial, i, hlt, rfl, fun j hj => by simpa using hfirst j hj⟩)
  · exact hmem

theorem id_ne_of_mem_deleteNodeByObjectSerial {l : NodesListModel} {objectSerial : Int32}
    {row node : WireplumberNode} {id : Int32}
    (hunique : l.nodes.Pairwise fun a b => ∀ id, a.id = some id → b.id ≠ some id)
    (hrow : l.nodeByObjectSerial objectSerial = some row) (hid : row.id = some id)
    (hmem : node ∈ (l.deleteNodeByObjectSerial objectSerial).1.nodes) : node.id ≠ some id := by
  obtain ⟨hserial, i, hi, rfl, hfirst⟩ := List.find?_eq_some_iff_getElem.mp hrow
  have hindex : (l.nodes.findIdx? fun node => decide (node.objectSerial = some objectSerial)) = some i :=
    List.findIdx?_eq_some_iff_getElem.mpr ⟨hi, hserial, fun j hj => by simpa using hfirst j hj⟩
  simp only [deleteNodeByObjectSerial, hindex] at hmem
  obtain ⟨j, hji, hj⟩ := List.mem_eraseIdx_iff_getElem?.mp hmem
  obtain ⟨hlt, rfl⟩ := List.getElem?_eq_some_iff.mp hj
  rw [List.pairwise_iff_getElem] at hunique
  rcases Nat.lt_or_gt_of_ne hji with h | h
  · exact fun hjd => hunique j i hlt hi h id hjd hid
  · exact hunique i j hi hlt h id hid

theorem exists_mem_updateNodeTargetObject {l : NodesListModel} (objectId : Int32)
    (targetObject : Option String) {node : WireplumberNode} (hmem : node ∈ l.nodes) :
    ∃ node' ∈ (l.updateNodeTargetObject objectId targetObject).1.nodes,
      node'.id = node.id ∧ node'.name = node.name := by
  unfold updateNodeTargetObject
  split
  · next row hrow =>
    obtain ⟨i, hi⟩ := List.mem_iff_getElem?.mp hmem
    by_cases hrowi : row = i
    · exact ⟨{ node with targetObject := targetObject },
        List.mem_iff_getElem?.mpr ⟨i, by simp [hi, hrowi]⟩, rfl, rfl⟩
    · exact ⟨node, List.mem_iff_getElem?.mpr ⟨i, by simp [hi, hrowi]⟩, rfl, rfl⟩
  · exact ⟨node, hmem, rfl, rfl⟩

theorem nodeByObjectId_updateNodeTargetObject (l : NodesListModel) (objectId : Int32)
    (targetObject : Option String) :
    (l.updateNodeTargetObject objectId targetObject).1.nodeByObjectId objectId =
      (l.nodeByObjectId objectId).map fun node => { node with targetObject := targetObject } := by
  unfold updateNodeTargetObject nodeByObjectId
  split
  · next row hrow =>
    obtain ⟨hlt, hid, hfirst⟩ := List.findIdx?_eq_some_iff_getElem.mp hrow
    have hold : l.nodes.find? (fun node => decide (node.id = some objectId)) = some l.nodes[row] :=
      List.find?_eq_some_iff_getElem.mpr ⟨hid, row, hlt, rfl, fun j hj => by simpa using hfirst j hj⟩
    rw [hold, Option.map_some]
    refine List.find?_eq_some_iff_getElem.mpr ⟨hid, row, by simpa using hlt, by simp, fun j hj => ?_⟩
    simpa [List.getElem_modify, hj.ne'] using hfirst j hj
  · next hrow =>
    rw [List.findIdx?_eq_none_iff] at hrow
    rw [List.find?_eq_none.mpr (by simpa using hrow), Option.map_none]

theorem nodeByObjectId_addNode {l : NodesListModel} {node : WireplumberNode} {id : Int32}
    (hid : node.id = some id) (hfresh : ∀ row ∈ l.nodes, row.id ≠ some id) :
    (l.addNode node).1.nodeByObjectId id = some node := by
  rw [nodeByObjectId, addNode, List.find?_append, List.find?_eq_none.mpr (by simpa using hfresh),
    Option.none_or, List.find?_singleton, if_pos (decide_eq_true hid)]

theorem updateNodeTargetObject_of_absent {l : NodesListModel} {id : Int32}
    (habsent : ∀ row ∈ l.nodes, row.id ≠ some id) (targetObject : Option String) :
    (l.updateNodeTargetObject id targetObject).1 = l := by
  rw [updateNodeTargetObject, List.findIdx?_eq_none_iff.mpr (by simpa using habsent)]

theorem nodeByObjectId_eq_none_of_absent {l : NodesListModel} {id : Int32}
    (habsent : ∀ row ∈ l.nodes, row.id ≠ some id) : l.nodeByObjectId id = none :=
  List.find?_eq_none.mpr (by simpa using habsent)

end NodesListModel

end Kpmx
