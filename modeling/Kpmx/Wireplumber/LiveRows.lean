import Kpmx.Wireplumber.Session
import Mathlib.Data.List.Nodup

/-!
# The rows and the live nodes

Nodes are added and removed on one side, and rows come and go on the other, with a queue and posted
calls in between.

* `PostedCall.rowsAfter` : what a posted call makes of the rows, up to their targets;
* `Tracks` : the rows, after all calls that are on their way, are the live nodes;
* `rows_are_live_nodes` : so when nothing is on its way the rows are the live nodes.
-/

namespace Kpmx

open Runs Spsc

/-! ## Rows up to their targets -/

/-- Removing the first row with a key removes every row with it, the keys being distinct. -/
theorem eraseP_eq_filter_of_nodup {α κ : Type*} [DecidableEq κ] {key : α → κ} {l : List α}
    (h : (l.map key).Nodup) (k : κ) :
    l.eraseP (fun a => decide (key a = k)) = l.filter fun a => decide (key a ≠ k) := by
  induction l with
  | nil => rfl
  | cons a l ih =>
    rw [List.map_cons, List.nodup_cons] at h
    by_cases ha : key a = k
    · rw [List.eraseP_cons_of_pos (by simpa using ha), List.filter_cons_of_neg (by simpa using ha)]
      refine (List.filter_eq_self.mpr fun b hb => ?_).symm
      have hne : key b ≠ key a := fun hba => h.1 (hba ▸ List.mem_map_of_mem hb)
      simpa [ha] using hne
    · rw [List.eraseP_cons_of_neg (by simpa using ha), List.filter_cons_of_pos (by simpa using ha),
        ih h.2]

/-- A node but for its target. -/
def WireplumberNode.withoutTarget (node : WireplumberNode) : WireplumberNode :=
  { node with targetObject := none }

namespace NodesListModel

/-- The rows but for their targets. -/
def rows (l : NodesListModel) : List WireplumberNode := l.nodes.map WireplumberNode.withoutTarget

theorem rows_addNode (l : NodesListModel) (node : WireplumberNode) :
    (l.addNode node).1.rows = l.rows ++ [node.withoutTarget] := by
  rw [addNode, rows, List.map_append]
  rfl

theorem rows_deleteNodeByObjectSerial (l : NodesListModel) (objectSerial : Int32) :
    (l.deleteNodeByObjectSerial objectSerial).1.rows =
      l.rows.eraseP fun row => decide (row.objectSerial = some objectSerial) := by
  have herase : (l.deleteNodeByObjectSerial objectSerial).1.nodes =
      l.nodes.eraseP fun row => decide (row.objectSerial = some objectSerial) := by
    rw [List.eraseP_eq_eraseIdx, deleteNodeByObjectSerial]
    cases l.nodes.findIdx? fun row => decide (row.objectSerial = some objectSerial) with
    | none => rfl
    | some row => rfl
  rw [rows, herase, rows, List.eraseP_map]
  rfl

theorem rows_updateNodeTargetObject (l : NodesListModel) (objectId : Int32)
    (targetObject : Option String) :
    (l.updateNodeTargetObject objectId targetObject).1.rows = l.rows := by
  unfold updateNodeTargetObject
  split
  · next row _ =>
    apply List.ext_getElem?
    intro i
    simp only [rows, List.getElem?_map, List.getElem?_modify]
    by_cases hi : row = i
    · cases l.nodes[i]? <;> simp [hi, WireplumberNode.withoutTarget]
    · cases l.nodes[i]? <;> simp [hi]
  · rfl

end NodesListModel

namespace PostedCall

/-- What a call makes of the rows. -/
def rowsAfter (rows : List WireplumberNode) : PostedCall → List WireplumberNode
  | .addNode node => rows ++ [node.withoutTarget]
  | .deleteNodeByObjectSerial node =>
    rows.eraseP fun row => decide (row.objectSerial = node.objectSerial)
  | .initialChannelUpdate _ => rows
  | .metadataUpdate _ => rows

theorem rows_run {call : PostedCall} {m m' : QtModels} (h : call.run m = .ok m') :
    m'.nodes.rows = call.rowsAfter m.nodes.rows := by
  cases call with
  | addNode node =>
    obtain rfl := Except.ok.inj h
    exact m.nodes.rows_addNode node
  | initialChannelUpdate node =>
    rw [run] at h
    cases hl : m.layers.initialChannelUpdate node with
    | error e => rw [hl] at h; exact absurd h (by simp [Except.map])
    | ok layers =>
      rw [hl] at h
      obtain rfl := Except.ok.inj h
      rfl
  | deleteNodeByObjectSerial node =>
    rw [run] at h
    split at h
    · next objectSerial hserial =>
      obtain rfl := Except.ok.inj h
      rw [rowsAfter, hserial]
      exact m.nodes.rows_deleteNodeByObjectSerial objectSerial
    · exact absurd h (by simp)
  | metadataUpdate update =>
    have hrows := m.nodes.rows_updateNodeTargetObject update.id update.value
    simp only [run] at h
    split at h
    · split at h
      · split at h
        · next name _ =>
          cases hl : m.layers.updateTargetObjectForNodeName name update.value with
          | error e => rw [hl] at h; exact absurd h (by simp [Except.map])
          | ok layers =>
            rw [hl] at h
            obtain rfl := Except.ok.inj h
            exact hrows
        · exact absurd h (by simp)
      · obtain rfl := Except.ok.inj h
        exact hrows
    · obtain rfl := Except.ok.inj h
      rfl

end PostedCall

namespace Session

/-! ## What is on its way -/

/-- The calls that the thread of the node list posts for a message. -/
def callsFor (message : WireplumberObjectManagerQueueMessage) : List PostedCall :=
  (updateModel message).toOption.getD []

/-- All calls that are on their way, oldest first. -/
def comingCalls (st : Session) : List PostedCall := st.calls ++ st.queue.pending.flatMap callsFor

/-- The rows after all calls that are on their way. -/
def comingRows (st : Session) : List WireplumberNode :=
  st.comingCalls.foldl PostedCall.rowsAfter st.models.nodes.rows

/-- The nodes that were added in a run. -/
def addedNodes (ls : List Action) : List WireplumberNode := ls.filterMap fun
  | .nodeAddedCallback node => some node
  | _ => none

/-- The live nodes after one more event. -/
def liveAfter (live : List WireplumberNode) : Action → List WireplumberNode
  | .nodeAddedCallback node => live ++ [node]
  | .nodeRemovedCallback node => live.filter fun row => decide (row.objectSerial ≠ node.objectSerial)
  | _ => live

/-- The nodes added and not removed in a run, in the order they were added. -/
def liveNodes (ls : List Action) : List WireplumberNode := ls.foldl liveAfter []

/-- A callback that pushes a node finds room in the queue. -/
def RoomForNode (st : Session) : Action → Prop
  | .nodeAddedCallback _ | .nodeRemovedCallback _ => st.queue.full = false
  | _ => True

instance (st : Session) (a : Action) : Decidable (st.RoomForNode a) :=
  match a with
  | .nodeAddedCallback _ | .nodeRemovedCallback _ => inferInstanceAs (Decidable (st.queue.full = false))
  | .setTargetObject .. | .metadataUpdateThread _ | .idleCallback | .metadataAdded |
    .metadataChangedCallback | .foreignChange _ | .nodesModelThread _ | .post | .postedCall =>
    isTrue trivial

theorem liveNodes_concat (ls : List Action) (l : Action) :
    liveNodes (ls ++ [l]) = liveAfter (liveNodes ls) l := by
  rw [liveNodes, List.foldl_append]
  rfl

theorem addedNodes_concat (ls : List Action) (l : Action) :
    addedNodes (ls ++ [l]) = addedNodes ls ++ addedNodes [l] := List.filterMap_append

theorem liveNodes_sublist (ls : List Action) : (liveNodes ls).Sublist (addedNodes ls) := by
  induction ls using List.reverseRecOn with
  | nil => exact .refl _
  | append_singleton ls l ih =>
    rw [liveNodes_concat, addedNodes_concat]
    cases l with
    | nodeAddedCallback node => exact ih.append (.refl _)
    | nodeRemovedCallback node =>
      exact (List.filter_sublist.trans ih).trans (List.sublist_append_left _ _)
    | _ => exact ih.trans (List.sublist_append_left _ _)

theorem nodup_liveNodes {ls : List Action}
    (h : ((addedNodes ls).map WireplumberNode.objectSerial).Nodup) :
    ((liveNodes ls).map WireplumberNode.objectSerial).Nodup :=
  h.sublist ((liveNodes_sublist ls).map _)

/-- The rows are on their way to the live nodes. -/
def Tracks (ls : List Action) (st : Session) : Prop :=
  st.comingRows = (liveNodes ls).map WireplumberNode.withoutTarget

theorem Tracks.of_eq {ls : List Action} {l : Action} {a b : Session} (h : Tracks ls a)
    (hlive : liveAfter (liveNodes ls) l = liveNodes ls)
    (hrows : b.models.nodes.rows = a.models.nodes.rows) (hcalls : b.comingCalls = a.comingCalls) :
    Tracks (ls ++ [l]) b := by
  rw [Tracks, liveNodes_concat, hlive, comingRows, hrows, hcalls]
  exact h

theorem comingRows_pushMessage {st : Session} (h : st.queue.full = false)
    (message : WireplumberObjectManagerQueueMessage) :
    (st.pushMessage message).comingRows =
      (callsFor message).foldl PostedCall.rowsAfter st.comingRows := by
  have hcalls : (st.pushMessage message).comingCalls = st.comingCalls ++ callsFor message := by
    simp only [comingCalls, pushMessage, calls, Consuming.pending_push_of_not_full h,
      List.flatMap_append, List.flatMap_singleton, List.append_assoc]
  rw [comingRows, hcalls, List.foldl_append]
  rfl

theorem comingRows_pushMessage_metadataUpdate (st : Session) (update : WireplumberMetadataUpdate) :
    (st.pushMessage { object := some (.metadataUpdate update), operation := .metadataUpdate }).comingRows =
      st.comingRows := by
  cases hfull : st.queue.full with
  | false => exact comingRows_pushMessage hfull _
  | true =>
    simp only [comingRows, comingCalls, calls, pushMessage, Consuming.pending_push_of_full hfull]

theorem Tracks.nodesModelThread {ls : List Action} {a b : Session} {s : DrainStep} (h : Tracks ls a)
    (hb : a.nodesModelThread s = some b) : Tracks (ls ++ [.nodesModelThread s]) b := by
  obtain ⟨queue, hpending, rfl⟩ | ⟨message, queue, new, hnil, hpending, hnew, rfl⟩ :=
    nodesModelThread_cases hb
  · refine h.of_eq rfl rfl ?_
    rw [comingCalls, comingCalls, hpending]
    rfl
  · refine h.of_eq rfl rfl ?_
    have hcalls : callsFor message = new := by rw [callsFor, hnew]; rfl
    rw [comingCalls, comingCalls, hpending, List.flatMap_cons, hcalls, calls, calls, hnil,
      List.append_nil, List.append_assoc]

/-- One step: what is added or removed goes to the end of what is on its way. -/
theorem Tracks.step {ls : List Action} {l : Action} {a b : Session} (h : Tracks ls a)
    (hserials : ((addedNodes ls).map WireplumberNode.objectSerial).Nodup)
    (hb : guarded RoomForNode step a l = some b) : Tracks (ls ++ [l]) b := by
  obtain ⟨hroom, hstep⟩ := (guarded_eq_some RoomForNode).mp hb
  cases l with
  | nodeAddedCallback node =>
    obtain rfl := Option.some.inj hstep
    rw [Tracks, comingRows_pushMessage hroom, h, liveNodes_concat, liveAfter, List.map_append]
    rfl
  | nodeRemovedCallback node =>
    obtain rfl := Option.some.inj hstep
    rw [Tracks, comingRows_pushMessage hroom, h, liveNodes_concat, liveAfter,
      ← eraseP_eq_filter_of_nodup (nodup_liveNodes hserials)]
    exact List.eraseP_map ..
  | metadataChangedCallback =>
    obtain ⟨update, rest, -, rfl⟩ := step_metadataChangedCallback hstep
    have hrows := comingRows_pushMessage_metadataUpdate { a with changed := rest } update
    rw [Tracks, liveNodes_concat]
    exact hrows.trans h
  | nodesModelThread s => exact h.nodesModelThread hstep
  | setTargetObject r targetObject =>
    obtain ⟨strip, -, rfl⟩ := setTargetObject_eq_some.mp hstep
    exact h.of_eq rfl rfl rfl
  | metadataUpdateThread s =>
    obtain ⟨queue, -, rfl⟩ | ⟨update, queue, -, rfl⟩ := metadataUpdateThread_cases hstep
    · exact h.of_eq rfl rfl rfl
    · split_ifs
      · exact h.of_eq rfl rfl rfl
      · exact h.of_eq rfl rfl rfl
  | idleCallback =>
    obtain ⟨update, rest, -, rfl⟩ := step_idleCallback hstep
    exact h.of_eq rfl rfl rfl
  | metadataAdded =>
    obtain rfl := Option.some.inj hstep
    exact h.of_eq rfl rfl rfl
  | foreignChange update =>
    obtain rfl := step_foreignChange hstep
    exact h.of_eq rfl rfl rfl
  | post =>
    obtain ⟨call, rest, htoPost, rfl⟩ := step_post hstep
    refine h.of_eq rfl rfl ?_
    simp only [comingCalls, calls, htoPost, List.append_assoc, List.singleton_append]
  | postedCall =>
    obtain ⟨call, rest, models, hposted, hrun, rfl⟩ := step_postedCall hstep
    rw [Tracks, liveNodes_concat]
    refine Eq.trans ?_ h
    -- running the oldest call is the first step of the fold
    simp only [comingRows, comingCalls, calls, hposted, List.cons_append, List.foldl_cons,
      PostedCall.rows_run hrun]

/-- **The rows are the live nodes**, each once and in the order they were added, whenever no message and
no call is on its way. -/
theorem rows_are_live_nodes (setup : List LayerSetup) (ls : List Action) (st : Session)
    (hserials : ((addedNodes ls).map WireplumberNode.objectSerial).Nodup)
    (hrun : run (guarded RoomForNode step) (start setup) ls = some st)
    (hqueue : st.queue.pending = []) (hcalls : st.calls = []) :
    st.models.nodes.rows = (liveNodes ls).map WireplumberNode.withoutTarget ∧
      (st.models.nodes.nodes.map WireplumberNode.objectSerial).Nodup := by
  have hstart : Tracks [] (start setup) := rfl
  have htracks : ((addedNodes ls).map WireplumberNode.objectSerial).Nodup → Tracks ls st := by
    refine run_induction (I := fun ls st =>
      ((addedNodes ls).map WireplumberNode.objectSerial).Nodup → Tracks ls st) (fun _ => hstart) ?_ hrun
    intro ls a l b _ ha hb hnodup
    rw [addedNodes_concat, List.map_append] at hnodup
    have hprefix := (List.nodup_append.mp hnodup).1
    exact (ha hprefix).step hprefix hb
  have hrows : st.models.nodes.rows = (liveNodes ls).map WireplumberNode.withoutTarget := by
    have hcoming : st.comingRows = st.models.nodes.rows := by
      rw [comingRows, comingCalls, hqueue, hcalls]
      rfl
    exact hcoming.symm.trans (htracks hserials)
  refine ⟨hrows, ?_⟩
  have hnodup := nodup_liveNodes hserials
  have hkeys : st.models.nodes.nodes.map WireplumberNode.objectSerial =
      (liveNodes ls).map WireplumberNode.objectSerial := by
    have hmap := congrArg (List.map WireplumberNode.objectSerial) hrows
    rw [NodesListModel.rows, List.map_map, List.map_map] at hmap
    exact hmap
  rw [hkeys]
  exact hnodup

/-- Two nodes are added and the first removed, the removal pushed before anything was handled. -/
def twoNodesRun : List Action :=
  [.nodeAddedCallback firstInput,
    .nodeAddedCallback { firstInput with id := some 43, objectSerial := some 8 },
    .nodeRemovedCallback firstInput, .nodesModelThread .start, .nodesModelThread .next, .post, .post,
    .nodesModelThread .next, .post, .post, .nodesModelThread .next, .post, .nodesModelThread .finish,
    .postedCall, .postedCall, .postedCall, .postedCall, .postedCall]

theorem rows_are_live_nodes_two : ∃ st,
    run (guarded RoomForNode step) (start [⟨["Channel 1"], []⟩]) twoNodesRun = some st ∧
      st.models.nodes.rows = [{ firstInput with id := some 43, objectSerial := some 8 }] := by
  have hview : (run (guarded RoomForNode step) (start [⟨["Channel 1"], []⟩]) twoNodesRun).map
      (fun st => (st.queue.pending, st.calls)) = some ([], []) := by decide
  obtain ⟨st, hrun, hst⟩ := Option.map_eq_some_iff.mp hview
  obtain ⟨hqueue, hcalls⟩ := Prod.mk.inj hst
  exact ⟨st, hrun, (rows_are_live_nodes _ twoNodesRun st (by decide) hrun hqueue hcalls).1⟩

end Session

end Kpmx
