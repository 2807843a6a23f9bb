import Kpmx.Wireplumber.Session

/-!
# Strips and live nodes

An inserted node is added to the node list and its id given to the strip that its name addresses; a
deleted node is removed from the list only.

* `AddressesLive` : every strip with an object id has a row with that id whose name addresses it;
* `strips_address_live_nodes` : this holds as long as no removed row is held by its strip;
* `not_live_of_held_delete` : and fails at once when one is;
* `deleted_node_still_addressed` : which a node that is added and removed does.
-/

namespace Kpmx

open Runs Spsc

/-! ## The models -/

namespace QtModels

/-- Every strip with an object id has a live node with that id whose name addresses the strip. -/
def AddressesLive (m : QtModels) : Prop :=
  ∀ r id, m.layers.objectIdAt r = some id →
    ∃ node ∈ m.nodes.nodes, node.id = some id ∧ node.name.bind LayersListModel.addressed = some r

/-- A row's id is the object id of the strip that its name addresses. -/
def held (m : QtModels) (row : WireplumberNode) : Bool :=
  match row.name.bind LayersListModel.addressed with
  | some r => row.id.isSome && decide (m.layers.objectIdAt r = row.id)
  | none => false

theorem held_of_eq {m : QtModels} {row : WireplumberNode} {r : StripRef} {id : Int32}
    (hid : row.id = some id) (hname : row.name.bind LayersListModel.addressed = some r)
    (hstrip : m.layers.objectIdAt r = some id) : m.held row = true := by
  simp [held, hname, hid, hstrip]

theorem AddressesLive.of_keeps {m m' : QtModels} (h : m.AddressesLive)
    (hrows : ∀ node ∈ m.nodes.nodes, ∃ node' ∈ m'.nodes.nodes,
      node'.id = node.id ∧ node'.name = node.name)
    (hids : ∀ r, m'.layers.objectIdAt r = m.layers.objectIdAt r) : m'.AddressesLive := by
  intro r id hr
  obtain ⟨node, hnode, hid, hname⟩ := h r id ((hids r).symm.trans hr)
  obtain ⟨node', hnode', hid', hname'⟩ := hrows node hnode
  exact ⟨node', hnode', hid'.trans hid, by rw [hname', hname]⟩

theorem AddressesLive.addNode {m : QtModels} (h : m.AddressesLive) (node : WireplumberNode) :
    AddressesLive { m with nodes := (m.nodes.addNode node).1 } :=
  h.of_keeps (fun row hrow => ⟨row, List.mem_append_left _ hrow, rfl, rfl⟩) fun _ => rfl

theorem AddressesLive.initialChannelUpdate {m : QtModels} {layers : LayersListModel}
    {node : WireplumberNode} (h : m.AddressesLive) (hnode : node ∈ m.nodes.nodes)
    (hlayers : m.layers.initialChannelUpdate node = .ok layers) :
    AddressesLive { m with layers := layers } := by
  have heq := LayersListModel.initialChannelUpdate_ok hlayers
  cases hname : node.name.bind LayersListModel.addressed with
  | none => rw [hname] at heq; rw [heq]; exact h
  | some r =>
    rw [hname] at heq
    subst heq
    intro q id hq
    simp only [LayersListModel.objectIdAt, LayersListModel.updateFromNode,
      LayersListModel.strip?_modifyStrip] at hq
    split at hq
    · next hqr =>
      obtain ⟨_, hstrip, hid⟩ := Option.bind_eq_some_iff.mp hq
      obtain ⟨strip, -, rfl⟩ := Option.map_eq_some_iff.mp hstrip
      exact ⟨node, hnode, hid, hqr ▸ hname⟩
    · exact h q id hq

theorem AddressesLive.deleteNode {m : QtModels} {objectSerial : Int32} (h : m.AddressesLive)
    (hunheld : ∀ row, m.nodes.nodeByObjectSerial objectSerial = some row → m.held row = false) :
    AddressesLive { m with nodes := (m.nodes.deleteNodeByObjectSerial objectSerial).1 } := by
  intro r id hr
  obtain ⟨node, hnode, hid, hname⟩ := h r id hr
  refine ⟨node, NodesListModel.mem_deleteNodeByObjectSerial hnode fun hrow => ?_, hid, hname⟩
  have hheld : m.held node = true := held_of_eq hid hname hr
  exact absurd ((hunheld node hrow).symm.trans hheld) (by decide)

theorem AddressesLive.metadataUpdate {m m' : QtModels} {update : WireplumberMetadataUpdate}
    (h : m.AddressesLive) (hrun : (PostedCall.metadataUpdate update).run m = .ok m') :
    m'.AddressesLive := by
  simp only [PostedCall.run] at hrun
  have hrows : ∀ node ∈ m.nodes.nodes,
      ∃ node' ∈ (m.nodes.updateNodeTargetObject update.id update.value).1.nodes,
        node'.id = node.id ∧ node'.name = node.name := fun node hnode =>
    NodesListModel.exists_mem_updateNodeTargetObject update.id update.value hnode
  split at hrun
  · split at hrun
    · split at hrun
      · next name _ =>
        cases hl : m.layers.updateTargetObjectForNodeName name update.value with
        | error e => rw [hl] at hrun; cases hrun
        | ok layers =>
          rw [hl] at hrun
          cases hrun
          exact h.of_keeps hrows fun r =>
            LayersListModel.objectIdAt_updateTargetObjectForNodeName hl r
      · cases hrun
    · cases hrun
      exact h.of_keeps hrows fun _ => rfl
  · cases hrun
    exact h

/-- Removing a held row leaves its strip without a live node, the ids of the rows being distinct. -/
theorem not_live_of_held_delete {m : QtModels} {objectSerial : Int32} {row : WireplumberNode}
    (hrow : m.nodes.nodeByObjectSerial objectSerial = some row) (hheld : m.held row = true)
    (hunique : m.nodes.nodes.Pairwise fun a b => ∀ id, a.id = some id → b.id ≠ some id) :
    ¬ AddressesLive { m with nodes := (m.nodes.deleteNodeByObjectSerial objectSerial).1 } := by
  intro hlive
  unfold held at hheld
  split at hheld
  · next r hname =>
    simp only [Bool.and_eq_true, Option.isSome_iff_exists, decide_eq_true_eq] at hheld
    obtain ⟨⟨id, hid⟩, hstrip⟩ := hheld
    obtain ⟨node, hnode, hnodeid, -⟩ := hlive r id (hstrip.trans hid)
    exact NodesListModel.id_ne_of_mem_deleteNodeByObjectSerial hunique hrow hid hnode hnodeid
  · cases hheld

end QtModels

/-! ## Runs -/

/-- Every insertion is followed by the first update of its strip. -/
inductive Paired : List PostedCall → Prop where
  | nil : Paired []
  | insert (node : WireplumberNode) {rest : List PostedCall} : Paired rest →
      Paired (.addNode node :: .initialChannelUpdate node :: rest)
  | delete (node : WireplumberNode) {rest : List PostedCall} : Paired rest →
      Paired (.deleteNodeByObjectSerial node :: rest)
  | metadataUpdate (update : WireplumberMetadataUpdate) {rest : List PostedCall} : Paired rest →
      Paired (.metadataUpdate update :: rest)

theorem Paired.append {calls calls' : List PostedCall} (h : Paired calls) (h' : Paired calls') :
    Paired (calls ++ calls') := by
  induction h with
  | nil => exact h'
  | insert node _ ih => exact .insert node ih
  | delete node _ ih => exact .delete node ih
  | metadataUpdate update _ ih => exact .metadataUpdate update ih

theorem Paired.cases_cons {call : PostedCall} {rest : List PostedCall} (h : Paired (call :: rest)) :
    (∃ node rest', call = .addNode node ∧ rest = .initialChannelUpdate node :: rest' ∧ Paired rest') ∨
      (∃ node, call = .deleteNodeByObjectSerial node ∧ Paired rest) ∨
      ∃ update, call = .metadataUpdate update ∧ Paired rest := by
  cases h with
  | insert node h => exact .inl ⟨node, _, rfl, rfl, h⟩
  | delete node h => exact .inr (.inl ⟨node, rfl, h⟩)
  | metadataUpdate update h => exact .inr (.inr ⟨update, rfl, h⟩)

theorem paired_updateModel {message : WireplumberObjectManagerQueueMessage} {calls : List PostedCall}
    (h : updateModel message = .ok calls) : Paired calls := by
  unfold updateModel at h
  cases ho : message.operation with
  | insert =>
    rw [ho] at h
    cases hn : message.node with
    | error e => rw [hn] at h; cases h
    | ok node => rw [hn] at h; cases h; exact .insert node .nil
  | delete =>
    rw [ho] at h
    cases hn : message.node with
    | error e => rw [hn] at h; cases h
    | ok node => rw [hn] at h; cases h; exact .delete node .nil
  | metadataUpdate =>
    rw [ho] at h
    cases hu : message.update with
    | error e => rw [hu] at h; cases h
    | ok update => rw [hu] at h; cases h; exact .metadataUpdate update .nil

namespace Session

/-- The row that the next posted call removes, if it removes one. -/
def deletedRow (st : Session) : Option WireplumberNode :=
  match st.posted with
  | .deleteNodeByObjectSerial node :: _ => node.objectSerial.bind st.models.nodes.nodeByObjectSerial
  | _ => none

/-- A posted call removes no row whose id its strip holds. -/
def DeletesUnheld (st : Session) : Action → Prop
  | .postedCall => ∀ row ∈ st.deletedRow, st.models.held row = false
  | _ => True

instance (st : Session) (a : Action) : Decidable (st.DeletesUnheld a) :=
  match a with
  | .postedCall => inferInstanceAs (Decidable (∀ row ∈ st.deletedRow, st.models.held row = false))
  | .setTargetObject .. | .metadataUpdateThread _ | .idleCallback | .metadataAdded |
    .metadataChangedCallback | .foreignChange _ | .nodeAddedCallback _ | .nodeRemovedCallback _ |
    .nodesModelThread _ | .post => isTrue trivial

/-- Strips address live nodes, and the calls are paired, but for a node that is in the list already and
whose strip comes next. -/
structure LiveInv (st : Session) : Prop where
  live : st.models.AddressesLive
  paired : Paired st.calls ∨ ∃ node rest, st.calls = .initialChannelUpdate node :: rest ∧
    node ∈ st.models.nodes.nodes ∧ Paired rest

theorem LiveInv.of_eq {a b : Session} (h : LiveInv a) (hmodels : b.models = a.models)
    (hcalls : b.calls = a.calls) : LiveInv b where
  live := hmodels ▸ h.live
  paired := by rw [hmodels, hcalls]; exact h.paired

theorem LiveInv.setTargetObject {a b : Session} {r : StripRef} {targetObject : QVariant}
    (h : LiveInv a) (hb : a.setTargetObject r targetObject = some b) : LiveInv b := by
  obtain ⟨_, -, rfl⟩ := setTargetObject_eq_some.mp hb
  refine ⟨h.live.of_keeps (fun row hrow => ⟨row, hrow, rfl, rfl⟩) fun q => ?_, h.paired⟩
  exact LayersListModel.objectIdAt_modifyStrip _ _ q fun strip =>
    strip.setTargetObject_objectId targetObject

theorem LiveInv.nodesModelThread {a b : Session} {s : DrainStep} (h : LiveInv a)
    (hb : a.nodesModelThread s = some b) : LiveInv b := by
  obtain ⟨queue, -, rfl⟩ | ⟨message, queue, new, hnil, -, hnew, rfl⟩ := nodesModelThread_cases hb
  · exact h.of_eq rfl rfl
  · have hpaired : Paired new := paired_updateModel hnew
    have hcalls : a.calls = a.posted := by rw [calls, hnil, List.append_nil]
    refine ⟨h.live, ?_⟩
    rcases h.paired with hp | ⟨node, rest, hcons, hnode, hp⟩
    · exact .inl (Paired.append (hcalls ▸ hp) hpaired)
    · refine .inr ⟨node, rest ++ new, ?_, hnode, hp.append hpaired⟩
      calc a.posted ++ new = a.calls ++ new := by rw [hcalls]
        _ = .initialChannelUpdate node :: (rest ++ new) := by rw [hcons, List.cons_append]

/-- The oldest posted call: the cases are what may come first in the paired calls. -/
theorem LiveInv.postedCall {a b : Session} (h : LiveInv a)
    (hb : guarded DeletesUnheld step a .postedCall = some b) : LiveInv b := by
  obtain ⟨hunheld, hb⟩ := (guarded_eq_some DeletesUnheld).mp hb
  obtain ⟨call, rest, models, hposted, hrun, rfl⟩ := step_postedCall hb
  have hcalls : a.calls = call :: (rest ++ a.toPost) := by rw [calls, hposted, List.cons_append]
  rcases h.paired with hp | ⟨node, rest', hcons, hnode, hp⟩
  · obtain ⟨node, rest', rfl, hrest, hp⟩ | ⟨node, rfl, hp⟩ | ⟨update, rfl, hp⟩ :=
      Paired.cases_cons (hcalls ▸ hp)
    · obtain rfl := Except.ok.inj hrun
      exact ⟨h.live.addNode node,
        .inr ⟨node, rest', hrest, List.mem_append_right _ List.mem_cons_self, hp⟩⟩
    · rw [PostedCall.run] at hrun
      split at hrun
      · next objectSerial hserial =>
        obtain rfl := Except.ok.inj hrun
        refine ⟨h.live.deleteNode fun row hrow => hunheld row ?_, .inl hp⟩
        rw [deletedRow, hposted]
        simp only [hserial, Option.bind_some, hrow, Option.mem_some]
      · exact absurd hrun (by simp)
    · exact ⟨h.live.metadataUpdate hrun, .inl hp⟩
  · obtain ⟨rfl, rfl⟩ := List.cons.inj (hcalls.symm.trans hcons)
    rw [PostedCall.run] at hrun
    cases hl : a.models.layers.initialChannelUpdate node with
    | error e => rw [hl] at hrun; exact absurd hrun (by simp [Except.map])
    | ok layers =>
      rw [hl] at hrun
      obtain rfl := Except.ok.inj hrun
      exact ⟨h.live.initialChannelUpdate hnode hl, .inl hp⟩

theorem LiveInv.step {a b : Session} {l : Action} (h : LiveInv a)
    (hb : guarded DeletesUnheld step a l = some b) : LiveInv b := by
  have hstep := ((guarded_eq_some DeletesUnheld).mp hb).2
  cases l with
  | setTargetObject r targetObject => exact h.setTargetObject hstep
  | metadataUpdateThread s =>
    obtain ⟨queue, -, rfl⟩ | ⟨update, queue, -, rfl⟩ := metadataUpdateThread_cases hstep
    · exact h.of_eq rfl rfl
    · split_ifs
      · exact h.of_eq rfl rfl
      · exact h.of_eq rfl rfl
  | idleCallback =>
    obtain ⟨update, rest, -, rfl⟩ := step_idleCallback hstep
    exact h.of_eq rfl rfl
  | metadataChangedCallback =>
    obtain ⟨update, rest, -, rfl⟩ := step_metadataChangedCallback hstep
    exact h.of_eq rfl rfl
  | foreignChange update =>
    obtain rfl := step_foreignChange hstep
    exact h.of_eq rfl rfl
  | metadataAdded =>
    obtain rfl := Option.some.inj hstep
    exact h.of_eq rfl rfl
  | nodeAddedCallback node =>
    obtain rfl := Option.some.inj hstep
    exact h.of_eq rfl rfl
  | nodeRemovedCallback node =>
    obtain rfl := Option.some.inj hstep
    exact h.of_eq rfl rfl
  | nodesModelThread s => exact h.nodesModelThread hstep
  | post =>
    obtain ⟨call, rest, htoPost, rfl⟩ := step_post hstep
    refine h.of_eq rfl ?_
    simp only [calls, htoPost, List.append_assoc, List.singleton_append]
  | postedCall => exact h.postedCall hb

/-- **Strips address live nodes** in every run in which no posted call removes a row whose id its
strip holds, and what a setter then pushes goes to such a node. -/
theorem strips_address_live_nodes (setup : List LayerSetup) (ls : List Action) (st : Session)
    (hrun : run (guarded DeletesUnheld step) (start setup) ls = some st) (r : StripRef)
    (strip : ChannelStripModel) (hstrip : st.models.layers.strip? r = some strip) :
    (∀ id, strip.objectId = some id → ∃ node ∈ st.models.nodes.nodes,
      node.id = some id ∧ node.name.bind LayersListModel.addressed = some r) ∧
    ∀ targetObject, ∀ update ∈ (strip.setTargetObject targetObject).pushed,
      ∃ node ∈ st.models.nodes.nodes,
        node.id = some update.id ∧ node.name.bind LayersListModel.addressed = some r := by
  have hstart : LiveInv (start setup) := {
    live := fun r id hr => by
      rw [start, LayersListModel.objectIdAt_ofSetup] at hr
      cases hr
    paired := .inl .nil }
  have h : LiveInv st := run_invariant (fun _ _ _ ha hl => ha.step hl) hrun hstart
  have hlive : ∀ id, strip.objectId = some id → ∃ node ∈ st.models.nodes.nodes,
      node.id = some id ∧ node.name.bind LayersListModel.addressed = some r := fun id hid =>
    h.live r id (by simp [LayersListModel.objectIdAt, hstrip, hid])
  refine ⟨hlive, fun targetObject update hupdate => hlive _ ?_⟩
  exact (ChannelStripModel.mem_setTargetObject_pushed hupdate).1

/-- The node is added, then removed, each time up to the last posted call. -/
def removedRun : List Action :=
  insertRun firstInput ++ [.nodeRemovedCallback firstInput, .nodesModelThread .start,
    .nodesModelThread .next, .post, .nodesModelThread .finish, .postedCall]

theorem deleted_node_still_addressed : ¬ ∀ (setup : List LayerSetup) (ls : List Action) (st : Session),
    run step (start setup) ls = some st → st.Drained →
      ∀ r strip id, st.models.layers.strip? r = some strip → strip.objectId = some id →
        ∃ node ∈ st.models.nodes.nodes,
          node.id = some id ∧ node.name.bind LayersListModel.addressed = some r := by
  intro h
  have hview : (run step (start [⟨["Channel 1"], []⟩]) removedRun).map (fun st =>
      (decide st.Drained, st.models.nodes.nodes, st.models.layers.objectIdAt ⟨0, .input, 0⟩)) =
      some (true, [], some 42) := by decide
  obtain ⟨st, hrun, hst⟩ := Option.map_eq_some_iff.mp hview
  simp only [Prod.mk.injEq, decide_eq_true_eq] at hst
  obtain ⟨hdrained, hnodes, hid⟩ := hst
  obtain ⟨strip, hstrip, hid⟩ := Option.bind_eq_some_iff.mp hid
  obtain ⟨node, hnode, -⟩ := h _ _ st hrun hdrained _ strip 42 hstrip hid
  rw [hnodes] at hnode
  cases hnode

/-- A second node for the same strip is added, and the first one removed. -/
theorem strips_address_live_nodes_replaced : ∃ st,
    run (guarded DeletesUnheld step) (start [⟨["Channel 1"], []⟩])
      (removedRun.take 8 ++ insertRun { firstInput with id := some 43, objectSerial := some 8 } ++
        removedRun.drop 8) = some st ∧
      ∃ node ∈ st.models.nodes.nodes, node.id = some 43 := by
  have hview : (run (guarded DeletesUnheld step) (start [⟨["Channel 1"], []⟩])
      (removedRun.take 8 ++ insertRun { firstInput with id := some 43, objectSerial := some 8 } ++
        removedRun.drop 8)).map (fun st => st.models.layers.objectIdAt ⟨0, .input, 0⟩) =
      some (some 43) := by decide
  obtain ⟨st, hrun, hid⟩ := Option.map_eq_some_iff.mp hview
  obtain ⟨strip, hstrip, hid⟩ := Option.bind_eq_some_iff.mp hid
  obtain ⟨node, hnode, hnodeid, -⟩ :=
    (strips_address_live_nodes _ _ st hrun ⟨0, .input, 0⟩ strip hstrip).1 43 hid
  exact ⟨st, hrun, node, hnode, hnodeid⟩

end Session

end Kpmx
