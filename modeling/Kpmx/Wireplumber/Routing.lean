import Kpmx.Lib.LastWrite
import Kpmx.Wireplumber.Session

/-!
# Routing changes and the node list

A setter sends its change under the key `target.object`; the handler of metadata updates acts on the key
`target_object` only. So a change comes back from the metadata object and is dropped.

* `Routed` : while setters and the threads between them and the node list run, everything in flight is
  a change under the setters' key, the rows stay as they are and the strip shows the last request;
* `routing_change_returns_iff` : the row agrees with the strip exactly when it had the requested target
  to begin with;
* `routing_change_dropped` : which it need not.
-/

namespace Kpmx

open Runs Spsc LastWrite

/-- An update under the key of the setters. -/
def WireplumberMetadataUpdate.Routing (update : WireplumberMetadataUpdate) : Prop :=
  update.key = "target.object"

theorem WireplumberMetadataUpdate.Routing.echo {update : WireplumberMetadataUpdate}
    (h : update.Routing) : update.echo.Routing := by
  have hkey : cStr "target.object" = "target.object" := by decide
  exact (congrArg cStr h).trans hkey

def WireplumberObjectManagerQueueMessage.Routing (message : WireplumberObjectManagerQueueMessage) :
    Prop :=
  ∃ update : WireplumberMetadataUpdate, update.Routing ∧
    message = { object := some (.metadataUpdate update), operation := .metadataUpdate }

def PostedCall.Routing (call : PostedCall) : Prop :=
  ∃ update : WireplumberMetadataUpdate, update.Routing ∧ call = .metadataUpdate update

theorem updateModel_of_routing {message : WireplumberObjectManagerQueueMessage}
    (h : message.Routing) : ∃ call : PostedCall, call.Routing ∧ updateModel message = .ok [call] := by
  obtain ⟨update, hupdate, rfl⟩ := h
  exact ⟨_, ⟨update, hupdate, rfl⟩, rfl⟩

/-- The handler ignores the setters' key. -/
theorem PostedCall.Routing.run {call : PostedCall} (h : call.Routing) (m : QtModels) :
    call.run m = .ok m := by
  obtain ⟨update, hupdate, rfl⟩ := h
  exact if_neg (by rw [hupdate]; decide)

namespace Session

/-- The setters, and the steps that take their changes to the metadata object and back. -/
def Action.isRouting : Action → Bool
  | .setTargetObject .. => true
  | .metadataUpdateThread _ => true
  | .idleCallback => true
  | .metadataChangedCallback => true
  | .nodesModelThread _ => true
  | .post => true
  | .postedCall => true
  | _ => false

/-- The targets requested in a run, by strip. -/
def requests (ls : List Action) : List (StripRef × QVariant) := ls.filterMap fun
  | .setTargetObject r targetObject => some (r, targetObject)
  | _ => none

/-- The target last requested for a strip, or the one it had. -/
def requested (r : StripRef) (strip : ChannelStripModel) (ls : List Action) : Option String :=
  (lastValue r (requests ls)).getD strip.targetObject

/-- What a run of setters and routing steps keeps, for a strip and the rows it started with. -/
structure Routed (nodes : NodesListModel) (r : StripRef) (strip : ChannelStripModel)
    (ls : List Action) (st : Session) : Prop where
  nodes_eq : st.models.nodes = nodes
  strip_eq : st.models.layers.strip? r = some { strip with targetObject := requested r strip ls }
  updates : ∀ update ∈ st.metadataUpdatesQueue.pending ++ st.idle ++ st.changed, update.Routing
  messages : ∀ message ∈ st.queue.pending, message.Routing
  calls : ∀ call ∈ st.calls, call.Routing

theorem requested_concat {r : StripRef} {strip : ChannelStripModel} {ls : List Action} {l : Action}
    (h : ∀ targetObject, l ≠ .setTargetObject r targetObject) :
    requested r strip (ls ++ [l]) = requested r strip ls := by
  unfold requested requests
  rw [List.filterMap_append]
  cases l with
  | setTargetObject q targetObject =>
    have hq : q ≠ r := fun hq => h targetObject (by rw [hq])
    simp [lastValue_concat, hq]
  | _ => simp

theorem requested_setTargetObject (r : StripRef) (strip : ChannelStripModel) (ls : List Action)
    (targetObject : QVariant) :
    requested r strip (ls ++ [.setTargetObject r targetObject]) = targetObject := by
  unfold requested requests
  rw [List.filterMap_append]
  simp [lastValue_concat]

theorem mem_foldl_push {pushed : List WireplumberMetadataUpdate}
    {queue : Consuming WireplumberMetadataUpdate queueCapacity} {update : WireplumberMetadataUpdate}
    (h : update ∈ (pushed.foldl Consuming.push queue).pending) :
    update ∈ queue.pending ∨ update ∈ pushed := by
  induction pushed generalizing queue with
  | nil => exact .inl h
  | cons first pushed ih =>
    rcases ih h with h | h
    · rcases Consuming.mem_pending_push h with h | rfl
      · exact .inl h
      · exact .inr List.mem_cons_self
    · exact .inr (List.mem_cons_of_mem _ h)

theorem Routed.setTargetObject {nodes : NodesListModel} {r q : StripRef} {strip : ChannelStripModel}
    {id : Int32} {ls : List Action} {a b : Session} {targetObject : QVariant}
    (h : Routed nodes r strip ls a) (hid : strip.objectId = some id)
    (hb : a.setTargetObject q targetObject = some b) :
    Routed nodes r strip (ls ++ [.setTargetObject q targetObject]) b := by
  obtain ⟨other, -, rfl⟩ := setTargetObject_eq_some.mp hb
  constructor
  · exact h.nodes_eq
  · simp only [LayersListModel.strip?_modifyStrip]
    split
    · next hq =>
      subst hq
      rw [h.strip_eq, requested_setTargetObject]
      exact congrArg some (ChannelStripModel.setTargetObject_strip
        (s := { strip with targetObject := requested r strip ls }) hid targetObject)
    · next hq =>
      rw [h.strip_eq, requested_concat (by intro v hv; cases hv; exact hq rfl)]
  · intro update hupdate
    simp only [List.mem_append] at hupdate
    rcases hupdate with (hupdate | hupdate) | hupdate
    · rcases mem_foldl_push hupdate with hupdate | hupdate
      · exact h.updates update (by simp [hupdate])
      · exact (ChannelStripModel.mem_setTargetObject_pushed hupdate).2.1
    · exact h.updates update (by simp [hupdate])
    · exact h.updates update (by simp [hupdate])
  · exact h.messages
  · exact h.calls

theorem Routed.of_models_eq {nodes : NodesListModel} {r : StripRef} {strip : ChannelStripModel}
    {ls : List Action} {l : Action} {a b : Session} (h : Routed nodes r strip ls a)
    (hl : ∀ targetObject, l ≠ .setTargetObject r targetObject) (hmodels : b.models = a.models)
    (hupdates : ∀ update ∈ b.metadataUpdatesQueue.pending ++ b.idle ++ b.changed, update.Routing)
    (hmessages : ∀ message ∈ b.queue.pending, message.Routing)
    (hcalls : ∀ call ∈ b.calls, call.Routing) : Routed nodes r strip (ls ++ [l]) b where
  nodes_eq := by rw [hmodels]; exact h.nodes_eq
  strip_eq := by rw [hmodels, requested_concat hl]; exact h.strip_eq
  updates := hupdates
  messages := hmessages
  calls := hcalls

theorem Routed.metadataUpdateThread {nodes : NodesListModel} {r : StripRef}
    {strip : ChannelStripModel} {ls : List Action} {a b : Session} {s : DrainStep}
    (h : Routed nodes r strip ls a) (hb : a.metadataUpdateThread s = some b) :
    Routed nodes r strip (ls ++ [.metadataUpdateThread s]) b := by
  have hl : ∀ targetObject, Action.metadataUpdateThread s ≠ .setTargetObject r targetObject := by simp
  obtain ⟨queue, hpending, rfl⟩ | ⟨update, queue, hpending, rfl⟩ := metadataUpdateThread_cases hb
  · refine h.of_models_eq hl rfl ?_ h.messages h.calls
    rw [hpending]
    exact h.updates
  · have hupdates := h.updates
    rw [hpending] at hupdates
    split_ifs
    · refine h.of_models_eq hl rfl (fun u hu => hupdates u ?_) h.messages h.calls
      simp only [List.mem_append, List.mem_cons] at hu ⊢
      tauto
    · refine h.of_models_eq hl rfl (fun u hu => hupdates u ?_) h.messages h.calls
      simp only [List.mem_append, List.mem_cons] at hu ⊢
      tauto

theorem Routed.nodesModelThread {nodes : NodesListModel} {r : StripRef} {strip : ChannelStripModel}
    {ls : List Action} {a b : Session} {s : DrainStep} (h : Routed nodes r strip ls a)
    (hb : a.nodesModelThread s = some b) :
    Routed nodes r strip (ls ++ [.nodesModelThread s]) b := by
  have hl : ∀ targetObject, Action.nodesModelThread s ≠ .setTargetObject r targetObject := by simp
  obtain ⟨queue, hpending, rfl⟩ | ⟨message, queue, new, -, hpending, hnew, rfl⟩ :=
    nodesModelThread_cases hb
  · refine h.of_models_eq hl rfl h.updates ?_ h.calls
    rw [hpending]
    exact h.messages
  · have hmessages := h.messages
    rw [hpending] at hmessages
    obtain ⟨call, hcall, hmodel⟩ := updateModel_of_routing (hmessages message List.mem_cons_self)
    obtain rfl := Except.ok.inj (hmodel.symm.trans hnew)
    refine h.of_models_eq hl rfl h.updates (fun m hm => hmessages m (List.mem_cons_of_mem _ hm)) ?_
    intro c hc
    rcases List.mem_append.mp hc with hc | hc
    · exact h.calls c (List.mem_append_left _ hc)
    · exact List.mem_singleton.mp hc ▸ hcall

theorem Routed.step {nodes : NodesListModel} {r : StripRef} {strip : ChannelStripModel} {id : Int32}
    {ls : List Action} {l : Action} {a b : Session} (h : Routed nodes r strip ls a)
    (hid : strip.objectId = some id) (hrouting : l.isRouting = true) (hb : step a l = some b) :
    Routed nodes r strip (ls ++ [l]) b := by
  cases l with
  | setTargetObject q targetObject => exact h.setTargetObject hid hb
  | metadataUpdateThread s => exact h.metadataUpdateThread hb
  | idleCallback =>
    obtain ⟨update, rest, hidle, rfl⟩ := step_idleCallback hb
    have hupdates := h.updates
    rw [hidle] at hupdates
    refine h.of_models_eq (by simp) rfl (fun u hu => ?_) h.messages h.calls
    simp only [List.mem_append, List.mem_singleton] at hu
    rcases hu with (hu | hu) | hu | rfl
    · exact hupdates u (by simp [hu])
    · exact hupdates u (by simp [hu])
    · exact hupdates u (by simp [hu])
    · exact (hupdates update (by simp)).echo
  | metadataChangedCallback =>
    obtain ⟨update, rest, hchanged, rfl⟩ := step_metadataChangedCallback hb
    have hupdates := h.updates
    rw [hchanged] at hupdates
    refine h.of_models_eq (by simp) rfl (fun u hu => hupdates u ?_) (fun m hm => ?_) h.calls
    · simp only [List.mem_append, List.mem_cons] at hu ⊢
      tauto
    · rcases Consuming.mem_pending_push hm with hm | rfl
      · exact h.messages m hm
      · exact ⟨update, hupdates update (by simp), rfl⟩
  | nodesModelThread s => exact h.nodesModelThread hb
  | post =>
    obtain ⟨call, rest, htoPost, rfl⟩ := step_post hb
    refine h.of_models_eq (by simp) rfl h.updates h.messages fun c hc => h.calls c ?_
    rw [Session.calls, htoPost]
    simpa [Session.calls] using hc
  | postedCall =>
    obtain ⟨call, rest, models, hposted, hrun, rfl⟩ := step_postedCall hb
    have hcalls := h.calls
    rw [Session.calls, hposted] at hcalls
    -- a routing change leaves the models alone
    have hmodels := (hcalls call List.mem_cons_self).run a.models
    obtain rfl := Except.ok.inj (hmodels.symm.trans hrun)
    exact h.of_models_eq (by simp) rfl h.updates h.messages fun c hc =>
      hcalls c (List.mem_cons_of_mem _ hc)
  | foreignChange update => exact absurd hrouting Bool.false_ne_true
  | metadataAdded => exact absurd hrouting Bool.false_ne_true
  | nodeAddedCallback node => exact absurd hrouting Bool.false_ne_true
  | nodeRemovedCallback node => exact absurd hrouting Bool.false_ne_true

theorem routed_of_run {a b : Session} {ls : List Action} {r : StripRef} {strip : ChannelStripModel}
    {id : Int32} (hdrained : a.Drained) (hstrip : a.models.layers.strip? r = some strip)
    (hid : strip.objectId = some id) (hrouting : ∀ l ∈ ls, l.isRouting = true)
    (hrun : run step a ls = some b) : Routed a.models.nodes r strip ls b := by
  have hstart : Routed a.models.nodes r strip [] a := {
    nodes_eq := rfl
    strip_eq := hstrip
    updates := by simp [hdrained.updates, hdrained.idle, hdrained.changed]
    messages := by simp [hdrained.messages]
    calls := by simp [Session.calls, hdrained.posted, hdrained.toPost] }
  refine run_induction (I := fun ls st => (∀ l ∈ ls, l.isRouting = true) →
    Routed a.models.nodes r strip ls st) (fun _ => hstart) ?_ hrun hrouting
  intro ls u l v _ hu hv hls
  exact (hu fun k hk => hls k (List.mem_append_left _ hk)).step hid
    (hls l (List.mem_append_right _ List.mem_cons_self)) hv

/-- **A routing change comes back to the node list** exactly when there is nothing to bring back: from
a drained state on, the row of a strip's node shows the strip's target if and only if the target last
requested, or the one the strip had, is the one the row had. -/
theorem routing_change_returns_iff (a b : Session) (ls : List Action) (r : StripRef)
    (strip : ChannelStripModel) (id : Int32) (row : WireplumberNode) (hdrained : a.Drained)
    (hstrip : a.models.layers.strip? r = some strip) (hid : strip.objectId = some id)
    (hrow : a.models.nodes.nodeByObjectId id = some row)
    (hrouting : ∀ l ∈ ls, l.isRouting = true) (hrun : run step a ls = some b) :
    (b.models.nodes.nodeByObjectId id).map WireplumberNode.targetObject =
        (b.models.layers.strip? r).map ChannelStripModel.targetObject ↔
      requested r strip ls = row.targetObject := by
  have h := routed_of_run hdrained hstrip hid hrouting hrun
  rw [h.nodes_eq, h.strip_eq, hrow, Option.map_some, Option.map_some, Option.some.injEq]
  exact eq_comm

/-- A target is requested for the first input strip and taken all the way. -/
def requestRun : List Action :=
  [.setTargetObject ⟨0, .input, 0⟩ (some "sink"), .metadataUpdateThread .start,
    .metadataUpdateThread .next, .metadataUpdateThread .finish, .idleCallback,
    .metadataChangedCallback, .nodesModelThread .start, .nodesModelThread .next, .post,
    .nodesModelThread .finish, .postedCall]

/-- The metadata object is there and the first input strip has its node. -/
def connectedRun : List Action := .metadataAdded :: insertRun firstInput

theorem connectedRun_eq : ∃ a strip, run step (start [⟨["Channel 1"], []⟩]) connectedRun = some a ∧
    a.Drained ∧ a.metadata = true ∧ a.models.layers.strip? ⟨0, .input, 0⟩ = some strip ∧
    strip.objectId = some 42 ∧ a.models.nodes.nodeByObjectId 42 = some firstInput ∧
    (run step a requestRun).map (fun b => (decide b.Drained, b.lost)) = some (true, []) := by
  have hview : (run step (start [⟨["Channel 1"], []⟩]) connectedRun).map (fun a =>
      (decide a.Drained, a.metadata, a.models.layers.objectIdAt ⟨0, .input, 0⟩,
        a.models.nodes.nodeByObjectId 42)) = some (true, true, some 42, some firstInput) := by decide
  have hround : (run step (start [⟨["Channel 1"], []⟩]) connectedRun).map (fun a =>
      (run step a requestRun).map fun b => (decide b.Drained, b.lost)) = some (some (true, [])) := by
    decide
  obtain ⟨a, hrun, ha⟩ := Option.map_eq_some_iff.mp hview
  rw [hrun, Option.map_some, Option.some.injEq] at hround
  simp only [Prod.mk.injEq, decide_eq_true_eq] at ha
  obtain ⟨hdrained, hmetadata, hid, hrow⟩ := ha
  obtain ⟨strip, hstrip, hid⟩ := Option.bind_eq_some_iff.mp hid
  exact ⟨a, strip, hrun, hdrained, hmetadata, hstrip, hid, hrow, hround⟩

/-- The request goes all the way round and the row does not take it. -/
theorem routing_change_dropped : ¬ ∀ (setup : List LayerSetup) (ls ls' : List Action) (a b : Session)
    (r : StripRef) (strip : ChannelStripModel) (id : Int32) (row : WireplumberNode),
    run step (start setup) ls = some a → a.Drained → a.metadata = true →
    a.models.layers.strip? r = some strip → strip.objectId = some id →
    a.models.nodes.nodeByObjectId id = some row → (∀ l ∈ ls', l.isRouting = true) →
    run step a ls' = some b → b.Drained → b.lost = [] →
    (b.models.nodes.nodeByObjectId id).map WireplumberNode.targetObject =
      (b.models.layers.strip? r).map ChannelStripModel.targetObject := by
  intro h
  obtain ⟨a, strip, hrun, hdrained, hmetadata, hstrip, hid, hrow, hrequest⟩ := connectedRun_eq
  obtain ⟨b, hrunb, hb⟩ := Option.map_eq_some_iff.mp hrequest
  simp only [Prod.mk.injEq, decide_eq_true_eq] at hb
  have hrouting : ∀ l ∈ requestRun, l.isRouting = true := by decide
  have heq := h _ _ _ a b _ strip 42 firstInput hrun hdrained hmetadata hstrip hid hrow hrouting
    hrunb hb.1 hb.2
  have hrouted := routed_of_run hdrained hstrip hid hrouting hrunb
  rw [hrouted.nodes_eq, hrouted.strip_eq, hrow] at heq
  exact absurd heq (show ¬ some (none : Option String) = some (some "sink") by decide)

/-- When the request is taken back, row and strip agree again. -/
theorem routing_change_returns_cleared : ∃ a b,
    run step (start [⟨["Channel 1"], []⟩]) connectedRun = some a ∧
    run step a (requestRun ++ [.setTargetObject ⟨0, .input, 0⟩ none]) = some b ∧
    (b.models.nodes.nodeByObjectId 42).map WireplumberNode.targetObject =
      (b.models.layers.strip? ⟨0, .input, 0⟩).map ChannelStripModel.targetObject := by
  obtain ⟨a, strip, hrun, hdrained, -, hstrip, hid, hrow, hround⟩ := connectedRun_eq
  obtain ⟨c, hrunc, -⟩ := Option.map_eq_some_iff.mp hround
  have hrouting : ∀ l ∈ requestRun, l.isRouting = true := by decide
  have hstripc := (routed_of_run hdrained hstrip hid hrouting hrunc).strip_eq
  have hstep : ∃ b, step c (.setTargetObject ⟨0, .input, 0⟩ none) = some b := by
    simp [step, setTargetObject, hstripc]
  obtain ⟨b, hb⟩ := hstep
  have hrunb := run_concat_eq_some.mpr ⟨c, hrunc, hb⟩
  refine ⟨a, b, hrun, hrunb, ?_⟩
  exact (routing_change_returns_iff a b _ _ strip 42 firstInput hdrained hstrip hid hrow (by decide)
    hrunb).mpr rfl

end Session

end Kpmx
