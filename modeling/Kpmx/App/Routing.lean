import Kpmx.App.Application

/-!
# The routing of the application

Setters and feedback do not interfere with the routing: the routing halves of the strips, the node list
and the messages on their way go through a run of the session alone, in which the same session steps
occur in the same order (`app_refines_session`).
-/

namespace Kpmx

open Runs

theorem Session.routing_start (setup : List LayerSetup) : (start setup).routing = start setup := by
  have hnames : ∀ names : List String,
      (ChannelStripListModel.ofNames names).mapStrips ChannelStripModel.routing = .ofNames names := by
    intro names
    rw [ChannelStripListModel.mapStrips, ChannelStripListModel.ofNames, List.map_map]
    rfl
  have hlayers : (LayersListModel.ofSetup setup).routing = .ofSetup setup := by
    refine congrArg LayersListModel.mk (List.ext_getElem? fun i => ?_)
    rw [LayersListModel.ofSetup, List.getElem?_map, List.getElem?_mapIdx]
    cases setup[i]? with
    | none => rfl
    | some layer => simp only [Option.map_some, LayerModel.mapStrips, hnames]
  rw [routing, start, QtModels.routing]
  simp only [hlayers]

namespace App

variable {setup : List LayerSetup} {n : Nat}

/-- The step of the session that a step of the application is, other than a posted call. -/
def Action.ofSession : Action n → Option Session.Action
  | .session l => some l
  | _ => none

/-! ## One step -/

theorem routing_withLayers {st : App n} {layers : LayersListModel}
    (h : layers.routing = st.layers.routing) :
    (st.withLayers layers).session.routing = st.session.routing := by
  simp only [Session.routing, QtModels.routing, withLayers]
  exact congrArg (fun layers => ({ st.session with models := { st.session.models with layers := layers } } :
    Session)) h

section
variable {w : Wiring setup n} {a b : App n}

theorem routing_setter {k : Fin n} {call : SetterCall} (h : a.setter w k call = some b) :
    b.session.routing = a.session.routing := by
  obtain ⟨strip, -, rfl⟩ := Option.map_eq_some_iff.mp h
  exact routing_withLayers (LayersListModel.mapStrips_modifyStrip_of_eq call.routing_perform _ _)

theorem routing_setLocal {r : StripRef} {call : LocalCall} (h : a.setLocal r call = some b) :
    b.session.routing = a.session.routing := by
  obtain ⟨strip, -, rfl⟩ := Option.map_eq_some_iff.mp h
  exact routing_withLayers (LayersListModel.mapStrips_modifyStrip_of_eq call.routing_perform _ _)

theorem session_syncStep {l : FeedbackSync.Action n} (h : a.syncStep l = some b) :
    b.session = a.session := by
  obtain ⟨sync, -, rfl⟩ := Option.map_eq_some_iff.mp h
  rfl

theorem sessionStep_eq_some {l : Session.Action} (h : a.sessionStep l = some b) :
    l.isPostedCall = false ∧ a.session.step l = some b.session := by
  obtain ⟨hposted, h⟩ := Option.ite_none_left_eq_some.mp h
  obtain ⟨session, hsession, rfl⟩ := Option.map_eq_some_iff.mp h
  exact ⟨eq_false_of_ne_true hposted, hsession⟩

variable [CastUndefined]

theorem session_controlProcess {k : Fin n} {control : Option PwBuffer}
    (h : a.controlProcess k control = some b) : b.session = a.session := by
  unfold controlProcess at h
  split at h
  · cases h; rfl
  · cases h

theorem event_cases (h : a.event w = some b) :
    (a.events.head? = some .nodes ∧ a.session.step .postedCall = some b.session) ∨
      b.session.routing = a.session.routing := by
  rcases event_eq_some h with ⟨rest, session, hevents, hsession, rfl⟩ |
    ⟨rest, slot, message, posted, params, -, -, rfl⟩
  · exact .inl ⟨by rw [hevents]; rfl, hsession⟩
  · exact .inr (routing_withLayers
      (LayersListModel.mapStrips_modifyStrip_of_eq (routing_applyParams params) _ _))

/-- What a step does to the session, seen at the routing halves. -/
theorem step_routing {l : Action n} (h : step w a l = some b) :
    ∃ ks : List Session.Action, run Session.step a.session.routing ks = some b.session.routing ∧
      ks.filter (fun k => !k.isPostedCall) = l.ofSession.toList := by
  have hstay : b.session.routing = a.session.routing → l.ofSession = none →
      ∃ ks : List Session.Action, run Session.step a.session.routing ks = some b.session.routing ∧
        ks.filter (fun k => !k.isPostedCall) = l.ofSession.toList := by
    intro hsame hnone
    exact ⟨[], by rw [hsame]; rfl, by rw [hnone]; rfl⟩
  have hmove : ∀ k, a.session.step k = some b.session →
      run Session.step a.session.routing [k] = some b.session.routing := by
    intro k hk
    rw [run_cons, Session.routing_step, hk]
    rfl
  cases l with
  | setter k call => exact hstay (routing_setter h) rfl
  | setLocal r call => exact hstay (routing_setLocal h) rfl
  | controlProcess k control => exact hstay (by rw [session_controlProcess h]) rfl
  | sync l => exact hstay (by rw [session_syncStep h]) rfl
  | session l =>
    obtain ⟨hposted, hl⟩ := sessionStep_eq_some h
    refine ⟨[l], hmove l hl, ?_⟩
    rw [List.filter_cons, hposted]
    rfl
  | event =>
    rcases event_cases h with ⟨-, hposted⟩ | hsame
    · exact ⟨[.postedCall], hmove _ hposted, rfl⟩
    · exact hstay hsame rfl

/-! ## Runs -/

/-- **Setters and feedback do not interfere with the routing**: a run of the application, seen at the
routing halves of the strips, is a run of the session with the same steps in the same order, between
which the Qt thread runs its posted calls. -/
theorem app_refines_session {engines : Fin n → EngineValues} {ls : List (Action n)} {st : App n}
    (hrun : run (step w) (start setup engines) ls = some st) :
    ∃ ks : List Session.Action, run Session.step (.start setup) ks = some st.session.routing ∧
      ks.filter (fun k => !k.isPostedCall) = ls.filterMap Action.ofSession := by
  refine run_induction (I := fun ls st => ∃ ks : List Session.Action,
    run Session.step (.start setup) ks = some st.session.routing ∧
      ks.filter (fun k => !k.isPostedCall) = ls.filterMap Action.ofSession) ?_ ?_ hrun
  · exact ⟨[], congrArg some (Session.routing_start setup).symm, rfl⟩
  · rintro ls a l b - ⟨ks, hks, hfilter⟩ hl
    obtain ⟨ks', hks', hfilter'⟩ := step_routing hl
    refine ⟨ks ++ ks', ?_, ?_⟩
    · rw [run_append, hks]
      exact hks'
    · rw [List.filter_append, List.filterMap_append, hfilter, hfilter']
      cases hsession : l.ofSession <;> simp [hsession]

end

/-- In `mixRun` the node's messages take the same way as on their own. -/
theorem app_refines_session_mix : ∃ st, ∃ ks : List Session.Action,
    run (@step _ _ .x86 twoChannels) (start oneInput newEngines) mixRun = some st ∧
      run Session.step (.start oneInput) ks = some st.session.routing ∧
      st.layers.objectIdAt ⟨0, .input, 0⟩ = some 42 := by
  have hends : (run (@step _ _ .x86 twoChannels) (start oneInput newEngines) mixRun).map
      (fun st => st.layers.objectIdAt ⟨0, .input, 0⟩) = some (some 42) := by decide +kernel
  obtain ⟨st, hrun, hid⟩ := Option.map_eq_some_iff.mp hends
  obtain ⟨ks, hks, -⟩ := @app_refines_session _ _ twoChannels .x86 newEngines mixRun st hrun
  exact ⟨st, ks, hrun, hks, hid⟩

end App

end Kpmx
