import Kpmx.App.Messages
import Kpmx.Wireplumber.Acceptance

/-!
# The Qt thread runs on

A handler that throws ends the event loop of the Qt thread. When the callbacks report acceptable nodes
and the feedback streams receive objects, no call that any thread posts throws, in any order of the steps
(`qt_thread_runs_on`).
-/

namespace Kpmx

open Runs FeedbackSync

namespace App

variable {setup : List LayerSetup} {n : Nat} {w : Wiring setup n}

/-- The nodes that the callbacks are given are acceptable. -/
def Action.Acceptable (setup : List LayerSetup) (l : Action n) : Prop :=
  ∀ k, l.ofSession = some k → k.Acceptable (.ofSetup setup)

abbrev Accepting (setup : List LayerSetup) (st : App n) : Prop :=
  st.session.Accepting (.ofSetup setup)

section
variable [CastUndefined] {a b : App n}

omit [CastUndefined] in
theorem accepting_withLayers {layers : LayersListModel} (ha : a.Accepting setup)
    (h : layers.layers.length = a.layers.layers.length) : (a.withLayers layers).Accepting setup :=
  { ha with models := ⟨h.trans ha.models.layers, ha.models.rows⟩ }

theorem accepting_step {l : Action n} (ha : a.Accepting setup) (hl : l.Acceptable setup)
    (h : step w a l = some b) : b.Accepting setup := by
  cases l with
  | setter k call =>
    obtain ⟨strip, -, rfl⟩ := Option.map_eq_some_iff.mp h
    exact accepting_withLayers ha (LayersListModel.length_modifyStrip ..)
  | setLocal r call =>
    obtain ⟨strip, -, rfl⟩ := Option.map_eq_some_iff.mp h
    exact accepting_withLayers ha (LayersListModel.length_modifyStrip ..)
  | controlProcess k control =>
    rw [Accepting, session_controlProcess h]
    exact ha
  | sync l =>
    rw [Accepting, session_syncStep h]
    exact ha
  | session l => exact ha.step (hl l rfl) (sessionStep_eq_some h).2
  | event =>
    rcases event_eq_some h with ⟨rest, session, -, hsession, rfl⟩ |
      ⟨rest, slot, message, posted, params, -, -, rfl⟩
    · exact ha.step (k := .postedCall) trivial hsession
    · exact accepting_withLayers ha (LayersListModel.length_modifyStrip ..)

theorem accepting_run {engines : Fin n → EngineValues} {ls : List (Action n)} {st : App n}
    (hrun : run (step w) (start setup engines) ls = some st) (hnodes : ∀ l ∈ ls, l.Acceptable setup) :
    st.Accepting setup := by
  refine run_induction (I := fun ls st => (∀ l ∈ ls, l.Acceptable setup) → st.Accepting setup)
    (fun _ => Session.accepting_start setup) ?_ hrun hnodes
  intro ls a l b _ ha hl hls
  exact accepting_step (ha fun k hk => hls k (List.mem_append_left _ hk))
    (hls l (List.mem_append_right _ List.mem_cons_self)) hl

/-! ## The next event -/

omit [CastUndefined] in
theorem Sound.posted_of_feedback {rest : List Event} (hsound : Sound setup a)
    (hevents : a.events = .feedback :: rest) : ∃ slot message posted,
      a.sync.posted = (slot, message) :: posted := by
  cases hposted : a.sync.posted with
  | nil =>
    have hfeedback := hsound.feedback
    rw [hevents, hposted] at hfeedback
    simp at hfeedback
  | cons entry posted => exact ⟨_, _, _, rfl⟩

theorem event_nodes {rest : List Event} (hsound : Sound setup a) (ha : a.Accepting setup)
    (hevents : a.events = .nodes :: rest) : ∃ call posted models, a.session.posted = call :: posted ∧
      call.run a.session.models = .ok models ∧ a.event w = some { a with
        session := { a.session with models := models, posted := posted }
        events := rest } := by
  cases hposted : a.session.posted with
  | nil =>
    have hnodes := hsound.nodes
    rw [hevents, hposted] at hnodes
    simp at hnodes
  | cons call posted =>
    have hcall : call.Acceptable (.ofSetup setup) :=
      ha.calls call (by rw [Session.calls, hposted]; exact List.mem_cons_self)
    obtain ⟨models, hmodels⟩ := hcall.run_ok ha.models
    refine ⟨call, posted, models, rfl, hmodels, ?_⟩
    simp only [event, hevents, Session.step, hposted, hmodels]
    rfl

/-- **The Qt thread runs on**: in every run in which the callbacks report acceptable nodes and the feedback
streams receive objects, whenever a call is posted the oldest one returns, and the thread of the node
list can handle its next message. -/
theorem qt_thread_runs_on (w : Wiring setup n) (engines : Fin n → EngineValues) (ls : List (Action n))
    (st : App n) (hrun : run (step w) (start setup engines) ls = some st)
    (hnodes : ∀ l ∈ ls, l.Acceptable setup) (hobjects : ∀ l ∈ ls, l.SendsObjects) :
    (st.events ≠ [] → ∃ t, st.event w = some t) ∧
    (st.session.toPost = [] → ∀ message queue, st.session.queue.next = some (message, queue) →
      ∃ t, step w st (.session (.nodesModelThread .next)) = some t) := by
  have hsound : Sound setup st := sound_run hrun
  have haccepting : st.Accepting setup := accepting_run hrun hnodes
  refine ⟨fun hevents => ?_, fun htoPost message queue hnext => ?_⟩
  · obtain ⟨event, rest, hcons⟩ := List.exists_cons_of_ne_nil hevents
    cases event with
    | nodes =>
      obtain ⟨call, posted, models, -, -, hevent⟩ := event_nodes (w := w) hsound haccepting hcons
      exact ⟨_, hevent⟩
    | feedback =>
      obtain ⟨slot, message, posted, hposted⟩ := hsound.posted_of_feedback hcons
      exact ⟨_, event_feedback hsound (objectsOnly_run hrun hobjects) hcons hposted⟩
  · have hmem : message ∈ st.session.queue.pending := by
      rw [Spsc.Consuming.pending_next hnext]
      exact List.mem_cons_self
    obtain ⟨calls, hcalls, -⟩ := haccepting.messages message hmem
    have hstep : st.session.step (.nodesModelThread .next) =
        some { st.session with queue := queue, toPost := calls } := by
      simp only [Session.step, Session.nodesModelThread, htoPost, if_true, hnext, Option.bind_some, hcalls]
      rfl
    exact ⟨_, by rw [step, sessionStep, if_neg (by decide), hstep]; rfl⟩

end

theorem acceptable_mixRun : ∀ l ∈ mixRun, l.Acceptable oneInput := by
  have hfamily : LayersListModel.family "pmx-input-00-a-input" = some .input := by decide
  have hfirst : Session.firstInput.Acceptable (.ofSetup oneInput) := by
    refine ⟨fun name hname => ?_, fun hname => by cases hname⟩
    obtain rfl := Option.some.inj hname
    rw [LayersListModel.LeadsToLayer, hfamily]
    exact ⟨(0, 'a'), by decide, by decide⟩
  intro l hl k hk
  have hsessions : mixRun.filterMap Action.ofSession =
      [.nodeAddedCallback Session.firstInput, .nodesModelThread .start, .nodesModelThread .next, .post,
        .post, .nodesModelThread .finish] := rfl
  have hmem : k ∈ mixRun.filterMap Action.ofSession := List.mem_filterMap.mpr ⟨l, hl, hk⟩
  rw [hsessions] at hmem
  simp only [List.mem_cons, List.not_mem_nil, or_false] at hmem
  rcases hmem with rfl | rfl | rfl | rfl | rfl | rfl
  · exact hfirst
  all_goals trivial

theorem sendsObjects_mixRun : ∀ l ∈ mixRun, l.SendsObjects := by
  simp [mixRun, Action.SendsObjects, bufferValues, propertiesOf, Desk.snapshot, SpaPod.isObject]

/-- In the middle of `mixRun` the first of the two calls for the node is posted. -/
theorem qt_thread_runs_on_mix : ∃ st t,
    run (@step _ _ .x86 twoChannels) (start oneInput newEngines) (mixRun.take 9) = some st ∧
      st.events ≠ [] ∧ @event _ _ .x86 twoChannels st = some t := by
  have hview : (run (@step _ _ .x86 twoChannels) (start oneInput newEngines) (mixRun.take 9)).map
      (fun st => st.events) = some [.nodes] := by decide +kernel
  obtain ⟨st, hrun, hevents⟩ := Option.map_eq_some_iff.mp hview
  have hne : st.events ≠ [] := by rw [hevents]; exact List.cons_ne_nil _ _
  obtain ⟨hevent, -⟩ := @qt_thread_runs_on _ _ .x86 twoChannels newEngines (mixRun.take 9) st hrun
    (fun l hl => acceptable_mixRun l (List.mem_of_mem_take hl))
    (fun l hl => sendsObjects_mixRun l (List.mem_of_mem_take hl))
  obtain ⟨t, ht⟩ := hevent hne
  exact ⟨st, t, hrun, hne, ht⟩

end App

end Kpmx
