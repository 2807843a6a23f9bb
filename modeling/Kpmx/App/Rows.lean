import Kpmx.App.Routing
import Kpmx.Wireplumber.Targets

/-!
# The node list and the strips of the application

Two views of a node's routing, its row and the strip that its name addresses, agree in every run of the
application in which the nodes of the list are told apart by their ids and by their strips
(`rows_shown`): setters and feedback go on at the same time, and the calls for a node are posted one by
one.
-/

namespace Kpmx

open Runs LastWrite

/-- Setters and feedback do not change what a strip shows of a row. -/
theorem QtModels.Shows.of_routing {m m' : QtModels} {requested : Option QVariant} {row : WireplumberNode}
    {r : StripRef} (h : m.Shows requested row r) (hlayers : m'.layers.routing = m.layers.routing) :
    m'.Shows requested row r := by
  intro strip hstrip
  have hmap := congrArg (LayersListModel.strip? · r) hlayers
  simp only [LayersListModel.strip?_mapStrips, hstrip, Option.map_some] at hmap
  obtain ⟨old, hold, hrouting⟩ := Option.map_eq_some_iff.mp hmap.symm
  have hid : old.routing.objectId = strip.routing.objectId := congrArg _ hrouting
  have htarget : old.routing.targetObject = strip.routing.targetObject := congrArg _ hrouting
  rw [show strip.objectId = old.objectId from hid.symm,
    show strip.targetObject = old.targetObject from htarget.symm]
  exact h old hold

theorem Session.Shown.of_routing {requests : List (StripRef × QVariant)} {a b : Session}
    (h : Shown requests a) (hrouting : b.routing = a.routing) : Shown requests b := by
  have hnodes : b.routing.models.nodes = a.routing.models.nodes := by rw [hrouting]
  have hlayers : b.routing.models.layers = a.routing.models.layers := by rw [hrouting]
  have hcalls : b.routing.calls = a.routing.calls := by rw [hrouting]
  obtain ⟨rows, new, rest, hrows, hshows, hpaired⟩ := h.rows
  refine ⟨?_, rows, new, rest, (congrArg _ hnodes).trans hrows, fun row hrow r hr => ?_,
    hcalls.trans hpaired.1, hpaired.2⟩
  · have happart := h.apart
    rwa [show a.models.nodes = b.models.nodes from hnodes.symm] at happart
  · exact (hshows row hrow r hr).of_routing hlayers

namespace App

variable {setup : List LayerSetup} {n : Nat} {w : Wiring setup n}

/-- The Qt thread adds no node that has its id or its strip in common with a row. -/
def AddsApart (st : App n) : Action n → Prop
  | .event => st.events.head? = some .nodes → st.session.AddsApart .postedCall
  | _ => True

instance (st : App n) (l : Action n) : Decidable (st.AddsApart l) :=
  match l with
  | .event =>
    inferInstanceAs (Decidable (st.events.head? = some .nodes → st.session.AddsApart .postedCall))
  | .setter .. | .setLocal .. | .controlProcess .. | .sync _ | .session _ => isTrue trivial

/-- The targets requested in a run, by strip. -/
def requests (ls : List (Action n)) : List (StripRef × QVariant) :=
  Session.requests (ls.filterMap Action.ofSession)

theorem requests_concat (ls : List (Action n)) (l : Action n) :
    requests (ls ++ [l]) = requests ls ++ Session.requests l.ofSession.toList := by
  unfold requests Session.requests
  rw [List.filterMap_append, List.filterMap_append]
  cases l <;> rfl

section
variable [CastUndefined]

theorem shown_step {requests : List (StripRef × QVariant)} {l : Action n} {a b : App n}
    (h : a.session.Shown requests) (hb : guarded AddsApart (step w) a l = some b) :
    b.session.Shown (requests ++ Session.requests l.ofSession.toList) := by
  obtain ⟨hadds, hb⟩ := (guarded_eq_some AddsApart).mp hb
  have hstay : b.session.routing = a.session.routing → l.ofSession = none →
      b.session.Shown (requests ++ Session.requests l.ofSession.toList) := by
    intro hsame hnone
    rw [hnone, show Session.requests (none : Option Session.Action).toList = [] from rfl, List.append_nil]
    exact h.of_routing hsame
  cases l with
  | setter k call => exact hstay (routing_setter hb) rfl
  | setLocal r call => exact hstay (routing_setLocal hb) rfl
  | controlProcess k control => exact hstay (by rw [session_controlProcess hb]) rfl
  | sync l => exact hstay (by rw [session_syncStep hb]) rfl
  | session l =>
    obtain ⟨hposted, hl⟩ := sessionStep_eq_some hb
    refine h.step ((guarded_eq_some Session.AddsApart).mpr ⟨?_, hl⟩)
    cases l <;> trivial
  | event =>
    rcases event_cases hb with ⟨hnodes, hposted⟩ | hsame
    · exact h.step ((guarded_eq_some Session.AddsApart).mpr ⟨hadds hnodes, hposted⟩)
    · exact hstay hsame rfl

/-- **The rows are shown by their strips**: in every run in which no node is added that has its id or
its strip in common with a row, the strip that a row's name addresses has the row's id and, if it is an
input, the row's target or the one that the user has requested last, unless the update of the strip for
that row is the next of the calls posted. -/
theorem rows_shown (engines : Fin n → EngineValues) (ls : List (Action n)) (st : App n)
    (hrun : run (guarded AddsApart (step w)) (start setup engines) ls = some st) (row : WireplumberNode)
    (hrow : row ∈ st.session.models.nodes.nodes)
    (hnext : ∀ rest, st.session.calls ≠ .initialChannelUpdate row :: rest) (r : StripRef)
    (strip : ChannelStripModel) (hr : row.addressed = some r) (hstrip : st.layers.strip? r = some strip) :
    strip.objectId = row.id ∧ (r.kind = .input → strip.targetObject = row.targetObject ∨
      row.id ≠ none ∧ lastValue r (requests ls) = some strip.targetObject) := by
  have h : st.session.Shown (requests ls) := by
    refine run_induction (I := fun ls st => st.session.Shown (requests ls))
      (Session.shown_start setup) ?_ hrun
    intro ls a l b _ ha hl
    rw [requests_concat]
    exact shown_step ha hl
  obtain ⟨rows, new, rest, hrows, hshows, hcalls, -⟩ := h.rows
  rw [hrows] at hrow
  rcases List.mem_append.mp hrow with hrow | hrow
  · exact hshows row hrow r hr strip hstrip
  · obtain rfl := Option.mem_toList.mp hrow
    exact absurd hcalls (hnext rest)

end

/-- The node of the input arrives and is routed elsewhere, by another program, while its mix is
moved. -/
def reroutedRun : List (Action 2) :=
  [.session .metadataAdded, .session (.nodeAddedCallback Session.firstInput),
    .session (.nodesModelThread .start), .session (.nodesModelThread .next), .session .post,
    .session .post, .session (.nodesModelThread .finish), .event,
    .setter micChannel (.setLooperMix (.finite 70)), .event,
    .session (.foreignChange { id := 42, key := "target_object", value := some "speakers" }),
    .session .metadataChangedCallback, .session (.nodesModelThread .start),
    .session (.nodesModelThread .next), .session .post, .session (.nodesModelThread .finish), .event]

theorem rows_shown_rerouted : ∃ st strip,
    run (guarded AddsApart (@step _ _ .x86 twoChannels)) (start oneInput newEngines) reroutedRun =
      some st ∧
    st.layers.strip? ⟨0, .input, 0⟩ = some strip ∧ strip.objectId = some 42 ∧
      strip.targetObject = some "speakers" := by
  have hview : (run (guarded AddsApart (@step _ _ .x86 twoChannels)) (start oneInput newEngines)
      reroutedRun).map (fun st => (st.session.models.nodes.nodes, st.session.calls,
        (st.layers.strip? ⟨0, .input, 0⟩).isSome)) =
      some ([{ Session.firstInput with targetObject := some "speakers" }], [], true) := by
    decide +kernel
  obtain ⟨st, hrun, hst⟩ := Option.map_eq_some_iff.mp hview
  obtain ⟨hnodes, hst⟩ := Prod.mk.inj hst
  obtain ⟨hcalls, hsome⟩ := Prod.mk.inj hst
  obtain ⟨strip, hstrip⟩ := Option.isSome_iff_exists.mp hsome
  obtain ⟨hid, htarget⟩ := @rows_shown _ _ twoChannels .x86 newEngines reroutedRun st hrun _
    (by rw [hnodes]; exact List.mem_singleton_self _) (fun rest h => by rw [hcalls] at h; cases h)
    ⟨0, .input, 0⟩ strip (by decide) hstrip
  rcases htarget rfl with htarget | ⟨-, hrequest⟩
  · exact ⟨st, strip, hrun, hstrip, hid, htarget⟩
  · cases hrequest

end App

end Kpmx
