import Kpmx.Control.Engine
import Kpmx.Control.Process
import Kpmx.Feedback.Wakeup
import Kpmx.Mixer.Halves

/-!
# The application

All parties at once: the strips with their setters, the control streams, the feedback streams with
their forwarder, the threads of the node messages, and the one event queue of the Qt thread, in which
the calls that the forwarder and `updates_to_qt_nodes_model_thread` post wait in the order in which they
were posted. PipeWire's buffers are external, and so is what a feedback stream receives.

Which strip has which queue, and which strip a feedback slot leads to, is a `Wiring`; `Closed` says
that a channel's commands and its feedback meet in one strip.
-/

namespace Kpmx

open Runs

/-- `apply_update` on the list that a place is in. -/
def LayersListModel.applyUpdate [CastUndefined] (l : LayersListModel) (r : StripRef)
    (controlPod : Option SpaPod) : Option LayersListModel :=
  l.layers[r.layer]?.bind fun layer =>
    ((layer.channels r.kind).applyUpdate r.index controlPod).map fun channels =>
      { layers := l.layers.set r.layer (layer.modifyChannels r.kind fun _ => channels) }

theorem LayersListModel.set_modifyChannels {l : LayersListModel} {r : StripRef} {layer : LayerModel}
    (hlayer : l.layers[r.layer]? = some layer) (f : ChannelStripModel → ChannelStripModel) :
    LayersListModel.mk (l.layers.set r.layer
      (layer.modifyChannels r.kind fun _ => (layer.channels r.kind).modifyStrip r.index f)) =
      l.modifyStrip r f := by
  rw [modifyStrip, List.modify_eq_set_getElem?, hlayer]
  cases r.kind <;> rfl

section
variable [CastUndefined]

/-- An update that is defined sets some parameters of its strip and does nothing else. -/
theorem ChannelStripListModel.applyUpdate_eq_some {l l' : ChannelStripListModel} {index : Nat}
    {controlPod : Option SpaPod} (h : l.applyUpdate index controlPod = some l') :
    ∃ params, l' = l.modifyStrip index (applyParams params) := by
  cases hstrip : l.channelStrips[index]? with
  | none =>
    rw [applyUpdate, hstrip] at h
    cases h
    exact ⟨[], (modifyStrip_of_length_le (List.getElem?_eq_none_iff.mp hstrip) _).symm⟩
  | some strip =>
    have happly := h
    rw [applyUpdate, hstrip] at happly
    obtain ⟨pod, rfl, hpod⟩ := Option.bind_eq_some_iff.mp happly
    obtain ⟨result, hresult, -⟩ := Option.map_eq_some_iff.mp hpod
    have hobj : pod.isObject = true := by
      have hfst := apply_fst strip pod
      rw [hresult] at hfst
      by_contra hobj
      rw [if_neg hobj] at hfst
      cases hfst
    rw [applyUpdate_of_isObject l index hobj] at h
    exact ⟨_, (Option.some.inj h).symm⟩

namespace LayersListModel

theorem applyUpdate_of_isObject {l : LayersListModel} {r : StripRef} {pod : SpaPod}
    (hobj : pod.isObject = true) (hlayer : r.layer < l.layers.length) :
    l.applyUpdate r (some pod) = some (l.modifyStrip r (applyParams pod.decodedParams)) := by
  have hget := List.getElem?_eq_getElem hlayer
  rw [applyUpdate, hget, Option.bind_some, ChannelStripListModel.applyUpdate_of_isObject _ _ hobj,
    Option.map_some, set_modifyChannels hget]

theorem applyUpdate_eq_some {l l' : LayersListModel} {r : StripRef} {controlPod : Option SpaPod}
    (h : l.applyUpdate r controlPod = some l') : ∃ params, l' = l.modifyStrip r (applyParams params) := by
  obtain ⟨layer, hlayer, h⟩ := Option.bind_eq_some_iff.mp h
  obtain ⟨channels, hchannels, rfl⟩ := Option.map_eq_some_iff.mp h
  obtain ⟨params, rfl⟩ := ChannelStripListModel.applyUpdate_eq_some hchannels
  exact ⟨params, set_modifyChannels hlayer _⟩

end LayersListModel

end

/-- The parameters that a call of `control_process` publishes. -/
def ControlResult.params (result : ControlResult) : List DecodedParam :=
  (result.published.map fun published => published.1.sequenceParams).getD []

/-! ## The wiring -/

/-- The channels of a mixer: the strip whose setters push to a channel's queue, and the strip that a
feedback slot leads to. -/
structure Wiring (setup : List LayerSetup) (n : Nat) where
  sends : Fin n → StripRef
  shows : Fin n → StripRef
  sends_injective : Function.Injective sends
  sends_present : ∀ k, ((LayersListModel.ofSetup setup).strip? (sends k)).isSome = true
  shows_present : ∀ k, (shows k).layer < (LayersListModel.ofSetup setup).layers.length

/-- The feedback of a channel arrives at the strip from which its commands come, and no other feedback
does. -/
def Wiring.Closed {setup : List LayerSetup} {n : Nat} (w : Wiring setup n) (k : Fin n) : Prop :=
  ∀ j, w.shows (FeedbackSync.slotOf j) = w.sends k ↔ j = k

/-! ## The state and its steps -/

/-- A call in the event queue of the Qt thread, by the thread that has posted it. -/
inductive Event where
  | nodes
  | feedback
  deriving DecidableEq

def Session.Action.isPostedCall : Session.Action → Bool
  | .postedCall => true
  | _ => false

/-- `events` are the calls of `session.posted` and `sync.posted`, in the order in which they were posted.
Of each channel `accepted` are the setter calls so far whose argument differed from the field, and
`fresh` says whether feedback was taken since a control message last reached the engine. -/
structure App (n : Nat) where
  session : Session
  sync : FeedbackSync n
  events : List Event
  queues : Fin n → Spsc ControlQueueMessage queueCapacity
  engines : Fin n → EngineValues
  accepted : Fin n → List SetterCall
  fresh : Fin n → Bool

namespace App

inductive Action (n : Nat) where
  | setter (k : Fin n) (call : SetterCall)
  | setLocal (r : StripRef) (call : LocalCall)
  | controlProcess (k : Fin n) (control : Option PwBuffer)
  | sync (l : FeedbackSync.Action n)
  | session (l : Session.Action)
  | event

variable {setup : List LayerSetup} {n : Nat}

def start (setup : List LayerSetup) (engines : Fin n → EngineValues) : App n where
  session := .start setup
  sync := .start n
  events := []
  queues := fun _ => .empty
  engines := engines
  accepted := fun _ => []
  fresh := fun _ => false

def withLayers (st : App n) (layers : LayersListModel) : App n :=
  { st with session := { st.session with models.layers := layers } }

abbrev layers (st : App n) : LayersListModel := st.session.models.layers

/-- A setter that sends a control message. -/
def setter (w : Wiring setup n) (st : App n) (k : Fin n) (call : SetterCall) : Option (App n) :=
  (st.layers.strip? (w.sends k)).map fun strip =>
    let pushed := (call.perform strip).pushed
    { st.withLayers (st.layers.modifyStrip (w.sends k) fun strip => (call.perform strip).strip) with
      queues := Function.update st.queues k ((st.queues k).pushAll pushed)
      accepted :=
        if call.param.type.ne (call.param.get strip) call.value then
          Function.update st.accepted k (st.accepted k ++ [call])
        else st.accepted }

/-- A setter that keeps its value in the strip. -/
def setLocal (st : App n) (r : StripRef) (call : LocalCall) : Option (App n) :=
  (st.layers.strip? r).map fun _ =>
    st.withLayers (st.layers.modifyStrip r fun strip => (call.perform strip).strip)

section
variable [CastUndefined]

/-- A buffer of a control stream: the engine takes what is published. -/
def controlProcess (st : App n) (k : Fin n) (control : Option PwBuffer) : Option (App n) :=
  match Kpmx.controlProcess (st.queues k) control with
  | .ok result => some { st with
      queues := Function.update st.queues k result.queue
      engines := Function.update st.engines k (result.params.foldl Desk.engineTakes (st.engines k))
      fresh := Function.update st.fresh k (st.fresh k && result.params.isEmpty) }
  | .error _ => none

/-- What a feedback step says about the engines' news. -/
def freshened (fresh : Fin n → Bool) : FeedbackSync.Action n → Fin n → Bool
  | .feedbackProcess k datas =>
    if bufferValues datas = [] then fresh else Function.update fresh k true
  | _ => fresh

/-- The events for the calls that a step has posted. -/
def newEvents {α : Type} (event : Event) (before after : List α) : List Event :=
  List.replicate (after.length - before.length) event

/-- A step of a feedback stream or of `updates_to_qt_thread`. -/
def syncStep (st : App n) (l : FeedbackSync.Action n) : Option (App n) :=
  (st.sync.step l).map fun sync => { st with
    sync := sync
    events := st.events ++ newEvents .feedback st.sync.posted sync.posted
    fresh := freshened st.fresh l }

/-- A step of the node messages, but for the posted calls. -/
def sessionStep (st : App n) (l : Session.Action) : Option (App n) :=
  if l.isPostedCall then none
  else (st.session.step l).map fun session => { st with
    session := session
    events := st.events ++ newEvents .nodes st.session.posted session.posted }

/-- The Qt thread runs the oldest of the posted calls. -/
def event (w : Wiring setup n) (st : App n) : Option (App n) :=
  match st.events with
  | [] => none
  | .nodes :: rest => (st.session.step .postedCall).map fun session =>
      { st with session := session, events := rest }
  | .feedback :: rest =>
    match st.sync.posted with
    | [] => none
    | (slot, message) :: posted =>
      (st.layers.applyUpdate (w.shows slot) message.pod).map fun layers =>
        { st.withLayers layers with sync := { st.sync with posted := posted }, events := rest }

def step (w : Wiring setup n) (st : App n) : Action n → Option (App n)
  | .setter k call => st.setter w k call
  | .setLocal r call => st.setLocal r call
  | .controlProcess k control => st.controlProcess k control
  | .sync l => st.syncStep l
  | .session l => st.sessionStep l
  | .event => st.event w

/-- All that the Qt thread can do next. -/
theorem event_eq_some {w : Wiring setup n} {a b : App n} (h : a.event w = some b) :
    (∃ rest session, a.events = .nodes :: rest ∧ a.session.step .postedCall = some session ∧
      b = { a with session := session, events := rest }) ∨
    ∃ rest slot message posted params, a.events = .feedback :: rest ∧
      a.sync.posted = (slot, message) :: posted ∧
      b = { a.withLayers (a.layers.modifyStrip (w.shows slot) (applyParams params)) with
            sync := { a.sync with posted := posted }, events := rest } := by
  unfold event at h
  split at h
  · cases h
  · next rest hevents =>
    obtain ⟨session, hsession, rfl⟩ := Option.map_eq_some_iff.mp h
    exact .inl ⟨rest, session, hevents, hsession, rfl⟩
  · next rest hevents =>
    split at h
    · cases h
    · next slot message posted hposted =>
      obtain ⟨layers, hlayers, rfl⟩ := Option.map_eq_some_iff.mp h
      obtain ⟨params, rfl⟩ := LayersListModel.applyUpdate_eq_some hlayers
      exact .inr ⟨rest, slot, message, posted, params, hevents, hposted, rfl⟩

end

/-! ## A run with two channels -/

def oneInput : List LayerSetup := [⟨["Mic"], []⟩]

def micChannel : Fin 2 := ⟨0, Nat.zero_lt_two⟩

def layerChannel : Fin 2 := ⟨1, Nat.one_lt_two⟩

/-- An input and the channel of its layer. -/
def twoPlaces (k : Fin 2) : StripRef := if k = micChannel then ⟨0, .input, 0⟩ else ⟨0, .layer, 0⟩

def twoChannels : Wiring oneInput 2 where
  sends := twoPlaces
  shows := twoPlaces
  sends_injective := fun i j => by
    revert i j
    decide
  sends_present := by decide
  shows_present := by decide

/-- What the engines hold at first: the values of a new strip. -/
def newEngines (_ : Fin 2) : EngineValues := fun p => p.get {}

/-- The mix of the input is moved while its node arrives, and the feedback comes back between the two
calls for the node. -/
def mixRun : List (Action 2) :=
  [.setter micChannel (.setLooperMix (.finite 70)), .setter layerChannel (.setVolume (.finite 1)),
    .session (.nodeAddedCallback Session.firstInput), .session (.nodesModelThread .start),
    .session (.nodesModelThread .next),
    .controlProcess micChannel
      (some { id := 0, datas := some [{ data := true, chunk := true, maxsize := 4096 }] }),
    .session .post,
    .sync (.feedbackProcess micChannel [some (.sequence [(.properties,
      Desk.snapshot fun p => p.get { looperMix := .finite 70 })])]),
    .sync (.store micChannel), .sync .read, .session .post, .session (.nodesModelThread .finish),
    .sync .read, .sync .read, .sync .read, .sync (.notifyAll micChannel), .sync .wait, .sync .clear,
    .sync .read, .sync .read, .sync .read, .sync .wait, .event, .event, .event]

end App

end Kpmx
