import Kpmx.App.Handlers
import Kpmx.App.Strips
import Mathlib.Tactic.Ring

/-!
# The application settles

When the user and the callbacks leave the application alone, its own threads bring it to rest: every
step that is left to do lowers `work`, whose parts are the channels with unsent commands or no news from
the engine, the streams before their `notify_all`, the unread slots, the turns of the forwarder and the
events of the Qt thread. At rest every closed channel holds its last accepted command (`settles`).
-/

namespace Kpmx

open Runs FeedbackSync SetterCall

/-! ## The engine's snapshot -/

namespace Desk

theorem carries_snapshot [CastUndefined] (e : EngineValues) : Carries (snapshot e) e := by
  refine ⟨rfl, fun p hp hvolume => ?_⟩
  have hparams : (snapshot e).decodedParams =
      Param.all.map fun q => (q.parameterName, (q.type.control (e q)).decoded) := by
    simp only [snapshot, SpaPod.decodedParams, List.flatMap_cons, List.flatMap_nil, List.append_nil,
      paramsStruct, SpaPod.structParams, extractParams_appendToStruct, List.map_map]
    exact List.map_congr_left fun q _ => q.decoded_message (e q)
  have hnodup : ((snapshot e).decodedParams.map Prod.fst).Nodup := by
    rw [hparams, List.map_map]
    exact Param.nodup_parameterName
  have hmem : (p.parameterName, (p.type.control (e p)).decoded) ∈ (snapshot e).decodedParams := by
    rw [hparams]
    exact List.mem_map_of_mem hp
  rw [LastWrite.lastValue_of_nodup hnodup hmem, Option.map_some, ParamType.decode_control]

theorem size_snapshot_le (e : EngineValues) : (snapshot e).size ≤ maxValueSize := by
  have hsizes : (Param.all.map fun p => p.message (e p)).map messageSize =
      Param.all.map fun p => SpaPod.roundUp8 (8 + ((cStr p.parameterName).length + 1)) + 16 := by
    rw [List.map_map]
    rfl
  have hsum : SpaPod.fieldsSize ((Param.all.map fun p => p.message (e p)).flatMap appendToStruct) ≤
      1024 := by
    rw [fieldsSize_messages, hsizes]
    decide +kernel
  simp only [snapshot, SpaPod.size, SpaPod.bodySize, SpaPod.propsSize, paramsStruct, SpaPod.roundUp8,
    maxValueSize]
  omega

/-- A buffer with the snapshot. -/
def snapshotBuffer (e : EngineValues) : List (Option SpaPod) :=
  [some (.sequence [(.properties, snapshot e)])]

theorem feedbackProcess_snapshotBuffer (e : EngineValues) :
    Kpmx.feedbackProcess (snapshotBuffer e) = .ok (some ⟨snapshot e, (snapshot e).size⟩) :=
  if_pos (size_snapshot_le e)

end Desk

namespace App

variable {setup : List LayerSetup} {n : Nat}

/-! ## The work left to do -/

/-- A channel with unsent commands has yet to hear of them, and one without news has yet to get some. -/
def channelWork (n : Nat) (queue : Spsc ControlQueueMessage queueCapacity) (fresh : Bool) : Nat :=
  if queue.items ≠ [] then n + 11 else if fresh then 0 else n + 10

def streamWork (n : Nat) : WakeFlag.ProducerPc → Nat
  | .idle => 0
  | .written => n + 7
  | .stored => 2

def work (st : App n) : Nat :=
  (∑ k, channelWork n (st.queues k) (st.fresh k)) + (∑ k, streamWork n (st.sync.streams k)) +
    st.sync.unread 2 + st.sync.turns + st.events.length

theorem work_le {st : App n} (h : st.sync.Sound) : st.work ≤ 2 * n ^ 2 + 22 * n + 5 + st.events.length := by
  have hchannels : ∑ k, channelWork n (st.queues k) (st.fresh k) ≤ n * (n + 11) := by
    have hle : ∀ k ∈ Finset.univ, channelWork n (st.queues k) (st.fresh k) ≤ n + 11 := by
      intro k _
      unfold channelWork
      split_ifs <;> omega
    simpa using Finset.sum_le_card_nsmul Finset.univ _ _ hle
  have hstreams : ∑ k, streamWork n (st.sync.streams k) ≤ n * (n + 7) := by
    have hle : ∀ k ∈ Finset.univ, streamWork n (st.sync.streams k) ≤ n + 7 := by
      intro k _
      cases st.sync.streams k <;> simp only [streamWork] <;> omega
    simpa using Finset.sum_le_card_nsmul Finset.univ _ _ hle
  have hunread := unread_le 2 st.sync
  have hturns := h.turns_le
  have hsum : n * (n + 11) + n * (n + 7) = 2 * n ^ 2 + 18 * n := by ring
  unfold work
  omega

/-- The application is at rest: nothing waits and every channel has news. -/
structure Settled (st : App n) : Prop where
  quiescent : st.Quiescent
  queues : ∀ k, (st.queues k).items = []
  fresh : ∀ k, st.fresh k = true

/-- The steps of the application's own threads. -/
def Action.own : Action n → Prop
  | .controlProcess .. | .sync _ | .event => True
  | _ => False

theorem Action.own.acceptable {l : Action n} (h : l.own) : l.Acceptable setup := by
  cases l with
  | session k => cases h
  | _ => exact fun _ hk => by cases hk

/-! ## A step of each party -/

/-- A step that gets some work done and leaves the commands alone. -/
structure Advances (st t : App n) : Prop where
  accepted : t.accepted = st.accepted
  work : t.work < st.work

/-- A buffer with room for the queued messages. -/
def roomyBuffer (queue : Spsc ControlQueueMessage queueCapacity) : PwBuffer where
  id := 0
  datas := some [{ data := true, chunk := true, maxsize := sequenceSize queue.items }]

theorem usableData_roomyBuffer (queue : Spsc ControlQueueMessage queueCapacity) :
    usableData (some (roomyBuffer queue)) =
      some { data := true, chunk := true, maxsize := sequenceSize queue.items } := by
  have hsize : sequenceSize queue.items ≠ 0 := by
    unfold sequenceSize
    split <;> omega
  simp [usableData, roomyBuffer, hsize]

theorem sum_streamWork (st : App n) (k : Fin n) (pc : WakeFlag.ProducerPc) :
    (∑ j, streamWork n (Function.update st.sync.streams k pc j)) + streamWork n (st.sync.streams k) =
      (∑ j, streamWork n (st.sync.streams j)) + streamWork n pc := by
  have hsum := sum_of_others (f := fun j => streamWork n (st.sync.streams j))
    (g := fun j => streamWork n (Function.update st.sync.streams k pc j)) k
    fun j hj => by rw [Function.update_of_ne hj]
  rwa [Function.update_self] at hsum

theorem newEvents_self {α : Type} (event : Event) (calls : List α) : newEvents event calls calls = [] := by
  rw [newEvents, Nat.sub_self]
  rfl

theorem syncStep_of_step {st : App n} {l : FeedbackSync.Action n} {sync : FeedbackSync n}
    (h : st.sync.step l = some sync) : st.syncStep l = some { st with
      sync := sync
      events := st.events ++ newEvents .feedback st.sync.posted sync.posted
      fresh := freshened st.fresh l } := by
  rw [syncStep, h, Option.map_some]

theorem store_advances {st : App n} {k : Fin n} (h : st.sync.streams k = .written) :
    ∃ t, st.syncStep (.store k) = some t ∧ Advances st t := by
  obtain ⟨sync, hstep, hslots, hposted, hstreams, hturns⟩ := store_moves h
  refine ⟨_, syncStep_of_step hstep, rfl, ?_⟩
  have hsum := sum_streamWork st k .stored
  rw [h, show streamWork n .written = n + 7 from rfl, show streamWork n .stored = 2 from rfl] at hsum
  simp only [work, hposted, newEvents_self, List.append_nil, freshened, unread_congr hslots, hstreams]
  omega

theorem notifyAll_advances {st : App n} {k : Fin n} (h : st.sync.streams k = .stored) :
    ∃ t, st.syncStep (.notifyAll k) = some t ∧ Advances st t := by
  obtain ⟨sync, hstep, hslots, hposted, hstreams, hturns⟩ := notifyAll_moves h
  refine ⟨_, syncStep_of_step hstep, rfl, ?_⟩
  have hsum := sum_streamWork st k .idle
  rw [h, show streamWork n .stored = 2 from rfl, show streamWork n .idle = 0 from rfl] at hsum
  simp only [work, hposted, newEvents_self, List.append_nil, freshened, unread_congr hslots, hstreams]
  omega

theorem feedbackProcess_advances {st : App n} {k : Fin n} (hidle : st.sync.streams k = .idle)
    (hqueue : (st.queues k).items = []) (hfresh : st.fresh k = false) :
    ∃ t, st.syncStep (.feedbackProcess k (Desk.snapshotBuffer (st.engines k))) = some t ∧
      Advances st t := by
  have hvalues : bufferValues (Desk.snapshotBuffer (st.engines k)) = [Desk.snapshot (st.engines k)] := rfl
  obtain ⟨sync, hstep, hslots, hposted, hstreams, hturns⟩ :=
    feedbackProcess_moves hidle (Desk.feedbackProcess_snapshotBuffer (st.engines k))
  refine ⟨_, syncStep_of_step hstep, rfl, ?_⟩
  have hstreamSum := sum_streamWork st k .written
  rw [hidle, show streamWork n .idle = 0 from rfl, show streamWork n .written = n + 7 from rfl]
    at hstreamSum
  have hunread := unread_update_le 2 hslots
  have hchannels := sum_of_others (f := fun j => channelWork n (st.queues j) (st.fresh j))
    (g := fun j => channelWork n (st.queues j) (Function.update st.fresh k true j)) k
    fun j hj => by rw [Function.update_of_ne hj]
  have hbefore : channelWork n (st.queues k) (st.fresh k) = n + 10 := by
    simp [channelWork, hqueue, hfresh]
  have hafter : channelWork n (st.queues k) true = 0 := by simp [channelWork, hqueue]
  simp only [Function.update_self, hbefore, hafter] at hchannels
  simp only [work, hposted, newEvents_self, List.append_nil, freshened, hvalues, List.cons_ne_nil,
    if_false, hstreams, hturns]
  omega

theorem forwarder_advances {st : App n} (h : ¬ st.sync.Waiting) :
    ∃ l t, FeedbackSync.Action.ofForwarder l ∧ st.syncStep l = some t ∧ Advances st t := by
  rcases forwarder_moves st.sync h with ⟨k, message, hk, hstep⟩ |
    ⟨l, sync, hl, hstep, hslots, hposted, hstreams, hlt⟩
  · refine ⟨.read, _, trivial, syncStep_of_step hstep, rfl, ?_⟩
    have hunread := unread_taken 2 hk
    have hturns : (st.sync.taken k message).turns = st.sync.turns := rfl
    have hlength : (newEvents .feedback st.sync.posted (st.sync.taken k message).posted).length = 1 := by
      simp [newEvents, taken]
    have hstreams : (st.sync.taken k message).streams = st.sync.streams := rfl
    simp only [work, freshened, List.length_append, hlength, hturns, hstreams]
    omega
  · have hfresh : freshened st.fresh l = st.fresh := by
      cases l <;> first | rfl | cases hl
    refine ⟨l, _, hl, syncStep_of_step hstep, rfl, ?_⟩
    simp only [work, hfresh, hposted, newEvents_self, List.append_nil, hstreams, unread_congr hslots]
    omega

section
variable [CastUndefined]

theorem controlProcess_advances {st : App n} {k : Fin n} (h : (st.queues k).items ≠ []) :
    ∃ t, st.controlProcess k (some (roomyBuffer (st.queues k))) = some t ∧ Advances st t := by
  unfold App.controlProcess
  rw [controlProcess_of_usable (usableData_roomyBuffer _), if_pos (Nat.le_refl _)]
  refine ⟨_, rfl, rfl, ?_⟩
  have hsum := sum_of_others (f := fun j => channelWork n (st.queues j) (st.fresh j))
    (g := fun j => channelWork n
      (Function.update st.queues k (controlSequence (st.queues k)).2 j)
      (Function.update st.fresh k (st.fresh k && ((st.queues k).items.map
        ControlQueueMessage.decoded).isEmpty) j)) k
    fun j hj => by rw [Function.update_of_ne hj, Function.update_of_ne hj]
  have hbefore : channelWork n (st.queues k) (st.fresh k) = n + 11 := if_pos h
  have hafter : channelWork n (controlSequence (st.queues k)).2 (st.fresh k &&
      ((st.queues k).items.map ControlQueueMessage.decoded).isEmpty) = n + 10 := by
    simp [channelWork, controlSequence_snd_items, h]
  simp only [Function.update_self, hbefore, hafter] at hsum
  simp only [work, ControlResult.params, Option.map_some, Option.getD_some,
    sequenceParams_controlSequence]
  omega

/-- The snapshot is true feedback. -/
theorem truthful_snapshotBuffer (st : App n) (k : Fin n) :
    st.Truthful (.sync (.feedbackProcess k (Desk.snapshotBuffer (st.engines k)))) := by
  intro value hvalue
  have hvalues : bufferValues (Desk.snapshotBuffer (st.engines k)) = [Desk.snapshot (st.engines k)] := rfl
  rw [hvalues, List.mem_singleton] at hvalue
  exact hvalue ▸ Desk.carries_snapshot _

theorem event_advances {w : Wiring setup n} {st : App n} (hsound : Sound setup st)
    (hobjects : ObjectsOnly st) (haccepting : st.Accepting setup) (hevents : st.events ≠ []) :
    ∃ t, st.event w = some t ∧ Advances st t := by
  obtain ⟨event, rest, hcons⟩ := List.exists_cons_of_ne_nil hevents
  cases event with
  | nodes =>
    obtain ⟨call, posted, models, -, -, hevent⟩ := event_nodes (w := w) hsound haccepting hcons
    refine ⟨_, hevent, rfl, ?_⟩
    simp only [work, hcons, List.length_cons]
    omega
  | feedback =>
    obtain ⟨slot, message, posted, hposted⟩ := hsound.posted_of_feedback hcons
    refine ⟨_, event_feedback hsound hobjects hcons hposted, rfl, ?_⟩
    have hturns : turns { st.sync with posted := posted } = st.sync.turns := rfl
    have hunread : unread 2 { st.sync with posted := posted } = st.sync.unread 2 := rfl
    simp only [work, withLayers, hturns, hunread, hcons, List.length_cons]
    omega

/-! ## Settling -/

/-- Short of rest there is work that the application's own threads can do. -/
theorem exists_advances {w : Wiring setup n} {st : App n} (hsound : Sound setup st)
    (hobjects : ObjectsOnly st) (haccepting : st.Accepting setup) (h : ¬ st.Settled) :
    ∃ l t, Action.own l ∧ guarded (Assumed w) (step w) st l = some t ∧ Advances st t := by
  have hstep : ∀ {l t}, Action.own l → st.Truthful l → step w st l = some t → Advances st t →
      ∃ l t, Action.own l ∧ guarded (Assumed w) (step w) st l = some t ∧ Advances st t := by
    intro l t hown htrue hl hadvances
    have hroom : RoomForChange w st l := by
      cases l <;> first | exact trivial | cases hown
    exact ⟨l, t, hown, (guarded_eq_some _).mpr ⟨⟨hroom, htrue⟩, hl⟩, hadvances⟩
  by_cases hqueues : ∃ k, (st.queues k).items ≠ []
  · obtain ⟨k, hk⟩ := hqueues
    obtain ⟨t, hl, hadvances⟩ := controlProcess_advances hk
    exact hstep (l := .controlProcess k _) trivial trivial hl hadvances
  simp only [not_exists, not_not] at hqueues
  by_cases hidle : ∃ k, st.sync.streams k ≠ .idle
  · obtain ⟨k, hk⟩ := hidle
    cases hpc : st.sync.streams k with
    | idle => exact absurd hpc hk
    | written =>
      obtain ⟨t, hl, hadvances⟩ := store_advances hpc
      exact hstep (l := .sync (.store k)) trivial trivial hl hadvances
    | stored =>
      obtain ⟨t, hl, hadvances⟩ := notifyAll_advances hpc
      exact hstep (l := .sync (.notifyAll k)) trivial trivial hl hadvances
  simp only [not_exists, not_not] at hidle
  by_cases hstale : ∃ k, st.fresh k = false
  · obtain ⟨k, hk⟩ := hstale
    obtain ⟨t, hl, hadvances⟩ := feedbackProcess_advances (hidle k) (hqueues k) hk
    exact hstep (l := .sync _) trivial (truthful_snapshotBuffer st k) hl hadvances
  simp only [not_exists, Bool.not_eq_false] at hstale
  by_cases hevents : st.events = []
  · by_cases hwaiting : st.sync.Waiting
    · refine absurd ⟨⟨hwaiting, fun k => ?_, hevents⟩, hqueues, hstale⟩ h
      rw [hidle k]
      decide
    · obtain ⟨l, t, hforwarder, hl, hadvances⟩ := forwarder_advances hwaiting
      have htrue : st.Truthful (.sync l) := by
        cases l <;> first | exact trivial | cases hforwarder
      exact hstep (l := .sync l) trivial htrue hl hadvances
  · obtain ⟨t, hl, hadvances⟩ := event_advances (w := w) hsound hobjects haccepting hevents
    exact hstep (l := .event) trivial trivial hl hadvances

/-- The application's own threads bring it to rest, and drop no call and take none. -/
theorem exists_settled {w : Wiring setup n} {engines : Fin n → EngineValues} {ls : List (Action n)}
    {st : App n} (hrun : run (guarded (Assumed w) (step w)) (start setup engines) ls = some st)
    (hnodes : ∀ l ∈ ls, l.Acceptable setup) :
    ∃ t, ReachesBy (guarded (Assumed w) (step w)) Action.own
        (2 * n ^ 2 + 22 * n + 5 + st.events.length) st t ∧ t.Settled ∧ t.accepted = st.accepted := by
  have hsound : Sound setup st := sound_run (run_of_guarded _ hrun)
  have hobjects : ObjectsOnly st := objectsOnly_of_assumed hrun
  have haccepting : st.Accepting setup := accepting_run (run_of_guarded _ hrun) hnodes
  have hstep : ∀ u : App n,
      (Sound setup u ∧ ObjectsOnly u ∧ u.Accepting setup ∧ u.accepted = st.accepted) →
      ¬ u.Settled → ∃ l t, Action.own l ∧ guarded (Assumed w) (step w) u l = some t ∧
        (Sound setup t ∧ ObjectsOnly t ∧ t.Accepting setup ∧ t.accepted = st.accepted) ∧
        t.work < u.work := by
    rintro u ⟨husound, huobjects, huaccepting, huaccepted⟩ hu
    obtain ⟨l, t, hl, hguarded, hadvances⟩ := exists_advances husound huobjects huaccepting hu
    obtain ⟨⟨-, htrue⟩, hstep⟩ := (guarded_eq_some _).mp hguarded
    exact ⟨l, t, hl, hguarded, ⟨husound.step hstep, huobjects.step htrue.sendsObjects hstep,
      accepting_step huaccepting hl.acceptable hstep, hadvances.accepted.trans huaccepted⟩,
      hadvances.work⟩
  obtain ⟨t, ⟨ls', hls', hP, hlength⟩, ⟨-, -, -, haccepted⟩, hsettled⟩ :=
    exists_reachesBy_of_measure hstep st ⟨hsound, hobjects, haccepting, rfl⟩
  exact ⟨t, ⟨ls', hls', hP, hlength.trans (work_le hsound.sync)⟩, hsettled, haccepted⟩

theorem Settled.closed {w : Wiring setup n} {engines : Fin n → EngineValues} {ls : List (Action n)}
    {st t : App n} {m : Nat} (hsettled : t.Settled)
    (hrun : run (guarded (Assumed w) (step w)) (start setup engines) ls = some st)
    (hreach : ReachesBy (guarded (Assumed w) (step w)) Action.own m st t)
    (haccepted : t.accepted = st.accepted) {k : Fin n} (hclosed : w.Closed k) {p : Param}
    (hp : p ≠ .volume) : ∃ strip, t.layers.strip? (w.sends k) = some strip ∧
      t.engines k p = (lastArgument p (st.accepted k)).getD (engines k p) ∧
      p.get strip = (lastArgument p (st.accepted k)).getD (engines k p) := by
  obtain ⟨ls', hls', -⟩ := hreach
  have hrun' : run (guarded (Assumed w) (step w)) (start setup engines) (ls ++ ls') = some t := by
    rw [run_append, hrun]
    exact hls'
  rw [← haccepted]
  exact at_rest hclosed hrun' hsettled.quiescent (hsettled.queues k) (hsettled.fresh k) hp

end

end App

end Kpmx
