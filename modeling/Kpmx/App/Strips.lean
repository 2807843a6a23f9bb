import Kpmx.App.Messages

/-!
# A channel of the application

What the application does to one closed channel is a run of `Desk`, the strip with its queue, its
engine and its feedback, whatever the other channels and the routing do at the same time
(`shadow_run`). So what holds of `Desk` holds of every closed channel, with messages in flight
(`channel_in_flight`) and at rest (`at_rest`).
-/

namespace Kpmx

open Runs FeedbackSync SetterCall

/-! ## Strips with the same parameters -/

def SameParams (s t : ChannelStripModel) : Prop := ∀ p : Param, p.get s = p.get t

namespace SameParams

variable {s t : ChannelStripModel}

theorem perform (h : SameParams s t) (c : SetterCall) :
    (c.perform s).pushed = (c.perform t).pushed ∧
      SameParams (c.perform s).strip (c.perform t).strip := by
  cases hs : c.param.type.ne (c.param.get s) c.value with
  | false =>
    rw [perform_of_eq hs, perform_of_eq (h c.param ▸ hs)]
    exact ⟨rfl, h⟩
  | true =>
    rw [perform_of_ne hs, perform_of_ne (h c.param ▸ hs)]
    refine ⟨rfl, fun q => ?_⟩
    by_cases hq : q = c.param
    · subst hq
      rw [Param.get_set, Param.get_set]
    · rw [Param.get_set_of_ne hq, Param.get_set_of_ne hq, h q]

theorem applyParams [CastUndefined] (h : SameParams s t) (params : List DecodedParam) :
    SameParams (applyParams params s) (applyParams params t) := by
  intro p
  by_cases hp : p = .volume
  · subst hp
    rw [get_volume_applyParams, get_volume_applyParams, h .volume]
  · rw [get_applyParams hp, get_applyParams hp, h p]

theorem of_settings (h : s.settings = t.settings) : SameParams s t := by
  intro p
  rw [← p.get_settings s, h, p.get_settings t]

end SameParams

theorem LayersListModel.sameParams_ofSetup {setup : List LayerSetup} {r : StripRef}
    {strip : ChannelStripModel} (h : (ofSetup setup).strip? r = some strip) : SameParams strip {} := by
  have hnames : ∀ names : List String,
      (ChannelStripListModel.ofNames names).channelStrips[r.index]? = some strip →
        SameParams strip {} := by
    intro names hget
    rw [ChannelStripListModel.ofNames, List.getElem?_map] at hget
    obtain ⟨name, -, rfl⟩ := Option.map_eq_some_iff.mp hget
    intro p
    cases p <;> rfl
  obtain ⟨layer, hlayer, hget⟩ := Option.bind_eq_some_iff.mp h
  rw [ofSetup, List.getElem?_mapIdx] at hlayer
  obtain ⟨names, -, rfl⟩ := Option.map_eq_some_iff.mp hlayer
  cases hkind : r.kind <;> rw [hkind] at hget <;> exact hnames _ hget

theorem Wiring.Closed.eq_of_slotOf {setup : List LayerSetup} {n : Nat} {w : Wiring setup n}
    {j k : Fin n} (hclosed : w.Closed k) (h : slotOf j = slotOf k) : j = k :=
  (hclosed j).mp (by rw [h]; exact (hclosed k).mpr rfl)

namespace App

variable {setup : List LayerSetup} {n : Nat}

/-- A setter that changes its field finds room in the queue. -/
def RoomForChange (w : Wiring setup n) (st : App n) : Action n → Prop
  | .setter k call => ∀ strip ∈ st.layers.strip? (w.sends k),
      call.param.type.ne (call.param.get strip) call.value = true → (st.queues k).full = false
  | _ => True

instance (w : Wiring setup n) (st : App n) (l : Action n) : Decidable (RoomForChange w st l) :=
  match l with
  | .setter k call => inferInstanceAs (Decidable (∀ strip ∈ st.layers.strip? (w.sends k),
      call.param.type.ne (call.param.get strip) call.value = true → (st.queues k).full = false))
  | .setLocal .. | .controlProcess .. | .sync _ | .session _ | .event => isTrue trivial

section
variable [CastUndefined]

/-- A buffer of a feedback stream holds what the engine says. -/
def Truthful (st : App n) : Action n → Prop
  | .sync (.feedbackProcess k datas) =>
    ∀ value ∈ bufferValues datas, Desk.Carries value (st.engines k)
  | _ => True

instance (st : App n) (l : Action n) : Decidable (st.Truthful l) :=
  match l with
  | .sync (.feedbackProcess k datas) =>
    inferInstanceAs (Decidable (∀ value ∈ bufferValues datas, Desk.Carries value (st.engines k)))
  | .sync (.store _) | .sync (.notifyAll _) | .sync .read | .sync .wait | .sync .clear => isTrue trivial
  | .setter .. | .setLocal .. | .controlProcess .. | .session _ | .event => isTrue trivial

theorem Truthful.sendsObjects {st : App n} {l : Action n} (h : st.Truthful l) : l.SendsObjects := by
  cases l with
  | sync l =>
    cases l with
    | feedbackProcess k datas => exact fun value hvalue => (h value hvalue).1
    | _ => trivial
  | _ => trivial

/-- The assumptions on the surroundings of a channel: there is room for its commands, and its engine's
feedback is true. -/
def Assumed (w : Wiring setup n) (st : App n) (l : Action n) : Prop :=
  RoomForChange w st l ∧ st.Truthful l

instance (w : Wiring setup n) (st : App n) (l : Action n) : Decidable (Assumed w st l) :=
  inferInstanceAs (Decidable (_ ∧ _))

theorem objectsOnly_of_assumed {w : Wiring setup n} {engines : Fin n → EngineValues}
    {ls : List (Action n)} {st : App n}
    (hrun : run (guarded (Assumed w) (step w)) (start setup engines) ls = some st) : ObjectsOnly st := by
  refine run_invariant (I := ObjectsOnly) (fun a l b ha hl => ?_) hrun objectsOnly_start
  obtain ⟨⟨-, htrue⟩, hl⟩ := (guarded_eq_some _).mp hl
  exact ha.step htrue.sendsObjects hl

end

/-! ## The channel -/

/-- A channel of the application and a desk in the same state. -/
structure Shadow (w : Wiring setup n) (k : Fin n) (st : App n) (d : Desk) : Prop where
  strip : ∃ strip, st.layers.strip? (w.sends k) = some strip ∧ SameParams strip d.strip
  queue : (st.queues k).items = d.queue
  engine : st.engines k = d.engine
  slot : (st.sync.slots (slotOf k)).map QueueMessage.value = d.slot
  posted : (st.sync.posted.filter fun entry => entry.1 = slotOf k).map (fun entry => entry.2.value) =
    d.posted
  accepted : st.accepted k = d.accepted
  fresh : st.fresh k = d.fresh

section Steps
variable {w : Wiring setup n} {k : Fin n} {a b : App n} {d : Desk}

theorem strip_modifyStrip {strip : ChannelStripModel} {r : StripRef}
    {f : ChannelStripModel → ChannelStripModel} {l : LayersListModel} (hr : r ≠ w.sends k)
    (h : l.strip? (w.sends k) = some strip) : (l.modifyStrip r f).strip? (w.sends k) = some strip := by
  rw [LayersListModel.strip?_modifyStrip, if_neg (Ne.symm hr), h]

/-- The routing leaves the parameters alone. -/
theorem Shadow.of_settings {session : Session} (hd : Shadow w k a d)
    (h : session.models.layers.settings = a.layers.settings) :
    ∃ strip, session.models.layers.strip? (w.sends k) = some strip ∧ SameParams strip d.strip := by
  obtain ⟨strip, hstrip, hsame⟩ := hd.strip
  have hmap := congrArg (fun l : LayersListModel => l.strip? (w.sends k)) h
  simp only [LayersListModel.strip?_mapStrips, hstrip, Option.map_some] at hmap
  obtain ⟨strip', hstrip', heq⟩ := Option.map_eq_some_iff.mp hmap
  exact ⟨strip', hstrip', fun p => (SameParams.of_settings heq p).trans (hsame p)⟩

theorem Shadow.setLocal {r : StripRef} {call : LocalCall} (hd : Shadow w k a d)
    (h : a.setLocal r call = some b) : Shadow w k b d := by
  obtain ⟨-, -, rfl⟩ := Option.map_eq_some_iff.mp h
  obtain ⟨strip, hstrip, hsame⟩ := hd.strip
  refine { hd with strip := ?_ }
  by_cases hr : r = w.sends k
  · subst hr
    refine ⟨_, (LayersListModel.strip?_modifyStrip ..).trans (by rw [if_pos rfl, hstrip]; rfl), ?_⟩
    exact fun p => (call.get_perform p strip).trans (hsame p)
  · exact ⟨strip, strip_modifyStrip hr hstrip, hsame⟩

theorem shadow_start (engines : Fin n → EngineValues) :
    Shadow w k (start setup engines) (Desk.start {} (engines k)) where
  strip := by
    obtain ⟨strip, hstrip⟩ := Option.isSome_iff_exists.mp (w.sends_present k)
    exact ⟨strip, hstrip, LayersListModel.sameParams_ofSetup hstrip⟩
  queue := rfl
  engine := rfl
  slot := rfl
  posted := rfl
  accepted := rfl
  fresh := rfl

variable [CastUndefined]

theorem Shadow.setter {j : Fin n} {call : SetterCall} (hd : Shadow w k a d)
    (hroom : RoomForChange w a (.setter j call)) (h : a.setter w j call = some b) :
    ∃ ks e, run Desk.step d ks = some e ∧ Shadow w k b e := by
  obtain ⟨strip, hstrip, rfl⟩ := Option.map_eq_some_iff.mp h
  by_cases hj : j = k
  · subst hj
    obtain ⟨strip', hstrip', hsame⟩ := hd.strip
    obtain rfl := Option.some.inj (hstrip.symm.trans hstrip')
    obtain ⟨hpushed, hperform⟩ := hsame.perform call
    refine ⟨[.setter call], _, rfl, ⟨_, ?_, hperform⟩, ?_, hd.engine, hd.slot, hd.posted, ?_, hd.fresh⟩
    · exact (LayersListModel.strip?_modifyStrip ..).trans (by rw [if_pos rfl, hstrip]; rfl)
    · simp only [Function.update_self, ← hpushed]
      cases hne : call.param.type.ne (call.param.get strip) call.value with
      | false => simp [perform_of_eq hne, hd.queue]
      | true =>
        have hfull := hroom strip hstrip hne
        simp [perform_of_ne hne, (Spsc.push_of_not_full hfull _).2, hd.queue]
    · simp only [hsame call.param, ← hd.accepted]
      split
      · rw [Function.update_self]
      · rfl
  · obtain ⟨strip', hstrip', hsame⟩ := hd.strip
    have hr : w.sends j ≠ w.sends k := fun hr => hj (w.sends_injective hr)
    refine ⟨[], d, rfl, ⟨strip', strip_modifyStrip hr hstrip', hsame⟩, ?_, hd.engine, hd.slot,
      hd.posted, ?_, hd.fresh⟩
    · rw [← hd.queue]
      exact congrArg Spsc.items (Function.update_of_ne (Ne.symm hj) _ _)
    · rw [← hd.accepted]
      simp only
      split
      · exact Function.update_of_ne (Ne.symm hj) _ _
      · rfl

theorem Shadow.controlProcess {j : Fin n} {control : Option PwBuffer} (hd : Shadow w k a d)
    (h : a.controlProcess j control = some b) : ∃ ks e, run Desk.step d ks = some e ∧ Shadow w k b e := by
  unfold App.controlProcess at h
  by_cases hj : j = k
  · subst hj
    cases hdata : usableData control with
    | none =>
      rw [controlProcess_of_unusable hdata] at h
      cases h
      refine ⟨[], d, rfl, { hd with queue := ?_, engine := ?_, fresh := ?_ }⟩
      · simpa [returnEarly] using hd.queue
      · simpa [returnEarly, ControlResult.params] using hd.engine
      · simpa [returnEarly, ControlResult.params] using hd.fresh
    | some data =>
      rw [controlProcess_of_usable hdata] at h
      split at h
      · next result hfits =>
        split at hfits
        · cases hfits
          cases h
          have hparams : (paramsStruct d.queue).structParams = d.queue.map ControlQueueMessage.decoded := by
            rw [paramsStruct, SpaPod.structParams, extractParams_appendToStruct]
          refine ⟨[.controlProcess], _, rfl, { hd with queue := ?_, engine := ?_, fresh := ?_ }⟩
          · simp [controlSequence_snd_items]
          · simp [ControlResult.params, sequenceParams_controlSequence, hd.queue, hd.engine, hparams]
          · simp [ControlResult.params, sequenceParams_controlSequence, hd.queue, hd.fresh]
        · cases hfits
      · cases h
  · split at h
    · cases h
      have hk : k ≠ j := Ne.symm hj
      refine ⟨[], d, rfl, { hd with queue := ?_, engine := ?_, fresh := ?_ }⟩
      · simpa [Function.update_of_ne hk] using hd.queue
      · simpa [Function.update_of_ne hk] using hd.engine
      · simpa [Function.update_of_ne hk] using hd.fresh
    · cases h

theorem Shadow.sync {l : FeedbackSync.Action n} (hclosed : w.Closed k) (hd : Shadow w k a d)
    (htrue : a.Truthful (.sync l)) (h : a.syncStep l = some b) :
    ∃ ks e, run Desk.step d ks = some e ∧ Shadow w k b e := by
  obtain ⟨sync, hsync, rfl⟩ := Option.map_eq_some_iff.mp h
  cases l with
  | feedbackProcess j datas =>
    obtain ⟨-, ⟨hprocess, rfl⟩ | ⟨message, hprocess, rfl⟩⟩ := step_feedbackProcess hsync
    · have hnil : bufferValues datas = [] :=
        List.getLast?_eq_none_iff.mp (feedbackProcess_ok hprocess).1.symm
      refine ⟨[], d, rfl, { hd with fresh := ?_ }⟩
      simp only [freshened, hnil, if_true]
      exact hd.fresh
    · have hmem : message.value ∈ bufferValues datas :=
        List.mem_of_getLast? (feedbackProcess_ok hprocess).1.symm
      have hne : bufferValues datas ≠ [] := List.ne_nil_of_mem hmem
      by_cases hj : j = k
      · subst hj
        have hcarries : Desk.Carries message.value d.engine := hd.engine ▸ htrue _ hmem
        refine ⟨[.feedbackProcess message.value], { d with slot := some message.value, fresh := true },
          ?_, { hd with slot := ?_, fresh := ?_ }⟩
        · rw [run_cons, Desk.step, if_pos hcarries]
          rfl
        · simp
        · simp [freshened, hne]
      · have hslot : slotOf k ≠ slotOf j := fun hslot => hj (hclosed.eq_of_slotOf hslot.symm)
        refine ⟨[], d, rfl, { hd with slot := ?_, fresh := ?_ }⟩
        · simpa [Function.update_of_ne hslot] using hd.slot
        · simpa [freshened, hne, Function.update_of_ne (Ne.symm hj)] using hd.fresh
  | store j => obtain ⟨-, rfl⟩ := step_store hsync; exact ⟨[], d, rfl, { hd with }⟩
  | notifyAll j => obtain ⟨-, rfl⟩ := step_notifyAll hsync; exact ⟨[], d, rfl, { hd with }⟩
  | read =>
    obtain ⟨-, rfl⟩ | ⟨i, rest, -, ⟨message, hi, rfl⟩ | ⟨-, rfl⟩⟩ := step_read hsync
    · exact ⟨[], d, rfl, { hd with }⟩
    · by_cases hik : i = slotOf k
      · subst hik
        have hslot : d.slot = some message.value := by rw [← hd.slot, hi]; rfl
        refine ⟨[.updatesToQtThread], { d with slot := none, posted := d.posted ++ [message.value] },
          ?_, { hd with slot := ?_, posted := ?_ }⟩
        · rw [run_cons, Desk.step, hslot]
          rfl
        · simp
        · simp [← hd.posted]
      · refine ⟨[], d, rfl, { hd with slot := ?_, posted := ?_ }⟩
        · simpa [Function.update_of_ne (Ne.symm hik)] using hd.slot
        · simpa [List.filter_append, hik] using hd.posted
    · exact ⟨[], d, rfl, { hd with }⟩
  | wait => obtain ⟨-, rfl⟩ := step_wait hsync; exact ⟨[], d, rfl, { hd with }⟩
  | clear => obtain ⟨-, rfl⟩ := step_clear hsync; exact ⟨[], d, rfl, { hd with }⟩

theorem Shadow.event (hclosed : w.Closed k) (hsound : Sound setup a) (hobjects : ObjectsOnly a)
    (hd : Shadow w k a d) (h : a.event w = some b) : ∃ ks e, run Desk.step d ks = some e ∧ Shadow w k b e := by
  cases hevents : a.events with
  | nil => rw [App.event, hevents] at h; cases h
  | cons event rest =>
    cases event with
    | nodes =>
      rw [App.event, hevents] at h
      obtain ⟨session, hsession, rfl⟩ := Option.map_eq_some_iff.mp h
      exact ⟨[], d, rfl, { hd with strip := hd.of_settings (Session.step_settings hsession) }⟩
    | feedback =>
      cases hposted : a.sync.posted with
      | nil => simp only [App.event, hevents, hposted] at h; cases h
      | cons entry posted =>
        obtain ⟨slot, message⟩ := entry
        rw [event_feedback hsound hobjects hevents hposted] at h
        cases h
        have hmem : (slot, message) ∈ a.sync.messages :=
          .inr (by rw [hposted]; exact List.mem_cons_self)
        obtain ⟨strip, hstrip, hsame⟩ := hd.strip
        have hfilter := hd.posted
        rw [hposted, List.filter_cons] at hfilter
        by_cases hslot : slot = slotOf k
        · subst hslot
          rw [if_pos (by simp), List.map_cons] at hfilter
          refine ⟨[.applyUpdate], { d with
              strip := applyParams message.value.decodedParams d.strip
              posted := (posted.filter fun entry => entry.1 = slotOf k).map (fun e => e.2.value) },
            ?_, { hd with strip := ⟨_, ?_, hsame.applyParams _⟩, posted := rfl }⟩
          · obtain ⟨r, hr, hfst⟩ := Option.map_eq_some_iff.mp
              ((apply_fst d.strip message.value).trans (if_pos (hobjects _ hmem)))
            simp only [run_cons, Desk.step, ← hfilter, hr, Option.map_some, Option.bind_some, run_nil,
              hfst]
          · refine (LayersListModel.strip?_modifyStrip ..).trans ?_
            rw [(hclosed k).mpr rfl, if_pos rfl, hstrip]
            rfl
        · rw [if_neg (by simpa using hslot)] at hfilter
          have hr : w.shows slot ≠ w.sends k := by
            obtain ⟨j, rfl⟩ := (hsound.messages _ hmem).slot
            intro hr
            exact hslot (by rw [(hclosed j).mp hr])
          exact ⟨[], d, rfl, { hd with
            strip := ⟨strip, strip_modifyStrip hr hstrip, hsame⟩, posted := hfilter }⟩

/-- **A step of the application is a run of the channel's desk.** -/
theorem Shadow.step {l : Action n} (hclosed : w.Closed k) (hsound : Sound setup a)
    (hobjects : ObjectsOnly a) (hd : Shadow w k a d)
    (h : guarded (Assumed w) (step w) a l = some b) :
    ∃ ks e, run Desk.step d ks = some e ∧ Shadow w k b e := by
  obtain ⟨⟨hroom, htrue⟩, h⟩ := (guarded_eq_some _).mp h
  cases l with
  | setter j call => exact hd.setter hroom h
  | setLocal r call => exact ⟨[], d, rfl, hd.setLocal h⟩
  | controlProcess j control => exact hd.controlProcess h
  | sync l => exact hd.sync hclosed htrue h
  | session l =>
    obtain ⟨-, h⟩ := Option.ite_none_left_eq_some.mp h
    obtain ⟨session, hsession, rfl⟩ := Option.map_eq_some_iff.mp h
    exact ⟨[], d, rfl, { hd with strip := hd.of_settings (Session.step_settings hsession) }⟩
  | event => exact hd.event hclosed hsound hobjects h

/-- **A closed channel of the application is a desk**: whatever the other channels and the routing do,
its strip, its queue, its engine and its feedback go through a run of `Desk`, in every run in which no
setter changes its field while its queue is full and the engines' feedback is true. -/
theorem shadow_run {engines : Fin n → EngineValues} {ls : List (Action n)} {st : App n}
    (hclosed : w.Closed k)
    (hrun : run (guarded (Assumed w) (step w)) (start setup engines) ls = some st) :
    ∃ ks d, run Desk.step (Desk.start {} (engines k)) ks = some d ∧ Shadow w k st d := by
  have hstep : ∀ a d l b, (Sound setup a ∧ ObjectsOnly a ∧ Shadow w k a d) →
      guarded (Assumed w) (step w) a l = some b →
      ∃ ks e, run Desk.step d ks = some e ∧ (Sound setup b ∧ ObjectsOnly b ∧ Shadow w k b e) := by
    rintro a d l b ⟨hsound, hobjects, hd⟩ hl
    obtain ⟨ks, e, hks, he⟩ := hd.step hclosed hsound hobjects hl
    obtain ⟨⟨-, htrue⟩, hl⟩ := (guarded_eq_some _).mp hl
    exact ⟨ks, e, hks, hsound.step hl, hobjects.step htrue.sendsObjects hl, he⟩
  obtain ⟨ks, d, hks, -, -, hd⟩ := run_refines hstep hrun
    ⟨sound_start engines, objectsOnly_start, shadow_start engines⟩
  exact ⟨ks, d, hks, hd⟩

end Steps

/-! ## At rest -/

/-- The forwarder is blocked, no stream owes it a store, and no posted call waits. -/
structure Quiescent (st : App n) : Prop where
  waiting : st.sync.Waiting
  streams : ∀ k, st.sync.streams k ≠ .written
  events : st.events = []

theorem Sound.posted_of_events {st : App n} (h : Sound setup st) (hevents : st.events = []) :
    st.sync.posted = [] := by
  have hfeedback := h.feedback
  rw [hevents, List.count_nil] at hfeedback
  exact List.length_eq_zero_iff.mp hfeedback.symm

section
variable [CastUndefined] {w : Wiring setup n} {k : Fin n}

/-- A drained closed channel with news from its engine, in a quiescent state. -/
theorem at_rest (hclosed : w.Closed k) {engines : Fin n → EngineValues} {ls : List (Action n)}
    {st : App n}
    (hrun : run (guarded (Assumed w) (step w)) (start setup engines) ls = some st)
    (hrest : st.Quiescent) (hqueue : (st.queues k).items = []) (hfresh : st.fresh k = true) {p : Param}
    (hp : p ≠ .volume) : ∃ strip, st.layers.strip? (w.sends k) = some strip ∧
      st.engines k p = (lastArgument p (st.accepted k)).getD (engines k p) ∧
      p.get strip = (lastArgument p (st.accepted k)).getD (engines k p) := by
  have hsound : Sound setup st := sound_run (run_of_guarded _ hrun)
  obtain ⟨ks, d, hks, hd⟩ := shadow_run hclosed hrun
  obtain ⟨strip, hstrip, hsame⟩ := hd.strip
  have hdqueue : d.queue = [] := hd.queue ▸ hqueue
  have hengine := Desk.queue_engine_accepted hks p
  rw [Desk.pendingValue, hdqueue, ← hd.engine, ← hd.accepted] at hengine
  refine ⟨strip, hstrip, hengine, ?_⟩
  have hslot : d.slot = none := by
    rw [← hd.slot, hsound.sync.slots_of_waiting hrest.waiting hrest.streams]
    rfl
  have hposted : d.posted = [] := by
    rw [← hd.posted, hsound.posted_of_events hrest.events]
    rfl
  rcases Desk.fresh_feedback hks (hd.fresh ▸ hfresh) hdqueue with ⟨-, hagree⟩ | ⟨value, hlast, -⟩
  · rw [hsame p, hagree p hp, ← hd.engine]
    exact hengine
  · simp [Desk.inFlight, hslot, hposted] at hlast

end

/-- The feedback on its way to a channel's strip, oldest first. -/
def incoming (st : App n) (k : Fin n) : List SpaPod :=
  (st.sync.posted.filter fun entry => entry.1 = slotOf k).map (fun entry => entry.2.value) ++
    ((st.sync.slots (slotOf k)).map QueueMessage.value).toList

/-- **A closed channel in flight**: in every run in which no setter changes its field while its queue is
full and the engines' feedback is true, the engine holds the last accepted commands once it has taken the
queue; and from feedback that it has sent after the last drain, the strip shows the engine's values once
it has taken the messages on their way. -/
theorem channel_in_flight [CastUndefined] (w : Wiring setup n) (k : Fin n) (hclosed : w.Closed k)
    (engines : Fin n → EngineValues) (ls : List (Action n)) (st : App n)
    (hrun : run (guarded (Assumed w) (step w)) (start setup engines) ls = some st) :
    (∀ p : Param, ((LastWrite.lastValue p.parameterName ((st.queues k).items.map
        ControlQueueMessage.decoded)).map p.type.decode).getD (st.engines k p) =
      (lastArgument p (st.accepted k)).getD (engines k p)) ∧
    (st.fresh k = true → (st.queues k).items = [] →
      ∃ strip, st.layers.strip? (w.sends k) = some strip ∧ ∀ p : Param, p ≠ .volume →
        p.get (applyParams ((st.incoming k).flatMap SpaPod.decodedParams) strip) = st.engines k p) := by
  obtain ⟨ks, d, hks, hd⟩ := shadow_run hclosed hrun
  obtain ⟨strip, hstrip, hsame⟩ := hd.strip
  refine ⟨fun p => ?_, fun hfresh hqueue => ⟨strip, hstrip, fun p hp => ?_⟩⟩
  · rw [hd.queue, hd.engine, hd.accepted]
    exact Desk.queue_engine_accepted hks p
  · have hincoming : st.incoming k = d.inFlight := by
      rw [incoming, hd.posted, hd.slot, Desk.inFlight]
    rw [hsame.applyParams _ p, hincoming, hd.engine]
    rcases Desk.fresh_feedback hks (hd.fresh ▸ hfresh) (hd.queue ▸ hqueue) with
      ⟨hnil, hagree⟩ | ⟨value, hlast, hcarries⟩
    · rw [hnil]
      exact hagree p hp
    · obtain ⟨values, hvalues⟩ := List.getLast?_eq_some_iff.mp hlast
      rw [hvalues, List.flatMap_append, applyParams_append, List.flatMap_singleton]
      exact Desk.agree_of_carries hcarries _ p hp

/-! ## A run with two channels -/

theorem closed_twoChannels (k : Fin 2) : twoChannels.Closed k := by
  intro j
  revert j k
  decide

/-- What is compared while the feedback is in its slot. -/
def mixView (st : App 2) : Bool × Option Double :=
  (decide (st.fresh micChannel = true ∧ (st.queues micChannel).items = [] ∧ st.incoming micChannel ≠ []),
    lastArgument .looperMix (st.accepted micChannel))

theorem mixRun_view : (run (guarded (@Assumed _ _ .x86 twoChannels) (@step _ _ .x86 twoChannels))
    (start oneInput newEngines) (mixRun.take 9)).map mixView = some (true, some (.finite 70)) := by
  decide +kernel

theorem channel_in_flight_mix : ∃ st strip,
    run (guarded (@Assumed _ _ .x86 twoChannels) (@step _ _ .x86 twoChannels)) (start oneInput newEngines)
      (mixRun.take 9) = some st ∧ st.engines micChannel .looperMix = Double.finite 70 ∧
      st.layers.strip? ⟨0, .input, 0⟩ = some strip ∧ st.incoming micChannel ≠ [] ∧
      (@applyParams .x86 ((st.incoming micChannel).flatMap SpaPod.decodedParams) strip).looperMix =
        .finite 70 := by
  obtain ⟨st, hrun, hview⟩ := Option.map_eq_some_iff.mp mixRun_view
  obtain ⟨hview, hacc⟩ := Prod.mk.inj hview
  obtain ⟨hfresh, hqueue, hincoming⟩ := of_decide_eq_true hview
  obtain ⟨hpending, hstrip⟩ := @channel_in_flight _ _ .x86 twoChannels micChannel
    (closed_twoChannels micChannel) newEngines (mixRun.take 9) st hrun
  obtain ⟨strip, hstrip, hshows⟩ := hstrip hfresh hqueue
  have hengine := hpending .looperMix
  rw [hqueue, hacc] at hengine
  exact ⟨st, strip, hrun, hengine, hstrip, hincoming, (hshows .looperMix (by decide)).trans hengine⟩

end App

end Kpmx
