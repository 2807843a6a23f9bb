import Kpmx.App.Routing
import Kpmx.Feedback.Forwarder
import Kpmx.Wireplumber.Acceptance

/-!
# The messages of the application

What holds of the messages in flight in every run (`sound_run`): a feedback message is the whole pod
that was written, from the slot of some stream; the event queue has one event for every posted call.
Where the streams receive objects only, only objects are in flight (`objectsOnly_run`).
-/

namespace Kpmx

open Runs FeedbackSync

theorem Session.posted_prefix {a b : Session} {l : Action} (h : step a l = some b)
    (hl : l.isPostedCall = false) : a.posted <+: b.posted := by
  cases l with
  | setTargetObject r targetObject =>
    obtain ⟨strip, -, rfl⟩ := setTargetObject_eq_some.mp h
    exact List.prefix_rfl
  | metadataUpdateThread s =>
    obtain ⟨queue, -, rfl⟩ | ⟨update, queue, -, rfl⟩ := metadataUpdateThread_cases h
    · exact List.prefix_rfl
    · split <;> exact List.prefix_rfl
  | idleCallback => obtain ⟨update, rest, -, rfl⟩ := step_idleCallback h; exact List.prefix_rfl
  | metadataAdded => cases h; exact List.prefix_rfl
  | metadataChangedCallback =>
    obtain ⟨update, rest, -, rfl⟩ := step_metadataChangedCallback h
    exact List.prefix_rfl
  | foreignChange update => rw [step_foreignChange h]
  | nodeAddedCallback node => cases h; exact List.prefix_rfl
  | nodeRemovedCallback node => cases h; exact List.prefix_rfl
  | nodesModelThread s =>
    obtain ⟨queue, -, rfl⟩ | ⟨message, queue, calls, -, -, -, rfl⟩ := nodesModelThread_cases h
    · exact List.prefix_rfl
    · exact List.prefix_rfl
  | post => obtain ⟨call, rest, -, rfl⟩ := step_post h; exact ⟨[call], rfl⟩
  | postedCall => cases hl

theorem FeedbackSync.posted_prefix {n : Nat} {a b : FeedbackSync n} {l : FeedbackSync.Action n}
    (h : step a l = some b) : a.posted <+: b.posted := by
  cases l with
  | feedbackProcess k datas =>
    obtain ⟨-, ⟨-, rfl⟩ | ⟨message, -, rfl⟩⟩ := step_feedbackProcess h <;> exact List.prefix_rfl
  | store k => obtain ⟨-, rfl⟩ := step_store h; exact List.prefix_rfl
  | notifyAll k => obtain ⟨-, rfl⟩ := step_notifyAll h; exact List.prefix_rfl
  | read =>
    obtain ⟨-, rfl⟩ | ⟨k, rest, -, ⟨message, -, rfl⟩ | ⟨-, rfl⟩⟩ := step_read h
    · exact List.prefix_rfl
    · exact ⟨[(k, message)], rfl⟩
    · exact List.prefix_rfl
  | wait => obtain ⟨-, rfl⟩ := step_wait h; exact List.prefix_rfl
  | clear => obtain ⟨-, rfl⟩ := step_clear h; exact List.prefix_rfl

/-- The messages in flight, with the slot that each is in or from. -/
def FeedbackSync.messages {n : Nat} (st : FeedbackSync n) : Set (Fin n × QueueMessage) :=
  {entry | st.slots entry.1 = some entry.2 ∨ entry ∈ st.posted}

theorem FeedbackSync.not_mem_messages_start {n : Nat} (entry : Fin n × QueueMessage) :
    entry ∉ (start n).messages := by
  rintro (h | h)
  · cases h
  · cases h

theorem FeedbackSync.mem_messages_of_step {n : Nat} {a b : FeedbackSync n} {l : FeedbackSync.Action n}
    (h : step a l = some b) {entry : Fin n × QueueMessage} (hentry : entry ∈ b.messages) :
    entry ∈ a.messages ∨ ∃ k datas, l = .feedbackProcess k datas ∧
      Kpmx.feedbackProcess datas = .ok (some entry.2) ∧ entry.1 = slotOf k := by
  obtain ⟨i, message⟩ := entry
  cases l with
  | feedbackProcess k datas =>
    obtain ⟨-, ⟨-, rfl⟩ | ⟨written, hprocess, rfl⟩⟩ := step_feedbackProcess h
    · exact .inl hentry
    · rcases hentry with hslot | hposted
      · by_cases hi : i = slotOf k
        · subst hi
          obtain rfl : written = message := by simpa using hslot
          exact .inr ⟨k, datas, rfl, hprocess, rfl⟩
        · exact .inl (.inl (by simpa [hi] using hslot))
      · exact .inl (.inr hposted)
  | store k => obtain ⟨-, rfl⟩ := step_store h; exact .inl hentry
  | notifyAll k => obtain ⟨-, rfl⟩ := step_notifyAll h; exact .inl hentry
  | read =>
    obtain ⟨-, rfl⟩ | ⟨k, rest, -, ⟨taken, hk, rfl⟩ | ⟨-, rfl⟩⟩ := step_read h
    · exact .inl hentry
    · rcases hentry with hslot | hposted
      · by_cases hi : i = k
        · subst hi
          simp at hslot
        · exact .inl (.inl (by simpa [hi] using hslot))
      · rcases List.mem_append.mp hposted with hposted | hposted
        · exact .inl (.inr hposted)
        · obtain ⟨rfl, rfl⟩ := Prod.mk.inj (List.mem_singleton.mp hposted)
          exact .inl (.inl hk)
    · exact .inl hentry
  | wait => obtain ⟨-, rfl⟩ := step_wait h; exact .inl hentry
  | clear => obtain ⟨-, rfl⟩ := step_clear h; exact .inl hentry

theorem LayersListModel.length_modifyStrip (l : LayersListModel) (r : StripRef)
    (f : ChannelStripModel → ChannelStripModel) :
    (l.modifyStrip r f).layers.length = l.layers.length := List.length_modify ..

namespace App

variable {setup : List LayerSetup} {n : Nat}

/-! ## What holds of the messages -/

/-- A message from the slot `i`. -/
structure Intact (i : Fin n) (message : QueueMessage) : Prop where
  slot : ∃ k, slotOf k = i
  whole : message.pod = some message.value

structure Sound (setup : List LayerSetup) (st : App n) : Prop where
  sync : st.sync.Sound
  layers : st.layers.layers.length = (LayersListModel.ofSetup setup).layers.length
  messages : ∀ entry ∈ st.sync.messages, Intact entry.1 entry.2
  nodes : st.events.count .nodes = st.session.posted.length
  feedback : st.events.count .feedback = st.sync.posted.length

theorem sound_start (engines : Fin n → EngineValues) : Sound setup (start setup engines) where
  sync := FeedbackSync.sound_start
  layers := rfl
  messages := fun entry hentry => absurd hentry (not_mem_messages_start entry)
  nodes := rfl
  feedback := rfl

theorem messages_of_posted {sync : FeedbackSync n} {first : Fin n × QueueMessage}
    {posted : List (Fin n × QueueMessage)} (h : sync.posted = first :: posted)
    {entry : Fin n × QueueMessage} (hentry : entry ∈ messages { sync with posted := posted }) :
    entry ∈ sync.messages := by
  rcases hentry with hslot | hposted
  · exact .inl hslot
  · exact .inr (by rw [h]; exact List.mem_cons_of_mem _ hposted)

theorem count_newEvents {α : Type} (event other : Event) (before after : List α) :
    (newEvents event before after).count other =
      if event = other then after.length - before.length else 0 := by
  rw [newEvents, List.count_replicate]
  by_cases h : event = other <;> simp [h]

section
variable [CastUndefined] {w : Wiring setup n} {a b : App n}

/-- A message in flight was before, or has just been written. -/
theorem message_cases {l : Action n} (h : step w a l = some b) {entry : Fin n × QueueMessage}
    (hentry : entry ∈ b.sync.messages) :
    entry ∈ a.sync.messages ∨ ∃ k datas, l = .sync (.feedbackProcess k datas) ∧
      Kpmx.feedbackProcess datas = .ok (some entry.2) ∧ entry.1 = slotOf k := by
  cases l with
  | sync l =>
    obtain ⟨sync, hsync, rfl⟩ := Option.map_eq_some_iff.mp h
    obtain hold | ⟨k, datas, rfl, hwritten⟩ := mem_messages_of_step hsync hentry
    · exact .inl hold
    · exact .inr ⟨k, datas, rfl, hwritten⟩
  | event =>
    rcases event_eq_some h with ⟨rest, session, -, -, rfl⟩ |
      ⟨rest, slot, message, posted, params, -, hposted, rfl⟩
    · exact .inl hentry
    · exact .inl (messages_of_posted hposted hentry)
  | setter k call =>
    obtain ⟨strip, -, rfl⟩ := Option.map_eq_some_iff.mp h
    exact .inl hentry
  | setLocal r call =>
    obtain ⟨strip, -, rfl⟩ := Option.map_eq_some_iff.mp h
    exact .inl hentry
  | controlProcess k control =>
    simp only [App.step, controlProcess] at h
    split at h
    · cases h
      exact .inl hentry
    · cases h
  | session l =>
    obtain ⟨-, h⟩ := Option.ite_none_left_eq_some.mp h
    obtain ⟨session, -, rfl⟩ := Option.map_eq_some_iff.mp h
    exact .inl hentry

theorem Sound.step {l : Action n} (ha : Sound setup a) (h : step w a l = some b) : Sound setup b := by
  have hmessages : ∀ entry ∈ b.sync.messages, Intact entry.1 entry.2 := fun entry hentry => by
    rcases message_cases h hentry with hold | ⟨k, datas, -, hprocess, hslot⟩
    · exact ha.messages entry hold
    · exact ⟨⟨k, hslot.symm⟩, (feedbackProcess_ok hprocess).2 _ rfl⟩
  cases l with
  | setter k call =>
    obtain ⟨strip, -, rfl⟩ := Option.map_eq_some_iff.mp h
    exact { ha with layers := (LayersListModel.length_modifyStrip ..).trans ha.layers }
  | setLocal r call =>
    obtain ⟨strip, -, rfl⟩ := Option.map_eq_some_iff.mp h
    exact { ha with layers := (LayersListModel.length_modifyStrip ..).trans ha.layers }
  | controlProcess k control =>
    simp only [App.step, controlProcess] at h
    split at h
    · cases h
      exact { ha with }
    · cases h
  | sync l =>
    obtain ⟨sync, hsync, rfl⟩ := Option.map_eq_some_iff.mp h
    have hlength := (FeedbackSync.posted_prefix hsync).length_le
    refine ⟨ha.sync.step hsync, ha.layers, hmessages, ?_, ?_⟩
    · rw [List.count_append, count_newEvents, if_neg (by decide), Nat.add_zero]
      exact ha.nodes
    · rw [List.count_append, count_newEvents, if_pos rfl, ha.feedback]
      exact Nat.add_sub_cancel' hlength
  | session l =>
    obtain ⟨hl, h⟩ := Option.ite_none_left_eq_some.mp h
    obtain ⟨session, hsession, rfl⟩ := Option.map_eq_some_iff.mp h
    have hlength := (Session.posted_prefix hsession (eq_false_of_ne_true hl)).length_le
    refine ⟨ha.sync, ?_, ha.messages, ?_, ?_⟩
    · exact (LayersListModel.length_of_settings (Session.step_settings hsession)).trans ha.layers
    · rw [List.count_append, count_newEvents, if_pos rfl, ha.nodes]
      exact Nat.add_sub_cancel' hlength
    · rw [List.count_append, count_newEvents, if_neg (by decide), Nat.add_zero]
      exact ha.feedback
  | event =>
    have hnodes := ha.nodes
    have hfeedback := ha.feedback
    rcases event_eq_some h with ⟨rest, session, hevents, hsession, rfl⟩ |
      ⟨rest, slot, message, posted, params, hevents, hposted, rfl⟩
    · obtain ⟨call, posted, models, hposted, -, rfl⟩ := Session.step_postedCall hsession
      rw [hevents] at hnodes hfeedback
      refine ⟨ha.sync, ?_, ha.messages, ?_, ?_⟩
      · exact (LayersListModel.length_of_settings (Session.step_settings hsession)).trans ha.layers
      · simpa [hposted] using hnodes
      · simpa using hfeedback
    · rw [hevents] at hnodes hfeedback
      refine ⟨⟨ha.sync.covered, ha.sync.rest⟩, (LayersListModel.length_modifyStrip ..).trans ha.layers,
        hmessages, ?_, ?_⟩
      · change rest.count .nodes = a.session.posted.length
        simpa using hnodes
      · simpa [hposted] using hfeedback

theorem sound_run {engines : Fin n → EngineValues} {ls : List (Action n)} {st : App n}
    (hrun : run (step w) (start setup engines) ls = some st) : Sound setup st :=
  run_invariant (fun _ _ _ ha hl => ha.step hl) hrun (sound_start engines)

/-! ## Objects -/

/-- The Properties values that a feedback stream receives are objects. -/
def Action.SendsObjects : Action n → Prop
  | .sync (.feedbackProcess _ datas) => ∀ value ∈ bufferValues datas, value.isObject = true
  | _ => True

def ObjectsOnly (st : App n) : Prop := ∀ entry ∈ st.sync.messages, entry.2.value.isObject = true

omit [CastUndefined] in
theorem objectsOnly_start {engines : Fin n → EngineValues} : ObjectsOnly (start setup engines) :=
  fun entry hentry => absurd hentry (not_mem_messages_start entry)

theorem ObjectsOnly.step {l : Action n} (ha : ObjectsOnly a) (hl : l.SendsObjects)
    (h : step w a l = some b) : ObjectsOnly b := by
  intro entry hentry
  rcases message_cases h hentry with hold | ⟨k, datas, rfl, hprocess, -⟩
  · exact ha entry hold
  · exact hl _ (List.mem_of_getLast? (feedbackProcess_ok hprocess).1.symm)

theorem objectsOnly_run {engines : Fin n → EngineValues} {ls : List (Action n)} {st : App n}
    (hrun : run (step w) (start setup engines) ls = some st) (hls : ∀ l ∈ ls, l.SendsObjects) :
    ObjectsOnly st := by
  refine run_induction (I := fun ls st => (∀ l ∈ ls, l.SendsObjects) → ObjectsOnly st)
    (fun _ => objectsOnly_start) ?_ hrun hls
  intro ls a l b _ ha hl hls
  exact (ha fun k hk => hls k (List.mem_append_left _ hk)).step
    (hls l (List.mem_append_right _ List.mem_cons_self)) hl

/-- The oldest posted message, if it is an object, is applied to the strip that its slot leads to. -/
theorem event_feedback {rest : List Event} {slot : Fin n} {message : QueueMessage}
    {posted : List (Fin n × QueueMessage)} (hsound : Sound setup a) (hobjects : ObjectsOnly a)
    (hevents : a.events = .feedback :: rest) (hposted : a.sync.posted = (slot, message) :: posted) :
    a.event w = some { a.withLayers (a.layers.modifyStrip (w.shows slot)
        (applyParams message.value.decodedParams)) with
      sync := { a.sync with posted := posted }, events := rest } := by
  have hmem : (slot, message) ∈ a.sync.messages :=
    .inr (by rw [hposted]; exact List.mem_cons_self)
  have hlayer : (w.shows slot).layer < a.layers.layers.length := by
    rw [hsound.layers]
    exact w.shows_present slot
  simp only [App.event, hevents, hposted, (hsound.messages _ hmem).whole]
  rw [LayersListModel.applyUpdate_of_isObject (hobjects _ hmem) hlayer]
  rfl

end

end App

end Kpmx
