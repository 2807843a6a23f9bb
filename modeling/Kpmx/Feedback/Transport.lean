import Kpmx.Lib.Runs
import Kpmx.Mixer.StripList

/-!
# From a feedback buffer to the strip

One feedback stream: `feedbackProcess` keeps the last Properties control of a buffer and overwrites
the unread slot, the forwarder posts what it reads from the slot, and Qt runs the posted calls.

* `run_kept` : what is applied, posted or in the slot is a choice of the received values that keeps
  the newest one;
* `latest_wins` : when every value names the same parameters, that choice leaves every field but the
  selected loop as applying all values in order would.
-/

namespace Kpmx

open Runs LastWrite

/-- `MAX_VALUE_SIZE`. -/
def maxValueSize : Nat := 4096

/-- Undefined behaviour on the way: a pod is inspected that is not there, or more is copied than the
message's array holds. -/
inductive Fault where
  | missingPod
  | overflow

/-- A `queue_message`: the pod whose bytes were copied into the array, and the size stored with it. -/
structure QueueMessage where
  value : SpaPod
  size : Nat

/-- `spa_pod_from_data` on the array: no pod when the sizes do not fit. -/
def QueueMessage.pod (message : QueueMessage) : Option SpaPod :=
  if 8 ≤ message.size ∧ message.size ≤ maxValueSize ∧ message.value.size ≤ message.size then
    some message.value
  else none

/-- The Properties controls of a sequence, in order. -/
def propertiesOf (controls : List (SpaControlType × SpaPod)) : List SpaPod :=
  controls.filterMap fun control => if control.1 = .properties then some control.2 else none

/-- `pod_control_end`: the loop over the controls keeps the last Properties control. -/
def lastProperties (controls : List (SpaControlType × SpaPod)) : Option SpaPod :=
  controls.foldl (fun acc control => if control.1 = .properties then some control.2 else acc) none

/-- `feedback_process` on a dequeued buffer, given the pod that `spa_pod_from_data` finds in each data
plane: the message written to the slot, if any. -/
def feedbackProcess (datas : List (Option SpaPod)) : Except Fault (Option QueueMessage) :=
  match datas with
  | [] => .ok none
  | none :: _ => .error .missingPod
  | some (.sequence controls) :: _ =>
    match lastProperties controls with
    | some value => if value.size ≤ maxValueSize then .ok (some ⟨value, value.size⟩) else .error .overflow
    | none => .ok none
  | some _ :: _ => .ok none

/-- The Properties values of a buffer, in order. -/
def bufferValues (datas : List (Option SpaPod)) : List SpaPod :=
  match datas with
  | some (.sequence controls) :: _ => propertiesOf controls
  | _ => []

theorem lastProperties_eq (controls : List (SpaControlType × SpaPod)) :
    lastProperties controls = (propertiesOf controls).getLast? := by
  rw [propertiesOf, ← foldl_or_eq_getLast?, lastProperties]
  congr 1
  funext acc control
  split <;> rfl

theorem feedbackProcess_ok {datas : List (Option SpaPod)} {written : Option QueueMessage}
    (h : feedbackProcess datas = .ok written) :
    written.map QueueMessage.value = (bufferValues datas).getLast? ∧
      ∀ message ∈ written, message.pod = some message.value := by
  unfold feedbackProcess at h
  split at h
  · cases h; exact ⟨rfl, by simp⟩
  · cases h
  · next controls _ =>
    rw [lastProperties_eq] at h
    rw [bufferValues]
    split at h
    · next value hvalue =>
      split at h
      · next hsize =>
        cases h
        refine ⟨hvalue.symm, fun message hm => ?_⟩
        cases hm
        exact if_pos ⟨Nat.le_add_right 8 _, hsize, Nat.le_refl _⟩
      · cases h
    · next hnone => cases h; exact ⟨hnone.symm, by simp⟩
  · next pod _ hseq =>
    cases h
    refine ⟨?_, by simp⟩
    cases pod with
    | sequence controls => exact (hseq controls rfl).elim
    | _ => rfl

/-- The pod of a data plane is processed without a fault exactly when the value to be copied fits. -/
theorem feedbackProcess_ok_iff {pod : SpaPod} {rest : List (Option SpaPod)} :
    (feedbackProcess (some pod :: rest)).toOption.isSome = true ↔
      ∀ value ∈ (bufferValues (some pod :: rest)).getLast?, value.size ≤ maxValueSize := by
  cases pod with
  | sequence controls =>
    simp only [feedbackProcess, bufferValues, ← lastProperties_eq]
    cases lastProperties controls with
    | none => simp [Except.toOption]
    | some value => by_cases hfits : value.size ≤ maxValueSize <;> simp [Except.toOption, hfits]
  | _ => simp [feedbackProcess, bufferValues, Except.toOption]

/-! ## The stream -/

/-- One stream's slot, the calls posted for it and the strip list it addresses. -/
structure FeedbackPath where
  slot : Option QueueMessage
  posted : List QueueMessage
  strips : ChannelStripListModel

namespace FeedbackPath

inductive Action where
  | feedbackProcess (datas : List (Option SpaPod))
  | updatesToQtThread
  | applyUpdate

/-- The Properties values that the buffers of a run carried, in order. -/
def received (ls : List Action) : List SpaPod := ls.flatMap fun
  | .feedbackProcess datas => bufferValues datas
  | _ => []

theorem received_concat (ls : List Action) (l : Action) :
    received (ls ++ [l]) = received ls ++ received [l] := by
  simp [received]

section
variable [CastUndefined] (channelIndex : Nat)

def step (st : FeedbackPath) : Action → Option FeedbackPath
  | .feedbackProcess datas =>
    match Kpmx.feedbackProcess datas with
    | .ok (some message) => some { st with slot := some message }
    | .ok none => some st
    | .error _ => none
  | .updatesToQtThread =>
    st.slot.map fun message => { st with slot := none, posted := st.posted ++ [message] }
  | .applyUpdate =>
    match st.posted with
    | [] => none
    | message :: rest => (st.strips.applyUpdate channelIndex message.pod).map fun strips =>
        { st with strips := strips, posted := rest }

def start (strips : ChannelStripListModel) : FeedbackPath := ⟨none, [], strips⟩

/-- Apply every value in order, skipping none. -/
def applyEvery (values : List SpaPod) (strips : ChannelStripListModel) :
    Option ChannelStripListModel :=
  values.foldlM (fun strips value => strips.applyUpdate channelIndex (some value)) strips

/-- The messages in flight, oldest first. -/
def inFlight (st : FeedbackPath) : List QueueMessage := st.posted ++ st.slot.toList

/-- The strips are the initial ones with `applied` applied; what is applied or in flight was received,
and its newest is the newest received. -/
structure Kept (strips : ChannelStripListModel) (ls : List Action) (st : FeedbackPath)
    (applied : List SpaPod) : Prop where
  strips_eq : applyEvery channelIndex applied strips = some st.strips
  whole : ∀ message ∈ st.inFlight, message.pod = some message.value
  subset : applied ++ st.inFlight.map QueueMessage.value ⊆ received ls
  newest : (applied ++ st.inFlight.map QueueMessage.value).getLast? = (received ls).getLast?

theorem applyEvery_concat (values : List SpaPod) (value : SpaPod) (strips : ChannelStripListModel) :
    applyEvery channelIndex (values ++ [value]) strips =
      (applyEvery channelIndex values strips).bind fun strips =>
        strips.applyUpdate channelIndex (some value) := by
  simp only [applyEvery, List.foldlM_append, List.foldlM_cons, List.foldlM_nil, bind_pure]
  rfl

theorem step_kept {strips : ChannelStripListModel} {ls : List Action} {a b : FeedbackPath}
    {l : Action} {applied : List SpaPod} (h : Kept channelIndex strips ls a applied)
    (hl : step channelIndex a l = some b) : ∃ applied', Kept channelIndex strips (ls ++ [l]) b applied' := by
  cases l with
  | feedbackProcess datas =>
    simp only [step] at hl
    have hrec : received [Action.feedbackProcess datas] = bufferValues datas := by simp [received]
    refine ⟨applied, ?_⟩
    cases hp : Kpmx.feedbackProcess datas with
    | error fault => rw [hp] at hl; cases hl
    | ok written =>
      rw [hp] at hl
      obtain ⟨hlast, hwhole⟩ := feedbackProcess_ok hp
      cases written with
      | none =>
        cases hl
        have hnil : bufferValues datas = [] := List.getLast?_eq_none_iff.mp hlast.symm
        exact ⟨h.strips_eq, h.whole, by rw [received_concat, hrec, hnil, List.append_nil]; exact h.subset,
          by rw [received_concat, hrec, hnil, List.append_nil]; exact h.newest⟩
      | some message =>
        cases hl
        have hmem : message.value ∈ bufferValues datas := List.mem_of_getLast? hlast.symm
        refine ⟨h.strips_eq, fun m hm => ?_, fun v hv => ?_, ?_⟩
        · rcases List.mem_append.mp hm with hm | hm
          · exact h.whole m (List.mem_append_left _ hm)
          · obtain rfl : m = message := by simpa using hm
            exact hwhole m rfl
        · rw [received_concat, hrec]
          simp only [inFlight, List.map_append, Option.toList_some, List.map_singleton,
            List.mem_append, List.mem_singleton] at hv ⊢
          rcases hv with hv | hv | rfl
          · exact .inl (h.subset (List.mem_append_left _ hv))
          · exact .inl (h.subset (List.mem_append_right _ (by
              simp only [inFlight, List.map_append, List.mem_append]
              exact .inl hv)))
          · exact .inr hmem
        · rw [received_concat, hrec, List.getLast?_append (l := received ls), ← hlast]
          simp [inFlight]
  | updatesToQtThread =>
    obtain ⟨message, hslot, rfl⟩ := Option.map_eq_some_iff.mp hl
    have hflight : inFlight { a with slot := none, posted := a.posted ++ [message] } = a.inFlight := by
      simp [inFlight, hslot]
    have hrec : received (ls ++ [Action.updatesToQtThread]) = received ls := by
      simp [received]
    exact ⟨applied, h.strips_eq, by rw [hflight]; exact h.whole, by rw [hflight, hrec]; exact h.subset,
      by rw [hflight, hrec]; exact h.newest⟩
  | applyUpdate =>
    simp only [step] at hl
    have hrec : received (ls ++ [Action.applyUpdate]) = received ls := by
      simp [received]
    split at hl
    · cases hl
    · next message rest hposted =>
      obtain ⟨strips', happ, rfl⟩ := Option.map_eq_some_iff.mp hl
      have hflight : a.inFlight = message :: (rest ++ a.slot.toList) := by simp [inFlight, hposted]
      have hpod := h.whole message (by rw [hflight]; exact List.mem_cons_self)
      have hlist : applied ++ a.inFlight.map QueueMessage.value =
          (applied ++ [message.value]) ++ (rest ++ a.slot.toList).map QueueMessage.value := by
        rw [hflight]; simp
      refine ⟨applied ++ [message.value], ?_, fun m hm => ?_, ?_, ?_⟩
      · rw [applyEvery_concat, h.strips_eq, ← hpod]
        exact happ
      · exact h.whole m (by rw [hflight]; exact List.mem_cons_of_mem _ hm)
      · rw [hrec]
        exact hlist ▸ h.subset
      · rw [hrec]
        exact hlist ▸ h.newest

/-- **What a run keeps** of the received values always includes the newest. -/
theorem run_kept {strips : ChannelStripListModel} {ls : List Action} {st : FeedbackPath}
    (hrun : run (step channelIndex) (start strips) ls = some st) :
    ∃ applied, Kept channelIndex strips ls st applied := by
  refine run_induction (I := fun ls st => ∃ applied, Kept channelIndex strips ls st applied)
    ⟨[], rfl, by simp [inFlight, start], by simp [inFlight, start], by simp [inFlight, start, received]⟩
    (fun ls a l b _ ha hl => ?_) hrun
  obtain ⟨applied, h⟩ := ha
  exact step_kept channelIndex h hl

/-- In a run whose received values are objects no posted call faults. -/
theorem applyUpdate_enabled {strips : ChannelStripListModel} {ls : List Action} {st : FeedbackPath}
    (hrun : run (step channelIndex) (start strips) ls = some st)
    (hobj : ∀ value ∈ received ls, value.isObject = true) (hposted : st.posted ≠ []) :
    ∃ st', step channelIndex st .applyUpdate = some st' := by
  obtain ⟨applied, h⟩ := run_kept channelIndex hrun
  obtain ⟨message, rest, hcons⟩ := List.exists_cons_of_ne_nil hposted
  have hmem : message ∈ st.inFlight := by simp [inFlight, hcons]
  have hvalue : message.value ∈ received ls :=
    h.subset (List.mem_append_right _ (List.mem_map_of_mem hmem))
  simp only [step, hcons, h.whole message hmem,
    ChannelStripListModel.applyUpdate_of_isObject _ _ (hobj _ hvalue), Option.map_some]
  exact ⟨_, rfl⟩

/-! ## Skipping values -/

theorem applyEvery_of_isObject {values : List SpaPod} (h : ∀ value ∈ values, value.isObject = true)
    (strips : ChannelStripListModel) : applyEvery channelIndex values strips =
      some (strips.modifyStrip channelIndex (applyParams (values.flatMap SpaPod.decodedParams))) := by
  induction values generalizing strips with
  | nil => exact congrArg some (strips.modifyStrip_id channelIndex).symm
  | cons value values ih =>
    obtain ⟨hvalue, hvalues⟩ := List.forall_mem_cons.mp h
    rw [applyEvery, List.foldlM_cons, strips.applyUpdate_of_isObject channelIndex hvalue]
    refine (ih hvalues _).trans ?_
    rw [ChannelStripListModel.modifyStrip_modifyStrip, List.flatMap_cons]
    congr 2
    funext s
    exact (applyParams_append _ _ s).symm

end

/-- The parameters that a value names, each with a value of a type the fields accept. -/
def names (value : SpaPod) : List String := value.decodedParams.map Prod.fst

section
variable [CastUndefined]

/-- Two lists of values with the same newest one, all naming the same parameters, leave the same
strip up to the selected loop. -/
theorem applyParams_of_same_newest {vs ws : List SpaPod} (hlast : vs.getLast? = ws.getLast?)
    (hsub : vs ⊆ ws) (hsame : ∀ v ∈ ws, ∀ w ∈ ws, ∀ name, name ∈ names v ↔ name ∈ names w)
    (s : ChannelStripModel) :
    (applyParams (vs.flatMap SpaPod.decodedParams) s).forgetLoop =
      (applyParams (ws.flatMap SpaPod.decodedParams) s).forgetLoop := by
  have hvalue : ∀ name, lastValue name (vs.flatMap SpaPod.decodedParams) =
      lastValue name (ws.flatMap SpaPod.decodedParams) := by
    intro name
    cases hw : ws.getLast? with
    | none =>
      rw [List.getLast?_eq_none_iff.mp hw, List.getLast?_eq_none_iff.mp (hlast.trans hw)]
    | some w =>
      have hmem : w ∈ ws := List.mem_of_getLast? hw
      rw [List.flatMap_def, List.flatMap_def,
        lastValue_flatten_of_same_keys (b := w.decodedParams) (by simp [hlast, hw]),
        lastValue_flatten_of_same_keys (b := w.decodedParams) (by simp [hw])]
      · intro params hparams name
        obtain ⟨v, hv, rfl⟩ := List.mem_map.mp hparams
        exact hsame v hv w hmem name
      · intro params hparams name
        obtain ⟨v, hv, rfl⟩ := List.mem_map.mp hparams
        exact hsame v (hsub hv) w hmem name
  refine ChannelStripModel.forgetLoop_ext (fun p => ?_) ?_
  · by_cases hp : p = .volume
    · rw [hp, get_volume_applyParams, get_volume_applyParams]
    · rw [get_applyParams hp, get_applyParams hp, hvalue]
  · rw [unsent_applyParams, unsent_applyParams]

/-- **Latest wins is transparent.** Once the slot and the posted calls are drained, every strip has,
but for its selected loop, the fields it would have if every received value had been applied. -/
theorem latest_wins (channelIndex : Nat) (strips : ChannelStripListModel) (ls : List Action)
    (st : FeedbackPath) (hrun : run (step channelIndex) (start strips) ls = some st)
    (hslot : st.slot = none) (hposted : st.posted = [])
    (hobj : ∀ value ∈ received ls, value.isObject = true)
    (hsame : ∀ v ∈ received ls, ∀ w ∈ received ls, ∀ name, name ∈ names v ↔ name ∈ names w) :
    ∃ full, applyEvery channelIndex (received ls) strips = some full ∧
      st.strips.channelStrips.map ChannelStripModel.forgetLoop =
        full.channelStrips.map ChannelStripModel.forgetLoop := by
  obtain ⟨applied, h⟩ := run_kept channelIndex hrun
  have hflight : st.inFlight = [] := by rw [inFlight, hslot, hposted]; rfl
  have hlast : applied.getLast? = (received ls).getLast? := by simpa [hflight] using h.newest
  have hsub : applied ⊆ received ls := by simpa [hflight] using h.subset
  refine ⟨_, applyEvery_of_isObject channelIndex hobj strips, ?_⟩
  have happlied := h.strips_eq
  rw [applyEvery_of_isObject channelIndex fun v hv => hobj v (hsub hv)] at happlied
  rw [← Option.some.inj happlied]
  refine ChannelStripListModel.map_modifyStrip_congr strips channelIndex fun s => ?_
  exact applyParams_of_same_newest hlast hsub hsame s

end

/-- A value that names the looper's mix only. -/
def mixValue (mix : Double) : SpaPod :=
  .object [(.params, .struct [.string "Looper:mix", .float mix])]

/-- Of three values in two buffers one is posted. -/
theorem latest_wins_two_buffers :
    ∃ full, @applyEvery .x86 0 [mixValue (.finite 1), mixValue (.finite 2), mixValue (.finite 3)] ⟨[{}]⟩ =
        some full ∧
      [({ looperMix := .finite 3 } : ChannelStripModel)].map ChannelStripModel.forgetLoop =
        full.channelStrips.map ChannelStripModel.forgetLoop := by
  have hreceived : ∀ v ∈ [mixValue (.finite 1), mixValue (.finite 2), mixValue (.finite 3)],
      v.isObject = true ∧ names v = ["Looper:mix"] := by
    simp only [List.forall_mem_cons]
    exact ⟨⟨rfl, rfl⟩, ⟨rfl, rfl⟩, ⟨rfl, rfl⟩, by simp⟩
  exact @latest_wins .x86 0 ⟨[{}]⟩
    [.feedbackProcess [some (.sequence [(.properties, mixValue (.finite 1)),
        (.properties, mixValue (.finite 2))])],
      .feedbackProcess [some (.sequence [(.properties, mixValue (.finite 3))])],
      .updatesToQtThread, .applyUpdate]
    ⟨none, [], ⟨[{ looperMix := .finite 3 }]⟩⟩ rfl rfl rfl (fun v hv => (hreceived v hv).1)
    (fun v hv w hw name => by rw [(hreceived v hv).2, (hreceived w hw).2])

end FeedbackPath

end Kpmx
