import Kpmx.Feedback.Transport
import Kpmx.Spa.Builder
import Mathlib.Algebra.GroupWithZero.Nat

/-!
# `control_process`

The callback of a control stream: it drains the strip's queue into the first data plane of a dequeued
buffer. What the builder answers is not looked at before the pod is used.

* `controlBuilder_eq` : the builder yields `controlSequence` when it fits, else no pod;
* `controlProcess_of_usable` : what a call leaves that gets past the checks;
* `loses_no_update_iff` : when no update is lost.
-/

namespace Kpmx

open Spsc

/-! ## The buffers of a stream -/

/-- A `spa_data`: whether its memory and its chunk are there, and the pod that `spa_pod_from_data`
finds in it. -/
structure SpaData where
  data : Bool
  chunk : Bool
  maxsize : Nat
  pod : Option SpaPod := none

/-- A `pw_buffer` with its data planes, if its `spa_buffer` is there. -/
structure PwBuffer where
  id : Nat
  datas : Option (List SpaData)

/-! ## The callback -/

/-- The builder part: the queue is drained into a sequence of `maxsize` bytes at most. -/
def controlBuilder (maxsize : Nat) (queue : Spsc ControlQueueMessage queueCapacity) :
    Option (SpaPod × Nat) × Spsc ControlQueueMessage queueCapacity :=
  let b := (SpaPodBuilder.init maxsize).pushSequence
  if queue.readAvailable > 0 then
    let b := (((b.control .properties).pushObject).prop .params).pushStruct
    let (updates, queue) := queue.consumeAll
    let b := updates.foldl (fun b update => (appendToStruct update).foldl SpaPodBuilder.primitive b) b
    let b := b.pop.2
    let b := b.pop.2
    (b.pop.1, queue)
  else (b.pop.1, queue)

/-- What a call leaves: the queue, the pod and the size in the chunk if they were published, and
whether the buffer was queued back. -/
structure ControlResult where
  queue : Spsc ControlQueueMessage queueCapacity
  published : Option (SpaPod × Nat)
  queuedBack : Bool

/-- What a call that returns early leaves: the queue as it is, and the buffer with the callback. -/
def returnEarly (queue : Spsc ControlQueueMessage queueCapacity) : ControlResult where
  queue := queue
  published := none
  queuedBack := false

def controlProcess (queue : Spsc ControlQueueMessage queueCapacity) (control : Option PwBuffer) :
    Except Fault ControlResult :=
  match control with
  | none => .ok (returnEarly queue)
  | some control =>
    match control.datas with
    | none => .ok (returnEarly queue)
    | some [] => .ok (returnEarly queue)
    | some (data :: _) =>
      if ¬ data.data ∨ ¬ data.chunk ∨ data.maxsize = 0 then .ok (returnEarly queue)
      else
        match controlBuilder data.maxsize queue with
        -- `SPA_POD_SIZE` adds the header
        | (some (pod, size), queue) =>
          .ok { queue := queue, published := some (pod, 8 + size), queuedBack := true }
        | (none, _) => .error .missingPod

/-! ## What the builder yields -/

/-- The bytes of a message: its name with the final NUL and its value, each with its header. -/
def messageSize (message : ControlQueueMessage) : Nat :=
  SpaPod.roundUp8 (8 + ((cStr message.parameterName).length + 1)) + 16

/-- The bytes of a sequence with all messages. -/
def sequenceSize (messages : List ControlQueueMessage) : Nat :=
  if messages = [] then 16 else 56 + (messages.map messageSize).sum

theorem roundUp8_value (value : ControlValue) : SpaPod.roundUp8 (8 + value.pod.bodySize) = 16 := by
  cases value <;> simp [ControlValue.pod, SpaPod.bodySize, SpaPod.roundUp8]

theorem fieldsSize_append (pods pods' : List SpaPod) :
    SpaPod.fieldsSize (pods ++ pods') = SpaPod.fieldsSize pods + SpaPod.fieldsSize pods' := by
  induction pods with
  | nil => simp [SpaPod.fieldsSize]
  | cons pod pods ih =>
    rw [List.cons_append, SpaPod.fieldsSize, SpaPod.fieldsSize, ih]
    omega

theorem fieldsSize_messages (messages : List ControlQueueMessage) :
    SpaPod.fieldsSize (messages.flatMap appendToStruct) = (messages.map messageSize).sum := by
  induction messages with
  | nil => rfl
  | cons message messages ih =>
    rw [List.flatMap_cons, fieldsSize_append, ih, List.map_cons, List.sum_cons, appendToStruct,
      SpaPod.fieldsSize, SpaPod.fieldsSize, SpaPod.fieldsSize, roundUp8_value]
    rfl

theorem pushSequence_init (maxsize : Nat) : (SpaPodBuilder.init maxsize).pushSequence =
    { size := maxsize, offset := 16, frames := [⟨.sequence, 0, 8, []⟩] } := rfl

open SpaPodBuilder SpaPodFrame in
/-- The frames that are open while the messages are appended. -/
theorem openFrames (maxsize : Nat) :
    (((((SpaPodBuilder.init maxsize).pushSequence).control .properties).pushObject).prop
        .params).pushStruct =
      { size := maxsize, offset := 56, frames := [⟨.struct, 48, 0, []⟩,
          ⟨.object, 24, 24, if 48 ≤ maxsize then [.prop .params] else []⟩,
          ⟨.sequence, 0, 48, if 24 ≤ maxsize then [.control .properties] else []⟩] } := by
  rw [pushSequence_init]
  simp [SpaPodBuilder.control, pushObject, SpaPodBuilder.prop, pushStruct, SpaPodBuilder.push, raw,
    note, grow]

open SpaPodBuilder SpaPodFrame in
theorem pop_openFrames (maxsize : Nat) {size : Nat} (hsize : 8 ∣ size) (items : List FrameItem) :
    (SpaPodBuilder.mk maxsize (56 + size) [⟨.struct, 48, size, items⟩,
        ⟨.object, 24, 24 + size, if 48 ≤ maxsize then [.prop .params] else []⟩,
        ⟨.sequence, 0, 48 + size,
          if 24 ≤ maxsize then [.control .properties] else []⟩]).pop.2.pop.2.pop.1 =
      if 56 + size ≤ maxsize then
        some (.sequence [(.properties, .object [(.params, .struct (FrameItem.fields items))])],
          48 + size)
      else none := by
  have hoffset : 8 ∣ 56 + size := by omega
  rw [pop_eq (b := SpaPodBuilder.mk maxsize (56 + size) _) rfl hoffset]
  simp only [note]
  rw [pop_eq (b := SpaPodBuilder.mk maxsize (56 + size) _) rfl hoffset]
  simp only [note]
  rw [pop_eq rfl hoffset]
  have hstruct : 48 + 8 + size = 56 + size := by omega
  have hobject : 24 + 8 + (24 + size) = 56 + size := by omega
  have hsequence : 0 + 8 + (48 + size) = 56 + size := by omega
  simp only [hstruct, hobject, hsequence]
  split
  · next hfits =>
    rw [if_pos (by omega), if_pos (by omega)]
    rfl
  · rfl

open SpaPodBuilder SpaPodFrame in
/-- **The builder yields the sequence of all messages** when it fits, else no pod. -/
theorem controlBuilder_eq (maxsize : Nat) (queue : Spsc ControlQueueMessage queueCapacity) :
    controlBuilder maxsize queue =
      (if sequenceSize queue.items ≤ maxsize then
          some ((controlSequence queue).1, sequenceSize queue.items - 8)
        else none, (controlSequence queue).2) := by
  unfold controlBuilder controlSequence
  split
  · next havailable =>
    have hne : queue.items ≠ [] := by
      intro hnil
      rw [readAvailable, hnil] at havailable
      exact absurd havailable (by simp)
    have hdvd := dvd_fieldsSize (queue.items.flatMap appendToStruct)
    have hsize : sequenceSize queue.items =
        56 + SpaPod.fieldsSize (queue.items.flatMap appendToStruct) := by
      rw [sequenceSize, if_neg hne, fieldsSize_messages]
    simp only [consumeAll, openFrames, ← List.foldl_flatMap]
    rw [foldl_primitive rfl (by simp)]
    simp only [List.map_cons, List.map_nil, grow, Nat.zero_add, List.nil_append]
    rw [pop_openFrames maxsize hdvd, hsize]
    split
    · next hfits =>
      rw [landed_of_fits hfits, FrameItem.fields_map_pod]
      simp only [paramsStruct, Prod.mk.injEq, Option.some.injEq, and_true, true_and]
      omega
    · rfl
  · next havailable =>
    have hnil : queue.items = [] := by
      rw [readAvailable] at havailable
      exact List.length_eq_zero_iff.mp (by omega)
    simp only [pushSequence_init, sequenceSize, hnil, if_true]
    rw [pop_eq rfl (by simp)]
    rfl

/-! ## When no update is lost -/

/-- The first data plane of a buffer that passes the checks of the callback. -/
def usableData (control : Option PwBuffer) : Option SpaData :=
  match control.bind PwBuffer.datas with
  | some (data :: _) => if ¬ data.data ∨ ¬ data.chunk ∨ data.maxsize = 0 then none else some data
  | _ => none

theorem controlProcess_of_unusable {control : Option PwBuffer} (h : usableData control = none)
    (queue : Spsc ControlQueueMessage queueCapacity) :
    controlProcess queue control = .ok (returnEarly queue) := by
  unfold usableData at h
  unfold controlProcess
  cases control with
  | none => rfl
  | some control =>
    simp only [Option.bind_some] at h
    match hdatas : control.datas with
    | none => simp only [hdatas]
    | some [] => simp only [hdatas]
    | some (data :: datas) =>
      simp only [hdatas] at h ⊢
      split at h
      · next hchecks => rw [if_pos hchecks]
      · cases h

theorem controlProcess_of_usable {control : Option PwBuffer} {data : SpaData}
    (h : usableData control = some data) (queue : Spsc ControlQueueMessage queueCapacity) :
    controlProcess queue control =
      if sequenceSize queue.items ≤ data.maxsize then
        .ok { queue := (controlSequence queue).2
              published := some ((controlSequence queue).1, 8 + (sequenceSize queue.items - 8))
              queuedBack := true }
      else .error .missingPod := by
  unfold usableData at h
  unfold controlProcess
  cases control with
  | none => cases h
  | some control =>
    simp only [Option.bind_some] at h
    match hdatas : control.datas with
    | none => simp only [hdatas] at h; cases h
    | some [] => simp only [hdatas] at h; cases h
    | some (data' :: datas) =>
      simp only [hdatas] at h ⊢
      split at h
      · cases h
      · next hchecks =>
        obtain rfl := Option.some.inj h
        rw [if_neg hchecks, controlBuilder_eq]
        by_cases hfits : sequenceSize queue.items ≤ data'.maxsize
        · rw [if_pos hfits, if_pos hfits]
        · rw [if_neg hfits, if_neg hfits]

/-- The parameters in the Properties controls of a sequence, as `parse_spa_prop_params` reads them. -/
def SpaPod.sequenceParams : SpaPod → List DecodedParam
  | .sequence controls => (propertiesOf controls).flatMap SpaPod.decodedParams
  | _ => []

theorem sequenceParams_controlSequence (queue : Spsc ControlQueueMessage queueCapacity) :
    (controlSequence queue).1.sequenceParams = queue.items.map ControlQueueMessage.decoded := by
  unfold controlSequence
  split
  · simp only [SpaPod.sequenceParams, propertiesOf, List.filterMap_cons, if_true,
      List.filterMap_nil, List.flatMap_cons, List.flatMap_nil, List.append_nil, SpaPod.decodedParams,
      paramsStruct, SpaPod.structParams, consumeAll, extractParams_appendToStruct]
  · next havailable =>
    have hnil : queue.items = [] := by
      rw [readAvailable] at havailable
      exact List.length_eq_zero_iff.mp (by omega)
    rw [hnil]
    rfl

/-- The call uses no missing pod, publishes no more than the buffer holds, and every message that it
takes from the queue is in the published sequence. -/
structure LosesNoUpdate (queue : Spsc ControlQueueMessage queueCapacity) (control : Option PwBuffer)
    (result : ControlResult) : Prop where
  returns : controlProcess queue control = .ok result
  size : ∀ pod size, result.published = some (pod, size) →
    ∃ data, usableData control = some data ∧ size ≤ data.maxsize
  messages : ∃ taken, queue.items = taken ++ result.queue.items ∧
    ((result.published.map fun published => published.1.sequenceParams).getD []) =
      taken.map ControlQueueMessage.decoded

/-- **No update is lost** exactly when the sequence of all queued messages fits in the buffer. -/
theorem loses_no_update_iff (queue : Spsc ControlQueueMessage queueCapacity)
    (control : Option PwBuffer) : (∃ result, LosesNoUpdate queue control result) ↔
      ∀ data, usableData control = some data → sequenceSize queue.items ≤ data.maxsize := by
  constructor
  · rintro ⟨result, h⟩ data hdata
    by_contra hfits
    have hreturns := h.returns
    rw [controlProcess_of_usable hdata, if_neg hfits] at hreturns
    cases hreturns
  · intro hfits
    cases hdata : usableData control with
    | none =>
      exact ⟨returnEarly queue, controlProcess_of_unusable hdata queue,
        fun _ _ h => absurd h (by simp [returnEarly]), [], rfl, rfl⟩
    | some data =>
      have hreturns := controlProcess_of_usable hdata queue
      have hfits := hfits data hdata
      rw [if_pos hfits] at hreturns
      refine ⟨_, hreturns, fun pod size h => ⟨data, hdata, ?_⟩, queue.items, ?_, ?_⟩
      · obtain ⟨-, rfl⟩ := Prod.mk.inj (Option.some.inj h)
        have hheader : 8 ≤ sequenceSize queue.items := by
          unfold sequenceSize
          split <;> omega
        omega
      · rw [controlSequence_snd_items, List.append_nil]
      · exact sequenceParams_controlSequence queue

/-- One message of 40 bytes, and room for eight bytes of it. -/
theorem small_buffer_faults : ¬ ∀ (queue : Spsc ControlQueueMessage queueCapacity)
    (control : Option PwBuffer), ∃ result, LosesNoUpdate queue control result := by
  intro h
  let queue : Spsc ControlQueueMessage queueCapacity :=
    ⟨[{ parameterName := "Looper:mix", value := .double (.finite 70) }], by decide⟩
  obtain ⟨result, hresult⟩ := h queue
    (some { id := 0, datas := some [{ data := true, chunk := true, maxsize := 64 }] })
  have hreturns := hresult.returns
  rw [controlProcess_of_usable rfl, if_neg (by decide)] at hreturns
  cases hreturns

end Kpmx
