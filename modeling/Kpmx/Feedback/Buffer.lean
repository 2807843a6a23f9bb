import Kpmx.Feedback.Transport
import Kpmx.Spa.Bytes
import Mathlib.Data.List.Forall2

/-!
# The bytes of a feedback buffer

`feedback_process` on the bytes of a buffer that another process filled. It inspects the pod that
`spa_pod_from_data` finds without asking whether there is one, and copies a value of any size into the
message.

* `rebuilt_of_written` : what the Qt thread rebuilds from a message is the value that was copied;
* `transports_exactly_iff` : the sizes with which all goes well;
* `feedbackProcess_shows` : the same on pods as values.
-/

namespace Kpmx

namespace Raw

/-- The first data plane of a buffer with its chunk: `maxsize` bytes of memory at least. -/
structure FeedbackData where
  data : List UInt8
  maxsize : Nat
  offset : Nat
  size : Nat
  allocated : maxsize ≤ data.length

/-- A `queue_message`. -/
structure QueueMessage where
  buffer : List UInt8
  size : Nat
  buffer_length : buffer.length = maxValueSize

/-- `memcpy` to the beginning of an array. -/
def memcpy (dest src : List UInt8) (size : Nat) : List UInt8 :=
  src.take size ++ dest.drop (src.take size).length

theorem length_memcpy {dest : List UInt8} {size : Nat} (h : size ≤ dest.length) (src : List UInt8) :
    (memcpy dest src size).length = dest.length := by
  rw [memcpy, List.length_append, List.length_drop, List.length_take]
  omega

theorem take_memcpy {src : List UInt8} {size : Nat} (h : size ≤ src.length) (dest : List UInt8) :
    (memcpy dest src size).take size = src.take size := by
  have hlength : (src.take size).length = size := by rw [List.length_take, Nat.min_eq_left h]
  rw [memcpy, List.take_append_of_le_length (by rw [hlength]), List.take_take, Nat.min_self]

/-- The array of a new message. -/
def emptyBuffer : List UInt8 := List.replicate maxValueSize 0

theorem length_emptyBuffer : emptyBuffer.length = maxValueSize := List.length_replicate

section
variable (spa : SpaPodIter)

/-- `pod_control_end`: the offset of the value of the last Properties control. -/
def lastProperties (controls : List (SpaControlType × Nat)) : Option Nat :=
  controls.foldl (fun acc control => if control.1 = .properties then some control.2 else acc) none

/-- The part of `feedback_process` that inspects the pod: the message written, if any. -/
def lastMessage (pod : List UInt8) : Except Fault (Option QueueMessage) :=
  if spa.isSequence pod then
    match lastProperties (spa.controls pod) with
    | some value =>
      let size := spa.podSize (pod.drop value)
      if h : size ≤ maxValueSize then
        .ok (some {
          buffer := memcpy emptyBuffer (pod.drop value) size
          size := size
          buffer_length := (length_memcpy (h.trans_eq length_emptyBuffer.symm) _).trans
            length_emptyBuffer })
      else .error .overflow
    | none => .ok none
  else .ok none

/-- `feedback_process` on the data planes of a dequeued buffer. -/
def feedbackProcess (datas : List FeedbackData) : Except Fault (Option QueueMessage) :=
  match datas with
  | [] => .ok none
  | data :: _ =>
    match spa.spaPodFromData data.data data.maxsize data.offset data.size with
    -- `spa_pod_is_sequence` reads the type of a pod that is not there
    | none => .error .missingPod
    | some pod => lastMessage spa pod

/-- What `updates_to_qt_thread` hands to `apply_update`: the pod that it rebuilds from the array and the
size. -/
def QueueMessage.pod (message : QueueMessage) : Option (List UInt8) :=
  (spa.spaPodFromData message.buffer maxValueSize 0 message.size).map spa.podBytes

/-! ## The values in a buffer -/

/-- The offsets of the values of the Properties controls, in order. -/
def propertiesOf (controls : List (SpaControlType × Nat)) : List Nat :=
  controls.filterMap fun control => if control.1 = .properties then some control.2 else none

/-- The Properties values of a pod, in order, if it is a sequence. -/
def podValues (pod : List UInt8) : List (List UInt8) :=
  if spa.isSequence pod then
    (propertiesOf (spa.controls pod)).map fun value => spa.podBytes (pod.drop value)
  else []

/-- The Properties values of the sequence in a buffer, if there is one. -/
def bufferValues (datas : List FeedbackData) : List (List UInt8) :=
  match datas with
  | [] => []
  | data :: _ =>
    match spa.spaPodFromData data.data data.maxsize data.offset data.size with
    | none => []
    | some pod => podValues spa pod

omit spa in
theorem lastProperties_eq (controls : List (SpaControlType × Nat)) :
    lastProperties controls = (propertiesOf controls).getLast? := by
  rw [propertiesOf, ← LastWrite.foldl_or_eq_getLast?, lastProperties]
  congr 1
  funext cell control
  split <;> rfl

omit spa in
theorem mem_of_lastProperties {controls : List (SpaControlType × Nat)} {value : Nat}
    (h : lastProperties controls = some value) : (.properties, value) ∈ controls := by
  rw [lastProperties_eq] at h
  obtain ⟨⟨type, value'⟩, hmem, hvalue⟩ := List.mem_filterMap.mp (List.mem_of_getLast? h)
  split at hvalue
  · next htype =>
    obtain rfl := Option.some.inj hvalue
    obtain rfl : type = .properties := htype
    exact hmem
  · cases hvalue

theorem getLast?_podValues {pod : List UInt8} (h : spa.isSequence pod = true) :
    (podValues spa pod).getLast? =
      (lastProperties (spa.controls pod)).map fun value => spa.podBytes (pod.drop value) := by
  rw [podValues, if_pos h, lastProperties_eq, List.getLast?_map]

/-- **What is copied whole is rebuilt**: the pod in the array is the value. -/
theorem rebuilt_of_written {value : List UInt8} (hvalue : spa.podSize value ≤ value.length)
    (message : QueueMessage) (hsize : message.size = spa.podSize value)
    (hfits : message.size ≤ maxValueSize)
    (hbuffer : message.buffer = memcpy emptyBuffer value (spa.podSize value)) :
    message.pod spa = some (spa.podBytes value) := by
  have htake : message.buffer.take (spa.podSize value) = value.take (spa.podSize value) := by
    rw [hbuffer, take_memcpy hvalue]
  have hheader : message.buffer.take 8 = value.take 8 := by
    have htake8 := congrArg (List.take 8) htake
    rwa [List.take_take, List.take_take, Nat.min_eq_left (spa.header_le value)] at htake8
  have hpod := spa.podSize_congr hheader
  have hfrom : spa.spaPodFromData message.buffer maxValueSize 0 message.size = some message.buffer := by
    refine spa.spaPodFromData_eq_some_iff.mpr ⟨?_, ?_, ?_, rfl⟩
    · exact hsize ▸ spa.header_le value
    · rwa [Nat.zero_add]
    · rw [List.drop_zero, hpod, hsize]
  rw [QueueMessage.pod, hfrom, Option.map_some, SpaPodIter.podBytes, hpod, htake]
  rfl

theorem lastMessage_spec {pod : List UInt8} (hpod : spa.podSize pod ≤ pod.length) :
    match (podValues spa pod).getLast? with
    | none => lastMessage spa pod = .ok none
    | some value =>
      if value.length ≤ maxValueSize then
        ∃ message : QueueMessage, lastMessage spa pod = .ok (some message) ∧
          message.size = value.length ∧ message.pod spa = some value
      else lastMessage spa pod = .error .overflow := by
  cases hsequence : spa.isSequence pod with
  | false => simp [podValues, lastMessage, hsequence]
  | true =>
    rw [getLast?_podValues spa hsequence]
    cases hlast : lastProperties (spa.controls pod) with
    | none => simp [lastMessage, hsequence, hlast]
    | some value =>
      have hvalue := spa.podSize_value_le_length (mem_of_lastProperties hlast) hpod
      have hlength : (spa.podBytes (pod.drop value)).length = spa.podSize (pod.drop value) := by
        rw [SpaPodIter.podBytes, List.length_take, Nat.min_eq_left hvalue]
      simp only [Option.map_some, hlength, lastMessage, hsequence, if_true, hlast]
      by_cases hfits : spa.podSize (pod.drop value) ≤ maxValueSize
      · rw [if_pos hfits, dif_pos hfits]
        exact ⟨_, rfl, rfl, rebuilt_of_written spa hvalue _ rfl hfits rfl⟩
      · rw [if_neg hfits, dif_neg hfits]

/-- No missing pod is inspected and nothing is copied past the array; a message is written exactly when
the buffer has a Properties value, and the last of them is rebuilt from it. -/
structure TransportsExactly (datas : List FeedbackData) (written : Option QueueMessage) : Prop where
  returns : feedbackProcess spa datas = .ok written
  writes : written.isSome = true ↔ bufferValues spa datas ≠ []
  size : ∀ message ∈ written, message.size ≤ maxValueSize
  rebuilt : ∀ message ∈ written, message.pod spa = (bufferValues spa datas).getLast?

/-- The chunk is in the data and begins with a pod that fits in it, and the last Properties value of the
buffer, if there is one, fits in the array. -/
structure Fits (datas : List FeedbackData) : Prop where
  chunk : ∀ data ∈ datas.head?, 8 ≤ data.size ∧ data.offset + data.size ≤ data.maxsize ∧
    spa.podSize (data.data.drop data.offset) ≤ data.size
  value : ∀ value ∈ (bufferValues spa datas).getLast?, value.length ≤ maxValueSize

/-- **The transport is safe and exact** when the sizes fit, and only then. -/
theorem transports_exactly_iff (datas : List FeedbackData) :
    (∃ written, TransportsExactly spa datas written) ↔ Fits spa datas := by
  cases datas with
  | nil =>
    have hnil : TransportsExactly spa [] none := ⟨rfl, by simp [bufferValues], by simp, by simp⟩
    exact iff_of_true ⟨none, hnil⟩ ⟨by simp, by simp [bufferValues]⟩
  | cons data datas =>
    cases hfrom : spa.spaPodFromData data.data data.maxsize data.offset data.size with
    | none =>
      refine iff_of_false ?_ ?_
      · rintro ⟨written, h⟩
        have hreturns := h.returns
        simp only [feedbackProcess, hfrom] at hreturns
        cases hreturns
      · intro h
        obtain ⟨hsize, hpart, hpod⟩ := h.chunk data rfl
        rw [spa.spaPodFromData_eq_some_iff.mpr ⟨hsize, hpart, hpod, rfl⟩] at hfrom
        cases hfrom
    | some pod =>
      obtain ⟨hsize, hpart, hpod, rfl⟩ := spa.spaPodFromData_eq_some_iff.mp hfrom
      have hspec := lastMessage_spec spa (spa.podSize_le_length hfrom data.allocated)
      have hvalues : bufferValues spa (data :: datas) = podValues spa (data.data.drop data.offset) := by
        simp only [bufferValues, hfrom]
      have hprocess : feedbackProcess spa (data :: datas) =
          lastMessage spa (data.data.drop data.offset) := by
        simp only [feedbackProcess, hfrom]
      have hfits : ∀ data' ∈ (data :: datas).head?, 8 ≤ data'.size ∧
          data'.offset + data'.size ≤ data'.maxsize ∧
            spa.podSize (data'.data.drop data'.offset) ≤ data'.size := by
        intro data' hdata'
        obtain rfl := Option.some.inj hdata'
        exact ⟨hsize, hpart, hpod⟩
      cases hlast : (podValues spa (data.data.drop data.offset)).getLast? with
      | none =>
        rw [hlast] at hspec
        refine iff_of_true ⟨none, hprocess.trans hspec, ?_, by simp, by simp⟩ ⟨hfits, ?_⟩
        · simpa [hvalues] using List.getLast?_eq_none_iff.mp hlast
        · simp [hvalues, hlast]
      | some value =>
        rw [hlast] at hspec
        have hne : bufferValues spa (data :: datas) ≠ [] := by
          intro hnil
          rw [← hvalues, hnil] at hlast
          cases hlast
        by_cases hvalue : value.length ≤ maxValueSize
        · simp only [if_pos hvalue] at hspec
          obtain ⟨message, hmessage, hmessageSize, hrebuilt⟩ := hspec
          refine iff_of_true ⟨some message, hprocess.trans hmessage, ?_, ?_, ?_⟩ ⟨hfits, ?_⟩
          · simp [hne]
          · intro m hm
            obtain rfl := Option.some.inj hm
            rwa [hmessageSize]
          · intro m hm
            obtain rfl := Option.some.inj hm
            rw [hrebuilt, hvalues, hlast]
          · intro v hv
            rw [hvalues, hlast] at hv
            obtain rfl := Option.some.inj hv
            exact hvalue
        · simp only [if_neg hvalue] at hspec
          refine iff_of_false ?_ fun h => hvalue (h.value value (by rw [hvalues, hlast]; rfl))
          rintro ⟨written, h⟩
          have hreturns := h.returns
          rw [hprocess, hspec] at hreturns
          cases hreturns

/-! ## Pods as values -/

/-- The bytes of a pod show a pod as a value: controls of the same types with values of the same sizes, if
it is a sequence. -/
inductive Shows (pod : List UInt8) : SpaPod → Prop
  | sequence (controls : List (SpaControlType × SpaPod)) : spa.isSequence pod = true →
      List.Forall₂ (fun control shown => control.1 = shown.1 ∧
        shown.2.size = spa.podSize (pod.drop control.2)) (spa.controls pod) controls →
      Shows pod (.sequence controls)
  | other (shown : SpaPod) : spa.isSequence pod = false →
      (∀ controls, shown ≠ .sequence controls) → Shows pod shown

theorem rel_lastProperties {pod : List UInt8} {controls : List (SpaControlType × Nat)}
    {shown : List (SpaControlType × SpaPod)} (h : List.Forall₂ (fun control shown =>
      control.1 = shown.1 ∧ shown.2.size = spa.podSize (pod.drop control.2)) controls shown) :
    Option.Rel (fun value shown => shown.size = spa.podSize (pod.drop value))
      (lastProperties controls) (Kpmx.lastProperties shown) := by
  unfold lastProperties Kpmx.lastProperties
  suffices hfold : ∀ cell cell', Option.Rel (fun value (shown : SpaPod) =>
      shown.size = spa.podSize (pod.drop value)) cell cell' → Option.Rel (fun value shown =>
        shown.size = spa.podSize (pod.drop value))
      (controls.foldl
        (fun acc control => if control.1 = .properties then some control.2 else acc) cell)
      (shown.foldl
        (fun acc control => if control.1 = .properties then some control.2 else acc) cell') from
    hfold none none .none
  induction h with
  | nil => exact fun _ _ hcell => hcell
  | @cons control shown _ _ hhead _ ih =>
    intro cell cell' hcell
    obtain ⟨htype, hsize⟩ := hhead
    simp only [List.foldl_cons]
    refine ih _ _ ?_
    by_cases hproperties : control.1 = .properties
    · rw [if_pos hproperties, if_pos (htype ▸ hproperties)]
      exact .some hsize
    · rw [if_neg hproperties, if_neg (htype ▸ hproperties)]
      exact hcell

/-- What was written, without the bytes. -/
def writtenSize (written : Except Fault (Option QueueMessage)) : Except Fault (Option Nat) :=
  written.map (Option.map QueueMessage.size)

theorem lastMessage_shows {pod : List UInt8} {shown : SpaPod} (h : Shows spa pod shown)
    (rest : List (Option SpaPod)) : writtenSize (lastMessage spa pod) =
      (Kpmx.feedbackProcess (some shown :: rest)).map (Option.map Kpmx.QueueMessage.size) := by
  cases h with
  | sequence controls hsequence hcontrols =>
    have hlast := rel_lastProperties spa hcontrols
    simp only [lastMessage, hsequence, if_true, Kpmx.feedbackProcess]
    revert hlast
    cases lastProperties (spa.controls pod) with
    | none =>
      intro hlast
      cases hshown : Kpmx.lastProperties controls with
      | none => rfl
      | some value => rw [hshown] at hlast; cases hlast
    | some value =>
      intro hlast
      cases hshown : Kpmx.lastProperties controls with
      | none => rw [hshown] at hlast; cases hlast
      | some shown =>
        rw [hshown] at hlast
        obtain ⟨hsize⟩ := hlast
        simp only [hsize]
        by_cases hfits : spa.podSize (pod.drop value) ≤ maxValueSize
        · rw [dif_pos hfits, if_pos hfits]
          rfl
        · rw [dif_neg hfits, if_neg hfits]
          rfl
  | other _ hsequence hshown =>
    rw [lastMessage, hsequence]
    cases shown with
    | sequence controls => exact absurd rfl (hshown controls)
    | _ => rfl

/-- **The bytes and the values agree**: the same fault, or a message of the same size, or none. -/
theorem feedbackProcess_shows {datas : List FeedbackData} {shown : List (Option SpaPod)}
    (h : List.Forall₂ (fun data shown => Option.Rel (Shows spa)
      (spa.spaPodFromData data.data data.maxsize data.offset data.size) shown) datas shown) :
    writtenSize (feedbackProcess spa datas) =
      (Kpmx.feedbackProcess shown).map (Option.map Kpmx.QueueMessage.size) := by
  cases h with
  | nil => rfl
  | @cons data shown datas rest hfirst _ =>
    rw [feedbackProcess]
    revert hfirst
    cases spa.spaPodFromData data.data data.maxsize data.offset data.size with
    | none =>
      intro hfirst
      cases hfirst
      rfl
    | some pod =>
      intro hfirst
      cases hfirst with
      | some hshows => exact lastMessage_shows spa hshows rest

end

/-- A sequence with two Properties controls, the `int`s 1 and 2, after eight bytes of something else. -/
def twoValues : FeedbackData where
  data := List.replicate 8 0 ++
    [56, 0, 0, 0, 16, 0, 0, 0, 0, 0, 0, 0, 0, 0, 0, 0,
      0, 0, 0, 0, 1, 0, 0, 0, 4, 0, 0, 0, 4, 0, 0, 0, 1, 0, 0, 0, 0, 0, 0, 0,
      0, 0, 0, 0, 1, 0, 0, 0, 4, 0, 0, 0, 4, 0, 0, 0, 2, 0, 0, 0, 0, 0, 0, 0]
  maxsize := 72
  offset := 8
  size := 64
  allocated := by decide

/-- The second value arrives. -/
theorem transports_exactly_two_values : ∃ message,
    TransportsExactly .littleEndian [twoValues] (some message) ∧
      message.pod .littleEndian = some [4, 0, 0, 0, 4, 0, 0, 0, 2, 0, 0, 0] := by
  have hvalues : bufferValues .littleEndian [twoValues] =
      [[4, 0, 0, 0, 4, 0, 0, 0, 1, 0, 0, 0], [4, 0, 0, 0, 4, 0, 0, 0, 2, 0, 0, 0]] := by
    decide +kernel
  have hfits : Fits .littleEndian [twoValues] := by
    refine ⟨fun data hdata => ?_, fun value hvalue => ?_⟩
    · obtain rfl := Option.some.inj hdata
      decide +kernel
    · rw [hvalues] at hvalue
      obtain rfl := Option.some.inj hvalue
      decide
  obtain ⟨written, h⟩ := (transports_exactly_iff .littleEndian [twoValues]).mpr hfits
  obtain ⟨message, rfl⟩ := Option.isSome_iff_exists.mp (h.writes.mpr (by rw [hvalues]; simp))
  refine ⟨message, h, ?_⟩
  rw [h.rebuilt message rfl, hvalues]
  rfl

/-- An empty chunk in a buffer of 64 bytes. -/
theorem empty_chunk_faults : ¬ ∀ (spa : SpaPodIter) (datas : List FeedbackData),
    ∃ written, TransportsExactly spa datas written := by
  intro h
  obtain ⟨written, hwritten⟩ := h .littleEndian
    [{ data := List.replicate 64 0, maxsize := 64, offset := 0, size := 0, allocated := by simp }]
  have hreturns := hwritten.returns
  cases hreturns

end Raw

end Kpmx
