import Kpmx.Spa.Pod

/-!
# Pods as bytes

A pod that arrives in a buffer is read in place. `SpaPodIter` are the inline functions that read it, with
what is documented of them; a pod is the bytes that begin with it, however many follow.

* `spaPodFromData_eq_some_iff` : when a part of a buffer begins with a pod that fits in it;
* `SpaPodIter.littleEndian` : the functions on a little-endian machine.
-/

namespace Kpmx

/-- What the headers read from the bytes of a pod: `SPA_POD_SIZE`, `spa_pod_is_sequence`, and the controls
that `SPA_POD_SEQUENCE_FOREACH` visits, each with its type and the offset of its value. The size is read
from the header, which it counts; the loop visits only controls that end inside the sequence. -/
structure SpaPodIter where
  podSize : List UInt8 → Nat
  isSequence : List UInt8 → Bool
  controls : List UInt8 → List (SpaControlType × Nat)
  header_le : ∀ bytes, 8 ≤ podSize bytes
  podSize_take : ∀ bytes, podSize (bytes.take 8) = podSize bytes
  inside : ∀ bytes control, control ∈ controls bytes →
    control.2 + podSize (bytes.drop control.2) ≤ podSize bytes

namespace SpaPodIter

variable (spa : SpaPodIter)

/-- The bytes of a pod, without what follows. -/
def podBytes (bytes : List UInt8) : List UInt8 := bytes.take (spa.podSize bytes)

theorem podSize_congr {bytes bytes' : List UInt8} (h : bytes.take 8 = bytes'.take 8) :
    spa.podSize bytes = spa.podSize bytes' := by
  rw [← spa.podSize_take bytes, h, spa.podSize_take bytes']

/-- `spa_pod_from_data`: the bytes from the pod on, unless the offset and the size reach past the end or
the pod does not fit in the size. -/
def spaPodFromData (data : List UInt8) (maxsize offset size : Nat) : Option (List UInt8) :=
  if size < 8 ∨ offset + size > maxsize then none
  else if spa.podSize (data.drop offset) > size then none
  else some (data.drop offset)

theorem spaPodFromData_eq_some_iff {data pod : List UInt8} {maxsize offset size : Nat} :
    spa.spaPodFromData data maxsize offset size = some pod ↔
      8 ≤ size ∧ offset + size ≤ maxsize ∧ spa.podSize (data.drop offset) ≤ size ∧
        pod = data.drop offset := by
  unfold spaPodFromData
  by_cases hpart : size < 8 ∨ offset + size > maxsize
  · rw [if_pos hpart]
    exact iff_of_false (fun h => by cases h) (by omega)
  · rw [if_neg hpart]
    by_cases hpod : spa.podSize (data.drop offset) > size
    · rw [if_pos hpod]
      exact iff_of_false (fun h => by cases h) (by omega)
    · rw [if_neg hpod, Option.some.injEq]
      constructor
      · rintro rfl
        exact ⟨by omega, by omega, by omega, rfl⟩
      · exact fun h => h.2.2.2.symm

theorem podSize_le_length {data pod : List UInt8} {maxsize offset size : Nat}
    (h : spa.spaPodFromData data maxsize offset size = some pod) (hdata : maxsize ≤ data.length) :
    spa.podSize pod ≤ pod.length := by
  obtain ⟨-, hpart, hpod, rfl⟩ := spa.spaPodFromData_eq_some_iff.mp h
  rw [List.length_drop]
  omega

theorem podSize_value_le_length {pod : List UInt8} {control : SpaControlType × Nat}
    (h : control ∈ spa.controls pod) (hpod : spa.podSize pod ≤ pod.length) :
    spa.podSize (pod.drop control.2) ≤ (pod.drop control.2).length := by
  have hinside := spa.inside pod control h
  rw [List.length_drop]
  omega

end SpaPodIter

/-! ## The layout -/

/-- A `uint32_t` in little-endian order. -/
def u32 (bytes : List UInt8) : Nat := (bytes.take 4).foldr (fun byte n => byte.toNat + 256 * n) 0

theorem u32_take {n : Nat} (h : 4 ≤ n) (bytes : List UInt8) : u32 (bytes.take n) = u32 bytes := by
  rw [u32, u32, List.take_take, Nat.min_eq_left h]

/-- `SPA_TYPE_Sequence`. -/
def sequenceType : Nat := 16

def SpaControlType.ofNat : Nat → SpaControlType
  | 1 => .properties
  | n => .other n

/-- The controls from an offset on that end before another one. A control is an offset in time, a type and
a value, and the next one starts at a multiple of eight bytes. -/
def controlsFrom (bytes : List UInt8) (limit : Nat) : Nat → Nat → List (SpaControlType × Nat)
  | 0, _ => []
  | fuel + 1, start =>
    let valueSize := u32 (bytes.drop (start + 8))
    if start + 16 + valueSize ≤ limit then
      (.ofNat (u32 (bytes.drop (start + 4))), start + 8) ::
        controlsFrom bytes limit fuel (start + SpaPod.roundUp8 (16 + valueSize))
    else []

/-- The loop ends by itself: more fuel than there are bytes left changes nothing. -/
theorem controlsFrom_of_le (bytes : List UInt8) {limit fuel start : Nat} (h : limit ≤ start + fuel)
    (more : Nat) :
    controlsFrom bytes limit (fuel + more) start = controlsFrom bytes limit fuel start := by
  induction fuel generalizing start with
  | zero =>
    cases more with
    | zero => rfl
    | succ more =>
      rw [Nat.zero_add, controlsFrom]
      exact if_neg (by omega)
  | succ fuel ih =>
    have hnext : limit ≤ start + SpaPod.roundUp8 (16 + u32 (bytes.drop (start + 8))) + fuel := by
      unfold SpaPod.roundUp8
      omega
    rw [Nat.add_right_comm, controlsFrom, controlsFrom]
    simp only [ih hnext]

theorem controlsFrom_inside {bytes : List UInt8} {limit fuel start : Nat}
    {control : SpaControlType × Nat} (h : control ∈ controlsFrom bytes limit fuel start) :
    control.2 + (8 + u32 (bytes.drop control.2)) ≤ limit := by
  induction fuel generalizing start with
  | zero => cases h
  | succ fuel ih =>
    rw [controlsFrom] at h
    split at h
    · next hinside =>
      rcases List.mem_cons.mp h with rfl | h
      · simp only
        omega
      · exact ih h
    · cases h

/-- The functions of the headers. A sequence has a body of eight bytes before its first control; every
control has sixteen bytes at least, so the size of the pod is fuel enough. -/
def SpaPodIter.littleEndian : SpaPodIter where
  podSize := fun bytes => 8 + u32 bytes
  isSequence := fun bytes => u32 (bytes.drop 4) = sequenceType ∧ 8 ≤ u32 bytes
  controls := fun bytes => controlsFrom bytes (8 + u32 bytes) (8 + u32 bytes) 16
  header_le := fun _ => Nat.le_add_right 8 _
  podSize_take := fun bytes => congrArg (8 + ·) (u32_take (by decide) bytes)
  inside := fun _ _ => controlsFrom_inside

end Kpmx
