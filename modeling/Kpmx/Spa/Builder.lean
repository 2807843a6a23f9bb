import Kpmx.Spa.Pod

/-!
# The pod builder

The builder writes pods one after the other into a buffer of a fixed size. A write past the end is
dropped, but counted in the offset and in the size of every open frame; popping a frame yields no pod
when the frame reaches past the end. Sizes are counted without a bound.

* `foldl_primitive` : what a list of pods adds to the open frames;
* `pop_eq` : popping the innermost frame.
-/

namespace Kpmx

inductive FrameType where
  | struct
  | object
  | sequence
  deriving DecidableEq

/-- What is written into a frame: the key of a property or the type of a control, whose value comes
next, or a pod. -/
inductive FrameItem where
  | prop (key : SpaProp)
  | control (type : SpaControlType)
  | pod (value : SpaPod)

/-- A `spa_pod_frame` with what was written into it and not dropped. -/
structure SpaPodFrame where
  type : FrameType
  offset : Nat
  size : Nat
  items : List FrameItem

/-- A `spa_pod_builder`; the innermost frame comes first. -/
structure SpaPodBuilder where
  size : Nat
  offset : Nat
  frames : List SpaPodFrame

namespace FrameItem

def fields : List FrameItem → List SpaPod
  | [] => []
  | .pod value :: items => value :: fields items
  | _ :: items => fields items

def props : List FrameItem → List (SpaProp × SpaPod)
  | .prop key :: .pod value :: items => (key, value) :: props items
  | _ :: items => props items
  | [] => []

def controls : List FrameItem → List (SpaControlType × SpaPod)
  | .control type :: .pod value :: items => (type, value) :: controls items
  | _ :: items => controls items
  | [] => []

@[simp] theorem fields_map_pod (values : List SpaPod) : fields (values.map FrameItem.pod) = values := by
  induction values with
  | nil => rfl
  | cons value values ih => rw [List.map_cons, fields, ih]

end FrameItem

namespace SpaPodFrame

/-- The pod that a frame is the frame of. -/
def pod (f : SpaPodFrame) : SpaPod :=
  match f.type with
  | .struct => .struct (FrameItem.fields f.items)
  | .object => .object (FrameItem.props f.items)
  | .sequence => .sequence (FrameItem.controls f.items)

def grow (f : SpaPodFrame) (n : Nat) : SpaPodFrame := { f with size := f.size + n }

/-- Items written into the innermost frame. -/
def note (items : List FrameItem) : List SpaPodFrame → List SpaPodFrame
  | [] => []
  | f :: frames => { f with items := f.items ++ items } :: frames

theorem grow_grow (f : SpaPodFrame) (m n : Nat) : (f.grow m).grow n = f.grow (m + n) := by
  simp [grow, Nat.add_assoc]

theorem map_grow_grow (frames : List SpaPodFrame) (m n : Nat) :
    (frames.map (grow · m)).map (grow · n) = frames.map (grow · (m + n)) := by
  rw [List.map_map]
  exact List.map_congr_left fun f _ => f.grow_grow m n

end SpaPodFrame

namespace SpaPodBuilder

open SpaPodFrame SpaPod

/-- `spa_pod_builder_init`. -/
def init (size : Nat) : SpaPodBuilder where
  size := size
  offset := 0
  frames := []

/-- `spa_pod_builder_raw` on the bytes of some items. -/
def raw (b : SpaPodBuilder) (n : Nat) (items : List FrameItem) : SpaPodBuilder :=
  { b with
    offset := b.offset + n
    frames := note (if b.offset + n ≤ b.size then items else []) (b.frames.map (grow · n)) }

def pad (b : SpaPodBuilder) : SpaPodBuilder := b.raw (roundUp8 b.offset - b.offset) []

/-- The builder's functions for a number, a Boolean value or a string: the pod and its padding. -/
def primitive (b : SpaPodBuilder) (pod : SpaPod) : SpaPodBuilder := (b.raw pod.size [.pod pod]).pad

def control (b : SpaPodBuilder) (type : SpaControlType) : SpaPodBuilder := b.raw 8 [.control type]

def prop (b : SpaPodBuilder) (key : SpaProp) : SpaPodBuilder := b.raw 8 [.prop key]

/-- A container's header is written before its frame is open. -/
def push (b : SpaPodBuilder) (type : FrameType) (header size : Nat) : SpaPodBuilder :=
  let b' := b.raw header []
  { b' with frames := { type := type, offset := b.offset, size := size, items := [] } :: b'.frames }

def pushSequence (b : SpaPodBuilder) : SpaPodBuilder := b.push .sequence 16 8

def pushObject (b : SpaPodBuilder) : SpaPodBuilder := b.push .object 16 8

def pushStruct (b : SpaPodBuilder) : SpaPodBuilder := b.push .struct 8 0

/-- `spa_pod_builder_pop`: the pod of the innermost frame with the size in its header, or null. -/
def pop (b : SpaPodBuilder) : Option (SpaPod × Nat) × SpaPodBuilder :=
  match b.frames with
  | [] => (none, b)
  | f :: frames =>
    if f.offset + 8 + f.size ≤ b.size then
      (some (f.pod, f.size), ({ b with frames := note [.pod f.pod] frames } : SpaPodBuilder).pad)
    else (none, ({ b with frames := frames } : SpaPodBuilder).pad)

/-! ## What the operations add -/

theorem roundUp8_add {m : Nat} (h : 8 ∣ m) (n : Nat) : roundUp8 (m + n) = m + roundUp8 n := by
  unfold roundUp8
  omega

theorem le_roundUp8 (n : Nat) : n ≤ roundUp8 n := by
  unfold roundUp8
  omega

theorem dvd_roundUp8 (n : Nat) : 8 ∣ roundUp8 n := Nat.dvd_mul_left _ _

theorem dvd_fieldsSize (pods : List SpaPod) : 8 ∣ fieldsSize pods := by
  induction pods with
  | nil => exact Nat.dvd_zero 8
  | cons pod pods ih => exact Nat.dvd_add (dvd_roundUp8 _) ih

@[simp] theorem grow_zero (f : SpaPodFrame) : f.grow 0 = f := rfl

theorem pad_of_dvd {b : SpaPodBuilder} (h : 8 ∣ b.offset) : b.pad = b := by
  have hround : roundUp8 b.offset - b.offset = 0 := by
    unfold roundUp8
    omega
  obtain ⟨size, offset, frames⟩ := b
  rw [pad, hround, raw]
  cases frames <;> simp [note]

/-- The pods of a list that are not dropped, when the first one is written at an offset. -/
def landed (size : Nat) : Nat → List SpaPod → List FrameItem
  | _, [] => []
  | offset, pod :: pods =>
    (if offset + pod.size ≤ size then [.pod pod] else []) ++
      landed size (offset + roundUp8 pod.size) pods

theorem landed_of_fits {size offset : Nat} {pods : List SpaPod}
    (h : offset + fieldsSize pods ≤ size) : landed size offset pods = pods.map FrameItem.pod := by
  induction pods generalizing offset with
  | nil => rfl
  | cons pod pods ih =>
    rw [fieldsSize] at h
    have hle := le_roundUp8 (8 + pod.bodySize)
    have hsize : pod.size = 8 + pod.bodySize := rfl
    rw [landed, if_pos (by omega), ih (by rw [hsize]; omega)]
    rfl

theorem primitive_eq {b : SpaPodBuilder} {f : SpaPodFrame} {frames : List SpaPodFrame}
    (hframes : b.frames = f :: frames) (hoffset : 8 ∣ b.offset) (pod : SpaPod) :
    b.primitive pod = { b with
      offset := b.offset + roundUp8 pod.size
      frames := { f.grow (roundUp8 pod.size) with
          items := f.items ++ if b.offset + pod.size ≤ b.size then [.pod pod] else [] } ::
        frames.map (grow · (roundUp8 pod.size)) } := by
  have hle := le_roundUp8 pod.size
  have hadd := roundUp8_add hoffset pod.size
  obtain ⟨size, offset, _⟩ := b
  obtain rfl := hframes
  simp only at hadd
  have hround : pod.size + (roundUp8 pod.size - pod.size) = roundUp8 pod.size := by omega
  have hpad : roundUp8 (offset + pod.size) - (offset + pod.size) = roundUp8 pod.size - pod.size := by
    omega
  have hoffset : offset + pod.size + (roundUp8 pod.size - pod.size) = offset + roundUp8 pod.size := by
    omega
  simp only [primitive, pad, raw, List.map_cons, note, hpad, hoffset, map_grow_grow, hround, ite_self,
    List.append_nil]
  simp only [grow, Nat.add_assoc, hround]

/-- **Pods written one after the other** grow every open frame by their padded sizes. -/
theorem foldl_primitive {b : SpaPodBuilder} {f : SpaPodFrame} {frames : List SpaPodFrame}
    (hframes : b.frames = f :: frames) (hoffset : 8 ∣ b.offset) (pods : List SpaPod) :
    pods.foldl primitive b = { b with
      offset := b.offset + fieldsSize pods
      frames := { f.grow (fieldsSize pods) with items := f.items ++ landed b.size b.offset pods } ::
        frames.map (grow · (fieldsSize pods)) } := by
  induction pods generalizing b f frames with
  | nil =>
    obtain ⟨size, offset, _⟩ := b
    obtain rfl := hframes
    simp [fieldsSize, landed, grow]
  | cons pod pods ih =>
    have hstep := primitive_eq hframes hoffset pod
    rw [List.foldl_cons, hstep, ih rfl (Nat.dvd_add hoffset (dvd_roundUp8 _))]
    have hsize : roundUp8 pod.size + fieldsSize pods = fieldsSize (pod :: pods) := rfl
    simp only [map_grow_grow, hsize]
    simp only [grow, Nat.add_assoc, hsize, landed, List.append_assoc]

/-- The pod of a frame that fits becomes an item of the frame around it. -/
theorem pop_eq {b : SpaPodBuilder} {f : SpaPodFrame} {frames : List SpaPodFrame}
    (hframes : b.frames = f :: frames) (hoffset : 8 ∣ b.offset) :
    b.pop = (if f.offset + 8 + f.size ≤ b.size then some (f.pod, f.size) else none,
      { b with
        frames := note (if f.offset + 8 + f.size ≤ b.size then [.pod f.pod] else []) frames }) := by
  unfold pop
  simp only [hframes]
  split
  · rw [pad_of_dvd (by exact hoffset)]
  · rw [pad_of_dvd (by exact hoffset)]
    cases frames <;> simp [note]

end SpaPodBuilder

end Kpmx
