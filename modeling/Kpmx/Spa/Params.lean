import Kpmx.Lib.Spsc
import Kpmx.Model.Setters
import Kpmx.Spa.Pod
import Mathlib.Data.List.TakeWhile

/-!
# The params struct: encoder and extraction loop

`controlSequence` is what `control_process` builds from its queue, `extractParams` the loop in
`parse_spa_prop_params` that reads the params struct back into pairs of a name and a value.

* `extractParams_eq` : the loop ends by itself, and more fuel than it has changes nothing;
* `extractParams_appendToStruct` : it reads back exactly what `append_to_struct` appended.
-/

namespace Kpmx

/-! ## The encoder -/

/-- The pod `append_to_struct` writes for a control value; an unsigned value is written as the `int`
with its bits. -/
def ControlValue.pod : ControlValue → SpaPod
  | .uint v => .int v.toInt32
  | .double v => .double v
  | .bool v => .bool v
  | .int v => .int v

def appendToStruct (update : ControlQueueMessage) : List SpaPod :=
  [.string (cStr update.parameterName), update.value.pod]

def paramsStruct (updates : List ControlQueueMessage) : SpaPod :=
  .struct (updates.flatMap appendToStruct)

/-- The sequence `control_process` builds in a buffer that has room for it, and the queue it leaves:
one Properties control with all queued messages, or no control at all. -/
def controlSequence (queue : Spsc ControlQueueMessage queueCapacity) :
    SpaPod × Spsc ControlQueueMessage queueCapacity :=
  if queue.readAvailable > 0 then
    (.sequence [(.properties, .object [(.params, paramsStruct queue.consumeAll.1)])],
      queue.consumeAll.2)
  else (.sequence [], queue)

theorem controlSequence_snd_items (queue : Spsc ControlQueueMessage queueCapacity) :
    (controlSequence queue).2.items = [] := by
  unfold controlSequence
  split
  · rfl
  · next h => simpa [Spsc.readAvailable] using h

/-! ## The extraction loop -/

/-- The values that `parse_spa_prop_params` keeps. -/
inductive ParamVariant where
  | double (value : Double)
  | bool (value : Bool)
  | int (value : Int32)
  deriving DecidableEq

/-- A decoded parameter, a `param` of the source. -/
abbrev DecodedParam := String × ParamVariant

open SpaPod in
/-- One round of the loop on the cursor: `none` when it breaks, else the cursor afterwards and the
pair that was pushed, if any. The name stays null exactly when the string getter fails. -/
def extractionRound (cursor : List SpaPod) : Option (List SpaPod × Option DecodedParam) :=
  match getString cursor with
  | none => none
  | some (name, cursor) =>
    match getFloat cursor with
    | some (value, cursor) => some (cursor, some (name, .double value))
    | none =>
      match getDouble cursor with
      | some (value, cursor) => some (cursor, some (name, .double value))
      | none =>
        match getBool cursor with
        | some (value, cursor) => some (cursor, some (name, .bool value))
        | none =>
          match getInt cursor with
          | some (value, cursor) => some (cursor, some (name, .int value))
          | none =>
            match getPod cursor with
            | some (_, cursor) => some (cursor, none)
            | none => some (cursor, none)

/-- The loop, for at most `fuel` rounds. -/
def extractionLoop : Nat → List SpaPod → List DecodedParam
  | 0, _ => []
  | fuel + 1, cursor =>
    match extractionRound cursor with
    | none => []
    | some (cursor, pushed) => pushed.toList ++ extractionLoop fuel cursor

/-- `params` after the loop. Every round that does not break consumes a pod. -/
def extractParams (fields : List SpaPod) : List DecodedParam :=
  extractionLoop (fields.length + 1) fields

theorem extractionRound_pair_fst {name : String} {value : SpaPod} {rest : List SpaPod}
    {r : List SpaPod × Option DecodedParam}
    (h : extractionRound (.string name :: value :: rest) = some r) : r.1 = rest := by
  cases value <;> exact (congrArg Prod.fst (Option.some.inj h)).symm

/-- Every round that does not break consumes a pod: the key, and the value if there is one. -/
theorem extractionRound_length {cursor : List SpaPod} {r : List SpaPod × Option DecodedParam}
    (h : extractionRound cursor = some r) : r.1.length < cursor.length := by
  rcases cursor with _ | ⟨key, rest⟩
  · cases h
  cases key with
  | string name =>
    rcases rest with _ | ⟨value, rest⟩
    · obtain rfl := Option.some.inj h
      exact Nat.lt_succ_self 0
    · rw [extractionRound_pair_fst h, List.length_cons, List.length_cons]
      omega
  | _ => cases h

/-- More fuel than there are pods changes nothing: the loop has ended by itself. -/
theorem extractionLoop_of_length_lt {fuel : Nat} {cursor : List SpaPod} (h : cursor.length < fuel) :
    extractionLoop fuel cursor = extractParams cursor := by
  induction fuel using Nat.strongRecOn generalizing cursor with
  | ind fuel ih =>
    cases fuel with
    | zero => omega
    | succ fuel =>
      simp only [extractParams, extractionLoop]
      cases hr : extractionRound cursor with
      | none => rfl
      | some r =>
        have hlt := extractionRound_length hr
        simp only
        rw [ih fuel (by omega) (by omega)]
        by_cases hf : cursor.length < fuel
        · rw [ih cursor.length (by omega) hlt]
        · rw [show cursor.length = fuel by omega, ih fuel (by omega) (by omega)]

theorem extractParams_eq (cursor : List SpaPod) :
    extractParams cursor = match extractionRound cursor with
      | none => []
      | some (rest, pushed) => pushed.toList ++ extractParams rest := by
  rw [extractParams, extractionLoop]
  cases hr : extractionRound cursor with
  | none => rfl
  | some r =>
    simp only
    rw [extractionLoop_of_length_lt (extractionRound_length hr)]

/-- What the loop keeps of a control value. -/
def ControlValue.decoded : ControlValue → ParamVariant
  | .uint v => .int v.toInt32
  | .int v => .int v
  | .bool v => .bool v
  | .double v => .double v

def ControlQueueMessage.decoded (m : ControlQueueMessage) : DecodedParam :=
  (cStr m.parameterName, m.value.decoded)

/-- The loop reads back the pairs that were appended, in order. -/
theorem extractParams_appendToStruct (updates : List ControlQueueMessage) :
    extractParams (updates.flatMap appendToStruct) = updates.map ControlQueueMessage.decoded := by
  induction updates with
  | nil => rfl
  | cons m ms ih =>
    rw [List.flatMap_cons, List.map_cons, ← ih]
    obtain ⟨name, value, type⟩ := m
    rw [extractParams_eq]
    cases value <;> rfl

theorem cStr_eq_self {name : String} (h : '\x00' ∉ name.toList) : cStr name = name := by
  have hall : name.toList.takeWhile (· ≠ '\x00') = name.toList :=
    List.takeWhile_eq_self_iff.mpr fun c hc => decide_eq_true fun hnul => h (hnul ▸ hc)
  rw [cStr, hall, String.ofList_toList]

theorem cStr_parameterName (p : Param) : cStr p.parameterName = p.parameterName := by
  refine cStr_eq_self ?_
  cases p <;> decide

end Kpmx
