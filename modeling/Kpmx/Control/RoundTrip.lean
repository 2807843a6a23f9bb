import Kpmx.Control.Process
import Mathlib.Algebra.Ring.Int.Defs
import Mathlib.Data.List.Forall2

/-!
# A batch and what is read from it

The extraction loop guesses the type of each value from the getter that succeeds. Of a batch that
`control_process` publishes it reads every message again, in order; an unsigned value arrives as the `int`
with its bits (`batch_round_trips`).
-/

namespace Kpmx

/-- The value that is read for one that was sent. -/
inductive ReadAs : ControlValue → ParamVariant → Prop
  | double (d : Double) : ReadAs (.double d) (.double d)
  | bool (b : Bool) : ReadAs (.bool b) (.bool b)
  | int (i : Int32) : ReadAs (.int i) (.int i)
  | uint (v : UInt32) (i : Int32) (bits : i.toInt % 2 ^ 32 = v.toNat) : ReadAs (.uint v) (.int i)

theorem toInt32_emod (v : UInt32) : v.toInt32.toInt % 2 ^ 32 = v.toNat := by
  have htoInt : v.toInt32.toInt = (v.toNat : Int).bmod (2 ^ 32) :=
    BitVec.toInt_eq_toNat_bmod v.toBitVec
  have hlt := v.toNat_lt
  rw [htoInt]
  exact Int.bmod_emod.trans (Int.emod_eq_of_lt (by omega) (by omega))

theorem readAs_decoded (value : ControlValue) : ReadAs value value.decoded := by
  cases value with
  | uint v => exact .uint v v.toInt32 (toInt32_emod v)
  | int i => exact .int i
  | bool b => exact .bool b
  | double d => exact .double d

/-- **A batch round-trips**: from what `control_process` publishes in a buffer with room for it, the
extraction loop reads the queued messages, name by name and value by value. -/
theorem batch_round_trips (queue : Spsc ControlQueueMessage queueCapacity)
    (control : Option PwBuffer) (data : SpaData) (husable : usableData control = some data)
    (hfits : sequenceSize queue.items ≤ data.maxsize)
    (hnames : ∀ message ∈ queue.items, '\x00' ∉ message.parameterName.toList) :
    ∃ result pod size, controlProcess queue control = .ok result ∧
      result.published = some (pod, size) ∧
      List.Forall₂ (fun message param => param.1 = message.parameterName ∧
        ReadAs message.value param.2) queue.items pod.sequenceParams := by
  have hreturns := controlProcess_of_usable husable queue
  rw [if_pos hfits] at hreturns
  refine ⟨_, _, _, hreturns, rfl, ?_⟩
  rw [sequenceParams_controlSequence, List.forall₂_map_right_iff]
  refine List.forall₂_same.mpr fun message hmessage => ⟨?_, readAs_decoded message.value⟩
  exact cStr_eq_self (hnames message hmessage)

/-- All bits of an unsigned value, and a name that no branch takes. -/
def mixedBatch : Spsc ControlQueueMessage queueCapacity :=
  ⟨[{ parameterName := "Looper:bars", value := .uint 4294967295 },
    { parameterName := "tempo", value := .double (.finite 120) }], by decide⟩

theorem batch_round_trips_mixed : ∃ result pod size,
    controlProcess mixedBatch
      (some { id := 0, datas := some [{ data := true, chunk := true, maxsize := 4096 }] }) = .ok result ∧
    result.published = some (pod, size) ∧
    List.Forall₂ (fun message param => param.1 = message.parameterName ∧
      ReadAs message.value param.2) mixedBatch.items pod.sequenceParams :=
  batch_round_trips mixedBatch _ _ rfl (by decide) (by decide)

end Kpmx
