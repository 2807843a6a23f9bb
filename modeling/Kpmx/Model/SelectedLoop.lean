import Kpmx.Model.Decode

/-!
# The selected loop in the feedback

Six branches of the decoder, `Looper:loop1` to `Looper:loop6`, write the one field `_selected_loop`.
`loopsCalled` lists the loops that the parameters call for, in order.

* `selectedLoop_parseParams` : the branches write what is called for until the field holds loop 1;
* `selectedLoop_follows_iff` : so the field follows the feedback only when loop 1 is not in the way;
* `selected_loop_stays` : which it is on a new strip.
-/

namespace Kpmx

open LastWrite

section
variable [CastUndefined]

/-- The loop that a parameter calls for: it is named after the loop and has its number as value. -/
def loopCalled (param : DecodedParam) : Option UInt32 :=
  (loopNumber param.1).bind fun n => if param.2.toInt = n then some n.toUInt32 else none

def loopsCalled (params : List DecodedParam) : List UInt32 := params.filterMap loopCalled

theorem selectedLoop_assign (p : Param) (changed : Signal) (value : ParamVariant)
    (s : ChannelStripModel) : (assign p changed value s).1.selectedLoop = s.selectedLoop := by
  unfold assign
  simp only
  split
  · exact p.selectedLoop_set _ s
  · rfl

theorem selectedLoop_selectLoop (n : Int32) (value : ParamVariant) (s : ChannelStripModel) :
    (selectLoop n value s).1.selectedLoop =
      if value.toInt = n then writeUnless 1 s.selectedLoop n.toUInt32 else s.selectedLoop := by
  unfold selectLoop writeUnless
  by_cases hvalue : value.toInt = n
  · by_cases hloop : s.selectedLoop = 1
    · simp [hloop]
    · simp [hvalue, hloop]
  · simp [hvalue]

/-- A loop's branch writes its number; no other branch touches the selected loop. -/
theorem selectedLoop_dispatch (param : DecodedParam) (s : ChannelStripModel) :
    (dispatch param s).1.selectedLoop =
      match loopCalled param with
      | some n => writeUnless 1 s.selectedLoop n
      | none => s.selectedLoop := by
  rw [dispatch_eq, loopCalled]
  cases loopNumber param.1 with
  | some n =>
    simp only [Option.bind_some]
    rw [selectedLoop_selectLoop]
    by_cases hvalue : param.2.toInt = n
    · rw [if_pos hvalue, if_pos hvalue]
    · rw [if_neg hvalue, if_neg hvalue]
  | none =>
    cases Param.ofName param.1 with
    | some p => exact selectedLoop_assign p _ _ s
    | none => rfl

theorem selectedLoop_parseParams (params : List DecodedParam) (s : ChannelStripModel) :
    (parseParams params s).1.selectedLoop =
      (loopsCalled params).foldl (writeUnless 1) s.selectedLoop := by
  rw [parseParams_fst, loopsCalled]
  induction params generalizing s with
  | nil => rfl
  | cons param params ih =>
    have hcons : applyParams (param :: params) s = applyParams params (dispatch param s).1 := rfl
    rw [hcons, ih, selectedLoop_dispatch, List.filterMap_cons]
    cases loopCalled param with
    | none => rfl
    | some n => rfl

/-- **The selected loop follows the feedback** exactly when loop 1 is not in the way: if it is selected
or called for at all, it is also what is called for last. -/
theorem selectedLoop_follows_iff (params : List DecodedParam) (s : ChannelStripModel) :
    (parseParams params s).1.selectedLoop = (loopsCalled params).getLastD s.selectedLoop ↔
      (s.selectedLoop = 1 ∨ 1 ∈ loopsCalled params →
        (loopsCalled params).getLastD s.selectedLoop = 1) := by
  rw [selectedLoop_parseParams]
  exact foldl_absorbing_eq_iff 1 (loopsCalled params) s.selectedLoop

end

/-- On a new strip loop 1 is selected, and loop 2 is called for in vain. -/
theorem selected_loop_stays : ¬ ∀ [CastUndefined] (params : List DecodedParam) (s : ChannelStripModel),
    (parseParams params s).1.selectedLoop = (loopsCalled params).getLastD s.selectedLoop := by
  intro h
  have hstays := @h .x86 [("Looper:loop2", .int 2)] {}
  exact absurd hstays (by decide)

end Kpmx
