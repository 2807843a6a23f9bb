import Kpmx.Control.Calls

/-!
# The encoder and the decoder agree, but for the volume

A strip performs any setter calls and its messages, encoded by `append_to_struct` in order, are
decoded into a second strip that started in the same state. Eighteen parameters arrive
(`get_echo_of_ne_volume`). The volume is sent as `Equalizer:master`, which no branch decodes, so the
second strip keeps the volume it had: `echo_agrees_iff` is the exact condition.
-/

namespace Kpmx

open SetterCall

section
variable [CastUndefined]

/-- What a strip in state `s` becomes when it decodes the struct of all messages that another strip,
starting in the same state, pushed during the calls. -/
def echo (calls : List SetterCall) (s : ChannelStripModel) : ChannelStripModel :=
  (parseSpaPropParams (paramsStruct (performAll calls s).2) s).1

theorem echo_eq (calls : List SetterCall) (s : ChannelStripModel) :
    echo calls s = applyParams ((performAll calls s).2.map ControlQueueMessage.decoded) s := by
  rw [echo, parseSpaPropParams_fst, paramsStruct, SpaPod.structParams, extractParams_appendToStruct]

theorem get_applyParams_performAll (calls : List SetterCall) (a b : ChannelStripModel)
    (hab : ∀ p : Param, p ≠ .volume → p.get b = p.get a) (p : Param) (hp : p ≠ .volume) :
    p.get (applyParams ((performAll calls a).2.map ControlQueueMessage.decoded) b) =
      p.get (performAll calls a).1 := by
  induction calls generalizing a b with
  | nil => exact hab p hp
  | cons c cs ih =>
    simp only [performAll, List.map_append, applyParams_append]
    exact ih _ _ fun q hq => get_echo c hab hq

theorem get_echo_of_ne_volume (calls : List SetterCall) (s : ChannelStripModel) {p : Param}
    (hp : p ≠ .volume) : p.get (echo calls s) = p.get (performAll calls s).1 := by
  rw [echo_eq]
  exact get_applyParams_performAll calls s s (fun _ _ => rfl) p hp

theorem get_volume_echo (calls : List SetterCall) (s : ChannelStripModel) :
    Param.get .volume (echo calls s) = Param.get .volume s := by
  rw [echo_eq, get_volume_applyParams]

/-- **The two strips agree on every sent parameter** exactly when the last volume given, if any, is
the volume they started with. -/
theorem echo_agrees_iff (calls : List SetterCall) (s : ChannelStripModel) :
    (∀ p : Param, p.get (echo calls s) = p.get (performAll calls s).1) ↔
      ∀ v, lastArgument .volume calls = some v → v = Param.get .volume s := by
  constructor
  · intro h v hv
    have hvol := h .volume
    rw [get_volume_echo, get_performAll, hv] at hvol
    exact hvol.symm
  · intro h p
    by_cases hp : p = .volume
    · subst hp
      rw [get_volume_echo, get_performAll]
      cases hv : lastArgument .volume calls with
      | none => rfl
      | some v => exact (h v hv).symm
    · exact get_echo_of_ne_volume calls s hp

end

/-- One move of the fader of a new strip is not echoed. -/
theorem volume_not_echoed : ¬ ∀ [CastUndefined] (calls : List SetterCall) (s : ChannelStripModel)
    (p : Param), p.get (echo calls s) = p.get (performAll calls s).1 := by
  intro h
  let inst := CastUndefined.x86
  have hvol := h [.setVolume (.finite 1)] {} .volume
  rw [get_volume_echo, get_performAll] at hvol
  exact absurd hvol (show ¬ Double.finite 0 = Double.finite 1 by decide)

end Kpmx
