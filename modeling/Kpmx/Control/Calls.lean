import Kpmx.Model.Decode

/-!
# Runs of setter calls

`performAll` is a sequence of calls to the control setters of one strip, with everything handed to
`push` on the way. `lastArgument` is the argument of the last call for a parameter.

* `get_perform`, `get_performAll` : after the calls a field holds the last argument given for it;
* `get_echo` : decoding what one call pushed has the call's effect on every decoded parameter.
-/

namespace Kpmx

namespace SetterCall

/-- Perform the calls in order: the strip afterwards and all messages handed to `push`. -/
def performAll : List SetterCall → ChannelStripModel → ChannelStripModel × List ControlQueueMessage
  | [], s => (s, [])
  | c :: cs, s =>
    let call := c.perform s
    let rest := performAll cs call.strip
    (rest.1, call.pushed ++ rest.2)

/-- The argument of the call, when it is a call for `p`. -/
def argumentFor (c : SetterCall) (p : Param) : Option p.type.Value :=
  if h : c.param = p then some (h ▸ c.value) else none

/-- The argument of the last call for `p`. -/
def lastArgument (p : Param) : List SetterCall → Option p.type.Value
  | [] => none
  | c :: cs => (lastArgument p cs).or (c.argumentFor p)

theorem argumentFor_self (c : SetterCall) : c.argumentFor c.param = some c.value := by
  simp [argumentFor]

theorem argumentFor_of_ne {c : SetterCall} {p : Param} (h : p ≠ c.param) : c.argumentFor p = none := by
  simp [argumentFor, Ne.symm h]

theorem lastArgument_concat (p : Param) (cs : List SetterCall) (c : SetterCall) :
    lastArgument p (cs ++ [c]) = (c.argumentFor p).or (lastArgument p cs) := by
  induction cs with
  | nil => simp [lastArgument]
  | cons d ds ih => simp only [List.cons_append, lastArgument, ih, Option.or_assoc]

theorem get_perform (c : SetterCall) (p : Param) (s : ChannelStripModel) :
    p.get (c.perform s).strip = (c.argumentFor p).getD (p.get s) := by
  by_cases hp : p = c.param
  · subst hp
    rw [argumentFor_self]
    cases h : c.param.type.ne (c.param.get s) c.value with
    | false =>
      rw [perform_of_eq h]
      exact ParamType.eq_of_ne_eq_false h
    | true =>
      rw [perform_of_ne h]
      exact c.param.get_set _ s
  · rw [argumentFor_of_ne hp]
    cases h : c.param.type.ne (c.param.get s) c.value with
    | false => rw [perform_of_eq h]; rfl
    | true =>
      rw [perform_of_ne h]
      exact Param.get_set_of_ne hp _ s

theorem get_performAll (p : Param) (cs : List SetterCall) (s : ChannelStripModel) :
    p.get (performAll cs s).1 = (lastArgument p cs).getD (p.get s) := by
  induction cs generalizing s with
  | nil => rfl
  | cons c cs ih =>
    simp only [performAll, lastArgument, ih, get_perform]
    cases lastArgument p cs <;> rfl

end SetterCall

/-! ## What a pushed message decodes to -/

theorem Param.decoded_message (p : Param) (v : p.type.Value) :
    (p.message v).decoded = (p.parameterName, (p.type.control v).decoded) := by
  rw [ControlQueueMessage.decoded, Param.message, cStr_parameterName]

section Decode
variable [CastUndefined]

theorem ParamType.decode_control (t : ParamType) (v : t.Value) : t.decode (t.control v).decoded = v := by
  cases t <;> rfl

theorem get_dispatch_message {p : Param} (hp : p ≠ .volume) (v : p.type.Value)
    (s : ChannelStripModel) : p.get (dispatch (p.message v).decoded s).1 = v := by
  rw [Param.decoded_message, dispatch_param hp, get_assign, ParamType.decode_control]

theorem get_dispatch_message_of_ne {p q : Param} (h : q ≠ p) (v : p.type.Value)
    (s : ChannelStripModel) : q.get (dispatch (p.message v).decoded s).1 = q.get s := by
  refine get_dispatch_of_ne (fun hn => h ?_) s
  rw [Param.decoded_message] at hn
  exact (Param.parameterName_injective hn).symm

/-- Two strips that agree on the decoded parameters still do when one performs a call and the other
decodes what the call pushed. -/
theorem get_echo (c : SetterCall) {a b : ChannelStripModel}
    (hab : ∀ p : Param, p ≠ .volume → p.get b = p.get a) {p : Param} (hp : p ≠ .volume) :
    p.get (applyParams ((c.perform a).pushed.map ControlQueueMessage.decoded) b) =
      p.get (c.perform a).strip := by
  cases h : c.param.type.ne (c.param.get a) c.value with
  | false =>
    rw [SetterCall.perform_of_eq h]
    exact hab p hp
  | true =>
    rw [SetterCall.perform_of_ne h]
    change p.get (dispatch (c.param.message c.value).decoded b).1 = p.get (c.param.set c.value a)
    by_cases hc : p = c.param
    · subst hc
      rw [get_dispatch_message hp, Param.get_set]
    · rw [get_dispatch_message_of_ne hc, Param.get_set_of_ne hc, hab p hp]

end Decode

end Kpmx
