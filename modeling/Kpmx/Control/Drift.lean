import Kpmx.Control.Calls
import Kpmx.Lib.Runs

/-!
# A strip and its control queue

The setters of one strip and the drains of its control stream, in any order, over the bounded queue.
`control_path_in_step` : as long as no setter changes its field while the queue is full, the strip is
what the drained messages followed by the queued ones say. At the capacity boundary the message is
dropped and the field is changed all the same (`overflow_drifts`).
-/

namespace Kpmx

open Runs

/-- A strip with its control queue, and the messages that `control_process` has taken so far. -/
structure ControlPath where
  strip : ChannelStripModel
  queue : Spsc ControlQueueMessage queueCapacity
  drained : List ControlQueueMessage

namespace ControlPath

inductive Action where
  | setter (call : SetterCall)
  | controlProcess

def start (s : ChannelStripModel) : ControlPath := ⟨s, .empty, []⟩

def step (st : ControlPath) : Action → Option ControlPath
  | .setter c => some { st with
      strip := (c.perform st.strip).strip
      queue := st.queue.pushAll (c.perform st.strip).pushed }
  | .controlProcess => some { st with
      queue := (controlSequence st.queue).2
      drained := st.drained ++ st.queue.consumeAll.1 }

/-- The call gives its field another value. -/
def Changes (st : ControlPath) (c : SetterCall) : Prop :=
  c.param.type.ne (c.param.get st.strip) c.value = true

instance (st : ControlPath) (c : SetterCall) : Decidable (st.Changes c) :=
  inferInstanceAs (Decidable (_ = true))

/-- A setter that changes its field finds room in the queue. -/
def RoomForChange (st : ControlPath) : Action → Prop
  | .setter c => st.Changes c → st.queue.full = false
  | .controlProcess => True

instance (st : ControlPath) (a : Action) : Decidable (st.RoomForChange a) :=
  match a with
  | .setter c => inferInstanceAs (Decidable (st.Changes c → st.queue.full = false))
  | .controlProcess => isTrue trivial

/-! ## The receiver's map -/

/-- Values by parameter name. -/
abbrev ParamMap := String → Option ControlValue

/-- The strip's values as a map. -/
def paramMap (s : ChannelStripModel) : ParamMap := fun name =>
  (Param.all.find? fun p => p.parameterName = name).map fun p => p.type.control (p.get s)

def applyMessages (m : ParamMap) (ms : List ControlQueueMessage) : ParamMap :=
  ms.foldl (fun m msg => Function.update m msg.parameterName (some msg.value)) m

/-- The map shows the strip's value for every parameter. -/
def Shows (m : ParamMap) (s : ChannelStripModel) : Prop :=
  ∀ p : Param, m p.parameterName = some (p.type.control (p.get s))

theorem shows_paramMap (s : ChannelStripModel) : Shows (paramMap s) s := by
  intro p
  cases p <;> rfl

theorem applyMessages_concat (m : ParamMap) (ms : List ControlQueueMessage)
    (msg : ControlQueueMessage) : applyMessages m (ms ++ [msg]) =
      Function.update (applyMessages m ms) msg.parameterName (some msg.value) := by
  simp [applyMessages]

theorem Shows.update {m : ParamMap} {s : ChannelStripModel} (h : Shows m s) (p : Param)
    (v : p.type.Value) :
    Shows (Function.update m (p.message v).parameterName (some (p.message v).value)) (p.set v s) := by
  intro q
  by_cases hq : q = p
  · subst hq
    rw [Param.get_set]
    exact Function.update_self ..
  · have hn : q.parameterName ≠ (p.message v).parameterName := fun hn =>
      hq (Param.parameterName_injective hn)
    rw [Function.update_of_ne hn, Param.get_set_of_ne hq, h q]

/-! ## One step -/

theorem step_setter_of_not_changes {st : ControlPath} {c : SetterCall} (h : ¬ st.Changes c) :
    step st (.setter c) = some st := by
  have he := SetterCall.perform_of_eq (by simpa [Changes] using h)
  simp [step, he]

theorem step_setter_of_changes {st st' : ControlPath} {c : SetterCall} (h : st.Changes c)
    (hst : step st (.setter c) = some st') :
    st'.strip = c.param.set c.value st.strip ∧
      st'.queue = (st.queue.push (c.param.message c.value)).2 ∧ st'.drained = st.drained := by
  simp only [step, SetterCall.perform_of_ne h, Spsc.pushAll_singleton, Option.some.injEq] at hst
  subst hst
  exact ⟨rfl, rfl, rfl⟩

/-- The initial map, taken through the drained messages and then the queued ones, shows the strip. -/
def InStep (m : ParamMap) (st : ControlPath) : Prop :=
  Shows (applyMessages m (st.drained ++ st.queue.items)) st.strip

theorem step_inStep {m : ParamMap} {st st' : ControlPath} {a : Action} (h : InStep m st)
    (hst : guarded RoomForChange step st a = some st') : InStep m st' := by
  obtain ⟨hroom, hst⟩ := (guarded_eq_some RoomForChange).mp hst
  cases a with
  | setter c =>
    by_cases hc : st.Changes c
    · obtain ⟨hs, hq, hd⟩ := step_setter_of_changes hc hst
      have hitems := (Spsc.push_of_not_full (hroom hc) (c.param.message c.value)).2
      unfold InStep
      rw [hs, hq, hd, hitems, ← List.append_assoc, applyMessages_concat]
      exact h.update c.param c.value
    · rw [step_setter_of_not_changes hc] at hst
      cases hst
      exact h
  | controlProcess =>
    simp only [step, Option.some.injEq] at hst
    subst hst
    simpa [InStep, controlSequence_snd_items] using h

/-- **A strip and its queue stay in step** in every run in which no setter changes its field while
the queue is full: once the queue is empty the drained messages give exactly the strip's values, and
a setter that changes its field has put its message into the queue. -/
theorem control_path_in_step (s : ChannelStripModel) (ls : List Action) (st : ControlPath)
    (hrun : run (guarded RoomForChange step) (start s) ls = some st) :
    (st.queue.items = [] → Shows (applyMessages (paramMap s) st.drained) st.strip) ∧
      ∀ c st', st.Changes c → guarded RoomForChange step st (.setter c) = some st' →
        st'.queue.items = st.queue.items ++ [c.param.message c.value] := by
  have hin : InStep (paramMap s) st :=
    run_invariant (fun _ _ _ ha hl => step_inStep ha hl) hrun (shows_paramMap s)
  constructor
  · intro hq
    simpa [InStep, hq] using hin
  · intro c st' hc hst
    obtain ⟨hroom, hst⟩ := (guarded_eq_some RoomForChange).mp hst
    rw [(step_setter_of_changes hc hst).2.1]
    exact (Spsc.push_of_not_full (hroom hc) _).2

/-- One move of the mix and one drain. -/
theorem control_path_in_step_mix :
    Shows (applyMessages (paramMap {}) [Param.looperMix.message (.finite 70)])
      { looperMix := .finite 70 } :=
  (control_path_in_step {} [.setter (.setLooperMix (.finite 70)), .controlProcess]
    ⟨{ looperMix := .finite 70 }, .empty, [Param.looperMix.message (.finite 70)]⟩ rfl).1 rfl

/-! ## The capacity boundary -/

/-- Switching the saturator's bypass on and off `k` times: two messages each time. -/
def toggles : Nat → List Action
  | 0 => []
  | k + 1 => toggles k ++
      [.setter (.setSaturatorBypassEnabled true), .setter (.setSaturatorBypassEnabled false)]

theorem run_toggles (k : Nat) (hk : 2 * k ≤ queueCapacity) :
    ∃ q : Spsc ControlQueueMessage queueCapacity, q.items.length = 2 * k ∧
      run (guarded RoomForChange step) (start {}) (toggles k) = some ⟨{}, q, []⟩ := by
  induction k with
  | zero => exact ⟨.empty, rfl, rfl⟩
  | succ k ih =>
    obtain ⟨q, hlen, hrun⟩ := ih (by omega)
    have hfull : q.full = false := Spsc.full_eq_false.mpr (by omega)
    let q₁ := (q.push (Param.saturatorBypassEnabled.message true)).2
    have hq₁ : q₁.items = q.items ++ [_] := (Spsc.push_of_not_full hfull _).2
    have hfull₁ : q₁.full = false := Spsc.full_eq_false.mpr (by simp [hq₁]; omega)
    let q₂ := (q₁.push (Param.saturatorBypassEnabled.message false)).2
    have hq₂ : q₂.items = q₁.items ++ [_] := (Spsc.push_of_not_full hfull₁ _).2
    refine ⟨q₂, by simp [hq₁, hq₂]; omega, ?_⟩
    have hon : guarded RoomForChange step ⟨{}, q, []⟩ (.setter (.setSaturatorBypassEnabled true)) =
        some ⟨{ saturatorBypassEnabled := true }, q₁, []⟩ :=
      (guarded_eq_some _).mpr ⟨fun _ => hfull, rfl⟩
    have hoff : guarded RoomForChange step ⟨{ saturatorBypassEnabled := true }, q₁, []⟩
        (.setter (.setSaturatorBypassEnabled false)) = some ⟨{}, q₂, []⟩ :=
      (guarded_eq_some _).mpr ⟨fun _ => hfull₁, rfl⟩
    rw [toggles, run_append, hrun]
    simp only [Option.bind_some, run_cons, run_nil, hon, hoff]

/-- With 1024 messages waiting, one more change is dropped by the queue and kept by the strip. -/
theorem overflow_drifts : ¬ ∀ (s : ChannelStripModel) (ls : List Action) (st : ControlPath),
    run step (start s) ls = some st → st.queue.items = [] →
      Shows (applyMessages (paramMap s) st.drained) st.strip := by
  intro h
  obtain ⟨q, hlen, hrun⟩ := run_toggles 512 (by decide)
  have hfull : q.full = true := Spsc.full_eq_true.mpr hlen
  have hin : InStep (paramMap {}) ⟨{}, q, []⟩ :=
    run_invariant (fun _ _ _ ha hl => step_inStep ha hl) hrun (shows_paramMap {})
  have hon : step ⟨{}, q, []⟩ (.setter (.setSaturatorBypassEnabled true)) =
      some ⟨{ saturatorBypassEnabled := true }, q, []⟩ := by
    have hpush := Spsc.push_of_full hfull (Param.saturatorBypassEnabled.message true)
    change some (ControlPath.mk _ (q.push (Param.saturatorBypassEnabled.message true)).2 _) = _
    rw [hpush]
    rfl
  have hbad := h {} (toggles 512 ++ [.setter (.setSaturatorBypassEnabled true), .controlProcess])
    ⟨{ saturatorBypassEnabled := true }, (controlSequence q).2, q.items⟩
    (by
      rw [run_append, run_of_guarded _ hrun]
      simp only [Option.bind_some, run_cons, run_nil, hon]
      rfl)
    (controlSequence_snd_items q) .saturatorBypassEnabled
  have hgood := hin .saturatorBypassEnabled
  simp only [List.nil_append] at hgood
  rw [hgood] at hbad
  exact absurd hbad (show ¬ some (ControlValue.bool false) = some (.bool true) by decide)

end ControlPath

end Kpmx
