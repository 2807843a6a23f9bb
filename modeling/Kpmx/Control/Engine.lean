import Kpmx.Control.Calls
import Kpmx.Lib.Runs

/-!
# Commands against feedback in flight

One strip, its control queue (taken as never full), the mixer engine, the feedback slot and the posted
calls, with all steps interleaved. The engine is external: it takes control messages in order, and a
feedback message carries its current value of every decoded parameter (`Carries`), in whatever
representation and among whatever else.

* `queue_engine_accepted` : the engine, once it has taken the queue, holds the last *accepted* command,
  a call that found another value in the field;
* `fresh_feedback` : feedback taken after the last drain brings the strip to the engine's values;
* `last_accepted_command_wins` : so both settle at the last accepted command;
* `stale_feedback_drops_command` : a call that a stale feedback message has just made look redundant
  is not sent at all.
-/

namespace Kpmx

open Runs LastWrite SetterCall

/-- What the engine holds for each parameter. -/
abbrev EngineValues := (p : Param) → p.type.Value

/-- The state, with what was observed so far: all setter calls, those whose argument differed from the
field, and whether feedback was taken since a control message last reached the engine. -/
structure Desk where
  strip : ChannelStripModel
  queue : List ControlQueueMessage
  engine : EngineValues
  slot : Option SpaPod
  posted : List SpaPod
  calls : List SetterCall
  accepted : List SetterCall
  fresh : Bool

namespace Desk

inductive Action where
  | setter (call : SetterCall)
  | controlProcess
  | feedbackProcess (value : SpaPod)
  | updatesToQtThread
  | applyUpdate

section
variable [CastUndefined]

/-- The engine takes one decoded control message. -/
def engineTakes (e : EngineValues) (param : DecodedParam) : EngineValues := fun p =>
  if param.1 = p.parameterName then p.type.decode param.2 else e p

/-- The feedback message carries the engine's value of every decoded parameter. -/
def Carries (value : SpaPod) (e : EngineValues) : Prop :=
  value.isObject = true ∧ ∀ p ∈ Param.all, p ≠ .volume →
    (lastValue p.parameterName value.decodedParams).map p.type.decode = some (e p)

instance (value : SpaPod) (e : EngineValues) : Decidable (Carries value e) :=
  inferInstanceAs (Decidable (_ ∧ _))

def step (st : Desk) : Action → Option Desk
  | .setter c =>
    let call := c.perform st.strip
    some { st with
      strip := call.strip
      queue := st.queue ++ call.pushed
      calls := st.calls ++ [c]
      accepted := if c.param.type.ne (c.param.get st.strip) c.value then st.accepted ++ [c]
        else st.accepted }
  | .controlProcess => some { st with
      engine := (paramsStruct st.queue).structParams.foldl engineTakes st.engine
      queue := []
      fresh := st.fresh && st.queue.isEmpty }
  | .feedbackProcess value =>
    if Carries value st.engine then some { st with slot := some value, fresh := true } else none
  | .updatesToQtThread =>
    st.slot.map fun value => { st with slot := none, posted := st.posted ++ [value] }
  | .applyUpdate =>
    match st.posted with
    | [] => none
    | value :: rest => (st.strip.apply value).map fun r => { st with strip := r.1, posted := rest }

/-- Strip and engine in given states, nothing in flight. -/
def start (s : ChannelStripModel) (e : EngineValues) : Desk where
  strip := s
  queue := []
  engine := e
  slot := none
  posted := []
  calls := []
  accepted := []
  fresh := false

def Agree (s : ChannelStripModel) (e : EngineValues) : Prop := ∀ p : Param, p ≠ .volume → p.get s = e p

/-- Nothing is in flight, and feedback was taken since the last message reached the engine. -/
def Settled (st : Desk) : Prop :=
  st.queue = [] ∧ st.slot = none ∧ st.posted = [] ∧ st.fresh = true

/-! ## The engine -/

theorem engine_foldl (ms : List ControlQueueMessage) (e : EngineValues) (p : Param) :
    (paramsStruct ms).structParams.foldl engineTakes e p =
      ((lastValue p.parameterName (ms.map ControlQueueMessage.decoded)).map p.type.decode).getD
        (e p) := by
  rw [paramsStruct, SpaPod.structParams, extractParams_appendToStruct]
  exact observe_foldl (f := engineTakes) (g := fun e => e p)
    (fun _ _ => by simp [engineTakes]) (fun _ _ h => by simp [engineTakes, h]) e _

/-- What the engine will hold once it has taken the queue. -/
def pendingValue (st : Desk) (p : Param) : p.type.Value :=
  ((lastValue p.parameterName (st.queue.map ControlQueueMessage.decoded)).map p.type.decode).getD
    (st.engine p)

/-- An accepted call is the value the engine will hold; other parameters are as before. -/
theorem lastValue_message (ms : List ControlQueueMessage) (c : SetterCall) (p : Param) :
    (lastValue p.parameterName ((ms ++ [c.param.message c.value]).map
        ControlQueueMessage.decoded)).map p.type.decode =
      (c.argumentFor p).or ((lastValue p.parameterName (ms.map ControlQueueMessage.decoded)).map
        p.type.decode) := by
  rw [List.map_append, List.map_singleton, lastValue_concat, Param.decoded_message]
  by_cases hp : p = c.param
  · subst hp
    simp [argumentFor_self, ParamType.decode_control]
  · have hn : c.param.parameterName ≠ p.parameterName := fun hn =>
      hp (Param.parameterName_injective hn).symm
    simp [argumentFor_of_ne hp, hn]

/-- **The engine and its queue hold the last accepted commands.** -/
theorem queue_engine_accepted {s : ChannelStripModel} {e : EngineValues} {ls : List Action} {st : Desk}
    (hrun : run step (start s e) ls = some st) (p : Param) :
    st.pendingValue p = (lastArgument p st.accepted).getD (e p) := by
  refine run_invariant (I := fun st => st.pendingValue p = (lastArgument p st.accepted).getD (e p))
    (fun a l b ha hl => ?_) hrun rfl
  cases l with
  | setter c =>
    simp only [step, Option.some.injEq] at hl
    subst hl
    cases h : c.param.type.ne (c.param.get a.strip) c.value with
    | false => simpa [perform_of_eq h, pendingValue] using ha
    | true =>
      simp only [perform_of_ne h, pendingValue, lastValue_message, if_true, lastArgument_concat]
      cases c.argumentFor p with
      | none => simpa [pendingValue] using ha
      | some v => rfl
  | controlProcess =>
    simp only [step, Option.some.injEq] at hl
    subst hl
    simpa [pendingValue, engine_foldl] using ha
  | feedbackProcess value =>
    simp only [step] at hl
    split at hl
    · cases hl
      exact ha
    · cases hl
  | updatesToQtThread =>
    obtain ⟨value, -, rfl⟩ := Option.map_eq_some_iff.mp hl
    exact ha
  | applyUpdate =>
    simp only [step] at hl
    split at hl
    · cases hl
    · obtain ⟨r, -, rfl⟩ := Option.map_eq_some_iff.mp hl
      exact ha

/-! ## The feedback -/

/-- The feedback messages on their way to the strip, oldest first. -/
def inFlight (st : Desk) : List SpaPod := st.posted ++ st.slot.toList

/-- The strip shows the engine's values, or will once the newest message in flight is applied. -/
def CatchesUp (st : Desk) : Prop :=
  (st.inFlight = [] ∧ Agree st.strip st.engine) ∨
    ∃ value, st.inFlight.getLast? = some value ∧ Carries value st.engine

theorem agree_of_carries {value : SpaPod} {e : EngineValues} (h : Carries value e)
    (s : ChannelStripModel) : Agree (applyParams value.decodedParams s) e := by
  intro p hp
  rw [get_applyParams hp, h.2 p p.mem_all hp]
  rfl

theorem step_applyUpdate {st st' : Desk} (h : step st .applyUpdate = some st') :
    ∃ value, st.posted = value :: st'.posted ∧
      st' = { st with strip := applyParams value.decodedParams st.strip, posted := st'.posted } := by
  simp only [step] at h
  split at h
  · cases h
  · next value rest hposted =>
    obtain ⟨r, hr, rfl⟩ := Option.map_eq_some_iff.mp h
    have hfst := apply_fst st.strip value
    rw [hr] at hfst
    split at hfst
    · exact ⟨value, hposted, by rw [← Option.some.inj hfst]⟩
    · cases hfst

/-- Once feedback was taken, it catches the strip up with the engine, unless a command still waits. -/
theorem fresh_feedback {s : ChannelStripModel} {e : EngineValues} {ls : List Action} {st : Desk}
    (hrun : run step (start s e) ls = some st) :
    st.fresh = true → st.queue = [] → st.CatchesUp := by
  refine run_invariant (I := fun st => st.fresh = true → st.queue = [] → st.CatchesUp)
    (fun a l b ha hl => ?_) hrun (fun h => absurd h (by simp [start]))
  intro hfresh hqueue
  cases l with
  | setter c =>
    simp only [step, Option.some.injEq] at hl
    subst hl
    cases h : c.param.type.ne (c.param.get a.strip) c.value with
    | false =>
      rw [perform_of_eq h] at hqueue ⊢
      exact ha hfresh (by simpa using hqueue)
    | true => simp [perform_of_ne h] at hqueue
  | controlProcess =>
    simp only [step, Option.some.injEq] at hl
    subst hl
    have hempty : a.queue = [] := by
      simp only [Bool.and_eq_true, List.isEmpty_iff] at hfresh
      exact hfresh.2
    have hcu := ha (by simpa [hempty] using hfresh) hempty
    simpa [CatchesUp, inFlight, hempty, paramsStruct, SpaPod.structParams, extractParams,
      extractionLoop, extractionRound, SpaPod.getString] using hcu
  | feedbackProcess value =>
    simp only [step] at hl
    split at hl
    · next hcarries =>
      cases hl
      exact .inr ⟨value, by simp [inFlight], hcarries⟩
    · cases hl
  | updatesToQtThread =>
    obtain ⟨value, hslot, rfl⟩ := Option.map_eq_some_iff.mp hl
    simpa [CatchesUp, inFlight, hslot] using ha hfresh hqueue
  | applyUpdate =>
    obtain ⟨value, hposted, hb⟩ := step_applyUpdate hl
    rw [hb] at hfresh hqueue ⊢
    rcases ha hfresh hqueue with ⟨hnil, -⟩ | ⟨last, hlast, hcarries⟩
    · simp [inFlight, hposted] at hnil
    · simp only [inFlight, hposted, List.cons_append] at hlast
      -- the applied message is the newest one, or the newest one is still in flight
      cases hrest : b.posted ++ a.slot.toList with
      | nil =>
        rw [hrest, List.getLast?_singleton, Option.some.injEq] at hlast
        subst hlast
        exact .inl ⟨by simpa [inFlight] using hrest, agree_of_carries hcarries a.strip⟩
      | cons x xs =>
        rw [hrest, List.getLast?_cons_cons] at hlast
        exact .inr ⟨last, by simpa [inFlight, hrest] using hlast, hcarries⟩

/-- **The last accepted command wins**: once everything is drained and feedback taken after the last
drain has been applied, the engine and the strip both hold the argument of the last setter call that
differed from the field (the value they started with when there is none). -/
theorem last_accepted_command_wins (s : ChannelStripModel) (e : EngineValues) (ls : List Action)
    (st : Desk) (hagree : Agree s e) (hrun : run step (start s e) ls = some st) (hset : Settled st)
    (p : Param) (hp : p ≠ .volume) :
    st.engine p = (lastArgument p st.accepted).getD (p.get s) ∧
      p.get st.strip = (lastArgument p st.accepted).getD (p.get s) := by
  obtain ⟨hqueue, hslot, hposted, hfresh⟩ := hset
  have hengine := queue_engine_accepted hrun p
  rw [pendingValue, hqueue] at hengine
  rw [hagree p hp]
  refine ⟨hengine, ?_⟩
  rcases fresh_feedback hrun hfresh hqueue with ⟨-, hstrip⟩ | ⟨value, hlast, -⟩
  · exact (hstrip p hp).trans hengine
  · simp [inFlight, hslot, hposted] at hlast

end

/-! ## A command lost to stale feedback -/

/-- A feedback message with the engine's value of every parameter. -/
def snapshot (e : EngineValues) : SpaPod :=
  .object [(.params, paramsStruct (Param.all.map fun p => p.message (e p)))]

/-- The strip is moved to 70 and, after a stale message has shown 50 again, back to 50: the second
call finds the field at 50 and sends nothing. -/
def staleRun : List Action :=
  [.feedbackProcess (snapshot fun p => p.get {}), .updatesToQtThread,
    .setter (.setLooperMix (.finite 70)), .applyUpdate, .setter (.setLooperMix (.finite 50)),
    .controlProcess, .feedbackProcess (snapshot fun p => p.get { looperMix := .finite 70 }),
    .updatesToQtThread, .applyUpdate]

/-- What is compared at the end of a run. -/
def settledMix (st : Desk) : Bool × Double × Double × Option Double × Option Double :=
  (st.queue.isEmpty && st.slot.isNone && st.posted.isEmpty && st.fresh,
    st.engine .looperMix, st.strip.looperMix, lastArgument .looperMix st.calls,
    lastArgument .looperMix st.accepted)

theorem settled_of_settledMix {st : Desk} (h : (settledMix st).1 = true) : Settled st := by
  simp only [settledMix, Bool.and_eq_true, List.isEmpty_iff, Option.isNone_iff_eq_none] at h
  exact ⟨h.1.1.1, h.1.1.2, h.1.2, h.2⟩

theorem staleRun_ends :
    (run (@step .x86) (start {} fun p => p.get {}) staleRun).map settledMix =
      some (true, .finite 70, .finite 70, some (.finite 50), some (.finite 70)) := by
  decide +kernel

/-- The user's last command is 50; strip and engine settle at 70. -/
theorem stale_feedback_drops_command : ¬ ∀ [CastUndefined] (s : ChannelStripModel)
    (e : EngineValues) (ls : List Action) (st : Desk), Agree s e →
    run step (start s e) ls = some st → Settled st → ∀ p : Param, p ≠ .volume →
      ∀ v, lastArgument p st.calls = some v → st.engine p = v ∧ p.get st.strip = v := by
  intro h
  obtain ⟨st, hrun, hend⟩ := Option.map_eq_some_iff.mp staleRun_ends
  obtain ⟨hset, hrest⟩ := Prod.mk.inj hend
  obtain ⟨hengine, hrest⟩ := Prod.mk.inj hrest
  obtain ⟨-, hrest⟩ := Prod.mk.inj hrest
  have hbad := (@h .x86 {} (fun p => p.get {}) staleRun st (fun _ _ => rfl) hrun
    (settled_of_settledMix hset) .looperMix (by decide) _ (Prod.mk.inj hrest).1).1
  rw [hengine] at hbad
  exact absurd hbad (show ¬ Double.finite 70 = .finite 50 by decide)

/-- In the same run the last accepted command is 70. -/
theorem last_accepted_command_wins_stale : ∃ st,
    run (@step .x86) (start {} fun p => p.get {}) staleRun = some st ∧
      st.engine .looperMix = Double.finite 70 ∧ st.strip.looperMix = .finite 70 := by
  obtain ⟨st, hrun, hend⟩ := Option.map_eq_some_iff.mp staleRun_ends
  obtain ⟨hset, hrest⟩ := Prod.mk.inj hend
  have hacc : lastArgument .looperMix st.accepted = some (Double.finite 70) :=
    (Prod.mk.inj (Prod.mk.inj (Prod.mk.inj hrest).2).2).2
  have hwins := @last_accepted_command_wins .x86 {} (fun p => p.get {}) staleRun st
    (fun _ _ => rfl) hrun (settled_of_settledMix hset) .looperMix (by decide)
  rw [hacc] at hwins
  exact ⟨st, hrun, hwins⟩

end Desk

end Kpmx
