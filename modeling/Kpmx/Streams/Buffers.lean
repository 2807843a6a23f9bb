import Kpmx.Control.Process
import Mathlib.Data.List.Perm.Basic
import Mathlib.Logic.Function.Basic

/-!
# The buffers of the streams

Each callback dequeues a buffer from its stream and queues it back. `step` is one call of a callback; one
that follows a null pointer, inspects a missing pod or copies too much does not get to queue its buffer
back.

* `queuedBack_iff` : a callback queues back the buffers that are `Usable`;
* `accounted_of_run` : the buffers that a run does not queue back are the others;
* `conserved_iff` : so the pools are kept exactly when there are none.
-/

namespace Kpmx

open Runs

inductive StreamKind where
  | control
  | feedback
  | monitor
  deriving DecidableEq

structure StreamId where
  kind : StreamKind
  index : Nat
  deriving DecidableEq

/-- A stream with the buffers that the callback does not hold; all buffers dequeued and queued so far. -/
structure Stream where
  pool : List Nat
  dequeued : List Nat
  queued : List Nat
  deriving DecidableEq

abbrev Streams := StreamId → Stream

/-- A call of a stream's callback: the buffer that `pw_stream_dequeue_buffer` answers, if any, and what
is in the control queue. -/
structure StreamCall where
  stream : StreamId
  buffer : Option PwBuffer
  queue : Spsc ControlQueueMessage queueCapacity := .empty

namespace Stream

def dequeueBuffer (s : Stream) (id : Nat) : Option Stream :=
  if id ∈ s.pool then some { s with pool := s.pool.erase id, dequeued := s.dequeued ++ [id] }
  else none

def queueBuffer (s : Stream) (id : Nat) : Stream :=
  { s with pool := s.pool ++ [id], queued := s.queued ++ [id] }

end Stream

/-- `feedback_process` as a whole: whether the buffer is queued back; `none` for a fault. -/
def feedbackCallback (feedback : Option PwBuffer) : Option Bool :=
  match feedback with
  | none => some false
  | some feedback =>
    match feedback.datas with
    | none => none
    | some [] => some true
    | some (data :: datas) =>
      if data.data ∧ data.chunk then
        (feedbackProcess ((data :: datas).map SpaData.pod)).toOption.map fun _ => true
      else none

/-- `monitor_process`: whether the buffer is queued back. -/
def monitorProcess (b : Option PwBuffer) : Bool := b.isSome

/-- The first data plane passes the checks of `control_process` and has room for all queued messages. -/
def ControlUsable (queue : Spsc ControlQueueMessage queueCapacity) (b : PwBuffer) : Prop :=
  ∃ data, usableData (some b) = some data ∧ sequenceSize queue.items ≤ data.maxsize

/-- There is a first data plane with its memory, its chunk and a pod, whose last Properties value fits in
the message of the slot; or there are no data planes. -/
def FeedbackUsable (b : PwBuffer) : Prop :=
  ∃ datas, b.datas = some datas ∧ ∀ data rest, datas = data :: rest →
    data.data = true ∧ data.chunk = true ∧ ∃ pod, data.pod = some pod ∧
      ∀ value ∈ (bufferValues [some pod]).getLast?, value.size ≤ maxValueSize

namespace StreamCall

/-- Whether the callback gets to queue the buffer back. -/
def queuedBack (call : StreamCall) : Bool :=
  match call.stream.kind with
  | .control => ((controlProcess call.queue call.buffer).toOption.map ControlResult.queuedBack).getD false
  | .feedback => (feedbackCallback call.buffer).getD false
  | .monitor => monitorProcess call.buffer

/-- The buffer that the call dequeues, if any, has the shape that its callback needs. -/
def Usable (call : StreamCall) : Prop :=
  ∀ b, call.buffer = some b →
    match call.stream.kind with
    | .control => ControlUsable call.queue b
    | .feedback => FeedbackUsable b
    | .monitor => True

theorem controlProcess_queuedBack_iff (queue : Spsc ControlQueueMessage queueCapacity) (b : PwBuffer) :
    ((controlProcess queue (some b)).toOption.map ControlResult.queuedBack).getD false = true ↔
      ControlUsable queue b := by
  rw [ControlUsable]
  cases hdata : usableData (some b) with
  | none =>
    rw [controlProcess_of_unusable hdata]
    simp [Except.toOption, returnEarly]
  | some data =>
    rw [controlProcess_of_usable hdata]
    by_cases hfits : sequenceSize queue.items ≤ data.maxsize <;> simp [Except.toOption, hfits]

theorem feedbackCallback_iff (b : PwBuffer) :
    (feedbackCallback (some b)).getD false = true ↔ FeedbackUsable b := by
  rw [FeedbackUsable, feedbackCallback]
  match hdatas : b.datas with
  | none => simp
  | some [] => simp
  | some (data :: datas) =>
    simp only [Option.some.injEq, exists_eq_left', List.cons.injEq, and_imp,
      forall_eq', forall_apply_eq_imp_iff]
    by_cases hthere : data.data = true ∧ data.chunk = true
    · rw [if_pos hthere]
      cases hpod : data.pod with
      | none => simp [hpod, feedbackProcess, Except.toOption]
      | some pod =>
        have hok := @feedbackProcess_ok_iff pod (datas.map SpaData.pod)
        have hvalues : bufferValues (some pod :: datas.map SpaData.pod) = bufferValues [some pod] := by
          cases pod <;> rfl
        rw [hvalues] at hok
        simp only [List.map_cons, hpod, hthere, Option.some.injEq, exists_eq_left', true_and, ← hok]
        cases (feedbackProcess (some pod :: datas.map SpaData.pod)).toOption <;> simp
    · rw [if_neg hthere]
      simp only [Option.getD_none, Bool.false_eq_true, false_iff]
      exact fun h => hthere ⟨h.1, h.2.1⟩

/-- **A callback queues its buffer back** exactly when it is usable. -/
theorem queuedBack_iff {call : StreamCall} {b : PwBuffer} (h : call.buffer = some b) :
    call.queuedBack = true ↔ call.Usable := by
  rw [queuedBack, Usable, h]
  simp only [Option.some.injEq, forall_eq']
  cases call.stream.kind with
  | control => exact controlProcess_queuedBack_iff call.queue b
  | feedback => exact feedbackCallback_iff b
  | monitor => simp [monitorProcess]

/-- The buffer that the call does not queue back. -/
def kept (call : StreamCall) : List Nat :=
  match call.buffer with
  | some b => if call.queuedBack then [] else [b.id]
  | none => []

theorem kept_eq_nil_iff {call : StreamCall} : call.kept = [] ↔ call.Usable := by
  cases hbuffer : call.buffer with
  | none => simp [kept, Usable, hbuffer]
  | some b =>
    rw [← queuedBack_iff hbuffer, kept, hbuffer]
    cases call.queuedBack <;> simp

end StreamCall

namespace Streams

def start (pools : StreamId → List Nat) : Streams := fun id =>
  { pool := pools id, dequeued := [], queued := [] }

/-- `none` when the stream has no such buffer. -/
def step (s : Streams) (call : StreamCall) : Option Streams :=
  match call.buffer with
  | none => some s
  | some b => ((s call.stream).dequeueBuffer b.id).map fun stream =>
      Function.update s call.stream (if call.queuedBack then stream.queueBuffer b.id else stream)

/-- Every buffer that was dequeued has been queued back once, and the pools are those of the start. -/
def Conserved (pools : StreamId → List Nat) (s : Streams) : Prop :=
  ∀ id, (s id).dequeued = (s id).queued ∧ ((s id).pool).Perm (pools id)

/-! ## Accounting -/

/-- The buffers of a stream that calls have kept. -/
def keptOf (id : StreamId) (calls : List StreamCall) : List Nat :=
  calls.flatMap fun call => if call.stream = id then call.kept else []

/-- What was not queued back has been kept. -/
structure Accounted (pools : StreamId → List Nat) (calls : List StreamCall) (s : Streams) : Prop where
  pool : ∀ id, ((s id).pool ++ keptOf id calls).Perm (pools id)
  length : ∀ id, (s id).dequeued.length = (s id).queued.length + (keptOf id calls).length
  queued : ∀ id, keptOf id calls = [] → (s id).dequeued = (s id).queued

theorem keptOf_concat (id : StreamId) (calls : List StreamCall) (call : StreamCall) :
    keptOf id (calls ++ [call]) = keptOf id calls ++ if call.stream = id then call.kept else [] := by
  simp [keptOf]

/-- A call without a buffer changes nothing; another one takes its buffer from the pool, and puts it
back unless it is kept. -/
theorem step_cases {s s' : Streams} {call : StreamCall} (h : step s call = some s') :
    (call.kept = [] ∧ s' = s) ∨ ∃ b : PwBuffer, ∃ back : List Nat, back ++ call.kept = [b.id] ∧
      b.id ∈ (s call.stream).pool ∧ s' = Function.update s call.stream
        { pool := (s call.stream).pool.erase b.id ++ back
          dequeued := (s call.stream).dequeued ++ [b.id]
          queued := (s call.stream).queued ++ back } := by
  unfold step at h
  cases hbuffer : call.buffer with
  | none =>
    rw [hbuffer] at h
    exact .inl ⟨by rw [StreamCall.kept, hbuffer], (Option.some.inj h).symm⟩
  | some b =>
    rw [hbuffer] at h
    obtain ⟨stream, hstream, rfl⟩ := Option.map_eq_some_iff.mp h
    obtain ⟨hmem, hstream⟩ := Option.ite_none_right_eq_some.mp hstream
    obtain rfl := Option.some.inj hstream
    refine .inr ⟨b, if call.queuedBack then [b.id] else [], ?_, hmem, ?_⟩
    · rw [StreamCall.kept, hbuffer]
      cases call.queuedBack <;> rfl
    · cases call.queuedBack <;> simp [Stream.queueBuffer]

theorem perm_put_back {pool back new : List Nat} {b : Nat} (hback : back ++ new = [b])
    (hmem : b ∈ pool) (kept : List Nat) :
    (pool.erase b ++ back ++ (kept ++ new)).Perm (pool ++ kept) :=
  calc (pool.erase b ++ back ++ (kept ++ new)).Perm (pool.erase b ++ back ++ (new ++ kept)) :=
        List.perm_append_comm.append_left _
    _ = pool.erase b ++ [b] ++ kept := by rw [← hback]; simp only [List.append_assoc]
    List.Perm _ (b :: pool.erase b ++ kept) := (List.perm_append_singleton b _).append_right kept
    List.Perm _ (pool ++ kept) := (List.perm_cons_erase hmem).symm.append_right kept

/-- **One call keeps the accounts.** -/
theorem Accounted.step {pools : StreamId → List Nat} {calls : List StreamCall} {s s' : Streams}
    {call : StreamCall} (h : Accounted pools calls s) (hstep : step s call = some s') :
    Accounted pools (calls ++ [call]) s' := by
  rcases step_cases hstep with ⟨hkept, rfl⟩ | ⟨b, back, hback, hmem, rfl⟩
  · have hsame : ∀ id, keptOf id (calls ++ [call]) = keptOf id calls := by
      intro id
      rw [keptOf_concat, hkept, ite_self, List.append_nil]
    exact ⟨fun id => by rw [hsame]; exact h.pool id, fun id => by rw [hsame]; exact h.length id,
      fun id => by rw [hsame]; exact h.queued id⟩
  · refine ⟨fun id => ?_, fun id => ?_, fun id hnil => ?_⟩
    · by_cases hid : id = call.stream
      · subst hid
        rw [Function.update_self, keptOf_concat, if_pos rfl]
        exact (perm_put_back hback hmem _).trans (h.pool call.stream)
      · rw [Function.update_of_ne hid, keptOf_concat, if_neg (Ne.symm hid), List.append_nil]
        exact h.pool id
    · by_cases hid : id = call.stream
      · subst hid
        have hlength := congrArg List.length hback
        have hold := h.length call.stream
        rw [Function.update_self, keptOf_concat, if_pos rfl]
        simp only [List.length_append, List.length_singleton] at hlength ⊢
        omega
      · rw [Function.update_of_ne hid, keptOf_concat, if_neg (Ne.symm hid), List.append_nil]
        exact h.length id
    · rw [keptOf_concat] at hnil
      obtain ⟨hold, hnew⟩ := List.append_eq_nil_iff.mp hnil
      by_cases hid : id = call.stream
      · subst hid
        rw [if_pos rfl] at hnew
        rw [hnew, List.append_nil] at hback
        rw [Function.update_self, hback, h.queued _ hold]
      · rw [Function.update_of_ne hid]
        exact h.queued id hold

theorem accounted_of_run {pools : StreamId → List Nat} {calls : List StreamCall} {s : Streams}
    (hrun : run step (start pools) calls = some s) : Accounted pools calls s := by
  have hstart : Accounted pools [] (start pools) :=
    ⟨fun id => by rw [keptOf, List.flatMap_nil, List.append_nil]; exact .refl _, fun _ => rfl,
      fun _ _ => rfl⟩
  exact run_induction hstart (fun _ _ _ _ _ h hstep => h.step hstep) hrun

/-- **The streams keep their buffers** exactly when every buffer that a callback dequeues is usable. -/
theorem conserved_iff (pools : StreamId → List Nat) (calls : List StreamCall) (s : Streams)
    (hrun : run step (start pools) calls = some s) :
    Conserved pools s ↔ ∀ call ∈ calls, call.Usable := by
  have haccounted := accounted_of_run hrun
  constructor
  · intro h call hcall
    have hlength := haccounted.length call.stream
    rw [(h call.stream).1] at hlength
    have hnil : keptOf call.stream calls = [] := List.length_eq_zero_iff.mp (by omega)
    have hkept := List.flatMap_eq_nil_iff.mp hnil call hcall
    rw [if_pos rfl] at hkept
    exact StreamCall.kept_eq_nil_iff.mp hkept
  · intro h id
    have hnil : keptOf id calls = [] := by
      refine List.flatMap_eq_nil_iff.mpr fun call hcall => ?_
      rw [StreamCall.kept_eq_nil_iff.mpr (h call hcall), ite_self]
    have hpool := haccounted.pool id
    rw [hnil, List.append_nil] at hpool
    exact ⟨haccounted.queued id hnil, hpool⟩

/-- A buffer of a stream of each kind, with a message to send and one received. -/
def threeCalls : List StreamCall :=
  [{ stream := ⟨.control, 0⟩
     buffer := some { id := 1, datas := some [{ data := true, chunk := true, maxsize := 128 }] }
     queue := ⟨[{ parameterName := "Looper:mix", value := .double (.finite 70) }], by decide⟩ },
    { stream := ⟨.feedback, 0⟩
      buffer := some { id := 0, datas := some [{ data := true, chunk := true, maxsize := 64
                                                 pod := some (.sequence [(.properties, .int 0)]) }] } },
    { stream := ⟨.monitor, 0⟩, buffer := some { id := 0, datas := none } }]

theorem usable_threeCalls : ∀ call ∈ threeCalls, call.Usable := by
  simp only [threeCalls, List.forall_mem_cons]
  refine ⟨fun b hb => ?_, fun b hb => ?_, fun _ _ => trivial, by simp⟩
  · obtain rfl := Option.some.inj hb
    exact ⟨_, rfl, by decide⟩
  · obtain rfl := Option.some.inj hb
    refine ⟨_, rfl, ?_⟩
    rintro data rest heq
    obtain ⟨rfl, -⟩ := List.cons.inj heq
    refine ⟨rfl, rfl, _, rfl, fun value hvalue => ?_⟩
    obtain rfl := Option.some.inj hvalue
    decide

theorem conserved_three : ∃ s, run step (start fun _ => [0, 1]) threeCalls = some s ∧
    Conserved (fun _ => [0, 1]) s := by
  obtain ⟨s, hs⟩ : ∃ s, run step (start fun _ => [0, 1]) threeCalls = some s := ⟨_, rfl⟩
  exact ⟨s, hs, (conserved_iff _ threeCalls s hs).mpr usable_threeCalls⟩

/-- A buffer without data planes is not queued back. -/
theorem buffer_without_planes_is_kept : ¬ ∀ (pools : StreamId → List Nat) (calls : List StreamCall)
    (s : Streams), run step (start pools) calls = some s → Conserved pools s := by
  intro h
  have hconserved := h (fun _ => [0, 1])
    [{ stream := ⟨.control, 0⟩, buffer := some { id := 0, datas := some [] } }] _ rfl
  exact absurd (hconserved ⟨.control, 0⟩).1 (by decide)

end Streams

end Kpmx
