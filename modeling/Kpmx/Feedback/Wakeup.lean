import Kpmx.Feedback.Transport
import Kpmx.Lib.WakeFlag

/-!
# Waking the feedback forwarder

Any number of feedback streams, each with a slot, and `updates_to_qt_thread`, which goes over the
slots, waits on the one flag, lowers it and starts over.

* `step_simulates` : every step is one of `WakeFlag.Step`, with the forwarder as the only consumer;
* `no_unread_slot` : a forwarder blocked on the lowered flag has left no slot unread.
-/

namespace Kpmx

open Runs WakeFlag

/-- Where `updates_to_qt_thread` stands: with the slots `rest` still to read in this round, about to
check the flag in `wait(false)`, blocked there, or past it and about to store `false`. -/
inductive ForwarderPc (n : Nat) where
  | reading (rest : List (Fin n))
  | check
  | blocked
  | clear
  deriving DecidableEq

/-- `notify_all`: a blocked forwarder checks the flag again. -/
def ForwarderPc.notified {n : Nat} : ForwarderPc n → ForwarderPc n
  | .blocked => .check
  | pc => pc

/-- The slots of `n` streams, the flag of `feedback_ctrl`, the parties and the calls posted to Qt.
`running` is true throughout. -/
structure FeedbackSync (n : Nat) where
  hasValue : Bool
  slots : Fin n → Option QueueMessage
  streams : Fin n → ProducerPc
  forwarder : ForwarderPc n
  posted : List (Fin n × QueueMessage)

def ForwarderPc.abs {n : Nat} : ForwarderPc n → WakeFlag.Pc (Fin n)
  | .reading rest => .scan rest
  | .check => .check
  | .blocked => .blocked
  | .clear => .clear

theorem ForwarderPc.abs_notified {n : Nat} (pc : ForwarderPc n) : pc.notified.abs = pc.abs.notified := by
  cases pc <;> rfl

theorem ForwarderPc.abs_wait {n : Nat} (hasValue : Bool) :
    (if hasValue then clear else blocked : ForwarderPc n).abs = .awaited hasValue := by
  cases hasValue <;> rfl

namespace FeedbackSync

variable {n : Nat}

inductive Action (n : Nat) where
  | feedbackProcess (k : Fin n) (datas : List (Option SpaPod))
  | store (k : Fin n)
  | notifyAll (k : Fin n)
  | read
  | wait
  | clear

/-- The slot of a stream: `feedback_updates[index]` with an eight-bit index. -/
def slotOf (k : Fin n) : Fin n := ⟨k % 256, Nat.lt_of_le_of_lt (Nat.mod_le _ _) k.isLt⟩

def start (n : Nat) : FeedbackSync n where
  hasValue := false
  slots := fun _ => none
  streams := fun _ => .idle
  forwarder := .reading (List.finRange n)
  posted := []

def step (st : FeedbackSync n) : Action n → Option (FeedbackSync n)
  | .feedbackProcess k datas =>
    match st.streams k, Kpmx.feedbackProcess datas with
    | .idle, .ok (some message) => some { st with
        slots := Function.update st.slots (slotOf k) (some message)
        streams := Function.update st.streams k .written }
    | .idle, .ok none => some st
    | _, _ => none
  | .store k =>
    if st.streams k = .written then
      some { st with hasValue := true, streams := Function.update st.streams k .stored }
    else none
  | .notifyAll k =>
    if st.streams k = .stored then
      some { st with
        forwarder := st.forwarder.notified
        streams := Function.update st.streams k .idle }
    else none
  | .read =>
    match st.forwarder with
    | .reading [] => some { st with forwarder := .check }
    | .reading (k :: rest) =>
      match st.slots k with
      | some message => some { st with
          slots := Function.update st.slots k none
          posted := st.posted ++ [(k, message)] }
      | none => some { st with forwarder := .reading rest }
    | _ => none
  | .wait =>
    match st.forwarder with
    | .check => some { st with forwarder := if st.hasValue then .clear else .blocked }
    -- a blocked thread may look at the flag again without having been notified
    | .blocked => some { st with forwarder := if st.hasValue then .clear else .blocked }
    | _ => none
  | .clear =>
    match st.forwarder with
    | .clear => some { st with hasValue := false, forwarder := .reading (List.finRange n) }
    | _ => none

/-! ## The abstract view -/

/-- One consumer, the forwarder; the slots are its items and the streams its producers. -/
def abs (st : FeedbackSync n) : WakeFlag.State (Fin n) Unit (Fin n) where
  flag := st.hasValue
  armed := ProducerPc.armed ∘ st.streams
  unread := Option.isSome ∘ st.slots
  pc := fun _ => st.forwarder.abs

def items (n : Nat) : Unit → List (Fin n) := fun _ => List.finRange n

/-- The abstract steps, with the condition on lowering the flag under which nothing is lost. -/
abbrev AbsStep (n : Nat) := WakeFlag.Step (items n) (WakeFlag.NoStranded (π := Fin n) (items n))

theorem update_unit (pc pc' : WakeFlag.Pc (Fin n)) :
    Function.update (fun _ : Unit => pc) () pc' = fun _ => pc' :=
  Function.update_eq_const_of_subsingleton ..

theorem step_simulates (a : FeedbackSync n) (l : Action n) (b : FeedbackSync n)
    (h : step a l = some b) : Relation.ReflTransGen (AbsStep n) (abs a) (abs b) := by
  cases l with
  | feedbackProcess k datas =>
    simp only [step] at h
    split at h
    · cases h
      have habs : AbsStep n (abs a) _ := .write (abs a) k (slotOf k)
      exact .single (by simpa [abs, Function.comp_update, ProducerPc.armed] using habs)
    · cases h; exact .refl
    · cases h
  | store k =>
    simp only [step, Option.ite_none_right_eq_some, Option.some.injEq] at h
    obtain ⟨-, rfl⟩ := h
    have habs : AbsStep n (abs a) _ := .store (abs a) k
    exact .single (by simpa [abs, Function.comp_update, ProducerPc.armed] using habs)
  | notifyAll k =>
    simp only [step, Option.ite_none_right_eq_some, Option.some.injEq] at h
    obtain ⟨hk, rfl⟩ := h
    have habs : AbsStep n (abs a) _ := .notifyAll (abs a)
    refine .single ?_
    simp only [abs, armed_update_idle hk, ForwarderPc.abs_notified]
    exact habs
  | read =>
    simp only [step] at h
    split at h
    · next hf =>
      cases h
      have habs : AbsStep n (abs a) _ := .finish (abs a) () (by simp [abs, hf, ForwarderPc.abs])
      exact .single (by simpa [abs, ForwarderPc.abs, update_unit] using habs)
    · next k rest hf =>
      split at h
      · cases h
        have habs : AbsStep n (abs a) _ :=
          .read (abs a) () k rest (by simp [abs, hf, ForwarderPc.abs])
        exact .single (by simpa [abs, Function.comp_update] using habs)
      · next hk =>
        cases h
        have habs : AbsStep n (abs a) _ :=
          .next (abs a) () k rest (by simp [abs, hf, ForwarderPc.abs]) (by simp [abs, hk])
        exact .single (by simpa [abs, ForwarderPc.abs, update_unit] using habs)
    · cases h
  | wait =>
    simp only [step] at h
    split at h
    · next hf =>
      cases h
      have habs : AbsStep n (abs a) _ := .wait (abs a) () (.inl (by simp [abs, hf, ForwarderPc.abs]))
      exact .single (by simpa only [abs, ForwarderPc.abs_wait, update_unit] using habs)
    · next hf =>
      cases h
      have habs : AbsStep n (abs a) _ := .wait (abs a) () (.inr (by simp [abs, hf, ForwarderPc.abs]))
      exact .single (by simpa only [abs, ForwarderPc.abs_wait, update_unit] using habs)
    · cases h
  | clear =>
    simp only [step] at h
    split at h
    · next hf =>
      cases h
      have habs : AbsStep n (abs a) _ :=
        .clear (abs a) () (by simp [abs, hf, ForwarderPc.abs]) (WakeFlag.noStranded_of_subsingleton _ _)
      exact .single (by simpa [abs, ForwarderPc.abs, update_unit, items] using habs)
    · cases h

/-- **No lost wake-up on the feedback path.** While the forwarder is blocked on the lowered flag and
no stream is between its write and its store, no slot holds an unread value. -/
theorem no_unread_slot (n : Nat) (ls : List (Action n)) (st : FeedbackSync n)
    (hrun : run step (start n) ls = some st) (hblocked : st.forwarder = .blocked)
    (hflag : st.hasValue = false) (hstreams : ∀ k, st.streams k ≠ .written) (k : Fin n) :
    st.slots k = none := by
  have hpath := run_simulates (AbsStep n) abs step_simulates hrun
  have hcovered : WakeFlag.Covered (items n) (abs (start n)) := WakeFlag.covered_of_scan fun _ => rfl
  have hunread := WakeFlag.no_lost_wakeup hpath hcovered (c := ())
    (by simp [abs, hblocked, ForwarderPc.abs]) hflag
    (fun p => ProducerPc.armed_eq_false (hstreams p)) k (List.mem_finRange k)
  simpa [abs] using hunread

/-- One stream writes while the forwarder is blocked; the forwarder wakes, reads and blocks again. -/
def wakingRun : List (Action 2) :=
  [.read, .read, .read, .wait,
    .feedbackProcess 1 [some (.sequence [(.properties, .object [])])], .store 1, .notifyAll 1,
    .wait, .clear, .read, .read, .read, .read, .wait]

theorem no_unread_slot_waking : ∃ st, run step (start 2) wakingRun = some st ∧
    st.posted.length = 1 ∧ ∀ k, st.slots k = none := by
  have hsome : (run step (start 2) wakingRun).isSome = true := rfl
  obtain ⟨st, hrun⟩ := Option.isSome_iff_exists.mp hsome
  have hview : (run step (start 2) wakingRun).map (fun st => (st.forwarder, st.hasValue,
      st.streams 0, st.streams 1, st.posted.length)) = some (.blocked, false, .idle, .idle, 1) := rfl
  simp only [hrun, Option.map_some, Option.some.injEq, Prod.mk.injEq] at hview
  obtain ⟨hblocked, hflag, h0, h1, hposted⟩ := hview
  refine ⟨st, hrun, hposted, no_unread_slot 2 wakingRun st hrun hblocked hflag fun k => ?_⟩
  match k with
  | 0 => rw [h0]; decide
  | 1 => rw [h1]; decide

end FeedbackSync

end Kpmx
