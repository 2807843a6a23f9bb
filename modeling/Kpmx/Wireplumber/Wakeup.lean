import Kpmx.Lib.Runs
import Kpmx.Lib.Spsc
import Kpmx.Lib.WakeFlag
import Kpmx.Model.Messages
import Mathlib.Data.Fintype.Basic

/-!
# Two consumers on one flag

`wireplumber_object_manager_data.has_value` wakes two threads: `updates_to_qt_nodes_model_thread`
drains `queue`, `wireplumber_metadata_update_thread` drains `metadata_updates_queue`, and each lowers
the flag for both.

* `no_lost_wakeup_of_safe_clears` : no wake-up is lost in a run in which the flag is lowered only while
  the other thread is not waiting with messages left;
* `lost_of_unsafe_clear` : any other lowering of the flag loses one;
* `wakeup_is_stolen` : and the threads can do it.
-/

namespace Kpmx

open Runs WakeFlag

/-- The places that push, store `true` and notify. -/
inductive Producer where
  | nodeAddedCallback
  | nodeRemovedCallback
  | metadataChangedCallback
  | setTargetObject
  deriving DecidableEq

inductive Consumer where
  | updatesToQtNodesModelThread
  | wireplumberMetadataUpdateThread
  deriving DecidableEq

instance : Fintype Producer where
  elems := {.nodeAddedCallback, .nodeRemovedCallback, .metadataChangedCallback, .setTargetObject}
  complete := by intro p; cases p <;> decide

instance : Fintype Consumer where
  elems := {.updatesToQtNodesModelThread, .wireplumberMetadataUpdateThread}
  complete := by intro c; cases c <;> decide

/-- Where a consumer stands: about to drain its queue, about to check the flag in `wait(false)`,
blocked there, or past it and about to store `false`. -/
inductive ConsumerPc where
  | drain
  | check
  | blocked
  | clear
  deriving DecidableEq

def ConsumerPc.notified : ConsumerPc → ConsumerPc
  | .blocked => .check
  | pc => pc

/-- A consumer has one item, its queue. -/
def ConsumerPc.abs (c : Consumer) : ConsumerPc → Pc Consumer
  | .drain => .scan [c]
  | .check => .check
  | .blocked => .blocked
  | .clear => .clear

theorem ConsumerPc.abs_notified (c : Consumer) (pc : ConsumerPc) :
    pc.notified.abs c = (pc.abs c).notified := by
  cases pc <;> rfl

theorem ConsumerPc.abs_wait (c : Consumer) (hasValue : Bool) :
    (if hasValue then clear else blocked : ConsumerPc).abs c = .awaited hasValue := by
  cases hasValue <;> rfl

/-- The flag, the two queues behind it and where everybody stands. -/
structure ObjectManagerSync where
  hasValue : Bool
  queue : Spsc WireplumberObjectManagerQueueMessage queueCapacity
  metadataUpdatesQueue : Spsc WireplumberMetadataUpdate queueCapacity
  producers : Producer → ProducerPc
  consumers : Consumer → ConsumerPc

namespace ObjectManagerSync

inductive Action where
  | nodeAdded (node : WireplumberNode)
  | nodeRemoved (node : WireplumberNode)
  | metadataChanged (update : WireplumberMetadataUpdate)
  | setTargetObject (update : WireplumberMetadataUpdate)
  | store (p : Producer)
  | notifyAll (p : Producer)
  | drain (c : Consumer)
  | wait (c : Consumer)
  | clear (c : Consumer)

def start : ObjectManagerSync where
  hasValue := false
  queue := .empty
  metadataUpdatesQueue := .empty
  producers := fun _ => .idle
  consumers := fun _ => .drain

/-- A WirePlumber callback pushes to `queue`; the result is ignored. -/
def pushMessage (st : ObjectManagerSync) (p : Producer)
    (message : WireplumberObjectManagerQueueMessage) : Option ObjectManagerSync :=
  if st.producers p = .idle then
    some { st with
      queue := (st.queue.push message).2
      producers := Function.update st.producers p .written }
  else none

def step (st : ObjectManagerSync) : Action → Option ObjectManagerSync
  | .nodeAdded node => st.pushMessage .nodeAddedCallback
      { object := some (.node node), operation := .insert }
  | .nodeRemoved node => st.pushMessage .nodeRemovedCallback
      { object := some (.node node), operation := .delete }
  | .metadataChanged update => st.pushMessage .metadataChangedCallback
      { object := some (.metadataUpdate update), operation := .metadataUpdate }
  | .setTargetObject update =>
    if st.producers .setTargetObject = .idle then
      some { st with
        metadataUpdatesQueue := (st.metadataUpdatesQueue.push update).2
        producers := Function.update st.producers .setTargetObject .written }
    else none
  | .store p =>
    if st.producers p = .written then
      some { st with hasValue := true, producers := Function.update st.producers p .stored }
    else none
  | .notifyAll p =>
    if st.producers p = .stored then
      some { st with
        producers := Function.update st.producers p .idle
        consumers := ConsumerPc.notified ∘ st.consumers }
    else none
  | .drain c =>
    if st.consumers c = .drain then
      match c with
      | .updatesToQtNodesModelThread => some { st with
          queue := st.queue.consumeAll.2
          consumers := Function.update st.consumers c .check }
      | .wireplumberMetadataUpdateThread => some { st with
          metadataUpdatesQueue := st.metadataUpdatesQueue.consumeAll.2
          consumers := Function.update st.consumers c .check }
    else none
  | .wait c =>
    -- a blocked thread may look at the flag again without having been notified
    if st.consumers c = .check ∨ st.consumers c = .blocked then
      some { st with
        consumers := Function.update st.consumers c (if st.hasValue then .clear else .blocked) }
    else none
  | .clear c =>
    if st.consumers c = .clear then
      some { st with hasValue := false, consumers := Function.update st.consumers c .drain }
    else none

/-- The consumer's own queue holds something. -/
def unread (st : ObjectManagerSync) : Consumer → Bool
  | .updatesToQtNodesModelThread => !st.queue.items.isEmpty
  | .wireplumberMetadataUpdateThread => !st.metadataUpdatesQueue.items.isEmpty

/-- The consumer has drained its queue in this round and is not past the wait. -/
def Waiting (st : ObjectManagerSync) (c : Consumer) : Prop :=
  st.consumers c = .check ∨ st.consumers c = .blocked

/-- A consumer blocked on the lowered flag, with no producer between its push and its store, has
nothing in its queue. -/
def NoLostWakeup (st : ObjectManagerSync) : Prop :=
  ∀ c, st.consumers c = .blocked → st.hasValue = false → (∀ p, st.producers p ≠ .written) →
    st.unread c = false

/-- The flag is lowered only while no other consumer is waiting with messages left, unless a producer
is about to raise it anyway. -/
def ClearsSafely (st : ObjectManagerSync) : Action → Prop
  | .clear c => ∀ d, d ≠ c → st.Waiting d → st.unread d = true → ∃ p, st.producers p = .written
  | _ => True

instance (st : ObjectManagerSync) (c : Consumer) : Decidable (st.Waiting c) :=
  inferInstanceAs (Decidable (_ ∨ _))

instance (st : ObjectManagerSync) (a : Action) : Decidable (st.ClearsSafely a) :=
  match a with
  | .clear c => inferInstanceAs (Decidable (∀ d, d ≠ c → st.Waiting d → st.unread d = true →
      ∃ p, st.producers p = .written))
  | .nodeAdded _ | .nodeRemoved _ | .metadataChanged _ | .setTargetObject _ | .store _ |
    .notifyAll _ | .drain _ | .wait _ => isTrue trivial

/-! ## The abstract view -/

def items (c : Consumer) : List Consumer := [c]

def abs (st : ObjectManagerSync) : State Producer Consumer Consumer where
  flag := st.hasValue
  armed := ProducerPc.armed ∘ st.producers
  unread := st.unread
  pc := fun c => (st.consumers c).abs c

abbrev AbsStep := WakeFlag.Step items (NoStranded (π := Producer) items)

theorem abs_consumers_update (consumers : Consumer → ConsumerPc) (c : Consumer) (pc : ConsumerPc) :
    (fun d => (Function.update consumers c pc d).abs d) =
      Function.update (fun d => (consumers d).abs d) c (pc.abs c) := by
  funext d
  by_cases h : d = c
  · subst h; simp
  · simp [h]

theorem passed_abs_iff (st : ObjectManagerSync) (c : Consumer) :
    ((st.consumers c).abs c).Passed c ↔ st.Waiting c := by
  unfold Waiting
  cases st.consumers c <;> simp [ConsumerPc.abs, Pc.Passed]

/-- A safe clear strands nobody. -/
theorem noStranded_of_clearsSafely {st : ObjectManagerSync} {c : Consumer}
    (h : st.ClearsSafely (.clear c)) : NoStranded items (abs st) c := by
  intro d hd i hi hp hu
  obtain rfl : i = d := by simpa [items] using hi
  obtain ⟨p, hp⟩ := h i hd ((passed_abs_iff st i).mp hp) hu
  exact ⟨p, by simp [abs, ProducerPc.armed, hp]⟩

theorem unread_push_queue (st : ObjectManagerSync) (message : WireplumberObjectManagerQueueMessage)
    (producers : Producer → ProducerPc) :
    unread { st with queue := (st.queue.push message).2, producers := producers } =
      Function.update st.unread .updatesToQtNodesModelThread true := by
  have hne := Spsc.push_items_ne_nil (by decide) st.queue message
  funext c
  cases c with
  | updatesToQtNodesModelThread => simp [unread, hne]
  | wireplumberMetadataUpdateThread => rfl

theorem unread_push_updates (st : ObjectManagerSync) (update : WireplumberMetadataUpdate)
    (producers : Producer → ProducerPc) :
    unread { st with
      metadataUpdatesQueue := (st.metadataUpdatesQueue.push update).2, producers := producers } =
      Function.update st.unread .wireplumberMetadataUpdateThread true := by
  have hne := Spsc.push_items_ne_nil (by decide) st.metadataUpdatesQueue update
  funext c
  cases c with
  | updatesToQtNodesModelThread => rfl
  | wireplumberMetadataUpdateThread => simp [unread, hne]

theorem pushMessage_simulates {a b : ObjectManagerSync} {p : Producer}
    {message : WireplumberObjectManagerQueueMessage} (h : a.pushMessage p message = some b) :
    Relation.ReflTransGen AbsStep (abs a) (abs b) := by
  simp only [pushMessage, Option.ite_none_right_eq_some, Option.some.injEq] at h
  obtain ⟨-, rfl⟩ := h
  have habs : AbsStep (abs a) _ := .write (abs a) p .updatesToQtNodesModelThread
  refine .single ?_
  simp only [abs, unread_push_queue, Function.comp_update]
  exact habs

theorem unread_drain_queue (st : ObjectManagerSync) (consumers : Consumer → ConsumerPc) :
    unread { st with queue := st.queue.consumeAll.2, consumers := consumers } =
      Function.update st.unread .updatesToQtNodesModelThread false := by
  funext c
  cases c <;> rfl

theorem unread_drain_updates (st : ObjectManagerSync) (consumers : Consumer → ConsumerPc) :
    unread { st with
      metadataUpdatesQueue := st.metadataUpdatesQueue.consumeAll.2, consumers := consumers } =
      Function.update st.unread .wireplumberMetadataUpdateThread false := by
  funext c
  cases c <;> rfl

/-- Draining is reading the one item, going on and reaching the end. -/
theorem drain_path {st : ObjectManagerSync} {c : Consumer} (hc : st.consumers c = .drain) :
    Relation.ReflTransGen AbsStep (abs st) { abs st with
      unread := Function.update st.unread c false
      pc := Function.update (abs st).pc c .check } := by
  have hpc : (abs st).pc c = .scan [c] := by simp [abs, hc, ConsumerPc.abs]
  have hread : AbsStep (abs st) _ := .read (abs st) c c [] hpc
  have hnext : AbsStep { abs st with unread := Function.update st.unread c false } _ :=
    .next _ c c [] hpc (Function.update_self ..)
  have hfinish : AbsStep { abs st with
      unread := Function.update st.unread c false
      pc := Function.update (abs st).pc c (.scan []) } _ :=
    .finish _ c (Function.update_self ..)
  refine ((Relation.ReflTransGen.single hread).tail hnext).tail ?_
  simpa only [Function.update_idem] using hfinish

theorem step_simulates (a : ObjectManagerSync) (l : Action) (b : ObjectManagerSync)
    (h : guarded ClearsSafely step a l = some b) :
    Relation.ReflTransGen AbsStep (abs a) (abs b) := by
  obtain ⟨hsafe, h⟩ := (guarded_eq_some ClearsSafely).mp h
  cases l with
  | nodeAdded node => exact pushMessage_simulates h
  | nodeRemoved node => exact pushMessage_simulates h
  | metadataChanged update => exact pushMessage_simulates h
  | setTargetObject update =>
    simp only [step, Option.ite_none_right_eq_some, Option.some.injEq] at h
    obtain ⟨-, rfl⟩ := h
    have habs : AbsStep (abs a) _ := .write (abs a) .setTargetObject .wireplumberMetadataUpdateThread
    refine .single ?_
    simp only [abs, unread_push_updates, Function.comp_update]
    exact habs
  | store p =>
    simp only [step, Option.ite_none_right_eq_some, Option.some.injEq] at h
    obtain ⟨-, rfl⟩ := h
    have habs : AbsStep (abs a) _ := .store (abs a) p
    refine .single ?_
    simp only [abs, Function.comp_update]
    exact habs
  | notifyAll p =>
    simp only [step, Option.ite_none_right_eq_some, Option.some.injEq] at h
    obtain ⟨hp, rfl⟩ := h
    have habs : AbsStep (abs a) _ := .notifyAll (abs a)
    refine .single ?_
    simp only [abs, armed_update_idle hp, Function.comp_apply, ConsumerPc.abs_notified]
    exact habs
  | drain c =>
    simp only [step, Option.ite_none_right_eq_some] at h
    obtain ⟨hc, h⟩ := h
    have hpath := drain_path hc
    cases c with
    | updatesToQtNodesModelThread =>
      cases h
      simp only [abs, unread_drain_queue, abs_consumers_update]
      exact hpath
    | wireplumberMetadataUpdateThread =>
      cases h
      simp only [abs, unread_drain_updates, abs_consumers_update]
      exact hpath
  | wait c =>
    simp only [step, Option.ite_none_right_eq_some, Option.some.injEq] at h
    obtain ⟨hc, rfl⟩ := h
    have hpc : (abs a).pc c = .check ∨ (abs a).pc c = .blocked := by
      rcases hc with hc | hc <;> simp [abs, hc, ConsumerPc.abs]
    have habs : AbsStep (abs a) _ := .wait (abs a) c hpc
    refine .single ?_
    simp only [abs, abs_consumers_update, ConsumerPc.abs_wait]
    exact habs
  | clear c =>
    simp only [step, Option.ite_none_right_eq_some, Option.some.injEq] at h
    obtain ⟨hc, rfl⟩ := h
    have habs : AbsStep (abs a) _ := .clear (abs a) c (by simp [abs, hc, ConsumerPc.abs])
      (noStranded_of_clearsSafely hsafe)
    refine .single ?_
    simp only [abs, abs_consumers_update]
    exact habs

/-! ## Lost and kept wake-ups -/

/-- **No wake-up is lost** in a run in which the flag is lowered only safely. -/
theorem no_lost_wakeup_of_safe_clears (ls : List Action) (st : ObjectManagerSync)
    (hrun : run (guarded ClearsSafely step) start ls = some st) : st.NoLostWakeup := by
  intro c hblocked hflag hproducers
  have hpath := run_simulates AbsStep abs step_simulates hrun
  have hcovered : Covered items (abs start) := covered_of_scan fun _ => rfl
  have hpc : (abs st).pc c = .blocked := by simp [abs, hblocked, ConsumerPc.abs]
  exact no_lost_wakeup hpath hcovered hpc hflag
    (fun p => ProducerPc.armed_eq_false (hproducers p)) c List.mem_cons_self

/-- An unsafe lowering loses a wake-up as soon as the other thread looks at the flag. -/
theorem lost_of_unsafe_clear {ls : List Action} {a : ObjectManagerSync} {c : Consumer}
    (hrun : run step start ls = some a) (hc : a.consumers c = .clear)
    (hbad : ¬ a.ClearsSafely (.clear c)) :
    ∃ d st, run step start (ls ++ [.clear c, .wait d]) = some st ∧ ¬ st.NoLostWakeup := by
  simp only [ClearsSafely, not_forall, not_exists] at hbad
  obtain ⟨d, hd, hwaiting, hunread, hproducers⟩ := hbad
  have hwait : Function.update a.consumers c .drain d = .check ∨
      Function.update a.consumers c .drain d = .blocked := by
    simpa [hd, Waiting] using hwaiting
  have hrun' : run step start (ls ++ [.clear c, .wait d]) = some { a with
      hasValue := false
      consumers := Function.update (Function.update a.consumers c .drain) d .blocked } := by
    rw [run_append, hrun]
    simp only [Option.bind_some, run_cons, run_nil, step, if_pos hc]
    rw [if_pos hwait]
    rfl
  refine ⟨d, _, hrun', fun h => ?_⟩
  have hread := h d (Function.update_self ..) rfl hproducers
  exact absurd (hunread.symm.trans hread) (by decide)

/-- Both threads go to sleep; a node is added and notified; the metadata thread takes the flag before
the other thread has looked at it. -/
def stealingRun : List Action :=
  [.drain .updatesToQtNodesModelThread, .wait .updatesToQtNodesModelThread,
    .drain .wireplumberMetadataUpdateThread, .wait .wireplumberMetadataUpdateThread,
    .nodeAdded {}, .store .nodeAddedCallback, .notifyAll .nodeAddedCallback,
    .wait .wireplumberMetadataUpdateThread, .clear .wireplumberMetadataUpdateThread,
    .wait .updatesToQtNodesModelThread]

theorem wakeup_is_stolen : ¬ ∀ (ls : List Action) (st : ObjectManagerSync),
    run step start ls = some st → st.NoLostWakeup := by
  intro h
  have hsome : (run step start stealingRun).isSome = true := rfl
  obtain ⟨st, hrun⟩ := Option.isSome_iff_exists.mp hsome
  have hview : (run step start stealingRun).map (fun st =>
      (st.consumers .updatesToQtNodesModelThread, st.hasValue,
        st.unread .updatesToQtNodesModelThread, decide (∀ p, st.producers p ≠ .written))) =
      some (.blocked, false, true, true) := rfl
  simp only [hrun, Option.map_some, Option.some.injEq, Prod.mk.injEq, decide_eq_true_eq] at hview
  obtain ⟨hblocked, hflag, hunread, hproducers⟩ := hview
  exact absurd (h stealingRun st hrun _ hblocked hflag hproducers) (by rw [hunread]; decide)

/-- The same node, when its own thread takes the flag first. -/
theorem no_lost_wakeup_of_own_clear : ∃ st, run step start
    [.drain .updatesToQtNodesModelThread, .wait .updatesToQtNodesModelThread,
      .nodeAdded {}, .store .nodeAddedCallback, .notifyAll .nodeAddedCallback,
      .wait .updatesToQtNodesModelThread, .clear .updatesToQtNodesModelThread,
      .drain .updatesToQtNodesModelThread, .wait .updatesToQtNodesModelThread] = some st ∧
    st.consumers .updatesToQtNodesModelThread = .blocked ∧ st.NoLostWakeup := by
  refine ⟨_, rfl, rfl, no_lost_wakeup_of_safe_clears
    [.drain .updatesToQtNodesModelThread, .wait .updatesToQtNodesModelThread,
      .nodeAdded {}, .store .nodeAddedCallback, .notifyAll .nodeAddedCallback,
      .wait .updatesToQtNodesModelThread, .clear .updatesToQtNodesModelThread,
      .drain .updatesToQtNodesModelThread, .wait .updatesToQtNodesModelThread] _ rfl⟩

end ObjectManagerSync

end Kpmx
