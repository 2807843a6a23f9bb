import Kpmx.Feedback.Wakeup
import Kpmx.Lib.Progress
import Mathlib.Algebra.Order.BigOperators.Group.Finset
import Mathlib.Data.Fintype.BigOperators

/-!
# The feedback forwarder on its own

What `updates_to_qt_thread` does when no stream moves.

* `step_*` : what each step of the streams and of the forwarder does;
* `turns` : the steps to the next block, but for those that read a message;
* `forwarder_moves` : short of a block on the lowered flag it can always move, and moves towards it;
* `forwarder_drains` : it blocks after a bounded number of steps, and by then it has posted every unread
  message once and nothing else.
-/

namespace Kpmx.FeedbackSync

open Runs WakeFlag

variable {n : Nat} {a b : FeedbackSync n}

/-! ## What a step does -/

theorem step_feedbackProcess {k : Fin n} {datas : List (Option SpaPod)}
    (h : step a (.feedbackProcess k datas) = some b) : a.streams k = .idle ∧
      ((Kpmx.feedbackProcess datas = .ok none ∧ b = a) ∨
        ∃ message, Kpmx.feedbackProcess datas = .ok (some message) ∧ b = { a with
          slots := Function.update a.slots (slotOf k) (some message)
          streams := Function.update a.streams k .written }) := by
  simp only [step] at h
  split at h
  · next message hidle hprocess => cases h; exact ⟨hidle, .inr ⟨message, hprocess, rfl⟩⟩
  · next hidle hprocess => cases h; exact ⟨hidle, .inl ⟨hprocess, rfl⟩⟩
  · cases h

theorem step_store {k : Fin n} (h : step a (.store k) = some b) : a.streams k = .written ∧
    b = { a with hasValue := true, streams := Function.update a.streams k .stored } := by
  obtain ⟨hk, h⟩ := Option.ite_none_right_eq_some.mp h
  exact ⟨hk, (Option.some.inj h).symm⟩

theorem step_notifyAll {k : Fin n} (h : step a (.notifyAll k) = some b) : a.streams k = .stored ∧
    b = { a with
      forwarder := a.forwarder.notified
      streams := Function.update a.streams k .idle } := by
  obtain ⟨hk, h⟩ := Option.ite_none_right_eq_some.mp h
  exact ⟨hk, (Option.some.inj h).symm⟩

theorem step_read (h : step a .read = some b) :
    (a.forwarder = .reading [] ∧ b = { a with forwarder := .check }) ∨
    ∃ k rest, a.forwarder = .reading (k :: rest) ∧
      ((∃ message, a.slots k = some message ∧ b = { a with
        slots := Function.update a.slots k none
        posted := a.posted ++ [(k, message)] }) ∨
      (a.slots k = none ∧ b = { a with forwarder := .reading rest })) := by
  simp only [step] at h
  split at h
  · next hf => cases h; exact .inl ⟨hf, rfl⟩
  · next k rest hf =>
    split at h
    · next message hk => cases h; exact .inr ⟨k, rest, hf, .inl ⟨message, hk, rfl⟩⟩
    · next hk => cases h; exact .inr ⟨k, rest, hf, .inr ⟨hk, rfl⟩⟩
  · cases h

theorem step_wait (h : step a .wait = some b) : (a.forwarder = .check ∨ a.forwarder = .blocked) ∧
    b = { a with forwarder := if a.hasValue then .clear else .blocked } := by
  simp only [step] at h
  split at h
  · next hf => cases h; exact ⟨.inl hf, rfl⟩
  · next hf => cases h; exact ⟨.inr hf, rfl⟩
  · cases h

theorem step_clear (h : step a .clear = some b) : a.forwarder = .clear ∧
    b = { a with hasValue := false, forwarder := .reading (List.finRange n) } := by
  simp only [step] at h
  split at h
  · next hf => cases h; exact ⟨hf, rfl⟩
  · cases h

/-! ## Towards the block -/

/-- The forwarder waits for the flag to be raised. -/
structure Waiting (st : FeedbackSync n) : Prop where
  forwarder : st.forwarder = .blocked
  hasValue : st.hasValue = false

instance (st : FeedbackSync n) : Decidable st.Waiting :=
  decidable_of_iff (st.forwarder = .blocked ∧ st.hasValue = false)
    ⟨fun ⟨hf, hv⟩ => ⟨hf, hv⟩, fun ⟨hf, hv⟩ => ⟨hf, hv⟩⟩

/-- The message of a slot is posted. -/
def taken (st : FeedbackSync n) (k : Fin n) (message : QueueMessage) : FeedbackSync n :=
  { st with slots := Function.update st.slots k none, posted := st.posted ++ [(k, message)] }

def Action.ofForwarder : Action n → Prop
  | .read | .wait | .clear => True
  | _ => False

/-- The steps from a check of the flag: it is found lowered, or another round comes first. -/
def checkTurns (n : Nat) (hasValue : Bool) : Nat := if hasValue then n + 4 else 1

/-- The steps of the forwarder to its next block, those that read a message left out. -/
def turns (st : FeedbackSync n) : Nat :=
  match st.forwarder with
  | .reading rest => rest.length + 1 + checkTurns n st.hasValue
  | .check => checkTurns n st.hasValue
  | .blocked => if st.hasValue then checkTurns n true else 0
  | .clear => n + 3

/-- **Short of its block the forwarder can move**: it posts the message of the slot it looks at, or
it takes one of its turns. -/
theorem forwarder_moves (st : FeedbackSync n) (h : ¬ st.Waiting) :
    (∃ k message, st.slots k = some message ∧ step st .read = some (st.taken k message)) ∨
    ∃ l t, Action.ofForwarder l ∧ step st l = some t ∧ t.slots = st.slots ∧ t.posted = st.posted ∧
      t.streams = st.streams ∧ t.turns < st.turns := by
  cases hf : st.forwarder with
  | reading rest =>
    cases rest with
    | nil =>
      refine .inr ⟨.read, { st with forwarder := .check }, trivial, ?_, rfl, rfl, rfl, ?_⟩
      · simp only [step, hf]
      · simp only [turns, hf, List.length_nil]
        omega
    | cons k rest =>
      cases hk : st.slots k with
      | some message =>
        refine .inl ⟨k, message, hk, ?_⟩
        simp only [step, hf, hk, taken]
      | none =>
        refine .inr ⟨.read, { st with forwarder := .reading rest }, trivial, ?_, rfl, rfl, rfl, ?_⟩
        · simp only [step, hf, hk]
        · simp only [turns, hf, List.length_cons]
          omega
  | check =>
    refine .inr ⟨.wait, { st with forwarder := if st.hasValue then .clear else .blocked }, trivial,
      ?_, rfl, rfl, rfl, ?_⟩
    · simp only [step, hf]
    · cases hv : st.hasValue <;> simp [turns, hf, hv, checkTurns]
  | blocked =>
    cases hv : st.hasValue with
    | false => exact absurd ⟨hf, hv⟩ h
    | true =>
      refine .inr ⟨.wait, { st with forwarder := .clear }, trivial, ?_, rfl, rfl, rfl, ?_⟩
      · simp only [step, hf, hv, if_true]
      · simp [turns, hf, hv, checkTurns]
  | clear =>
    refine .inr ⟨.clear, { st with hasValue := false, forwarder := .reading (List.finRange n) },
      trivial, ?_, rfl, rfl, rfl, ?_⟩
    · simp only [step, hf]
    · simp [turns, hf, checkTurns]

/-! ## The steps of a stream -/

theorem feedbackProcess_moves {st : FeedbackSync n} {k : Fin n} {datas : List (Option SpaPod)}
    {message : QueueMessage} (hidle : st.streams k = .idle)
    (hprocess : Kpmx.feedbackProcess datas = .ok (some message)) :
    ∃ t, step st (.feedbackProcess k datas) = some t ∧
      t.slots = Function.update st.slots (slotOf k) (some message) ∧ t.posted = st.posted ∧
      t.streams = Function.update st.streams k .written ∧ t.turns = st.turns := by
  simp only [step, hidle, hprocess]
  exact ⟨_, rfl, rfl, rfl, rfl, rfl⟩

theorem store_moves {st : FeedbackSync n} {k : Fin n} (h : st.streams k = .written) :
    ∃ t, step st (.store k) = some t ∧ t.slots = st.slots ∧ t.posted = st.posted ∧
      t.streams = Function.update st.streams k .stored ∧ t.turns ≤ st.turns + (n + 4) := by
  refine ⟨_, if_pos h, rfl, rfl, rfl, ?_⟩
  cases hf : st.forwarder <;> cases hv : st.hasValue <;> simp [turns, checkTurns, hf, hv]

theorem notifyAll_moves {st : FeedbackSync n} {k : Fin n} (h : st.streams k = .stored) :
    ∃ t, step st (.notifyAll k) = some t ∧ t.slots = st.slots ∧ t.posted = st.posted ∧
      t.streams = Function.update st.streams k .idle ∧ t.turns ≤ st.turns + 1 := by
  refine ⟨_, if_pos h, rfl, rfl, rfl, ?_⟩
  cases hf : st.forwarder <;> cases hv : st.hasValue <;>
    simp [turns, checkTurns, hf, hv, ForwarderPc.notified]

/-! ## The slots still to be read -/

/-- What an unread slot weighs. -/
def slotWeight (weight : Nat) (slot : Option QueueMessage) : Nat := if slot.isSome then weight else 0

def unread (weight : Nat) (st : FeedbackSync n) : Nat := ∑ k, slotWeight weight (st.slots k)

theorem unread_congr {weight : Nat} {st t : FeedbackSync n} (h : t.slots = st.slots) :
    t.unread weight = st.unread weight := by
  rw [unread, h, unread]

theorem slotWeight_le (weight : Nat) (slot : Option QueueMessage) : slotWeight weight slot ≤ weight := by
  unfold slotWeight
  split <;> omega

theorem unread_le (weight : Nat) (st : FeedbackSync n) : st.unread weight ≤ n * weight := by
  simpa [unread] using Finset.sum_le_card_nsmul Finset.univ _ weight
    fun k _ => slotWeight_le weight (st.slots k)

theorem unread_update_le (weight : Nat) {st t : FeedbackSync n} {i : Fin n}
    {slot : Option QueueMessage} (h : t.slots = Function.update st.slots i slot) :
    t.unread weight ≤ st.unread weight + weight := by
  have hsum := sum_of_others (f := fun j => slotWeight weight (st.slots j))
    (g := fun j => slotWeight weight (Function.update st.slots i slot j)) i
    fun j hj => by rw [Function.update_of_ne hj]
  have hslot := slotWeight_le weight slot
  simp only [Function.update_self] at hsum
  simp only [unread, h]
  omega

theorem unread_taken (weight : Nat) {st : FeedbackSync n} {k : Fin n} {message : QueueMessage}
    (hk : st.slots k = some message) :
    (st.taken k message).unread weight + weight = st.unread weight := by
  have hsum := sum_of_others (f := fun j => slotWeight weight (st.slots j))
    (g := fun j => slotWeight weight (Function.update st.slots k none j)) k
    fun j hj => by rw [Function.update_of_ne hj]
  simp only [hk, Function.update_self] at hsum
  exact hsum

/-! ## Reading all slots -/

/-- What the forwarder has made of the slots of an earlier state: a slot is as it was, or its message
has been posted. -/
structure Drains (st u : FeedbackSync n) (added : List (Fin n × QueueMessage)) : Prop where
  streams : u.streams = st.streams
  posted : u.posted = st.posted ++ added
  nodup : (added.map Prod.fst).Nodup
  slots : ∀ k, (u.slots k = st.slots k ∧ k ∉ added.map Prod.fst) ∨
    (u.slots k = none ∧ ∃ message, st.slots k = some message ∧ (k, message) ∈ added)

theorem Drains.refl (st : FeedbackSync n) : Drains st st [] where
  streams := rfl
  posted := (List.append_nil _).symm
  nodup := List.nodup_nil
  slots := fun _ => .inl ⟨rfl, List.not_mem_nil⟩

theorem Drains.taken {st u : FeedbackSync n} {added : List (Fin n × QueueMessage)} {k : Fin n}
    {message : QueueMessage} (h : Drains st u added) (hk : u.slots k = some message) :
    Drains st (u.taken k message) (added ++ [(k, message)]) := by
  obtain ⟨hst, hmem⟩ : st.slots k = some message ∧ k ∉ added.map Prod.fst := by
    rcases h.slots k with ⟨hsame, hmem⟩ | ⟨hnone, -⟩
    · exact ⟨hsame.symm.trans hk, hmem⟩
    · rw [hk] at hnone
      cases hnone
  refine ⟨h.streams, ?_, ?_, fun j => ?_⟩
  · simp only [FeedbackSync.taken, h.posted, List.append_assoc]
  · rw [List.map_append, List.nodup_append]
    refine ⟨h.nodup, List.nodup_singleton _, fun i hi j hj hij => ?_⟩
    obtain rfl : j = k := by simpa using hj
    exact hmem (hij ▸ hi)
  · by_cases hj : j = k
    · subst hj
      exact .inr ⟨Function.update_self .., message, hst, by simp⟩
    · simp only [FeedbackSync.taken, Function.update_of_ne hj]
      rcases h.slots j with ⟨hsame, hj'⟩ | ⟨hnone, message', hst', hmem'⟩
      · exact .inl ⟨hsame, by simpa [hj] using hj'⟩
      · exact .inr ⟨hnone, message', hst', List.mem_append_left _ hmem'⟩

/-- Once all slots are empty, exactly the unread messages have been posted. -/
theorem Drains.mem_added_iff {st u : FeedbackSync n} {added : List (Fin n × QueueMessage)}
    (h : Drains st u added) (hslots : ∀ k, u.slots k = none) (k : Fin n) (message : QueueMessage) :
    (k, message) ∈ added ↔ st.slots k = some message := by
  rcases h.slots k with ⟨hsame, hk⟩ | ⟨-, message', hst, hmem⟩
  · rw [hslots k] at hsame
    rw [← hsame]
    exact ⟨fun hmem => absurd (List.mem_map_of_mem hmem) hk, fun h => absurd h (by simp)⟩
  · rw [hst, Option.some.injEq]
    constructor
    · intro hmem'
      exact (Prod.mk.inj (List.inj_on_of_nodup_map h.nodup hmem hmem' rfl)).2
    · rintro rfl
      exact hmem

/-! ## All runs -/

/-- Every unread slot that the forwarder has passed is covered, and no round is longer than all slots. -/
structure Sound (st : FeedbackSync n) : Prop where
  covered : WakeFlag.Covered (items n) (abs st)
  rest : ∀ rest, st.forwarder = .reading rest → rest.length ≤ n

theorem sound_start : Sound (start n) where
  covered := WakeFlag.covered_of_scan fun _ => rfl
  rest := by
    rintro rest ⟨⟩
    exact Nat.le_of_eq List.length_finRange

theorem Sound.step {l : Action n} (ha : Sound a) (h : step a l = some b) : Sound b := by
  refine ⟨WakeFlag.covered_of_path (step_simulates a l b h) ha.covered, fun rest hrest => ?_⟩
  cases l with
  | feedbackProcess k datas =>
    obtain ⟨-, ⟨-, rfl⟩ | ⟨message, -, rfl⟩⟩ := step_feedbackProcess h
    · exact ha.rest rest hrest
    · exact ha.rest rest hrest
  | store k =>
    obtain ⟨-, rfl⟩ := step_store h
    exact ha.rest rest hrest
  | notifyAll k =>
    obtain ⟨-, rfl⟩ := step_notifyAll h
    simp only at hrest
    cases hforwarder : a.forwarder <;> rw [hforwarder] at hrest <;> cases hrest
    exact ha.rest _ hforwarder
  | read =>
    obtain ⟨-, rfl⟩ | ⟨k, rest', hforwarder, ⟨message, -, rfl⟩ | ⟨-, rfl⟩⟩ := step_read h
    · cases hrest
    · exact ha.rest rest hrest
    · cases hrest
      have hlength := ha.rest _ hforwarder
      rw [List.length_cons] at hlength
      omega
  | wait =>
    obtain ⟨-, rfl⟩ := step_wait h
    simp only at hrest
    split at hrest <;> cases hrest
  | clear =>
    obtain ⟨-, rfl⟩ := step_clear h
    cases hrest
    exact Nat.le_of_eq List.length_finRange

/-- While the forwarder waits and no stream owes it a store, all slots are empty. -/
theorem Sound.slots_of_waiting {st : FeedbackSync n} (h : Sound st) (hwaiting : st.Waiting)
    (hstreams : ∀ k, st.streams k ≠ .written) (k : Fin n) : st.slots k = none := by
  have hunread := WakeFlag.no_lost_wakeup .refl h.covered (c := ())
    (by simp [abs, hwaiting.forwarder, ForwarderPc.abs]) hwaiting.hasValue
    (fun p => ProducerPc.armed_eq_false (hstreams p)) k (List.mem_finRange k)
  simpa [abs] using hunread

theorem Sound.turns_le {st : FeedbackSync n} (h : Sound st) : st.turns ≤ 2 * n + 5 := by
  unfold turns checkTurns
  split
  · next rest hf =>
    have hrest := h.rest rest hf
    split <;> omega
  · split <;> omega
  · split
    · rw [if_pos rfl]
      omega
    · omega
  · omega

/-- **The forwarder drains the slots**: left to itself, with no stream between its write and its store,
it blocks after at most `3 * n + 5` steps, and what it has posted by then is every unread message once
and nothing else. -/
theorem forwarder_drains (n : Nat) (ls : List (Action n)) (st : FeedbackSync n)
    (hrun : run step (start n) ls = some st) (hstreams : ∀ k, st.streams k ≠ .written) :
    ∃ t added, ReachesBy step Action.ofForwarder (3 * n + 5) st t ∧ t.Waiting ∧
      (∀ k, t.slots k = none) ∧ t.posted = st.posted ++ added ∧ (added.map Prod.fst).Nodup ∧
      ∀ k message, (k, message) ∈ added ↔ st.slots k = some message := by
  have hsound : Sound st := run_invariant (fun _ _ _ ha hl => ha.step hl) hrun sound_start
  have hstep : ∀ u : FeedbackSync n, (Sound u ∧ ∃ added, Drains st u added) → ¬ u.Waiting →
      ∃ l t, Action.ofForwarder l ∧ step u l = some t ∧ (Sound t ∧ ∃ added, Drains st t added) ∧
        t.turns + t.unread 1 < u.turns + u.unread 1 := by
    rintro u ⟨husound, added, hu⟩ hwaiting
    rcases forwarder_moves u hwaiting with ⟨k, message, hk, hl⟩ | ⟨l, t, hP, hl, hslots, hposted, hstr, hlt⟩
    · refine ⟨.read, _, trivial, hl, ⟨husound.step hl, _, hu.taken hk⟩, ?_⟩
      rw [← unread_taken 1 hk]
      exact Nat.lt_succ_self _
    · refine ⟨l, t, hP, hl, ⟨husound.step hl, added, hstr.trans hu.streams, hposted.trans hu.posted,
        hu.nodup, by rw [hslots]; exact hu.slots⟩, ?_⟩
      rw [unread_congr hslots]
      exact Nat.add_lt_add_right hlt _
  obtain ⟨t, hreach, ⟨htsound, added, hdrains⟩, hwaiting⟩ :=
    exists_reachesBy_of_measure hstep st ⟨hsound, [], .refl st⟩
  have hslots := htsound.slots_of_waiting hwaiting fun k => by
    rw [hdrains.streams]
    exact hstreams k
  obtain ⟨ls', hls', hP, hlength⟩ := hreach
  have hturns := hsound.turns_le
  have hunread := unread_le 1 st
  exact ⟨t, added, ⟨ls', hls', hP, by omega⟩, hwaiting, hslots, hdrains.posted, hdrains.nodup,
    hdrains.mem_added_iff hslots⟩

/-- A stream has written and raised the flag while the forwarder is blocked. -/
theorem forwarder_drains_waking : ∃ st t, run step (start 2) (wakingRun.take 6) = some st ∧
    (st.slots 1).isSome = true ∧ ReachesBy step Action.ofForwarder 11 st t ∧ ∀ k, t.slots k = none := by
  have hsome : (run step (start 2) (wakingRun.take 6)).isSome = true := rfl
  obtain ⟨st, hrun⟩ := Option.isSome_iff_exists.mp hsome
  have hview : (run step (start 2) (wakingRun.take 6)).map (fun st => (st.streams 0, st.streams 1,
      (st.slots 1).isSome)) = some (.idle, .stored, true) := rfl
  simp only [hrun, Option.map_some, Option.some.injEq, Prod.mk.injEq] at hview
  obtain ⟨h0, h1, hslot⟩ := hview
  obtain ⟨t, added, hreach, -, hslots, -⟩ := forwarder_drains 2 (wakingRun.take 6) st hrun fun k => by
    match k with
    | 0 => rw [h0]; decide
    | 1 => rw [h1]; decide
  exact ⟨st, t, hrun, hslot, hreach, hslots⟩

end Kpmx.FeedbackSync
