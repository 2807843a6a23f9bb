import Mathlib.Logic.Relation
import Mathlib.Logic.Function.Basic

/-!
# Waking consumers through one flag

Producers write an item and then raise the flag; each consumer goes over its own items, waits while
the flag is down, lowers it and starts over. An item that was written and not yet read is *covered*
while the flag is up or some producer is armed, that is, between its write and its store of `true`.

* `Step` : one atomic action of one party, with a condition `mayClear` on lowering the flag;
* `Covered` : every unread item that its consumer has passed in this round is covered;
* `Step.covered` : every step keeps this, when the flag is lowered only while no *other* consumer has
  passed an unread item (`NoStranded`);
* `no_lost_wakeup` : then a consumer blocked on a lowered flag has nothing left to read.

With a single consumer the condition holds by itself (`noStranded_of_subsingleton`).
-/

namespace WakeFlag

open Relation

/-- Where a consumer stands: going over the items `todo`, about to check the flag, blocked in the
wait, or past the wait and about to lower the flag. -/
inductive Pc (ι : Type*) where
  | scan (todo : List ι)
  | check
  | blocked
  | clear

/-- The consumer has been past item `i` in this round and will check the flag before it is back. -/
def Pc.Passed {ι : Type*} : Pc ι → ι → Prop
  | .scan todo, i => i ∉ todo
  | .check, _ => True
  | .blocked, _ => True
  | .clear, _ => False

/-- Where a look at the flag leads. -/
def Pc.awaited {ι : Type*} : Bool → Pc ι
  | true => .clear
  | false => .blocked

/-- Being notified, a blocked consumer checks the flag again. -/
def Pc.notified {ι : Type*} : Pc ι → Pc ι
  | .blocked => .check
  | pc => pc

theorem Pc.passed_notified {ι : Type*} (pc : Pc ι) (i : ι) : pc.notified.Passed i ↔ pc.Passed i := by
  cases pc <;> rfl

/-- Where a producer stands: before its write, between the write and the store of `true`, or between
the store and `notify_all`. -/
inductive ProducerPc where
  | idle
  | written
  | stored
  deriving DecidableEq

/-- The producer owes a store of `true`. -/
def ProducerPc.armed (pc : ProducerPc) : Bool := decide (pc = .written)

theorem ProducerPc.armed_eq_false {pc : ProducerPc} (h : pc ≠ .written) : pc.armed = false :=
  decide_eq_false h

theorem armed_update_idle {π : Type*} [DecidableEq π] {producers : π → ProducerPc} {p : π}
    (h : producers p = .stored) :
    ProducerPc.armed ∘ Function.update producers p .idle = ProducerPc.armed ∘ producers := by
  rw [Function.comp_update, Function.update_eq_self_iff]
  simp [h, ProducerPc.armed]

structure State (π κ ι : Type*) where
  flag : Bool
  armed : π → Bool
  unread : ι → Bool
  pc : κ → Pc ι

variable {π κ ι : Type*} {items : κ → List ι} {s t : State π κ ι}

def Covered (items : κ → List ι) (s : State π κ ι) : Prop :=
  ∀ c, ∀ i ∈ items c, (s.pc c).Passed i → s.unread i = true → s.flag = true ∨ ∃ p, s.armed p = true

/-- No consumer other than `c` has passed an unread item, unless a producer is about to raise the
flag anyway. -/
def NoStranded (items : κ → List ι) (s : State π κ ι) (c : κ) : Prop :=
  ∀ d, d ≠ c → ∀ i ∈ items d, (s.pc d).Passed i → s.unread i = true → ∃ p, s.armed p = true

theorem noStranded_of_subsingleton [Subsingleton κ] (s : State π κ ι) (c : κ) :
    NoStranded items s c := fun d hd => absurd (Subsingleton.elim d c) hd

/-- At the start every consumer is about to go over all its items. -/
theorem covered_of_scan (h : ∀ c, s.pc c = .scan (items c)) : Covered items s := by
  intro c i hi hp
  rw [h c] at hp
  exact absurd hi hp

variable [DecidableEq π] [DecidableEq κ] [DecidableEq ι]

/-- One atomic step; consumer `c` goes over `items c`. -/
inductive Step (items : κ → List ι) (mayClear : State π κ ι → κ → Prop) :
    State π κ ι → State π κ ι → Prop where
  | write (s : State π κ ι) (p : π) (i : ι) : Step items mayClear s
      { s with armed := Function.update s.armed p true, unread := Function.update s.unread i true }
  | store (s : State π κ ι) (p : π) : Step items mayClear s
      { s with flag := true, armed := Function.update s.armed p false }
  | read (s : State π κ ι) (c : κ) (i : ι) (todo : List ι) : s.pc c = .scan (i :: todo) →
      Step items mayClear s { s with unread := Function.update s.unread i false }
  | next (s : State π κ ι) (c : κ) (i : ι) (todo : List ι) : s.pc c = .scan (i :: todo) →
      s.unread i = false →
      Step items mayClear s { s with pc := Function.update s.pc c (.scan todo) }
  | finish (s : State π κ ι) (c : κ) : s.pc c = .scan [] →
      Step items mayClear s { s with pc := Function.update s.pc c .check }
  | wait (s : State π κ ι) (c : κ) : s.pc c = .check ∨ s.pc c = .blocked → Step items mayClear s
      { s with pc := Function.update s.pc c (Pc.awaited s.flag) }
  | notifyAll (s : State π κ ι) : Step items mayClear s { s with pc := Pc.notified ∘ s.pc }
  | clear (s : State π κ ι) (c : κ) : s.pc c = .clear → mayClear s c →
      Step items mayClear s
        { s with flag := false, pc := Function.update s.pc c (.scan (items c)) }

/-- Lowering the flag is the only step that a consumer's coverage has to fear, and only from another
consumer: one that lowers it goes over all its own items next. -/
theorem Step.covered (h : Step items (NoStranded items) s t) (hs : Covered items s) :
    Covered items t := by
  intro d j hj hp hu
  cases h with
  | write p i => exact .inr ⟨p, Function.update_self ..⟩
  | store p => exact .inl rfl
  | read c i todo hc =>
    have hji : j ≠ i := by
      rintro rfl
      simp at hu
    exact hs d j hj hp (by simpa [hji] using hu)
  | next c i todo hc hi =>
    by_cases hd : d = c
    · subst hd
      have hjt : j ∉ todo := by simpa [Pc.Passed] using hp
      have hji : j ≠ i := by
        rintro rfl
        simp [hi] at hu
      exact hs d j hj (by rw [hc]; simp [Pc.Passed, hji, hjt]) hu
    · exact hs d j hj (by simpa [hd] using hp) hu
  | finish c hc =>
    by_cases hd : d = c
    · subst hd
      exact hs d j hj (by rw [hc]; simp [Pc.Passed]) hu
    · exact hs d j hj (by simpa [hd] using hp) hu
  | wait c hc =>
    by_cases hd : d = c
    · subst hd
      refine hs d j hj ?_ hu
      rcases hc with hc | hc <;> rw [hc] <;> trivial
    · exact hs d j hj (by simpa [hd] using hp) hu
  | notifyAll => exact hs d j hj ((Pc.passed_notified _ _).mp hp) hu
  | clear c hc hok =>
    by_cases hd : d = c
    · subst hd
      simp only [Function.update_self, Pc.Passed] at hp
      exact absurd hj hp
    · exact .inr (hok d hd j hj (by simpa [hd] using hp) hu)

theorem covered_of_path (h : ReflTransGen (Step items (NoStranded items)) s t)
    (hs : Covered items s) : Covered items t := by
  induction h with
  | refl => exact hs
  | tail _ hst ih => exact hst.covered ih

/-- **No lost wake-up**: a consumer blocked on the lowered flag, with no producer about to raise it,
has read all its items. -/
theorem no_lost_wakeup (h : ReflTransGen (Step items (NoStranded items)) s t)
    (hs : Covered items s) {c : κ} (hb : t.pc c = .blocked) (hf : t.flag = false)
    (hp : ∀ p, t.armed p = false) : ∀ i ∈ items c, t.unread i = false := by
  intro i hi
  by_contra hu
  have hu : t.unread i = true := by simpa using hu
  rcases covered_of_path h hs c i hi (by rw [hb]; trivial) hu with h1 | ⟨p, h1⟩
  · rw [hf] at h1; cases h1
  · rw [hp p] at h1; cases h1

end WakeFlag
