import Mathlib.Order.Basic

/-!
# Loops that end with a break

A loop is a function for one round: `none` where the round breaks, else the state after the round and
what it put out, if anything. `Loop round s n out` is a run of the loop from `s` that ends after `n`
rounds, the one that breaks included, with all of its output; a loop without an end has no run.

* `Loop.unique` : a loop has at most one run;
* `Loop.output_eq` : an output that every round builds on is the output of the run;
* `exists_loop_of_measure` : a loop whose rounds decrease a measure ends within the measure and one.
-/

namespace Loops

variable {σ ω : Type*} {round : σ → Option (σ × Option ω)}

inductive Loop (round : σ → Option (σ × Option ω)) : σ → Nat → List ω → Prop
  | stop {s : σ} (h : round s = none) : Loop round s 1 []
  | next {s t : σ} {pushed : Option ω} {n : Nat} {output : List ω} (h : round s = some (t, pushed))
    (rest : Loop round t n output) : Loop round s (n + 1) (pushed.toList ++ output)

theorem Loop.unique {s : σ} {n m : Nat} {output output' : List ω} (h : Loop round s n output)
    (h' : Loop round s m output') : n = m ∧ output = output' := by
  induction h generalizing m output' with
  | stop hstop =>
    cases h' with
    | stop _ => exact ⟨rfl, rfl⟩
    | next hnext _ => cases hstop.symm.trans hnext
  | next hnext _ ih =>
    cases h' with
    | stop hstop => cases hstop.symm.trans hnext
    | next hnext' rest' =>
      obtain ⟨rfl, rfl⟩ := Prod.mk.inj (Option.some.inj (hnext.symm.trans hnext'))
      obtain ⟨rfl, rfl⟩ := ih rest'
      exact ⟨rfl, rfl⟩

theorem Loop.output_eq {spec : σ → List ω} (hstop : ∀ s, round s = none → spec s = [])
    (hnext : ∀ s t pushed, round s = some (t, pushed) → spec s = pushed.toList ++ spec t)
    {s : σ} {n : Nat} {output : List ω} (h : Loop round s n output) : output = spec s := by
  induction h with
  | stop h => exact (hstop _ h).symm
  | next h _ ih => rw [hnext _ _ _ h, ih]

/-- Induction on the measure: the loop ends from every state that a round leads to. -/
theorem exists_loop_of_measure {measure : σ → Nat}
    (hround : ∀ s t pushed, round s = some (t, pushed) → measure t < measure s) (s : σ) :
    ∃ n output, n ≤ measure s + 1 ∧ Loop round s n output := by
  induction hn : measure s using Nat.strongRecOn generalizing s with
  | ind k ih =>
    cases h : round s with
    | none => exact ⟨1, [], by omega, .stop h⟩
    | some r =>
      obtain ⟨t, pushed⟩ := r
      have hlt := hround s t pushed h
      obtain ⟨n, output, hle, hloop⟩ := ih (measure t) (by omega) t rfl
      exact ⟨n + 1, pushed.toList ++ output, by omega, .next h hloop⟩

end Loops
