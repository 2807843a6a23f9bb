import Kpmx.Lib.Runs
import Mathlib.Algebra.BigOperators.Group.Finset.Basic
import Mathlib.Data.Fintype.Basic

/-!
# Refinement and progress

Two systems with step functions, and one system left to some of its parties.

* `run_refines` : when every step is matched by a run of the other system, every run is;
* `ReachesBy` : a state is reached in so many steps of some parties;
* `exists_reachesBy_of_measure` : parties whose steps lower a measure get where they should;
* `sum_of_others` : a measure that is a sum over parties changes by what one of them changes.
-/

namespace Runs

variable {σ τ ι κ : Type*}

/-- A relation that every step keeps, while the other system performs a run of its own. -/
theorem run_refines {step : σ → ι → Option σ} {sub : τ → κ → Option τ} {R : σ → τ → Prop}
    (hstep : ∀ a d l b, R a d → step a l = some b → ∃ ks e, run sub d ks = some e ∧ R b e)
    {s t : σ} {ls : List ι} {d : τ} (h : run step s ls = some t) (h0 : R s d) :
    ∃ ks e, run sub d ks = some e ∧ R t e := by
  refine run_induction (I := fun _ a => ∃ ks e, run sub d ks = some e ∧ R a e) ⟨[], d, rfl, h0⟩ ?_ h
  rintro ls a l b - ⟨ks, e, hks, hR⟩ hl
  obtain ⟨ks', e', hks', hR'⟩ := hstep a e l b hR hl
  exact ⟨ks ++ ks', e', by rw [run_append, hks]; exact hks', hR'⟩

section Reaches
variable {step : σ → ι → Option σ} {P : ι → Prop}

/-- `t` is reached from `s` in at most `n` steps, all of them in `P`. -/
def ReachesBy (step : σ → ι → Option σ) (P : ι → Prop) (n : Nat) (s t : σ) : Prop :=
  ∃ ls, run step s ls = some t ∧ (∀ l ∈ ls, P l) ∧ ls.length ≤ n

theorem ReachesBy.refl (s : σ) : ReachesBy step P 0 s s :=
  ⟨[], rfl, fun _ h => absurd h List.not_mem_nil, Nat.le_refl 0⟩

theorem ReachesBy.head {s t u : σ} {l : ι} {m n : Nat} (hl : P l) (hstep : step s l = some t)
    (h : ReachesBy step P m t u) (hn : m < n) : ReachesBy step P n s u := by
  obtain ⟨ls, hrun, hP, hlength⟩ := h
  refine ⟨l :: ls, ?_, List.forall_mem_cons.mpr ⟨hl, hP⟩, ?_⟩
  · rw [run_cons, hstep]
    exact hrun
  · rw [List.length_cons]
    omega

/-- From every state short of the goal some step of the parties lowers the measure and keeps the
invariant: so the parties reach the goal in as many steps as the measure says. -/
theorem exists_reachesBy_of_measure {I Q : σ → Prop} {measure : σ → Nat}
    (hstep : ∀ s, I s → ¬ Q s → ∃ l t, P l ∧ step s l = some t ∧ I t ∧ measure t < measure s) (s : σ)
    (hs : I s) : ∃ t, ReachesBy step P (measure s) s t ∧ I t ∧ Q t := by
  induction hm : measure s using Nat.strongRecOn generalizing s with
  | ind m ih =>
    subst hm
    by_cases hgoal : Q s
    · have hrefl : ReachesBy step P 0 s s := ReachesBy.refl s
      obtain ⟨ls, hrun, hP, hlength⟩ := hrefl
      exact ⟨s, ⟨ls, hrun, hP, by omega⟩, hs, hgoal⟩
    · obtain ⟨l, t, hl, ht, hI, hlt⟩ := hstep s hs hgoal
      obtain ⟨u, hu, hIu, hQ⟩ := ih (measure t) hlt t hI rfl
      exact ⟨u, hu.head hl ht hlt, hIu, hQ⟩

end Reaches

theorem sum_of_others [Fintype κ] [DecidableEq κ] {f g : κ → Nat} (k : κ)
    (h : ∀ j, j ≠ k → g j = f j) : (∑ j, g j) + f k = (∑ j, f j) + g k := by
  have hothers : ∑ j ∈ Finset.univ.erase k, g j = ∑ j ∈ Finset.univ.erase k, f j :=
    Finset.sum_congr rfl fun j hj => h j (Finset.ne_of_mem_erase hj)
  have hbefore := Finset.add_sum_erase Finset.univ f (Finset.mem_univ k)
  have hafter := Finset.add_sum_erase Finset.univ g (Finset.mem_univ k)
  rw [hothers] at hafter
  omega

end Runs
