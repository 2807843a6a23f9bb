import Mathlib.Logic.Relation
import Mathlib.Data.List.Induction
import Mathlib.Tactic.SplitIfs

/-!
# Runs of executable step functions

A system is a step function `step : σ → ι → Option σ`: the label says which party moves, `none` that
the move is not enabled. `run` performs a list of labels.

* `run_cons`, `run_append`, `run_concat` : how runs compose;
* `run_induction`, `run_invariant` : what one step preserves, a whole run preserves;
* `collect` : what the steps of a run yield, each between the states before and after it;
* `guarded` : the runs whose steps all meet a condition on the state before the step;
* `run_simulates` : a run read through an abstraction function is a path of the abstract relation.
-/

namespace Runs

variable {σ τ ι : Type*}

/-- The state after performing `ls` from `s`, or `none` as soon as one step is not enabled. -/
def run (step : σ → ι → Option σ) (s : σ) (ls : List ι) : Option σ := ls.foldlM step s

/-- `t` is reached from `s` by some run. -/
def Reachable (step : σ → ι → Option σ) (s t : σ) : Prop := ∃ ls, run step s ls = some t

section Compose
variable {step : σ → ι → Option σ}

@[simp] theorem run_nil (s : σ) : run step s [] = some s := rfl

@[simp] theorem run_cons (s : σ) (l : ι) (ls : List ι) :
    run step s (l :: ls) = (step s l).bind fun t => run step t ls := by
  simp only [run, List.foldlM_cons]
  rfl

theorem run_append (s : σ) (ls ls' : List ι) :
    run step s (ls ++ ls') = (run step s ls).bind fun t => run step t ls' := by
  simp only [run, List.foldlM_append]
  rfl

theorem run_concat (s : σ) (ls : List ι) (l : ι) :
    run step s (ls ++ [l]) = (run step s ls).bind fun t => step t l := by
  rw [run_append]
  congr 1
  funext t
  cases h : step t l <;> simp [h]

theorem run_concat_eq_some {s t : σ} {ls : List ι} {l : ι} :
    run step s (ls ++ [l]) = some t ↔ ∃ u, run step s ls = some u ∧ step u l = some t := by
  rw [run_concat, Option.bind_eq_some_iff]

theorem Reachable.refl (s : σ) : Reachable step s s := ⟨[], rfl⟩

end Compose

section Invariants
variable {step : σ → ι → Option σ} {s t : σ} {ls : List ι}

/-- Induction on a run, last step last: the motive may mention the labels performed so far. -/
theorem run_induction {I : List ι → σ → Prop} (h0 : I [] s)
    (hstep : ∀ ls a l b, run step s ls = some a → I ls a → step a l = some b → I (ls ++ [l]) b)
    (h : run step s ls = some t) : I ls t := by
  induction ls using List.reverseRecOn generalizing t with
  | nil =>
    obtain rfl : s = t := by simpa using h
    exact h0
  | append_singleton ls l ih =>
    obtain ⟨u, hu, hl⟩ := run_concat_eq_some.mp h
    exact hstep ls u l t hu (ih hu) hl

/-- What every step preserves, a run preserves. -/
theorem run_invariant {I : σ → Prop} (hstep : ∀ a l b, I a → step a l = some b → I b)
    (h : run step s ls = some t) (h0 : I s) : I t :=
  run_induction (I := fun _ a => I a) h0 (fun _ a l b _ ha hl => hstep a l b ha hl) h

end Invariants

section Collect
variable {β : Type*} (step : σ → ι → Option σ) (yield : σ → ι → σ → List β)

/-- What the steps yield, in order, as far as the run goes. -/
def collect (s : σ) : List ι → List β
  | [] => []
  | l :: ls => match step s l with
    | some t => yield s l t ++ collect t ls
    | none => []

variable {step yield}

theorem collect_concat {s t u : σ} {ls : List ι} {l : ι} (h : run step s ls = some t)
    (hl : step t l = some u) :
    collect step yield s (ls ++ [l]) = collect step yield s ls ++ yield t l u := by
  induction ls generalizing s with
  | nil =>
    obtain rfl : s = t := by simpa using h
    simp [collect, hl]
  | cons k ls ih =>
    rw [run_cons, Option.bind_eq_some_iff] at h
    obtain ⟨r, hr, h⟩ := h
    simp only [List.cons_append, collect, hr, ih h, List.append_assoc]

end Collect

section Guards
variable {step : σ → ι → Option σ} (ok : σ → ι → Prop) [∀ s l, Decidable (ok s l)]

/-- The step function restricted to the steps that meet `ok`. -/
def guarded (step : σ → ι → Option σ) (s : σ) (l : ι) : Option σ := if ok s l then step s l else none

theorem guarded_eq_some {s t : σ} {l : ι} :
    guarded ok step s l = some t ↔ ok s l ∧ step s l = some t := by
  unfold guarded
  split_ifs with h <;> simp [h]

theorem run_of_guarded {s t : σ} {ls : List ι} (h : run (guarded ok step) s ls = some t) :
    run step s ls = some t :=
  run_induction (I := fun ls a => run step s ls = some a) rfl
    (fun _ a _ _ _ ha hl => run_concat_eq_some.mpr ⟨a, ha, ((guarded_eq_some ok).mp hl).2⟩) h

end Guards

/-- A run, read through an abstraction function, is a path of the abstract step relation. -/
theorem run_simulates {step : σ → ι → Option σ} {s t : σ} {ls : List ι} (R : τ → τ → Prop)
    (abs : σ → τ)
    (hstep : ∀ a l b, step a l = some b → Relation.ReflTransGen R (abs a) (abs b))
    (h : run step s ls = some t) : Relation.ReflTransGen R (abs s) (abs t) :=
  run_induction (I := fun _ a => Relation.ReflTransGen R (abs s) (abs a)) .refl
    (fun _ a l b _ ha hl => ha.trans (hstep a l b hl)) h

end Runs
