import Mathlib.Data.Rat.Defs

/-!
# C++ doubles by their value

A finite double is its rational value, so `0.0` and `-0.0` are one value: they compare equal, and no
function modelled here tells them apart. A float widens to the double of the same value.
-/

namespace Kpmx

inductive Double where
  | nan
  | inf (negative : Bool)
  | finite (value : ℚ)
  deriving DecidableEq

/-- What converting a double outside the `int` range gives. The standard leaves it undefined, so
every result below holds for whatever the compiled code does. -/
class CastUndefined where
  result : Double → Int32

/-- The result on x86-64: the least `int`. -/
@[reducible] def CastUndefined.x86 : CastUndefined := ⟨fun _ => Int32.minValue⟩

namespace Double

/-- C++ `!=`: a NaN differs from everything, itself included. -/
def ne (a b : Double) : Bool := a = .nan || b = .nan || a ≠ b

theorem eq_of_ne_eq_false {a b : Double} (h : ne a b = false) : a = b := by
  simp only [ne, Bool.or_eq_false_iff, decide_eq_false_iff_not, not_not] at h
  exact h.2

theorem ne_eq_true_iff {c v : Double} (h : v ≠ .nan) : Double.ne c v = true ↔ c ≠ v := by
  simp only [Double.ne, Bool.or_eq_true, decide_eq_true_eq, h, or_false, ne_eq]
  refine ⟨?_, Or.inr⟩
  rintro (rfl | hne)
  · exact h.symm
  · exact hne

def ofInt32 (i : Int32) : Double := .finite i.toInt

/-- The value rounded towards zero, for a finite double. -/
def trunc : Double → Option Int
  | .finite q => some (q.num.tdiv q.den)
  | _ => none

/-- `static_cast<int>(d)`. -/
def toInt32 [CastUndefined] (d : Double) : Int32 :=
  match d.trunc with
  | some n => if Int32.minValue.toInt ≤ n ∧ n ≤ Int32.maxValue.toInt then Int32.ofInt n
    else CastUndefined.result d
  | none => CastUndefined.result d

end Double

end Kpmx
