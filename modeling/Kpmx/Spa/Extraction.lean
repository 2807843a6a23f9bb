import Kpmx.Lib.Loops
import Kpmx.Spa.Params

/-!
# The extraction loop on any struct

The loop of `parse_spa_prop_params` with the return codes of the getters, and what it makes of a struct
with any pods: an odd number of them, keys that are no strings, values of any type.

* `extractionIteration_eq` : the round of `extractParams` is the round of the source;
* `extraction_total_exact` : the loop ends within one round more than there are pods, with the pairs
  that the struct holds.
-/

namespace Kpmx

/-! ## A round with its return codes -/

/-- A call of a getter: 0, the value and the advanced cursor, or a negative code with the output and the
cursor as they were. -/
def spaPodParserGet {α β : Type} (get : List SpaPod → Option (α × List SpaPod)) (output : β) (f : α → β)
    (cursor : List SpaPod) : Int × β × List SpaPod :=
  match get cursor with
  | some (value, cursor) => (0, f value, cursor)
  -- `-EPIPE` at the end of the struct, `-EINVAL` at a pod of another type
  | none => (if cursor.isEmpty then -32 else -22, output, cursor)

open SpaPod in
/-- The tests for a value, with the cursor behind the name: the cursor afterwards and the pair that was
pushed, if any. -/
def extractionValue (name : String) (cursor : List SpaPod) : List SpaPod × Option DecodedParam :=
  let (res, floatValue, cursor) := spaPodParserGet getFloat (.finite 0) id cursor
  if res ≥ 0 then (cursor, some (name, .double floatValue))
  else
    let (res, doubleValue, cursor) := spaPodParserGet getDouble (.finite 0) id cursor
    if res ≥ 0 then (cursor, some (name, .double doubleValue))
    else
      let (res, boolValue, cursor) := spaPodParserGet getBool false id cursor
      if res ≥ 0 then (cursor, some (name, .bool boolValue))
      else
        let (res, intValue, cursor) := spaPodParserGet getInt 0 id cursor
        if res ≥ 0 then (cursor, some (name, .int intValue))
        else
          let (_, _, cursor) := spaPodParserGet getPod () (fun _ => ()) cursor
          (cursor, none)

/-- The body of the `while`: `none` for its breaks. The first test asks for a code above zero, which no
getter returns. -/
def extractionIteration (cursor : List SpaPod) : Option (List SpaPod × Option DecodedParam) :=
  let (res, name, cursor) := spaPodParserGet SpaPod.getString none some cursor
  if res > 0 then none
  else
    match name with
    | none => none
    | some name => some (extractionValue name cursor)

/-! ## The pairs of a struct -/

/-- What the loop keeps of a value: a float, a double, a bool or an int. -/
def SpaPod.param? : SpaPod → Option ParamVariant
  | .float value => some (.double value)
  | .double value => some (.double value)
  | .bool value => some (.bool value)
  | .int value => some (.int value)
  | _ => none

/-- The consecutive pairs with a string for a key, before the first key that is missing or no string. -/
def stringPairs : List SpaPod → List (String × SpaPod)
  | .string name :: value :: rest => (name, value) :: stringPairs rest
  | _ => []

/-- The pairs with a value that the loop keeps. -/
def keptPairs (fields : List SpaPod) : List DecodedParam :=
  (stringPairs fields).filterMap fun (name, value) => value.param?.map (Prod.mk name)

/-! ## One round -/

section Round

variable (name : String) (value : SpaPod) (rest : List SpaPod)

theorem extractionIteration_pair :
    extractionIteration (.string name :: value :: rest) =
      some (rest, value.param?.map (Prod.mk name)) := by
  cases value <;> rfl

theorem extractionIteration_last : extractionIteration [.string name] = some ([], none) := rfl

end Round

theorem extractionIteration_of_not_string {cursor : List SpaPod}
    (h : ∀ name rest, cursor ≠ .string name :: rest) : extractionIteration cursor = none := by
  rcases cursor with _ | ⟨key, rest⟩
  · rfl
  · cases key with
    | string name => exact absurd rfl (h name rest)
    | _ => rfl

/-- The forms of a cursor that a round tells apart. -/
theorem cursor_cases (cursor : List SpaPod) :
    (∃ name value rest, cursor = .string name :: value :: rest) ∨ (∃ name, cursor = [.string name]) ∨
      ∀ name rest, cursor ≠ .string name :: rest := by
  rcases cursor with _ | ⟨key, rest⟩
  · exact .inr (.inr fun name rest => List.cons_ne_nil _ _ |>.symm)
  · cases key with
    | string name =>
      cases rest with
      | nil => exact .inr (.inl ⟨name, rfl⟩)
      | cons value rest => exact .inl ⟨name, value, rest, rfl⟩
    | _ => exact .inr (.inr fun name rest h => nomatch h)

/-- Codes are never above zero and the name is null exactly after a failure, so the wrong sign in the
first test makes no difference. -/
theorem extractionIteration_eq (cursor : List SpaPod) :
    extractionIteration cursor = extractionRound cursor := by
  rcases cursor with _ | ⟨key, rest⟩
  · rfl
  · cases key with
    | string name =>
      cases rest with
      | nil => rfl
      | cons value rest => cases value <;> rfl
    | _ => rfl

/-! ## The whole loop -/

/-- A run of the `while` loop on a cursor that ends after `n` rounds with `params`. -/
abbrev ExtractionLoop (cursor : List SpaPod) (n : Nat) (params : List DecodedParam) : Prop :=
  Loops.Loop extractionIteration cursor n params

theorem extractionIteration_length (cursor rest : List SpaPod) (pushed : Option DecodedParam)
    (h : extractionIteration cursor = some (rest, pushed)) : rest.length < cursor.length := by
  rw [extractionIteration_eq] at h
  exact extractionRound_length h

theorem keptPairs_pair (name : String) (value : SpaPod) (rest : List SpaPod) :
    keptPairs (.string name :: value :: rest) =
      (value.param?.map (Prod.mk name)).toList ++ keptPairs rest := by
  unfold keptPairs
  rw [stringPairs, List.filterMap_cons]
  cases value <;> rfl

theorem keptPairs_of_break (cursor : List SpaPod) (h : extractionIteration cursor = none) :
    keptPairs cursor = [] := by
  rcases cursor_cases cursor with ⟨name, value, rest, rfl⟩ | ⟨name, rfl⟩ | hkey
  · rw [extractionIteration_pair] at h
    cases h
  · rfl
  · rcases cursor with _ | ⟨key, rest⟩
    · rfl
    · cases key with
      | string name => exact absurd rfl (hkey name rest)
      | _ => rfl

theorem keptPairs_of_round (cursor rest : List SpaPod) (pushed : Option DecodedParam)
    (h : extractionIteration cursor = some (rest, pushed)) :
    keptPairs cursor = pushed.toList ++ keptPairs rest := by
  rcases cursor_cases cursor with ⟨name, value, rest', rfl⟩ | ⟨name, rfl⟩ | hkey
  · rw [extractionIteration_pair] at h
    obtain ⟨rfl, rfl⟩ := Prod.mk.inj (Option.some.inj h)
    exact keptPairs_pair name value rest'
  · rw [extractionIteration_last] at h
    obtain ⟨rfl, rfl⟩ := Prod.mk.inj (Option.some.inj h)
    rfl
  · rw [extractionIteration_of_not_string hkey] at h
    cases h

theorem ExtractionLoop.eq_keptPairs {fields : List SpaPod} {n : Nat} {params : List DecodedParam}
    (h : ExtractionLoop fields n params) : params = keptPairs fields :=
  h.output_eq keptPairs_of_break keptPairs_of_round

theorem exists_extractionLoop (fields : List SpaPod) :
    ∃ n, n ≤ fields.length + 1 ∧ ExtractionLoop fields n (keptPairs fields) := by
  obtain ⟨n, params, hle, hloop⟩ := Loops.exists_loop_of_measure extractionIteration_length fields
  obtain rfl := ExtractionLoop.eq_keptPairs hloop
  exact ⟨n, hle, hloop⟩

/-- The fuel of `extractParams` is enough for the loop. -/
theorem extractParams_eq_keptPairs (fields : List SpaPod) : extractParams fields = keptPairs fields := by
  obtain ⟨n, -, hloop⟩ := exists_extractionLoop fields
  refine Eq.symm (hloop.output_eq ?_ ?_)
  · intro cursor h
    rw [extractParams_eq, ← extractionIteration_eq, h]
  · intro cursor rest pushed h
    rw [extractParams_eq, ← extractionIteration_eq, h]

/-- **The extraction loop is total and exact** on every struct: it ends after at most one round more
than there are pods, and `params` are the pairs that it keeps. -/
theorem extraction_total_exact (fields : List SpaPod) :
    (∃ n params, ExtractionLoop fields n params) ∧
      ∀ n params, ExtractionLoop fields n params →
        n ≤ fields.length + 1 ∧ params = keptPairs fields := by
  obtain ⟨m, hle, hloop⟩ := exists_extractionLoop fields
  refine ⟨⟨m, _, hloop⟩, ?_⟩
  intro n params h
  obtain ⟨rfl, rfl⟩ := h.unique hloop
  exact ⟨hle, rfl⟩

end Kpmx
