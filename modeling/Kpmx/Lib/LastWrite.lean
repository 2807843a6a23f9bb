import Mathlib.Data.List.Induction
import Mathlib.Logic.Function.Basic

/-!
# Last write wins

A list of entries `(key, value)` is applied one after another to a state. When an observation of the
state is overwritten by the entries of one key and left alone by all others, what it shows in the end
is the last entry of that key (`observe_foldl`), so two lists with the same last entries are
indistinguishable to it. Of batches that all name the same keys only the last one matters
(`lastValue_flatten_of_same_keys`).

A cell that takes no more writes once it holds a certain value shows the last value written exactly when
that value is not in the way (`foldl_absorbing_eq_iff`). `keepLast` drops what is overwritten anyway;
`acceptedWrites` counts the writes that a guarded cell takes on.
-/

namespace LastWrite

variable {κ β σ α : Type*} [DecidableEq κ]

/-- The value of the last entry for `k`. -/
def lastValue (k : κ) : List (κ × β) → Option β
  | [] => none
  | e :: es => (lastValue k es).or (if e.1 = k then some e.2 else none)

@[simp] theorem lastValue_nil (k : κ) : lastValue k ([] : List (κ × β)) = none := rfl

theorem lastValue_append (k : κ) (es fs : List (κ × β)) :
    lastValue k (es ++ fs) = (lastValue k fs).or (lastValue k es) := by
  induction es with
  | nil => simp
  | cons e es ih => simp only [List.cons_append, lastValue, ih, Option.or_assoc]

theorem lastValue_concat (k : κ) (es : List (κ × β)) (e : κ × β) :
    lastValue k (es ++ [e]) = if e.1 = k then some e.2 else lastValue k es := by
  rw [lastValue_append]
  by_cases h : e.1 = k <;> simp [lastValue, h]

theorem lastValue_isSome_iff (k : κ) (es : List (κ × β)) :
    (lastValue k es).isSome = true ↔ k ∈ es.map Prod.fst := by
  induction es with
  | nil => simp
  | cons e es ih =>
    rw [lastValue, List.map_cons, List.mem_cons, ← ih]
    by_cases h : e.1 = k
    · cases lastValue k es <;> simp [h]
    · have h' : k ≠ e.1 := fun hk => h hk.symm
      simp [h, h']

theorem lastValue_eq_none_iff (k : κ) (es : List (κ × β)) :
    lastValue k es = none ↔ k ∉ es.map Prod.fst := by
  rw [← lastValue_isSome_iff, Option.isSome_iff_ne_none, not_not]

theorem mem_of_lastValue {k : κ} {es : List (κ × β)} {v : β} (h : lastValue k es = some v) :
    (k, v) ∈ es := by
  induction es with
  | nil => cases h
  | cons e es ih =>
    rw [lastValue] at h
    cases hlater : lastValue k es with
    | some w =>
      rw [hlater, Option.some_or] at h
      exact List.mem_cons_of_mem e (ih (hlater.trans h))
    | none =>
      rw [hlater, Option.none_or] at h
      split at h
      · next hkey =>
        obtain rfl := Option.some.inj h
        exact hkey ▸ List.mem_cons_self
      · cases h

/-- When all batches name the same keys, the last batch alone decides. -/
theorem lastValue_flatten_of_same_keys {bs : List (List (κ × β))} {b : List (κ × β)}
    (hlast : bs.getLast? = some b)
    (hsame : ∀ a ∈ bs, ∀ k, k ∈ a.map Prod.fst ↔ k ∈ b.map Prod.fst) (k : κ) :
    lastValue k bs.flatten = lastValue k b := by
  obtain ⟨as, rfl⟩ := List.getLast?_eq_some_iff.mp hlast
  rw [List.flatten_append, List.flatten_singleton, lastValue_append]
  cases hb : lastValue k b with
  | some v => rfl
  | none =>
    rw [Option.none_or, lastValue_eq_none_iff]
    intro hk
    obtain ⟨e, he, rfl⟩ := List.mem_map.mp hk
    obtain ⟨a, ha, hea⟩ := List.mem_flatten.mp he
    have hkb := (hsame a (List.mem_append_left _ ha) e.1).mp (List.mem_map_of_mem hea)
    exact (lastValue_eq_none_iff _ b).mp hb hkb

theorem lastValue_of_nodup {es : List (κ × β)} (hnodup : (es.map Prod.fst).Nodup) {e : κ × β}
    (he : e ∈ es) : lastValue e.1 es = some e.2 := by
  induction es with
  | nil => cases he
  | cons f es ih =>
    obtain ⟨hf, hnodup⟩ := List.nodup_cons.mp hnodup
    rw [lastValue]
    rcases List.mem_cons.mp he with rfl | he
    · rw [(lastValue_eq_none_iff e.1 es).mpr hf, Option.none_or, if_pos rfl]
    · rw [ih hnodup he, Option.some_or]

/-- The last entry of each key. -/
def keepLast : List (κ × β) → List (κ × β)
  | [] => []
  | e :: es => if e.1 ∈ es.map Prod.fst then keepLast es else e :: keepLast es

/-- Entries of one key have one key afterwards, so what is dropped is overwritten then too. -/
theorem lastValue_map_keepLast {κ' β' : Type*} [DecidableEq κ'] (f : κ → κ') (g : β → β') (k : κ')
    (es : List (κ × β)) :
    lastValue k ((keepLast es).map (Prod.map f g)) = lastValue k (es.map (Prod.map f g)) := by
  induction es with
  | nil => rfl
  | cons e es ih =>
    rw [keepLast]
    split
    · next hlater =>
      have hsome : (lastValue (f e.1) (es.map (Prod.map f g))).isSome = true := by
        rw [lastValue_isSome_iff, List.map_map]
        obtain ⟨later, hmem, hkey⟩ := List.mem_map.mp hlater
        exact List.mem_map.mpr ⟨later, hmem, congrArg f hkey⟩
      rw [ih, List.map_cons, lastValue, Prod.map_fst]
      by_cases hk : f e.1 = k
      · subst hk
        rw [Option.or_eq_left_of_isSome hsome]
      · rw [if_neg hk, Option.or_none]
    · rw [List.map_cons, List.map_cons, lastValue, lastValue, ih]

theorem lastValue_keepLast (k : κ) (es : List (κ × β)) : lastValue k (keepLast es) = lastValue k es := by
  simpa using lastValue_map_keepLast id id k es

theorem foldl_or_eq_getLast? {γ δ : Type*} (offer : γ → Option δ) (xs : List γ) :
    xs.foldl (fun cell x => (offer x).or cell) none = (xs.filterMap offer).getLast? := by
  induction xs using List.reverseRecOn with
  | nil => rfl
  | append_singleton xs x ih =>
    rw [List.foldl_append, List.foldl_cons, List.foldl_nil, ih, List.filterMap_append,
      List.getLast?_append]
    cases hoffer : offer x with
    | none => simp [hoffer]
    | some y => simp [hoffer]

/-- An observation that the entries of `k` overwrite and no other entry changes shows, after any list
of entries, the last one for `k`. -/
theorem observe_foldl {f : σ → κ × β → σ} {g : σ → α} {k : κ} {conv : β → α}
    (hself : ∀ s v, g (f s (k, v)) = conv v) (hother : ∀ s e, e.1 ≠ k → g (f s e) = g s)
    (s : σ) (es : List (κ × β)) :
    g (es.foldl f s) = ((lastValue k es).map conv).getD (g s) := by
  induction es using List.reverseRecOn with
  | nil => rfl
  | append_singleton es e ih =>
    rw [List.foldl_append, List.foldl_cons, List.foldl_nil, lastValue_concat]
    obtain ⟨k', v⟩ := e
    by_cases h : k' = k
    · subst h
      simp [hself]
    · rw [hother _ _ h, ih]
      simp [h]

/-! ## A cell with an absorbing value -/

section Absorbing
variable {γ : Type*} [DecidableEq γ]

/-- Write a value, unless the cell holds `a`. -/
def writeUnless (a c v : γ) : γ := if c = a then c else v

theorem foldl_absorbing (a : γ) (vs : List γ) (c : γ) :
    vs.foldl (writeUnless a) c = if c = a ∨ a ∈ vs then a else vs.getLastD c := by
  induction vs using List.reverseRecOn with
  | nil =>
    by_cases hc : c = a
    · simp [hc]
    · simp [hc]
  | append_singleton vs v ih =>
    rw [List.foldl_append, List.foldl_cons, List.foldl_nil, ih, writeUnless]
    by_cases hin : c = a ∨ a ∈ vs
    · have hin' : c = a ∨ a ∈ vs ++ [v] := hin.imp id (List.mem_append_left _)
      rw [if_pos hin, if_pos rfl, if_pos hin']
    · rw [if_neg hin]
      obtain ⟨hc, hvs⟩ := not_or.mp hin
      have hlast : vs.getLastD c ≠ a := by
        cases hl : vs.getLast? with
        | none => simpa [List.getLastD_eq_getLast?, hl] using hc
        | some w =>
          rintro rfl
          exact hvs (by simpa [List.getLastD_eq_getLast?, hl] using List.mem_of_getLast? hl)
      rw [if_neg hlast]
      by_cases hv : v = a
      · simp [hv]
      · simp [hc, hvs, Ne.symm hv]

/-- The cell shows the last value written, unless `a` is in the way. -/
theorem foldl_absorbing_eq_iff (a : γ) (vs : List γ) (c : γ) :
    vs.foldl (writeUnless a) c = vs.getLastD c ↔ (c = a ∨ a ∈ vs → vs.getLastD c = a) := by
  rw [foldl_absorbing]
  by_cases hin : c = a ∨ a ∈ vs
  · rw [if_pos hin]
    exact ⟨fun h _ => h.symm, fun h => (h hin).symm⟩
  · rw [if_neg hin]
    exact ⟨fun _ h => absurd h hin, fun _ => rfl⟩

end Absorbing

/-! ## Counting writes -/

/-- How many of the values that are written one after the other a cell takes on; `accepts c v` when a
cell with `c` takes on `v`. -/
def acceptedWrites {γ : Type*} (accepts : γ → γ → Bool) : γ → List γ → Nat
  | _, [] => 0
  | c, v :: vs =>
    if accepts c v then acceptedWrites accepts v vs + 1 else acceptedWrites accepts c vs

end LastWrite
