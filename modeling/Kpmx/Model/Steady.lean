import Kpmx.Model.Emission

/-!
# Steady feedback

A message that says nothing new should change nothing and emit nothing. The branches of the loops do not
compare the loop with the one that is selected, and announce it again and again.

* `quiet_iff` : a message is quiet when no parameter of it assigns anything;
* `steady_feedback_is_quiet_iff` : so the second of two equal messages is quiet exactly when the loop it
  calls for, if any, is loop 1 or loop 1 was selected to begin with.
-/

namespace Kpmx

open LastWrite

section
variable [CastUndefined]

/-- The parameters change no field, and no signal is emitted. -/
def Quiet (layout : Layout) (rebalancing : SearchTree.Rebalancing SetNode)
    (params : List DecodedParam) (s : ChannelStripModel) : Prop :=
  (parseParams params s).1 = s ∧ emitted layout rebalancing (parseParams params s).2 = []

theorem assigned_eq_nil_iff (params : List DecodedParam) (s : ChannelStripModel) :
    assigned params s = [] ↔ ∀ param ∈ params, assignedBy param s = none := by
  induction params with
  | nil => simp [assigned, operations]
  | cons param params ih =>
    rw [assigned_cons, List.append_eq_nil_iff, List.forall_mem_cons, Option.toList_eq_nil_iff]
    refine and_congr_right fun hnone => ?_
    rw [dispatch_of_assignedBy_eq_none hnone, ih]

theorem quiet_iff (layout : Layout) (rebalancing : SearchTree.Rebalancing SetNode)
    (params : List DecodedParam) (s : ChannelStripModel) :
    Quiet layout rebalancing params s ↔ ∀ param ∈ params, assignedBy param s = none := by
  rw [Quiet, emitted_eq_nil_iff, parseParams_snd, List.map_eq_nil_iff, ← assigned_eq_nil_iff]
  refine ⟨And.right, fun h => ⟨?_, h⟩⟩
  have hnone := (assigned_eq_nil_iff params s).mp h
  clear h
  induction params with
  | nil => rfl
  | cons param params ih =>
    obtain ⟨hfirst, hrest⟩ := List.forall_mem_cons.mp hnone
    rw [parseParams_cons, dispatch_of_assignedBy_eq_none hfirst]
    exact ih hrest

/-- Only a NaN differs from itself. -/
theorem ParamType.ne_decode_self (t : ParamType) {value : ParamVariant} (h : value ≠ .double .nan) :
    t.ne (t.decode value) (t.decode value) = false := by
  cases t with
  | uint => simp [ParamType.ne]
  | bool => simp [ParamType.ne]
  | double =>
    have hnan : value.toDouble ≠ .nan := by
      cases value with
      | double d => exact fun hd => h (congrArg ParamVariant.double hd)
      | int i => simp [ParamVariant.toDouble, Double.ofInt32]
      | bool b => simp [ParamVariant.toDouble]
    exact Bool.eq_false_iff.mpr fun hne => (Double.ne_eq_true_iff hnan).mp hne rfl

/-- Every field shows its value when no name occurs twice, so no branch of a field assigns it again. -/
theorem assignedBy_ne_param {params : List DecodedParam} {s : ChannelStripModel}
    (hnames : (params.map Prod.fst).Nodup) {param : DecodedParam} (hmem : param ∈ params)
    (hnan : param.2 ≠ .double .nan) (p : Param) :
    assignedBy param (parseParams params s).1 ≠ some (.param p) := by
  intro h
  obtain ⟨hp, hname⟩ := of_assignedBy_eq_param h
  obtain ⟨name, value⟩ := param
  obtain rfl : name = p.parameterName := hname
  have hget : p.get (parseParams params s).1 = p.type.decode value := by
    rw [parseParams_fst, get_applyParams hp, lastValue_of_nodup hnames hmem]
    rfl
  rw [assignedBy_parameterName hp, hget, p.type.ne_decode_self hnan] at h
  simp at h

theorem steady_iff_of_loops (params : List DecodedParam) (s : ChannelStripModel)
    (hfields : ∀ param ∈ params, ∀ p, assignedBy param s ≠ some (.param p)) :
    (∀ param ∈ params, assignedBy param s = none) ↔
      (loopsCalled params ≠ [] → s.selectedLoop = 1) := by
  constructor
  · intro h hcalled
    obtain ⟨n, hn⟩ := List.exists_mem_of_ne_nil _ hcalled
    obtain ⟨param, hmem, hparam⟩ := List.mem_filterMap.mp hn
    by_contra hloop
    have hassigned := assignedBy_eq_selectedLoop_iff.mpr ⟨Option.isSome_iff_exists.mpr ⟨n, hparam⟩, hloop⟩
    rw [h param hmem] at hassigned
    cases hassigned
  · intro h param hmem
    cases hassigned : assignedBy param s with
    | none => rfl
    | some property =>
      rcases of_assignedBy_eq_some hassigned with ⟨p, -, rfl⟩ | rfl
      · exact absurd hassigned (hfields param hmem p)
      · obtain ⟨hcalled, hloop⟩ := assignedBy_eq_selectedLoop_iff.mp hassigned
        obtain ⟨n, hn⟩ := Option.isSome_iff_exists.mp hcalled
        exact absurd (h (List.ne_nil_of_mem (List.mem_filterMap.mpr ⟨param, hmem, hn⟩))) hloop

/-- **Steady feedback is quiet**, wherever the objects are, exactly when the loop that the message calls
for, if any, is loop 1 or loop 1 was selected to begin with. -/
theorem steady_feedback_is_quiet_iff (layout : Layout)
    (rebalancing : SearchTree.Rebalancing SetNode) (params : List DecodedParam)
    (s : ChannelStripModel) (hnames : (params.map Prod.fst).Nodup)
    (hnan : ∀ param ∈ params, param.2 ≠ .double .nan) (hloops : (loopsCalled params).length ≤ 1) :
    Quiet layout rebalancing params (parseParams params s).1 ↔
      s.selectedLoop = 1 ∨ ∀ n ∈ loopsCalled params, n = 1 := by
  rw [quiet_iff, steady_iff_of_loops params _ fun param hmem p =>
    assignedBy_ne_param hnames hmem (hnan param hmem) p, selectedLoop_parseParams]
  match hcalled : loopsCalled params with
  | [] => simp
  | [n] =>
    by_cases hfirst : s.selectedLoop = 1
    · simp [writeUnless, hfirst]
    · simp [writeUnless, hfirst]
  | _ :: _ :: _ =>
    rw [hcalled] at hloops
    simp only [List.length_cons] at hloops
    omega

end

/-- A value for the mix, and a call for loop 2. -/
def mixAndLoop : List DecodedParam := [("Looper:mix", .double (.finite 70)), ("Looper:loop2", .int 2)]

/-- On a new strip loop 1 is selected. -/
theorem steady_feedback_is_quiet_new : @Quiet .x86 .interleaved .none mixAndLoop
    (@parseParams .x86 mixAndLoop {}).1 :=
  (@steady_feedback_is_quiet_iff .x86 .interleaved .none mixAndLoop {} (by decide) (by decide)
    (by decide)).mpr (.inl rfl)

/-- Loop 2 is selected, called for, and announced again. -/
theorem selected_loop_announced_again : ¬ ∀ [CastUndefined] (layout : Layout)
    (rebalancing : SearchTree.Rebalancing SetNode) (params : List DecodedParam)
    (s : ChannelStripModel), (params.map Prod.fst).Nodup →
      (∀ param ∈ params, param.2 ≠ .double .nan) → (loopsCalled params).length ≤ 1 →
        Quiet layout rebalancing params (parseParams params s).1 := by
  intro h
  have hquiet := @h .x86 .interleaved .none [("Looper:loop2", .int 2)] { selectedLoop := 2 }
    (by decide) (by decide) (by decide)
  exact absurd ((emitted_eq_nil_iff _ _).mp hquiet.2) (by decide)

end Kpmx
