import Kpmx.Model.SelectedLoop

/-!
# What the branches assign

`operations` is what the loop over the parameters does to the strip; `assigned` picks the properties that
it assigns.

* `runOperations_operations` : the operations make the strip and the insertions;
* `dispatch_snd`, `parseParams_snd` : what is inserted are the signals of the properties assigned;
* `same_of_not_mem_assigned` : a property that is not assigned keeps its value.
-/

namespace Kpmx

/-! ## Properties -/

/-- The properties of a strip; each has a change signal. -/
inductive Property where
  | param (p : Param)
  | selectedLoop
  | looperPlaying
  | looperRecording
  | name
  | pan
  | targetObject
  | objectId
  deriving DecidableEq

namespace Property

def changed : Property → Signal
  | .param p => p.changed
  | .selectedLoop => .selectedLoopChanged
  | .looperPlaying => .looperPlayingChanged
  | .looperRecording => .looperRecordingChanged
  | .name => .nameChanged
  | .pan => .panChanged
  | .targetObject => .targetObjectChanged
  | .objectId => .objectIdChanged

/-- The property that a signal announces. -/
def ofSignal : Signal → Property
  | .selectedLoopChanged => .selectedLoop
  | .loopLengthInBarsChanged => .param .loopLengthInBars
  | .looperPlayingChanged => .looperPlaying
  | .looperRecordingChanged => .looperRecording
  | .looperMixChanged => .param .looperMix
  | .saturatorBypassEnabledChanged => .param .saturatorBypassEnabled
  | .saturatorInGainChanged => .param .saturatorInGain
  | .saturatorDriveChanged => .param .saturatorDrive
  | .saturatorBlendChanged => .param .saturatorBlend
  | .saturatorOutGainChanged => .param .saturatorOutGain
  | .compressorBypassEnabledChanged => .param .compressorBypassEnabled
  | .compressorThresholdChanged => .param .compressorThreshold
  | .compressorAttackChanged => .param .compressorAttack
  | .compressorRatioChanged => .param .compressorRatio
  | .compressorReleaseChanged => .param .compressorRelease
  | .compressorKneeChanged => .param .compressorKnee
  | .compressorMixChanged => .param .compressorMix
  | .compressorGainChanged => .param .compressorGain
  | .equalizerHighGainChanged => .param .equalizerHighGain
  | .equalizerMidGainChanged => .param .equalizerMidGain
  | .equalizerLowGainChanged => .param .equalizerLowGain
  | .nameChanged => .name
  | .volumeChanged => .param .volume
  | .panChanged => .pan
  | .targetObjectChanged => .targetObject
  | .objectIdChanged => .objectId

theorem ofSignal_changed (property : Property) : ofSignal property.changed = property := by
  cases property with
  | param p => cases p <;> rfl
  | _ => rfl

theorem changed_injective : Function.Injective changed :=
  Function.LeftInverse.injective ofSignal_changed

/-- The property has the same value in both strips. -/
def Same (s t : ChannelStripModel) : Property → Prop
  | .param p => p.get t = p.get s
  | .selectedLoop => t.selectedLoop = s.selectedLoop
  | .looperPlaying => t.looperPlaying = s.looperPlaying
  | .looperRecording => t.looperRecording = s.looperRecording
  | .name => t.name = s.name
  | .pan => t.pan = s.pan
  | .targetObject => t.targetObject = s.targetObject
  | .objectId => t.objectId = s.objectId

theorem Same.refl (s : ChannelStripModel) (property : Property) : property.Same s s := by
  cases property <;> rfl

theorem Same.trans {s t u : ChannelStripModel} {property : Property} (h : property.Same s t)
    (h' : property.Same t u) : property.Same s u := by
  cases property <;> exact Eq.trans h' h

end Property

/-- The property that an operation assigns. -/
def Operation.property : Operation → Option Property
  | .assign p _ => some (.param p)
  | .selectLoop _ => some .selectedLoop
  | .cast _ => none
  | .insert _ => none

theorem foldl_perform (operations : List Operation) (s : ChannelStripModel) (inserted : List Signal) :
    operations.foldl Operation.perform (s, inserted) =
      ((runOperations operations s).1, inserted ++ (runOperations operations s).2) := by
  unfold runOperations
  induction operations using List.reverseRecOn with
  | nil => simp
  | append_singleton operations operation ih =>
    rw [List.foldl_concat, List.foldl_concat, ih]
    cases operation <;> simp [Operation.perform]

theorem runOperations_append (xs ys : List Operation) (s : ChannelStripModel) :
    runOperations (xs ++ ys) s = ((runOperations ys (runOperations xs s).1).1,
      (runOperations xs s).2 ++ (runOperations ys (runOperations xs s).1).2) := by
  rw [runOperations, List.foldl_append]
  exact foldl_perform ys _ _

section
variable [CastUndefined]

/-- The property that a parameter's branch assigns, if its comparison lets it. -/
def assignedBy (param : DecodedParam) (s : ChannelStripModel) : Option Property :=
  ((branch param s).filterMap Operation.property).head?

/-- The operations of the loop over `params`, in order. -/
def operations : List DecodedParam → ChannelStripModel → List Operation
  | [], _ => []
  | param :: params, s => branch param s ++ operations params (dispatch param s).1

/-- The properties that the parameters assign, in order. -/
def assigned (params : List DecodedParam) (s : ChannelStripModel) : List Property :=
  (operations params s).filterMap Operation.property

/-! ## The operations -/

theorem property_readInt (value : ParamVariant) :
    value.readInt.2.filterMap Operation.property = [] := by
  cases value <;> rfl

theorem property_read (t : ParamType) (value : ParamVariant) :
    (t.read value).2.filterMap Operation.property = [] := by
  cases t with
  | uint => exact property_readInt value
  | bool => rfl
  | double => rfl

theorem property_assignBranch (p : Param) (changed : Signal) (value : ParamVariant)
    (s : ChannelStripModel) :
    (assignBranch p changed value s).filterMap Operation.property =
      if p.type.ne (p.type.decode value) (p.get s) then [.param p] else [] := by
  rw [assignBranch, List.filterMap_append, property_read, ParamType.decode]
  split <;> rfl

theorem property_loopBranch (n : Int32) (value : ParamVariant) (s : ChannelStripModel) :
    (loopBranch n value s).filterMap Operation.property =
      if value.toInt = n ∧ s.selectedLoop ≠ 1 then [.selectedLoop] else [] := by
  rw [loopBranch, List.filterMap_append, property_readInt, ParamVariant.toInt]
  split <;> rfl

/-- A branch assigns one property at most. -/
theorem property_branch_eq (param : DecodedParam) (s : ChannelStripModel) :
    (branch param s).filterMap Operation.property =
      (match loopNumber param.1, Param.ofName param.1 with
      | some n, _ => if param.2.toInt = n ∧ s.selectedLoop ≠ 1 then some .selectedLoop else none
      | none, some p =>
        if p.type.ne (p.type.decode param.2) (p.get s) then some (.param p) else none
      | none, none => none : Option Property).toList := by
  rw [branch_eq]
  cases loopNumber param.1 with
  | some n =>
    simp only [property_loopBranch]
    split <;> rfl
  | none =>
    cases Param.ofName param.1 with
    | some p =>
      simp only [property_assignBranch]
      split <;> rfl
    | none => rfl

theorem assignedBy_eq (param : DecodedParam) (s : ChannelStripModel) :
    assignedBy param s = match loopNumber param.1, Param.ofName param.1 with
      | some n, _ => if param.2.toInt = n ∧ s.selectedLoop ≠ 1 then some .selectedLoop else none
      | none, some p =>
        if p.type.ne (p.type.decode param.2) (p.get s) then some (.param p) else none
      | none, none => none := by
  rw [assignedBy, property_branch_eq, Option.head?_toList]

theorem property_branch (param : DecodedParam) (s : ChannelStripModel) :
    (branch param s).filterMap Operation.property = (assignedBy param s).toList := by
  rw [assignedBy, property_branch_eq, Option.head?_toList]

theorem assigned_cons (param : DecodedParam) (params : List DecodedParam) (s : ChannelStripModel) :
    assigned (param :: params) s = (assignedBy param s).toList ++ assigned params (dispatch param s).1 := by
  rw [assigned, operations, List.filterMap_append, property_branch]
  rfl

theorem dispatch_snd (param : DecodedParam) (s : ChannelStripModel) :
    (dispatch param s).2 = (assignedBy param s).toList.map Property.changed := by
  rw [dispatch_eq, assignedBy_eq]
  cases loopNumber param.1 with
  | some n =>
    simp only [selectLoop]
    split <;> rfl
  | none =>
    cases Param.ofName param.1 with
    | some p =>
      simp only [assign]
      split <;> rfl
    | none => rfl

theorem dispatch_of_assignedBy_eq_none {param : DecodedParam} {s : ChannelStripModel}
    (h : assignedBy param s = none) : dispatch param s = (s, []) := by
  rw [assignedBy_eq] at h
  rw [dispatch_eq]
  cases hloop : loopNumber param.1 with
  | some n =>
    simp only [hloop] at h
    split at h
    · cases h
    · next hguard => exact if_neg hguard
  | none =>
    cases hname : Param.ofName param.1 with
    | some p =>
      simp only [hloop, hname] at h
      split at h
      · cases h
      · next hne => exact if_neg hne
    | none => rfl

theorem dispatch_eq_self_iff {param : DecodedParam} {s : ChannelStripModel} :
    dispatch param s = (s, []) ↔ assignedBy param s = none := by
  refine ⟨fun h => ?_, dispatch_of_assignedBy_eq_none⟩
  have hinserted := dispatch_snd param s
  rw [h] at hinserted
  exact Option.toList_eq_nil_iff.mp (List.map_eq_nil_iff.mp hinserted.symm)

theorem same_dispatch {param : DecodedParam} {s : ChannelStripModel} {property : Property}
    (h : assignedBy param s ≠ some property) : property.Same s (dispatch param s).1 := by
  have hunsent := unsent_dispatch param s
  cases property with
  | param q =>
    rw [assignedBy_eq] at h
    rw [Property.Same, dispatch_eq]
    cases hloop : loopNumber param.1 with
    | some n => exact get_selectLoop q n param.2 s
    | none =>
      cases hname : Param.ofName param.1 with
      | none => rfl
      | some p =>
        simp only [hloop, hname] at h
        by_cases hqp : q = p
        · subst hqp
          have hne : ¬ q.type.ne (q.type.decode param.2) (q.get s) = true := fun hne => h (if_pos hne)
          simp only [assign, if_neg hne]
        · exact get_assign_of_ne hqp _ _ s
  | selectedLoop =>
    rw [assignedBy_eq] at h
    rw [Property.Same, dispatch_eq]
    cases hloop : loopNumber param.1 with
    | some n =>
      simp only [hloop] at h
      have hguard : ¬ (param.2.toInt = n ∧ s.selectedLoop ≠ 1) := fun hguard => h (if_pos hguard)
      simp only [selectLoop, if_neg hguard]
    | none =>
      cases Param.ofName param.1 with
      | none => rfl
      | some p => exact selectedLoop_assign p _ _ s
  | looperPlaying => exact congrArg UnsentFields.looperPlaying hunsent
  | looperRecording => exact congrArg UnsentFields.looperRecording hunsent
  | name => exact congrArg UnsentFields.name hunsent
  | pan => exact congrArg UnsentFields.pan hunsent
  | targetObject => exact congrArg UnsentFields.targetObject hunsent
  | objectId => exact congrArg UnsentFields.objectId hunsent

theorem parseParams_cons (param : DecodedParam) (params : List DecodedParam)
    (s : ChannelStripModel) : parseParams (param :: params) s =
      ((parseParams params (dispatch param s).1).1,
        (dispatch param s).2 ++ (parseParams params (dispatch param s).1).2) := by
  have hfold : ∀ (inserted : List Signal) (t : ChannelStripModel), params.foldl (fun acc param =>
      ((dispatch param acc.1).1, acc.2 ++ (dispatch param acc.1).2)) (t, inserted) =
        ((parseParams params t).1, inserted ++ (parseParams params t).2) := by
    unfold parseParams
    induction params with
    | nil => simp
    | cons param params ih =>
      intro inserted t
      rw [List.foldl_cons, List.foldl_cons, ih, ih ([] ++ _)]
      simp
  exact hfold _ _

/-- The loop performs its operations. -/
theorem runOperations_operations (params : List DecodedParam) (s : ChannelStripModel) :
    runOperations (operations params s) s = parseParams params s := by
  induction params generalizing s with
  | nil => rfl
  | cons param params ih =>
    have hfirst : runOperations (branch param s) s = dispatch param s := rfl
    rw [operations, runOperations_append, hfirst, ih, parseParams_cons]

theorem parseParams_snd (params : List DecodedParam) (s : ChannelStripModel) :
    (parseParams params s).2 = (assigned params s).map Property.changed := by
  induction params generalizing s with
  | nil => rfl
  | cons param params ih =>
    rw [parseParams_cons, assigned_cons, List.map_append, dispatch_snd, ih]

/-- **A property that no parameter assigns** keeps its value. -/
theorem same_of_not_mem_assigned {params : List DecodedParam} {s : ChannelStripModel}
    {property : Property} (h : property ∉ assigned params s) :
    property.Same s (parseParams params s).1 := by
  induction params generalizing s with
  | nil => exact .refl s property
  | cons param params ih =>
    rw [assigned_cons, List.mem_append, Option.mem_toList] at h
    rw [parseParams_cons]
    exact (same_dispatch fun heq => h (.inl heq)).trans (ih fun hmem => h (.inr hmem))

end

end Kpmx
