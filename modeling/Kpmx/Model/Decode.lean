import Kpmx.Lib.LastWrite
import Kpmx.Spa.Params

/-!
# Decoding feedback: `parse_spa_prop_params`

`branch` is the chain of branches on a parameter's name, each with the operations that it makes on the
strip; `dispatch` makes them. The numeric and bypass branches are one definition, `assignBranch`, at
their own field and signal; the six loop branches are `loopBranch`.

* `branch_eq`, `dispatch_eq`, `dispatch_cases` : the chain as a look-up by name, and all a branch can do;
* `dispatch_param`, `get_dispatch_of_ne` : a parameter's own branch overwrites its field whatever was
  there, the others leave it alone;
* `get_applyParams` : after a list of decoded parameters a field shows the last one of its name.

The volume has no branch here, the other eighteen parameters do.
-/

namespace Kpmx

open LastWrite

/-! ## The names of the branches -/

/-- The number in the name of a loop's parameter. -/
def loopNumber : String → Option Int32
  | "Looper:loop1" => some 1
  | "Looper:loop2" => some 2
  | "Looper:loop3" => some 3
  | "Looper:loop4" => some 4
  | "Looper:loop5" => some 5
  | "Looper:loop6" => some 6
  | _ => none

/-- The field whose branch takes the name. -/
def Param.ofName (name : String) : Option Param :=
  Param.all.find? fun p => p ≠ .volume ∧ p.parameterName = name

theorem Param.ofName_eq_some_iff {name : String} {p : Param} :
    Param.ofName name = some p ↔ p ≠ .volume ∧ p.parameterName = name := by
  constructor
  · intro h
    have hfound := List.find?_some h
    exact of_decide_eq_true hfound
  · rintro ⟨hp, hname⟩
    cases h : Param.ofName name with
    | none =>
      have hnone := List.find?_eq_none.mp h p p.mem_all
      exact absurd (decide_eq_true ⟨hp, hname⟩) hnone
    | some q =>
      have hfound := List.find?_some h
      rw [Param.parameterName_injective ((of_decide_eq_true hfound).2.trans hname.symm)]

theorem Param.ofName_parameterName {p : Param} (hp : p ≠ .volume) :
    Param.ofName p.parameterName = some p := ofName_eq_some_iff.mpr ⟨hp, rfl⟩

variable [CastUndefined]

/-! ## Operations -/

/-- What a branch does: it casts a double to `int`, assigns the field of a parameter or the selected
loop, inserts a signal into `signals_to_emit`. -/
inductive Operation where
  | cast (d : Double)
  | assign (p : Param) (newValue : p.type.Value)
  | selectLoop (n : UInt32)
  | insert (changed : Signal)

/-- A strip and the signals inserted into `signals_to_emit`. -/
abbrev Decoding := ChannelStripModel × List Signal

def Operation.perform (acc : Decoding) : Operation → Decoding
  | .cast _ => acc
  | .assign p newValue => (p.set newValue acc.1, acc.2)
  | .selectLoop n => ({ acc.1 with selectedLoop := n }, acc.2)
  | .insert changed => (acc.1, acc.2 ++ [changed])

/-- The operations on a strip, in order, with nothing inserted before. -/
def runOperations (operations : List Operation) (s : ChannelStripModel) : Decoding :=
  operations.foldl Operation.perform (s, [])

/-! ## Conversions -/

/-- `static_cast<int>` of a double. -/
def Double.castToInt (d : Double) : Int32 × List Operation := (d.toInt32, [.cast d])

namespace ParamVariant

def toDouble : ParamVariant → Double
  | .double d => d
  | .int i => .ofInt32 i
  | .bool _ => .finite 0

def toBool : ParamVariant → Bool
  | .bool b => b
  | .int i => decide (i ≠ 0)
  | .double d => decide (d ≠ .finite 0)

/-- The `int` and the casts that it took. -/
def readInt : ParamVariant → Int32 × List Operation
  | .double d => d.castToInt
  | .int i => (i, [])
  | .bool _ => (0, [])

def toInt (value : ParamVariant) : Int32 := value.readInt.1

end ParamVariant

/-- The new value a branch computes for a field of each type, and the casts that it took; an unsigned
field takes the bits of the `int`. -/
def ParamType.read : (t : ParamType) → ParamVariant → t.Value × List Operation
  | .uint, v => (v.readInt.1.toUInt32, v.readInt.2)
  | .bool, v => (v.toBool, [])
  | .double, v => (v.toDouble, [])

def ParamType.decode (t : ParamType) (value : ParamVariant) : t.Value := (t.read value).1

/-! ## The branches -/

/-- Compare the new value with the field, assign it, insert the signal. The comparison of `Looper:bars`
converts its `int` to unsigned first, which `ParamType.read` has done. -/
def assignBranch (p : Param) (changed : Signal) (value : ParamVariant) (s : ChannelStripModel) :
    List Operation :=
  let (newValue, casts) := p.type.read value
  casts ++ if p.type.ne newValue (p.get s) then [.assign p newValue, .insert changed] else []

/-- The branch of `Looper:loopN`: it selects loop `N` unless loop 1 is selected. -/
def loopBranch (n : Int32) (value : ParamVariant) (s : ChannelStripModel) : List Operation :=
  let (newValue, casts) := value.readInt
  casts ++ if newValue = n ∧ s.selectedLoop ≠ 1 then
    [.selectLoop n.toUInt32, .insert .selectedLoopChanged] else []

def branch (param : DecodedParam) (s : ChannelStripModel) : List Operation :=
  let value := param.2
  match param.1 with
  | "Looper:loop1" => loopBranch 1 value s
  | "Looper:loop2" => loopBranch 2 value s
  | "Looper:loop3" => loopBranch 3 value s
  | "Looper:loop4" => loopBranch 4 value s
  | "Looper:loop5" => loopBranch 5 value s
  | "Looper:loop6" => loopBranch 6 value s
  | "Looper:bars" => assignBranch .loopLengthInBars .loopLengthInBarsChanged value s
  | "Looper:mix" => assignBranch .looperMix .looperMixChanged value s
  | "Looper:ENABLED" => []
  | "Saturator:bypass" => assignBranch .saturatorBypassEnabled .saturatorBypassEnabledChanged value s
  | "Saturator:level_in" => assignBranch .saturatorInGain .saturatorInGainChanged value s
  | "Saturator:drive" => assignBranch .saturatorDrive .saturatorDriveChanged value s
  | "Saturator:blend" => assignBranch .saturatorBlend .saturatorBlendChanged value s
  | "Saturator:level_out" => assignBranch .saturatorOutGain .saturatorOutGainChanged value s
  | "Compressor:bypass" =>
    assignBranch .compressorBypassEnabled .compressorBypassEnabledChanged value s
  | "Compressor:threshold" => assignBranch .compressorThreshold .compressorThresholdChanged value s
  | "Compressor:ratio" => assignBranch .compressorRatio .compressorRatioChanged value s
  | "Compressor:attack" => assignBranch .compressorAttack .compressorAttackChanged value s
  | "Compressor:release" => assignBranch .compressorRelease .compressorReleaseChanged value s
  | "Compressor:knee" => assignBranch .compressorKnee .compressorKneeChanged value s
  | "Compressor:mix" => assignBranch .compressorMix .compressorMixChanged value s
  | "Compressor:makeup" => assignBranch .compressorGain .compressorGainChanged value s
  | "Equalizer:high" => assignBranch .equalizerHighGain .equalizerHighGainChanged value s
  | "Equalizer:mid" => assignBranch .equalizerMidGain .equalizerMidGainChanged value s
  | "Equalizer:low" => assignBranch .equalizerLowGain .equalizerLowGainChanged value s
  | _ => []

/-- One round of the loop over `params`. -/
def dispatch (param : DecodedParam) (s : ChannelStripModel) : Decoding :=
  runOperations (branch param s) s

/-- The loop over `params`: the strip afterwards and all insertions, in order. -/
def parseParams (params : List DecodedParam) (s : ChannelStripModel) : Decoding :=
  params.foldl (fun acc param =>
    let result := dispatch param acc.1
    (result.1, acc.2 ++ result.2)) (s, [])

/-- `parse_spa_prop_params`, up to the emission: a pod that is no struct is left alone. -/
def parseSpaPropParams (pod : SpaPod) (s : ChannelStripModel) : Decoding :=
  match pod with
  | .struct fields => parseParams (extractParams fields) s
  | _ => (s, [])

/-- The switch in `apply` on one property; every params property is parsed with its own set of
signals. -/
def applyProperty (acc : ChannelStripModel × List (List Signal)) (property : SpaProp × SpaPod) :
    ChannelStripModel × List (List Signal) :=
  match property.1 with
  | .params =>
    let result := parseSpaPropParams property.2 acc.1
    (result.1, acc.2 ++ [result.2])
  | .other _ => acc

/-- `ChannelStripModel::apply`. Reading a pod that is no object as one is undefined. -/
def ChannelStripModel.apply (s : ChannelStripModel) (controlPod : SpaPod) :
    Option (ChannelStripModel × List (List Signal)) :=
  match controlPod with
  | .object props => some (props.foldl applyProperty (s, []))
  | _ => none

/-! ## The branch of a name -/

theorem branch_param {p : Param} (hp : p ≠ .volume) (value : ParamVariant) (s : ChannelStripModel) :
    branch (p.parameterName, value) s = assignBranch p p.changed value s := by
  cases p <;> first | rfl | exact absurd rfl hp

/-- The chain of branches as a look-up by name. -/
theorem branch_eq (param : DecodedParam) (s : ChannelStripModel) :
    branch param s = match loopNumber param.1, Param.ofName param.1 with
      | some n, _ => loopBranch n param.2 s
      | none, some p => assignBranch p p.changed param.2 s
      | none, none => [] := by
  obtain ⟨name, value⟩ := param
  cases hname : Param.ofName name with
  | some p =>
    obtain ⟨hp, rfl⟩ := Param.ofName_eq_some_iff.mp hname
    rw [branch_param hp]
    cases p <;> rfl
  | none =>
    cases hloop : loopNumber name with
    | some n =>
      unfold loopNumber at hloop
      split at hloop
      case h_7 => cases hloop
      all_goals
        obtain rfl := Option.some.inj hloop
        rfl
    | none =>
      unfold branch
      simp only
      split
      all_goals first | rfl | exact absurd hloop (by decide) | exact absurd hname (by decide)

/-! ## The strip after a branch -/

theorem runOperations_readInt_append (value : ParamVariant) (operations : List Operation)
    (s : ChannelStripModel) :
    runOperations (value.readInt.2 ++ operations) s = runOperations operations s := by
  cases value <;> rfl

theorem runOperations_read_append (t : ParamType) (value : ParamVariant) (operations : List Operation)
    (s : ChannelStripModel) :
    runOperations ((t.read value).2 ++ operations) s = runOperations operations s := by
  cases t with
  | uint => exact runOperations_readInt_append value operations s
  | bool => rfl
  | double => rfl

/-- The strip after the branch of a field. -/
def assign (p : Param) (changed : Signal) (value : ParamVariant) (s : ChannelStripModel) : Decoding :=
  let newValue := p.type.decode value
  if p.type.ne newValue (p.get s) then (p.set newValue s, [changed]) else (s, [])

/-- The strip after the branch of a loop. -/
def selectLoop (n : Int32) (value : ParamVariant) (s : ChannelStripModel) : Decoding :=
  if value.toInt = n ∧ s.selectedLoop ≠ 1 then
    ({ s with selectedLoop := n.toUInt32 }, [.selectedLoopChanged])
  else (s, [])

theorem runOperations_assignBranch (p : Param) (changed : Signal) (value : ParamVariant)
    (s : ChannelStripModel) :
    runOperations (assignBranch p changed value s) s = assign p changed value s := by
  rw [assignBranch, runOperations_read_append, assign, ParamType.decode]
  split <;> rfl

theorem runOperations_loopBranch (n : Int32) (value : ParamVariant) (s : ChannelStripModel) :
    runOperations (loopBranch n value s) s = selectLoop n value s := by
  rw [loopBranch, runOperations_readInt_append, selectLoop, ParamVariant.toInt]
  split <;> rfl

theorem dispatch_param {p : Param} (hp : p ≠ .volume) (value : ParamVariant)
    (s : ChannelStripModel) :
    dispatch (p.parameterName, value) s = assign p p.changed value s := by
  rw [dispatch, branch_param hp, runOperations_assignBranch]

theorem dispatch_eq (param : DecodedParam) (s : ChannelStripModel) :
    dispatch param s = match loopNumber param.1, Param.ofName param.1 with
      | some n, _ => selectLoop n param.2 s
      | none, some p => assign p p.changed param.2 s
      | none, none => (s, []) := by
  rw [dispatch, branch_eq]
  cases loopNumber param.1 with
  | some n => exact runOperations_loopBranch n param.2 s
  | none =>
    cases Param.ofName param.1 with
    | some p => exact runOperations_assignBranch p p.changed param.2 s
    | none => rfl

/-- All that one parameter can do to a strip. -/
theorem dispatch_cases (param : DecodedParam) (s : ChannelStripModel) :
    (∃ p : Param, p ≠ .volume ∧ param.1 = p.parameterName ∧
      dispatch param s = assign p p.changed param.2 s) ∨
    (∃ n, dispatch param s = selectLoop n param.2 s) ∨ dispatch param s = (s, []) := by
  rw [dispatch_eq]
  cases loopNumber param.1 with
  | some n => exact .inr (.inl ⟨n, rfl⟩)
  | none =>
    cases hname : Param.ofName param.1 with
    | some p =>
      obtain ⟨hp, hparam⟩ := Param.ofName_eq_some_iff.mp hname
      exact .inl ⟨p, hp, hparam.symm, rfl⟩
    | none => exact .inr (.inr rfl)

theorem get_assign (p : Param) (changed : Signal) (value : ParamVariant) (s : ChannelStripModel) :
    p.get (assign p changed value s).1 = p.type.decode value := by
  unfold assign
  simp only
  split
  · exact p.get_set _ s
  · next h => exact (ParamType.eq_of_ne_eq_false (by simpa using h)).symm

theorem get_assign_of_ne {p q : Param} (h : q ≠ p) (changed : Signal) (value : ParamVariant)
    (s : ChannelStripModel) : q.get (assign p changed value s).1 = q.get s := by
  unfold assign
  simp only
  split
  · exact Param.get_set_of_ne h _ s
  · rfl

theorem unsent_assign (p : Param) (changed : Signal) (value : ParamVariant) (s : ChannelStripModel) :
    (assign p changed value s).1.unsent = s.unsent := by
  unfold assign
  simp only
  split
  · exact p.unsent_set _ s
  · rfl

theorem get_selectLoop (q : Param) (n : Int32) (value : ParamVariant) (s : ChannelStripModel) :
    q.get (selectLoop n value s).1 = q.get s := by
  unfold selectLoop
  split
  · cases q <;> rfl
  · rfl

theorem unsent_selectLoop (n : Int32) (value : ParamVariant) (s : ChannelStripModel) :
    (selectLoop n value s).1.unsent = s.unsent := by
  unfold selectLoop
  split <;> rfl

theorem get_dispatch_of_ne {q : Param} {param : DecodedParam} (h : param.1 ≠ q.parameterName)
    (s : ChannelStripModel) : q.get (dispatch param s).1 = q.get s := by
  obtain ⟨p, -, hn, he⟩ | ⟨n, he⟩ | he := dispatch_cases param s
  · have hqp : q ≠ p := fun hqp => h (by rw [hn, hqp])
    rw [he, get_assign_of_ne hqp]
  · rw [he, get_selectLoop]
  · rw [he]

theorem get_volume_dispatch (param : DecodedParam) (s : ChannelStripModel) :
    Param.get .volume (dispatch param s).1 = Param.get .volume s := by
  obtain ⟨p, hp, -, he⟩ | ⟨n, he⟩ | he := dispatch_cases param s
  · rw [he, get_assign_of_ne (Ne.symm hp)]
  · rw [he, get_selectLoop]
  · rw [he]

theorem unsent_dispatch (param : DecodedParam) (s : ChannelStripModel) :
    (dispatch param s).1.unsent = s.unsent := by
  obtain ⟨p, -, -, he⟩ | ⟨n, he⟩ | he := dispatch_cases param s
  · rw [he, unsent_assign]
  · rw [he, unsent_selectLoop]
  · rw [he]

/-! ## What a list of parameters does -/

/-- The strip after a list of decoded parameters. -/
def applyParams (params : List DecodedParam) (s : ChannelStripModel) : ChannelStripModel :=
  params.foldl (fun s param => (dispatch param s).1) s

@[simp] theorem applyParams_nil (s : ChannelStripModel) : applyParams [] s = s := rfl

theorem applyParams_append (ps qs : List DecodedParam) (s : ChannelStripModel) :
    applyParams (ps ++ qs) s = applyParams qs (applyParams ps s) := by
  rw [applyParams, List.foldl_append]
  rfl

theorem parseParams_fst (params : List DecodedParam) (s : ChannelStripModel) :
    (parseParams params s).1 = applyParams params s := by
  unfold parseParams applyParams
  generalize ([] : List Signal) = inserted
  induction params generalizing s inserted with
  | nil => rfl
  | cons param params ih => exact ih _ _

/-- The field of a decoded parameter shows the last value of its name. -/
theorem get_applyParams {p : Param} (hp : p ≠ .volume) (params : List DecodedParam)
    (s : ChannelStripModel) :
    p.get (applyParams params s) =
      ((lastValue p.parameterName params).map p.type.decode).getD (p.get s) :=
  observe_foldl (g := p.get)
    (fun s v => by rw [dispatch_param hp, get_assign])
    (fun s _ h => get_dispatch_of_ne h s) s params

theorem get_volume_applyParams (params : List DecodedParam) (s : ChannelStripModel) :
    Param.get .volume (applyParams params s) = Param.get .volume s := by
  induction params generalizing s with
  | nil => rfl
  | cons param params ih => exact (ih _).trans (get_volume_dispatch param s)

theorem unsent_applyParams (params : List DecodedParam) (s : ChannelStripModel) :
    (applyParams params s).unsent = s.unsent := by
  induction params generalizing s with
  | nil => rfl
  | cons param params ih => exact (ih _).trans (unsent_dispatch param s)

/-! ## Pods -/

/-- The parameters that `parse_spa_prop_params` reads from a pod. -/
def SpaPod.structParams : SpaPod → List DecodedParam
  | .struct fields => extractParams fields
  | _ => []

/-- The parameters that `apply` reads from the params properties of an object, in order. -/
def SpaPod.decodedParams : SpaPod → List DecodedParam
  | .object props => props.flatMap fun property =>
      match property.1 with
      | .params => property.2.structParams
      | .other _ => []
  | _ => []

def SpaPod.isObject : SpaPod → Bool
  | .object _ => true
  | _ => false

theorem parseSpaPropParams_fst (pod : SpaPod) (s : ChannelStripModel) :
    (parseSpaPropParams pod s).1 = applyParams pod.structParams s := by
  cases pod <;> first | exact parseParams_fst _ s | rfl

theorem apply_fst (s : ChannelStripModel) (pod : SpaPod) :
    (s.apply pod).map Prod.fst =
      if pod.isObject then some (applyParams pod.decodedParams s) else none := by
  cases pod with
  | object props =>
    simp only [ChannelStripModel.apply, Option.map_some, SpaPod.isObject, if_true,
      SpaPod.decodedParams, Option.some.injEq]
    generalize ([] : List (List Signal)) = emitted
    induction props generalizing s emitted with
    | nil => rfl
    | cons property props ih =>
      obtain ⟨key, value⟩ := property
      cases key with
      | params =>
        rw [List.flatMap_cons, applyParams_append, ← parseSpaPropParams_fst]
        exact ih _ (emitted ++ [(parseSpaPropParams value s).2])
      | other key => exact ih s emitted
  | _ => rfl

end Kpmx
