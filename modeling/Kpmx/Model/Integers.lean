import Kpmx.Model.Conversions

/-!
# Doubles for integers

The branches of the loops and of the bars convert a double to `int`, whatever its value; the bars then go
to an unsigned field.

* `cast_mem_operations_iff` : the doubles that the loop over the parameters casts are those given for a
  loop or for the bars, `conversions`;
* `parseParams_eq_of_defined` : the casts are all that the result depends on beyond the standard;
* `converted_exactly_iff` : the bars get the double that was sent only when it is not negative.
-/

namespace Kpmx

open LastWrite

/-- The double that a parameter gives for a loop or for the bars, if any. -/
def convertedToInt (param : DecodedParam) : Option Double :=
  if (loopNumber param.1).isSome ∨ param.1 = "Looper:bars" then
    match param.2 with
    | .double d => some d
    | _ => none
  else none

/-- The doubles that are given for a loop or for the bars, in order. -/
def conversions (params : List DecodedParam) : List Double := params.filterMap convertedToInt

/-! ## The casts -/

section
variable [CastUndefined]

theorem cast_mem_readInt_append {value : ParamVariant} {d : Double} {operations : List Operation}
    (h : Operation.cast d ∉ operations) :
    Operation.cast d ∈ value.readInt.2 ++ operations ↔ value = .double d := by
  cases value with
  | double e => simp [ParamVariant.readInt, Double.castToInt, h, eq_comm]
  | int i => simp [ParamVariant.readInt, h]
  | bool b => simp [ParamVariant.readInt, h]

theorem cast_mem_loopBranch_iff {n : Int32} {value : ParamVariant} {s : ChannelStripModel}
    {d : Double} : Operation.cast d ∈ loopBranch n value s ↔ value = .double d := by
  rw [loopBranch]
  refine cast_mem_readInt_append ?_
  split <;> simp

theorem cast_mem_assignBranch_iff {p : Param} {changed : Signal} {value : ParamVariant}
    {s : ChannelStripModel} {d : Double} : Operation.cast d ∈ assignBranch p changed value s ↔
      p = .loopLengthInBars ∧ value = .double d := by
  have hrest : Operation.cast d ∉ (if p.type.ne (p.type.read value).1 (p.get s) = true then
      [Operation.assign p (p.type.read value).1, .insert changed] else []) := by
    split <;> simp
  by_cases hbars : p = .loopLengthInBars
  · subst hbars
    simp only [true_and]
    exact cast_mem_readInt_append hrest
  · have hread : (p.type.read value).2 = [] := by
      cases p <;> first | exact absurd rfl hbars | rfl
    simp only [assignBranch, hread, List.nil_append, hbars, false_and, iff_false]
    exact hrest

theorem cast_mem_branch_iff {param : DecodedParam} {s : ChannelStripModel} {d : Double} :
    Operation.cast d ∈ branch param s ↔ convertedToInt param = some d := by
  have hdouble : param.2 = .double d ↔
      (match param.2 with | .double e => some e | _ => none) = some d := by
    cases param.2 <;> simp
  rw [branch_eq, convertedToInt]
  cases hloop : loopNumber param.1 with
  | some n => simp [cast_mem_loopBranch_iff, hdouble]
  | none =>
    cases hname : Param.ofName param.1 with
    | none =>
      have hbars : param.1 ≠ "Looper:bars" := by
        rintro h
        rw [h] at hname
        exact absurd hname (by decide)
      simp [hbars]
    | some p =>
      have hbars : p = .loopLengthInBars ↔ param.1 = "Looper:bars" := by
        rw [← (Param.ofName_eq_some_iff.mp hname).2]
        exact ⟨fun h => h ▸ rfl, fun h => Param.parameterName_injective h⟩
      simp only [cast_mem_assignBranch_iff, hbars, hdouble]
      by_cases h : param.1 = "Looper:bars" <;> simp [h]

/-- **The casts of a message** are of the doubles it gives for the loops and the bars. -/
theorem cast_mem_operations_iff {params : List DecodedParam} {s : ChannelStripModel} {d : Double} :
    Operation.cast d ∈ operations params s ↔ d ∈ conversions params := by
  induction params generalizing s with
  | nil => simp [operations, conversions]
  | cons param params ih =>
    have hcons : d ∈ conversions (param :: params) ↔
        convertedToInt param = some d ∨ d ∈ conversions params := by
      simp [conversions, List.mem_filterMap]
    rw [operations, List.mem_append, cast_mem_branch_iff, ih, hcons]

end

/-! ## What the casts leave open -/

theorem Double.toInt32_eq_of_inIntRange {d : Double} (h : d.inIntRange = true)
    (undefined undefined' : CastUndefined) :
    @Double.toInt32 undefined d = @Double.toInt32 undefined' d := by
  cases hn : d.trunc with
  | none => simp [inIntRange, hn] at h
  | some n =>
    rw [@toInt32_of_inIntRange undefined d n hn h, @toInt32_of_inIntRange undefined' d n hn h]

theorem ParamVariant.toInt_eq_of_defined {value : ParamVariant}
    (h : ∀ d, value = .double d → d.inIntRange = true) (undefined undefined' : CastUndefined) :
    @toInt undefined value = @toInt undefined' value := by
  cases value with
  | double d => exact Double.toInt32_eq_of_inIntRange (h d rfl) undefined undefined'
  | int i => rfl
  | bool b => rfl

theorem dispatch_eq_of_defined {param : DecodedParam} {s : ChannelStripModel}
    (undefined undefined' : CastUndefined)
    (h : ∀ d, Operation.cast d ∈ @branch undefined param s → d.inIntRange = true) :
    @dispatch undefined param s = @dispatch undefined' param s := by
  rw [@branch_eq undefined] at h
  rw [@dispatch_eq undefined, @dispatch_eq undefined']
  cases hloop : loopNumber param.1 with
  | some n =>
    simp only [hloop, cast_mem_loopBranch_iff] at h
    simp only [selectLoop, ParamVariant.toInt_eq_of_defined h undefined undefined']
  | none =>
    cases hname : Param.ofName param.1 with
    | none => rfl
    | some p =>
      simp only [hloop, hname, cast_mem_assignBranch_iff, and_imp] at h
      have hdecode : @ParamType.decode undefined p.type param.2 =
          @ParamType.decode undefined' p.type param.2 := by
        by_cases hbars : p = .loopLengthInBars
        · subst hbars
          exact congrArg Int32.toUInt32
            (ParamVariant.toInt_eq_of_defined (h · rfl) undefined undefined')
        · cases p <;> first | exact absurd rfl hbars | rfl
      simp only [assign, hdecode]

/-- When every cast is defined, the message is. -/
theorem parseParams_eq_of_defined {params : List DecodedParam} {s : ChannelStripModel}
    (undefined undefined' : CastUndefined)
    (h : ∀ d, Operation.cast d ∈ @operations undefined params s → d.inIntRange = true) :
    @parseParams undefined params s = @parseParams undefined' params s := by
  induction params generalizing s with
  | nil => rfl
  | cons param params ih =>
    have hfirst := dispatch_eq_of_defined undefined undefined' fun d hd =>
      h d (List.mem_append_left _ hd)
    have hrest := ih fun d hd => h d (List.mem_append_right _ hd)
    rw [@parseParams_cons undefined, @parseParams_cons undefined', hrest, hfirst]

/-! ## The bars -/

theorem toNat_ofInt_eq_iff {d : Double} {n : Int} (hn : d.trunc = some n)
    (hrange : d.inIntRange = true) : ((UInt32.ofInt n).toNat : Int) = n ↔ 0 ≤ n := by
  have hmax : n ≤ 2147483647 := by
    simp only [Double.inIntRange, hn, decide_eq_true_eq] at hrange
    exact hrange.2
  rw [toNat_ofInt]
  omega

section
variable [platform : CastUndefined]

/-- Every cast to `int` is defined, so the result is the same whatever an undefined one gives; and a
double that is the last value for the bars leaves the field what it was before, or is what the field is
afterwards, rounded towards zero. -/
structure ConvertedExactly (params : List DecodedParam) (s : ChannelStripModel) : Prop where
  defined : ∀ d, Operation.cast d ∈ operations params s → d.inIntRange = true
  determined : ∀ other, @parseParams platform params s = @parseParams other params s
  bars : ∀ pre d post, params = pre ++ ("Looper:bars", .double d) :: post →
    "Looper:bars" ∉ post.map Prod.fst →
      (parseParams params s).1.loopLengthInBars = (parseParams pre s).1.loopLengthInBars ∨
        d.trunc = some ((parseParams params s).1.loopLengthInBars.toNat : Int)

/-- The bars that the last value given makes, or those of the strip. -/
def barsGiven (params : List DecodedParam) (s : ChannelStripModel) : UInt32 :=
  Param.loopLengthInBars.given params s

theorem loopLengthInBars_parseParams (params : List DecodedParam) (s : ChannelStripModel) :
    (parseParams params s).1.loopLengthInBars = barsGiven params s :=
  get_parseParams (p := .loopLengthInBars) (by decide) params s

theorem barsGiven_of_last {pre post : List DecodedParam} {d : Double} {n : Int}
    (hn : d.trunc = some n) (hrange : d.inIntRange = true)
    (hlast : "Looper:bars" ∉ post.map Prod.fst) (s : ChannelStripModel) :
    barsGiven (pre ++ ("Looper:bars", .double d) :: post) s = UInt32.ofInt n := by
  have hvalue : lastValue "Looper:bars" (pre ++ ("Looper:bars", .double d) :: post) =
      some (.double d) := by
    rw [lastValue_append, lastValue, (lastValue_eq_none_iff _ _).mpr hlast]
    rfl
  have hconvert : ParamType.convert .uint (.double d) = some (UInt32.ofInt n) := by
    rw [ParamType.convert, if_pos hrange, hn]
    rfl
  have hgiven : barsGiven (pre ++ ("Looper:bars", .double d) :: post) s =
      ParamType.decode .uint (.double d) := by
    rw [barsGiven, Param.given]
    exact congrArg (fun value => (value.map (ParamType.decode .uint)).getD s.loopLengthInBars) hvalue
  exact hgiven.trans (ParamType.decode_of_convert hconvert)

/-- **A double for an integer is converted exactly or rejected** if and only if all of them are in the
range of `int`, and the last one for the bars is not negative or makes what the bars are already. -/
theorem converted_exactly_iff (params : List DecodedParam) (s : ChannelStripModel) :
    ConvertedExactly params s ↔
      (∀ d ∈ conversions params, d.inIntRange = true) ∧
      ∀ pre d post, params = pre ++ ("Looper:bars", .double d) :: post →
        "Looper:bars" ∉ post.map Prod.fst →
          ∃ n, d.trunc = some n ∧ (0 ≤ n ∨ barsGiven pre s = UInt32.ofInt n) := by
  have hstep : ∀ pre d post, params = pre ++ ("Looper:bars", .double d) :: post →
      "Looper:bars" ∉ post.map Prod.fst → d.inIntRange = true →
        (((parseParams params s).1.loopLengthInBars = (parseParams pre s).1.loopLengthInBars ∨
          d.trunc = some ((parseParams params s).1.loopLengthInBars.toNat : Int)) ↔
            ∃ n, d.trunc = some n ∧ (0 ≤ n ∨ barsGiven pre s = UInt32.ofInt n)) := by
    rintro pre d post rfl hlast hrange
    cases hn : d.trunc with
    | none => simp [Double.inIntRange, hn] at hrange
    | some n =>
      have hafter : barsGiven (pre ++ ("Looper:bars", .double d) :: post) s = UInt32.ofInt n :=
        barsGiven_of_last hn hrange hlast s
      rw [loopLengthInBars_parseParams, loopLengthInBars_parseParams, hafter]
      simp only [Option.some.injEq, exists_eq_left']
      rw [← toNat_ofInt_eq_iff hn hrange, or_comm, eq_comm (a := n), eq_comm (a := UInt32.ofInt n)]
  have hcasts : (∀ d, Operation.cast d ∈ operations params s → d.inIntRange = true) ↔
      ∀ d ∈ conversions params, d.inIntRange = true :=
    forall_congr' fun d => imp_congr_left cast_mem_operations_iff
  have hmem : ∀ pre d post, params = pre ++ ("Looper:bars", .double d) :: post →
      d ∈ conversions params := by
    rintro pre d post rfl
    exact List.mem_filterMap.mpr ⟨_, List.mem_append_right _ List.mem_cons_self, rfl⟩
  constructor
  · rintro ⟨hdefined, -, hbars⟩
    have hrange := hcasts.mp hdefined
    refine ⟨hrange, fun pre d post hsplit hlast => ?_⟩
    exact (hstep pre d post hsplit hlast (hrange d (hmem pre d post hsplit))).mp
      (hbars pre d post hsplit hlast)
  · rintro ⟨hrange, hbars⟩
    have hdefined := hcasts.mpr hrange
    refine ⟨hdefined, fun other => parseParams_eq_of_defined platform other hdefined,
      fun pre d post hsplit hlast => ?_⟩
    exact (hstep pre d post hsplit hlast (hrange d (hmem pre d post hsplit))).mpr
      (hbars pre d post hsplit hlast)

end

/-- Minus one bar is all the bars there are. -/
theorem negative_bars_wrap : ¬ ∀ [CastUndefined] (params : List DecodedParam) (s : ChannelStripModel),
    ConvertedExactly params s := by
  intro h
  obtain ⟨-, -, hbars⟩ := @h .x86 [("Looper:bars", .double (.finite (-1)))] {}
  exact absurd (hbars [] (.finite (-1)) [] rfl (by decide)) (by decide)

end Kpmx
