import Kpmx.Control.Echo
import Kpmx.Model.Conversions
import Kpmx.Model.Steady

/-!
# A strip hears its own messages

After some setter calls the strip decodes, in one batch, what it pushed during them. The batch may pass
through older values, but the last one for each parameter is what the field holds
(`given_pushed`), so the strip stays as it is; and when no parameter changed twice the batch holds no
older values, and nothing is announced (`own_echo_is_harmless`).
-/

namespace Kpmx

open LastWrite SetterCall

/-- How often the calls change the field of `p`. -/
def changeCount (p : Param) : List SetterCall → ChannelStripModel → Nat
  | [], _ => 0
  | c :: cs, s =>
    let s' := (c.perform s).strip
    changeCount p cs s' + if p.get s' = p.get s then 0 else 1

/-- The argument of a call is a value that compares equal to itself. -/
def SetterCall.NotNaN (c : SetterCall) : Prop := c.param.type.control c.value ≠ .double .nan

instance (c : SetterCall) : Decidable c.NotNaN := inferInstanceAs (Decidable (_ ≠ _))

/-! ## What is pushed -/

theorem of_mem_pushed {calls : List SetterCall} {s : ChannelStripModel} {m : ControlQueueMessage}
    (h : m ∈ (performAll calls s).2) : ∃ c ∈ calls, m = c.param.message c.value := by
  induction calls generalizing s with
  | nil => cases h
  | cons c cs ih =>
    rcases List.mem_append.mp h with h | h
    · cases hne : c.param.type.ne (c.param.get s) c.value with
      | false =>
        rw [perform_of_eq hne] at h
        cases h
      | true =>
        rw [perform_of_ne hne] at h
        exact ⟨c, List.mem_cons_self, List.mem_singleton.mp h⟩
    · obtain ⟨d, hd, hm⟩ := ih h
      exact ⟨d, List.mem_cons_of_mem c hd, hm⟩

theorem ParamType.ne_eq_true_iff {t : ParamType} {c v : t.Value} (h : t.control v ≠ .double .nan) :
    t.ne c v = true ↔ c ≠ v := by
  cases t with
  | uint => exact decide_eq_true_iff
  | bool => exact decide_eq_true_iff
  | double => exact Double.ne_eq_true_iff fun hv => h (congrArg ControlValue.double hv)

theorem count_perform_pushed (p : Param) {c : SetterCall} (s : ChannelStripModel) (h : c.NotNaN) :
    ((c.perform s).pushed.map ControlQueueMessage.parameterName).count p.parameterName =
      if p.get (c.perform s).strip = p.get s then 0 else 1 := by
  cases hne : c.param.type.ne (c.param.get s) c.value with
  | false =>
    rw [perform_of_eq hne, if_pos rfl]
    rfl
  | true =>
    rw [perform_of_ne hne, List.map_singleton, List.count_singleton]
    by_cases hp : p = c.param
    · subst hp
      have hchange : c.param.get (c.param.set c.value s) ≠ c.param.get s := by
        rw [Param.get_set]
        exact ((ParamType.ne_eq_true_iff h).mp hne).symm
      rw [if_neg hchange]
      exact if_pos (beq_self_eq_true _)
    · have hname : ¬ (c.param.message c.value).parameterName = p.parameterName := fun hname =>
        hp (Param.parameterName_injective hname.symm)
      rw [if_pos (Param.get_set_of_ne hp _ s), if_neg (by simpa using hname)]

theorem count_pushed (p : Param) {calls : List SetterCall} (s : ChannelStripModel)
    (h : ∀ c ∈ calls, c.NotNaN) :
    ((performAll calls s).2.map ControlQueueMessage.parameterName).count p.parameterName =
      changeCount p calls s := by
  induction calls generalizing s with
  | nil => rfl
  | cons c cs ih =>
    obtain ⟨hc, hcs⟩ := List.forall_mem_cons.mp h
    simp only [performAll, changeCount, List.map_append, List.count_append]
    rw [count_perform_pushed p s hc, ih _ hcs, Nat.add_comm]

theorem nodup_pushed {calls : List SetterCall} {s : ChannelStripModel}
    (hnan : ∀ c ∈ calls, c.NotNaN) (honce : ∀ p : Param, changeCount p calls s ≤ 1) :
    (((performAll calls s).2.map ControlQueueMessage.decoded).map Prod.fst).Nodup := by
  have hnames : ((performAll calls s).2.map ControlQueueMessage.decoded).map Prod.fst =
      (performAll calls s).2.map ControlQueueMessage.parameterName := by
    rw [List.map_map]
    refine List.map_congr_left fun m hm => ?_
    obtain ⟨c, -, rfl⟩ := of_mem_pushed hm
    exact cStr_parameterName c.param
  rw [hnames, List.nodup_iff_count_le_one]
  intro name
  by_cases hmem : name ∈ (performAll calls s).2.map ControlQueueMessage.parameterName
  · obtain ⟨m, hm, rfl⟩ := List.mem_map.mp hmem
    obtain ⟨c, -, rfl⟩ := of_mem_pushed hm
    exact (count_pushed c.param s hnan).trans_le (honce c.param)
  · rw [List.count_eq_zero.mpr hmem]
    exact Nat.zero_le 1

section
variable [CastUndefined]

/-! ## What is heard -/

/-- What the strip does, after the calls, with the messages that it pushed during them. -/
def ownEcho (calls : List SetterCall) (s : ChannelStripModel) : Decoding :=
  parseSpaPropParams (paramsStruct (performAll calls s).2) (performAll calls s).1

theorem ownEcho_eq (calls : List SetterCall) (s : ChannelStripModel) :
    ownEcho calls s = parseParams ((performAll calls s).2.map ControlQueueMessage.decoded)
      (performAll calls s).1 := by
  simp only [ownEcho, paramsStruct, parseSpaPropParams, extractParams_appendToStruct]

/-- The last value pushed for a field is what the field holds. -/
theorem given_pushed (calls : List SetterCall) (s : ChannelStripModel) {p : Param}
    (hp : p ≠ .volume) : p.given ((performAll calls s).2.map ControlQueueMessage.decoded) s =
      p.get (performAll calls s).1 := by
  rw [← get_echo_of_ne_volume calls s hp, echo_eq, get_applyParams hp, Param.given]

theorem get_ownEcho (calls : List SetterCall) (s : ChannelStripModel) (p : Param) :
    p.get (ownEcho calls s).1 = p.get (performAll calls s).1 := by
  rw [ownEcho_eq]
  by_cases hp : p = .volume
  · subst hp
    rw [parseParams_fst, get_volume_applyParams]
  · have hgiven := given_pushed calls s hp
    rw [get_parseParams hp]
    rw [Param.given] at hgiven ⊢
    cases hlast : lastValue p.parameterName
        ((performAll calls s).2.map ControlQueueMessage.decoded) with
    | none => rfl
    | some value =>
      rw [hlast] at hgiven
      exact hgiven

omit [CastUndefined] in
theorem loopNumber_pushed {calls : List SetterCall} {s : ChannelStripModel} {m : ControlQueueMessage}
    (h : m ∈ (performAll calls s).2) : loopNumber m.decoded.1 = none := by
  obtain ⟨c, -, rfl⟩ := of_mem_pushed h
  rw [Param.decoded_message]
  exact loopNumber_parameterName c.param

theorem loopsCalled_pushed (calls : List SetterCall) (s : ChannelStripModel) :
    loopsCalled ((performAll calls s).2.map ControlQueueMessage.decoded) = [] := by
  refine List.filterMap_eq_nil_iff.mpr fun param hparam => ?_
  obtain ⟨m, hm, rfl⟩ := List.mem_map.mp hparam
  rw [loopCalled, loopNumber_pushed hm]
  rfl

theorem ownEcho_fst (calls : List SetterCall) (s : ChannelStripModel) :
    (ownEcho calls s).1 = (performAll calls s).1 := by
  refine ChannelStripModel.ext_params (get_ownEcho calls s) ?_ ?_
  · rw [ownEcho_eq, parseParams_fst, unsent_applyParams]
  · rw [ownEcho_eq, selectedLoop_parseParams, loopsCalled_pushed]
    rfl

theorem assignedBy_message {p : Param} {v : p.type.Value} {s : ChannelStripModel}
    (hnan : p.type.control v ≠ .double .nan) (hv : p ≠ .volume → p.get s = v) :
    assignedBy (p.message v).decoded s = none := by
  rw [Param.decoded_message]
  by_cases hp : p = .volume
  · subst hp
    rfl
  · have hsame : p.type.ne v v = false :=
      Bool.eq_false_iff.mpr fun hne => (ParamType.ne_eq_true_iff hnan).mp hne rfl
    rw [assignedBy_parameterName hp, hv hp, ParamType.decode_control, hsame]
    exact if_neg Bool.false_ne_true

/-- **A strip's own echo is harmless**: it leaves the strip as it is, and when no parameter changed more
than once it emits nothing, wherever the objects are. -/
theorem own_echo_is_harmless (layout : Layout) (rebalancing : SearchTree.Rebalancing SetNode)
    (calls : List SetterCall) (s : ChannelStripModel) (hnan : ∀ c ∈ calls, c.NotNaN) :
    (ownEcho calls s).1 = (performAll calls s).1 ∧
      ((∀ p : Param, changeCount p calls s ≤ 1) →
        emitted layout rebalancing (ownEcho calls s).2 = []) := by
  refine ⟨ownEcho_fst calls s, fun honce => ?_⟩
  rw [ownEcho_eq]
  refine ((quiet_iff layout rebalancing _ _).mpr fun param hparam => ?_).2
  obtain ⟨m, hm, rfl⟩ := List.mem_map.mp hparam
  obtain ⟨c, hc, rfl⟩ := of_mem_pushed hm
  refine assignedBy_message (hnan c hc) fun hp => ?_
  have hlast := lastValue_of_nodup (nodup_pushed hnan honce) hparam
  rw [Param.decoded_message] at hlast
  rw [← given_pushed calls s hp, Param.given, hlast]
  exact ParamType.decode_control _ _

end

/-- A change of the mix and one of the bars beyond the `int` range. -/
def mixAndBars : List SetterCall := [.setLooperMix (.finite 70), .setLoopLengthInBars 4294967295]

theorem own_echo_is_harmless_mixAndBars :
    emitted .interleaved .none (@ownEcho .x86 mixAndBars {}).2 = [] :=
  (@own_echo_is_harmless .x86 .interleaved .none mixAndBars {} (by decide)).2
    fun p => by cases p <;> decide +kernel

end Kpmx
