import Kpmx.Lib.Spsc
import Kpmx.Model.Setters
import Mathlib.Data.Rat.Defs

/-!
# The controls of the channel strip

The dials, the slider, the bypass buttons and the bar count of `ChannelStrip.qml`. The block of a
control names its model property three times: the binding of its value, the comparison and the
assignment of its handler.

* `drives_iff` : when a gesture does what the control shows;
* `drivesAll_iff` : when all gestures of a sequence do.
-/

namespace Kpmx.Ui

/-- The controls, in the order of the file. -/
inductive Control where
  | bars
  | looperMix
  | saturatorBypass
  | saturatorInGain
  | saturatorDrive
  | saturatorBlend
  | saturatorOut
  | compressorBypass
  | compressorThres
  | compressorRatio
  | compressorAttack
  | compressorRelease
  | compressorKnee
  | compressorMix
  | compressorGain
  | equalizerHigh
  | equalizerMid
  | equalizerLow
  | volumeSlider
  deriving DecidableEq

namespace Control

/-- The property that the value of a control is bound to. -/
def shows : Control → Param
  | .bars => .loopLengthInBars
  | .looperMix => .looperMix
  | .saturatorBypass => .saturatorBypassEnabled
  | .saturatorInGain => .saturatorInGain
  | .saturatorDrive => .saturatorDrive
  | .saturatorBlend => .saturatorBlend
  | .saturatorOut => .saturatorOutGain
  | .compressorBypass => .compressorBypassEnabled
  | .compressorThres => .compressorThreshold
  | .compressorRatio => .compressorRatio
  | .compressorAttack => .compressorAttack
  | .compressorRelease => .compressorRelease
  | .compressorKnee => .compressorKnee
  | .compressorMix => .compressorMix
  | .compressorGain => .compressorGain
  | .equalizerHigh => .equalizerHighGain
  | .equalizerMid => .equalizerMidGain
  | .equalizerLow => .equalizerLowGain
  | .volumeSlider => .volume

end Control

/-- The rest of a control's block: `from` and `to` as they are written, the property that the handler
compares with and the one that it assigns, which QML does through the property's setter. -/
structure ControlBlock (t : ParamType) where
  fromTo : ℚ × ℚ
  compared : ChannelStripModel → t.Value
  assigned : t.Value → SetterCall

/-- A bypass button has no range. -/
def Control.block : (c : Control) → ControlBlock c.shows.type
  | .bars => ⟨(1, 32), (·.loopLengthInBars), .setLoopLengthInBars⟩
  | .looperMix => ⟨(0, 100), (·.looperMix), .setLooperMix⟩
  | .saturatorBypass => ⟨(0, 1), (·.saturatorBypassEnabled), .setSaturatorBypassEnabled⟩
  | .saturatorInGain => ⟨(1 / 64, 64), (·.saturatorInGain), .setSaturatorInGain⟩
  | .saturatorDrive => ⟨(1 / 10, 10), (·.saturatorDrive), .setSaturatorDrive⟩
  -- compares with the blend and assigns the drive
  | .saturatorBlend => ⟨(-10, 10), (·.saturatorBlend), .setSaturatorDrive⟩
  | .saturatorOut => ⟨(1 / 64, 64), (·.saturatorOutGain), .setSaturatorOutGain⟩
  | .compressorBypass => ⟨(0, 1), (·.compressorBypassEnabled), .setCompressorBypassEnabled⟩
  | .compressorThres => ⟨(977 / 1000000, 1), (·.compressorThreshold), .setCompressorThreshold⟩
  | .compressorRatio => ⟨(1, 20), (·.compressorRatio), .setCompressorRatio⟩
  | .compressorAttack => ⟨(1 / 100, 2000), (·.compressorAttack), .setCompressorAttack⟩
  | .compressorRelease => ⟨(1 / 100, 2000), (·.compressorRelease), .setCompressorRelease⟩
  | .compressorKnee => ⟨(1, 8), (·.compressorKnee), .setCompressorKnee⟩
  | .compressorMix => ⟨(0, 1), (·.compressorMix), .setCompressorMix⟩
  | .compressorGain => ⟨(1, 64), (·.compressorGain), .setCompressorGain⟩
  | .equalizerHigh => ⟨(-24, 24), (·.equalizerHighGain), .setEqualizerHighGain⟩
  | .equalizerMid => ⟨(-24, 24), (·.equalizerMidGain), .setEqualizerMidGain⟩
  | .equalizerLow => ⟨(-24, 24), (·.equalizerLowGain), .setEqualizerLowGain⟩
  | .volumeSlider => ⟨(-24, 24), (·.volume), .setVolume⟩

/-- The handlers of the dials and the slider ask for `pressed`; those of the buttons and the bar count
run on the user's changes alone. -/
def Control.asksForPressed (c : Control) : Bool := decide (c.shows.type = .double)

/-- A strip and its queue. -/
structure StripUi where
  strip : ChannelStripModel := {}
  queue : Spsc ControlQueueMessage queueCapacity := Spsc.empty

/-- The user gives a control a value: a dial or slider is moved to it, a button is clicked into it, the
bar count is edited to it. -/
structure Gesture where
  control : Control
  value : control.shows.type.Value

namespace Gesture

/-- The handler of a changed value. -/
def onChange (g : Gesture) (pressed : Bool) (u : StripUi) : StripUi :=
  if (pressed || !g.control.asksForPressed) &&
      g.control.shows.type.ne (g.control.block.compared u.strip) g.value then
    let call := (g.control.block.assigned g.value).perform u.strip
    { strip := call.strip, queue := u.queue.pushAll call.pushed }
  else u

/-- What the user's gesture does: the control is pressed. -/
def handle (g : Gesture) (u : StripUi) : StripUi := g.onChange true u

/-- The value is not the one that the property has. -/
def Changes (g : Gesture) (u : StripUi) : Prop :=
  g.control.shows.type.ne (g.control.shows.get u.strip) g.value = true

/-- The shown property gets the value and every other one keeps its own, and the queue grows by the
property's message if the value changes. -/
structure Drives (g : Gesture) (u u' : StripUi) : Prop where
  shown : g.control.shows.get u'.strip = g.value
  params : ∀ q, q ≠ g.control.shows → q.get u'.strip = q.get u.strip
  unsent : u'.strip.unsent = u.strip.unsent
  selectedLoop : u'.strip.selectedLoop = u.strip.selectedLoop
  grown : g.Changes u → u'.queue.items = u.queue.items ++ [g.control.shows.message g.value]
  kept : ¬ g.Changes u → u'.queue.items = u.queue.items

/-- A change of value is none of the blend, and it finds room in the queue. -/
def OnCourse (g : Gesture) (u : StripUi) : Prop :=
  g.Changes u → g.control ≠ .saturatorBlend ∧ u.queue.items.length < queueCapacity

/-! ## One gesture -/

theorem compared_eq (c : Control) (s : ChannelStripModel) : c.block.compared s = c.shows.get s := by
  cases c <;> rfl

theorem target_assigned {c : Control} (hc : c ≠ .saturatorBlend) (v : c.shows.type.Value) :
    (c.block.assigned v).target = ⟨c.shows, v⟩ := by
  cases c <;> first | rfl | exact absurd rfl hc

theorem perform_of_target {call : SetterCall} {p : Param} {v : p.type.Value} (h : call.target = ⟨p, v⟩)
    (s : ChannelStripModel) : call.perform s = setParam p p.parameterName p.changed s v := by
  rw [SetterCall.perform_eq]
  unfold SetterCall.param SetterCall.value
  rw [h]

theorem handle_of_not_changes {g : Gesture} {u : StripUi} (h : ¬ g.Changes u) : g.handle u = u := by
  unfold handle onChange
  rw [Bool.true_or, Bool.true_and, compared_eq]
  exact if_neg h

theorem handle_of_changes {g : Gesture} {u : StripUi} (h : g.Changes u)
    (hc : g.control ≠ .saturatorBlend) :
    g.handle u =
      { strip := g.control.shows.set g.value u.strip
        queue := (u.queue.push (g.control.shows.message g.value)).2 } := by
  unfold Changes at h
  unfold handle onChange
  rw [Bool.true_or, Bool.true_and, compared_eq, if_pos h,
    perform_of_target (target_assigned hc g.value), setParam, if_pos h]
  rfl

theorem items_ne_concat (queue : Spsc ControlQueueMessage queueCapacity)
    (message : ControlQueueMessage) : queue.items ≠ queue.items ++ [message] := by
  intro h
  exact List.cons_ne_nil _ _ (List.self_eq_append_right.mp h)

/-- Whatever the blend's handler sends, it is no message of the blend. -/
theorem items_handle_blend (value : Double) (u : StripUi) :
    (handle ⟨.saturatorBlend, value⟩ u).queue.items ≠
      u.queue.items ++ [Param.saturatorBlend.message value] := by
  have hne : ∀ message, u.queue.items ≠ u.queue.items ++ [message] := items_ne_concat u.queue
  unfold handle onChange
  split
  · show (u.queue.pushAll (SetterCall.perform (.setSaturatorDrive value) u.strip).pushed).items ≠ _
    cases hdrive : Param.saturatorDrive.type.ne (Param.saturatorDrive.get u.strip) value with
    | false =>
      rw [SetterCall.perform_of_eq (c := .setSaturatorDrive value) hdrive]
      exact hne _
    | true =>
      rw [SetterCall.perform_of_ne (c := .setSaturatorDrive value) hdrive, Spsc.pushAll_singleton]
      cases hfull : u.queue.full with
      | true =>
        rw [Spsc.push_of_full hfull]
        exact hne _
      | false =>
        rw [(Spsc.push_of_not_full hfull _).2]
        intro heq
        have hmessage := List.singleton_inj.mp (List.append_cancel_left heq)
        have hname : "Saturator:drive" = "Saturator:blend" :=
          congrArg ControlQueueMessage.parameterName hmessage
        exact absurd hname (by decide)
  · exact hne _

theorem not_changes_iff {g : Gesture} {u : StripUi} :
    ¬ g.Changes u ↔ g.control.shows.type.ne (g.control.shows.get u.strip) g.value = false :=
  Bool.not_eq_true _ ▸ Iff.rfl

theorem drives_of_not_changes {g : Gesture} {u : StripUi} (h : ¬ g.Changes u) :
    g.Drives u (g.handle u) := by
  rw [handle_of_not_changes h]
  exact
    { shown := ParamType.eq_of_ne_eq_false (not_changes_iff.mp h)
      params := fun _ _ => rfl
      unsent := rfl
      selectedLoop := rfl
      grown := fun hchanges => absurd hchanges h
      kept := fun _ => rfl }

theorem drives_of_changes {g : Gesture} {u : StripUi} (h : g.Changes u)
    (hc : g.control ≠ .saturatorBlend) (hroom : u.queue.items.length < queueCapacity) :
    g.Drives u (g.handle u) := by
  rw [handle_of_changes h hc]
  exact
    { shown := Param.get_set ..
      params := fun _ hq => Param.get_set_of_ne hq ..
      unsent := Param.unsent_set ..
      selectedLoop := Param.selectedLoop_set ..
      grown := fun _ => (Spsc.push_of_not_full (Spsc.full_eq_false.mpr hroom) _).2
      kept := fun hkept => absurd h hkept }

/-- **A gesture does what its control shows** exactly when it leaves the value alone, or it is none on
the blend and finds room in the queue. -/
theorem drives_iff (g : Gesture) (u : StripUi) : g.Drives u (g.handle u) ↔ g.OnCourse u := by
  constructor
  · intro hdrives hchanges
    have hgrown := hdrives.grown hchanges
    have hc : g.control ≠ .saturatorBlend := by
      obtain ⟨control, value⟩ := g
      rintro rfl
      exact items_handle_blend value u hgrown
    refine ⟨hc, ?_⟩
    rw [handle_of_changes hchanges hc] at hgrown
    by_contra hroom
    have hfull : u.queue.full = true :=
      Spsc.full_eq_true.mpr (Nat.le_antisymm u.queue.bounded (Nat.not_lt.mp hroom))
    rw [Spsc.push_of_full hfull] at hgrown
    exact items_ne_concat u.queue _ hgrown
  · intro hcourse
    by_cases hchanges : g.Changes u
    · obtain ⟨hc, hroom⟩ := hcourse hchanges
      exact drives_of_changes hchanges hc hroom
    · exact drives_of_not_changes hchanges

end Gesture

/-! ## A sequence of gestures -/

/-- Every gesture of the sequence does what its control shows. -/
def DrivesAll : StripUi → List Gesture → Prop
  | _, [] => True
  | u, g :: gestures => g.Drives u (g.handle u) ∧ DrivesAll (g.handle u) gestures

def OnCourseAll : StripUi → List Gesture → Prop
  | _, [] => True
  | u, g :: gestures => g.OnCourse u ∧ OnCourseAll (g.handle u) gestures

/-- **Each control drives the parameter it shows** in every sequence of gestures from every state,
exactly when none changes the value of the blend or finds a full queue. -/
theorem drivesAll_iff (u : StripUi) (gestures : List Gesture) :
    DrivesAll u gestures ↔ OnCourseAll u gestures := by
  induction gestures generalizing u with
  | nil => exact Iff.rfl
  | cons g gestures ih => rw [DrivesAll, OnCourseAll, Gesture.drives_iff, ih]

/-! ## The values a user can give -/

/-- A number is between `from` and `to`. -/
def InRange : (t : ParamType) → ℚ × ℚ → t.Value → Prop
  | .uint, (lo, hi), value => lo ≤ value.toNat ∧ (value.toNat : ℚ) ≤ hi
  | .bool, _, _ => True
  | .double, (lo, hi), value => ∃ q, value = .finite q ∧ lo ≤ q ∧ q ≤ hi

/-- A click turns a button over, and a dial, the slider and the bar count stay in their ranges. -/
def Gesture.Possible (g : Gesture) (u : StripUi) : Prop :=
  InRange g.control.shows.type g.control.block.fromTo g.value ∧
    (g.control.shows.type = .bool → g.Changes u)

/-- The blend of a new strip is moved from 10 to 0, and the strip's drive goes there. -/
theorem not_drivesAll_blend :
    Gesture.Possible ⟨.saturatorBlend, Double.finite 0⟩ {} ∧
      ¬ DrivesAll {} [⟨.saturatorBlend, Double.finite 0⟩] := by
  refine ⟨⟨⟨0, rfl, by decide, by decide⟩, fun h => nomatch h⟩, ?_⟩
  rintro ⟨hdrives, -⟩
  exact absurd hdrives.shown (by decide)

/-- The control that shows a parameter. -/
def Control.ofParam : Param → Control
  | .loopLengthInBars => .bars
  | .looperMix => .looperMix
  | .saturatorBypassEnabled => .saturatorBypass
  | .saturatorInGain => .saturatorInGain
  | .saturatorDrive => .saturatorDrive
  | .saturatorBlend => .saturatorBlend
  | .saturatorOutGain => .saturatorOut
  | .compressorBypassEnabled => .compressorBypass
  | .compressorThreshold => .compressorThres
  | .compressorRatio => .compressorRatio
  | .compressorAttack => .compressorAttack
  | .compressorRelease => .compressorRelease
  | .compressorKnee => .compressorKnee
  | .compressorMix => .compressorMix
  | .compressorGain => .compressorGain
  | .equalizerHighGain => .equalizerHigh
  | .equalizerMidGain => .equalizerMid
  | .equalizerLowGain => .equalizerLow
  | .volume => .volumeSlider

theorem Control.ofParam_shows (c : Control) : ofParam c.shows = c := by
  cases c <;> rfl

/-- What the controls show is in their ranges. -/
def AllInRange (s : ChannelStripModel) : Prop :=
  ∀ c : Control, InRange c.shows.type c.block.fromTo (c.shows.get s)

theorem allInRange_default : AllInRange {} := by
  intro c
  cases c <;> first
    | trivial
    | exact ⟨_, rfl, by decide +kernel, by decide +kernel⟩

theorem Gesture.allInRange_handle {g : Gesture} {u : StripUi} (hpossible : g.Possible u)
    (hcourse : g.OnCourse u) (h : AllInRange u.strip) : AllInRange (g.handle u).strip := by
  have hdrives := (g.drives_iff u).mpr hcourse
  intro c
  by_cases hc : c = g.control
  · subst hc
    rw [hdrives.shown]
    exact hpossible.1
  · rw [hdrives.params c.shows fun hshows => hc ?_]
    · exact h c
    · rw [← c.ofParam_shows, hshows, g.control.ofParam_shows]

/-- The strip after a sequence of gestures. -/
def handleAll (u : StripUi) (gestures : List Gesture) : StripUi :=
  gestures.foldl (fun u g => g.handle u) u

def PossibleAll : StripUi → List Gesture → Prop
  | _, [] => True
  | u, g :: gestures => g.Possible u ∧ PossibleAll (g.handle u) gestures

theorem allInRange_handleAll {u : StripUi} {gestures : List Gesture} (hpossible : PossibleAll u gestures)
    (hcourse : OnCourseAll u gestures) (h : AllInRange u.strip) :
    AllInRange (handleAll u gestures).strip := by
  induction gestures generalizing u with
  | nil => exact h
  | cons g gestures ih =>
    exact ih hpossible.2 hcourse.2 (Gesture.allInRange_handle hpossible.1 hcourse.1 h)

end Kpmx.Ui
