import Kpmx.Model.Double

/-!
# The channel strip

`ChannelStripModel` holds what one strip shows. `Param` enumerates the nineteen fields whose setters
send a control message, each with its C++ type; `Param.get` and `Param.set` read and assign the field,
so that a family of setters or decoder branches is one definition over `Param`.

* `Param.get_set`, `Param.get_set_of_ne` : an assignment changes its own field and no other parameter;
* `Param.unsent_set` : nor any field that no setter sends;
* `ChannelStripModel.ext_params` : the parameters and the other fields determine the strip.
-/

namespace Kpmx

/-- The compressor's knee starts at the double nearest to 2.82843. -/
structure ChannelStripModel where
  targetObject : Option String := none
  objectId : Option Int32 := none
  selectedLoop : UInt32 := 1
  loopLengthInBars : UInt32 := 2
  looperPlaying : Bool := false
  looperRecording : Bool := false
  looperMix : Double := .finite 50
  saturatorBypassEnabled : Bool := false
  saturatorInGain : Double := .finite 1
  saturatorDrive : Double := .finite 5
  saturatorBlend : Double := .finite 10
  saturatorOutGain : Double := .finite 1
  compressorBypassEnabled : Bool := false
  compressorThreshold : Double := .finite (1 / 8)
  compressorRatio : Double := .finite 2
  compressorAttack : Double := .finite 20
  compressorRelease : Double := .finite 250
  compressorKnee : Double := .finite (3184529073510883 / 1125899906842624)
  compressorMix : Double := .finite 1
  compressorGain : Double := .finite 1
  equalizerHighGain : Double := .finite 0
  equalizerMidGain : Double := .finite 0
  equalizerLowGain : Double := .finite 0
  name : String := ""
  volume : Double := .finite 0
  pan : Double := .finite 0
  deriving DecidableEq

/-- The change signals of `ChannelStripModel`. -/
inductive Signal where
  | selectedLoopChanged
  | loopLengthInBarsChanged
  | looperPlayingChanged
  | looperRecordingChanged
  | looperMixChanged
  | saturatorBypassEnabledChanged
  | saturatorInGainChanged
  | saturatorDriveChanged
  | saturatorBlendChanged
  | saturatorOutGainChanged
  | compressorBypassEnabledChanged
  | compressorThresholdChanged
  | compressorAttackChanged
  | compressorRatioChanged
  | compressorReleaseChanged
  | compressorKneeChanged
  | compressorMixChanged
  | compressorGainChanged
  | equalizerHighGainChanged
  | equalizerMidGainChanged
  | equalizerLowGainChanged
  | nameChanged
  | volumeChanged
  | panChanged
  | targetObjectChanged
  | objectIdChanged
  deriving DecidableEq

/-! ## Typed parameters -/

inductive ParamType where
  | uint
  | bool
  | double
  deriving DecidableEq

def ParamType.Value : ParamType → Type
  | .uint => UInt32
  | .bool => Bool
  | .double => Double

instance : (t : ParamType) → DecidableEq t.Value
  | .uint => inferInstanceAs (DecidableEq UInt32)
  | .bool => inferInstanceAs (DecidableEq Bool)
  | .double => inferInstanceAs (DecidableEq Double)

/-- C++ `!=` at each type. -/
def ParamType.ne : (t : ParamType) → t.Value → t.Value → Bool
  | .uint, a, b => decide (a ≠ b)
  | .bool, a, b => decide (a ≠ b)
  | .double, a, b => Double.ne a b

theorem ParamType.eq_of_ne_eq_false {t : ParamType} {a b : t.Value} (h : t.ne a b = false) : a = b := by
  cases t with
  | uint => exact Decidable.not_not.mp (of_decide_eq_false h)
  | bool => exact Decidable.not_not.mp (of_decide_eq_false h)
  | double => exact Double.eq_of_ne_eq_false h

/-- The fields whose setters push a control message. -/
inductive Param where
  | loopLengthInBars
  | looperMix
  | saturatorBypassEnabled
  | saturatorInGain
  | saturatorDrive
  | saturatorBlend
  | saturatorOutGain
  | compressorBypassEnabled
  | compressorThreshold
  | compressorRatio
  | compressorAttack
  | compressorRelease
  | compressorKnee
  | compressorMix
  | compressorGain
  | equalizerHighGain
  | equalizerMidGain
  | equalizerLowGain
  | volume
  deriving DecidableEq

namespace Param

def type : Param → ParamType
  | .loopLengthInBars => .uint
  | .saturatorBypassEnabled => .bool
  | .compressorBypassEnabled => .bool
  | _ => .double

def get : (p : Param) → ChannelStripModel → p.type.Value
  | .loopLengthInBars, s => s.loopLengthInBars
  | .looperMix, s => s.looperMix
  | .saturatorBypassEnabled, s => s.saturatorBypassEnabled
  | .saturatorInGain, s => s.saturatorInGain
  | .saturatorDrive, s => s.saturatorDrive
  | .saturatorBlend, s => s.saturatorBlend
  | .saturatorOutGain, s => s.saturatorOutGain
  | .compressorBypassEnabled, s => s.compressorBypassEnabled
  | .compressorThreshold, s => s.compressorThreshold
  | .compressorRatio, s => s.compressorRatio
  | .compressorAttack, s => s.compressorAttack
  | .compressorRelease, s => s.compressorRelease
  | .compressorKnee, s => s.compressorKnee
  | .compressorMix, s => s.compressorMix
  | .compressorGain, s => s.compressorGain
  | .equalizerHighGain, s => s.equalizerHighGain
  | .equalizerMidGain, s => s.equalizerMidGain
  | .equalizerLowGain, s => s.equalizerLowGain
  | .volume, s => s.volume

def set : (p : Param) → p.type.Value → ChannelStripModel → ChannelStripModel
  | .loopLengthInBars, v, s => { s with loopLengthInBars := v }
  | .looperMix, v, s => { s with looperMix := v }
  | .saturatorBypassEnabled, v, s => { s with saturatorBypassEnabled := v }
  | .saturatorInGain, v, s => { s with saturatorInGain := v }
  | .saturatorDrive, v, s => { s with saturatorDrive := v }
  | .saturatorBlend, v, s => { s with saturatorBlend := v }
  | .saturatorOutGain, v, s => { s with saturatorOutGain := v }
  | .compressorBypassEnabled, v, s => { s with compressorBypassEnabled := v }
  | .compressorThreshold, v, s => { s with compressorThreshold := v }
  | .compressorRatio, v, s => { s with compressorRatio := v }
  | .compressorAttack, v, s => { s with compressorAttack := v }
  | .compressorRelease, v, s => { s with compressorRelease := v }
  | .compressorKnee, v, s => { s with compressorKnee := v }
  | .compressorMix, v, s => { s with compressorMix := v }
  | .compressorGain, v, s => { s with compressorGain := v }
  | .equalizerHighGain, v, s => { s with equalizerHighGain := v }
  | .equalizerMidGain, v, s => { s with equalizerMidGain := v }
  | .equalizerLowGain, v, s => { s with equalizerLowGain := v }
  | .volume, v, s => { s with volume := v }

def all : List Param :=
  [.loopLengthInBars, .looperMix, .saturatorBypassEnabled, .saturatorInGain, .saturatorDrive,
    .saturatorBlend, .saturatorOutGain, .compressorBypassEnabled, .compressorThreshold,
    .compressorRatio, .compressorAttack, .compressorRelease, .compressorKnee, .compressorMix,
    .compressorGain, .equalizerHighGain, .equalizerMidGain, .equalizerLowGain, .volume]

theorem mem_all (p : Param) : p ∈ all := by
  cases p <;> decide

@[simp] theorem get_set (p : Param) (v : p.type.Value) (s : ChannelStripModel) :
    p.get (p.set v s) = v := by
  cases p <;> rfl

theorem get_set_of_ne {p q : Param} (h : q ≠ p) (v : p.type.Value) (s : ChannelStripModel) :
    q.get (p.set v s) = q.get s := by
  cases p <;> cases q <;> first | rfl | exact absurd rfl h

end Param

/-! ## The other fields -/

/-- The fields that are neither a parameter nor the selected loop. -/
structure UnsentFields where
  targetObject : Option String
  objectId : Option Int32
  looperPlaying : Bool
  looperRecording : Bool
  name : String
  pan : Double

def ChannelStripModel.unsent (s : ChannelStripModel) : UnsentFields where
  targetObject := s.targetObject
  objectId := s.objectId
  looperPlaying := s.looperPlaying
  looperRecording := s.looperRecording
  name := s.name
  pan := s.pan

@[simp] theorem Param.unsent_set (p : Param) (v : p.type.Value) (s : ChannelStripModel) :
    (p.set v s).unsent = s.unsent := by
  cases p <;> rfl

@[simp] theorem Param.selectedLoop_set (p : Param) (v : p.type.Value) (s : ChannelStripModel) :
    (p.set v s).selectedLoop = s.selectedLoop := by
  cases p <;> rfl

theorem ChannelStripModel.ext_params {s t : ChannelStripModel} (hp : ∀ p : Param, p.get s = p.get t)
    (hu : s.unsent = t.unsent) (hl : s.selectedLoop = t.selectedLoop) : s = t := by
  have h1 := hp .loopLengthInBars
  have h2 := hp .looperMix
  have h3 := hp .saturatorBypassEnabled
  have h4 := hp .saturatorInGain
  have h5 := hp .saturatorDrive
  have h6 := hp .saturatorBlend
  have h7 := hp .saturatorOutGain
  have h8 := hp .compressorBypassEnabled
  have h9 := hp .compressorThreshold
  have h10 := hp .compressorRatio
  have h11 := hp .compressorAttack
  have h12 := hp .compressorRelease
  have h13 := hp .compressorKnee
  have h14 := hp .compressorMix
  have h15 := hp .compressorGain
  have h16 := hp .equalizerHighGain
  have h17 := hp .equalizerMidGain
  have h18 := hp .equalizerLowGain
  have h19 := hp .volume
  simp only [ChannelStripModel.unsent, UnsentFields.mk.injEq] at hu
  cases s
  cases t
  simp only [Param.get] at *
  simp_all

/-- The strip but for its selected loop. -/
def ChannelStripModel.forgetLoop (s : ChannelStripModel) : ChannelStripModel :=
  { s with selectedLoop := 0 }

theorem Param.get_forgetLoop (p : Param) (s : ChannelStripModel) : p.get s.forgetLoop = p.get s := by
  cases p <;> rfl

theorem ChannelStripModel.forgetLoop_ext {s t : ChannelStripModel}
    (hp : ∀ p : Param, p.get s = p.get t) (hu : s.unsent = t.unsent) :
    s.forgetLoop = t.forgetLoop :=
  ext_params (fun p => by rw [p.get_forgetLoop, p.get_forgetLoop, hp p]) hu rfl

end Kpmx
