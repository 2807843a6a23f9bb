import Kpmx.Model.ChannelStrip
import Kpmx.Model.Messages
import Mathlib.Data.List.Nodup

/-!
# The setters of the channel strip

A setter compares, assigns, pushes one message and emits one signal; the result of the push is
ignored, so a `Call` lists what was handed to `push` and the queue decides. `setParam` is the body
the nineteen control setters share; `SetterCall` is a call to one of them.

* `SetterCall.perform_eq` : every setter is `setParam` at its own parameter;
* `SetterCall.perform_of_eq`, `SetterCall.perform_of_ne` : either nothing happens, or the field becomes
  the argument and one message with the parameter's name and the argument is pushed.
-/

namespace Kpmx

/-- What a call to a strip did: the strip afterwards, the messages handed to its queue's `push` and
the signals emitted, in order. -/
structure Call (μ : Type) where
  strip : ChannelStripModel
  pushed : List μ := []
  emitted : List Signal := []

/-- The control value that carries a parameter of each type. -/
def ParamType.control : (t : ParamType) → t.Value → ControlValue
  | .uint, v => .uint v
  | .bool, v => .bool v
  | .double, v => .double v

/-- The body of the control setters. -/
def setParam (p : Param) (parameterName : String) (changed : Signal) (s : ChannelStripModel)
    (v : p.type.Value) : Call ControlQueueMessage :=
  if p.type.ne (p.get s) v then
    { strip := p.set v s
      pushed := [{ parameterName := parameterName, value := p.type.control v }]
      emitted := [changed] }
  else { strip := s }

namespace ChannelStripModel

def setLoopLengthInBars (s : ChannelStripModel) (loopLengthInBars : UInt32) :=
  setParam .loopLengthInBars "Looper:bars" .loopLengthInBarsChanged s loopLengthInBars

def setLooperMix (s : ChannelStripModel) (looperMix : Double) :=
  setParam .looperMix "Looper:mix" .looperMixChanged s looperMix

def setSaturatorBypassEnabled (s : ChannelStripModel) (saturatorBypassEnabled : Bool) :=
  setParam .saturatorBypassEnabled "Saturator:bypass" .saturatorBypassEnabledChanged s
    saturatorBypassEnabled

def setSaturatorInGain (s : ChannelStripModel) (saturatorInGain : Double) :=
  setParam .saturatorInGain "Saturator:level_in" .saturatorInGainChanged s saturatorInGain

def setSaturatorDrive (s : ChannelStripModel) (saturatorDrive : Double) :=
  setParam .saturatorDrive "Saturator:drive" .saturatorDriveChanged s saturatorDrive

def setSaturatorBlend (s : ChannelStripModel) (saturatorBlend : Double) :=
  setParam .saturatorBlend "Saturator:blend" .saturatorBlendChanged s saturatorBlend

def setSaturatorOutGain (s : ChannelStripModel) (saturatorOutGain : Double) :=
  setParam .saturatorOutGain "Saturator:level_out" .saturatorOutGainChanged s saturatorOutGain

def setCompressorBypassEnabled (s : ChannelStripModel) (compressorBypassEnabled : Bool) :=
  setParam .compressorBypassEnabled "Compressor:bypass" .compressorBypassEnabledChanged s
    compressorBypassEnabled

def setCompressorThreshold (s : ChannelStripModel) (compressorThreshold : Double) :=
  setParam .compressorThreshold "Compressor:threshold" .compressorThresholdChanged s
    compressorThreshold

def setCompressorRatio (s : ChannelStripModel) (compressorRatio : Double) :=
  setParam .compressorRatio "Compressor:ratio" .compressorRatioChanged s compressorRatio

def setCompressorAttack (s : ChannelStripModel) (compressorAttack : Double) :=
  setParam .compressorAttack "Compressor:attack" .compressorAttackChanged s compressorAttack

def setCompressorRelease (s : ChannelStripModel) (compressorRelease : Double) :=
  setParam .compressorRelease "Compressor:release" .compressorReleaseChanged s compressorRelease

def setCompressorKnee (s : ChannelStripModel) (compressorKnee : Double) :=
  setParam .compressorKnee "Compressor:knee" .compressorKneeChanged s compressorKnee

def setCompressorMix (s : ChannelStripModel) (compressorMix : Double) :=
  setParam .compressorMix "Compressor:mix" .compressorMixChanged s compressorMix

def setCompressorGain (s : ChannelStripModel) (compressorGain : Double) :=
  setParam .compressorGain "Compressor:makeup" .compressorGainChanged s compressorGain

def setEqualizerHighGain (s : ChannelStripModel) (equalizerHighGain : Double) :=
  setParam .equalizerHighGain "Equalizer:high" .equalizerHighGainChanged s equalizerHighGain

def setEqualizerMidGain (s : ChannelStripModel) (equalizerMidGain : Double) :=
  setParam .equalizerMidGain "Equalizer:mid" .equalizerMidGainChanged s equalizerMidGain

def setEqualizerLowGain (s : ChannelStripModel) (equalizerLowGain : Double) :=
  setParam .equalizerLowGain "Equalizer:low" .equalizerLowGainChanged s equalizerLowGain

def setVolume (s : ChannelStripModel) (volume : Double) :=
  setParam .volume "Equalizer:master" .volumeChanged s volume

/-! ## Routing -/

/-- The `QVariant` overload, which QML calls. -/
def setTargetObject (s : ChannelStripModel) (targetObject : QVariant) :
    Call WireplumberMetadataUpdate :=
  match targetObject, s.objectId with
  | some newValue, some id =>
    if some newValue ≠ s.targetObject then
      { strip := { s with targetObject := some newValue }
        pushed := [{ id := id, key := "target.object", value := some newValue }]
        emitted := [.targetObjectChanged] }
    else { strip := s }
  | none, some id =>
    if s.targetObject.isSome then
      { strip := { s with targetObject := none }
        pushed := [{ id := id, key := "target.object", value := none }]
        emitted := [.targetObjectChanged] }
    else { strip := s }
  | _, none => { strip := s }

/-- The `std::optional<std::string>` overload, which the models call. -/
def setTargetObjectOptional (s : ChannelStripModel) (targetObject : Option String) :
    Call WireplumberMetadataUpdate :=
  if s.targetObject ≠ targetObject then
    { strip := { s with targetObject := targetObject }, emitted := [.targetObjectChanged] }
  else { strip := s }

/-- The `std::optional<int>` overload. -/
def setObjectId (s : ChannelStripModel) (objectId : Option Int32) : Call WireplumberMetadataUpdate :=
  if objectId ≠ s.objectId then
    { strip := { s with objectId := objectId }, emitted := [.objectIdChanged] }
  else { strip := s }

@[simp] theorem setTargetObjectOptional_strip (s : ChannelStripModel) (targetObject : Option String) :
    (s.setTargetObjectOptional targetObject).strip = { s with targetObject := targetObject } := by
  unfold setTargetObjectOptional
  split
  · rfl
  · next h => rw [← Decidable.not_not.mp h]

@[simp] theorem setObjectId_strip (s : ChannelStripModel) (objectId : Option Int32) :
    (s.setObjectId objectId).strip = { s with objectId := objectId } := by
  unfold setObjectId
  split
  · rfl
  · next h => rw [Decidable.not_not.mp h]

/-- Called on a strip with an object id, the user's overload leaves the requested target. -/
theorem setTargetObject_strip {s : ChannelStripModel} {id : Int32} (h : s.objectId = some id)
    (targetObject : QVariant) :
    (s.setTargetObject targetObject).strip = { s with targetObject := targetObject } := by
  unfold setTargetObject
  split
  · split
    · rfl
    · next heq => rw [Decidable.not_not.mp heq]
  · split
    · rfl
    · next hnone => rw [← Option.not_isSome_iff_eq_none.mp hnone]
  · next hnone => rw [h] at hnone; cases hnone

theorem setTargetObject_objectId (s : ChannelStripModel) (targetObject : QVariant) :
    (s.setTargetObject targetObject).strip.objectId = s.objectId := by
  cases h : s.objectId with
  | some id => rw [setTargetObject_strip h, ← h]
  | none => cases targetObject <;> simp [setTargetObject, h]

theorem setTargetObject_pushed (s : ChannelStripModel) (targetObject : QVariant) :
    (s.setTargetObject targetObject).pushed = [] ∨
      ∃ update, (s.setTargetObject targetObject).pushed = [update] := by
  unfold setTargetObject
  split
  · split
    · exact .inr ⟨_, rfl⟩
    · exact .inl rfl
  · split
    · exact .inr ⟨_, rfl⟩
    · exact .inl rfl
  · exact .inl rfl

theorem mem_setTargetObject_pushed {s : ChannelStripModel} {targetObject : QVariant}
    {update : WireplumberMetadataUpdate} (h : update ∈ (s.setTargetObject targetObject).pushed) :
    s.objectId = some update.id ∧ update.key = "target.object" ∧ update.value = targetObject := by
  unfold setTargetObject at h
  cases targetObject with
  | some newValue =>
    cases hid : s.objectId with
    | some id =>
      simp only [hid] at h
      split at h
      · obtain rfl := List.mem_singleton.mp h
        exact ⟨rfl, rfl, rfl⟩
      · cases h
    | none => simp [hid] at h
  | none =>
    cases hid : s.objectId with
    | some id =>
      simp only [hid] at h
      split at h
      · obtain rfl := List.mem_singleton.mp h
        exact ⟨rfl, rfl, rfl⟩
      · cases h
    | none => simp [hid] at h

theorem setTargetObject_pushed_eq (s : ChannelStripModel) (targetObject : QVariant) :
    (s.setTargetObject targetObject).pushed =
      if (s.setTargetObject targetObject).strip.targetObject ≠ s.targetObject then
        (s.objectId.map fun id => WireplumberMetadataUpdate.mk id "target.object"
          (s.setTargetObject targetObject).strip.targetObject).toList
      else [] := by
  cases hid : s.objectId with
  | none => cases targetObject <;> simp [setTargetObject, hid]
  | some id =>
    rw [setTargetObject_strip hid]
    simp only [setTargetObject, hid]
    cases targetObject with
    | some newValue =>
      simp only
      split <;> rfl
    | none => cases s.targetObject <;> rfl

/-! ## Setters that send nothing -/

def setSelectedLoop (s : ChannelStripModel) (selectedLoop : UInt32) : Call ControlQueueMessage :=
  if s.selectedLoop ≠ selectedLoop then
    { strip := { s with selectedLoop := selectedLoop }, emitted := [.selectedLoopChanged] }
  else { strip := s }

def setLooperPlaying (s : ChannelStripModel) (looperPlaying : Bool) : Call ControlQueueMessage :=
  if s.looperPlaying ≠ looperPlaying then
    { strip := { s with looperPlaying := looperPlaying }, emitted := [.looperPlayingChanged] }
  else { strip := s }

def setLooperRecording (s : ChannelStripModel) (looperRecording : Bool) : Call ControlQueueMessage :=
  if s.looperRecording ≠ looperRecording then
    { strip := { s with looperRecording := looperRecording }, emitted := [.looperRecordingChanged] }
  else { strip := s }

def setPan (s : ChannelStripModel) (pan : Double) : Call ControlQueueMessage :=
  if Double.ne s.pan pan then { strip := { s with pan := pan }, emitted := [.panChanged] }
  else { strip := s }

def setName (s : ChannelStripModel) (name : String) : Call ControlQueueMessage :=
  if s.name ≠ name then { strip := { s with name := name }, emitted := [.nameChanged] }
  else { strip := s }

/-- The `QVariant` overload of `setObjectId`, which QML calls; `some` stands for a valid value that
converts to `int`. It compares nothing. -/
def setObjectIdVariant (s : ChannelStripModel) (objectId : Option Int32) :
    Call WireplumberMetadataUpdate :=
  match objectId with
  | some id => { strip := { s with objectId := some id }, emitted := [.objectIdChanged] }
  | none => { strip := s }

end ChannelStripModel

/-- A call to one of the setters that keep their value in the strip. -/
inductive LocalCall where
  | setSelectedLoop (selectedLoop : UInt32)
  | setLooperPlaying (looperPlaying : Bool)
  | setLooperRecording (looperRecording : Bool)
  | setPan (pan : Double)
  deriving DecidableEq

def LocalCall.perform : LocalCall → ChannelStripModel → Call ControlQueueMessage
  | .setSelectedLoop v, s => s.setSelectedLoop v
  | .setLooperPlaying v, s => s.setLooperPlaying v
  | .setLooperRecording v, s => s.setLooperRecording v
  | .setPan v, s => s.setPan v

/-! ## Calls of the control setters -/

/-- A call to one of the setters that push a control message. -/
inductive SetterCall where
  | setLoopLengthInBars (loopLengthInBars : UInt32)
  | setLooperMix (looperMix : Double)
  | setSaturatorBypassEnabled (saturatorBypassEnabled : Bool)
  | setSaturatorInGain (saturatorInGain : Double)
  | setSaturatorDrive (saturatorDrive : Double)
  | setSaturatorBlend (saturatorBlend : Double)
  | setSaturatorOutGain (saturatorOutGain : Double)
  | setCompressorBypassEnabled (compressorBypassEnabled : Bool)
  | setCompressorThreshold (compressorThreshold : Double)
  | setCompressorRatio (compressorRatio : Double)
  | setCompressorAttack (compressorAttack : Double)
  | setCompressorRelease (compressorRelease : Double)
  | setCompressorKnee (compressorKnee : Double)
  | setCompressorMix (compressorMix : Double)
  | setCompressorGain (compressorGain : Double)
  | setEqualizerHighGain (equalizerHighGain : Double)
  | setEqualizerMidGain (equalizerMidGain : Double)
  | setEqualizerLowGain (equalizerLowGain : Double)
  | setVolume (volume : Double)
  deriving DecidableEq

namespace SetterCall

def perform : SetterCall → ChannelStripModel → Call ControlQueueMessage
  | .setLoopLengthInBars v, s => s.setLoopLengthInBars v
  | .setLooperMix v, s => s.setLooperMix v
  | .setSaturatorBypassEnabled v, s => s.setSaturatorBypassEnabled v
  | .setSaturatorInGain v, s => s.setSaturatorInGain v
  | .setSaturatorDrive v, s => s.setSaturatorDrive v
  | .setSaturatorBlend v, s => s.setSaturatorBlend v
  | .setSaturatorOutGain v, s => s.setSaturatorOutGain v
  | .setCompressorBypassEnabled v, s => s.setCompressorBypassEnabled v
  | .setCompressorThreshold v, s => s.setCompressorThreshold v
  | .setCompressorRatio v, s => s.setCompressorRatio v
  | .setCompressorAttack v, s => s.setCompressorAttack v
  | .setCompressorRelease v, s => s.setCompressorRelease v
  | .setCompressorKnee v, s => s.setCompressorKnee v
  | .setCompressorMix v, s => s.setCompressorMix v
  | .setCompressorGain v, s => s.setCompressorGain v
  | .setEqualizerHighGain v, s => s.setEqualizerHighGain v
  | .setEqualizerMidGain v, s => s.setEqualizerMidGain v
  | .setEqualizerLowGain v, s => s.setEqualizerLowGain v
  | .setVolume v, s => s.setVolume v

/-- The parameter a call sets, with its argument. -/
def target : SetterCall → (p : Param) × p.type.Value
  | .setLoopLengthInBars v => ⟨.loopLengthInBars, v⟩
  | .setLooperMix v => ⟨.looperMix, v⟩
  | .setSaturatorBypassEnabled v => ⟨.saturatorBypassEnabled, v⟩
  | .setSaturatorInGain v => ⟨.saturatorInGain, v⟩
  | .setSaturatorDrive v => ⟨.saturatorDrive, v⟩
  | .setSaturatorBlend v => ⟨.saturatorBlend, v⟩
  | .setSaturatorOutGain v => ⟨.saturatorOutGain, v⟩
  | .setCompressorBypassEnabled v => ⟨.compressorBypassEnabled, v⟩
  | .setCompressorThreshold v => ⟨.compressorThreshold, v⟩
  | .setCompressorRatio v => ⟨.compressorRatio, v⟩
  | .setCompressorAttack v => ⟨.compressorAttack, v⟩
  | .setCompressorRelease v => ⟨.compressorRelease, v⟩
  | .setCompressorKnee v => ⟨.compressorKnee, v⟩
  | .setCompressorMix v => ⟨.compressorMix, v⟩
  | .setCompressorGain v => ⟨.compressorGain, v⟩
  | .setEqualizerHighGain v => ⟨.equalizerHighGain, v⟩
  | .setEqualizerMidGain v => ⟨.equalizerMidGain, v⟩
  | .setEqualizerLowGain v => ⟨.equalizerLowGain, v⟩
  | .setVolume v => ⟨.volume, v⟩

abbrev param (c : SetterCall) : Param := c.target.1

abbrev value (c : SetterCall) : c.param.type.Value := c.target.2

end SetterCall

namespace Param

/-- The name a parameter's control messages carry. -/
def parameterName : Param → String
  | .loopLengthInBars => "Looper:bars"
  | .looperMix => "Looper:mix"
  | .saturatorBypassEnabled => "Saturator:bypass"
  | .saturatorInGain => "Saturator:level_in"
  | .saturatorDrive => "Saturator:drive"
  | .saturatorBlend => "Saturator:blend"
  | .saturatorOutGain => "Saturator:level_out"
  | .compressorBypassEnabled => "Compressor:bypass"
  | .compressorThreshold => "Compressor:threshold"
  | .compressorRatio => "Compressor:ratio"
  | .compressorAttack => "Compressor:attack"
  | .compressorRelease => "Compressor:release"
  | .compressorKnee => "Compressor:knee"
  | .compressorMix => "Compressor:mix"
  | .compressorGain => "Compressor:makeup"
  | .equalizerHighGain => "Equalizer:high"
  | .equalizerMidGain => "Equalizer:mid"
  | .equalizerLowGain => "Equalizer:low"
  | .volume => "Equalizer:master"

/-- The signal that announces a parameter's change. -/
def changed : Param → Signal
  | .loopLengthInBars => .loopLengthInBarsChanged
  | .looperMix => .looperMixChanged
  | .saturatorBypassEnabled => .saturatorBypassEnabledChanged
  | .saturatorInGain => .saturatorInGainChanged
  | .saturatorDrive => .saturatorDriveChanged
  | .saturatorBlend => .saturatorBlendChanged
  | .saturatorOutGain => .saturatorOutGainChanged
  | .compressorBypassEnabled => .compressorBypassEnabledChanged
  | .compressorThreshold => .compressorThresholdChanged
  | .compressorRatio => .compressorRatioChanged
  | .compressorAttack => .compressorAttackChanged
  | .compressorRelease => .compressorReleaseChanged
  | .compressorKnee => .compressorKneeChanged
  | .compressorMix => .compressorMixChanged
  | .compressorGain => .compressorGainChanged
  | .equalizerHighGain => .equalizerHighGainChanged
  | .equalizerMidGain => .equalizerMidGainChanged
  | .equalizerLowGain => .equalizerLowGainChanged
  | .volume => .volumeChanged

theorem nodup_parameterName : (all.map parameterName).Nodup := by decide

theorem parameterName_injective {p q : Param} (h : p.parameterName = q.parameterName) : p = q :=
  List.inj_on_of_nodup_map nodup_parameterName p.mem_all q.mem_all h

/-- The message that tells the engine a parameter's value. -/
def message (p : Param) (v : p.type.Value) : ControlQueueMessage where
  parameterName := p.parameterName
  value := p.type.control v

end Param

/-- Every control setter is `setParam` at its own parameter, name and signal. -/
theorem SetterCall.perform_eq (c : SetterCall) (s : ChannelStripModel) :
    c.perform s = setParam c.param c.param.parameterName c.param.changed s c.value := by
  cases c <;> rfl

theorem SetterCall.perform_of_eq {c : SetterCall} {s : ChannelStripModel}
    (h : c.param.type.ne (c.param.get s) c.value = false) : c.perform s = { strip := s } := by
  rw [SetterCall.perform_eq, setParam, if_neg (by rw [h]; decide)]

theorem SetterCall.perform_of_ne {c : SetterCall} {s : ChannelStripModel}
    (h : c.param.type.ne (c.param.get s) c.value = true) :
    c.perform s = { strip := c.param.set c.value s
                    pushed := [c.param.message c.value]
                    emitted := [c.param.changed] } := by
  rw [SetterCall.perform_eq, setParam, if_pos h]
  rfl

end Kpmx
