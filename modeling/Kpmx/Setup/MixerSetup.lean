import Mathlib.Data.Int.Notation

/-!
# The setup of a mixer

`mixer_setup` lists the channels of each layer with the prefixes of their nodes' names.

* `toList_format02_of_lt` : a number below 100 is written with its two digits.
-/

namespace Kpmx.Setup

structure InputChannelSetup where
  name : String := ""
  connectToGroupIndex : Option Nat := none
  channelIndex : Nat := 0
  pipewireNodeNamePerfix : String := ""
  deriving DecidableEq

structure GroupChannelSetup where
  name : String := ""
  channelIndex : Nat := 0
  pipewireNodeNamePerfix : String := ""
  deriving DecidableEq

structure LayerChannelSetup where
  name : String := ""
  pipewireNodeNamePrefix : String := ""
  deriving DecidableEq

structure LayerSetup where
  inputChannels : List InputChannelSetup := []
  groupChannels : List GroupChannelSetup := []
  layerChannel : LayerChannelSetup := {}
  deriving DecidableEq

structure OutputChannelSetup where
  name : String := ""
  channelIndex : Nat := 0
  pipewireNodeNamePerfix : String := ""
  deriving DecidableEq

structure MixerSetup where
  layers : List LayerSetup := []
  outputChannels : List OutputChannelSetup := []
  deriving DecidableEq

/-- The name and the prefix of each input channel. -/
def LayerSetup.inputs (l : LayerSetup) : List (String × String) :=
  l.inputChannels.map fun c => (c.name, c.pipewireNodeNamePerfix)

/-- The name and the prefix of each group channel. -/
def LayerSetup.groups (l : LayerSetup) : List (String × String) :=
  l.groupChannels.map fun c => (c.name, c.pipewireNodeNamePerfix)

def LayerSetup.nodePrefixes (l : LayerSetup) : List String :=
  l.inputs.map Prod.snd ++ l.groups.map Prod.snd ++ [l.layerChannel.pipewireNodeNamePrefix]

/-- The prefixes of all channels of the layers, in order. -/
def MixerSetup.nodePrefixes (setup : MixerSetup) : List String :=
  setup.layers.flatMap LayerSetup.nodePrefixes

/-! ## The default setup -/

/-- The format `{:02}`: at least two digits. -/
def format02 (i : Nat) : String := if i < 10 then "0" ++ toString i else toString i

def groupNames : List String := ["Drums", "Bass", "Melody", "Atmos"]

/-- The input channels of a layer; the right layer numbers them from 16. -/
def defaultInputChannels (numberOfInputChannels firstIndex : Nat) (layer : String) :
    List InputChannelSetup :=
  (List.range numberOfInputChannels).map fun i =>
    { channelIndex := i + firstIndex
      name := "Channel " ++ toString (i + 1)
      connectToGroupIndex := some (i / 4)
      pipewireNodeNamePerfix := "pmx-input-" ++ format02 i ++ "-" ++ layer }

/-- The group channels of a layer; reading a name past the end of `group_names` is undefined. -/
def defaultGroupChannels (numberOfGroupsChannels : Nat) (layer : String) :
    Option (List GroupChannelSetup) :=
  if numberOfGroupsChannels ≤ groupNames.length then
    some ((groupNames.take numberOfGroupsChannels).mapIdx fun i name =>
      { channelIndex := i
        name := name
        pipewireNodeNamePerfix := "pmx-group-" ++ format02 i ++ "-" ++ layer })
  else none

/-- A layer of the default setup, which is written out for the left and for the right one. -/
def defaultLayer (name layer : String) (firstIndex numberOfInputChannels numberOfGroupsChannels : Nat) :
    Option LayerSetup :=
  (defaultGroupChannels numberOfGroupsChannels layer).map fun groupChannels =>
    { layerChannel := { name := name, pipewireNodeNamePrefix := "pmx-layer-" ++ layer }
      inputChannels := defaultInputChannels numberOfInputChannels firstIndex layer
      groupChannels := groupChannels }

def defaultLayers (createBothLayers : Bool) (numberOfInputChannels numberOfGroupsChannels : Nat) :
    Option (List LayerSetup) :=
  (defaultLayer "Left Layer" "a" 0 numberOfInputChannels numberOfGroupsChannels).bind fun left =>
    if createBothLayers then
      (defaultLayer "Right Layer" "b" 16 numberOfInputChannels numberOfGroupsChannels).map
        fun right => [left, right]
    else some [left]

/-- `none` where the behaviour is undefined. -/
def createDefaultMixerSetup (createBothLayers : Bool)
    (numberOfInputChannels numberOfGroupsChannels : Nat) : Option MixerSetup :=
  (defaultLayers createBothLayers numberOfInputChannels numberOfGroupsChannels).map fun layers =>
    { layers := layers
      outputChannels :=
        [{ channelIndex := 0, name := "Main", pipewireNodeNamePerfix := "pmx-output-00" }] }

example : (createDefaultMixerSetup true 2 1).map (fun setup => setup.layers.map fun layer =>
    layer.inputChannels.map (·.pipewireNodeNamePerfix)) =
      some [["pmx-input-00-a", "pmx-input-01-a"], ["pmx-input-00-b", "pmx-input-01-b"]] := by decide

/-! ## The two-digit format -/

theorem toList_format02_of_lt {i : Nat} (h : i < 100) :
    (format02 i).toList = [Nat.digitChar (i / 10), Nat.digitChar (i % 10)] := by
  unfold format02
  change (if i < 10 then "0" ++ i.repr else i.repr).toList = _
  split
  · next hi =>
    rw [String.toList_append, Nat.repr_of_lt hi, Nat.div_eq_of_lt hi, Nat.mod_eq_of_lt hi,
      String.toList_singleton]
    rfl
  · next hi =>
    rw [Nat.toList_repr, Nat.toDigits_of_base_le (by omega) (by omega),
      Nat.toDigits_of_lt_base (by omega)]
    rfl

end Kpmx.Setup
