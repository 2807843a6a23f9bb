import Kpmx.Model.Decode

/-!
# A list of channel strips

`ChannelStripListModel` and its updates. An index past the end is ignored by all three.
-/

namespace Kpmx

structure ChannelStripListModel where
  channelStrips : List ChannelStripModel := []
  deriving DecidableEq

namespace ChannelStripListModel

/-- Replace the strip at an index; past the end nothing changes. -/
def modifyStrip (l : ChannelStripListModel) (index : Nat)
    (f : ChannelStripModel → ChannelStripModel) : ChannelStripListModel where
  channelStrips := l.channelStrips.modify index f

/-- Applying a pod that is not there, or is no object, is undefined. -/
def applyUpdate [CastUndefined] (l : ChannelStripListModel) (index : Nat)
    (controlPod : Option SpaPod) : Option ChannelStripListModel :=
  match l.channelStrips[index]? with
  | some strip => controlPod.bind fun pod => (strip.apply pod).map fun result =>
      { channelStrips := l.channelStrips.set index result.1 }
  | none => some l

def updateTargetObject (l : ChannelStripListModel) (index : Nat) (targetObject : Option String) :
    ChannelStripListModel :=
  if l.channelStrips.length > index then
    l.modifyStrip index fun strip => (strip.setTargetObjectOptional targetObject).strip
  else l

def updateFromWireplumberNode (l : ChannelStripListModel) (channelIndex : Nat)
    (node : WireplumberNode) : ChannelStripListModel :=
  if l.channelStrips.length > channelIndex then
    l.modifyStrip channelIndex fun strip =>
      ((strip.setObjectId node.id).strip.setTargetObjectOptional node.targetObject).strip
  else l

theorem modifyStrip_of_length_le {l : ChannelStripListModel} {index : Nat}
    (h : l.channelStrips.length ≤ index) (f : ChannelStripModel → ChannelStripModel) :
    l.modifyStrip index f = l := by
  rw [modifyStrip, List.modify_eq_self h]

theorem modifyStrip_id (l : ChannelStripListModel) (index : Nat) : l.modifyStrip index id = l := by
  rw [modifyStrip, List.modify_id]

theorem modifyStrip_modifyStrip (l : ChannelStripListModel) (index : Nat)
    (f g : ChannelStripModel → ChannelStripModel) :
    (l.modifyStrip index f).modifyStrip index g = l.modifyStrip index fun strip => g (f strip) := by
  simp only [modifyStrip, List.modify_modify_eq]
  rfl

theorem map_modifyStrip_congr {α : Type} {f g : ChannelStripModel → ChannelStripModel}
    {observe : ChannelStripModel → α} (l : ChannelStripListModel) (index : Nat)
    (h : ∀ strip, observe (f strip) = observe (g strip)) :
    (l.modifyStrip index f).channelStrips.map observe =
      (l.modifyStrip index g).channelStrips.map observe := by
  apply List.ext_getElem?
  intro j
  simp only [modifyStrip, List.getElem?_map, List.getElem?_modify]
  by_cases hj : index = j
  · cases l.channelStrips[j]? <;> simp [hj, h]
  · cases l.channelStrips[j]? <;> simp [hj]

theorem updateTargetObject_eq (l : ChannelStripListModel) (index : Nat)
    (targetObject : Option String) : l.updateTargetObject index targetObject =
      l.modifyStrip index fun strip => { strip with targetObject := targetObject } := by
  unfold updateTargetObject
  split
  · simp only [ChannelStripModel.setTargetObjectOptional_strip]
  · next h => rw [modifyStrip_of_length_le (not_lt.mp h)]

theorem updateFromWireplumberNode_eq (l : ChannelStripListModel) (channelIndex : Nat)
    (node : WireplumberNode) : l.updateFromWireplumberNode channelIndex node =
      l.modifyStrip channelIndex fun strip =>
        { strip with objectId := node.id, targetObject := node.targetObject } := by
  unfold updateFromWireplumberNode
  split
  · simp only [ChannelStripModel.setTargetObjectOptional_strip, ChannelStripModel.setObjectId_strip]
  · next h => rw [modifyStrip_of_length_le (not_lt.mp h)]

theorem applyUpdate_of_isObject [CastUndefined] (l : ChannelStripListModel) (index : Nat)
    {pod : SpaPod} (h : pod.isObject = true) :
    l.applyUpdate index (some pod) = some (l.modifyStrip index (applyParams pod.decodedParams)) := by
  unfold applyUpdate
  cases hs : l.channelStrips[index]? with
  | none =>
    rw [modifyStrip_of_length_le (List.getElem?_eq_none_iff.mp hs)]
  | some strip =>
    obtain ⟨result, hresult, hfst⟩ := Option.map_eq_some_iff.mp
      ((apply_fst strip pod).trans (if_pos h))
    simp only [Option.bind_some, hresult, Option.map_some, hfst, modifyStrip, Option.some.injEq,
      ChannelStripListModel.mk.injEq]
    apply List.ext_getElem?
    intro j
    rw [List.getElem?_set, List.getElem?_modify]
    by_cases hj : index = j
    · subst hj
      obtain ⟨hlt, hget⟩ := List.getElem?_eq_some_iff.mp hs
      simp [hlt, hget]
    · simp [hj]

end ChannelStripListModel

end Kpmx
