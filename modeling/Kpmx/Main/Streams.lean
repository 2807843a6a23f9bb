import Kpmx.Main.FeedbackStreams
import Kpmx.Main.Wiring

/-!
# The streams of the three threads

The loops of `pipewire_control_thread` and `pipewire_monitor_thread`, and what the three threads make of
the mixer that `main` constructs: every channel has its three streams, with names and a slot of their own,
exactly when the counter of the loops never wraps around (`attached_construct_iff`).
-/

namespace Kpmx.Main

/-! ## The loops -/

/-- A `stream_info` of `pipewire_control_thread`; the queue is the one of the entry. -/
structure StreamInfoControl where
  queue : Nat
  props : StreamProps
  deriving DecidableEq

/-- A `stream_info` of `pipewire_monitor_thread`. -/
structure StreamInfoMonitor where
  props : StreamProps
  deriving DecidableEq

def controlStream (index : UInt8) (streamInfo : ChannelData) : StreamInfoControl where
  queue := streamInfo.queue
  props :=
    { mediaClass := "Stream/Output/Control"
      mediaRole := "Production"
      nodeLinkGroup := "kpmx-control"
      nodeAutoconnect := "true"
      mediaType := "Control"
      mediaCategory := "Playback"
      nodeName := "kpmx-" ++ Setup.format02 index.toNat ++ "-control"
      targetObject := cStr streamInfo.controlNodeName }

def monitorStream (index : UInt8) (streamSetup : UpdatesToQtThreadData) : StreamInfoMonitor where
  props :=
    { mediaClass := "Stream/Input/Audio"
      mediaRole := "Capture"
      nodeLinkGroup := "kpmx"
      nodeAutoconnect := "false"
      mediaType := "Audio"
      mediaCategory := "Capture"
      nodeName := "kpmx-" ++ Setup.format02 index.toNat ++ "-monitor"
      targetObject := cStr streamSetup.monitorNodeName }

/-- The loop of `pipewire_control_thread`. -/
def controlLoop (pwStreamNew : Nat → Bool) (channels : List ChannelData) :
    Except Int32 (List StreamInfoControl) :=
  streamLoop controlStream pwStreamNew 0 [] channels

/-- The loop of `pipewire_monitor_thread`. -/
def monitorLoop (pwStreamNew : Nat → Bool) (feedbackUpdates : List UpdatesToQtThreadData) :
    Except Int32 (List StreamInfoMonitor) :=
  streamLoop monitorStream pwStreamNew 0 [] feedbackUpdates

/-! ## Names -/

theorem nodeName_controlStream_iff (i j : UInt8) (a b : ChannelData) :
    (controlStream i a).props.nodeName = (controlStream j b).props.nodeName ↔ i = j :=
  ⟨fun h => UInt8.toNat_inj.mp (Setup.numbered_injective h), fun h => by rw [h]; rfl⟩

theorem nodeName_monitorStream_iff (i j : UInt8) (a b : UpdatesToQtThreadData) :
    (monitorStream i a).props.nodeName = (monitorStream j b).props.nodeName ↔ i = j :=
  ⟨fun h => UInt8.toNat_inj.mp (Setup.numbered_injective h), fun h => by rw [h]; rfl⟩

theorem append_ne_of_getLast? {start start' ending ending' : String}
    (hending : ending.toList.getLast?.isSome = true) (hending' : ending'.toList.getLast?.isSome = true)
    (h : ending.toList.getLast? ≠ ending'.toList.getLast?) : start ++ ending ≠ start' ++ ending' := by
  intro heq
  have hlast := congrArg (fun s => s.toList.getLast?) heq
  obtain ⟨c, hc⟩ := Option.isSome_iff_exists.mp hending
  obtain ⟨c', hc'⟩ := Option.isSome_iff_exists.mp hending'
  simp only [String.toList_append, List.getLast?_append, hc, hc', Option.some_or] at hlast
  exact h (by rw [hc, hc', hlast])

/-- The node names of the three threads. -/
def nodeNames (control : List StreamInfoControl) (feedback : List StreamInfoFeedback)
    (monitor : List StreamInfoMonitor) : List String :=
  control.map (·.props.nodeName) ++ feedback.map (·.props.nodeName) ++ monitor.map (·.props.nodeName)

theorem mem_names {α β : Type} {stream : UInt8 → α → β} {f : β → String} (ending : String)
    (hf : ∀ i a, f (stream i a) = "kpmx-" ++ Setup.format02 i.toNat ++ ending) {entries : List α}
    {name : String} (h : name ∈ (streamsOf stream entries).map f) : ∃ start, name = start ++ ending := by
  obtain ⟨s, hs, rfl⟩ := List.mem_map.mp h
  obtain ⟨k, hk⟩ := List.mem_iff_getElem?.mp hs
  rw [getElem?_streamsOf] at hk
  obtain ⟨a, -, rfl⟩ := Option.map_eq_some_iff.mp hk
  exact ⟨_, hf _ a⟩

/-- The threads give all their streams names of their own exactly when no counter wraps around. -/
theorem nodup_nodeNames_iff (channels : List ChannelData) (feedbackUpdates : List UpdatesToQtThreadData)
    (hlength : channels.length = feedbackUpdates.length) :
    (nodeNames (streamsOf controlStream channels) (streamsOf feedbackStream feedbackUpdates)
      (streamsOf monitorStream feedbackUpdates)).Nodup ↔ feedbackUpdates.length ≤ 256 := by
  have hcontrol := nodup_map_streamsOf_iff (f := fun s : StreamInfoControl => s.props.nodeName)
    nodeName_controlStream_iff channels
  have hfeedback := nodup_map_streamsOf_iff (f := fun s : StreamInfoFeedback => s.props.nodeName)
    nodeName_feedbackStream_iff feedbackUpdates
  have hmonitor := nodup_map_streamsOf_iff (f := fun s : StreamInfoMonitor => s.props.nodeName)
    nodeName_monitorStream_iff feedbackUpdates
  rw [nodeNames, List.nodup_append, List.nodup_append, hcontrol, hfeedback, hmonitor, hlength]
  refine ⟨fun h => h.2.1, fun h => ⟨⟨h, h, fun a ha b hb => ?_⟩, h, fun a ha b hb => ?_⟩⟩
  · obtain ⟨start, rfl⟩ := mem_names "-control" (fun _ _ => rfl) ha
    obtain ⟨start', rfl⟩ := mem_names "-feedback" (fun _ _ => rfl) hb
    exact append_ne_of_getLast? (by decide) (by decide) (by decide)
  · obtain ⟨start', rfl⟩ := mem_names "-monitor" (fun _ _ => rfl) hb
    rcases List.mem_append.mp ha with ha | ha
    · obtain ⟨start, rfl⟩ := mem_names "-control" (fun _ _ => rfl) ha
      exact append_ne_of_getLast? (by decide) (by decide) (by decide)
    · obtain ⟨start, rfl⟩ := mem_names "-feedback" (fun _ _ => rfl) ha
      exact append_ne_of_getLast? (by decide) (by decide) (by decide)

/-! ## The streams of the mixer -/

/-- The streams of a channel: the control stream drains the queue to which the strip of the channel, and
no other, sends; the three have the channel's own nodes for targets; and the feedback stream writes to
the entry that leads to the channel's strips. -/
structure ChannelStreams (setup : Setup.MixerSetup) (k : Fin (channelCount setup))
    (control : StreamInfoControl) (feedback : StreamInfoFeedback) (monitor : StreamInfoMonitor) : Prop where
  queue : ∀ place, (construct setup).queue? place = some control.queue ↔
    refOf place = (wiring setup).sends k
  controlTarget : control.props.targetObject = cStr ((site setup k).nodePrefix ++ "-control")
  feedbackTarget : feedback.props.targetObject = cStr ((site setup k).nodePrefix ++ "-feedback")
  monitorTarget : monitor.props.targetObject = cStr ((site setup k).nodePrefix ++ "-monitor")
  slot : feedback.feedbackUpdates = k

/-- Every channel has its streams, there are no others, and each has a name of its own. -/
structure Attached (setup : Setup.MixerSetup) (control : List StreamInfoControl)
    (feedback : List StreamInfoFeedback) (monitor : List StreamInfoMonitor) : Prop where
  lengths : control.length = channelCount setup ∧ feedback.length = channelCount setup ∧
    monitor.length = channelCount setup
  channels : ∀ k : Fin (channelCount setup), ∃ c f m, control[k.val]? = some c ∧
    feedback[k.val]? = some f ∧ monitor[k.val]? = some m ∧ ChannelStreams setup k c f m
  names : (nodeNames control feedback monitor).Nodup

theorem lengths_construct (setup : Setup.MixerSetup) :
    (construct setup).channels.length = channelCount setup ∧
      (construct setup).pipewireQtSyncInfo.length = channelCount setup := by
  rw [(Built.construct setup).channels, (Built.construct setup).syncInfo, List.length_mapIdx,
    List.length_map]
  exact ⟨rfl, rfl⟩

/-- **Every channel of the mixer has its streams** exactly when there are at most 256 channels, if every
`pw_stream_new` gives a stream. -/
theorem attached_construct_iff (setup : Setup.MixerSetup) :
    (∃ control feedback monitor,
      controlLoop (fun _ => true) (construct setup).channels = .ok control ∧
      feedbackLoop (fun _ => true) 0 [] (construct setup).pipewireQtSyncInfo = .ok feedback ∧
      monitorLoop (fun _ => true) (construct setup).pipewireQtSyncInfo = .ok monitor ∧
      Attached setup control feedback monitor) ↔ channelCount setup ≤ 256 := by
  have hbuilt := Built.construct setup
  obtain ⟨hchannels, hentries⟩ := lengths_construct setup
  have hnames := nodup_nodeNames_iff (construct setup).channels (construct setup).pipewireQtSyncInfo
    (hchannels.trans hentries.symm)
  rw [hentries] at hnames
  unfold controlLoop feedbackLoop monitorLoop
  simp only [streamLoop_streams (fun _ => rfl)]
  constructor
  · rintro ⟨control, feedback, monitor, hcontrol, hfeedback, hmonitor, h⟩
    cases hcontrol
    cases hfeedback
    cases hmonitor
    exact hnames.mp h.names
  · intro hcount
    refine ⟨_, _, _, rfl, rfl, rfl, ?_, fun k => ?_, hnames.mpr hcount⟩
    · simp only [streamsOf, List.length_mapIdx, hchannels, hentries, and_self]
    · have hsite := getElem?_site setup k
      refine ⟨controlStream (UInt8.ofNat k) ⟨k, (site setup k).nodePrefix ++ "-control"⟩,
        feedbackStream (UInt8.ofNat k) (site setup k).syncInfo,
        monitorStream (UInt8.ofNat k) (site setup k).syncInfo, ?_, ?_, ?_, ?_⟩
      · rw [getElem?_streamsOf, hbuilt.channels, List.getElem?_mapIdx, hsite]
        rfl
      · rw [getElem?_streamsOf, hbuilt.syncInfo, List.getElem?_map, hsite]
        rfl
      · rw [getElem?_streamsOf, hbuilt.syncInfo, List.getElem?_map, hsite]
        rfl
      · refine ⟨fun place => ?_, rfl, rfl, rfl, ?_⟩
        · exact (hbuilt.queue_iff hsite place).trans refOf_injective.eq_iff.symm
        · exact toNat_ofNat_of_lt (Nat.lt_of_lt_of_le k.isLt hcount)

end Kpmx.Main
