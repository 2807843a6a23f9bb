import Kpmx.Main.Construction
import Kpmx.Setup.WellFormed

/-!
# The feedback streams

Three threads make one stream for every entry of a list and number it with a `uint8_t`; `streamLoop` is
the loop of each. In that of `pipewire_feedback_thread` the entry of the moment is read twice: by the
reference of the loop for the target's name, and by the counter for the slot and the stream's own name.

* `streamLoop_streams` : the streams that such a loop makes;
* `eachOwnChannel_iff` : those of the feedback write to a channel each exactly when the counter never
  wraps around.
-/

namespace Kpmx.Main

/-- The properties of a stream, by key. -/
structure StreamProps where
  mediaClass : String
  mediaRole : String
  nodeLinkGroup : String
  nodeAutoconnect : String
  mediaType : String
  mediaCategory : String
  nodeName : String
  targetObject : String
  deriving DecidableEq

/-! ## The loop -/

/-- A loop over the entries with its counter and the streams so far; `pwStreamNew k` tells whether the
`k`-th `pw_stream_new` gives a stream, and the thread returns 1 where it does not. -/
def streamLoop {α β : Type} (stream : UInt8 → α → β) (pwStreamNew : Nat → Bool) (index : UInt8)
    (streams : List β) : List α → Except Int32 (List β)
  | [] => .ok streams
  | entry :: entries =>
    if pwStreamNew streams.length then
      streamLoop stream pwStreamNew (index + 1) (streams ++ [stream index entry]) entries
    else .error 1

section
variable {α β : Type} (stream : UInt8 → α → β)

/-- The streams of a loop in which every `pw_stream_new` gives one. -/
def streamsOf (entries : List α) : List β := entries.mapIdx fun k entry => stream (UInt8.ofNat k) entry

variable {stream} {pwStreamNew : Nat → Bool}

theorem streamLoop_eq (hnew : ∀ k, pwStreamNew k = true) (entries : List α) (k : Nat)
    (streams : List β) : streamLoop stream pwStreamNew (UInt8.ofNat k) streams entries =
      .ok (streams ++ entries.mapIdx fun i entry => stream (UInt8.ofNat (k + i)) entry) := by
  induction entries generalizing k streams with
  | nil => rw [streamLoop, List.mapIdx_nil, List.append_nil]
  | cons entry entries ih =>
    have hnext : UInt8.ofNat k + 1 = UInt8.ofNat (k + 1) := (UInt8.ofNat_add k 1).symm
    have hindices : ∀ i, k + 1 + i = k + (i + 1) := fun i => by omega
    rw [streamLoop, if_pos (hnew _), hnext, ih, List.mapIdx_cons, List.append_assoc,
      List.singleton_append]
    simp only [hindices, Nat.add_zero]

theorem streamLoop_streams (hnew : ∀ k, pwStreamNew k = true) (entries : List α) :
    streamLoop stream pwStreamNew 0 [] entries = .ok (streamsOf stream entries) := by
  refine (streamLoop_eq hnew entries 0 []).trans ?_
  simp only [Nat.zero_add, List.nil_append, streamsOf]

theorem getElem?_streamsOf (entries : List α) (k : Nat) :
    (streamsOf stream entries)[k]? = entries[k]?.map (stream (UInt8.ofNat k)) :=
  List.getElem?_mapIdx ..

theorem toNat_ofNat_of_lt {k : Nat} (h : k < 256) : (UInt8.ofNat k).toNat = k := by
  rw [UInt8.toNat_ofNat']
  exact Nat.mod_eq_of_lt h

theorem nodup_map_streamsOf_iff {γ : Type} {f : β → γ}
    (hf : ∀ (i j : UInt8) a b, f (stream i a) = f (stream j b) ↔ i = j) (entries : List α) :
    ((streamsOf stream entries).map f).Nodup ↔ entries.length ≤ 256 := by
  rw [List.Nodup, List.pairwise_iff_getElem]
  simp only [List.length_map, streamsOf, List.length_mapIdx, List.getElem_map, List.getElem_mapIdx, ne_eq,
    hf]
  constructor
  · intro h
    by_contra hlt
    exact h 0 256 (by omega) (by omega) (by decide) rfl
  · intro hlength i j hi hj hij heq
    have hindex := congrArg UInt8.toNat heq
    rw [toNat_ofNat_of_lt (by omega), toNat_ofNat_of_lt (by omega)] at hindex
    omega

end

/-! ## The feedback streams -/

/-- `stream_info_feedback`; the pointer to the updates is the number of the entry that it points to. -/
structure StreamInfoFeedback where
  feedbackUpdates : Nat
  props : StreamProps
  deriving DecidableEq

/-- The stream that a round makes; the formatted name has no NUL. -/
def feedbackStream (index : UInt8) (streamInfo : UpdatesToQtThreadData) : StreamInfoFeedback where
  feedbackUpdates := index.toNat
  props :=
    { mediaClass := "Stream/Input/Control"
      mediaRole := "Control"
      nodeLinkGroup := "kpmx-feedback"
      nodeAutoconnect := "true"
      mediaType := "Control"
      mediaCategory := "Capture"
      nodeName := "kpmx-" ++ Setup.format02 index.toNat ++ "-feedback"
      targetObject := cStr streamInfo.feedbackNodeName }

/-- The loop of `pipewire_feedback_thread`. -/
def feedbackLoop (pwStreamNew : Nat → Bool) (index : UInt8) (feedbackStreams : List StreamInfoFeedback)
    (feedbackUpdates : List UpdatesToQtThreadData) : Except Int32 (List StreamInfoFeedback) :=
  streamLoop feedbackStream pwStreamNew index feedbackStreams feedbackUpdates

/-- Every entry has a stream whose target is the entry's node and which writes to the entry, no two
streams write to one entry, and the streams have names of their own. -/
structure EachOwnChannel (feedbackUpdates : List UpdatesToQtThreadData)
    (streams : List StreamInfoFeedback) : Prop where
  length : streams.length = feedbackUpdates.length
  own : ∀ (k : Nat) entry stream, feedbackUpdates[k]? = some entry → streams[k]? = some stream →
    stream.props.targetObject = cStr entry.feedbackNodeName ∧ stream.feedbackUpdates = k
  slots : (streams.map (·.feedbackUpdates)).Nodup
  names : (streams.map (·.props.nodeName)).Nodup

theorem feedbackUpdates_feedbackStream_iff (i j : UInt8) (a b : UpdatesToQtThreadData) :
    (feedbackStream i a).feedbackUpdates = (feedbackStream j b).feedbackUpdates ↔ i = j :=
  UInt8.toNat_inj

theorem nodeName_feedbackStream_iff (i j : UInt8) (a b : UpdatesToQtThreadData) :
    (feedbackStream i a).props.nodeName = (feedbackStream j b).props.nodeName ↔ i = j :=
  ⟨fun h => UInt8.toNat_inj.mp (Setup.numbered_injective h), fun h => by rw [h]; rfl⟩

theorem eachOwnChannel_streamsOf_iff (feedbackUpdates : List UpdatesToQtThreadData) :
    EachOwnChannel feedbackUpdates (streamsOf feedbackStream feedbackUpdates) ↔
      feedbackUpdates.length ≤ 256 := by
  have hslots := nodup_map_streamsOf_iff feedbackUpdates_feedbackStream_iff feedbackUpdates
  have hnames := nodup_map_streamsOf_iff (f := fun s : StreamInfoFeedback => s.props.nodeName)
    nodeName_feedbackStream_iff feedbackUpdates
  refine ⟨fun h => hslots.mp h.slots, fun hlength =>
    ⟨List.length_mapIdx, fun k entry stream hentry hstream => ?_, hslots.mpr hlength, hnames.mpr hlength⟩⟩
  rw [getElem?_streamsOf, hentry, Option.map_some, Option.some.injEq] at hstream
  subst hstream
  have hk := (List.getElem?_eq_some_iff.mp hentry).1
  exact ⟨rfl, toNat_ofNat_of_lt (by omega)⟩

/-- **Every stream writes to its own channel** exactly when there are at most 256 of them, if every
`pw_stream_new` gives a stream. -/
theorem eachOwnChannel_iff {pwStreamNew : Nat → Bool} (hnew : ∀ k, pwStreamNew k = true)
    (feedbackUpdates : List UpdatesToQtThreadData) :
    (∃ streams, feedbackLoop pwStreamNew 0 [] feedbackUpdates = .ok streams ∧
      EachOwnChannel feedbackUpdates streams) ↔ feedbackUpdates.length ≤ 256 := by
  rw [feedbackLoop, streamLoop_streams hnew, ← eachOwnChannel_streamsOf_iff]
  simp only [Except.ok.injEq, exists_eq_left']

/-- The entries of a layer's inputs. -/
def inputEntries (n : Nat) : List UpdatesToQtThreadData :=
  (List.range n).map fun i =>
    { channelStripsModel := 0
      channelIndex := i
      feedbackNodeName := "pmx-input-" ++ Setup.format02 i ++ "-a-feedback"
      controlNodeName := "pmx-input-" ++ Setup.format02 i ++ "-a-control"
      monitorNodeName := "pmx-input-" ++ Setup.format02 i ++ "-a-monitor" }

theorem eachOwnChannel_three_entries : ∃ streams,
    feedbackLoop (fun _ => true) 0 [] (inputEntries 3) = .ok streams ∧
      EachOwnChannel (inputEntries 3) streams ∧ streams.map (·.feedbackUpdates) = [0, 1, 2] ∧
      streams.map (·.props.nodeName) = ["kpmx-00-feedback", "kpmx-01-feedback", "kpmx-02-feedback"] := by
  obtain ⟨streams, hloop, heach⟩ :=
    (eachOwnChannel_iff (fun _ => rfl) (inputEntries 3)).mpr (by decide)
  refine ⟨streams, hloop, heach, ?_⟩
  rw [feedbackLoop, streamLoop_streams fun _ => rfl] at hloop
  obtain rfl := Except.ok.inj hloop
  exact ⟨by decide, by decide⟩

/-- With 257 entries the counter comes back to the first one. -/
theorem not_eachOwnChannel_257_entries :
    ¬ ∃ streams, feedbackLoop (fun _ => true) 0 [] (inputEntries 257) = .ok streams ∧
      EachOwnChannel (inputEntries 257) streams := by
  have hlength : (inputEntries 257).length = 257 := by
    rw [inputEntries, List.length_map, List.length_range]
  rintro ⟨streams, hloop, heach⟩
  rw [feedbackLoop, streamLoop_streams fun _ => rfl] at hloop
  obtain rfl := Except.ok.inj hloop
  have hle := (eachOwnChannel_streamsOf_iff _).mp heach
  omega

end Kpmx.Main
