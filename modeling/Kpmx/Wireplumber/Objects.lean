import Kpmx.Wireplumber.Handling

/-!
# WirePlumber's objects and the callbacks

The object manager reports nodes and metadata objects; `fill_node` reads a node's properties. The
properties of a metadata object all read as null, because it is no `WpPipewireObject`.

* `fillNode_objectSerial` : a serial is filled in exactly when the property is there;
* `never_opens_empty_iff` : when the posted calls open no empty serial and no empty name.
-/

namespace Kpmx

/-- The keys of the properties that `fill_node` reads. -/
inductive PwKey where
  | objectId
  | objectSerial
  | nodeName
  | nodeDescription
  | deviceId
  | targetObject
  | mediaRole
  | mediaClass
  | mediaCategory
  | mediaType
  | nodeLinkGroup
  deriving DecidableEq

/-- An object that the object manager reports: a node with its properties, a metadata object with
`metadata.name` among its global properties. -/
inductive WpObject where
  | node (properties : PwKey → Option String)
  | metadata (name : Option String)

/-- The exceptions of `std::stoi`. -/
inductive StoiException where
  | invalidArgument
  | outOfRange
  deriving DecidableEq

/-- `isspace` in the C locale. -/
def isSpace (c : Char) : Bool := c = ' ' || (9 ≤ c.toNat && c.toNat ≤ 13)

/-- `std::stoi`: blanks, a sign, and as many digits as there are. -/
def stoi (s : String) : Except StoiException Int32 :=
  let text := s.toList.dropWhile isSpace
  let (negative, text) := match text with
    | '-' :: rest => (true, rest)
    | '+' :: rest => (false, rest)
    | rest => (false, rest)
  let digits := text.takeWhile Char.isDigit
  if digits = [] then .error .invalidArgument
  else
    let number : Int := digits.foldl (fun n d => 10 * n + digitValue d) 0
    let value := if negative then -number else number
    if -2147483648 ≤ value ∧ value ≤ 2147483647 then .ok (Int32.ofInt value) else .error .outOfRange

example : stoi " -42 bytes" = .ok (-42) ∧ stoi "4294967296" = .error .outOfRange := by decide

namespace WpObject

/-- `wp_pipewire_object_get_property`. -/
def getProperty : WpObject → PwKey → Option String
  | .node properties, key => properties key
  | .metadata _, _ => none

/-- A property with a number. -/
def getNumber (o : WpObject) (key : PwKey) : Except StoiException (Option Int32) :=
  match o.getProperty key with
  | some props => (stoi props).map some
  | none => .ok none

def fillNode (o : WpObject) : Except StoiException WireplumberNode :=
  (o.getNumber .objectId).bind fun id =>
  (o.getNumber .objectSerial).bind fun objectSerial =>
  (o.getNumber .deviceId).map fun deviceId =>
    { id := id
      objectSerial := objectSerial
      name := o.getProperty .nodeName
      description := o.getProperty .nodeDescription
      deviceId := deviceId
      targetObject := o.getProperty .targetObject
      mediaRole := o.getProperty .mediaRole
      mediaClass := o.getProperty .mediaClass
      mediaCategory := o.getProperty .mediaCategory
      mediaType := o.getProperty .mediaType
      linkGroup := o.getProperty .nodeLinkGroup }

end WpObject

/-! ## The callbacks -/

/-- What WirePlumber reports. -/
inductive WpEvent where
  | objectAdded (object : WpObject)
  | objectRemoved (object : WpObject)
  | metadataChanged (subject : UInt32) (key : String) (value : Option String)

/-- The message of `node_added_callback`; a metadata object is no message. -/
def nodeAddedCallback (object : WpObject) :
    Except StoiException (Option WireplumberObjectManagerQueueMessage) :=
  match object with
  | .metadata _ => .ok none
  | .node _ => object.fillNode.map fun node =>
    some { object := some (.node node), operation := .insert }

/-- The message of `node_removed_callback`, which does not ask what the object is. -/
def nodeRemovedCallback (object : WpObject) :
    Except StoiException WireplumberObjectManagerQueueMessage :=
  object.fillNode.map fun node => { object := some (.node node), operation := .delete }

def metadataChangedCallback (subject : UInt32) (key : String) (value : Option String) :
    WireplumberObjectManagerQueueMessage :=
  { object := some (.metadataUpdate { id := subject.toInt32, key := key, value := value })
    operation := .metadataUpdate }

/-- The message that a callback pushes. -/
def WpEvent.message : WpEvent → Except StoiException (Option WireplumberObjectManagerQueueMessage)
  | .objectAdded object => nodeAddedCallback object
  | .objectRemoved object => (nodeRemovedCallback object).map some
  | .metadataChanged subject key value => .ok (some (metadataChangedCallback subject key value))

namespace WpObject

theorem getNumber_isSome {o : WpObject} {key : PwKey} {number : Option Int32}
    (h : o.getNumber key = .ok number) : number.isSome = (o.getProperty key).isSome := by
  unfold getNumber at h
  cases hprops : o.getProperty key with
  | none =>
    rw [hprops] at h
    cases h
    rfl
  | some props =>
    simp only [hprops] at h
    cases hstoi : stoi props with
    | error e => rw [hstoi] at h; cases h
    | ok value => rw [hstoi] at h; cases h; rfl

theorem exists_of_fillNode {o : WpObject} {node : WireplumberNode} (h : o.fillNode = .ok node) :
    ∃ id objectSerial deviceId, o.getNumber .objectId = .ok id ∧
      o.getNumber .objectSerial = .ok objectSerial ∧ o.getNumber .deviceId = .ok deviceId ∧
      node =
        { id := id
          objectSerial := objectSerial
          name := o.getProperty .nodeName
          description := o.getProperty .nodeDescription
          deviceId := deviceId
          targetObject := o.getProperty .targetObject
          mediaRole := o.getProperty .mediaRole
          mediaClass := o.getProperty .mediaClass
          mediaCategory := o.getProperty .mediaCategory
          mediaType := o.getProperty .mediaType
          linkGroup := o.getProperty .nodeLinkGroup } := by
  unfold fillNode at h
  cases hid : o.getNumber .objectId with
  | error e => rw [hid] at h; cases h
  | ok id =>
    cases hserial : o.getNumber .objectSerial with
    | error e => rw [hid, hserial] at h; cases h
    | ok objectSerial =>
      cases hdevice : o.getNumber .deviceId with
      | error e => rw [hid, hserial, hdevice] at h; cases h
      | ok deviceId =>
        rw [hid, hserial, hdevice] at h
        exact ⟨id, objectSerial, deviceId, rfl, rfl, rfl, (Except.ok.inj h).symm⟩

theorem fillNode_objectSerial {o : WpObject} {node : WireplumberNode} (h : o.fillNode = .ok node) :
    node.objectSerial.isSome = (o.getProperty .objectSerial).isSome := by
  obtain ⟨id, objectSerial, deviceId, -, hserial, -, rfl⟩ := exists_of_fillNode h
  exact getNumber_isSome hserial

end WpObject

/-! ## Empty optionals -/

/-- The call evaluates `value()` on an empty serial or an empty name. What `initial_channel_update`
evaluates it on is the result of a parser. -/
def PostedCall.OpensEmpty (m : QtModels) (call : PostedCall) : Prop :=
  call.run m = .error .badOptionalAccess ∧ ∀ node, call ≠ .initialChannelUpdate node

def QtModels.CallsOpenNoEmpty : QtModels → List PostedCall → Prop
  | _, [] => True
  | m, call :: calls => ¬ call.OpensEmpty m ∧
    ∀ m', call.run m = .ok m' → CallsOpenNoEmpty m' calls

/-- The calls of a message open no empty optional, if the callback pushes one. -/
def QtModels.EventOpensNoEmpty (m : QtModels) (event : WpEvent) : Prop :=
  ∀ message calls, event.message = .ok (some message) → updateModel message = .ok calls →
    m.CallsOpenNoEmpty calls

/-- Handle the message of an event, if there is one. -/
def QtModels.handleEvent (m : QtModels) (event : WpEvent) : Except StdException QtModels :=
  match event.message with
  | .ok (some message) => m.handle message
  | _ => .ok m

/-- The calls posted for the events' messages open no empty serial and no empty name. -/
def QtModels.OpensNoEmpty : QtModels → List WpEvent → Prop
  | _, [] => True
  | m, event :: events => m.EventOpensNoEmpty event ∧
    ∀ m', m.handleEvent event = .ok m' → OpensNoEmpty m' events

/-- A removed object has a serial; and when a target changes, the row with the id has a name. -/
def WpEvent.Complete (m : QtModels) : WpEvent → Prop
  | .objectAdded _ => True
  | .objectRemoved object => ∀ node, object.fillNode = .ok node →
      (object.getProperty .objectSerial).isSome = true
  | .metadataChanged subject key _ => key = "target_object" →
      ∀ row, m.nodes.nodeByObjectId subject.toInt32 = some row → row.name.isSome = true

def QtModels.AllComplete : QtModels → List WpEvent → Prop
  | _, [] => True
  | m, event :: events => event.Complete m ∧
    ∀ m', m.handleEvent event = .ok m' → AllComplete m' events

theorem opensEmpty_deleteNodeByObjectSerial {m : QtModels} {node : WireplumberNode} :
    (PostedCall.deleteNodeByObjectSerial node).OpensEmpty m ↔ node.objectSerial = none := by
  rw [PostedCall.OpensEmpty, PostedCall.run]
  cases node.objectSerial <;> simp

theorem onChannels_ne_badOptionalAccess (l : LayersListModel) (layerIndex : Int) (kind : ChannelKind)
    (f : ChannelStripListModel → ChannelStripListModel) :
    l.onChannels layerIndex kind f ≠ .error .badOptionalAccess := by
  unfold LayersListModel.onChannels
  split <;> simp

theorem updateTargetObjectForNodeName_ne_badOptionalAccess (l : LayersListModel) (nodeName : String)
    (targetObject : Option String) :
    l.updateTargetObjectForNodeName nodeName targetObject ≠ .error .badOptionalAccess := by
  unfold LayersListModel.updateTargetObjectForNodeName
  split
  · exact onChannels_ne_badOptionalAccess _ _ _ _
  · simp

theorem opensEmpty_metadataUpdate {m : QtModels} {update : WireplumberMetadataUpdate} :
    (PostedCall.metadataUpdate update).OpensEmpty m ↔ update.key = "target_object" ∧
      ∃ row, m.nodes.nodeByObjectId update.id = some row ∧ row.name = none := by
  rw [PostedCall.OpensEmpty, PostedCall.run]
  by_cases hkey : update.key = "target_object"
  · rw [if_pos hkey]
    simp only [NodesListModel.nodeByObjectId_updateNodeTargetObject]
    cases m.nodes.nodeByObjectId update.id with
    | none => simp
    | some row =>
      cases hname : row.name with
      | none => simp [hkey, hname]
      | some name =>
        have hne := updateTargetObjectForNodeName_ne_badOptionalAccess m.layers name update.value
        cases hresult : m.layers.updateTargetObjectForNodeName name update.value with
        | error e =>
          rw [hresult] at hne
          simpa [hname, hresult, Except.map] using hne
        | ok layers => simp [hname, hresult, Except.map]
  · rw [if_neg hkey]
    simp [hkey]

theorem eventOpensNoEmpty_objectAdded (m : QtModels) (object : WpObject) :
    m.EventOpensNoEmpty (.objectAdded object) := by
  intro message calls hmessage hcalls
  obtain ⟨node, rfl⟩ : ∃ node, message = QtModels.insertMessage node := by
    cases object with
    | metadata name => cases hmessage
    | node properties =>
      simp only [WpEvent.message, nodeAddedCallback] at hmessage
      cases hnode : (WpObject.node properties).fillNode with
      | error e => rw [hnode] at hmessage; cases hmessage
      | ok node => rw [hnode] at hmessage; cases hmessage; exact ⟨node, rfl⟩
  cases hcalls
  refine ⟨fun h => ?_, fun m' _ => ⟨fun h => h.2 node rfl, fun _ _ => trivial⟩⟩
  exact absurd h.1 (by simp [PostedCall.run])

theorem message_objectRemoved (object : WpObject) :
    (WpEvent.objectRemoved object).message = object.fillNode.map fun node =>
      some { object := some (.node node), operation := .delete } := by
  simp only [WpEvent.message, nodeRemovedCallback]
  cases object.fillNode <;> rfl

theorem eventOpensNoEmpty_objectRemoved (m : QtModels) (object : WpObject) :
    m.EventOpensNoEmpty (.objectRemoved object) ↔
      (WpEvent.objectRemoved object).Complete m := by
  unfold QtModels.EventOpensNoEmpty WpEvent.Complete
  rw [message_objectRemoved]
  cases hnode : object.fillNode with
  | error e =>
    exact ⟨fun _ node h => absurd h (by simp [hnode]),
      fun _ message calls h => absurd h (by simp [Except.map])⟩
  | ok node =>
    have hserial := WpObject.fillNode_objectSerial hnode
    constructor
    · intro h node' _
      have hopens := (h _ _ rfl rfl).1
      rw [opensEmpty_deleteNodeByObjectSerial] at hopens
      rw [← hserial]
      exact Option.isSome_iff_ne_none.mpr hopens
    · intro hcomplete message calls h hcalls
      cases h
      cases hcalls
      refine ⟨fun hopens => ?_, fun _ _ => trivial⟩
      rw [opensEmpty_deleteNodeByObjectSerial] at hopens
      have hsome := hcomplete node hnode
      rw [← hserial, hopens] at hsome
      cases hsome

theorem eventOpensNoEmpty_metadataChanged (m : QtModels) (subject : UInt32) (key : String)
    (value : Option String) : m.EventOpensNoEmpty (.metadataChanged subject key value) ↔
      (WpEvent.metadataChanged subject key value).Complete m := by
  constructor
  · rintro h rfl row hrow
    have hopens := (h _ _ rfl rfl).1
    rw [opensEmpty_metadataUpdate] at hopens
    exact Option.isSome_iff_ne_none.mpr fun hname => hopens ⟨rfl, row, hrow, hname⟩
  · intro hcomplete message calls h hcalls
    cases h
    cases hcalls
    refine ⟨fun hopens => ?_, fun _ _ => trivial⟩
    obtain ⟨hkey, row, hrow, hname⟩ := opensEmpty_metadataUpdate.mp hopens
    have hsome := hcomplete hkey row hrow
    rw [hname] at hsome
    cases hsome

/-- **One event** posts no call that opens an empty optional exactly when the event is complete. -/
theorem eventOpensNoEmpty_iff (m : QtModels) (event : WpEvent) :
    m.EventOpensNoEmpty event ↔ event.Complete m := by
  cases event with
  | objectAdded object =>
    exact ⟨fun _ => trivial, fun _ => eventOpensNoEmpty_objectAdded m object⟩
  | objectRemoved object => exact eventOpensNoEmpty_objectRemoved m object
  | metadataChanged subject key value => exact eventOpensNoEmpty_metadataChanged m subject key value

/-- **The posted calls open no empty serial and no empty name** exactly when every event is complete
when it is handled. -/
theorem never_opens_empty_iff (m : QtModels) (events : List WpEvent) :
    m.OpensNoEmpty events ↔ m.AllComplete events := by
  induction events generalizing m with
  | nil => exact Iff.rfl
  | cons event events ih =>
    rw [QtModels.OpensNoEmpty, QtModels.AllComplete, eventOpensNoEmpty_iff]
    exact and_congr_right fun _ => forall_congr' fun m' => forall_congr' fun _ => ih m'

/-- The removal of a metadata object is handled as that of a node without a serial. -/
theorem removed_metadata_opens_empty : ¬ ∀ (m : QtModels) (events : List WpEvent),
    m.OpensNoEmpty events := by
  intro h
  have hopens := (h ⟨{}, {}⟩ [.objectRemoved (.metadata (some "default"))]).1 _ _ rfl rfl
  exact hopens.1 ⟨rfl, by simp⟩

end Kpmx
