import Kpmx.Model.Double

/-!
# The messages between the threads

`ControlQueueMessage` goes from a strip to its control stream, `WireplumberMetadataUpdate` from a
strip to the metadata thread, `WireplumberObjectManagerQueueMessage` from the WirePlumber callbacks
to the Qt models.
-/

namespace Kpmx

/-- The capacity of every queue that `main` creates. -/
def queueCapacity : Nat := 1024

/-- The text of a `std::string` that its `c_str()` shows: up to the first NUL. -/
def cStr (s : String) : String := String.ofList (s.toList.takeWhile (· ≠ '\x00'))

/-- The exceptions of the standard library that the handlers can raise. -/
inductive StdException where
  | badOptionalAccess
  | badVariantAccess
  | outOfRange
  deriving DecidableEq

inductive ControlValue where
  | uint (v : UInt32)
  | int (v : Int32)
  | bool (v : Bool)
  | double (v : Double)
  deriving DecidableEq

inductive PipewireType where
  | params
  deriving DecidableEq

structure ControlQueueMessage where
  parameterName : String
  value : ControlValue
  type : PipewireType := .params
  deriving DecidableEq

structure WireplumberNode where
  id : Option Int32 := none
  objectSerial : Option Int32 := none
  name : Option String := none
  description : Option String := none
  deviceId : Option Int32 := none
  targetObject : Option String := none
  mediaRole : Option String := none
  mediaClass : Option String := none
  mediaCategory : Option String := none
  mediaType : Option String := none
  linkGroup : Option String := none
  deriving DecidableEq

structure WireplumberMetadataUpdate where
  id : Int32
  key : String
  value : Option String
  deriving DecidableEq

inductive WireplumberObjects where
  | node (node : WireplumberNode)
  | metadataUpdate (update : WireplumberMetadataUpdate)
  deriving DecidableEq

inductive WireplumberObjectManagerOperation where
  | insert
  | delete
  | metadataUpdate
  deriving DecidableEq

structure WireplumberObjectManagerQueueMessage where
  object : Option WireplumberObjects
  operation : WireplumberObjectManagerOperation := .insert
  deriving DecidableEq

/-- A `QVariant` as `setTargetObject` reads it: `none` when it is not valid, else its `toString`. -/
abbrev QVariant := Option String

end Kpmx
