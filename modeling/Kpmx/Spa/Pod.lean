import Kpmx.Model.Double

/-!
# SPA pods

The pods that the streams exchange, as values: what the builder writes and the parser reads. Types
that no function here tells apart are `other`. The type and id of an object, the offset of a control
and the flags of a property are written but never read, and are left out; their bytes are counted in
the sizes.

The parser is a cursor on the pods not read yet. A getter succeeds and advances exactly when the next
pod has its type.
-/

namespace Kpmx

/-- The property keys of a props object: `SPA_PROP_params` and the others. -/
inductive SpaProp where
  | params
  | other (key : Nat)
  deriving DecidableEq

/-- The types of a control: `SPA_CONTROL_Properties` and the others. -/
inductive SpaControlType where
  | properties
  | other (type : Nat)
  deriving DecidableEq

inductive SpaPod where
  | bool (value : Bool)
  | int (value : Int32)
  | float (value : Double)
  | double (value : Double)
  | string (value : String)
  | struct (fields : List SpaPod)
  | object (props : List (SpaProp × SpaPod))
  | sequence (controls : List (SpaControlType × SpaPod))
  | other (type : Nat) (size : Nat)

namespace SpaPod

/-- Pods inside a container start at multiples of eight bytes. -/
def roundUp8 (n : Nat) : Nat := (n + 7) / 8 * 8

mutual

/-- The size of a pod's body: a string with its final NUL, a container with its padded contents. -/
def bodySize : SpaPod → Nat
  | .bool _ => 4
  | .int _ => 4
  | .float _ => 4
  | .double _ => 8
  | .string s => s.length + 1
  | .struct fields => fieldsSize fields
  | .object props => 8 + propsSize props
  | .sequence controls => 8 + controlsSize controls
  | .other _ size => size

def fieldsSize : List SpaPod → Nat
  | [] => 0
  | pod :: pods => roundUp8 (8 + pod.bodySize) + fieldsSize pods

def propsSize : List (SpaProp × SpaPod) → Nat
  | [] => 0
  | (_, pod) :: props => roundUp8 (16 + pod.bodySize) + propsSize props

def controlsSize : List (SpaControlType × SpaPod) → Nat
  | [] => 0
  | (_, pod) :: controls => roundUp8 (16 + pod.bodySize) + controlsSize controls

end

/-- `SPA_POD_SIZE`: the body and its eight-byte header. -/
def size (pod : SpaPod) : Nat := 8 + pod.bodySize

/-! ## The parser's getters -/

def getString : List SpaPod → Option (String × List SpaPod)
  | .string s :: rest => some (s, rest)
  | _ => none

def getFloat : List SpaPod → Option (Double × List SpaPod)
  | .float d :: rest => some (d, rest)
  | _ => none

def getDouble : List SpaPod → Option (Double × List SpaPod)
  | .double d :: rest => some (d, rest)
  | _ => none

def getBool : List SpaPod → Option (Bool × List SpaPod)
  | .bool b :: rest => some (b, rest)
  | _ => none

def getInt : List SpaPod → Option (Int32 × List SpaPod)
  | .int i :: rest => some (i, rest)
  | _ => none

def getPod : List SpaPod → Option (SpaPod × List SpaPod)
  | pod :: rest => some (pod, rest)
  | [] => none

end SpaPod

end Kpmx
