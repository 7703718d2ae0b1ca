import HostCall.Value.Basic

/-!
# Host types

Host code works with typed data. A host type is one of nine base types or an optional one; each
has a Lean type of its data, a total embedding into values and a partial reading from them. An
optional type reads null as absence and everything else as its base type.
-/

namespace HostCall

inductive ConversionError where
  | mismatch (expected got : String)
  | outOfRange (value : Int64) (target : String)
deriving DecidableEq

namespace ConversionError

def message : ConversionError → String
  | mismatch expected got => "Type mismatch: expected " ++ expected ++ ", got " ++ got
  | outOfRange value target =>
    "Value " ++ toString value.toInt ++ " out of range for " ++ target

end ConversionError

inductive BaseType where
  | bool
  | int
  | long
  | double
  | text
  | list
  | graph
  | value
  | object
deriving DecidableEq

namespace BaseType

def Carrier : BaseType → Type
  | bool => Bool
  | int => Int32
  | long => Int64
  | double => Binary64
  | text => String
  | list => List Value
  | graph => Graph
  | value => Value
  | object => ObjectRef

def toValue : (t : BaseType) → t.Carrier → Value
  | bool, b => .bool b
  | int, n => .int n
  | long, n => .long n
  | double, x => .double x
  | text, s => .text s
  | list, items => .list items
  | graph, g => .node g
  | value, v => v
  | object, o => .object o

/-- What a failed reading says was expected. -/
def expectedName : BaseType → String
  | bool => "boolean"
  | int => "int"
  | long => "long"
  | double => "double"
  | text => "string"
  | list => "list"
  | graph => "node"
  | value => "value"
  | object => "object"

/-- The datum, or the complaint about the kind of a value. -/
def require {α : Type} (t : BaseType) (v : Value) : Option α → Except ConversionError α
  | some a => .ok a
  | none => .error (.mismatch t.expectedName v.kindName)

/-- An integer of 64 bits as one of 32, if it fits. -/
def narrow? (n : Int64) : Except ConversionError Int32 :=
  if Int32.minValue.toInt ≤ n.toInt ∧ n.toInt ≤ Int32.maxValue.toInt then .ok n.toInt32
  else .error (.outOfRange n int.expectedName)

/-- The datum of a value. Only integers change their width; nothing else is coerced. -/
def ofValue : (t : BaseType) → Value → Except ConversionError t.Carrier
  | bool, v => require bool v v.bool?
  | int, .long n => narrow? n
  | int, .int n => .ok n
  | int, v => require int v none
  | long, v => require long v v.integer?
  | double, v => require double v v.double?
  | text, v => require text v v.text?
  | list, v => require list v v.list?
  | graph, v => require graph v v.node?
  | value, v => .ok v
  | object, v => require object v v.object?

end BaseType

inductive HostType where
  | plain (base : BaseType)
  | optional (base : BaseType)
deriving DecidableEq

namespace HostType

def Carrier : HostType → Type
  | plain base => base.Carrier
  | optional base => Option base.Carrier

/-- The value of a datum; an absent one is null. -/
def toValue : (t : HostType) → t.Carrier → Value
  | plain base, x => base.toValue x
  | optional base, some x => base.toValue x
  | optional _, none => .null

/-- The datum of a value; null is an absent datum of every optional type. -/
def ofValue : (t : HostType) → Value → Except ConversionError t.Carrier
  | plain base, v => base.ofValue v
  | optional base, v => if v.isNull then .ok none else (base.ofValue v).map some

end HostType

namespace Value

/-- The value of a list of data, each embedded by itself. -/
def ofList {α : Type} (embed : α → Value) (items : List α) : Value := .list (items.map embed)

/-- The value of a datum that may be absent. -/
def ofOption {α : Type} (embed : α → Value) : Option α → Value
  | some x => embed x
  | none => .null

/-- The value of a size; one too large for an integer of 64 bits becomes the largest of them. -/
def ofSize (n : Nat) : Value := .long (Int64.ofNat (min n Int64.maxValue.toInt.toNat))

end Value

end HostCall
