import HostCall.Text.Quoted
import HostCall.Value.Convert

/-!
# Types in signatures

A parameter declares a type, and every argument has one. Host classes are types by their name,
and a class may bear the name of a built-in type without being it.
-/

namespace HostCall

inductive CallType where
  | boolean
  /-- An integer of 32 bits; only parameters have it, since integral arguments are long. -/
  | int
  | long
  | double
  | string
  | list
  | node
  /-- The type of null; only arguments have it. -/
  | null
  /-- The type that accepts every argument. -/
  | object
  | host (className : String)
deriving DecidableEq, Inhabited

namespace CallType

/-- A primitive type has no room for null. -/
def isPrimitive : CallType → Bool
  | boolean | int | long | double => true
  | _ => false

def name : CallType → String
  | boolean => "boolean"
  | int => "int"
  | long => "long"
  | double => "double"
  | string => "string"
  | list => "list"
  | node => "node"
  | null => "null"
  | object => "object"
  | host className => className

/-- The form for diagnostics, which tells a class from a built-in type. -/
def inspect : CallType → String
  | boolean => "Boolean"
  | int => "Int"
  | long => "Long"
  | double => "Double"
  | string => "Str"
  | list => "List"
  | node => "Node"
  | null => "Null"
  | object => "Object"
  | host className => "Class(" ++ Text.quoted className ++ ")"

/-- A list of types as it stands between the parentheses of a signature. -/
def joinNames (types : List CallType) : String := ",".intercalate (types.map name)

def memberSignature (member : String) (types : List CallType) : String :=
  member ++ "(" ++ joinNames types ++ ")"

def signature (className member : String) (types : List CallType) : String :=
  className ++ "." ++ memberSignature member types

def inspectAll (types : List CallType) : String := "[" ++ ", ".intercalate (types.map inspect) ++ "]"

end CallType

namespace Value

/-- The type of an argument; integers of either width are long. -/
def callType : Value → CallType
  | null => .null
  | bool _ => .boolean
  | int _ => .long
  | long _ => .long
  | double _ => .double
  | text _ => .string
  | list _ => .list
  | node _ => .node
  | object o => .host o.className

end Value

namespace BaseType

/-- The parameter type that a base type declares. Objects of any class share one. -/
def declared : BaseType → CallType
  | bool => .boolean
  | int => .int
  | long => .long
  | double => .double
  | text => .string
  | list => .list
  | graph => .node
  | value => .object
  | object => .object

end BaseType

namespace HostType

/-- The parameter type that a host type declares. An optional primitive declares none, since a
primitive parameter never accepts null. -/
def declared? : HostType → Option CallType
  | plain base => some base.declared
  | optional base => if base.declared.isPrimitive then none else some base.declared

end HostType

/-- A host type that can be the type of a parameter. -/
structure SlotType where
  type : HostType
  declared : CallType
  declares : type.declared? = some declared

namespace SlotType

/-- The slot of a host type, if it declares a parameter type. -/
def of? (type : HostType) : Option SlotType :=
  match h : type.declared? with
  | some declared => some ⟨type, declared, h⟩
  | none => none

end SlotType

end HostCall
