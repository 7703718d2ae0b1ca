import HostCall.Graph.Basic
import HostCall.Number.Binary64

/-!
# Values

Values flow between templates and host objects. Scalars are plain data, an unreduced argument
travels as a graph, and a host object travels as a reference: a class name and an identity.
-/

namespace HostCall

/-- What a host object carries inside; only host code looks at it. -/
inductive Payload where
  | none
  | number (n : Int64)
  | text (s : String)
deriving DecidableEq, Inhabited

/-- A reference to a host object. Two references with one identity are the same object. -/
structure ObjectRef where
  className : String
  identity : String
  payload : Payload
deriving DecidableEq, Inhabited

namespace ObjectRef

/-- Whether two references are to one object, whatever their class names are. -/
def same (a b : ObjectRef) : Bool := a.identity == b.identity

end ObjectRef

inductive Value where
  | null
  | bool (b : Bool)
  | int (n : Int32)
  | long (n : Int64)
  | double (x : Binary64)
  | text (s : String)
  | list (items : List Value)
  | node (g : Graph)
  | object (o : ObjectRef)
deriving Inhabited

namespace Value

/-- The name of the kind of a value; an object's kind is its class. -/
def kindName : Value → String
  | null => "null"
  | bool _ => "boolean"
  | int _ => "int"
  | long _ => "long"
  | double _ => "double"
  | text _ => "string"
  | list _ => "list"
  | node _ => "node"
  | object o => o.className

def isNull : Value → Bool
  | null => true
  | _ => false

def bool? : Value → Option Bool
  | bool b => some b
  | _ => none

/-- The integer of either width. -/
def integer? : Value → Option Int64
  | int n => some n.toInt64
  | long n => some n
  | _ => none

def double? : Value → Option Binary64
  | double x => some x
  | _ => none

def text? : Value → Option String
  | text s => some s
  | _ => none

def list? : Value → Option (List Value)
  | list items => some items
  | _ => none

def node? : Value → Option Graph
  | node g => some g
  | _ => none

def object? : Value → Option ObjectRef
  | object o => some o
  | _ => none

mutual

/-- Equality of values: numbers compare as numbers, so NaN equals nothing, and objects compare by
identity. Values of different kinds differ. -/
def same : Value → Value → Bool
  | null, null => true
  | bool a, bool b => a == b
  | int a, int b => a == b
  | long a, long b => a == b
  | double a, double b => a.same b
  | text a, text b => a == b
  | list a, list b => sameAll a b
  | node a, node b => a == b
  | object a, object b => a.same b
  | _, _ => false

def sameAll : List Value → List Value → Bool
  | [], [] => true
  | a :: as, b :: bs => same a b && sameAll as bs
  | _, _ => false

end

instance : BEq Value := ⟨same⟩

end Value

end HostCall
