import HostCall.Host.Class
import HostCall.Types.Hierarchy

/-!
# Method selection

A method whose parameter types are exactly the types of the arguments goes first; otherwise the
first method in the table that accepts them is taken, be it the closest or not.
-/

namespace HostCall

variable {σ : Type}

/-- How a method fits the arguments of a call. -/
inductive Fit where
  | exact
  /-- The parameter types accept the types of the arguments. -/
  | widened
deriving DecidableEq

namespace Fit

def tag : Fit → String
  | exact => "Exact"
  | widened => "Widened"

end Fit

namespace Method

/-- Whether a method has a name and exactly these parameter types. -/
def matchesExactly (m : Method σ) (name : String) (types : List CallType) : Bool :=
  m.name == name && m.params == types

/-- Whether a method has a name, the right number of parameters, and accepts each type. -/
def admits (h : Hierarchy) (m : Method σ) (name : String) (types : List CallType) : Bool :=
  m.name == name && m.arity == types.length &&
    (m.params.zip types).all fun (declared, actual) => h.accepts declared actual

/-- The method of a table that a call by name runs on arguments of some types. -/
def select (h : Hierarchy) (table : List (Method σ)) (name : String) (types : List CallType) :
    Option (Method σ × Fit) :=
  match table.find? fun m => m.matchesExactly name types with
  | some m => some (m, .exact)
  | none => (table.find? fun m => m.admits h name types).map (·, .widened)

end Method

end HostCall
