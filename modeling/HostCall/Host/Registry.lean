import Std.Data.TreeMap
import HostCall.Host.Class
import HostCall.Types.Hierarchy

/-!
# Class registries

A registry keeps classes under their own names. A class that is registered again replaces the
former one, with a warning. Names are listed in the order of their code points.
-/

namespace HostCall

structure Registry (σ : Type) where
  classes : Std.TreeMap String (HostClass σ)
  /-- Every class stands under its own name. -/
  name_eq : ∀ {name : String} {c : HostClass σ}, classes[name]? = some c → c.name = name

namespace Registry

variable {σ : Type}

def empty : Registry σ where
  classes := {}
  name_eq h := by simp at h

def get? (r : Registry σ) (name : String) : Option (HostClass σ) := r.classes[name]?

def contains (r : Registry σ) (name : String) : Bool := r.classes.contains name

/-- The names of all classes, in ascending order. -/
def names (r : Registry σ) : List String := r.classes.keys

def size (r : Registry σ) : Nat := r.classes.size

/-- The registry with a class put under its name. -/
def insert (r : Registry σ) (c : HostClass σ) : Registry σ where
  classes := r.classes.insert c.name c
  name_eq {name d} h := by
    rw [Std.TreeMap.getElem?_insert] at h
    split at h
    · rename_i he
      obtain rfl := Option.some.inj h
      exact Std.LawfulEqCmp.eq_of_compare he
    · exact r.name_eq h

/-- Registers a class; answers the one it replaced, if any, and the new registry. -/
def register (r : Registry σ) (c : HostClass σ) :
    Traced (Option (HostClass σ) × Registry σ) := do
  let replaced := r.get? c.name
  if replaced.isSome then
    .log .warn ("class " ++ c.name ++ " registered twice; keeping the newer descriptor")
  return (replaced, r.insert c)

/-- The supertypes that the registered classes declare. -/
def hierarchy (r : Registry σ) : Hierarchy :=
  ⟨r.classes.toList.map fun (name, c) => (name, c.supertypes)⟩

end Registry

end HostCall
