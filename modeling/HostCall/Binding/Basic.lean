import HostCall.Host.Registry

/-!
# Bindings

A binding is a live instance of a registered class together with the tables in which calls look
up its members. With a configuration the configured constructor makes the instance if the class
has one; in all other cases the plain one does. A constructor that fails is not replaced by the
other one.
-/

namespace HostCall

variable {σ : Type}

inductive BindError where
  | classNotFound (typeName : String)
  | noUsableConstructor (className : String)
  | invalidOptions (typeName reason : String)
  | constructorFailed (className : String) (cause : HostError)
deriving DecidableEq

namespace BindError

def message : BindError → String
  | classNotFound typeName => "class " ++ typeName ++ " not found"
  | noUsableConstructor className => "class " ++ className ++ " has no usable constructor"
  | invalidOptions typeName reason => "invalid options for " ++ typeName ++ ": " ++ reason
  | constructorFailed className cause =>
    "class " ++ className ++ " could not be instantiated: " ++ cause.message

def causes : BindError → List String
  | constructorFailed _ cause => cause.message :: cause.causes
  | _ => []

end BindError

/-- The fields of a class by name. -/
structure FieldTable (σ : Type) where
  entries : Std.TreeMap String (Field σ)

namespace FieldTable

/-- The table of a list of fields; of two fields of one name the later one counts. -/
def ofList (fields : List (Field σ)) : FieldTable σ :=
  ⟨fields.foldl (fun entries f => entries.insert f.name f) {}⟩

def get? (t : FieldTable σ) (name : String) : Option (Field σ) := t.entries[name]?

def contains (t : FieldTable σ) (name : String) : Bool := t.entries.contains name

/-- The names of all fields, in ascending order. -/
def names (t : FieldTable σ) : List String := t.entries.keys

def size (t : FieldTable σ) : Nat := t.entries.size

end FieldTable

/-- An instance of a class and the tables of its members. -/
structure Binding (σ : Type) where
  owner : HostClass σ
  receiver : Instance σ
  fields : FieldTable σ
  methods : List (Method σ)

namespace Binding

def ofInstance (c : HostClass σ) (i : Instance σ) : Binding σ :=
  { owner := c, receiver := i, fields := .ofList c.fields, methods := c.methods }

def inspect (b : Binding σ) : String :=
  "BoundInstance \x7b class: " ++ Text.quoted b.owner.name ++ ", fields: " ++
    toString b.fields.size ++ ", methods: " ++ toString b.methods.length ++ " \x7d"

end Binding

namespace HostClass

def instantiatePlain (c : HostClass σ) : Traced (Except BindError (Instance σ)) :=
  match c.constructor? [] with
  | none => return .error (.noUsableConstructor c.name)
  | some k => do
    let made ← c.construct k []
    return made.mapError (.constructorFailed c.name)

def instantiate (c : HostClass σ) (config : Option NodeView) :
    Traced (Except BindError (Instance σ)) :=
  match config with
  | none => c.instantiatePlain
  | some config =>
    match c.constructor? [.node] with
    | some k => do
      .log .trace (c.name ++ ": using config constructor")
      let made ← c.construct k [.node config.copy]
      return made.mapError (.constructorFailed c.name)
    | none => do
      .log .trace (c.name ++ ": no config constructor, trying default")
      c.instantiatePlain

end HostClass

namespace Registry

/-- Binds a new instance of the class of a name. -/
def bind (r : Registry σ) (typeName : String) (config : Option NodeView) :
    Traced (Except BindError (Binding σ)) :=
  match r.get? typeName with
  | none => return .error (.classNotFound typeName)
  | some c => do
    match ← c.instantiate config with
    | .error e => return .error e
    | .ok i =>
      let b := Binding.ofInstance c i
      .log .debug ("bound " ++ c.name ++ " (" ++ toString b.fields.size ++ " fields, " ++
        toString b.methods.length ++ " methods)")
      return .ok b

end Registry

end HostCall
