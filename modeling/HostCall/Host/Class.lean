import HostCall.Host.Code

/-!
# Host classes

A class offers constructors, fields and methods over instances of one native type. A draft may
declare anything; a class is a draft without two constructors of one parameter list, two fields of
one name, or two methods of one name and parameter list.
-/

namespace HostCall

variable {σ : Type}

/-- A live host object: its native type and its state. -/
structure Instance (σ : Type) where
  native : String
  state : σ

/-- A way to make an instance, from nothing or from a configuration. -/
inductive Constructor (σ : Type) where
  | plain (make : HostRun σ)
  | configured (make : Graph → HostRun σ)

namespace Constructor

def params : Constructor σ → List CallType
  | plain _ => []
  | configured _ => [.node]

def inspect (c : Constructor σ) : String :=
  "ConstructorDescriptor(" ++ CallType.joinNames c.params ++ ")"

/-- Runs the code of a constructor on arguments of the right number. A configuration that is no
node is refused. -/
def run : Constructor σ → ArgumentList → HostRun σ
  | plain make, _ => make
  | configured make, args =>
    match ArgumentList.get args (.plain .graph) 0 with
    | .error e => { outcome := .failed e }
    | .ok config => make config

end Constructor

structure Field (σ : Type) where
  name : String
  read : σ → Response

namespace Field

def inspect (f : Field σ) : String := "FieldDescriptor(" ++ f.name ++ ")"

end Field

/-- A method: its code takes the state and the arguments to an answer and the state after it. -/
structure Method (σ : Type) where
  name : String
  params : List CallType
  body : σ → ArgumentList → HostRun Value × σ

namespace Method

def arity (m : Method σ) : Nat := m.params.length

def signature (m : Method σ) : String := CallType.memberSignature m.name m.params

def inspect (m : Method σ) : String := "MethodDescriptor(" ++ m.signature ++ ")"

/-- Code that fails before it touches the state. -/
def refuse (s : σ) (e : HostError) : HostRun Value × σ := ({ outcome := .failed e }, s)

def typed0 (name : String) (f : σ → HostRun Value × σ) : Method σ :=
  { name, params := [], body := fun s _ => f s }

def typed1 (name : String) (a : SlotType) (f : σ → a.type.Carrier → HostRun Value × σ) :
    Method σ where
  name
  params := [a.declared]
  body s args :=
    match ArgumentList.get args a.type 0 with
    | .error e => refuse s e
    | .ok x => f s x

/-- A method over two typed arguments; the first one is converted first. -/
def typed2 (name : String) (a b : SlotType)
    (f : σ → a.type.Carrier → b.type.Carrier → HostRun Value × σ) : Method σ where
  name
  params := [a.declared, b.declared]
  body s args :=
    match ArgumentList.get args a.type 0 with
    | .error e => refuse s e
    | .ok x =>
      match ArgumentList.get args b.type 1 with
      | .error e => refuse s e
      | .ok y => f s x y

end Method

inductive ClassError where
  | duplicateMethod (className signature : String)
  | duplicateField (className name : String)
  | duplicateConstructor (className : String) (params : List CallType)
deriving DecidableEq

namespace ClassError

def message : ClassError → String
  | duplicateMethod className signature =>
    "duplicate method " ++ signature ++ " in class " ++ className
  | duplicateField className name => "duplicate field " ++ name ++ " in class " ++ className
  | duplicateConstructor className params =>
    "duplicate constructor (" ++ CallType.joinNames params ++ ") in class " ++ className

end ClassError

/-- What a class declares, each kind of member in the order of declaration. -/
structure ClassDraft (σ : Type) where
  name : String
  /-- The name of the type that instances have in the host. -/
  native : String
  supertypes : List String := []
  constructors : List (Constructor σ) := []
  fields : List (Field σ) := []
  methods : List (Method σ) := []

/-- A draft without ambiguous members. -/
structure HostClass (σ : Type) extends ClassDraft σ where
  constructors_distinct : (constructors.map Constructor.params).Nodup
  fields_distinct : (fields.map Field.name).Nodup
  methods_distinct : (methods.map fun m => (m.name, m.params)).Nodup

/-- The first element of a list whose key an earlier element has, or a key of `seen`. -/
def firstRepeat {α β : Type} [DecidableEq β] (key : α → β) (seen : List β) : List α → Option α
  | [] => none
  | a :: rest => if key a ∈ seen then some a else firstRepeat key (key a :: seen) rest

/-- No element repeats a key exactly when the keys are distinct and none of them was seen. -/
theorem firstRepeat_eq_none_iff {α β : Type} [DecidableEq β] {key : α → β} {seen : List β}
    {xs : List α} :
    firstRepeat key seen xs = none ↔
      (xs.map key).Nodup ∧ ∀ a ∈ xs, key a ∉ seen := by
  induction xs generalizing seen with
  | nil => simp [firstRepeat]
  | cons a rest ih =>
    by_cases h : key a ∈ seen
    · simp [firstRepeat, h]
    · simp only [firstRepeat, h, ↓reduceIte, ih, List.map_cons, List.nodup_cons, List.mem_cons,
        forall_eq_or_imp, List.mem_map, not_exists, not_and, not_or]
      constructor
      · rintro ⟨hd, hs⟩
        exact ⟨⟨fun x hx e => (hs x hx).1 e, hd⟩, not_false, fun x hx => (hs x hx).2⟩
      · rintro ⟨⟨hn, hd⟩, -, hs⟩
        exact ⟨hd, fun x hx => ⟨hn x hx, hs x hx⟩⟩

private theorem nodup_of_firstRepeat {α β : Type} [DecidableEq β] {key : α → β} {xs : List α}
    (h : firstRepeat key [] xs = none) : (xs.map key).Nodup :=
  (firstRepeat_eq_none_iff.mp h).1

namespace ClassDraft

/-- Makes a class of a draft. Constructors are looked at first, then fields, then methods, and
the first member that repeats an earlier one is named. -/
def build (d : ClassDraft σ) : Except ClassError (HostClass σ) :=
  match hc : firstRepeat Constructor.params [] d.constructors with
  | some c => .error (.duplicateConstructor d.name c.params)
  | none =>
    match hf : firstRepeat Field.name [] d.fields with
    | some f => .error (.duplicateField d.name f.name)
    | none =>
      match hm : firstRepeat (fun m : Method σ => (m.name, m.params)) [] d.methods with
      | some m => .error (.duplicateMethod d.name m.signature)
      | none =>
        .ok { d with
          constructors_distinct := nodup_of_firstRepeat hc
          fields_distinct := nodup_of_firstRepeat hf
          methods_distinct := nodup_of_firstRepeat hm }

/-- A class declares what the draft that it was made of declares. -/
theorem toClassDraft_of_build {d : ClassDraft σ} {c : HostClass σ} (h : d.build = .ok c) :
    c.toClassDraft = d := by
  unfold build at h
  split at h
  · cases h
  · split at h
    · cases h
    · split at h
      · cases h
      · exact congrArg HostClass.toClassDraft (Except.ok.inj h).symm

end ClassDraft

namespace HostClass

/-- The constructor of exactly these parameter types. -/
def constructor? (c : HostClass σ) (params : List CallType) : Option (Constructor σ) :=
  c.constructors.find? fun k => k.params == params

theorem params_of_constructor? {c : HostClass σ} {params : List CallType} {k : Constructor σ}
    (h : c.constructor? params = some k) : k.params = params := by
  have hk := List.find?_some h
  exact eq_of_beq hk

theorem plain_of_constructor? {c : HostClass σ} {k : Constructor σ}
    (h : c.constructor? [] = some k) : ∃ make, k = .plain make := by
  have hparams := params_of_constructor? h
  cases k with
  | plain make => exact ⟨make, rfl⟩
  | configured make => cases hparams

theorem configured_of_constructor? {c : HostClass σ} {k : Constructor σ}
    (h : c.constructor? [.node] = some k) : ∃ make, k = .configured make := by
  have hparams := params_of_constructor? h
  cases k with
  | plain make => cases hparams
  | configured make => exact ⟨make, rfl⟩

/-- Makes an instance. The number of arguments is checked before the code runs. -/
def construct (c : HostClass σ) (k : Constructor σ) (args : ArgumentList) :
    Traced (Except HostError (Instance σ)) :=
  if args.length = k.params.length then do
    let run := k.run args
    .events run.events
    return run.outcome.contain.map fun state => { native := c.native, state }
  else return .error (.arity k.params.length args.length)

def readField (c : HostClass σ) (f : Field σ) (i : Instance σ) :
    Traced (Except HostError Value) :=
  if i.native = c.native then do
    let response := f.read i.state
    .events response.events
    return response.contain
  else return .error (.receiver c.native)

/-- Runs a method on an instance. The number of arguments is checked before the instance. -/
def call (c : HostClass σ) (m : Method σ) (i : Instance σ) (args : ArgumentList) :
    Traced (Except HostError Value × Instance σ) :=
  if args.length = m.arity then
    if i.native = c.native then do
      let (run, state) := m.body i.state args
      .events run.events
      return (run.outcome.contain, { i with state })
    else return (.error (.receiver c.native), i)
  else return (.error (.arity m.arity args.length), i)

/-- The form for diagnostics: all members in the order of declaration. -/
def inspect (c : HostClass σ) : String :=
  let list (items : List String) := "[" ++ ", ".intercalate items ++ "]"
  "ClassDescriptor \x7b name: " ++ Text.quoted c.name ++
    ", supertypes: " ++ list (c.supertypes.map Text.quoted) ++
    ", constructors: " ++ list (c.constructors.map Constructor.inspect) ++
    ", fields: " ++ list (c.fields.map Field.inspect) ++
    ", methods: " ++ list (c.methods.map Method.inspect) ++ " \x7d"

end HostClass

end HostCall
