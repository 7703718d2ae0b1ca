import HostCall.Number.Shortest
import HostCall.Text.Quoted
import HostCall.Value.Basic

/-!
# Text forms of values

The rendered form is what a template shows: bare text, a list in brackets, a graph by its name
alone. The inspected form names the kind of the value and quotes text.
-/

namespace HostCall.Value

mutual

/-- The text that a template shows. Where an object stands in memory is not told: its place after
the class name is a star. -/
def render : Value → String
  | null => "null"
  | bool b => if b then "true" else "false"
  | int n => toString n.toInt
  | long n => toString n.toInt
  | double x => x.render
  | text s => s
  | list items => "[" ++ ", ".intercalate (renderAll items) ++ "]"
  | node g => g.name
  | object o => o.className ++ "@*"

def renderAll : List Value → List String
  | [] => []
  | v :: vs => render v :: renderAll vs

end

mutual

/-- The form for diagnostics: the kind, then the content. -/
def inspect : Value → String
  | null => "Value::Null"
  | bool b => "Value::Bool(" ++ (if b then "true" else "false") ++ ")"
  | int n => "Value::Int(" ++ toString n.toInt ++ ")"
  | long n => "Value::Long(" ++ toString n.toInt ++ ")"
  | double x => "Value::Double(" ++ x.render ++ ")"
  | text s => "Value::Str(" ++ Text.quoted s ++ ")"
  | list items => "Value::List([" ++ ", ".intercalate (inspectAll items) ++ "])"
  | node g => "Value::Node(" ++ Text.quoted g.name ++ ")"
  | object o => "Value::Object(" ++ o.className ++ ")"

def inspectAll : List Value → List String
  | [] => []
  | v :: vs => inspect v :: inspectAll vs

end

end HostCall.Value

namespace HostCall.ObjectRef

/-- The form of a reference for diagnostics; it tells the class alone. -/
def inspect (o : ObjectRef) : String := "ObjectRef \x7b class: " ++ Text.quoted o.className ++ " \x7d"

end HostCall.ObjectRef
