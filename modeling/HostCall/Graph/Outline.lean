import HostCall.Graph.Basic
import HostCall.Text.Quoted

/-!
# Text forms of graphs

The outline has one line for each node, in depth-first order; each line is two blanks for every
level above the node, and the node's name. The inspected form spells out the structure on one
line.
-/

namespace HostCall.Graph

/-- One line of an outline, without its line end. -/
def outlineLine (depth : Nat) (name : String) : String :=
  String.ofList (List.replicate (2 * depth) ' ') ++ name

mutual

/-- The lines of the outline of a graph that stands at a depth. -/
def outlineLines (depth : Nat) : Graph → List String
  | node name children => outlineLine depth name :: outlineLinesAll (depth + 1) children

/-- The lines of the outlines of several graphs, one after the other. -/
def outlineLinesAll (depth : Nat) : List Graph → List String
  | [] => []
  | c :: cs => outlineLines depth c ++ outlineLinesAll depth cs

end

/-- The outline of a graph; every line, the last one too, has a line end. -/
def outline (g : Graph) : String := String.join ((g.outlineLines 0).map (· ++ "\n"))

mutual

def inspect : Graph → String
  | node name children =>
    "Graph \x7b name: " ++ Text.quoted name ++ ", children: [" ++
      ", ".intercalate (inspectAll children) ++ "] \x7d"

def inspectAll : List Graph → List String
  | [] => []
  | c :: cs => inspect c :: inspectAll cs

end

end HostCall.Graph
