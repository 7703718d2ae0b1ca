/-!
# Graphs

A graph is a name with an ordered list of child graphs. Call expressions, configuration blocks
and unreduced arguments are all graphs. Names are free text and may repeat among siblings.
-/

namespace HostCall

/-- An ordered tree of named nodes. -/
inductive Graph where
  | node (name : String) (children : List Graph)
deriving Inhabited

namespace Graph

def name : Graph → String
  | node name _ => name

def children : Graph → List Graph
  | node _ children => children

def leaf (name : String) : Graph := node name []

/-- The node that an empty document denotes: no name and no children. -/
def empty : Graph := leaf ""

def size (g : Graph) : Nat := g.children.length

/-- Child at a position, counted from zero. -/
def child? (g : Graph) (i : Nat) : Option Graph := g.children[i]?

/-- First direct child of the given name. -/
def get? (g : Graph) (name : String) : Option Graph :=
  g.children.find? fun c => c.name == name

/-- Follows a path of names, taking the first child of each name; the empty path stays put. -/
def descend? (g : Graph) : List String → Option Graph
  | [] => some g
  | name :: path => (g.get? name).bind (descend? · path)

def push (g : Graph) (child : Graph) : Graph := node g.name (g.children ++ [child])

def pushLeaves (g : Graph) (names : List String) : Graph :=
  node g.name (g.children ++ names.map leaf)

/-- Adds a chain of single nodes, each the child of the one before it. -/
def pushChain (g : Graph) : List String → Graph
  | [] => g
  | name :: names => g.push (pushChain (leaf name) names)

mutual

def same : Graph → Graph → Bool
  | node n cs, node m ds => n == m && sameAll cs ds

def sameAll : List Graph → List Graph → Bool
  | [], [] => true
  | c :: cs, d :: ds => same c d && sameAll cs ds
  | _, _ => false

end

mutual

private theorem eq_of_same : ∀ {g h : Graph}, same g h = true → g = h
  | node n cs, node m ds, e => by
    simp only [same, Bool.and_eq_true, beq_iff_eq] at e
    rw [e.1, eq_of_sameAll e.2]

private theorem eq_of_sameAll : ∀ {cs ds : List Graph}, sameAll cs ds = true → cs = ds
  | [], [], _ => rfl
  | c :: cs, d :: ds, e => by
    simp only [sameAll, Bool.and_eq_true] at e
    rw [eq_of_same e.1, eq_of_sameAll e.2]
  | [], _ :: _, e => by simp [sameAll] at e
  | _ :: _, [], e => by simp [sameAll] at e

end

mutual

private theorem same_refl : ∀ g : Graph, same g g = true
  | node _ cs => by simp [same, sameAll_refl cs]

private theorem sameAll_refl : ∀ cs : List Graph, sameAll cs cs = true
  | [] => rfl
  | c :: cs => by simp [sameAll, same_refl c, sameAll_refl cs]

end

/-- The Boolean comparison is equality itself. -/
theorem same_iff {g h : Graph} : same g h = true ↔ g = h :=
  ⟨eq_of_same, fun e => e ▸ same_refl g⟩

instance : DecidableEq Graph := fun _ _ => decidable_of_iff _ same_iff

end Graph

end HostCall
