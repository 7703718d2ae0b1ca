import HostCall.Graph.Outline
import HostCall.Proofs.Graph.Paths

/-!
# Outlines

An outline has a line for each path into the graph, in depth-first order, which is indented by the
length of the path. Where no name holds a line end or begins with a blank, the lines can be told
apart and the blanks of each line tell the depth of its node; from depths and names in depth-first
order the graph is recovered, so no other graph has the same outline.
-/

namespace HostCall.Graph

variable {g h : Graph} {gs hs : List Graph} {depth : Nat} {lines rest rest' : List String}

/-- No name of a graph holds a line end or begins with a blank. -/
def Legible (g : Graph) : Prop :=
  ∀ path n, g.at? path = some n → '\n' ∉ n.name.toList ∧ n.name.toList.head? ≠ some ' '

theorem Legible.name (h : Legible g) :
    '\n' ∉ g.name.toList ∧ g.name.toList.head? ≠ some ' ' :=
  h [] g rfl

theorem Legible.of_mem_children (hg : g.Legible) {c : Graph} (hc : c ∈ g.children) :
    c.Legible := by
  intro path n hn
  obtain ⟨i, hi⟩ := List.getElem?_of_mem hc
  exact hg (i :: path) n (at?_cons_eq_some_iff.mpr ⟨c, hi, hn⟩)

theorem legible_iff :
    g.Legible ↔ ∀ path ∈ g.paths, ∀ n ∈ g.at? path,
      '\n' ∉ n.name.toList ∧ n.name.toList.head? ≠ some ' ' := by
  constructor
  · intro hg path _ n hn
    exact hg path n hn
  · intro hg path n hn
    have hpath : path ∈ g.paths := mem_paths.mpr (by rw [hn]; rfl)
    exact hg path hpath n hn

instance : DecidablePred Legible := fun _ => decidable_of_iff _ legible_iff.symm

/-! ## Lines and nodes -/

theorem toList_outlineLine (depth : Nat) (name : String) :
    (outlineLine depth name).toList = List.replicate (2 * depth) ' ' ++ name.toList := by
  rw [outlineLine, String.toList_append, String.toList_ofList]

/-- A line of an outline shows the node at the end of a path from a node of some depth. -/
def Shows (g : Graph) (depth : Nat) (path : List Nat) (line : String) : Prop :=
  ∃ n, g.at? path = some n ∧ line = outlineLine (depth + path.length) n.name

mutual

theorem forall₂_outlineLines : ∀ (g : Graph) (depth : Nat),
    List.Forall₂ (g.Shows depth) g.paths (g.outlineLines depth)
  | node name children, depth => by
    rw [paths, outlineLines]
    refine .cons ⟨_, rfl, rfl⟩ ?_
    refine (forall₂_outlineLinesAll children 0 (depth + 1)).imp ?_
    intro path line hline
    obtain ⟨j, rest, c, hpath, hc, n, hn, hshown⟩ := hline
    subst hpath
    rw [Nat.zero_add]
    refine ⟨n, at?_cons_eq_some_iff.mpr ⟨c, hc, hn⟩, ?_⟩
    rw [hshown, List.length_cons, Nat.add_right_comm, Nat.add_assoc]

theorem forall₂_outlineLinesAll : ∀ (gs : List Graph) (i depth : Nat),
    List.Forall₂ (fun path line => ∃ j rest c, path = (i + j) :: rest ∧ gs[j]? = some c ∧
      c.Shows depth rest line) (pathsFrom i gs) (outlineLinesAll depth gs)
  | [], i, depth => by
    rw [pathsFrom, outlineLinesAll]
    exact .nil
  | g :: gs, i, depth => by
    rw [pathsFrom, outlineLinesAll]
    apply List.rel_append
    · rw [List.forall₂_map_left_iff]
      refine (forall₂_outlineLines g depth).imp ?_
      intro rest line hline
      exact ⟨0, rest, g, rfl, rfl, hline⟩
    · refine (forall₂_outlineLinesAll gs (i + 1) depth).imp ?_
      intro path line hline
      obtain ⟨j, rest, c, hpath, hc, hshown⟩ := hline
      refine ⟨j + 1, rest, c, ?_, hc, hshown⟩
      rw [hpath, Nat.add_right_comm, Nat.add_assoc]

end

/-- Lines without line ends in them are recovered from the text that they make up. -/
theorem splitOn_join {lines : List String} (h : ∀ line ∈ lines, '\n' ∉ line.toList) :
    (String.join (lines.map (· ++ "\n"))).toList.splitOn '\n' =
      lines.map String.toList ++ [[]] := by
  have hjoin : (String.join (lines.map (· ++ "\n"))).toList =
      ['\n'].intercalate (lines.map String.toList ++ [[]]) := by
    rw [String.toList_join]
    induction lines with
    | nil => rfl
    | cons line lines ih =>
      have hrest := ih fun l hl => h l (List.mem_cons_of_mem line hl)
      rw [List.map_cons, List.flatMap_cons, hrest, String.toList_append]
      cases lines <;> simp [List.intercalate]
  rw [hjoin]
  apply List.splitOn_intercalate
  · intro line hline
    rw [List.mem_append, List.mem_map] at hline
    rcases hline with ⟨l, hl, rfl⟩ | hline
    · exact h l hl
    · rw [List.mem_singleton.mp hline]
      exact List.not_mem_nil
  · simp

theorem Legible.newline_notMem (hg : g.Legible) :
    ∀ line ∈ g.outlineLines depth, '\n' ∉ line.toList := by
  have hlines : List.Forall₂ (fun line path => '\n' ∉ line.toList ∧ g.Shows depth path line)
      (g.outlineLines depth) g.paths := by
    refine (forall₂_outlineLines g depth).flip.imp ?_
    intro line path hline
    obtain ⟨n, hn, hshown⟩ := hline
    have hname : '\n' ∉ n.name.toList := (hg path n hn).1
    refine ⟨?_, n, hn, hshown⟩
    rw [hshown, toList_outlineLine, List.mem_append, List.mem_replicate]
    simp [hname]
  exact ((List.forall₂_and_left _ _).mp hlines).1

/-! ## Graphs with one outline -/

/-- The number of blanks that a line begins with. -/
def indent (line : String) : Nat := (line.toList.takeWhile (· == ' ')).length

theorem indent_outlineLine (depth : Nat) {name : String} (hname : name.toList.head? ≠ some ' ') :
    indent (outlineLine depth name) = 2 * depth := by
  have hblanks : ∀ c ∈ List.replicate (2 * depth) ' ', (c == ' ') = true := by
    intro c hc
    rw [List.eq_of_mem_replicate hc]
    rfl
  have hrest : name.toList.takeWhile (· == ' ') = [] := by
    cases hcs : name.toList with
    | nil => rfl
    | cons c cs =>
      have hc : c ≠ ' ' := by
        intro hblank
        rw [hcs, hblank] at hname
        exact hname rfl
      exact List.takeWhile_cons_of_neg (by simpa using hc)
  rw [indent, toList_outlineLine, List.takeWhile_append_of_pos hblanks, hrest, List.append_nil,
    List.length_replicate]

theorem outlineLines_eq (depth : Nat) (g : Graph) :
    g.outlineLines depth = outlineLine depth g.name :: outlineLinesAll (depth + 1) g.children := by
  cases g
  rw [outlineLines]
  rfl

/-- The first of some lines, if there is one, stands less deep. -/
def Leaves (depth : Nat) (lines : List String) : Prop :=
  ∀ line, lines.head? = some line → indent line < 2 * depth

theorem not_leaves_outlineLines (hg : g.Legible) :
    ¬ Leaves depth (g.outlineLines depth ++ lines) := by
  intro hleaves
  rw [outlineLines_eq, List.cons_append] at hleaves
  have hlt := hleaves _ rfl
  rw [indent_outlineLine depth hg.name.2] at hlt
  exact Nat.lt_irrefl _ hlt

/-- What follows a node is less deep than its children: a sibling, or what follows all siblings. -/
theorem Leaves.outlineLinesAll (hgs : ∀ g ∈ gs, g.Legible) (hrest : Leaves depth rest) :
    Leaves (depth + 1) (outlineLinesAll depth gs ++ rest) := by
  intro line hline
  cases gs with
  | nil =>
    rw [Graph.outlineLinesAll, List.nil_append] at hline
    have hlt := hrest line hline
    omega
  | cons g gs =>
    rw [Graph.outlineLinesAll, outlineLines_eq, List.cons_append, List.cons_append] at hline
    cases Option.some.inj hline
    rw [indent_outlineLine depth (hgs g List.mem_cons_self).name.2]
    omega

mutual

/-- Where lines that stand less deep follow, the lines of a graph end where its outline does. -/
theorem eq_of_outlineLines_append : ∀ (g h : Graph) (depth : Nat) (rest rest' : List String),
    g.Legible → h.Legible → Leaves (depth + 1) rest → Leaves (depth + 1) rest' →
    g.outlineLines depth ++ rest = h.outlineLines depth ++ rest' → g = h ∧ rest = rest'
  | node name children, node name' children', depth, rest, rest', hg, hh, hrest, hrest', e => by
    rw [outlineLines, outlineLines, List.cons_append, List.cons_append, List.cons.injEq] at e
    have hname : name = name' := (String.append_right_inj _).mp e.1
    have hchildren := eq_of_outlineLinesAll_append children children' (depth + 1) rest rest'
      (fun _ => hg.of_mem_children) (fun _ => hh.of_mem_children) hrest hrest' e.2
    rw [hname, hchildren.1]
    exact ⟨rfl, hchildren.2⟩

theorem eq_of_outlineLinesAll_append : ∀ (gs hs : List Graph) (depth : Nat)
    (rest rest' : List String), (∀ g ∈ gs, g.Legible) → (∀ h ∈ hs, h.Legible) →
    Leaves depth rest → Leaves depth rest' →
    outlineLinesAll depth gs ++ rest = outlineLinesAll depth hs ++ rest' → gs = hs ∧ rest = rest'
  | [], [], depth, rest, rest', _, _, _, _, e => by
    rw [outlineLinesAll, List.nil_append, List.nil_append] at e
    exact ⟨rfl, e⟩
  | [], h :: hs, depth, rest, rest', _, hhs, hrest, _, e => by
    -- what follows would begin with a line of this depth
    rw [outlineLinesAll, outlineLinesAll, List.nil_append, List.append_assoc] at e
    rw [e] at hrest
    exact absurd hrest (not_leaves_outlineLines (hhs h List.mem_cons_self))
  | g :: gs, [], depth, rest, rest', hgs, _, _, hrest', e => by
    rw [outlineLinesAll, outlineLinesAll, List.nil_append, List.append_assoc] at e
    rw [← e] at hrest'
    exact absurd hrest' (not_leaves_outlineLines (hgs g List.mem_cons_self))
  | g :: gs, h :: hs, depth, rest, rest', hgs, hhs, hrest, hrest', e => by
    -- the siblings behind the first one and all that follows them stand less deep than its children
    rw [List.forall_mem_cons] at hgs hhs
    rw [outlineLinesAll, outlineLinesAll, List.append_assoc, List.append_assoc] at e
    have hfirst := eq_of_outlineLines_append g h depth _ _ hgs.1 hhs.1
      (hrest.outlineLinesAll hgs.2) (hrest'.outlineLinesAll hhs.2) e
    have hothers := eq_of_outlineLinesAll_append gs hs depth rest rest' hgs.2 hhs.2 hrest hrest'
      hfirst.2
    rw [hfirst.1, hothers.1]
    exact ⟨rfl, hothers.2⟩

end

theorem splitOn_outline (hg : g.Legible) :
    g.outline.toList.splitOn '\n' = (g.outlineLines 0).map String.toList ++ [[]] :=
  splitOn_join hg.newline_notMem

theorem eq_of_outline (hg : g.Legible) (hh : h.Legible) (e : g.outline = h.outline) : g = h := by
  have hnone : Leaves 1 [] := by
    intro line hline
    cases hline
  have hsplit : (g.outlineLines 0).map String.toList ++ [[]] =
      (h.outlineLines 0).map String.toList ++ [[]] := by
    rw [← splitOn_outline hg, ← splitOn_outline hh, e]
  have hmap := List.append_cancel_right hsplit
  have hlines : g.outlineLines 0 = h.outlineLines 0 :=
    List.map_injective_iff.mpr (fun _ _ => String.toList_inj.mp) hmap
  have happend : g.outlineLines 0 ++ [] = h.outlineLines 0 ++ [] := by rw [hlines]
  exact (eq_of_outlineLines_append g h 0 [] [] hg hh hnone hnone happend).1

/-- What the outline of a graph tells. -/
structure Outlined (g : Graph) : Prop where
  /-- The listed paths are all those that lead to a node. -/
  reaches : ∀ path, path ∈ g.paths ↔ (g.at? path).isSome = true
  /-- Each node stands before its descendants, and these before the siblings behind it. -/
  depthFirst : g.paths.Pairwise (· < ·)
  /-- Between line ends, the outline has one line for each path: two blanks for each level above
  the node, and the name of the node. -/
  lines : ∃ lines, g.outline.toList.splitOn '\n' = lines ++ [[]] ∧
    List.Forall₂ (fun path line => ∃ n, g.at? path = some n ∧
      line = List.replicate (2 * path.length) ' ' ++ n.name.toList) g.paths lines
  /-- No other graph has this outline. -/
  unique : ∀ h : Graph, h.Legible → h.outline = g.outline → h = g

/-- The outline of a graph with legible names shows each node once and tells the graph from all
others. -/
theorem outline_unambiguous (hg : g.Legible) : g.Outlined where
  reaches _ := mem_paths
  depthFirst := pairwise_paths g
  lines := by
    refine ⟨_, splitOn_outline hg, ?_⟩
    rw [List.forall₂_map_right_iff]
    refine (forall₂_outlineLines g 0).imp ?_
    intro path line hline
    obtain ⟨n, hn, hshown⟩ := hline
    refine ⟨n, hn, ?_⟩
    rw [hshown, toList_outlineLine, Nat.zero_add]
  unique _ hh e := eq_of_outline hh hg e

end HostCall.Graph

namespace HostCall

namespace Trellis

/-- A graph with empty names at two depths, in which a node with children has a sibling. -/
def graph : Graph := .node "" [.node "bar" [.leaf "", .leaf "knot"], .leaf ""]

end Trellis

theorem trellis_outline :
    Trellis.graph.Legible ∧ Trellis.graph.outline = "\n  bar\n    \n    knot\n  \n" ∧
      Trellis.graph.Outlined := by
  have hg : Trellis.graph.Legible := by decide
  exact ⟨hg, by decide, Graph.outline_unambiguous hg⟩

end HostCall
