import HostCall.Graph.Basic
import Mathlib.Data.List.Forall2

/-!
# Paths in graphs

A path is a list of child positions, to be followed from a node downwards. The paths that lead to a
node, each put before its extensions and siblings in order, are the paths in lexicographic order:
that is the depth-first order of the nodes.
-/

namespace HostCall.Graph

variable {g : Graph} {gs : List Graph}

/-- The node at the end of a path. -/
def at? (g : Graph) : List Nat → Option Graph
  | [] => some g
  | i :: path => (g.child? i).bind (at? · path)

@[simp] theorem at?_nil (g : Graph) : g.at? [] = some g := rfl

theorem at?_cons_eq_some_iff {i : Nat} {path : List Nat} {n : Graph} :
    g.at? (i :: path) = some n ↔ ∃ c, g.children[i]? = some c ∧ c.at? path = some n :=
  Option.bind_eq_some_iff

theorem isSome_at?_cons_iff {i : Nat} {path : List Nat} :
    (g.at? (i :: path)).isSome = true ↔
      ∃ c, g.children[i]? = some c ∧ (c.at? path).isSome = true := by
  simp only [Option.isSome_iff_exists, at?_cons_eq_some_iff]
  constructor
  · intro h
    obtain ⟨n, c, hc, hn⟩ := h
    exact ⟨c, hc, n, hn⟩
  · intro h
    obtain ⟨c, hc, n, hn⟩ := h
    exact ⟨n, c, hc, hn⟩

mutual

/-- The paths from a node to itself and all its descendants, in depth-first order. -/
def paths : Graph → List (List Nat)
  | node _ children => [] :: pathsFrom 0 children

/-- The paths into siblings, the first of which stands at a position. -/
def pathsFrom (i : Nat) : List Graph → List (List Nat)
  | [] => []
  | c :: cs => (paths c).map (i :: ·) ++ pathsFrom (i + 1) cs

end

theorem mem_pathsFrom {i : Nat} {path : List Nat} :
    path ∈ pathsFrom i gs ↔
      ∃ j rest c, path = (i + j) :: rest ∧ gs[j]? = some c ∧ rest ∈ c.paths := by
  induction gs generalizing i with
  | nil => simp [pathsFrom]
  | cons g gs ih =>
    rw [pathsFrom, List.mem_append, List.mem_map, ih]
    have hnext (j : Nat) : i + 1 + j = i + (j + 1) := by omega
    constructor
    · intro h
      rcases h with ⟨rest, hrest, hpath⟩ | ⟨j, rest, c, hpath, hc, hrest⟩
      · exact ⟨0, rest, g, hpath.symm, rfl, hrest⟩
      · rw [hnext] at hpath
        exact ⟨j + 1, rest, c, hpath, hc, hrest⟩
    · intro h
      obtain ⟨j, rest, c, hpath, hc, hrest⟩ := h
      cases j with
      | zero =>
        cases Option.some.inj hc
        exact .inl ⟨rest, hrest, hpath.symm⟩
      | succ j =>
        rw [← hnext] at hpath
        exact .inr ⟨j, rest, c, hpath, hc, hrest⟩

theorem mem_paths {path : List Nat} : path ∈ g.paths ↔ (g.at? path).isSome = true := by
  induction path generalizing g with
  | nil =>
    cases g
    simp [paths]
  | cons i path ih =>
    obtain ⟨name, children⟩ := g
    rw [paths, List.mem_cons, or_iff_right (List.cons_ne_nil i path), mem_pathsFrom,
      isSome_at?_cons_iff]
    constructor
    · intro h
      obtain ⟨j, rest, c, hpath, hc, hrest⟩ := h
      rw [Nat.zero_add] at hpath
      cases hpath
      exact ⟨c, hc, ih.mp hrest⟩
    · intro h
      obtain ⟨c, hc, hpath⟩ := h
      exact ⟨i, path, c, by rw [Nat.zero_add], hc, ih.mpr hpath⟩

mutual

theorem pairwise_paths : ∀ g : Graph, g.paths.Pairwise (· < ·)
  | node _ children => by
    rw [paths, List.pairwise_cons]
    refine ⟨?_, pairwise_pathsFrom 0 children⟩
    intro path hpath
    obtain ⟨j, rest, c, rfl, -, -⟩ := mem_pathsFrom.mp hpath
    exact List.nil_lt_cons _ rest

theorem pairwise_pathsFrom (i : Nat) : ∀ gs : List Graph, (pathsFrom i gs).Pairwise (· < ·)
  | [] => by
    rw [pathsFrom]
    exact .nil
  | g :: gs => by
    rw [pathsFrom, List.pairwise_append, List.pairwise_map]
    refine ⟨?_, pairwise_pathsFrom (i + 1) gs, ?_⟩
    · exact (pairwise_paths g).imp fun h => List.cons_lt_cons_self.mpr h
    · -- what follows the first sibling stands at later positions
      intro path hpath path' hpath'
      obtain ⟨rest, -, rfl⟩ := List.mem_map.mp hpath
      obtain ⟨j, rest', c, rfl, -, -⟩ := mem_pathsFrom.mp hpath'
      exact List.cons_lt_cons_iff.mpr (.inl (by omega))

end

end HostCall.Graph
