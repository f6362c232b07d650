import LeafPaths.Proofs.Pairing
import LeafPaths.Proofs.RouteText
import LeafPaths.Proofs.Traversal

/-!
Renaming of tokens. Routes are drawn by places and written by tags, and neither
holds the text of a token. So a renaming of all tokens, which may give the same
text to many of them, goes through to the two ends of every context and changes
nothing else. The proof follows the walks: what a walk lists of a renamed tree is
what it lists of the tree, renamed.
-/

namespace LeafPaths

def Kind.mapToken (r : String → String) : Kind → Kind
  | .ident x => .ident (r x)
  | .lit x => .lit (r x)
  | k => k

namespace Kind

theorem token?_mapToken (r : String → String) (k : Kind) :
    (k.mapToken r).token? = k.token?.map r := by
  cases k <;> rfl

theorem tag_mapToken (r : String → String) (k : Kind) : (k.mapToken r).tag = k.tag := by
  cases k <;> rfl

theorem mapToken_eq_functionDecl_iff (r : String → String) (k : Kind) :
    k.mapToken r = .functionDecl ↔ k = .functionDecl := by
  cases k <;> simp [mapToken]

end Kind

namespace Tree

theorem mapTokens_node (r : String → String) (k : Kind) (cs : List Tree) :
    mapTokens r (.node k cs) = .node (k.mapToken r) (mapTokensAll r cs) := by
  cases k <;> rfl

theorem kind_mapTokens (r : String → String) (t : Tree) :
    (t.mapTokens r).kind = t.kind.mapToken r := by
  cases t with
  | node k cs => rw [mapTokens_node, kind, kind]

end Tree

/-- The same place, in the renamed tree. -/
def Node.mapTokens (r : String → String) (n : Node) : Node :=
  { n with tree := n.tree.mapTokens r }

def Leaf.mapTokens (r : String → String) (l : Leaf) : Leaf :=
  ⟨l.above.map (Node.mapTokens r), l.node.mapTokens r⟩

def Triple.mapTokens (r : String → String) (x : Triple) : Triple :=
  ⟨r x.left, x.path, r x.right⟩

/-! ### Routes -/

theorem Node.tag_mapTokens (r : String → String) (n : Node) : (n.mapTokens r).tag = n.tag := by
  rw [Node.tag, Node.tag, Tree.tag, Tree.tag, mapTokens, Tree.kind_mapTokens, Kind.tag_mapToken]

theorem Route.between_mapTokens (r : String → String) (P Q : List Node) :
    between (P.map (Node.mapTokens r)) (Q.map (Node.mapTokens r)) = between P Q := by
  have hsame (p q : Node) : (p.mapTokens r).same (q.mapTokens r) = p.same q := rfl
  exact between_map hsame (Node.tag_mapTokens r) P Q

/-! ### Walks -/

namespace Tree

variable (r : String → String) (origin : Nat)

mutual

theorem leavesFrom_mapTokens (above : List Node) (addr : Address) (t : Tree) :
    (t.mapTokens r).leavesFrom origin (above.map (Node.mapTokens r)) addr =
      (t.leavesFrom origin above addr).map (Leaf.mapTokens r) := by
  cases t with
  | node k cs =>
      have hinner := leavesFromAll_mapTokens (above ++ [⟨origin, addr, .node k cs⟩]) addr 0 cs
      rw [List.map_append, List.map_singleton, Node.mapTokens, mapTokens_node] at hinner
      rw [mapTokens_node, leavesFrom, leavesFrom, hinner, Kind.token?_mapToken, Option.isSome_map]
      split
      · rw [List.map_cons, Leaf.mapTokens, Node.mapTokens, mapTokens_node]
      · rfl

theorem leavesFromAll_mapTokens (above : List Node) (addr : Address) (i : Nat) (ts : List Tree) :
    leavesFromAll origin (above.map (Node.mapTokens r)) addr i (mapTokensAll r ts) =
      (leavesFromAll origin above addr i ts).map (Leaf.mapTokens r) := by
  cases ts with
  | nil => rfl
  | cons t ts =>
      rw [mapTokensAll, leavesFromAll, leavesFromAll, List.map_append,
        leavesFrom_mapTokens above (addr ++ [i]) t, leavesFromAll_mapTokens above addr (i + 1) ts]

end

mutual

theorem functionsFrom_mapTokens (addr : Address) (t : Tree) :
    (t.mapTokens r).functionsFrom origin addr =
      (t.functionsFrom origin addr).map (Node.mapTokens r) := by
  cases t with
  | node k cs =>
      have hinner := functionsFromAll_mapTokens addr 0 cs
      rw [mapTokens_node, functionsFrom, functionsFrom, hinner]
      simp only [Kind.mapToken_eq_functionDecl_iff]
      split
      · rw [List.map_cons, Node.mapTokens, mapTokens_node]
      · rfl

theorem functionsFromAll_mapTokens (addr : Address) (i : Nat) (ts : List Tree) :
    functionsFromAll origin addr i (mapTokensAll r ts) =
      (functionsFromAll origin addr i ts).map (Node.mapTokens r) := by
  cases ts with
  | nil => rfl
  | cons t ts =>
      rw [mapTokensAll, functionsFromAll, functionsFromAll, List.map_append,
        functionsFrom_mapTokens (addr ++ [i]) t, functionsFromAll_mapTokens addr (i + 1) ts]

end

end Tree

theorem Node.leaves_mapTokens (r : String → String) (n : Node) :
    (n.mapTokens r).leaves = n.leaves.map (Leaf.mapTokens r) :=
  Tree.leavesFrom_mapTokens r n.origin [] n.address n.tree

theorem Node.functions_mapTokens (r : String → String) (n : Node) :
    (n.mapTokens r).functions = n.functions.map (Node.mapTokens r) :=
  Tree.functionsFrom_mapTokens r n.origin n.address n.tree

/-! ### Contexts -/

theorem Leaf.path_mapTokens (r : String → String) (l : Leaf) :
    (l.mapTokens r).path = l.path.map (Node.mapTokens r) := by
  simp [Leaf.path, Leaf.mapTokens]

/-- Only what is no leaf has no token to rename. -/
theorem Leaf.token_mapTokens (r : String → String) {l : Leaf} (h : l.node.tree.isLeaf = true) :
    (l.mapTokens r).token = r l.token := by
  rw [Tree.isLeaf, Tree.token?] at h
  obtain ⟨text, htext⟩ := Option.isSome_iff_exists.mp h
  simp [Leaf.token, Leaf.mapTokens, Node.mapTokens, Tree.token?, Tree.kind_mapTokens,
    Kind.token?_mapToken, htext]

theorem Triple.between?_mapTokens (r : String → String) {l m : Leaf}
    (hl : l.node.tree.isLeaf = true) (hm : m.node.tree.isLeaf = true) :
    between? (l.mapTokens r) (m.mapTokens r) = (between? l m).map (Triple.mapTokens r) := by
  rw [between?, between?, Leaf.path_mapTokens, Leaf.path_mapTokens, Route.between_mapTokens,
    Leaf.token_mapTokens r hl, Leaf.token_mapTokens r hm, Option.map_map]
  rfl

theorem Node.ofLeaves_mapTokens (r : String → String) (f : Node) :
    Triple.ofLeaves (f.mapTokens r).leaves =
      (Triple.ofLeaves f.leaves).map (Triple.mapTokens r) := by
  rw [leaves_mapTokens]
  apply Triple.ofLeaves_map
  intro l hl m hm
  obtain ⟨-, -, -, -, hleaf⟩ := chain?_of_mem_leaves hl
  obtain ⟨-, -, -, -, hleaf'⟩ := chain?_of_mem_leaves hm
  exact Triple.between?_mapTokens r hleaf hleaf'

/-- Paths do not depend on the text of tokens: renaming the tokens of a tree, in
whatever way, renames the two ends of its contexts and leaves their order and all
paths as they are. No function gains or loses a leaf. -/
theorem Tree.contexts_mapTokens (r : String → String) (t : Tree) :
    (t.mapTokens r).contexts =
        t.contexts.map (fun x => { x with left := r x.left, right := r x.right }) ∧
      (t.mapTokens r).functionContexts.map FunctionContexts.leafCount =
        t.functionContexts.map FunctionContexts.leafCount := by
  have hfunctions := Node.functions_mapTokens r (Node.root 0 t)
  change (Node.root 0 (t.mapTokens r)).functions = _ at hfunctions
  constructor
  · rw [contexts, contexts, functionContexts, functionContexts, hfunctions]
    simp only [List.flatMap_map, List.map_flatMap, FunctionContexts.ofFunction,
      Node.ofLeaves_mapTokens]
    rfl
  · rw [functionContexts, functionContexts, hfunctions]
    simp [FunctionContexts.ofFunction, Node.leaves_mapTokens, Function.comp_def]

end LeafPaths
