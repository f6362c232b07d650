import LeafPaths.Proofs.Pairing
import LeafPaths.Proofs.RouteText
import LeafPaths.Proofs.StrippedSyntax
import LeafPaths.Proofs.Traversal

/-!
Groups of functions. Modules, implementations and traits only hold functions
together: the contexts of a file are those of its pieces one after the other,
where a piece is a function, a constant or a static that stands in no function.
A constant counts since its type and its value may declare functions.

A context does not tell where its function stands in the file. This is shown for
walks first: a walk that begins further down visits the same nodes, each moved by
the address of the beginning.
-/

namespace LeafPaths

/-! ### Walks from another place -/

/-- The node when the tree that it is in stands at an address of another. -/
def Node.moved (front : Address) (n : Node) : Node := { n with address := front ++ n.address }

def Leaf.moved (front : Address) (l : Leaf) : Leaf :=
  ⟨l.above.map (Node.moved front), l.node.moved front⟩

theorem Node.same_moved (front : Address) (m n : Node) :
    (m.moved front).same (n.moved front) = m.same n := by
  have hplace : (front ++ m.address == front ++ n.address) = (m.address == n.address) := by
    rw [Bool.eq_iff_iff, beq_iff_eq, beq_iff_eq, List.append_cancel_left_eq]
  rw [same, same, moved, moved, hplace]

namespace Tree

variable (origin : Nat) (front : Address)

mutual

theorem visitsFrom_moved (above : List Node) (addr : Address) (t : Tree) :
    t.visitsFrom origin (above.map (Node.moved front)) (front ++ addr) =
      (t.visitsFrom origin above addr).map (Leaf.moved front) := by
  cases t with
  | node k cs =>
      have hinner := visitsFromAll_moved (above ++ [⟨origin, addr, .node k cs⟩]) addr 0 cs
      rw [List.map_append, List.map_singleton, Node.moved] at hinner
      rw [visitsFrom, visitsFrom, hinner, List.map_cons]
      rfl

theorem visitsFromAll_moved (above : List Node) (addr : Address) (i : Nat) (ts : List Tree) :
    visitsFromAll origin (above.map (Node.moved front)) (front ++ addr) i ts =
      (visitsFromAll origin above addr i ts).map (Leaf.moved front) := by
  cases ts with
  | nil => rfl
  | cons t ts =>
      rw [visitsFromAll, visitsFromAll, List.map_append, List.append_assoc,
        visitsFrom_moved above (addr ++ [i]) t, visitsFromAll_moved above addr (i + 1) ts]

end

end Tree

namespace Node

theorem visits_moved (front : Address) (n : Node) :
    (n.moved front).tree.visitsFrom (n.moved front).origin [] (n.moved front).address =
      (n.tree.visitsFrom n.origin [] n.address).map (Leaf.moved front) :=
  n.tree.visitsFrom_moved n.origin front [] n.address

theorem leaves_moved (front : Address) (n : Node) :
    (n.moved front).leaves = n.leaves.map (Leaf.moved front) := by
  rw [leaves, leaves, Tree.leavesFrom_eq_filter, Tree.leavesFrom_eq_filter, visits_moved,
    List.filter_map]
  rfl

theorem functions_moved (front : Address) (n : Node) :
    (n.moved front).functions = n.functions.map (moved front) := by
  rw [functions, functions, Tree.functionsFrom_eq_filter _ [], Tree.functionsFrom_eq_filter _ [],
    visits_moved, List.map_map, List.filter_map, List.filter_map, List.map_map]
  rfl

end Node

theorem Triple.between?_moved (front : Address) (l m : Leaf) :
    between? (l.moved front) (m.moved front) = between? l m := by
  have hpath (l : Leaf) : (l.moved front).path = l.path.map (Node.moved front) := by
    simp [Leaf.path, Leaf.moved]
  have hroute := Route.between_map (Node.same_moved front) (fun _ => rfl) l.path m.path
  rw [between?, between?, hpath, hpath, hroute]
  rfl

theorem FunctionContexts.ofFunction_moved (front : Address) (f : Node) :
    ofFunction (f.moved front) = ofFunction f := by
  have htriples : Triple.ofLeaves (f.leaves.map (Leaf.moved front)) =
      (Triple.ofLeaves f.leaves).map id := by
    apply Triple.ofLeaves_map
    intro l _ m _
    rw [Triple.between?_moved, Option.map_id, id]
  rw [ofFunction, ofFunction, Node.leaves_moved, htriples, List.map_id, List.length_map]
  rfl

namespace Tree

theorem functionContexts_functionsFromAll (i : Nat) (ts : List Tree) :
    (functionsFromAll 0 [] i ts).map .ofFunction = ts.flatMap functionContexts := by
  induction ts generalizing i with
  | nil => rfl
  | cons t ts ih =>
      have hfirst : (t.functionsFrom 0 [i]).map FunctionContexts.ofFunction = t.functionContexts := by
        have hmoved : t.functionsFrom 0 [i] = (Node.root 0 t).functions.map (Node.moved [i]) :=
          (Node.root 0 t).functions_moved [i]
        rw [hmoved, List.map_map]
        apply List.map_congr_left
        intro f _
        exact FunctionContexts.ofFunction_moved [i] f
      rw [functionsFromAll, List.map_append, List.nil_append, hfirst, ih, List.flatMap_cons]

theorem functionContexts_node {k : Kind} (hk : k ≠ .functionDecl) (ts : List Tree) :
    (node k ts).functionContexts = ts.flatMap functionContexts := by
  rw [functionContexts, Node.functions, Node.root, functionsFrom, if_neg hk]
  exact functionContexts_functionsFromAll 0 ts

end Tree

/-! ### Pieces -/

/-- What is left of items when the groups that hold them are taken apart. The body
of a function is missing where a trait only asks for it. -/
inductive Piece (β : Type) where
  | function (signature : Syntax β .signature) (body : Syntax β (.opt .block))
  | constant (name : String) (type : Syntax β .type) (value : Syntax β .expr)
  | static (name : String) (type : Syntax β .type) (value : Syntax β .expr)

namespace Piece

variable {β γ : Type}

def tree (args : β → List Tree) : Piece β → Tree
  | function sig b => .node .functionDecl (sig.forest args ++ b.forest args)
  | constant name t e => .node .constDecl (.ident name :: (t.forest args ++ e.forest args))
  | static name t e => .node .staticDecl (.ident name :: (t.forest args ++ e.forest args))

def stripped (unread : β → γ) : Piece β → Piece γ
  | function sig b => function (sig.stripped unread) (b.stripped unread)
  | constant name t e => constant name (t.stripped unread) (e.stripped unread)
  | static name t e => static name (t.stripped unread) (e.stripped unread)

theorem tree_stripped (unread : β → γ) (args : γ → List Tree) (p : Piece β) :
    (p.stripped unread).tree args = p.tree fun b => args (unread b) := by
  cases p <;> simp only [stripped, tree, Syntax.forest_stripped]

end Piece

/-- Whether syntax of this sort stands around functions, not in them. -/
def Phrase.isGrouping : Phrase → Bool
  | file | item | implMember | traitMember => true
  | list s | opt s => s.isGrouping
  | _ => false

namespace Syntax

variable {β : Type} {s : Phrase}

/-- The pieces in source order. Modules are replaced by their items, and
implementations and traits by their functions; other items are no pieces. Functions
are not searched. -/
def pieces {s : Phrase} : Syntax β s → List (Piece β)
  | cons x xs => pieces x ++ pieces xs
  | present x => pieces x
  | method _ _ sig b | fnItem _ sig b => [.function sig (.present b)]
  | traitMethod sig b => [.function sig b]
  | constItem _ name _ t e => [.constant name t e]
  | staticItem _ _ name t e => [.static name t e]
  | implItem _ ms => pieces ms
  | traitItem _ ms => pieces ms
  | modItem _ _ is => pieces is
  | file _ is => pieces is
  | attributedImplMember _ m => pieces m
  | attributedTraitMember _ m => pieces m
  | attributedItem _ i => pieces i
  | _ => []

theorem functionContexts_group {k : Kind} (hk : k ≠ .functionDecl) {ts : List Tree}
    {contexts : List FunctionContexts} (h : ts.flatMap Tree.functionContexts = contexts) :
    [Tree.node k ts].flatMap Tree.functionContexts = contexts := by
  rw [List.flatMap_singleton, Tree.functionContexts_node hk, h]

/-- One case for each way to group items; all other syntax stands inside pieces. -/
theorem functionContexts_pieces (args : β → List Tree) (x : Syntax β s)
    (hs : s.isGrouping = true) :
    (x.forest args).flatMap Tree.functionContexts =
      x.pieces.flatMap fun p => (p.tree args).functionContexts := by
  induction x with
  | nil | absent | otherImplMember _ | otherTraitMember _ | otherItem _ => rfl
  | cons x xs ih₁ ih₂ =>
      change (forest args x ++ forest args xs).flatMap _ = (pieces x ++ pieces xs).flatMap _
      rw [List.flatMap_append, List.flatMap_append, ih₁ hs, ih₂ hs]
  | present x ih | attributedImplMember _ m ih | attributedTraitMember _ m ih
  | attributedItem _ i ih => exact ih hs
  | method _ _ sig b _ _ | traitMethod sig b _ _ | fnItem _ sig b _ _ | constItem _ n _ t e _ _
  | staticItem _ _ n t e _ _ => rfl
  | implItem _ ms ih | traitItem _ ms ih | modItem _ _ is ih | file _ is ih =>
      exact functionContexts_group (by decide) (ih rfl)
  | _ => cases hs

end Syntax

namespace SourceFile

theorem contexts_eq_flatMap (f : SourceFile) :
    f.tree.contexts = f.content.pieces.flatMap fun p => (p.tree macroArguments).contexts := by
  have hfunctions := f.content.functionContexts_pieces macroArguments rfl
  rw [forest_content, List.flatMap_singleton] at hfunctions
  rw [Tree.contexts, hfunctions, List.flatMap_assoc]
  rfl

/-- Pieces have their contexts in whatever depth their file may nest macro bodies. -/
theorem contexts_eq_flatMap_stripped (f : SourceFile) :
    f.tree.contexts = (f.content.pieces.map (Piece.stripped Subtype.val)).flatMap
      fun p => (p.tree argumentTrees).contexts := by
  rw [contexts_eq_flatMap, List.flatMap_map]
  simp only [Piece.tree_stripped, ← macroArguments_eq_argumentTrees]

/-- How functions are grouped is irrelevant: the contexts of a file are those of its
pieces in their order, and so files with the same pieces have the same contexts.
Pieces are compared by what trees show of them. -/
theorem contexts_eq_of_pieces (f g : SourceFile) :
    f.tree.contexts =
        f.content.pieces.flatMap (fun p => (p.tree macroArguments).contexts) ∧
      (f.content.pieces.map (Piece.stripped Subtype.val) =
          g.content.pieces.map (Piece.stripped Subtype.val) →
        f.tree.contexts = g.tree.contexts) := by
  refine ⟨contexts_eq_flatMap f, ?_⟩
  intro hpieces
  rw [contexts_eq_flatMap_stripped f, contexts_eq_flatMap_stripped g, hpieces]

/-- The functions of an implementation, a constant and a trait that are all in one
module, and the same as a free function, a constant in a module and a trait. -/
theorem contexts_eq_of_pieces_regrouped :
    let path (β : Type) (name : String) : Syntax β .path :=
      .plainPath false (.cons (.plainSegment name) .nil)
    let signature (β : Type) (name : String) : Syntax β .signature :=
      .signature ⟨false, false, false, none⟩ name .nil
        (.cons (.typedParam [] (.bindingPat false false "v" .absent) (.pathType (path β "T"))) .nil)
        none .absent []
    let body (d : Nat) (h : 0 < d) : Syntax (Body d) .block :=
      .block [] (.cons (.macroStmt []
        (.invocation (path _ "m") .parenthesis ⟨[.ident () "x"], h⟩) true) .nil)
    let constant (d : Nat) (h : 0 < d) : Syntax (Body d) .item :=
      .constItem [] "C" [] (.pathType (path _ "T")) (.blockExpr none (.block [] (.cons
        (.itemStmt (.fnItem [] (signature _ "inner") (body d h))) .nil)))
    let f : SourceFile := ⟨1, .file [] (.cons
      (.modItem [] "m" (.present (.cons
        (.implItem [] (.cons (.otherImplMember []) (.cons
          (.method [] false (signature _ "first") (body 1 (by decide))) .nil)))
        (.cons (.otherItem []) (.cons (constant 1 (by decide)) (.cons
          (.traitItem [] (.cons (.traitMethod (signature _ "last") .absent) .nil)) .nil))))))
      .nil)⟩
    let g : SourceFile := ⟨2, .file [] (.cons
      (.attributedItem [] (.fnItem [] (signature _ "first") (body 2 (by decide))))
      (.cons (.modItem [] "n" (.present (.cons (constant 2 (by decide)) .nil))) (.cons
        (.traitItem [] (.cons (.traitMethod (signature _ "last") .absent)
          (.cons (.otherTraitMember []) .nil))) .nil)))⟩
    f.content.pieces.map (Piece.stripped Subtype.val) =
        g.content.pieces.map (Piece.stripped Subtype.val) ∧
      f.tree.contexts = g.tree.contexts := by
  intro path signature body constant f g
  have h : f.content.pieces.map (Piece.stripped Subtype.val) =
      g.content.pieces.map (Piece.stripped Subtype.val) := rfl
  exact ⟨h, (contexts_eq_of_pieces f g).2 h⟩

end SourceFile

end LeafPaths
