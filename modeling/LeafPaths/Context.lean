import LeafPaths.Route

/-!
Path contexts: for every two leaves of a function, their tokens and the route between them.

Pairs are listed by the earlier leaf and then by the later one, both in source order, so that a
function with `n` leaves has `n * (n - 1) / 2` contexts. Pairs never cross functions, though the
leaves of a nested function also belong to the functions around it.
-/

namespace LeafPaths

structure Triple where
  left : String
  path : String
  right : String
deriving DecidableEq, Repr, Inhabited

namespace Triple

def between? (source target : Leaf) : Option Triple :=
  (Route.between source.path target.path).map fun route =>
    ⟨source.token, route.render, target.token⟩

/-- `generate_triples`: the contexts of all pairs in which the first leaf comes earlier in the list.
Leaves whose paths begin at different nodes have no context. -/
def ofLeaves : List Leaf → List Triple
  | [] => []
  | l :: ls => ls.filterMap (between? l) ++ ofLeaves ls

def display (t : Triple) : String := t.left ++ "," ++ t.path ++ "," ++ t.right

end Triple

structure FunctionContexts where
  name : String
  leafCount : Nat
  triples : List Triple
deriving DecidableEq, Repr, Inhabited

/-- `analyse_function`. A function without a name has the empty one. -/
def FunctionContexts.ofFunction (f : Node) : FunctionContexts :=
  { name := f.tree.functionName?.getD ""
    leafCount := f.leaves.length
    triples := Triple.ofLeaves f.leaves }

namespace Tree

/-- `function_contexts`: the contexts of every function, in source order. -/
def functionContexts (t : Tree) : List FunctionContexts :=
  (Node.root 0 t).functions.map .ofFunction

/-- `extract_path_contexts`, function by function; the parallel form gives the same list. -/
def contexts (t : Tree) : List Triple :=
  t.functionContexts.flatMap (·.triples)

end Tree

end LeafPaths
