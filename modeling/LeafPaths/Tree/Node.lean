import LeafPaths.Tree

/-!
Occurrences of nodes in trees.

A node is identified by where it stands, never by what it looks like: two structurally equal
subtrees at different places are different nodes. The place is the tree it belongs to, given by an
index, and the address in that tree, the child indexes to follow from the root.
-/

namespace LeafPaths

/-- Child indexes, the root's choice first. -/
abbrev Address := List Nat

def Tree.get? (t : Tree) : Address → Option Tree
  | [] => some t
  | i :: rest =>
    match t.children[i]? with
    | some child => child.get? rest
    | none => none

/-- The tree with the subtree at an address replaced; an address outside the tree changes
nothing. -/
def Tree.set (t : Tree) (s : Tree) : Address → Tree
  | [] => s
  | i :: rest =>
    match t.children[i]? with
    | some child => .node t.kind (t.children.set i (child.set s rest))
    | none => t

structure Node where
  origin : Nat
  address : Address
  tree : Tree
deriving Repr, Inhabited

namespace Node

def root (origin : Nat) (t : Tree) : Node := ⟨origin, [], t⟩

def below? (n : Node) (a : Address) : Option Node :=
  (n.tree.get? a).map fun t => ⟨n.origin, n.address ++ a, t⟩

def chain? (n : Node) : Address → Option (List Node)
  | [] => some [n]
  | i :: rest =>
    match n.below? [i] with
    | some child => (child.chain? rest).map (n :: ·)
    | none => none

/-- `is_same`: the same tree and the same address. -/
def same (a b : Node) : Bool := a.origin == b.origin && a.address == b.address

def tag (n : Node) : String := n.tree.tag

end Node

mutual

/-- The function declarations at and below an address, each before the ones inside it and
otherwise from left to right. -/
def Tree.functionsFrom (origin : Nat) (addr : Address) : Tree → List Node
  | .node k cs =>
    let inner := functionsFromAll origin addr 0 cs
    if k = .functionDecl then ⟨origin, addr, .node k cs⟩ :: inner else inner

def Tree.functionsFromAll (origin : Nat) (addr : Address) (i : Nat) : List Tree → List Node
  | [] => []
  | t :: ts =>
    functionsFrom origin (addr ++ [i]) t ++ functionsFromAll origin addr (i + 1) ts

end

/-- `collect_functions`: the function declarations at and under a node in source order. Closures are
none. -/
def Node.functions (n : Node) : List Node := n.tree.functionsFrom n.origin n.address

/-- `LeafNode`: a leaf with the nodes above it, the node that the walk began at first. -/
structure Leaf where
  above : List Node
  node : Node
deriving Repr, Inhabited

namespace Leaf

def path (l : Leaf) : List Node := l.above ++ [l.node]

def token (l : Leaf) : String := l.node.tree.token?.getD ""

end Leaf

mutual

/-- The leaves at and below an address, where `above` holds the nodes passed on the way. -/
def Tree.leavesFrom (origin : Nat) (above : List Node) (addr : Address) : Tree → List Leaf
  | .node k cs =>
    let here : Node := ⟨origin, addr, .node k cs⟩
    let inner := leavesFromAll origin (above ++ [here]) addr 0 cs
    if k.token?.isSome then ⟨above, here⟩ :: inner else inner

def Tree.leavesFromAll (origin : Nat) (above : List Node) (addr : Address) (i : Nat) :
    List Tree → List Leaf
  | [] => []
  | t :: ts =>
    leavesFrom origin above (addr ++ [i]) t ++ leavesFromAll origin above addr (i + 1) ts

end

/-- `extract_leaves`: the leaves under a node in source order; their paths begin at that node. -/
def Node.leaves (n : Node) : List Leaf := n.tree.leavesFrom n.origin [] n.address

end LeafPaths
