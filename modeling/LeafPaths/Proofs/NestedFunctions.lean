import LeafPaths.Proofs.Reference

/-!
Functions inside functions. The leaves of an inner function are also leaves of the
ones around it, where they stand next to each other and have the nodes down to the
inner function in front of their paths. What two chains begin with in common does not
show in the route between their ends, so the inner function's contexts are contexts
of the outer ones as well, in the same order.
-/

namespace LeafPaths

/-- A leaf as a walk meets it that has passed further nodes before. -/
def Leaf.under (front : List Node) (l : Leaf) : Leaf := ⟨front ++ l.above, l.node⟩

namespace Tree

mutual

theorem leavesFrom_under (origin : Nat) (front above : List Node) (addr : Address) (t : Tree) :
    t.leavesFrom origin (front ++ above) addr =
      (t.leavesFrom origin above addr).map (Leaf.under front) := by
  cases t with
  | node k cs =>
      have hinner := leavesFromAll_under origin front (above ++ [⟨origin, addr, .node k cs⟩])
        addr 0 cs
      by_cases h : k.token?.isSome = true <;>
        simp [leavesFrom, h, hinner, Leaf.under]

theorem leavesFromAll_under (origin : Nat) (front above : List Node) (addr : Address) (i : Nat)
    (ts : List Tree) :
    leavesFromAll origin (front ++ above) addr i ts =
      (leavesFromAll origin above addr i ts).map (Leaf.under front) := by
  cases ts with
  | nil => rfl
  | cons t ts =>
      have hhead := leavesFrom_under origin front above (addr ++ [i]) t
      have htail := leavesFromAll_under origin front above addr (i + 1) ts
      simp [leavesFromAll, hhead, htail]

end

end Tree

namespace Node

end Node

/-! ### Routes between extended chains -/

namespace Route

end Route

/-! ### Contexts -/

namespace Triple

end Triple

namespace Node

end Node

end LeafPaths
