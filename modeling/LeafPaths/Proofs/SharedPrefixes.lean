import LeafPaths.Proofs.LowestAncestor

/-!
How much of their paths the leaves of a walk share. Leaves come in the order of
their addresses, and of three addresses in this order the outer two part where the
first two or the last two do, whichever is higher up. So what any two leaves share is
found by looking at neighbours: it is the least that two neighbours between them
share. The further apart leaves are, the higher up they meet.
-/

namespace LeafPaths

theorem Address.length_common_of_precedes {u v w : Address} (huv : u.Precedes v)
    (hvw : v.Precedes w) :
    (common u w).length = min (common u v).length (common v w).length := by
  induction huv generalizing w with
  | nil => simp [common]
  | cons _ ih =>
      cases hvw with
      | cons hvw => simp [common, ih hvw, Nat.add_min_add_right]
      | rel hlt => simp [common, Nat.ne_of_lt hlt]
  | rel hlt =>
      cases hvw with
      | cons _ => simp [common, Nat.ne_of_lt hlt]
      | rel hlt' => simp [common, Nat.ne_of_lt hlt, Nat.ne_of_lt (Nat.lt_trans hlt hlt')]

namespace Leaf

/-- The number of nodes that the paths of two leaves share, by identity. -/
def shared (l m : Leaf) : Nat := Route.commonLength l.path m.path

/-- Of three leaves in source order, the outer two share what the first two or the
last two share, whichever is less. -/
theorem shared_eq_min_of_precedes {n : Node} {l m k : Leaf} (hl : l ∈ n.leaves)
    (hm : m ∈ n.leaves) (hk : k ∈ n.leaves) (hlm : l.node.address.Precedes m.node.address)
    (hmk : m.node.address.Precedes k.node.address) :
    l.shared k = min (l.shared m) (m.shared k) := by
  obtain ⟨u, hu, -, hlu, -⟩ := Node.chain?_of_mem_leaves hl
  obtain ⟨v, hv, -, hmv, -⟩ := Node.chain?_of_mem_leaves hm
  obtain ⟨w, hw, -, hkw, -⟩ := Node.chain?_of_mem_leaves hk
  rw [hlu, hmv] at hlm
  rw [hmv, hkw] at hmk
  have hcommon := Address.length_common_of_precedes hlm.of_append_left hmk.of_append_left
  rw [shared, shared, shared, Route.commonLength_of_chain? hu hw, Route.commonLength_of_chain? hu hv,
    Route.commonLength_of_chain? hv hw, hcommon, Nat.add_min_add_right]

theorem depth_deepestHolding {n : Node} {l m : Leaf} (hl : l ∈ n.leaves) (hm : m ∈ n.leaves) :
    (n.deepestHolding l.node m.node).depth + 1 = n.depth + l.shared m := by
  obtain ⟨u, hu, hlu⟩ := exists_below? hl
  obtain ⟨v, hv, hmv⟩ := exists_below? hm
  rw [shared, Route.commonLength_of_chain? hu hv,
    Node.depth_of_below? (Node.below?_common hlu hmv), Nat.add_assoc]

end Leaf

/-- What leaves that follow each other share, from first to last. -/
def sharedNext (ls : List Leaf) : List Nat := List.zipWith Leaf.shared ls ls.tail

theorem getElem?_sharedNext {ls : List Leaf} {i : Nat} {l m : Leaf} (hl : ls[i]? = some l)
    (hm : ls[i + 1]? = some m) : (sharedNext ls)[i]? = some (l.shared m) := by
  rw [sharedNext, List.getElem?_zipWith, hl, List.getElem?_tail, hm]

theorem min?_append_singleton {xs : List Nat} {a : Nat} (h : xs.min? = some a) (b : Nat) :
    (xs ++ [b]).min? = some (min a b) := by
  cases xs with
  | nil => cases h
  | cons x xs =>
      cases h
      rw [List.cons_append, List.min?_cons', List.foldl_append]
      rfl

namespace Node

theorem shared_eq_min {n : Node} {i j k : Nat} {l m p : Leaf} (hij : i < j) (hjk : j < k)
    (hl : n.leaves[i]? = some l) (hm : n.leaves[j]? = some m) (hp : n.leaves[k]? = some p) :
    l.shared p = min (l.shared m) (m.shared p) := by
  have hlm := pairwise_getElem? n.leaves_pairwise hl hm hij
  have hmp := pairwise_getElem? n.leaves_pairwise hm hp hjk
  exact Leaf.shared_eq_min_of_precedes (List.mem_of_getElem? hl) (List.mem_of_getElem? hm)
    (List.mem_of_getElem? hp) hlm hmp

/-- By induction on the distance: one step further takes the least of what was
shared so far and what the last two leaves share. -/
theorem min?_sharedNext {n : Node} {i r : Nat} {l m : Leaf} (hl : n.leaves[i]? = some l)
    (hm : n.leaves[i + r + 1]? = some m) :
    (((sharedNext n.leaves).drop i).take (r + 1)).min? = some (l.shared m) := by
  induction r generalizing m with
  | zero =>
      have hnext : (sharedNext n.leaves)[i + 0]? = some (l.shared m) := getElem?_sharedNext hl hm
      rw [List.take_add_one, List.getElem?_drop, hnext]
      rfl
  | succ r ih =>
      have hlt : i + r + 1 < n.leaves.length := by
        have hlast := (List.getElem?_eq_some_iff.mp hm).1
        omega
      obtain ⟨p, hp⟩ : ∃ p, n.leaves[i + r + 1]? = some p := ⟨_, List.getElem?_eq_getElem hlt⟩
      have hnext : (sharedNext n.leaves)[i + (r + 1)]? = some (p.shared m) :=
        getElem?_sharedNext hp hm
      rw [List.take_add_one, List.getElem?_drop, hnext, shared_eq_min (by omega) (by omega) hl hp hm]
      exact min?_append_singleton (ih hp) _

/-- What two leaves share is the least that two neighbours from one to the other
share. So a leaf between them shares with one of them as much as they share, and with
the other no less; and the node where the first meets the later leaf is no deeper
than the one where it meets the leaf in between. -/
theorem shared_eq_min_sharedNext (n : Node) (i k : Nat) (l m : Leaf) (hik : i < k)
    (hl : n.leaves[i]? = some l) (hm : n.leaves[k]? = some m) :
    ((sharedNext n.leaves).extract i k).min? = some (l.shared m) ∧
      ∀ (j : Nat) (p : Leaf), i < j → j < k → n.leaves[j]? = some p →
        l.shared m = min (l.shared p) (p.shared m) ∧
          (n.deepestHolding l.node m.node).depth ≤ (n.deepestHolding l.node p.node).depth := by
  constructor
  · obtain ⟨r, rfl⟩ : ∃ r, k = i + r + 1 := ⟨k - i - 1, by omega⟩
    have hlength : i + r + 1 - i = r + 1 := by omega
    rw [List.extract_eq_take_drop, hlength]
    exact min?_sharedNext hl hm
  · intro j p hij hjk hp
    have hmin := shared_eq_min hij hjk hl hp hm
    have hfar := Leaf.depth_deepestHolding (List.mem_of_getElem? hl) (List.mem_of_getElem? hm)
    have hnear := Leaf.depth_deepestHolding (List.mem_of_getElem? hl) (List.mem_of_getElem? hp)
    exact ⟨hmin, by omega⟩

/-- Two arguments of a call, then a leaf with another below it. -/
theorem shared_eq_min_sharedNext_call :
    let call := Tree.node .call [.ident "a", .lit "1"]
    let n := Node.root 0 (.node .functionDecl [call, .node .tuple [.node (.ident "b") [.ident "c"]]])
    ∃ a b c : Leaf, [n.leaves[0]?, n.leaves[2]?, n.leaves[3]?] = [some a, some b, some c] ∧
      sharedNext n.leaves = [2, 1, 3] ∧ a.shared c = 1 ∧
      ((sharedNext n.leaves).extract 0 3).min? = some (a.shared c) ∧
      a.shared c = min (a.shared b) (b.shared c) ∧
      (n.deepestHolding a.node c.node).depth ≤ (n.deepestHolding a.node b.node).depth := by
  intro call n
  refine ⟨_, _, _, rfl, by decide, by decide, ?_⟩
  obtain ⟨hmin, hbetween⟩ := shared_eq_min_sharedNext n 0 3 _ _ (by decide) rfl rfl
  exact ⟨hmin, hbetween 2 _ (by decide) (by decide) rfl⟩

end Node

end LeafPaths
