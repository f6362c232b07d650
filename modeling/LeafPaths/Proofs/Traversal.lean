import LeafPaths.Tree.Node

/-!
What a walk through a tree meets. Every node is met once with the nodes passed
on the way to it, and these are the chain from the start of the walk down to it.
Nodes are met in the order of their addresses. The leaves of a node are those of
its visits that carry a token, so whatever is shown of visits holds of leaves.
-/

namespace LeafPaths

/-- A node that a walk has reached, with the nodes above it. -/
abbrev Visit := Leaf

namespace Tree

mutual

/-- The nodes at and below an address in source order, where `above` holds the
nodes passed on the way. -/
def visitsFrom (origin : Nat) (above : List Node) (addr : Address) : Tree → List Visit
  | .node k cs =>
    let here : Node := ⟨origin, addr, .node k cs⟩
    ⟨above, here⟩ :: visitsFromAll origin (above ++ [here]) addr 0 cs

def visitsFromAll (origin : Nat) (above : List Node) (addr : Address) (i : Nat) :
    List Tree → List Visit
  | [] => []
  | t :: ts =>
    visitsFrom origin above (addr ++ [i]) t ++ visitsFromAll origin above addr (i + 1) ts

end

mutual

theorem leavesFrom_eq_filter (origin : Nat) (above : List Node) (addr : Address) (t : Tree) :
    t.leavesFrom origin above addr =
      (t.visitsFrom origin above addr).filter fun v => v.node.tree.isLeaf := by
  cases t with
  | node k cs =>
      have hinner := leavesFromAll_eq_filter origin
        (above ++ [⟨origin, addr, .node k cs⟩]) addr 0 cs
      by_cases h : k.token?.isSome = true <;>
        simp [leavesFrom, visitsFrom, isLeaf, token?, kind, h, hinner]

theorem leavesFromAll_eq_filter (origin : Nat) (above : List Node) (addr : Address) (i : Nat)
    (ts : List Tree) :
    leavesFromAll origin above addr i ts =
      (visitsFromAll origin above addr i ts).filter fun v => v.node.tree.isLeaf := by
  cases ts with
  | nil => rfl
  | cons t ts =>
      have hhead := leavesFrom_eq_filter origin above (addr ++ [i]) t
      have htail := leavesFromAll_eq_filter origin above addr (i + 1) ts
      simp [leavesFromAll, visitsFromAll, hhead, htail]

end

end Tree

namespace Node

theorem chain?_cons (n : Node) (i : Nat) (a : Address) :
    n.chain? (i :: a) = n.tree.children[i]?.bind fun t =>
      (chain? ⟨n.origin, n.address ++ [i], t⟩ a).map (n :: ·) := by
  cases h : n.tree.children[i]? <;> simp [chain?, below?, Tree.get?, h]

theorem chain?_head {n : Node} {a : Address} {c : List Node} (h : n.chain? a = some c) :
    ∃ rest, c = n :: rest := by
  cases a with
  | nil =>
      cases h
      exact ⟨[], rfl⟩
  | cons i a =>
      rw [chain?_cons] at h
      obtain ⟨t, _, h⟩ := Option.bind_eq_some_iff.mp h
      obtain ⟨rest, _, rfl⟩ := Option.map_eq_some_iff.mp h
      exact ⟨rest, rfl⟩

theorem chain?_last {n : Node} {a : Address} {c : List Node} (h : n.chain? a = some c) :
    ∃ before last, c = before ++ [last] ∧
      last.origin = n.origin ∧ last.address = n.address ++ a := by
  induction a generalizing n c with
  | nil =>
      cases h
      exact ⟨[], n, rfl, rfl, by simp⟩
  | cons i a ih =>
      rw [chain?_cons] at h
      obtain ⟨t, _, h⟩ := Option.bind_eq_some_iff.mp h
      obtain ⟨rest, hrest, rfl⟩ := Option.map_eq_some_iff.mp h
      obtain ⟨before, last, rfl, horigin, haddress⟩ := ih hrest
      exact ⟨n :: before, last, rfl, horigin, by simp [haddress]⟩

end Node

namespace Tree

mutual

/-- What stands above a visited node is the chain that leads to it. -/
theorem chain?_of_mem_visitsFrom {v : Visit} (origin : Nat) (above : List Node) (addr : Address)
    (t : Tree) (h : v ∈ t.visitsFrom origin above addr) :
    ∃ a c, (⟨origin, addr, t⟩ : Node).chain? a = some c ∧ v.path = above ++ c := by
  cases t with
  | node k cs =>
      rcases List.mem_cons.mp h with rfl | h
      · exact ⟨[], _, rfl, rfl⟩
      · obtain ⟨j, t, a, c, ht, hc, hpath⟩ := chain?_of_mem_visitsFromAll origin _ addr 0 cs h
        refine ⟨j :: a, ⟨origin, addr, .node k cs⟩ :: c, ?_, by simp [hpath]⟩
        rw [Nat.zero_add] at hc
        simp [Node.chain?_cons, children, ht, hc]

theorem chain?_of_mem_visitsFromAll {v : Visit} (origin : Nat) (above : List Node)
    (addr : Address) (i : Nat) (ts : List Tree) (h : v ∈ visitsFromAll origin above addr i ts) :
    ∃ j t a c, ts[j]? = some t ∧
      (⟨origin, addr ++ [i + j], t⟩ : Node).chain? a = some c ∧ v.path = above ++ c := by
  cases ts with
  | nil => cases h
  | cons t ts =>
      rcases List.mem_append.mp h with h | h
      · obtain ⟨a, c, hc, hpath⟩ := chain?_of_mem_visitsFrom origin above (addr ++ [i]) t h
        exact ⟨0, t, a, c, rfl, hc, hpath⟩
      · obtain ⟨j, t', a, c, ht, hc, hpath⟩ :=
          chain?_of_mem_visitsFromAll origin above addr (i + 1) ts h
        refine ⟨j + 1, t', a, c, ht, ?_, hpath⟩
        rwa [Nat.add_assoc, Nat.add_comm 1 j] at hc

end

end Tree

/-- A leaf's path is the chain from the start of the walk to the leaf, and the
leaf has a token. -/
theorem Node.chain?_of_mem_leaves {n : Node} {l : Leaf} (h : l ∈ n.leaves) :
    ∃ a, n.chain? a = some l.path ∧ l.node.origin = n.origin ∧
      l.node.address = n.address ++ a ∧ l.node.tree.isLeaf = true := by
  rw [Node.leaves, Tree.leavesFrom_eq_filter, List.mem_filter] at h
  obtain ⟨hvisit, hleaf⟩ := h
  obtain ⟨a, c, hc, hpath⟩ := Tree.chain?_of_mem_visitsFrom n.origin [] n.address n.tree hvisit
  rw [List.nil_append] at hpath
  obtain ⟨before, last, hlast, horigin, haddress⟩ := chain?_last hc
  have hnode : l.node = last := by
    rw [← hpath, Leaf.path] at hlast
    exact List.singleton_inj.mp (List.append_inj_right' hlast rfl)
  exact ⟨a, hpath ▸ hc, hnode ▸ horigin, hnode ▸ haddress, hleaf⟩

/-! ### Order and subtrees -/

/-- The order in which walks meet places: a node comes before what is below it,
and otherwise nodes come from left to right. -/
def Address.Precedes : Address → Address → Prop := List.Lex (· < ·)

namespace Address

theorem Precedes.append_left {a b : Address} (h : Precedes a b) (front : Address) :
    Precedes (front ++ a) (front ++ b) := by
  induction front with
  | nil => exact h
  | cons i front ih => exact .cons ih

theorem Precedes.of_append_left {front a b : Address} (h : Precedes (front ++ a) (front ++ b)) :
    Precedes a b := by
  induction front with
  | nil => exact h
  | cons i front ih =>
      cases h with
      | cons h => exact ih h
      | rel hlt => exact absurd hlt (Nat.lt_irrefl i)

theorem Precedes.asymm {a b : Address} (h : Precedes a b) : ¬ Precedes b a := by
  intro h'
  induction h with
  | nil => cases h'
  | cons _ ih =>
      cases h' with
      | cons h' => exact ih h'
      | rel hlt => exact Nat.lt_irrefl _ hlt
  | rel hlt =>
      cases h' with
      | cons _ => exact Nat.lt_irrefl _ hlt
      | rel hlt' => exact Nat.lt_asymm hlt hlt'

theorem Precedes.ne {a b : Address} (h : Precedes a b) : a ≠ b := by
  induction h with
  | nil => simp
  | cons _ ih => simpa using ih
  | rel hlt =>
      intro heq
      exact Nat.ne_of_lt hlt (List.cons.inj heq).1

end Address

theorem Leaf.eq_of_path {l : Leaf} {before : List Node} {last : Node}
    (h : l.path = before ++ [last]) : l.above = before ∧ l.node = last :=
  ⟨List.append_inj_left' h rfl, List.singleton_inj.mp (List.append_inj_right' h rfl)⟩

namespace Tree

theorem address_of_mem_visitsFrom {v : Visit} {origin : Nat} {above : List Node} {addr : Address}
    {t : Tree} (h : v ∈ t.visitsFrom origin above addr) :
    ∃ a, v.node.address = addr ++ a := by
  obtain ⟨a, c, hc, hpath⟩ := chain?_of_mem_visitsFrom origin above addr t h
  obtain ⟨before, last, rfl, -, haddress⟩ := Node.chain?_last hc
  rw [← List.append_assoc] at hpath
  exact ⟨a, (Leaf.eq_of_path hpath).2 ▸ haddress⟩

theorem address_of_mem_visitsFromAll {v : Visit} {origin : Nat} {above : List Node}
    {addr : Address} {i : Nat} {ts : List Tree} (h : v ∈ visitsFromAll origin above addr i ts) :
    ∃ j a, i ≤ j ∧ v.node.address = addr ++ j :: a := by
  obtain ⟨j, t, a, c, -, hc, hpath⟩ := chain?_of_mem_visitsFromAll origin above addr i ts h
  obtain ⟨before, last, rfl, -, haddress⟩ := Node.chain?_last hc
  rw [← List.append_assoc] at hpath
  refine ⟨i + j, a, Nat.le_add_right i j, ?_⟩
  rw [(Leaf.eq_of_path hpath).2, haddress, List.append_assoc]
  rfl

mutual

theorem visitsFrom_pairwise (origin : Nat) (above : List Node) (addr : Address) (t : Tree) :
    (t.visitsFrom origin above addr).Pairwise fun v w =>
      v.node.address.Precedes w.node.address := by
  cases t with
  | node k cs =>
      refine List.pairwise_cons.mpr ⟨?_, visitsFromAll_pairwise origin _ addr 0 cs⟩
      intro w hw
      obtain ⟨j, a, -, hj⟩ := address_of_mem_visitsFromAll hw
      have hbelow : Address.Precedes (addr ++ []) (addr ++ j :: a) :=
        Address.Precedes.append_left .nil addr
      rwa [List.append_nil, ← hj] at hbelow

theorem visitsFromAll_pairwise (origin : Nat) (above : List Node) (addr : Address) (i : Nat)
    (ts : List Tree) :
    (visitsFromAll origin above addr i ts).Pairwise
      fun v w => v.node.address.Precedes w.node.address := by
  cases ts with
  | nil => exact .nil
  | cons t ts =>
      refine List.pairwise_append.mpr ⟨visitsFrom_pairwise origin above (addr ++ [i]) t,
        visitsFromAll_pairwise origin above addr (i + 1) ts, ?_⟩
      intro v hv w hw
      obtain ⟨a, ha⟩ := address_of_mem_visitsFrom hv
      obtain ⟨j, b, hj, hb⟩ := address_of_mem_visitsFromAll hw
      rw [ha, hb, List.append_assoc]
      exact Address.Precedes.append_left (.rel hj) addr

end

theorem get?_append (t : Tree) (a b : Address) : t.get? (a ++ b) = (t.get? a).bind (·.get? b) := by
  induction a generalizing t with
  | nil => rfl
  | cons i a ih =>
      rw [List.cons_append, get?, get?]
      cases t.children[i]? with
      | none => rfl
      | some child => exact ih child

end Tree

theorem pairwise_getElem? {α : Type} {r : α → α → Prop} {xs : List α} {i j : Nat} {a b : α}
    (h : xs.Pairwise r) (hi : xs[i]? = some a) (hj : xs[j]? = some b) (hij : i < j) : r a b := by
  obtain ⟨hi', rfl⟩ := List.getElem?_eq_some_iff.mp hi
  obtain ⟨hj', rfl⟩ := List.getElem?_eq_some_iff.mp hj
  exact List.pairwise_iff_getElem.mp h i j hi' hj' hij

namespace Node

theorem leaves_pairwise (n : Node) :
    n.leaves.Pairwise fun l m => l.node.address.Precedes m.node.address := by
  rw [leaves, Tree.leavesFrom_eq_filter]
  exact (Tree.visitsFrom_pairwise n.origin [] n.address n.tree).filter _

/-- Only the last node of a chain can be without children. -/
theorem children_ne_nil_of_chain? {n m : Node} {a : Address} {c : List Node}
    (h : n.chain? a = some c) (hm : m ∈ c.dropLast) : m.tree.children ≠ [] := by
  induction a generalizing n c with
  | nil =>
      cases h
      cases hm
  | cons i a ih =>
      rw [chain?_cons] at h
      obtain ⟨t, ht, h⟩ := Option.bind_eq_some_iff.mp h
      obtain ⟨rest, hrest, rfl⟩ := Option.map_eq_some_iff.mp h
      obtain ⟨rest, rfl⟩ := chain?_head hrest
      rcases List.mem_cons.mp hm with rfl | hm
      · intro hnone
        simp [hnone] at ht
      · exact ih hrest hm

end Node

/-! ### Chains by address -/

namespace Node

theorem below?_append (n : Node) (a b : Address) :
    n.below? (a ++ b) = (n.below? a).bind (·.below? b) := by
  simp only [below?, Tree.get?_append]
  cases h : n.tree.get? a with
  | none => rfl
  | some t => simp [List.append_assoc]

theorem below?_trans {n m k : Node} {a b : Address} (hm : n.below? a = some m)
    (hk : m.below? b = some k) : n.below? (a ++ b) = some k := by
  rw [below?_append, hm, Option.bind_some, hk]

theorem below?_cons {n child : Node} {i : Nat} (h : n.below? [i] = some child) (a : Address) :
    n.below? (i :: a) = child.below? a := by
  rw [← List.singleton_append, below?_append, h, Option.bind_some]

theorem exists_child_of_below? {n m : Node} {i : Nat} {a : Address}
    (h : n.below? (i :: a) = some m) :
    ∃ child, n.below? [i] = some child ∧ child.below? a = some m := by
  rw [← List.singleton_append, below?_append] at h
  exact Option.bind_eq_some_iff.mp h

@[simp] theorem below?_nil (n : Node) : n.below? [] = some n := by
  simp [below?, Tree.get?]

theorem address_of_below? {n m : Node} {a : Address} (h : n.below? a = some m) :
    m.origin = n.origin ∧ m.address = n.address ++ a := by
  obtain ⟨t, -, rfl⟩ := Option.map_eq_some_iff.mp h
  exact ⟨rfl, rfl⟩

theorem below?_child (n : Node) (i : Nat) :
    n.below? [i] = n.tree.children[i]?.map fun t => ⟨n.origin, n.address ++ [i], t⟩ := by
  cases h : n.tree.children[i]? <;> simp [below?, Tree.get?, h]

theorem chain?_cons_of_below? {n child : Node} {i : Nat} (h : n.below? [i] = some child)
    (a : Address) : n.chain? (i :: a) = (child.chain? a).map (n :: ·) := by
  rw [chain?, h]

theorem exists_child_of_chain? {n : Node} {i : Nat} {a : Address} {c : List Node}
    (h : n.chain? (i :: a) = some c) :
    ∃ child rest, n.below? [i] = some child ∧ child.chain? a = some rest ∧ c = n :: rest := by
  cases hchild : n.below? [i] with
  | none => simp [chain?, hchild] at h
  | some child =>
      rw [chain?_cons_of_below? hchild] at h
      obtain ⟨rest, hrest, rfl⟩ := Option.map_eq_some_iff.mp h
      exact ⟨child, rest, rfl, hrest, rfl⟩

theorem getElem?_of_chain? {n : Node} {a w : Address} {ns : List Node}
    (h : n.chain? a = some ns) (hw : w <+: a) :
    ns[w.length]? = n.below? w ∧ (n.below? w).isSome = true := by
  induction w generalizing n a ns with
  | nil =>
      obtain ⟨rest, rfl⟩ := chain?_head h
      simp [below?_nil]
  | cons i w ih =>
      obtain ⟨a, rfl⟩ := hw
      obtain ⟨child, rest, hchild, hrest, rfl⟩ := exists_child_of_chain? h
      rw [below?_cons hchild]
      exact ih hrest (List.prefix_append w a)

theorem length_of_chain? {n : Node} {a : Address} {c : List Node} (h : n.chain? a = some c) :
    c.length = a.length + 1 := by
  induction a generalizing n c with
  | nil =>
      cases h
      rfl
  | cons i a ih =>
      obtain ⟨child, rest, -, hrest, rfl⟩ := exists_child_of_chain? h
      rw [List.length_cons, List.length_cons, ih hrest]

theorem below?_of_chain? {n last : Node} {a : Address} {before : List Node}
    (h : n.chain? a = some (before ++ [last])) : n.below? a = some last := by
  have hlength := length_of_chain? h
  rw [List.length_append, List.length_singleton, Nat.add_right_cancel_iff] at hlength
  rw [← (getElem?_of_chain? h List.prefix_rfl).1, ← hlength]
  simp

theorem get?_of_chain? {n last : Node} {a : Address} {before : List Node}
    (h : n.chain? a = some (before ++ [last])) : n.tree.get? a = some last.tree := by
  obtain ⟨t, ht, rfl⟩ := Option.map_eq_some_iff.mp (below?_of_chain? h)
  exact ht

theorem exists_chain?_of_below? {n m : Node} {a : Address} (h : n.below? a = some m) :
    ∃ above, n.chain? a = some (above ++ [m]) := by
  induction a generalizing n with
  | nil =>
      rw [below?_nil] at h
      cases h
      exact ⟨[], rfl⟩
  | cons i a ih =>
      obtain ⟨child, hchild, h⟩ := exists_child_of_below? h
      obtain ⟨above, hc⟩ := ih h
      exact ⟨n :: above, by rw [chain?_cons_of_below? hchild, hc]; rfl⟩

end Node

/-! ### Functions -/

mutual

theorem Tree.functionsFrom_eq_filter (origin : Nat) (above : List Node) (addr : Address)
    (t : Tree) :
    t.functionsFrom origin addr =
      ((t.visitsFrom origin above addr).map Leaf.node).filter fun n =>
        n.tree.kind = .functionDecl := by
  cases t with
  | node k cs =>
      have hinner := functionsFromAll_eq_filter origin
        (above ++ [⟨origin, addr, .node k cs⟩]) addr 0 cs
      by_cases h : k = .functionDecl <;> simp [functionsFrom, visitsFrom, kind, h, hinner]

theorem Tree.functionsFromAll_eq_filter (origin : Nat) (above : List Node) (addr : Address)
    (i : Nat) (ts : List Tree) :
    functionsFromAll origin addr i ts =
      ((visitsFromAll origin above addr i ts).map Leaf.node).filter fun n =>
        n.tree.kind = .functionDecl := by
  cases ts with
  | nil => rfl
  | cons t ts =>
      have hhead := functionsFrom_eq_filter origin above (addr ++ [i]) t
      have htail := functionsFromAll_eq_filter origin above addr (i + 1) ts
      simp [functionsFromAll, visitsFromAll, hhead, htail]

end

theorem Node.below?_of_mem_functions {n f : Node} (h : f ∈ n.functions) :
    ∃ a, n.below? a = some f ∧ f.tree.kind = .functionDecl := by
  rw [functions, Tree.functionsFrom_eq_filter _ [], List.mem_filter, List.mem_map] at h
  obtain ⟨⟨v, hv, rfl⟩, hkind⟩ := h
  obtain ⟨a, c, hc, hpath⟩ := Tree.chain?_of_mem_visitsFrom n.origin [] n.address n.tree hv
  rw [List.nil_append] at hpath
  rw [← hpath] at hc
  exact ⟨a, below?_of_chain? hc, by simpa using hkind⟩

end LeafPaths
