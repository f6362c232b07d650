import Mathlib.Data.List.Chain
import Mathlib.Logic.ExistsUnique
import LeafPaths.Proofs.Traversal

/-!
Walks are exact. The leaves and the functions under a node are listed once each and
nothing else is, in source order: a node before those below it, and what one child
holds before what a later child holds. Neither a leaf nor a function ends a walk, so
that leaves below leaves and functions inside functions are listed as well.

The leaves are also compared with a walk that has one stack for all nodes. Every
node is put on it when it is reached and taken off when its children are done, and
what is on it at a leaf is the path of that leaf.
-/

namespace LeafPaths

/-! ### Source order -/

/-- A node comes before those below it, and what one child of a node holds before
what a later child holds. -/
inductive Node.Before : Node → Node → Prop where
  | above {m k : Node} {i : Nat} {a : Address} (h : m.below? (i :: a) = some k) : Before m k
  | beside {n left right m k : Node} {i j : Nat} {a b : Address} (hij : i < j)
      (hleft : n.below? [i] = some left) (hright : n.below? [j] = some right)
      (hm : left.below? a = some m) (hk : right.below? b = some k) : Before m k

theorem Address.Precedes.extends_or_parts {u v : Address} (h : Precedes u v) :
    (∃ i a, v = u ++ i :: a) ∨
      ∃ w i j a b, i < j ∧ u = w ++ i :: a ∧ v = w ++ j :: b := by
  induction h with
  | nil => exact .inl ⟨_, _, rfl⟩
  | @cons i u v _ ih =>
      cases ih with
      | inl h =>
          obtain ⟨j, a, rfl⟩ := h
          exact .inl ⟨j, a, rfl⟩
      | inr h =>
          obtain ⟨w, j, k, a, b, hjk, rfl, rfl⟩ := h
          exact .inr ⟨i :: w, j, k, a, b, hjk, rfl, rfl⟩
  | rel hlt => exact .inr ⟨[], _, _, _, _, hlt, rfl, rfl⟩

namespace Node

theorem Before.precedes {m k : Node} (h : m.Before k) : m.address.Precedes k.address := by
  cases h with
  | @above m k i a h =>
      have hbelow : Address.Precedes (m.address ++ []) (m.address ++ i :: a) :=
        Address.Precedes.append_left .nil m.address
      rwa [List.append_nil, ← (address_of_below? h).2] at hbelow
  | @beside n left right m k i j a b hij hleft hright hm hk =>
      rw [(address_of_below? hm).2, (address_of_below? hleft).2, (address_of_below? hk).2,
        (address_of_below? hright).2, List.append_assoc, List.append_assoc]
      exact Address.Precedes.append_left (.rel hij) n.address

theorem before_of_precedes {f m k : Node} {u v : Address} (hm : f.below? u = some m)
    (hk : f.below? v = some k) (h : u.Precedes v) : m.Before k := by
  cases h.extends_or_parts with
  | inl h =>
      obtain ⟨i, a, rfl⟩ := h
      rw [below?_append, hm, Option.bind_some] at hk
      exact .above hk
  | inr h =>
      obtain ⟨w, i, j, a, b, hij, rfl, rfl⟩ := h
      rw [below?_append] at hm hk
      obtain ⟨n, hn, hm⟩ := Option.bind_eq_some_iff.mp hm
      rw [hn, Option.bind_some] at hk
      obtain ⟨left, hleft, hm⟩ := exists_child_of_below? hm
      obtain ⟨right, hright, hk⟩ := exists_child_of_below? hk
      exact .beside hij hleft hright hm hk

/-- Under one node, source order is the order of addresses. -/
theorem before_iff_precedes {f m k : Node} {u v : Address} (hm : f.below? u = some m)
    (hk : f.below? v = some k) : m.Before k ↔ m.address.Precedes k.address := by
  refine ⟨Before.precedes, ?_⟩
  intro h
  rw [(address_of_below? hm).2, (address_of_below? hk).2] at h
  exact before_of_precedes hm hk h.of_append_left

end Node

/-! ### All nodes under a node -/

theorem Tree.mem_visitsFromAll {v : Visit} {origin : Nat} {above : List Node} {addr : Address}
    {i j : Nat} {ts : List Tree} {t : Tree} (ht : ts[j]? = some t)
    (hv : v ∈ t.visitsFrom origin above (addr ++ [i + j])) :
    v ∈ visitsFromAll origin above addr i ts := by
  induction ts generalizing i j with
  | nil => simp at ht
  | cons first ts ih =>
      cases j with
      | zero =>
          cases ht
          exact List.mem_append_left _ hv
      | succ j =>
          rw [Nat.add_comm j 1, ← Nat.add_assoc] at hv
          exact List.mem_append_right _ (ih ht hv)

namespace Node

def visited (n : Node) : List Node := (n.tree.visitsFrom n.origin [] n.address).map Leaf.node

theorem exists_mem_visitsFrom {n m : Node} {a : Address} (h : n.below? a = some m)
    (above : List Node) : ∃ v ∈ n.tree.visitsFrom n.origin above n.address, v.node = m := by
  induction a generalizing n above with
  | nil =>
      rw [below?_nil] at h
      cases h
      obtain ⟨origin, addr, ⟨k, cs⟩⟩ := m
      exact ⟨_, List.mem_cons_self, rfl⟩
  | cons i a ih =>
      obtain ⟨child, hchild, h⟩ := exists_child_of_below? h
      obtain ⟨v, hv, hnode⟩ := ih h (above ++ [n])
      obtain ⟨origin, addr, ⟨k, cs⟩⟩ := n
      rw [below?_child] at hchild
      obtain ⟨t, ht, rfl⟩ := Option.map_eq_some_iff.mp hchild
      rw [← Nat.zero_add i] at hv
      exact ⟨v, List.mem_cons_of_mem _ (Tree.mem_visitsFromAll ht hv), hnode⟩

theorem mem_visited_iff {n m : Node} : m ∈ n.visited ↔ ∃ a, n.below? a = some m := by
  constructor
  · intro h
    obtain ⟨v, hv, rfl⟩ := List.mem_map.mp h
    obtain ⟨a, c, hc, hpath⟩ := Tree.chain?_of_mem_visitsFrom n.origin [] n.address n.tree hv
    rw [List.nil_append] at hpath
    rw [← hpath] at hc
    exact ⟨a, below?_of_chain? hc⟩
  · rintro ⟨a, ha⟩
    exact List.mem_map.mpr (exists_mem_visitsFrom ha [])

theorem visited_pairwise (n : Node) :
    n.visited.Pairwise fun m k => m.address.Precedes k.address :=
  List.pairwise_map.mpr (Tree.visitsFrom_pairwise n.origin [] n.address n.tree)

/-- A listing of the nodes under `n` that satisfy `p`: no others are in it, each is
at exactly one position, and positions follow the addresses, which is source
order. -/
structure ListsExactly (n : Node) (p : Node → Prop) (ms : List Node) : Prop where
  only : ∀ m ∈ ms, p m ∧ ∃ a, n.below? a = some m
  once : ∀ (a : Address) (m : Node), n.below? a = some m → p m → ∃! i : Nat, ms[i]? = some m
  increasing : ms.Pairwise fun m k => m.address.Precedes k.address
  ordered : ∀ (i j : Nat) (m k : Node), ms[i]? = some m → ms[j]? = some k → (i < j ↔ m.Before k)

theorem lt_iff_precedes {ms : List Node} {m k : Node} {i j : Nat}
    (h : ms.Pairwise fun m k => m.address.Precedes k.address) (hi : ms[i]? = some m)
    (hj : ms[j]? = some k) : i < j ↔ m.address.Precedes k.address := by
  constructor
  · intro hij
    have hmk := pairwise_getElem? h hi hj hij
    exact hmk
  · intro hmk
    apply Nat.lt_of_not_le
    intro hji
    cases Nat.lt_or_eq_of_le hji with
    | inl hji =>
        have hkm := pairwise_getElem? h hj hi hji
        exact hmk.asymm hkm
    | inr hji =>
        subst hji
        rw [hi] at hj
        cases hj
        exact hmk.ne rfl

theorem listsExactly_filter (n : Node) {p : Node → Prop} {q : Node → Bool}
    (h : ∀ m, q m = true ↔ p m) : n.ListsExactly p (n.visited.filter q) := by
  have hincreasing := n.visited_pairwise.filter q
  have honly : ∀ m ∈ n.visited.filter q, p m ∧ ∃ a, n.below? a = some m := by
    intro m hm
    rw [List.mem_filter, mem_visited_iff, h] at hm
    exact hm.symm
  refine ⟨honly, ?_, hincreasing, ?_⟩
  · intro a m ha hm
    have hmem : m ∈ n.visited.filter q :=
      List.mem_filter.mpr ⟨mem_visited_iff.mpr ⟨a, ha⟩, (h m).mpr hm⟩
    obtain ⟨i, hi⟩ := List.mem_iff_getElem?.mp hmem
    refine ⟨i, hi, ?_⟩
    intro j hj
    have hij : ¬ i < j := fun hlt => (pairwise_getElem? hincreasing hi hj hlt).ne rfl
    have hji : ¬ j < i := fun hlt => (pairwise_getElem? hincreasing hj hi hlt).ne rfl
    omega
  · intro i j m k hi hj
    obtain ⟨u, hu⟩ := (honly m (List.mem_of_getElem? hi)).2
    obtain ⟨v, hv⟩ := (honly k (List.mem_of_getElem? hj)).2
    rw [before_iff_precedes hu hv]
    exact lt_iff_precedes hincreasing hi hj

theorem map_node_leaves (n : Node) :
    n.leaves.map Leaf.node = n.visited.filter fun m => m.tree.isLeaf := by
  rw [leaves, Tree.leavesFrom_eq_filter, visited, List.filter_map]
  rfl

theorem functions_eq_filter (n : Node) :
    n.functions = n.visited.filter fun m => m.tree.kind = .functionDecl :=
  Tree.functionsFrom_eq_filter n.origin [] n.address n.tree

end Node

theorem Tree.isLeaf_iff {t : Tree} :
    t.isLeaf = true ↔ ∃ text, t.kind = .ident text ∨ t.kind = .lit text := by
  obtain ⟨k, cs⟩ := t
  cases k <;> simp [isLeaf, token?, kind, Kind.token?]

/-! ### Paths -/

def Node.IsParentOf (m k : Node) : Prop := ∃ i, m.below? [i] = some k

theorem Node.isChain_of_chain? {n : Node} {a : Address} {c : List Node}
    (h : n.chain? a = some c) : c.IsChain IsParentOf := by
  induction a generalizing n c with
  | nil =>
      cases h
      exact .singleton n
  | cons i a ih =>
      obtain ⟨child, rest, hchild, hrest, rfl⟩ := exists_child_of_chain? h
      have hchain := ih hrest
      obtain ⟨below, rfl⟩ := chain?_head hrest
      exact .cons_cons ⟨i, hchild⟩ hchain

/-! ### One stack -/

/-- Where a walk with one stack is: the stack, and the stacks that were noted at
leaves. -/
structure Walk where
  stack : List Node
  noted : List (List Node)

namespace Walk

def push (w : Walk) (n : Node) : Walk := { w with stack := w.stack ++ [n] }

def pop (w : Walk) : Walk := { w with stack := w.stack.dropLast }

def note (w : Walk) : Walk := { w with noted := w.noted ++ [w.stack] }

end Walk

mutual

/-- Walks through a tree: its root is put on the stack, the stack is noted if the
root is a leaf, the children are walked through in turn, and the last entry is taken
off. -/
def Tree.walk (origin : Nat) (addr : Address) : Tree → Walk → Walk
  | .node k cs, w =>
    let reached := w.push ⟨origin, addr, .node k cs⟩
    let noted := if k.token?.isSome then reached.note else reached
    (walkAll origin addr 0 cs noted).pop

def Tree.walkAll (origin : Nat) (addr : Address) (i : Nat) : List Tree → Walk → Walk
  | [], w => w
  | t :: ts, w => walkAll origin addr (i + 1) ts (walk origin (addr ++ [i]) t w)

end

namespace Tree

mutual

/-- A walk leaves the stack as it was and adds the paths of its own leaves. -/
theorem walk_eq (origin : Nat) (addr : Address) (t : Tree) (w : Walk) :
    t.walk origin addr w =
      ⟨w.stack, w.noted ++ (t.leavesFrom origin w.stack addr).map Leaf.path⟩ := by
  cases t with
  | node k cs =>
      have hinner := walkAll_eq origin addr 0 cs
      by_cases h : k.token?.isSome = true <;>
        simp [walk, hinner, Walk.push, Walk.note, Walk.pop, leavesFrom, h, Leaf.path]

theorem walkAll_eq (origin : Nat) (addr : Address) (i : Nat) (ts : List Tree) (w : Walk) :
    walkAll origin addr i ts w =
      ⟨w.stack, w.noted ++ (leavesFromAll origin w.stack addr i ts).map Leaf.path⟩ := by
  cases ts with
  | nil => simp [walkAll, leavesFromAll]
  | cons t ts =>
      rw [walkAll, walk_eq origin (addr ++ [i]) t w, walkAll_eq origin addr (i + 1) ts]
      simp [leavesFromAll]

end

end Tree

namespace Node

/-- The leaves under a node are its identifiers and literals and the functions are
its declarations, once each and in source order. The paths of the leaves are what a
walk with one stack notes, which is empty again in the end. A path is never empty: it
begins where the walk begins and goes from parent to child down to the leaf. -/
theorem walks_exact (n : Node) :
    n.ListsExactly (fun m => ∃ text, m.tree.kind = .ident text ∨ m.tree.kind = .lit text)
        (n.leaves.map Leaf.node) ∧
      n.ListsExactly (fun m => m.tree.kind = .functionDecl) n.functions ∧
      n.tree.walk n.origin n.address ⟨[], []⟩ = ⟨[], n.leaves.map Leaf.path⟩ ∧
      ∀ l ∈ n.leaves, l.path ≠ [] ∧ l.path.head? = some n ∧ l.path.getLast? = some l.node ∧
        l.path.IsChain IsParentOf := by
  refine ⟨?_, ?_, Tree.walk_eq n.origin n.address n.tree ⟨[], []⟩, ?_⟩
  · rw [map_node_leaves]
    exact n.listsExactly_filter fun m => Tree.isLeaf_iff
  · rw [functions_eq_filter]
    exact n.listsExactly_filter fun m => decide_eq_true_iff
  · intro l hl
    obtain ⟨a, hc, -⟩ := chain?_of_mem_leaves hl
    obtain ⟨rest, hpath⟩ := chain?_head hc
    refine ⟨?_, ?_, ?_, isChain_of_chain? hc⟩
    · rw [hpath]
      exact List.cons_ne_nil n rest
    · rw [hpath, List.head?_cons]
    · rw [Leaf.path, List.getLast?_concat]

end Node

end LeafPaths
