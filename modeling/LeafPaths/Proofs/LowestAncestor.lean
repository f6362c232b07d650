import LeafPaths.Proofs.Reference

/-!
Where two leaves meet. Comparing the chains of two leaves finds the deepest node
that holds both of them, by identity: the same node is found by going down from the
start of the walk, into the child that holds both leaves as long as there is one.
Subtrees that look the same are told apart by where they stand, and a leaf that
stands above another is the node where the two meet.
-/

namespace LeafPaths

/-! ### Addresses -/

namespace Address

/-- The longest address that both addresses begin with. -/
def common : Address → Address → Address
  | i :: a, j :: b => if i = j then i :: common a b else []
  | _, _ => []

theorem common_prefix_left (a b : Address) : common a b <+: a := by
  fun_induction common a b with
  | case1 i a b ih => exact List.cons_prefix_cons.mpr ⟨rfl, ih⟩
  | case2 | case3 => exact List.nil_prefix

theorem common_prefix_right (a b : Address) : common a b <+: b := by
  fun_induction common a b with
  | case1 i a b ih => exact List.cons_prefix_cons.mpr ⟨rfl, ih⟩
  | case2 | case3 => exact List.nil_prefix

theorem prefix_common {a b u : Address} (ha : u <+: a) (hb : u <+: b) : u <+: common a b := by
  induction u generalizing a b with
  | nil => exact List.nil_prefix
  | cons i u ih =>
      obtain ⟨a, rfl⟩ := ha
      obtain ⟨b, rfl⟩ := hb
      have hrest := ih (List.prefix_append u a) (List.prefix_append u b)
      simpa [common] using hrest

theorem exists_of_common_cons {a b w : Address} {i : Nat} (h : common a b = i :: w) :
    ∃ a' b', a = i :: a' ∧ b = i :: b' ∧ common a' b' = w := by
  unfold common at h
  split at h
  · rename_i j a' k b'
    by_cases hjk : j = k
    · rw [if_pos hjk] at h
      cases h
      exact ⟨a', b', rfl, by rw [hjk], rfl⟩
    · rw [if_neg hjk] at h
      cases h
  · cases h

theorem common_of_prefix {a b : Address} (h : a <+: b) : common a b = a ∧ common b a = a := by
  have hleft := prefix_common List.prefix_rfl h
  have hright := prefix_common h List.prefix_rfl
  exact ⟨(common_prefix_left a b).eq_of_length_le hleft.length_le,
    (common_prefix_right b a).eq_of_length_le hright.length_le⟩

theorem common_of_ne (w : Address) {i j : Nat} (h : i ≠ j) (a b : Address) :
    common (w ++ i :: a) (w ++ j :: b) = w := by
  induction w with
  | nil => simp [common, h]
  | cons k w ih => simp [common, ih]

end Address

/-! ### Chains -/

theorem Route.commonLength_of_chain? {n : Node} {a b : Address} {c d : List Node}
    (hc : n.chain? a = some c) (hd : n.chain? b = some d) :
    commonLength c d = (Address.common a b).length + 1 := by
  induction a generalizing n b c d with
  | nil =>
      obtain ⟨rest, rfl⟩ := Node.chain?_head hd
      cases hc
      cases rest <;> simp [commonLength, Node.same, Address.common]
  | cons i a ih =>
      obtain ⟨child, rest, hchild, hrest, rfl⟩ := Node.exists_child_of_chain? hc
      cases b with
      | nil =>
          cases hd
          simp [commonLength, Node.same, Address.common]
      | cons j b =>
          obtain ⟨child', rest', hchild', hrest', rfl⟩ := Node.exists_child_of_chain? hd
          by_cases hij : i = j
          · subst hij
            obtain rfl : child = child' := Option.some.inj (hchild.symm.trans hchild')
            simp [commonLength, Node.same, Address.common, ih hrest hrest']
          · obtain ⟨below, rfl⟩ := Node.chain?_head hrest
            obtain ⟨below', rfl⟩ := Node.chain?_head hrest'
            have haddress := (Node.address_of_below? hchild).2
            have haddress' := (Node.address_of_below? hchild').2
            simp [commonLength, Node.same, Address.common, hij, haddress, haddress']

/-! ### Holding -/

namespace Node

/-- Whether a search through the whole subtree of a node meets another, by
identity. -/
def holds (n m : Node) : Bool := (Reference.stack? n m).isSome

theorem holds_iff_isPrefix {f n m : Node} {u v : Address} (hn : f.below? u = some n)
    (hm : f.below? v = some m) : n.holds m = true ↔ u <+: v := by
  obtain ⟨hnorigin, hnaddress⟩ := address_of_below? hn
  obtain ⟨hmorigin, hmaddress⟩ := address_of_below? hm
  constructor
  · intro hholds
    by_cases huv : u <+: v
    · exact huv
    · have hapart : ¬ n.address <+: m.address := by
        rwa [hnaddress, hmaddress, List.prefix_append_right_inj]
      rw [holds, Reference.stack?, Reference.stackFrom?_eq_none m _ _ _ hapart] at hholds
      cases hholds
  · rintro ⟨r, rfl⟩
    rw [below?_append, hn, Option.bind_some] at hm
    obtain ⟨above, hc⟩ := exists_chain?_of_below? hm
    have hstack := Reference.stack?_of_chain? m hc (address_of_below? hm).1 (address_of_below? hm).2
    rw [holds, hstack]
    rfl

end Node

mutual

/-- Goes down into the first child that holds both nodes, as long as there is one. -/
def Tree.deepestFrom (a b : Node) (origin : Nat) (addr : Address) : Tree → Node
  | .node k cs => (deepestFromAny? a b origin addr 0 cs).getD ⟨origin, addr, .node k cs⟩

def Tree.deepestFromAny? (a b : Node) (origin : Nat) (addr : Address) (i : Nat) :
    List Tree → Option Node
  | [] => none
  | t :: ts =>
    let child : Node := ⟨origin, addr ++ [i], t⟩
    if child.holds a && child.holds b then some (deepestFrom a b origin (addr ++ [i]) t)
    else deepestFromAny? a b origin addr (i + 1) ts

end

def Node.deepestHolding (n a b : Node) : Node := n.tree.deepestFrom a b n.origin n.address

namespace Tree

theorem deepestFromAny?_eq_none (a b : Node) (origin : Nat) (addr : Address) (i : Nat)
    (ts : List Tree)
    (h : ∀ (j : Nat) (t : Tree), ts[j]? = some t →
      (Node.holds ⟨origin, addr ++ [i + j], t⟩ a &&
        Node.holds ⟨origin, addr ++ [i + j], t⟩ b) = false) :
    deepestFromAny? a b origin addr i ts = none := by
  induction ts generalizing i with
  | nil => rfl
  | cons t ts ih =>
      have hrest := ih (i + 1) fun j u hu => by
        rw [Nat.add_assoc, Nat.add_comm 1 j]
        exact h (j + 1) u hu
      have hfirst := h 0 t rfl
      rw [Nat.add_zero] at hfirst
      simp [deepestFromAny?, hfirst, hrest]

theorem deepestFromAny?_of_getElem? (a b : Node) (origin : Nat) (addr : Address) (i j : Nat)
    (ts : List Tree) (t : Tree) (ht : ts[j]? = some t)
    (hboth : (Node.holds ⟨origin, addr ++ [i + j], t⟩ a &&
      Node.holds ⟨origin, addr ++ [i + j], t⟩ b) = true)
    (hbefore : ∀ (k : Nat) (u : Tree), k < j → ts[k]? = some u →
      Node.holds ⟨origin, addr ++ [i + k], u⟩ a = false) :
    deepestFromAny? a b origin addr i ts = some (deepestFrom a b origin (addr ++ [i + j]) t) := by
  induction ts generalizing i j with
  | nil => simp at ht
  | cons first ts ih =>
      cases j with
      | zero =>
          cases ht
          rw [Nat.add_zero] at hboth ⊢
          simp [deepestFromAny?, hboth]
      | succ j =>
          have hfirst := hbefore 0 first (Nat.zero_lt_succ j) rfl
          rw [Nat.add_zero] at hfirst
          have hindex : i + (j + 1) = i + 1 + j := by omega
          rw [hindex] at hboth ⊢
          have hrest := ih (i + 1) j ht hboth fun k u hk hu => by
            rw [Nat.add_assoc, Nat.add_comm 1 k]
            exact hbefore (k + 1) u (by omega) hu
          simp [deepestFromAny?, hfirst, hrest]

end Tree

namespace Node

theorem deepestHolding_stop {n a b : Node}
    (h : ∀ (i : Nat) (child : Node), n.below? [i] = some child →
      ¬ (child.holds a = true ∧ child.holds b = true)) : n.deepestHolding a b = n := by
  obtain ⟨origin, addr, ⟨k, cs⟩⟩ := n
  have hnone := Tree.deepestFromAny?_eq_none a b origin addr 0 cs fun i t ht => by
    have hchild := h i ⟨origin, addr ++ [i], t⟩ (by simp [below?_child, Tree.children, ht])
    simpa using hchild
  simp [deepestHolding, Tree.deepestFrom, hnone]

theorem deepestHolding_step {n child a b : Node} {i : Nat} (hchild : n.below? [i] = some child)
    (ha : child.holds a = true) (hb : child.holds b = true)
    (hother : ∀ (j : Nat) (other : Node), n.below? [j] = some other → other.holds a = true →
      j = i) : n.deepestHolding a b = child.deepestHolding a b := by
  obtain ⟨origin, addr, ⟨k, cs⟩⟩ := n
  rw [below?_child] at hchild
  obtain ⟨t, ht, rfl⟩ := Option.map_eq_some_iff.mp hchild
  have hsome := Tree.deepestFromAny?_of_getElem? a b origin addr 0 i cs t ht
    (by simpa using ⟨ha, hb⟩) fun j u hj hu => by
      have hne := hother j ⟨origin, addr ++ [j], u⟩ (by simp [below?_child, Tree.children, hu])
      simpa using fun hholds => Nat.ne_of_lt hj (hne hholds)
  simp [deepestHolding, Tree.deepestFrom, hsome]

/-- No two children of a node hold the same node. -/
theorem child_unique {f n m left right : Node} {u v : Address} {i j : Nat}
    (hn : f.below? u = some n) (hm : f.below? v = some m) (hleft : n.below? [i] = some left)
    (hright : n.below? [j] = some right) (hl : left.holds m = true) (hr : right.holds m = true) :
    i = j := by
  have hur := (holds_iff_isPrefix (below?_trans hn hright) hm).mp hr
  obtain ⟨x, rfl⟩ := (holds_iff_isPrefix (below?_trans hn hleft) hm).mp hl
  rw [List.append_assoc, List.prefix_append_right_inj] at hur
  exact (List.cons_prefix_cons.mp hur).1.symm

theorem deepestHolding_of_common_nil {n a b : Node} {u v : Address} (ha : n.below? u = some a)
    (hb : n.below? v = some b) (h : Address.common u v = []) : n.deepestHolding a b = n := by
  apply deepestHolding_stop
  rintro i child hchild ⟨hholds, hholds'⟩
  have hu := (holds_iff_isPrefix hchild ha).mp hholds
  have hv := (holds_iff_isPrefix hchild hb).mp hholds'
  have hcommon := Address.prefix_common hu hv
  rw [h] at hcommon
  simp at hcommon

theorem below?_common {n a b : Node} {u v : Address} (ha : n.below? u = some a)
    (hb : n.below? v = some b) : n.below? (Address.common u v) = some (n.deepestHolding a b) := by
  generalize hw : Address.common u v = w
  induction w generalizing n u v with
  | nil => rw [below?_nil, deepestHolding_of_common_nil ha hb hw]
  | cons i w ih =>
      obtain ⟨u, v, rfl, rfl, hrest⟩ := Address.exists_of_common_cons hw
      obtain ⟨child, hchild, ha'⟩ := exists_child_of_below? ha
      have hb' : child.below? v = some b := (below?_cons hchild v).symm.trans hb
      have hstep : n.deepestHolding a b = child.deepestHolding a b := by
        apply deepestHolding_step hchild
        · exact (holds_iff_isPrefix child.below?_nil ha').mpr List.nil_prefix
        · exact (holds_iff_isPrefix child.below?_nil hb').mpr List.nil_prefix
        · intro j other hother hholds
          have hfirst := (holds_iff_isPrefix hother ha).mp hholds
          exact (List.cons_prefix_cons.mp hfirst).1
      rw [below?_cons hchild, hstep]
      exact ih ha' hb' hrest

theorem eq_deepestHolding {f a b m : Node} {u v : Address} (ha : f.below? u = some a)
    (hb : f.below? v = some b) (hm : f.below? (Address.common u v) = some m) :
    f.deepestHolding a b = m := by
  rw [below?_common ha hb] at hm
  exact Option.some.inj hm

theorem deepestHolding_of_apart {f n left right a b : Node} {u v w : Address} {i j : Nat}
    (ha : f.below? u = some a) (hb : f.below? v = some b) (hn : f.below? w = some n)
    (hleft : n.below? [i] = some left) (hright : n.below? [j] = some right)
    (hla : left.holds a = true) (hrb : right.holds b = true) (hij : i ≠ j) :
    f.deepestHolding a b = n := by
  obtain ⟨u, rfl⟩ := (holds_iff_isPrefix (below?_trans hn hleft) ha).mp hla
  obtain ⟨v, rfl⟩ := (holds_iff_isPrefix (below?_trans hn hright) hb).mp hrb
  apply eq_deepestHolding ha hb
  rwa [List.append_assoc, List.append_assoc, List.singleton_append, List.singleton_append,
    Address.common_of_ne w hij]

theorem deepestHolding_of_holds {f a b : Node} {u v : Address} (ha : f.below? u = some a)
    (hb : f.below? v = some b) (h : a.holds b = true) :
    f.deepestHolding a b = a ∧ f.deepestHolding b a = a := by
  have huv := Address.common_of_prefix ((holds_iff_isPrefix ha hb).mp h)
  exact ⟨eq_deepestHolding ha hb (by rwa [huv.1]), eq_deepestHolding hb ha (by rwa [huv.2])⟩

def depth (n : Node) : Nat := n.address.length

theorem depth_of_below? {n m : Node} {a : Address} (h : n.below? a = some m) :
    m.depth = n.depth + a.length := by
  rw [depth, (address_of_below? h).2, List.length_append, depth]

/-- A node under `f` that holds both nodes, and any other one that does stands
higher up. -/
structure IsDeepestHolding (f a b m : Node) : Prop where
  under : ∃ u, f.below? u = some m
  left : m.holds a = true
  right : m.holds b = true
  deepest : ∀ (u : Address) (n : Node), f.below? u = some n → n.holds a = true →
    n.holds b = true → n ≠ m → n.depth < m.depth

theorem depth_lt_of_prefix {f n m : Node} {u v : Address} (hn : f.below? u = some n)
    (hm : f.below? v = some m) (huv : u <+: v) (hne : n ≠ m) : n.depth < m.depth := by
  have hlt : u.length < v.length := by
    apply Nat.lt_of_le_of_ne huv.length_le
    intro hlength
    rw [huv.eq_of_length hlength, hm] at hn
    exact hne (Option.some.inj hn).symm
  rw [depth_of_below? hn, depth_of_below? hm]
  exact Nat.add_lt_add_left hlt _

theorem isDeepestHolding_of_common {f a b m : Node} {u v : Address} (ha : f.below? u = some a)
    (hb : f.below? v = some b) (hm : f.below? (Address.common u v) = some m) :
    f.IsDeepestHolding a b m where
  under := ⟨_, hm⟩
  left := (holds_iff_isPrefix hm ha).mpr (Address.common_prefix_left u v)
  right := (holds_iff_isPrefix hm hb).mpr (Address.common_prefix_right u v)
  deepest := by
    intro w n hn hna hnb hne
    have hwu := (holds_iff_isPrefix hn ha).mp hna
    have hwv := (holds_iff_isPrefix hn hb).mp hnb
    exact depth_lt_of_prefix hn hm (Address.prefix_common hwu hwv) hne

end Node

/-! ### Leaves -/

namespace Leaf

theorem exists_below? {f : Node} {l : Leaf} (hl : l ∈ f.leaves) :
    ∃ u, f.chain? u = some l.path ∧ f.below? u = some l.node := by
  obtain ⟨u, hc, -⟩ := Node.chain?_of_mem_leaves hl
  exact ⟨u, hc, Node.below?_of_chain? hc⟩

/-- The last node that the chains of two leaves share, and the route through it. -/
theorem between_of_chain? {f : Node} {a b : Leaf} {u v : Address} (hc : f.chain? u = some a.path)
    (hd : f.chain? v = some b.path) :
    ∃ lca route, f.below? (Address.common u v) = some lca ∧
      a.path[(Address.common u v).length]? = some lca ∧
      b.path[(Address.common u v).length]? = some lca ∧
      Route.between a.path b.path = some route ∧ route.lca = lca.tag ∧
      route.up.length + (Address.common u v).length = u.length ∧
      route.down.length + (Address.common u v).length = v.length := by
  have hk := Route.commonLength_of_chain? hc hd
  obtain ⟨hleft, hsome⟩ := Node.getElem?_of_chain? hc (Address.common_prefix_left u v)
  obtain ⟨hright, -⟩ := Node.getElem?_of_chain? hd (Address.common_prefix_right u v)
  obtain ⟨lca, hlca⟩ := Option.isSome_iff_exists.mp hsome
  obtain ⟨meet, hmeet, hroute⟩ := Route.between_of_commonLength_ne_zero (P := a.path) (Q := b.path)
    (by omega)
  rw [hk, Nat.add_sub_cancel, hleft, hlca] at hmeet
  cases hmeet
  refine ⟨lca, _, hlca, hleft.trans hlca, hright.trans hlca, hroute, rfl, ?_, ?_⟩
  · have hlength := Node.length_of_chain? hc
    have hle := (Address.common_prefix_left u v).length_le
    simp only [List.length_reverse, List.length_map, List.length_drop]
    omega
  · have hlength := Node.length_of_chain? hd
    have hle := (Address.common_prefix_right u v).length_le
    simp only [List.length_map, List.length_drop]
    omega

/-- Two leaves under a node meet at the deepest node that holds both. It is the
last node that their chains share, the one that going down finds, and the one whose
tag is written between the way up and the way down; each way has as many steps as
its leaf is deeper. No two children of a node hold the same leaf. If two of them hold
one leaf each, the leaves meet at that node, however much the children look alike; and
if one leaf holds the other, it is itself the node where they meet. -/
theorem meet_at_deepest (f : Node) (a b : Leaf) (ha : a ∈ f.leaves) (hb : b ∈ f.leaves) :
    let k := Route.commonLength a.path b.path
    let lca := f.deepestHolding a.node b.node
    k ≠ 0 ∧ a.path[k - 1]? = some lca ∧ b.path[k - 1]? = some lca ∧
      f.IsDeepestHolding a.node b.node lca ∧
      (∃ route : Route, Route.between a.path b.path = some route ∧
        Triple.between? a b = some ⟨a.token, route.render, b.token⟩ ∧
        route.lca = lca.tag ∧
        route.up.length + lca.depth = a.node.depth ∧
        route.down.length + lca.depth = b.node.depth ∧
        route.up.length + route.down.length = a.node.depth + b.node.depth - 2 * lca.depth) ∧
      (∀ (w : Address) (n left right : Node) (i j : Nat), f.below? w = some n →
        n.below? [i] = some left → n.below? [j] = some right → left.holds a.node = true →
        (right.holds a.node = true → i = j) ∧
          (right.holds b.node = true → i ≠ j → lca = n)) ∧
      (a.node.holds b.node = true → lca = a.node) ∧
      (b.node.holds a.node = true → lca = b.node) := by
  intro k lca
  obtain ⟨u, hc, hua⟩ := exists_below? ha
  obtain ⟨v, hd, hvb⟩ := exists_below? hb
  have hk : k = (Address.common u v).length + 1 := Route.commonLength_of_chain? hc hd
  have hlca : f.below? (Address.common u v) = some lca := Node.below?_common hua hvb
  obtain ⟨meet, route, hmeet, hleft, hright, hroute, htag, hup, hdown⟩ := between_of_chain? hc hd
  obtain rfl : lca = meet := Option.some.inj (hlca.symm.trans hmeet)
  have hdepth := Node.depth_of_below? hlca
  have hadepth := Node.depth_of_below? hua
  have hbdepth := Node.depth_of_below? hvb
  refine ⟨by omega, by rwa [hk], by rwa [hk], Node.isDeepestHolding_of_common hua hvb hlca,
    ⟨route, hroute, by simp [Triple.between?, hroute], htag, by omega, by omega, by omega⟩,
    ?_, ?_, ?_⟩
  · intro w n left right i j hn hi hj hholds
    refine ⟨Node.child_unique hn hua hi hj hholds, ?_⟩
    intro hother hij
    exact Node.deepestHolding_of_apart hua hvb hn hi hj hholds hother hij
  · intro hholds
    exact (Node.deepestHolding_of_holds hua hvb hholds).1
  · intro hholds
    exact (Node.deepestHolding_of_holds hvb hua hholds).2

/-- Twins below one node, and a leaf below a leaf. -/
theorem meet_at_deepest_twins :
    let twin := Tree.node (.binary "+") [.ident "x", .lit "1"]
    let pair := Tree.node .tuple [twin, twin]
    let upper := Tree.node (.ident "y") [.ident "z"]
    let f := Node.root 0 (.node .functionDecl [pair, upper])
    ∃ a b c d : Leaf, [f.leaves[0]?, f.leaves[2]?, f.leaves[4]?, f.leaves[5]?] =
        [some a, some b, some c, some d] ∧
      f.deepestHolding a.node b.node = ⟨0, [0], pair⟩ ∧
      a.path[Route.commonLength a.path b.path - 1]? = some ⟨0, [0], pair⟩ ∧
      f.deepestHolding c.node d.node = c.node ∧ c.node = ⟨0, [1], upper⟩ := by
  intro twin pair upper f
  refine ⟨_, _, _, _, rfl, ?_⟩
  obtain ⟨-, hshared, -, -, -, hapart, -⟩ :=
    meet_at_deepest f _ _ (List.mem_of_getElem? (i := 0) rfl) (List.mem_of_getElem? (i := 2) rfl)
  obtain ⟨-, -, -, -, -, -, hupper, -⟩ :=
    meet_at_deepest f _ _ (List.mem_of_getElem? (i := 4) rfl) (List.mem_of_getElem? (i := 5) rfl)
  have hpair := (hapart [0] ⟨0, [0], pair⟩ ⟨0, [0, 0], twin⟩ ⟨0, [0, 1], twin⟩ 0 1 rfl rfl rfl
    (by decide)).2 (by decide) (by decide)
  exact ⟨hpair, hpair ▸ hshared, hupper (by decide), rfl⟩

end Leaf

end LeafPaths
