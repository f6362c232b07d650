import LeafPaths.Proofs.Pairing
import LeafPaths.Proofs.RouteText
import LeafPaths.Proofs.Traversal

/-!
A reference for the extraction of contexts, and its agreement with it on every
tree. The reference keeps no ancestors while it lists leaves. For each pair it
searches the whole function for both nodes again, by identity and depth first,
and compares the stacks it finds from the root's end. A search that finds
nothing, a pair that meets nowhere and a leaf without a token would be failures
of the reference; none of them occurs.
-/

namespace LeafPaths.Reference

mutual

def leafNodesFrom (origin : Nat) (addr : Address) : Tree → List Node
  | .node k cs =>
    let here : Node := ⟨origin, addr, .node k cs⟩
    let inner := leafNodesFromAll origin addr 0 cs
    if here.tree.isLeaf then here :: inner else inner

def leafNodesFromAll (origin : Nat) (addr : Address) (i : Nat) : List Tree → List Node
  | [] => []
  | t :: ts => leafNodesFrom origin (addr ++ [i]) t ++ leafNodesFromAll origin addr (i + 1) ts

end

def leafNodes (n : Node) : List Node := leafNodesFrom n.origin n.address n.tree

mutual

/-- Searches for a node at and below an address, the first match depth first.
The answer is the stack from that node up to where the search began. -/
def stackFrom? (target : Node) (origin : Nat) (addr : Address) : Tree → Option (List Node)
  | .node k cs =>
    let here : Node := ⟨origin, addr, .node k cs⟩
    if here.same target then some [here]
    else (stackFromAny? target origin addr 0 cs).map (· ++ [here])

def stackFromAny? (target : Node) (origin : Nat) (addr : Address) (i : Nat) :
    List Tree → Option (List Node)
  | [] => none
  | t :: ts =>
    (stackFrom? target origin (addr ++ [i]) t).or (stackFromAny? target origin addr (i + 1) ts)

end

def stack? (root target : Node) : Option (List Node) :=
  stackFrom? target root.origin root.address root.tree

/-- Counts on from `common` how many nodes two stacks share at the root's end. -/
def sharedEnd (s t : List Node) (common : Nat) : Nat :=
  if _h : common < s.length ∧ common < t.length then
    if s[s.length - 1 - common].same t[t.length - 1 - common] then sharedEnd s t (common + 1)
    else common
  else common
termination_by s.length - common

def bracketed (n : Node) : String := "[" ++ n.tag ++ "]"

def path? (function source target : Node) : Option String := do
  let up ← stack? function source
  let down ← stack? function target
  let common := sharedEnd up down 0
  let lca ← up[up.length - common]?
  return String.join ((up.take (up.length - common)).map fun n => bracketed n ++ "UP") ++
    bracketed lca ++
    String.join ((down.take (down.length - common)).reverse.map fun n => "DOWN" ++ bracketed n)

def triple? (function source target : Node) : Option Triple := do
  let left ← source.tree.token?
  let path ← path? function source target
  let right ← target.tree.token?
  return ⟨left, path, right⟩

def functionTriples? (function : Node) : Option (List Triple) :=
  let leaves := leafNodes function
  (orderedPairs leaves.length).mapM fun p => do
    triple? function (← leaves[p.1]?) (← leaves[p.2]?)

def contexts? (t : Tree) : Option (List Triple) :=
  ((Node.root 0 t).functions.mapM functionTriples?).map List.flatten

/-! ### Leaves and stacks -/

mutual

theorem leafNodesFrom_eq (origin : Nat) (above : List Node) (addr : Address) (t : Tree) :
    leafNodesFrom origin addr t = (t.leavesFrom origin above addr).map Leaf.node := by
  cases t with
  | node k cs =>
      have hinner := leafNodesFromAll_eq origin (above ++ [⟨origin, addr, .node k cs⟩]) addr 0 cs
      by_cases h : k.token?.isSome = true <;>
        simp [leafNodesFrom, Tree.leavesFrom, Tree.isLeaf, Tree.token?, Tree.kind, h, hinner]

theorem leafNodesFromAll_eq (origin : Nat) (above : List Node) (addr : Address) (i : Nat)
    (ts : List Tree) :
    leafNodesFromAll origin addr i ts =
      (Tree.leavesFromAll origin above addr i ts).map Leaf.node := by
  cases ts with
  | nil => rfl
  | cons t ts =>
      have hhead := leafNodesFrom_eq origin above (addr ++ [i]) t
      have htail := leafNodesFromAll_eq origin above addr (i + 1) ts
      simp [leafNodesFromAll, Tree.leavesFromAll, hhead, htail]

end

mutual

theorem stackFrom?_eq_none (target : Node) (origin : Nat) (addr : Address) (t : Tree)
    (h : ¬ addr <+: target.address) : stackFrom? target origin addr t = none := by
  cases t with
  | node k cs =>
      have hother : (⟨origin, addr, .node k cs⟩ : Node).same target = false := by
        have hne : addr ≠ target.address := by
          rintro rfl
          exact h (List.prefix_refl _)
        simp [Node.same, hne]
      simp [stackFrom?, hother, stackFromAny?_eq_none target origin addr 0 cs h]

theorem stackFromAny?_eq_none (target : Node) (origin : Nat) (addr : Address) (i : Nat)
    (ts : List Tree) (h : ¬ addr <+: target.address) :
    stackFromAny? target origin addr i ts = none := by
  cases ts with
  | nil => rfl
  | cons t ts =>
      have hchild : ¬ addr ++ [i] <+: target.address := by
        intro hp
        exact h ((List.prefix_append addr [i]).trans hp)
      simp [stackFromAny?, stackFrom?_eq_none target origin (addr ++ [i]) t hchild,
        stackFromAny?_eq_none target origin addr (i + 1) ts h]

end

/-- The search passes the earlier siblings, which look the same at most, and
finds a node in the child that its address names. -/
theorem stackFromAny?_of_getElem? (target : Node) (origin : Nat) (addr rest : Address)
    (ts : List Tree) (i j : Nat) (t : Tree) (s : List Node) (ht : ts[j]? = some t)
    (haddr : target.address = addr ++ (i + j) :: rest)
    (hs : stackFrom? target origin (addr ++ [i + j]) t = some s) :
    stackFromAny? target origin addr i ts = some s := by
  induction ts generalizing i j with
  | nil => simp at ht
  | cons first ts ih =>
      cases j with
      | zero =>
          cases ht
          simp only [Nat.add_zero] at hs
          simp [stackFromAny?, hs]
      | succ j =>
          have hfirst : ¬ addr ++ [i] <+: target.address := by
            rw [haddr, List.prefix_append_right_inj, List.cons_prefix_cons]
            omega
          have hindex : i + (j + 1) = i + 1 + j := by omega
          rw [hindex] at haddr hs
          rw [stackFromAny?, stackFrom?_eq_none target origin _ first hfirst, Option.none_or]
          exact ih (i + 1) j ht haddr hs

theorem stack?_of_chain? (target : Node) {n : Node} {a : Address} {c : List Node}
    (hc : n.chain? a = some c) (ho : target.origin = n.origin)
    (ha : target.address = n.address ++ a) : stack? n target = some c.reverse := by
  unfold stack?
  induction a generalizing n c with
  | nil =>
      cases hc
      obtain ⟨origin, addr, ⟨k, cs⟩⟩ := n
      simp only at ho ha
      simp [stackFrom?, Node.same, ho, ha]
  | cons i a ih =>
      rw [Node.chain?_cons] at hc
      obtain ⟨t, ht, hc⟩ := Option.bind_eq_some_iff.mp hc
      obtain ⟨rest, hrest, rfl⟩ := Option.map_eq_some_iff.mp hc
      obtain ⟨origin, addr, ⟨k, cs⟩⟩ := n
      simp only at ho ha ht hrest
      have hchild := ih hrest ho (by simp [ha])
      have hother : (⟨origin, addr, .node k cs⟩ : Node).same target = false := by
        simp [Node.same, ha]
      have hany := stackFromAny?_of_getElem? target origin addr a cs 0 i t _ ht
        (by simpa using ha) (by simpa using hchild)
      simp [stackFrom?, hother, hany]

/-! ### Paths -/

private theorem getElem_reverse_end (ns : List Node) (i : Nat) (h : i < ns.length)
    (h' : ns.reverse.length - 1 - i < ns.reverse.length) :
    ns.reverse[ns.reverse.length - 1 - i] = ns[i] := by
  rw [List.getElem_reverse]
  congr 1
  rw [List.length_reverse]
  omega

/-- Comparing stacks from the root's end is comparing chains from their start. -/
theorem sharedEnd_reverse (c d : List Node) (common : Nat) :
    sharedEnd c.reverse d.reverse common =
      common + Route.commonLength (c.drop common) (d.drop common) := by
  fun_induction sharedEnd c.reverse d.reverse common with
  | case1 common h hsame ih =>
      have hc : common < c.length := by simpa using h.1
      have hd : common < d.length := by simpa using h.2
      rw [getElem_reverse_end c common hc, getElem_reverse_end d common hd] at hsame
      have hstep := Route.commonLength_drop hc hd
      rw [if_pos hsame] at hstep
      omega
  | case2 common h hother =>
      have hc : common < c.length := by simpa using h.1
      have hd : common < d.length := by simpa using h.2
      rw [getElem_reverse_end c common hc, getElem_reverse_end d common hd] at hother
      rw [Route.commonLength_drop hc hd, if_neg hother, Nat.add_zero]
  | case3 common h =>
      rw [List.length_reverse, List.length_reverse] at h
      have hzero : Route.commonLength (c.drop common) (d.drop common) = 0 := by
        by_cases hc : common < c.length
        · have hd : d.drop common = [] := List.drop_eq_nil_of_le (by omega)
          exact (Route.commonLength_eq_zero_iff _ _).mpr (Or.inr (Or.inl hd))
        · have hc : c.drop common = [] := List.drop_eq_nil_of_le (by omega)
          exact (Route.commonLength_eq_zero_iff _ _).mpr (Or.inl hc)
      rw [hzero, Nat.add_zero]

theorem commonLength_ne_zero_of_chain? {n : Node} {a b : Address} {c d : List Node}
    (hc : n.chain? a = some c) (hd : n.chain? b = some d) : Route.commonLength c d ≠ 0 := by
  obtain ⟨c', rfl⟩ := Node.chain?_head hc
  obtain ⟨d', rfl⟩ := Node.chain?_head hd
  simp [Route.commonLength, Node.same]

theorem path?_of_chain? {f source target : Node} {a b : Address} {c d : List Node}
    (hc : f.chain? a = some c) (hd : f.chain? b = some d)
    (hsource : source.origin = f.origin ∧ source.address = f.address ++ a)
    (htarget : target.origin = f.origin ∧ target.address = f.address ++ b) :
    path? f source target = (Route.between c d).map Route.render := by
  have hk := commonLength_ne_zero_of_chain? hc hd
  obtain ⟨hleft, hright⟩ := Route.commonLength_le c d
  have hshared : sharedEnd c.reverse d.reverse 0 = Route.commonLength c d := by
    simpa using sharedEnd_reverse c d 0
  obtain ⟨lca, hlca, hroute⟩ := Route.between_of_commonLength_ne_zero hk
  have hmeet : c.reverse[c.length - Route.commonLength c d]? = some lca := by
    rw [List.getElem?_reverse (by omega), ← hlca]
    congr 1
    omega
  have hbelow : c.reverse.take (c.length - Route.commonLength c d) =
      (c.drop (Route.commonLength c d)).reverse := by
    rw [List.take_reverse, Nat.sub_sub_self hleft]
  have hbeyond : (d.reverse.take (d.length - Route.commonLength c d)).reverse =
      d.drop (Route.commonLength c d) := by
    rw [List.take_reverse, Nat.sub_sub_self hright, List.reverse_reverse]
  have hup := stack?_of_chain? source hc hsource.1 hsource.2
  have hdown := stack?_of_chain? target hd htarget.1 htarget.2
  simp only [path?, hup, hdown, hshared, hroute, List.length_reverse, Option.bind_eq_bind,
    Option.bind_some, hmeet, hbelow, hbeyond]
  simp [Route.render, Route.renderTag, bracketed, Function.comp_def]

/-! ### Contexts -/

theorem between?_isSome {f : Node} {l m : Leaf} (hl : l ∈ f.leaves) (hm : m ∈ f.leaves) :
    (Triple.between? l m).isSome = true := by
  obtain ⟨a, hc, -⟩ := Node.chain?_of_mem_leaves hl
  obtain ⟨b, hd, -⟩ := Node.chain?_of_mem_leaves hm
  have hk := commonLength_ne_zero_of_chain? hc hd
  obtain ⟨lca, -, hroute⟩ := Route.between_of_commonLength_ne_zero hk
  simp [Triple.between?, hroute]

theorem triple?_eq_between? {f : Node} {l m : Leaf} (hl : l ∈ f.leaves) (hm : m ∈ f.leaves) :
    triple? f l.node m.node = Triple.between? l m := by
  obtain ⟨a, hc, hlo, hla, hleft⟩ := Node.chain?_of_mem_leaves hl
  obtain ⟨b, hd, hmo, hma, hright⟩ := Node.chain?_of_mem_leaves hm
  obtain ⟨left, hleft⟩ := Option.isSome_iff_exists.mp hleft
  obtain ⟨right, hright⟩ := Option.isSome_iff_exists.mp hright
  have hpath := path?_of_chain? hc hd ⟨hlo, hla⟩ ⟨hmo, hma⟩
  cases hroute : Route.between l.path m.path <;>
    simp [triple?, Triple.between?, Leaf.token, hleft, hright, hpath, hroute]

theorem triple?_at {f : Node} {p : Nat × Nat} (hp : p ∈ orderedPairs f.leaves.length) :
    ((leafNodes f)[p.1]?.bind fun a => (leafNodes f)[p.2]?.bind fun b => triple? f a b) =
        Triple.at? f.leaves p ∧
      (Triple.at? f.leaves p).isSome = true := by
  obtain ⟨i, j⟩ := p
  obtain ⟨hij, hj⟩ := mem_orderedPairs.mp hp
  have hi : i < f.leaves.length := Nat.lt_trans hij hj
  have hnodes : leafNodes f = f.leaves.map Leaf.node := leafNodesFrom_eq _ [] _ _
  have hl : f.leaves[i] ∈ f.leaves := List.getElem_mem hi
  have hm : f.leaves[j] ∈ f.leaves := List.getElem_mem hj
  constructor
  · simp [hnodes, Triple.at?, hi, hj, triple?_eq_between? hl hm]
  · simpa [Triple.at?, hi, hj] using between?_isSome hl hm

private theorem mapM_eq_some_filterMap {α β : Type} (g h : α → Option β) (xs : List α)
    (hall : ∀ x ∈ xs, g x = h x ∧ (h x).isSome = true) : xs.mapM g = some (xs.filterMap h) := by
  induction xs with
  | nil => rfl
  | cons x xs ih =>
      obtain ⟨hx, hsome⟩ := hall x (by simp)
      obtain ⟨y, hy⟩ := Option.isSome_iff_exists.mp hsome
      have htail := ih fun z hz => hall z (by simp [hz])
      simp [hx, hy, htail]

theorem functionTriples?_eq (f : Node) :
    functionTriples? f = some (Triple.ofLeaves f.leaves) := by
  have hlength : (leafNodes f).length = f.leaves.length := by
    rw [leafNodes, leafNodesFrom_eq _ [], List.length_map]
    rfl
  rw [functionTriples?, hlength, Triple.ofLeaves_eq_pairs]
  exact mapM_eq_some_filterMap _ _ _ fun p hp => triple?_at hp

/-- The reference succeeds on every tree and lists the contexts that are
extracted, in their order; no pair of leaves of a function goes without one. -/
theorem contexts?_eq_contexts (t : Tree) :
    contexts? t = some t.contexts ∧
      ∀ f ∈ (Node.root 0 t).functions, ∀ l ∈ f.leaves, ∀ m ∈ f.leaves,
        (Triple.between? l m).isSome = true := by
  constructor
  · have heach : functionTriples? = fun f => pure (Triple.ofLeaves f.leaves) :=
      funext functionTriples?_eq
    have hall : (Node.root 0 t).functions.mapM functionTriples? =
        some ((Node.root 0 t).functions.map fun f => Triple.ofLeaves f.leaves) := by
      rw [heach]
      exact List.mapM_pure
    rw [contexts?, hall, Option.map_some, Tree.contexts, Tree.functionContexts, List.flatMap_map]
    rfl
  · intro f _ l hl m hm
    exact between?_isSome hl hm

/-- Twin subtrees are told apart by where they stand. -/
theorem contexts?_eq_contexts_twins :
    let twin := Tree.node (.binary "+") [.ident "x", .lit "1"]
    let t := Tree.node .functionDecl [.node .tuple [twin, twin]]
    contexts? t = some t.contexts ∧
      ⟨"x", "[Ident]UP[BinaryExpr:+]UP[Tuple]DOWN[BinaryExpr:+]DOWN[Ident]", "x"⟩ ∈ t.contexts ∧
      ∀ l ∈ (Node.root 0 t).leaves, ∀ m ∈ (Node.root 0 t).leaves,
        (Triple.between? l m).isSome = true := by
  intro twin t
  obtain ⟨hsame, hpairs⟩ := contexts?_eq_contexts t
  have hfunction : Node.root 0 t ∈ (Node.root 0 t).functions := List.mem_cons_self
  exact ⟨hsame, by decide, hpairs _ hfunction⟩

end LeafPaths.Reference
