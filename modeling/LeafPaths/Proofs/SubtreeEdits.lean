import LeafPaths.Context
import LeafPaths.Proofs.Traversal

/-!
Edits of a tree. Another subtree is put in the place of one, whatever functions
either holds. The functions around the place see the edit and those in it come
and go, but all others keep their place and their contexts, and the order among
them.
-/

namespace LeafPaths

/-- Neither place is on the way to the other. -/
def Address.Apart (a b : Address) : Prop := ¬ a <+: b ∧ ¬ b <+: a

instance (a b : Address) : Decidable (a.Apart b) := inferInstanceAs (Decidable (_ ∧ _))

namespace Tree

theorem set_cons {t child : Tree} {i : Nat} (h : t.children[i]? = some child) (s : Tree)
    (a : Address) :
    t.set s (i :: a) = .node t.kind (t.children.set i (child.set s a)) := by
  rw [set, h]

theorem exists_child_of_get? {t u : Tree} {i : Nat} {a : Address}
    (h : t.get? (i :: a) = some u) :
    ∃ child, t.children[i]? = some child ∧ child.get? a = some u := by
  rw [get?] at h
  cases hchild : t.children[i]? with
  | none => simp [hchild] at h
  | some child =>
      rw [hchild] at h
      exact ⟨child, rfl, h⟩

theorem get?_set {t u : Tree} {a : Address} (s : Tree) (h : t.get? a = some u) :
    (t.set s a).get? a = some s := by
  induction a generalizing t with
  | nil => rfl
  | cons i a ih =>
      obtain ⟨child, hchild, hbelow⟩ := exists_child_of_get? h
      have hi : i < t.children.length := (List.getElem?_eq_some_iff.mp hchild).1
      rw [set_cons hchild, get?, children, List.getElem?_set_self hi]
      exact ih hbelow

theorem functionsFromAll_split {cs : List Tree} {child : Tree} {i : Nat}
    (h : cs[i]? = some child) (origin : Nat) (addr : Address) (first : Nat) :
    functionsFromAll origin addr first cs =
      functionsFromAll origin addr first (cs.take i) ++
        (child.functionsFrom origin (addr ++ [first + i]) ++
          functionsFromAll origin addr (first + i + 1) (cs.drop (i + 1))) := by
  induction cs generalizing i first with
  | nil => simp at h
  | cons c cs ih =>
      cases i with
      | zero =>
          cases h
          rfl
      | succ i =>
          rw [List.take_succ_cons, functionsFromAll, functionsFromAll, ih h (first + 1),
            List.drop_succ_cons, List.append_assoc]
          simp only [Nat.add_assoc, Nat.add_comm 1]

theorem address_of_mem_functionsFrom {f : Node} {origin : Nat} {addr : Address} {t : Tree}
    (h : f ∈ t.functionsFrom origin addr) : addr <+: f.address := by
  obtain ⟨a, ha, -⟩ := Node.below?_of_mem_functions (n := ⟨origin, addr, t⟩) h
  rw [(Node.address_of_below? ha).2]
  exact List.prefix_append addr a

/-- The functions of a node that are apart from a place are those of its children:
the node itself is on the way to the place. -/
theorem filter_apart_functionsFrom (origin : Nat) (addr : Address) (k : Kind) (cs : List Tree)
    (a : Address) :
    ((node k cs).functionsFrom origin addr).filter (fun f => f.address.Apart (addr ++ a)) =
      (functionsFromAll origin addr 0 cs).filter fun f => f.address.Apart (addr ++ a) := by
  have habove : ¬ addr.Apart (addr ++ a) := by
    intro hapart
    exact hapart.1 (List.prefix_append addr a)
  rw [functionsFrom]
  split
  · rw [List.filter_cons_of_neg (by simpa using habove)]
  · rfl

theorem functionsFromAll_set {cs : List Tree} {child : Tree} {i : Nat}
    (h : cs[i]? = some child) (new : Tree) (origin : Nat) (addr : Address) :
    ∃ before after, functionsFromAll origin addr 0 cs =
        before ++ (child.functionsFrom origin (addr ++ [i]) ++ after) ∧
      functionsFromAll origin addr 0 (cs.set i new) =
        before ++ (new.functionsFrom origin (addr ++ [i]) ++ after) := by
  have hi : i < cs.length := (List.getElem?_eq_some_iff.mp h).1
  have hold := functionsFromAll_split h origin addr 0
  have hnew := functionsFromAll_split (List.getElem?_set_self hi : (cs.set i new)[i]? = some new)
    origin addr 0
  rw [List.take_set_of_le (Nat.le_refl i), List.drop_set_of_lt (Nat.lt_succ_self i)] at hnew
  rw [Nat.zero_add] at hold hnew
  exact ⟨_, _, hold, hnew⟩

/-- The functions apart from an edited place are the same nodes before and after
the edit, in the same order. The induction follows the way to the place. -/
theorem functionsFrom_set (s : Tree) (origin : Nat) (addr a : Address) (t : Tree) :
    ((t.set s a).functionsFrom origin addr).filter (fun f => f.address.Apart (addr ++ a)) =
      (t.functionsFrom origin addr).filter fun f => f.address.Apart (addr ++ a) := by
  induction a generalizing t addr with
  | nil =>
      have hbelow (u : Tree) : (u.functionsFrom origin addr).filter
          (fun f => f.address.Apart (addr ++ [])) = [] := by
        rw [List.filter_eq_nil_iff]
        intro f hf hapart
        have hplace : addr <+: f.address := address_of_mem_functionsFrom hf
        rw [List.append_nil, decide_eq_true_eq] at hapart
        exact hapart.2 hplace
      rw [hbelow, hbelow]
  | cons i a ih =>
      obtain ⟨k, cs⟩ := t
      cases hchild : cs[i]? with
      | none => simp [set, children, hchild]
      | some child =>
          obtain ⟨before, after, hold, hnew⟩ :=
            functionsFromAll_set hchild (child.set s a) origin addr
          have hinside := ih (addr ++ [i]) child
          rw [List.append_assoc, List.singleton_append] at hinside
          rw [set_cons hchild, filter_apart_functionsFrom, filter_apart_functionsFrom, hold]
          change List.filter _ (functionsFromAll origin addr 0 (cs.set i (child.set s a))) = _
          rw [hnew]
          simp only [List.filter_append, hinside]

/-- The contexts of every function, each with the place of the function. -/
def placedContexts (t : Tree) : List (Address × FunctionContexts) :=
  ((Node.root 0 t).functions.map Node.address).zip t.functionContexts

theorem placedContexts_eq_map (t : Tree) :
    t.placedContexts = (Node.root 0 t).functions.map fun f => (f.address, .ofFunction f) := by
  rw [placedContexts, functionContexts, List.zip_map']

/-- An edit reaches only the functions that contain it or that it contains. Those
whose place is neither on the way to the edited one nor at or below it have the
same contexts before and after, in the same order. -/
theorem functionContexts_set (t s : Tree) (a : Address) (h : (t.get? a).isSome = true) :
    (t.set s a).get? a = some s ∧
      (t.set s a).placedContexts.filter (fun p => p.1.Apart a) =
        t.placedContexts.filter fun p => p.1.Apart a := by
  obtain ⟨u, hu⟩ := Option.isSome_iff_exists.mp h
  refine ⟨get?_set s hu, ?_⟩
  have hsame := functionsFrom_set s 0 [] a t
  rw [List.nil_append] at hsame
  rw [placedContexts_eq_map, placedContexts_eq_map, List.filter_map, List.filter_map]
  exact congrArg _ hsame

/-- A function takes the place of an item between two others. -/
theorem functionContexts_set_between :
    let f (name : String) := node .functionDecl [.ident name, .node .params [.ident "v"]]
    let t := node .file [f "first", .node .implBlock [.single .item], f "last"]
    let edited := t.set (f "new") [1, 0]
    (t.get? [1, 0]).isSome = true ∧ edited.get? [1, 0] = some (f "new") ∧
      edited.functionContexts.map FunctionContexts.name = ["first", "new", "last"] ∧
      edited.placedContexts.filter (fun p => p.1.Apart [1, 0]) = t.placedContexts := by
  intro f t edited
  obtain ⟨hset, hsame⟩ := functionContexts_set t (f "new") [1, 0] rfl
  refine ⟨rfl, hset, by decide, hsame.trans ?_⟩
  rw [List.filter_eq_self]
  decide

end Tree

end LeafPaths
