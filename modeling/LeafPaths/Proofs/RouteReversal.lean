import LeafPaths.Proofs.RouteText

/-!
Routes walked from the other end. Swapping two chains reverses the route between
them: the ways up and down change places, and they meet at the same node. The tag
of the common ancestor is taken from the first chain, so this rests on what a node
is. It is known by its place, and one place in a tree holds one subtree.
-/

namespace LeafPaths

namespace Node

/-- The node's subtree is what its tree holds at its address. -/
def StandsIn (trees : Nat → Tree) (n : Node) : Prop :=
  (trees n.origin).get? n.address = some n.tree

/-- The nodes belong to trees that exist side by side, one for each origin. -/
def Together (ns : List Node) : Prop := ∃ trees : Nat → Tree, ∀ n ∈ ns, n.StandsIn trees

theorem eq_of_same {trees : Nat → Tree} {a b : Node} (ha : a.StandsIn trees)
    (hb : b.StandsIn trees) (h : a.same b = true) : a = b := by
  obtain ⟨origin, address, tree⟩ := a
  obtain ⟨origin', address', tree'⟩ := b
  simp only [same, Bool.and_eq_true, beq_iff_eq] at h
  obtain ⟨rfl, rfl⟩ := h
  simp only [StandsIn] at ha hb
  rw [ha] at hb
  cases hb
  rfl

theorem Together.eq_of_same {P Q : List Node} (h : Together (P ++ Q)) {p q : Node} (hp : p ∈ P)
    (hq : q ∈ Q) (hsame : p.same q = true) : p = q := by
  obtain ⟨trees, hin⟩ := h
  exact Node.eq_of_same (hin p (List.mem_append_left Q hp)) (hin q (List.mem_append_right P hq))
    hsame

theorem Together.swap {P Q : List Node} (h : Together (P ++ Q)) : Together (Q ++ P) := by
  obtain ⟨trees, hin⟩ := h
  exact ⟨trees, List.forall_mem_append.mpr (List.forall_mem_append.mp hin).symm⟩

end Node

namespace Route

theorem same_of_lt_commonLength {P Q : List Node} {i : Nat} (h : i < commonLength P Q) :
    ∃ p q, P[i]? = some p ∧ Q[i]? = some q ∧ p.same q = true := by
  induction P generalizing Q i with
  | nil => simp [commonLength] at h
  | cons p P ih =>
      cases Q with
      | nil => simp [commonLength] at h
      | cons q Q =>
          by_cases hsame : p.same q = true
          · cases i with
            | zero => exact ⟨p, q, rfl, rfl, hsame⟩
            | succ i =>
                simp only [commonLength, hsame, if_true] at h
                simpa using ih (Nat.lt_of_succ_lt_succ h)
          · simp [commonLength, hsame] at h

theorem exists_meet {P Q : List Node} (h : Node.Together (P ++ Q)) (hk : commonLength P Q ≠ 0) :
    ∃ meet, P[commonLength P Q - 1]? = some meet ∧ Q[commonLength P Q - 1]? = some meet := by
  obtain ⟨p, q, hp, hq, hsame⟩ :=
    same_of_lt_commonLength (P := P) (Q := Q) (i := commonLength P Q - 1) (by omega)
  have heq := h.eq_of_same (List.mem_of_getElem? hp) (List.mem_of_getElem? hq) hsame
  exact ⟨p, hp, heq ▸ hq⟩

theorem between_swap {P Q : List Node} (h : Node.Together (P ++ Q)) :
    between Q P = (between P Q).map reversed := by
  by_cases hk : commonLength P Q = 0
  · have hk' : commonLength Q P = 0 := by rw [commonLength_comm, hk]
    rw [(between_eq_none_iff P Q).mpr hk, (between_eq_none_iff Q P).mpr hk']
    rfl
  · have hk' : commonLength Q P ≠ 0 := by rwa [commonLength_comm]
    obtain ⟨meet, hp, hq⟩ := exists_meet h hk
    obtain ⟨source, hsource, hthere⟩ := between_of_commonLength_ne_zero hk
    obtain ⟨target, htarget, hback⟩ := between_of_commonLength_ne_zero hk'
    rw [hp] at hsource
    rw [commonLength_comm, hq] at htarget
    cases hsource
    cases htarget
    rw [hthere, hback, commonLength_comm Q P]
    simp [reversed]

@[simp] theorem reversed_reversed (r : Route) : r.reversed.reversed = r := by
  simp [reversed]

theorem TagsFree.reversed {r : Route} (h : r.TagsFree) : r.reversed.TagsFree := by
  intro t ht
  apply h
  simp only [Route.reversed, List.mem_append, List.mem_reverse, List.mem_cons] at ht ⊢
  exact or_left_comm.mp (or_rotate.mp ht)

theorem map_render_inj {P Q P' Q' : List Node} (free : ∀ n ∈ P ++ Q, ']' ∉ n.tag.toList)
    (free' : ∀ n ∈ P' ++ Q', ']' ∉ n.tag.toList) :
    (between P Q).map render = (between P' Q').map render ↔ between P Q = between P' Q' := by
  constructor
  · intro h
    cases hr : between P Q with
    | none =>
        rw [hr, Option.map_none] at h
        exact (Option.map_eq_none_iff.mp h.symm).symm
    | some r =>
        rw [hr, Option.map_some] at h
        obtain ⟨r', hr', htext⟩ := Option.map_eq_some_iff.mp h.symm
        rw [hr', (render_inj (between_tagsFree free' hr') (between_tagsFree free hr)).mp htext]
  · intro h
    rw [h]

/-- Swapping the ends mirrors the text. Either both directions have a text or none
has, the text of one is read as the reverse of what the other is read as, and
reversing twice changes nothing. So each of the two texts determines the other. -/
theorem between_swap_mirrors (P Q P' Q' : List Node) (together : Node.Together (P ++ Q))
    (together' : Node.Together (P' ++ Q')) (free : ∀ n ∈ P ++ Q, ']' ∉ n.tag.toList)
    (free' : ∀ n ∈ P' ++ Q', ']' ∉ n.tag.toList) :
    ((between P Q).map render = none ↔ (between Q P).map render = none) ∧
      (∀ text, (between P Q).map render = some text →
        ∃ back r, (between Q P).map render = some back ∧
          parse? text = some r ∧ parse? back = some r.reversed) ∧
      (∀ s r, parse? s = some r →
        parse? r.reversed.render = some r.reversed ∧ r.reversed.reversed = r) ∧
      ((between P Q).map render = (between P' Q').map render ↔
        (between Q P).map render = (between Q' P').map render) := by
  have hswap := between_swap together
  have hswap' := between_swap together'
  refine ⟨?_, ?_, ?_, ?_⟩
  · simp [hswap]
  · intro text htext
    obtain ⟨r, hr, rfl⟩ := Option.map_eq_some_iff.mp htext
    have hfree := between_tagsFree free hr
    refine ⟨r.reversed.render, r, ?_, parse?_render hfree, parse?_render hfree.reversed⟩
    rw [hswap, hr]
    rfl
  · intro s r hr
    have hfree := ((parse?_eq_some_iff s r).mp hr).1
    exact ⟨parse?_render hfree.reversed, reversed_reversed r⟩
  · have hback := List.forall_mem_append.mpr (List.forall_mem_append.mp free).symm
    have hback' := List.forall_mem_append.mpr (List.forall_mem_append.mp free').symm
    rw [map_render_inj free free', map_render_inj hback hback']
    constructor
    · intro h
      rw [hswap, hswap', h]
    · intro h
      rw [between_swap together.swap, between_swap together'.swap, h]

/-- Chains of unequal lengths that part at a sum: one goes on through parentheses. -/
theorem between_swap_mirrors_paren :
    let t := Tree.node (.binary "+") [.node .paren [.ident "a"], .lit "1"]
    let P := [Node.root 0 t, ⟨0, [0], .node .paren [.ident "a"]⟩, ⟨0, [0, 0], .ident "a"⟩]
    let Q := [Node.root 0 t, ⟨0, [1], .lit "1"⟩]
    Node.Together (P ++ Q) ∧ (∀ n ∈ P ++ Q, ']' ∉ n.tag.toList) ∧
      (between P Q).map render = some "[Ident]UP[Paren]UP[BinaryExpr:+]DOWN[Lit]" ∧
      ∃ back r, (between Q P).map render = some back ∧
        parse? "[Ident]UP[Paren]UP[BinaryExpr:+]DOWN[Lit]" = some r ∧
        parse? back = some r.reversed := by
  intro t P Q
  have htogether : Node.Together (P ++ Q) := by
    refine ⟨fun _ => t, ?_⟩
    simp [P, Q, Node.StandsIn, Node.root, Tree.get?, Tree.children, t]
  have hfree : ∀ n ∈ P ++ Q, ']' ∉ n.tag.toList := by decide
  have htext : (between P Q).map render = some "[Ident]UP[Paren]UP[BinaryExpr:+]DOWN[Lit]" := by
    decide
  obtain ⟨-, hmirror, -⟩ := between_swap_mirrors P Q P Q htogether htogether hfree hfree
  exact ⟨htogether, hfree, htext, hmirror _ htext⟩

end Route

end LeafPaths
