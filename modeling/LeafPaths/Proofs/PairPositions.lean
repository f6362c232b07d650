import Mathlib.Data.List.Forall2
import Mathlib.Tactic.Ring
import LeafPaths.Proofs.Reference

/-!
Which pairs of leaves have a context, and where it stands. Leaves of different
functions have none, so a list of leaves may lose pairs, but only those. Within one
function nothing is lost, and the contexts of a pair can be found by counting the
pairs in front of it.
-/

namespace LeafPaths

theorem orderedPairs_pairwise (n : Nat) :
    (orderedPairs n).Pairwise (Prod.Lex (· < ·) (· < ·)) := by
  rw [orderedPairs, List.pairwise_flatMap]
  constructor
  · intro i _
    rw [List.pairwise_map]
    exact (List.pairwise_lt_range' 1).imp (.right i)
  · apply List.pairwise_lt_range.imp
    intro i k hik p hp q hq
    obtain ⟨j, -, rfl⟩ := List.mem_map.mp hp
    obtain ⟨j', -, rfl⟩ := List.mem_map.mp hq
    exact .left j j' hik

theorem two_mul_length_orderedPairs (n : Nat) : 2 * (orderedPairs n).length = n * (n - 1) := by
  induction n with
  | zero => rfl
  | succ n ih =>
      rw [orderedPairs_succ, List.length_append, List.length_map, List.length_map,
        List.length_range, Nat.mul_add, ih, Nat.add_sub_cancel]
      cases n with
      | zero => rfl
      | succ n =>
          rw [Nat.add_sub_cancel]
          ring

/-- The pairs with `i` in front stand behind those with a smaller first index. -/
theorem getElem?_orderedPairs {n i j : Nat} (hij : i < j) (hj : j < n) :
    (orderedPairs n)[i * (2 * n - i - 1) / 2 + (j - i - 1)]? = some (i, j) := by
  induction i generalizing n j with
  | zero =>
      obtain ⟨j, rfl⟩ := Nat.exists_eq_add_one_of_ne_zero (Nat.ne_of_gt hij)
      obtain ⟨n, rfl⟩ := Nat.exists_eq_add_one_of_ne_zero (Nat.ne_zero_of_lt hj)
      have hjn : j < n := Nat.lt_of_succ_lt_succ hj
      rw [orderedPairs_succ, List.getElem?_append_left (by simp; omega)]
      simp [hjn]
  | succ i ih =>
      obtain ⟨j, rfl⟩ := Nat.exists_eq_add_one_of_ne_zero (Nat.ne_zero_of_lt hij)
      obtain ⟨n, rfl⟩ := Nat.exists_eq_add_one_of_ne_zero (Nat.ne_zero_of_lt hj)
      have hij' : i < j := Nat.lt_of_succ_lt_succ hij
      have hjn : j < n := Nat.lt_of_succ_lt_succ hj
      have hblock : (i + 1) * (2 * (n + 1) - (i + 1) - 1) = 2 * n + i * (2 * n - i - 1) := by
        obtain ⟨d, rfl⟩ := Nat.exists_eq_add_of_lt (Nat.lt_trans hij' hjn)
        have hleft : 2 * (i + d + 1 + 1) - (i + 1) - 1 = i + 2 * d + 2 := by omega
        have hright : 2 * (i + d + 1) - i - 1 = i + 2 * d + 1 := by omega
        rw [hleft, hright]
        ring
      have hplace : (i + 1) * (2 * (n + 1) - (i + 1) - 1) / 2 + (j + 1 - (i + 1) - 1) =
          n + (i * (2 * n - i - 1) / 2 + (j - i - 1)) := by
        rw [hblock]
        omega
      rw [hplace, orderedPairs_succ, List.getElem?_append_right (by simp)]
      simp [ih hij' hjn]

/-- The node at which a leaf's path begins. -/
def Leaf.start (l : Leaf) : Node := l.path.head (by simp [path])

theorem Leaf.exists_path_eq_start (l : Leaf) : ∃ rest, l.path = l.start :: rest :=
  ⟨l.path.tail, (List.cons_head_tail _).symm⟩

namespace Triple

theorem between?_eq_some_iff {l m : Leaf} {t : Triple} :
    between? l m = some t ↔
      ∃ route, Route.between l.path m.path = some route ∧
        t = ⟨l.token, route.render, m.token⟩ := by
  rw [between?, Option.map_eq_some_iff]
  simp only [eq_comm]

theorem between?_isSome_iff (l m : Leaf) :
    (between? l m).isSome = true ↔ l.start.same m.start = true := by
  obtain ⟨P, hP⟩ := l.exists_path_eq_start
  obtain ⟨Q, hQ⟩ := m.exists_path_eq_start
  rw [between?, Option.isSome_map, Option.isSome_iff_ne_none, ne_eq, Route.between_eq_none_iff,
    hP, hQ, Route.commonLength]
  split <;> simp_all

theorem at?_eq_some_iff {leaves : List Leaf} {p : Nat × Nat} {t : Triple} :
    at? leaves p = some t ↔
      ∃ l m, leaves[p.1]? = some l ∧ leaves[p.2]? = some m ∧ between? l m = some t := by
  simp only [at?, Option.bind_eq_some_iff]
  constructor
  · rintro ⟨l, hl, m, hm, ht⟩
    exact ⟨l, m, hl, hm, ht⟩
  · rintro ⟨l, m, hl, hm, ht⟩
    exact ⟨l, hl, m, hm, ht⟩

theorem at?_isSome_iff {leaves : List Leaf} {p : Nat × Nat} :
    (at? leaves p).isSome = true ↔
      ∃ l m, leaves[p.1]? = some l ∧ leaves[p.2]? = some m ∧ l.start.same m.start = true := by
  simp only [← between?_isSome_iff, Option.isSome_iff_exists, at?_eq_some_iff]
  constructor
  · rintro ⟨t, l, m, hl, hm, ht⟩
    exact ⟨l, m, hl, hm, t, ht⟩
  · rintro ⟨l, m, hl, hm, t, ht⟩
    exact ⟨t, l, m, hl, hm, ht⟩

private theorem forall₂_filterMap {α β : Type} (g : α → Option β) (xs : List α) :
    List.Forall₂ (fun x y => g x = some y) (xs.filter fun x => (g x).isSome) (xs.filterMap g) := by
  induction xs with
  | nil => exact .nil
  | cons x xs ih =>
      cases hx : g x with
      | none => simpa [hx] using ih
      | some y => simpa [hx] using ih

/-- No two leaves under one node lack a context. -/
theorem forall₂_ofLeaves_leaves (f : Node) :
    List.Forall₂ (fun p t => at? f.leaves p = some t) (orderedPairs f.leaves.length)
      (ofLeaves f.leaves) := by
  have hpairs := forall₂_filterMap (at? f.leaves) (orderedPairs f.leaves.length)
  rw [← ofLeaves_eq_pairs, List.filter_eq_self.mpr] at hpairs
  · exact hpairs
  · rintro ⟨i, j⟩ hp
    obtain ⟨hij, hj⟩ := mem_orderedPairs.mp hp
    have hl := List.getElem?_eq_getElem (Nat.lt_trans hij hj)
    have hm := List.getElem?_eq_getElem hj
    rw [at?, hl, hm]
    exact Reference.between?_isSome (List.mem_of_getElem? hl) (List.mem_of_getElem? hm)

theorem length_ofLeaves_leaves (f : Node) :
    (ofLeaves f.leaves).length = f.leaves.length * (f.leaves.length - 1) / 2 := by
  rw [← (forall₂_ofLeaves_leaves f).length_eq]
  have htwice := two_mul_length_orderedPairs f.leaves.length
  omega

theorem getElem?_ofLeaves_leaves (f : Node) {i j : Nat} (hij : i < j) (hj : j < f.leaves.length) :
    ∃ t, at? f.leaves (i, j) = some t ∧
      (ofLeaves f.leaves)[i * (2 * f.leaves.length - i - 1) / 2 + (j - i - 1)]? = some t := by
  have hpairs := forall₂_ofLeaves_leaves f
  obtain ⟨hk, hpair⟩ := List.getElem?_eq_some_iff.mp (getElem?_orderedPairs hij hj)
  have hk' := hpairs.length_eq ▸ hk
  have hat := hpairs.get hk hk'
  rw [List.get_eq_getElem, hpair] at hat
  exact ⟨_, hat, List.getElem?_eq_getElem hk'⟩

/-- Leaves from whichever functions, in any order and with repetitions, have one
context for each pair of indexes `i < j` whose paths begin at the same node, and none
besides; contexts follow the order of the pairs. No pair of leaves of one function is
left out, so the place of a pair among the contexts can be calculated. -/
theorem ofLeaves_exact (leaves : List Leaf) (f : Node) :
    (∃ pairs : List (Nat × Nat),
      pairs.Pairwise (Prod.Lex (· < ·) (· < ·)) ∧
        (∀ i j, (i, j) ∈ pairs ↔ i < j ∧ ∃ l m, leaves[i]? = some l ∧ leaves[j]? = some m ∧
          l.start.same m.start = true) ∧
        List.Forall₂ (fun p t => ∃ l m route, leaves[p.1]? = some l ∧ leaves[p.2]? = some m ∧
          Route.between l.path m.path = some route ∧ t = ⟨l.token, route.render, m.token⟩)
          pairs (ofLeaves leaves)) ∧
      let n := f.leaves.length
      let triples := (FunctionContexts.ofFunction f).triples
      (FunctionContexts.ofFunction f).leafCount = n ∧ triples.length = n * (n - 1) / 2 ∧
        ∀ i j, i < j → j < n → ∃ l m route, f.leaves[i]? = some l ∧ f.leaves[j]? = some m ∧
          Route.between l.path m.path = some route ∧
          triples[i * (2 * n - i - 1) / 2 + (j - i - 1)]? =
            some ⟨l.token, route.render, m.token⟩ := by
  refine ⟨⟨(orderedPairs leaves.length).filter fun p => (at? leaves p).isSome, ?_, ?_, ?_⟩,
    rfl, length_ofLeaves_leaves f, ?_⟩
  · exact (orderedPairs_pairwise leaves.length).filter _
  · intro i j
    rw [List.mem_filter, mem_orderedPairs, at?_isSome_iff]
    constructor
    · rintro ⟨⟨hij, -⟩, hleaves⟩
      exact ⟨hij, hleaves⟩
    · rintro ⟨hij, l, m, hl, hm, hsame⟩
      exact ⟨⟨hij, (List.getElem?_eq_some_iff.mp hm).1⟩, l, m, hl, hm, hsame⟩
  · rw [ofLeaves_eq_pairs]
    refine (forall₂_filterMap (at? leaves) _).imp ?_
    intro p t ht
    obtain ⟨l, m, hl, hm, ht⟩ := at?_eq_some_iff.mp ht
    obtain ⟨route, hroute, ht⟩ := between?_eq_some_iff.mp ht
    exact ⟨l, m, route, hl, hm, hroute, ht⟩
  · intro i j hij hj
    obtain ⟨t, hat, ht⟩ := getElem?_ofLeaves_leaves f hij hj
    obtain ⟨l, m, hl, hm, hlm⟩ := at?_eq_some_iff.mp hat
    obtain ⟨route, hroute, rfl⟩ := between?_eq_some_iff.mp hlm
    exact ⟨l, m, route, hl, hm, hroute, ht⟩

end Triple

end LeafPaths
