import Mathlib.Data.List.Basic
import LeafPaths.Context

/-!
The pairs that contexts are drawn from. The recursion that lists the contexts of
leaves goes through the index pairs `i < j` in lexicographic order; a pair is
left out only if its leaves have no context.
-/

namespace LeafPaths

/-- The pairs `i < j` of indexes below `n`, by the first and then by the second. -/
def orderedPairs (n : Nat) : List (Nat × Nat) :=
  (List.range n).flatMap fun i => (List.range' (i + 1) (n - (i + 1))).map fun j => (i, j)

theorem mem_orderedPairs {n i j : Nat} : (i, j) ∈ orderedPairs n ↔ i < j ∧ j < n := by
  simp only [orderedPairs, List.mem_flatMap, List.mem_range, List.mem_map, List.mem_range'_1,
    Prod.mk.injEq]
  constructor
  · rintro ⟨i', hi, j', hj, rfl, rfl⟩
    omega
  · rintro ⟨hij, hj⟩
    exact ⟨i, by omega, j, by omega, rfl, rfl⟩

private theorem range'_succ (start n : Nat) :
    List.range' (start + 1) n = (List.range' start n).map (· + 1) := by
  simp only [Nat.add_comm _ 1, List.map_add_range']

/-- One more index in front adds the pairs with it and shifts all others. -/
theorem orderedPairs_succ (n : Nat) :
    orderedPairs (n + 1) =
      (List.range n).map (fun j => (0, j + 1)) ++
        (orderedPairs n).map fun p => (p.1 + 1, p.2 + 1) := by
  have hfirst : List.range' 1 n = (List.range n).map (· + 1) := by
    rw [List.range_eq_range', ← range'_succ]
  have hrest : ∀ i, List.range' (i + 1 + 1) (n - (i + 1)) =
      (List.range' (i + 1) (n - (i + 1))).map (· + 1) := by
    intro i
    exact range'_succ _ _
  simp [orderedPairs, List.range_succ_eq_map, List.flatMap_map, List.map_flatMap, hrest, hfirst,
    Function.comp_def]

private theorem range_map_getElem? {α : Type} (xs : List α) :
    (List.range xs.length).map (fun j => xs[j]?) = xs.map some := by
  apply List.ext_getElem
  · simp
  · intro j h₁ h₂
    simp

/-- The context of the leaves at two indexes. -/
def Triple.at? (leaves : List Leaf) (p : Nat × Nat) : Option Triple :=
  leaves[p.1]?.bind fun source => leaves[p.2]?.bind fun target => between? source target

theorem Triple.ofLeaves_eq_pairs (leaves : List Leaf) :
    ofLeaves leaves = (orderedPairs leaves.length).filterMap (at? leaves) := by
  induction leaves with
  | nil => rfl
  | cons l ls ih =>
      have hfirst : ls.filterMap (between? l) =
          (List.range ls.length).filterMap fun j => at? (l :: ls) (0, j + 1) := by
        have hmap := congrArg (List.filterMap (Option.bind · (between? l))) (range_map_getElem? ls)
        simpa [List.filterMap_map, Function.comp_def, at?] using hmap.symm
      rw [ofLeaves, ih, hfirst, List.length_cons, orderedPairs_succ, List.filterMap_append,
        List.filterMap_map, List.filterMap_map]
      rfl

/-- A change of all leaves that shows in the context of two leaves as a change of
it shows in all their contexts so. -/
theorem Triple.ofLeaves_map {φ : Leaf → Leaf} {ψ : Triple → Triple} {ls : List Leaf}
    (h : ∀ l ∈ ls, ∀ m ∈ ls, between? (φ l) (φ m) = (between? l m).map ψ) :
    ofLeaves (ls.map φ) = (ofLeaves ls).map ψ := by
  induction ls with
  | nil => rfl
  | cons l ls ih =>
      have hfirst : (ls.map φ).filterMap (between? (φ l)) = (ls.filterMap (between? l)).map ψ := by
        rw [List.filterMap_map, List.map_filterMap]
        apply List.filterMap_congr
        intro m hm
        exact h l List.mem_cons_self m (List.mem_cons_of_mem l hm)
      have hrest := ih fun m hm k hk =>
        h m (List.mem_cons_of_mem l hm) k (List.mem_cons_of_mem l hk)
      rw [List.map_cons, ofLeaves, ofLeaves, hfirst, hrest, List.map_append]

end LeafPaths
