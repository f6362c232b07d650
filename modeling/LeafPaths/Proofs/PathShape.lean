import LeafPaths.Proofs.LoweredTrees
import LeafPaths.Proofs.LowestAncestor

/-!
The paths that are written for source files. A path goes from one token up to a
node that stands above both and down to another token, and it passes no token on
the way. This rests on the trees being neat: two leaves without children never
stand above one another, so that each has a step of its own. It fails for trees
in general.
-/

namespace LeafPaths

/-! ### Neat trees -/

theorem Tree.Every.of_mem_chain? {p : Tree → Prop} {n m : Node} {a : Address} {c : List Node}
    (h : n.tree.Every p) (hc : n.chain? a = some c) (hm : m ∈ c) : m.tree.Every p := by
  induction a generalizing n c with
  | nil =>
      cases hc
      rw [List.mem_singleton.mp hm]
      exact h
  | cons i a ih =>
      rw [Node.chain?_cons] at hc
      obtain ⟨t, ht, hc⟩ := Option.bind_eq_some_iff.mp hc
      obtain ⟨rest, hrest, rfl⟩ := Option.map_eq_some_iff.mp hc
      rcases List.mem_cons.mp hm with rfl | hm
      · exact h
      · exact ih (h.child (List.mem_of_getElem? ht)) hrest hm

mutual

theorem Tree.Every.of_mem_functionsFrom {p : Tree → Prop} {f : Node} (origin : Nat)
    (addr : Address) (t : Tree) (h : t.Every p) (hf : f ∈ t.functionsFrom origin addr) :
    f.tree.Every p := by
  cases t with
  | node k cs =>
      have hinner : f ∈ functionsFromAll origin addr 0 cs → f.tree.Every p :=
        of_mem_functionsFromAll origin addr 0 cs fun c hc => h.child hc
      rw [functionsFrom] at hf
      split at hf
      · rcases List.mem_cons.mp hf with rfl | hf
        · exact h
        · exact hinner hf
      · exact hinner hf

theorem Tree.Every.of_mem_functionsFromAll {p : Tree → Prop} {f : Node} (origin : Nat)
    (addr : Address) (i : Nat) (ts : List Tree) (h : ∀ t ∈ ts, t.Every p)
    (hf : f ∈ functionsFromAll origin addr i ts) : f.tree.Every p := by
  cases ts with
  | nil => cases hf
  | cons t ts =>
      obtain ⟨ht, hts⟩ := List.forall_mem_cons.mp h
      rcases List.mem_append.mp hf with hf | hf
      · exact of_mem_functionsFrom origin (addr ++ [i]) t ht hf
      · exact of_mem_functionsFromAll origin addr (i + 1) ts hts hf

end

theorem Kind.tag_ne_leaf {k : Kind} (h : k.token? = none) : k.tag ≠ "Ident" ∧ k.tag ≠ "Lit" := by
  cases k with
  | ident text | lit text => cases h
  | binary op | unary op | assign op =>
      simp [tag, operator?, name, ← String.toList_inj]
  | _ => decide

/-- A leaf that holds a token, and how its category is written. -/
inductive Tree.IsToken : Tree → String → String → Prop where
  | ident (text : String) : IsToken (.ident text) text "Ident"
  | lit (text : String) : IsToken (.lit text) text "Lit"

theorem Tree.IsNeat.isToken {t : Tree} (h : t.IsNeat) (hleaf : t.isLeaf = true) :
    t.IsToken (t.token?.getD "") t.tag := by
  have hchildren := h.leaf_children hleaf
  obtain ⟨k, cs⟩ := t
  cases k with
  | ident text =>
      cases hchildren
      exact .ident text
  | lit text =>
      cases hchildren
      exact .lit text
  | _ => cases hleaf

/-! ### Leaves of a function -/

theorem Route.commonLength_lt_of_not_prefix {n : Node} {a b : Address} {c d : List Node}
    (hc : n.chain? a = some c) (hd : n.chain? b = some d) (hab : ¬ a <+: b) :
    commonLength c d < c.length := by
  have hleft := Address.common_prefix_left a b
  have hlt : (Address.common a b).length < a.length := by
    apply Nat.lt_of_le_of_ne hleft.length_le
    intro hlength
    have hright := Address.common_prefix_right a b
    rw [hleft.eq_of_length hlength] at hright
    exact hab hright
  rw [commonLength_of_chain? hc hd, Node.length_of_chain? hc]
  exact Nat.succ_lt_succ hlt

theorem Tree.eq_of_prefix {t u : Tree} {a b : Address} (ha : t.get? a = some u)
    (hu : u.children = []) (hb : (t.get? b).isSome = true) (hab : a <+: b) : a = b := by
  obtain ⟨rest, rfl⟩ := hab
  rw [get?_append, ha, Option.bind_some] at hb
  cases rest with
  | nil => simp
  | cons i rest => simp [get?, hu] at hb

/-- What a leaf of a neat tree knows of its path. -/
structure Leaf.IsNeat (l : Leaf) : Prop where
  isToken : l.node.tree.IsToken l.token l.node.tag
  above_token : ∀ m ∈ l.above, m.tree.kind.token? = none
  tag_free : ∀ m ∈ l.path, ∀ c ∈ m.tag.toList, isDelimiter c = false

theorem Leaf.isNeat_of_mem_leaves {f : Node} {l : Leaf} (h : f.tree.Every Tree.IsNeat)
    (hl : l ∈ f.leaves) : l.IsNeat := by
  obtain ⟨a, hc, -, -, hleaf⟩ := Node.chain?_of_mem_leaves hl
  have hneat : ∀ m ∈ l.path, m.tree.IsNeat := fun m hm => (h.of_mem_chain? hc hm).root
  refine ⟨(hneat l.node (by simp [path])).isToken hleaf, ?_, fun m hm => (hneat m hm).tag_free⟩
  intro m hm
  have hchildren : m.tree.children ≠ [] :=
    Node.children_ne_nil_of_chain? hc (by simpa [path] using hm)
  cases htoken : m.tree.kind.token? with
  | none => rfl
  | some token =>
      have hinner : m.tree.isLeaf = true := by simp [Tree.isLeaf, Tree.token?, htoken]
      exact absurd ((hneat m (by simp [path, hm])).leaf_children hinner) hchildren

theorem Leaf.not_prefix_of_ne {f : Node} {l m : Leaf} {a b : Address} (h : f.tree.Every Tree.IsNeat)
    (hc : f.chain? a = some l.path) (hd : f.chain? b = some m.path)
    (hleaf : l.node.tree.isLeaf = true) (hne : a ≠ b) : ¬ a <+: b := by
  intro hab
  have hneat : l.node.tree.IsNeat := (h.of_mem_chain? hc (by simp [path])).root
  have hget : f.tree.get? a = some l.node.tree := Node.get?_of_chain? hc
  have hsome : (f.tree.get? b).isSome = true := by
    rw [Node.get?_of_chain? hd]
    rfl
  exact hne (Tree.eq_of_prefix hget (hneat.leaf_children hleaf) hsome hab)

theorem Leaf.commonLength_le_above {f : Node} {l m : Leaf} (h : f.tree.Every Tree.IsNeat)
    (hl : l ∈ f.leaves) (hm : m ∈ f.leaves) (hne : l.node.address ≠ m.node.address) :
    Route.commonLength l.path m.path ≠ 0 ∧
      Route.commonLength l.path m.path ≤ l.above.length ∧
      Route.commonLength l.path m.path ≤ m.above.length := by
  obtain ⟨a, hc, -, hla, hleft⟩ := Node.chain?_of_mem_leaves hl
  obtain ⟨b, hd, -, hmb, hright⟩ := Node.chain?_of_mem_leaves hm
  have hab : a ≠ b := by
    rintro rfl
    exact hne (hla.trans hmb.symm)
  have hshort := Route.commonLength_lt_of_not_prefix hc hd (not_prefix_of_ne h hc hd hleft hab)
  have hshort' :=
    Route.commonLength_lt_of_not_prefix hd hc (not_prefix_of_ne h hd hc hright hab.symm)
  rw [Route.commonLength_comm] at hshort'
  simp only [path, List.length_append, List.length_singleton] at hshort hshort'
  obtain ⟨c, hpath⟩ := Node.chain?_head hc
  obtain ⟨d, hpath'⟩ := Node.chain?_head hd
  refine ⟨?_, Nat.le_of_lt_succ hshort, Nat.le_of_lt_succ hshort'⟩
  simp [hpath, hpath', Route.commonLength, Node.same]

/-- The route between two leaves of a neat function begins and ends with their
own tags, and all others on it are those of nodes above them. -/
theorem Leaf.between_eq {f : Node} {l m : Leaf} (h : f.tree.Every Tree.IsNeat)
    (hl : l ∈ f.leaves) (hm : m ∈ f.leaves) (hne : l.node.address ≠ m.node.address) :
    ∃ up lca down,
      Route.between l.path m.path = some ⟨l.node.tag :: up, lca, down ++ [m.node.tag]⟩ ∧
        ∀ t ∈ up ++ lca :: down, ∃ n ∈ l.above ++ m.above, n.tag = t := by
  obtain ⟨hk, hle, hle'⟩ := commonLength_le_above h hl hm hne
  obtain ⟨meet, hmeet, hroute⟩ := Route.between_of_commonLength_ne_zero hk
  generalize Route.commonLength l.path m.path = k at hk hle hle' hmeet hroute
  refine ⟨((l.above.drop k).map Node.tag).reverse, meet.tag, (m.above.drop k).map Node.tag, ?_, ?_⟩
  · rw [hroute]
    simp [path, List.drop_append_of_le_length hle, List.drop_append_of_le_length hle']
  · have habove : meet ∈ l.above := by
      rw [path, List.getElem?_append_left (by omega)] at hmeet
      exact List.mem_of_getElem? hmeet
    intro t ht
    simp only [List.mem_append, List.mem_cons, List.mem_reverse, List.mem_map] at ht
    rcases ht with ⟨n, hn, rfl⟩ | rfl | ⟨n, hn, rfl⟩
    · exact ⟨n, List.mem_append_left _ (List.mem_of_mem_drop hn), rfl⟩
    · exact ⟨meet, List.mem_append_left _ habove, rfl⟩
    · exact ⟨n, List.mem_append_right _ (List.mem_of_mem_drop hn), rfl⟩

theorem Leaf.tag_free_of_between {l m : Leaf} {r : Route} (hl : l.IsNeat) (hm : m.IsNeat)
    (hr : Route.between l.path m.path = some r) :
    ∀ t ∈ r.up ++ r.lca :: r.down, ∀ c ∈ t.toList, isDelimiter c = false := by
  intro t ht
  obtain ⟨n, hn, rfl⟩ := Route.exists_node_of_between hr ht
  rcases List.mem_append.mp hn with hn | hn
  · exact hl.tag_free n hn
  · exact hm.tag_free n hn

theorem Route.needsQuotes_of_mem_render {r : Route} {c : Char}
    (h : ∀ t ∈ r.up ++ r.lca :: r.down, ∀ c ∈ t.toList, isDelimiter c = false)
    (hc : c ∈ r.render.toList) : Csv.needsQuotes c = false := by
  have hmarkers : "[]UPDOWN".toList.all (fun c => !Csv.needsQuotes c) = true := by decide
  rcases mem_of_mem_render hc with hc | ⟨t, ht, hc⟩
  · simpa using List.all_eq_true.mp hmarkers c hc
  · exact (Bool.or_eq_false_iff.mp (h t ht c hc)).2

theorem Csv.field_of_plain {s : List Char} (h : ∀ c ∈ s, needsQuotes c = false) : field s = s := by
  have hany : s.any needsQuotes = false := List.any_eq_false.mpr fun c hc => by simp [h c hc]
  simp [field, hany]

/-! ### Contexts of a file -/

theorem Tree.exists_pair_of_mem_contexts {t : Tree} {x : Triple} (hx : x ∈ t.contexts) :
    ∃ f ∈ (Node.root 0 t).functions, ∃ (i j : Nat) (l m : Leaf), i < j ∧
      f.leaves[i]? = some l ∧ f.leaves[j]? = some m ∧ Triple.between? l m = some x := by
  simp only [contexts, functionContexts, List.mem_flatMap, List.mem_map] at hx
  obtain ⟨_, ⟨f, hf, rfl⟩, hx⟩ := hx
  simp only [FunctionContexts.ofFunction, Triple.ofLeaves_eq_pairs, List.mem_filterMap] at hx
  obtain ⟨⟨i, j⟩, hp, hx⟩ := hx
  obtain ⟨l, hl, hx⟩ := Option.bind_eq_some_iff.mp hx
  obtain ⟨m, hm, hx⟩ := Option.bind_eq_some_iff.mp hx
  exact ⟨f, hf, i, j, l, m, (mem_orderedPairs.mp hp).1, hl, hm, hx⟩

/-- Every path that is written for a file can be read back as a way from one
token up to a node above both and down to another token. Its first tag and its
last one are the categories of the two tokens, no other is the category of a
token, and the path never needs quotes as a field of a record. -/
theorem SourceFile.path_of_mem_contexts (f : SourceFile) (x : Triple) (hx : x ∈ f.tree.contexts) :
    ∃ g ∈ (Node.root 0 f.tree).functions, ∃ (i j : Nat) (l m : Leaf), i < j ∧
      g.leaves[i]? = some l ∧ g.leaves[j]? = some m ∧ Triple.between? l m = some x ∧
      ∃ first up lca down last,
        Route.parse? x.path = some ⟨first :: up, lca, down ++ [last]⟩ ∧
        l.node.tree.IsToken x.left first ∧ m.node.tree.IsToken x.right last ∧
        (∀ tag ∈ up ++ lca :: down, tag ≠ "Ident" ∧ tag ≠ "Lit") ∧
        (∀ c ∈ x.path.toList, c ≠ ',' ∧ c ≠ '"' ∧ c ≠ '\r' ∧ c ≠ '\n') ∧
        Csv.field x.path.toList = x.path.toList := by
  obtain ⟨g, hg, i, j, l, m, hij, hi, hj, hbetween⟩ := Tree.exists_pair_of_mem_contexts hx
  have hneat : g.tree.Every Tree.IsNeat :=
    Tree.Every.of_mem_functionsFrom 0 [] f.tree f.every_isNeat hg
  have hl : l ∈ g.leaves := List.mem_of_getElem? hi
  have hm : m ∈ g.leaves := List.mem_of_getElem? hj
  have hleft := Leaf.isNeat_of_mem_leaves hneat hl
  have hright := Leaf.isNeat_of_mem_leaves hneat hm
  have hapart : l.node.address ≠ m.node.address := by
    obtain ⟨hi', rfl⟩ := List.getElem?_eq_some_iff.mp hi
    obtain ⟨hj', rfl⟩ := List.getElem?_eq_some_iff.mp hj
    exact (List.pairwise_iff_getElem.mp g.leaves_pairwise i j hi' hj' hij).ne
  obtain ⟨up, lca, down, hroute, habove⟩ := Leaf.between_eq hneat hl hm hapart
  have hfree := Leaf.tag_free_of_between hleft hright hroute
  have hplain := fun c => Route.needsQuotes_of_mem_render (c := c) hfree
  have hx : x = ⟨l.token, Route.render ⟨l.node.tag :: up, lca, down ++ [m.node.tag]⟩, m.token⟩ := by
    rw [Triple.between?, hroute] at hbetween
    exact (Option.some.inj hbetween).symm
  refine ⟨g, hg, i, j, l, m, hij, hi, hj, hbetween, l.node.tag, up, lca, down, m.node.tag, ?_⟩
  subst hx
  refine ⟨Route.parse?_render ?_, hleft.isToken, hright.isToken, ?_, ?_, Csv.field_of_plain hplain⟩
  · intro t ht hbracket
    exact absurd (hfree t ht _ hbracket) (by decide)
  · intro tag htag
    obtain ⟨n, hn, rfl⟩ := habove tag htag
    apply Kind.tag_ne_leaf
    rcases List.mem_append.mp hn with hn | hn
    · exact hleft.above_token n hn
    · exact hright.above_token n hn
  · intro c hc
    simpa [Csv.needsQuotes, and_assoc] using hplain c hc

/-- An operator with bars, and a literal that needs quotes beside a path that
does not. -/
theorem SourceFile.path_of_mem_contexts_compound :
    let a : Syntax (Body 0) .expr :=
      .pathExpr (.plainPath false (.cons (.plainSegment "a") .nil))
    let item : Syntax (Body 0) .item :=
      .fnItem [] (.signature ⟨false, false, false, none⟩ "f" .nil .nil none .absent [])
        (.block [] (.cons (.exprStmt (.compound .bitOr a (.literal "\"x,y\"")) true) .nil))
    let f : SourceFile := ⟨0, .file [] (.cons item .nil)⟩
    let x : Triple := ⟨"a", "[Ident]UP[AssignExpr:|=]DOWN[Lit]", "\"x,y\""⟩
    x ∈ f.tree.contexts ∧
      (∃ first up lca down last,
        Route.parse? x.path = some ⟨first :: up, lca, down ++ [last]⟩ ∧
          ∀ tag ∈ up ++ lca :: down, tag ≠ "Ident" ∧ tag ≠ "Lit") ∧
      Csv.field x.path.toList = x.path.toList ∧ Csv.field x.right.toList ≠ x.right.toList := by
  intro a item f x
  have hx : x ∈ f.tree.contexts := by decide
  obtain ⟨_, -, _, _, _, _, -, -, -, -, hpath⟩ := path_of_mem_contexts f x hx
  obtain ⟨first, up, lca, down, last, hread, -, -, hinner, -, hfield⟩ := hpath
  exact ⟨hx, ⟨first, up, lca, down, last, hread, hinner⟩, hfield, by decide⟩

end LeafPaths
