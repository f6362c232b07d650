import LeafPaths.Proofs.CsvRoundTrip
import LeafPaths.Proofs.JsonRoundTrip
import LeafPaths.Proofs.PathShape

/-!
Records without quotes, read back. The reader ends a record at every line feed and a
field at every comma, whatever was meant by them. Paths hold neither, since no
category or operator does. So for a file all depends on its tokens: what is read are
the contexts that were written exactly if no token holds a comma or a line feed. One
that does cannot be made up for by others, since no field that is read holds either.
-/

namespace LeafPaths

namespace Raw

def fields (line : List Char) : List String := (line.splitOn ',').map String.ofList

/-- The records of a text, which must end with a line feed. -/
def read? (text : String) : Option (List (List String)) :=
  (lines? text.toList).map fun lines => lines.map fields

/-- The text of a field that can be told from what is around it. -/
def IsPlain (s : String) : Prop := ',' ∉ s.toList ∧ '\n' ∉ s.toList

/-! ### What is read -/

theorem lineFeed_not_mem_of_lines? {s line : List Char} {lines : List (List Char)}
    (h : lines? s = some lines) (hline : line ∈ lines) : '\n' ∉ line := by
  induction s generalizing line lines with
  | nil =>
      cases h
      cases hline
  | cons c s ih =>
      rw [lines?] at h
      split at h
      · obtain ⟨rest, hrest, rfl⟩ := Option.map_eq_some_iff.mp h
        cases hline with
        | head => exact List.not_mem_nil
        | tail _ hline => exact ih hrest hline
      · next hc =>
          split at h
          · next first more hrest =>
              cases h
              cases hline with
              | head =>
                  have hfirst := ih hrest List.mem_cons_self
                  exact List.not_mem_cons_of_ne_of_not_mem (Ne.symm hc) hfirst
              | tail _ hline => exact ih hrest (List.mem_cons_of_mem first hline)
          · cases h

theorem mem_splitOn {x : Char} {s part : List Char} (h : part ∈ s.splitOn x) :
    x ∉ part ∧ part ⊆ s := by
  induction s generalizing part with
  | nil =>
      rw [List.splitOn_nil, List.mem_singleton] at h
      subst h
      exact ⟨List.not_mem_nil, List.nil_subset []⟩
  | cons c s ih =>
      rw [List.splitOn_cons_eq_if_modifyHead] at h
      split at h
      · cases h with
        | head => exact ⟨List.not_mem_nil, List.nil_subset _⟩
        | tail _ h => exact ⟨(ih h).1, List.subset_cons_of_subset c (ih h).2⟩
      · next hc =>
          cases hsplit : s.splitOn x with
          | nil => exact absurd hsplit (List.splitOn_ne_nil x s)
          | cons first rest =>
              rw [hsplit] at h
              have hfirst := ih (hsplit ▸ List.mem_cons_self : first ∈ s.splitOn x)
              cases h with
              | head =>
                  have hne : x ≠ c := by
                    rintro rfl
                    exact hc (beq_self_eq_true x)
                  exact ⟨List.not_mem_cons_of_ne_of_not_mem hne hfirst.1,
                    List.cons_subset_cons c hfirst.2⟩
              | tail _ h =>
                  have hrest := ih (hsplit ▸ List.mem_cons_of_mem first h : part ∈ s.splitOn x)
                  exact ⟨hrest.1, List.subset_cons_of_subset c hrest.2⟩

theorem isPlain_of_read? {text field : String} {rows : List (List String)} {row : List String}
    (h : read? text = some rows) (hrow : row ∈ rows) (hfield : field ∈ row) : IsPlain field := by
  obtain ⟨lines, hlines, rfl⟩ := Option.map_eq_some_iff.mp h
  obtain ⟨line, hline, rfl⟩ := List.mem_map.mp hrow
  obtain ⟨part, hpart, rfl⟩ := List.mem_map.mp hfield
  obtain ⟨hcomma, hsub⟩ := mem_splitOn hpart
  rw [IsPlain, String.toList_ofList]
  exact ⟨hcomma, fun hfeed => lineFeed_not_mem_of_lines? hlines hline (hsub hfeed)⟩

/-! ### What is written -/

theorem display_toList (t : Triple) :
    t.display.toList = [','].intercalate ((Csv.row t).map String.toList) := by
  simp [Triple.display, Csv.row]

theorem fields_display {t : Triple} (h : ∀ s ∈ Csv.row t, IsPlain s) :
    fields t.display.toList = Csv.row t := by
  have hcomma : ∀ part ∈ (Csv.row t).map String.toList, ',' ∉ part := by
    intro part hpart
    obtain ⟨s, hs, rfl⟩ := List.mem_map.mp hpart
    exact (h s hs).1
  rw [fields, display_toList, List.splitOn_intercalate ',' hcomma (by simp [Csv.row]), List.map_map]
  simp [Csv.row]

theorem lineFeed_not_mem_display {t : Triple} (h : ∀ s ∈ Csv.row t, IsPlain s) :
    '\n' ∉ t.display.toList := by
  simp only [Csv.row, IsPlain, List.forall_mem_cons] at h
  simp [Triple.display, h]

theorem render_toList (ts : List Triple) :
    (Format.raw.render ts).toList =
      (ts.map fun t => t.display.toList).flatMap (· ++ ['\n']) := by
  simp [Format.render, Format.record, List.flatMap_map]

theorem read?_render {ts : List Triple} (h : ∀ t ∈ ts, ∀ s ∈ Csv.row t, IsPlain s) :
    read? (Format.raw.render ts) = some (ts.map Csv.row) := by
  have hlines : ∀ line ∈ ts.map fun t => t.display.toList, '\n' ∉ line := by
    intro line hline
    obtain ⟨t, ht, rfl⟩ := List.mem_map.mp hline
    exact lineFeed_not_mem_display (h t ht)
  rw [read?, render_toList, lines?_flatMap hlines, Option.map_some, List.map_map]
  congr 1
  apply List.map_congr_left
  intro t ht
  exact fields_display (h t ht)

theorem read?_render_iff (ts : List Triple) :
    read? (Format.raw.render ts) = some (ts.map Csv.row) ↔
      ∀ t ∈ ts, ∀ s ∈ Csv.row t, IsPlain s := by
  refine ⟨?_, read?_render⟩
  intro hread t ht s hs
  exact isPlain_of_read? hread (List.mem_map_of_mem ht) hs

end Raw

namespace SourceFile

theorem isPlain_path {f : SourceFile} {t : Triple} (ht : t ∈ f.tree.contexts) :
    Raw.IsPlain t.path := by
  obtain ⟨g, hg, i, j, l, m, -, hi, hj, hbetween⟩ := Tree.exists_pair_of_mem_contexts ht
  have hneat : g.tree.Every Tree.IsNeat :=
    Tree.Every.of_mem_functionsFrom 0 [] f.tree f.every_isNeat hg
  have hl := Leaf.isNeat_of_mem_leaves hneat (List.mem_of_getElem? hi)
  have hm := Leaf.isNeat_of_mem_leaves hneat (List.mem_of_getElem? hj)
  obtain ⟨route, hroute, rfl⟩ := Option.map_eq_some_iff.mp hbetween
  have hfree := Leaf.tag_free_of_between hl hm hroute
  constructor
  · intro hcomma
    exact absurd (Route.needsQuotes_of_mem_render hfree hcomma) (by decide)
  · intro hfeed
    exact absurd (Route.needsQuotes_of_mem_render hfree hfeed) (by decide)

/-- The records of a file that are written without quotes are read back, three
fields for each context and in their order, exactly if none of the tokens in them
holds a comma or a line feed. -/
theorem raw_read?_iff (f : SourceFile) :
    Raw.read? (Format.raw.render f.tree.contexts) =
        some (f.tree.contexts.map fun t => [t.left, t.path, t.right]) ↔
      ∀ t ∈ f.tree.contexts, Raw.IsPlain t.left ∧ Raw.IsPlain t.right := by
  refine (Raw.read?_render_iff f.tree.contexts).trans ?_
  constructor
  · intro h t ht
    exact ⟨h t ht t.left (by simp [Csv.row]), h t ht t.right (by simp [Csv.row])⟩
  · intro h t ht s hs
    obtain ⟨hleft, hright⟩ := h t ht
    simp only [Csv.row, List.mem_cons, List.not_mem_nil, or_false] at hs
    rcases hs with rfl | rfl | rfl
    · exact hleft
    · exact isPlain_path ht
    · exact hright

end SourceFile

-- A comma in a literal makes a record of four fields.
example :
    Raw.read? (Format.raw.render [⟨"\"a,b\"", "[Lit]UP[Call]DOWN[Ident]", "x"⟩]) =
      some [["\"a", "b\"", "[Lit]UP[Call]DOWN[Ident]", "x"]] := by
  decide +kernel

end LeafPaths
