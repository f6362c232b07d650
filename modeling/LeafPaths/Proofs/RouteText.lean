import LeafPaths.Route

/-!
The written form of routes, read and written. A text is accepted exactly when
some route spells it, and it is spelled by one route only: brackets never nest,
so a tag ends at the first closing bracket whatever else it holds. Chains of
nodes need not be ancestor chains here. Their tags must be free of closing
brackets, which is a matter of the operators in them.
-/

namespace LeafPaths.Route

/-- No tag of the route closes a bracket that it stands in. -/
def TagsFree (r : Route) : Prop := ∀ t ∈ r.up ++ r.lca :: r.down, ']' ∉ t.toList

instance (r : Route) : Decidable r.TagsFree :=
  inferInstanceAs (Decidable (∀ t ∈ r.up ++ r.lca :: r.down, ']' ∉ t.toList))

/-- The route's tags can stand between brackets, and the text is the tags of the
way up, each followed by `UP`, the common ancestor's, and those of the way down,
each behind `DOWN`. -/
def Spells (r : Route) (s : String) : Prop :=
  r.TagsFree ∧
    s = String.join (r.up.map fun t => "[" ++ t ++ "]UP") ++ ("[" ++ r.lca ++ "]") ++
      String.join (r.down.map fun t => "DOWN[" ++ t ++ "]")

def tagChars (tag : String) (rest : List Char) : List Char :=
  '[' :: (tag.toList ++ ']' :: rest)

def downChars : List String → List Char
  | [] => []
  | t :: ts => 'D' :: 'O' :: 'W' :: 'N' :: tagChars t (downChars ts)

def upChars : List String → List Char → List Char
  | [], rest => rest
  | t :: ts, rest => tagChars t ('U' :: 'P' :: upChars ts rest)

def chars (r : Route) : List Char := upChars r.up (tagChars r.lca (downChars r.down))

private theorem join_down (down : List String) :
    (String.join (down.map fun t => "DOWN[" ++ t ++ "]")).toList = downChars down := by
  induction down with
  | nil => rfl
  | cons t ts ih => simp [downChars, tagChars, ih]

private theorem join_up (up : List String) (rest : List Char) :
    (String.join (up.map fun t => "[" ++ t ++ "]UP")).toList ++ rest = upChars up rest := by
  induction up with
  | nil => rfl
  | cons t ts ih => simp [upChars, tagChars, ← ih]

theorem render_eq_join (r : Route) :
    r.render = String.join (r.up.map fun t => "[" ++ t ++ "]UP") ++ ("[" ++ r.lca ++ "]") ++
      String.join (r.down.map fun t => "DOWN[" ++ t ++ "]") := by
  have hup : (fun t => renderTag t ++ "UP") = fun t => "[" ++ t ++ "]UP" := by
    funext t
    simp [renderTag, ← String.toList_inj]
  have hdown : (fun t => "DOWN" ++ renderTag t) = fun t => "DOWN[" ++ t ++ "]" := by
    funext t
    simp [renderTag, ← String.toList_inj]
  rw [render, hup, hdown, renderTag]

theorem render_toList (r : Route) : r.render.toList = r.chars := by
  rw [render_eq_join, chars, ← join_up, ← join_down]
  simp [tagChars]

/-- A written route has no characters but those of its tags and of the markers. -/
theorem mem_of_mem_render {r : Route} {c : Char} (hc : c ∈ r.render.toList) :
    c ∈ "[]UPDOWN".toList ∨ ∃ t ∈ r.up ++ r.lca :: r.down, c ∈ t.toList := by
  simp only [render_eq_join, String.toList_append, String.toList_join, List.flatMap_map,
    List.mem_append, List.mem_flatMap, String.reduceToList] at hc ⊢
  grind

/-! ### Reading -/

theorem readTag?_tagChars {tag : String} (h : ']' ∉ tag.toList) (rest : List Char) :
    readTag? (tagChars tag rest) = some (tag, rest) := by
  have hall : ∀ c ∈ tag.toList, (c != ']') = true := by
    intro c hc
    simp only [bne_iff_ne, ne_eq]
    rintro rfl
    exact h hc
  simp [readTag?, tagChars, List.takeWhile_append_of_pos hall, List.dropWhile_append_of_pos hall]

theorem tagChars_of_readTag? {s rest : List Char} {tag : String}
    (h : readTag? s = some (tag, rest)) : ']' ∉ tag.toList ∧ s = tagChars tag rest := by
  unfold readTag? at h
  split at h
  · rename_i inner
    split at h
    · cases h
    · rename_i c after heq
      cases h
      have hstop : c = ']' := by
        have hhead := List.head?_dropWhile_not (· != ']') inner
        rw [heq] at hhead
        simpa using hhead
      have hsplit : inner.takeWhile (· != ']') ++ c :: rest = inner := by
        rw [← heq]
        exact List.takeWhile_append_dropWhile
      refine ⟨?_, ?_⟩
      · intro hmem
        rw [String.toList_ofList] at hmem
        have := List.all_takeWhile (l := inner) (p := (· != ']'))
        rw [List.all_eq_true] at this
        simpa using this _ hmem
      · subst hstop
        rw [tagChars, String.toList_ofList, hsplit]
  · cases h

theorem readDown?_step {s rest : List Char} {tag : String} (h : readTag? s = some (tag, rest)) :
    readDown? ('D' :: 'O' :: 'W' :: 'N' :: s) = (readDown? rest).map (tag :: ·) := by
  rw [readDown?]
  split
  · rename_i tag' rest' heq
    rw [h] at heq
    cases heq
    rfl
  · rename_i heq
    rw [h] at heq
    cases heq

theorem readDown?_downChars (down : List String) (h : ∀ t ∈ down, ']' ∉ t.toList) :
    readDown? (downChars down) = some down := by
  induction down with
  | nil => simp [downChars, readDown?]
  | cons t ts ih =>
      have ht := readTag?_tagChars (h t (by simp)) (downChars ts)
      have hts := ih fun u hu => h u (by simp [hu])
      rw [downChars, readDown?_step ht, hts]
      rfl

theorem downChars_of_readDown? {s : List Char} {down : List String}
    (h : readDown? s = some down) : (∀ t ∈ down, ']' ∉ t.toList) ∧ s = downChars down := by
  fun_induction readDown? s generalizing down with
  | case1 =>
      cases h
      simp [downChars]
  | case2 rest tag after heq _ ih =>
      obtain ⟨tags, htags, rfl⟩ := Option.map_eq_some_iff.mp h
      obtain ⟨hfree, hrest⟩ := tagChars_of_readTag? heq
      obtain ⟨hall, hafter⟩ := ih htags
      subst hrest hafter
      exact ⟨List.forall_mem_cons.mpr ⟨hfree, hall⟩, rfl⟩
  | case3 => cases h
  | case4 => cases h

theorem read?_up {s rest : List Char} {tag : String}
    (h : readTag? s = some (tag, 'U' :: 'P' :: rest)) :
    read? s = (read? rest).map fun r => { r with up := tag :: r.up } := by
  rw [read?]
  split
  · rename_i tag' rest' heq
    rw [h] at heq
    cases heq
    rfl
  · rename_i tag' rest' hno heq
    rw [h] at heq
    cases heq
    exact absurd rfl (hno _)
  · rename_i heq
    rw [h] at heq
    cases heq

theorem read?_meet {s rest : List Char} {tag : String} (h : readTag? s = some (tag, rest))
    (hno : ∀ after, rest ≠ 'U' :: 'P' :: after) :
    read? s = (readDown? rest).map fun down => ⟨[], tag, down⟩ := by
  rw [read?]
  split
  · rename_i tag' rest' heq
    rw [h] at heq
    exact absurd (congrArg Prod.snd (Option.some.inj heq)) (hno rest')
  · rename_i tag' rest' _ heq
    rw [h] at heq
    cases heq
    rfl
  · rename_i heq
    rw [h] at heq
    cases heq

/-- What stands behind the common ancestor cannot be taken for a way up. -/
private theorem downChars_ne_up (down : List String) (after : List Char) :
    downChars down ≠ 'U' :: 'P' :: after := by
  cases down <;> simp [downChars]

theorem read?_chars (r : Route) (h : r.TagsFree) : read? r.chars = some r := by
  obtain ⟨up, lca, down⟩ := r
  simp only [TagsFree, chars] at h ⊢
  induction up with
  | nil =>
      have hlca := readTag?_tagChars (h lca (by simp)) (downChars down)
      have hdown := readDown?_downChars down fun t ht => h t (by simp [ht])
      rw [upChars, read?_meet hlca (downChars_ne_up down), hdown]
      rfl
  | cons t ts ih =>
      have ht := readTag?_tagChars (h t (by simp))
        ('U' :: 'P' :: upChars ts (tagChars lca (downChars down)))
      have hts := ih fun u hu => h u (List.mem_cons_of_mem t hu)
      rw [upChars, read?_up ht, hts]
      rfl

theorem chars_of_read? {s : List Char} {r : Route} (h : read? s = some r) :
    r.TagsFree ∧ s = r.chars := by
  fun_induction read? s generalizing r with
  | case1 s tag rest heq _ ih =>
      obtain ⟨r, hr, rfl⟩ := Option.map_eq_some_iff.mp h
      obtain ⟨hfree, hs⟩ := tagChars_of_readTag? heq
      obtain ⟨hall, hrest⟩ := ih hr
      refine ⟨List.forall_mem_cons.mpr ⟨hfree, hall⟩, ?_⟩
      rw [hs, hrest]
      rfl
  | case2 s tag rest hno heq =>
      obtain ⟨down, hdown, rfl⟩ := Option.map_eq_some_iff.mp h
      obtain ⟨hfree, hs⟩ := tagChars_of_readTag? heq
      obtain ⟨hall, hrest⟩ := downChars_of_readDown? hdown
      refine ⟨List.forall_mem_cons.mpr ⟨hfree, hall⟩, ?_⟩
      rw [hs, hrest]
      rfl
  | case3 => cases h

theorem spells_iff_render (r : Route) (s : String) : r.Spells s ↔ r.TagsFree ∧ s = r.render := by
  rw [Spells, render_eq_join]

theorem parse?_eq_some_iff (s : String) (r : Route) : parse? s = some r ↔ r.Spells s := by
  rw [spells_iff_render, ← String.toList_inj, render_toList, parse?]
  constructor
  · intro h
    exact chars_of_read? h
  · rintro ⟨hfree, hs⟩
    rw [hs]
    exact read?_chars r hfree

theorem parse?_render {r : Route} (h : r.TagsFree) : parse? r.render = some r :=
  (parse?_eq_some_iff _ r).mpr ((spells_iff_render r _).mpr ⟨h, rfl⟩)

theorem render_inj {r r' : Route} (h : r.TagsFree) (h' : r'.TagsFree) :
    r.render = r'.render ↔ r = r' := by
  constructor
  · intro heq
    have hr := parse?_render h
    rw [heq, parse?_render h'] at hr
    exact (Option.some.inj hr).symm
  · rintro rfl
    rfl

/-- The texts that are read are those that a route spells: all others are
refused, a text that is read is written back as it was, and it has one reading. -/
theorem parse?_exact (s : String) :
    (∀ up lca down, parse? s = some ⟨up, lca, down⟩ ↔ Spells ⟨up, lca, down⟩ s) ∧
      (parse? s = none ↔ ∀ r : Route, ¬ r.Spells s) ∧
      (∀ r, parse? s = some r → r.render = s) ∧
      ∀ r r' : Route, r.Spells s → r'.Spells s → r = r' := by
  refine ⟨fun up lca down => parse?_eq_some_iff s ⟨up, lca, down⟩, ?_, ?_, ?_⟩
  · rw [Option.eq_none_iff_forall_ne_some]
    exact forall_congr' fun r => not_congr (parse?_eq_some_iff s r)
  · intro r h
    have hs := (spells_iff_render r s).mp ((parse?_eq_some_iff s r).mp h)
    exact hs.2.symm
  · intro r r' h h'
    have hr := (parse?_eq_some_iff s r).mpr h
    rw [(parse?_eq_some_iff s r').mpr h'] at hr
    exact (Option.some.inj hr).symm

/-- Tags that hold the markers themselves, an opening bracket or nothing. -/
theorem parse?_exact_markers :
    parse? "[[UP]UP[]DOWN[DOWN[x]" = some ⟨["[UP"], "", ["DOWN[x"]⟩ ∧
      Route.render ⟨["[UP"], "", ["DOWN[x"]⟩ = "[[UP]UP[]DOWN[DOWN[x]" ∧
      (∀ r : Route, r.Spells "[[UP]UP[]DOWN[DOWN[x]" → r = ⟨["[UP"], "", ["DOWN[x"]⟩) := by
  have hspells : Spells ⟨["[UP"], "", ["DOWN[x"]⟩ "[[UP]UP[]DOWN[DOWN[x]" := by
    refine ⟨by decide, by decide⟩
  obtain ⟨hread, -, hback, hone⟩ := parse?_exact "[[UP]UP[]DOWN[DOWN[x]"
  have hparse := (hread _ _ _).mpr hspells
  exact ⟨hparse, hback _ hparse, fun r hr => hone r _ hr hspells⟩

/-! ### Chains of nodes -/

theorem commonLength_le (P Q : List Node) :
    commonLength P Q ≤ P.length ∧ commonLength P Q ≤ Q.length := by
  fun_induction commonLength P Q with
  | case1 a as b bs _ ih =>
      simp only [List.length_cons]
      omega
  | case2 | case3 => exact ⟨Nat.zero_le _, Nat.zero_le _⟩

theorem commonLength_comm (P Q : List Node) : commonLength P Q = commonLength Q P := by
  induction P generalizing Q with
  | nil => cases Q <;> rfl
  | cons p P ih =>
      cases Q with
      | nil => rfl
      | cons q Q =>
          have hsame : p.same q = q.same p := by
            simp only [Node.same, Bool.beq_comm]
          simp only [commonLength, hsame, ih]

theorem commonLength_eq_zero_iff (P Q : List Node) :
    commonLength P Q = 0 ↔
      P = [] ∨ Q = [] ∨ ∃ p P' q Q', P = p :: P' ∧ Q = q :: Q' ∧ p.same q = false := by
  cases P with
  | nil => simp [commonLength]
  | cons p P' =>
      cases Q with
      | nil => simp [commonLength]
      | cons q Q' => cases h : p.same q <;> simp [commonLength, h]

theorem commonLength_drop {P Q : List Node} {i : Nat} (hp : i < P.length) (hq : i < Q.length) :
    commonLength (P.drop i) (Q.drop i) =
      if P[i].same Q[i] then commonLength (P.drop (i + 1)) (Q.drop (i + 1)) + 1 else 0 := by
  rw [List.drop_eq_getElem_cons hp, List.drop_eq_getElem_cons hq, commonLength]

theorem between_of_commonLength_ne_zero {P Q : List Node} (h : commonLength P Q ≠ 0) :
    ∃ meet, P[commonLength P Q - 1]? = some meet ∧
      between P Q = some
        { up := ((P.drop (commonLength P Q)).map Node.tag).reverse
          lca := meet.tag
          down := (Q.drop (commonLength P Q)).map Node.tag } := by
  obtain ⟨k, hk⟩ := Nat.exists_eq_succ_of_ne_zero h
  have hlt : k < P.length := by
    have hle := (commonLength_le P Q).1
    omega
  refine ⟨P[k], by simp [hk], ?_⟩
  simp [between, hk, List.getElem?_eq_getElem hlt]

theorem commonLength_map {φ : Node → Node} (hsame : ∀ p q, (φ p).same (φ q) = p.same q)
    (P Q : List Node) : commonLength (P.map φ) (Q.map φ) = commonLength P Q := by
  induction P generalizing Q with
  | nil => rfl
  | cons p P ih =>
      cases Q with
      | nil => rfl
      | cons q Q => simp only [List.map_cons, commonLength, hsame, ih]

theorem between_map {φ : Node → Node} (hsame : ∀ p q, (φ p).same (φ q) = p.same q)
    (htag : ∀ n, (φ n).tag = n.tag) (P Q : List Node) :
    between (P.map φ) (Q.map φ) = between P Q := by
  have htags : Node.tag ∘ φ = Node.tag := by
    funext n
    exact htag n
  rw [between, between, commonLength_map hsame]
  cases commonLength P Q with
  | zero => rfl
  | succ shared =>
      simp only [List.getElem?_map, Option.map_map, ← List.map_drop, List.map_map, htags]
      congr 1
      funext meet
      simp [htag]

theorem between_eq_none_iff (P Q : List Node) : between P Q = none ↔ commonLength P Q = 0 := by
  constructor
  · intro hnone
    by_cases h : commonLength P Q = 0
    · exact h
    · obtain ⟨meet, _, hsome⟩ := between_of_commonLength_ne_zero h
      rw [hnone] at hsome
      cases hsome
  · intro h
    simp [between, h]

theorem exists_node_of_between {P Q : List Node} {r : Route} {t : String}
    (hr : between P Q = some r) (ht : t ∈ r.up ++ r.lca :: r.down) : ∃ n ∈ P ++ Q, n.tag = t := by
  have hne : commonLength P Q ≠ 0 := by
    intro hzero
    rw [(between_eq_none_iff P Q).mpr hzero] at hr
    cases hr
  obtain ⟨meet, hmeet, hsome⟩ := between_of_commonLength_ne_zero hne
  rw [hr] at hsome
  cases hsome
  simp only [List.mem_append, List.mem_reverse, List.mem_map, List.mem_cons] at ht
  rcases ht with ⟨n, hn, rfl⟩ | rfl | ⟨n, hn, rfl⟩
  · exact ⟨n, List.mem_append_left Q (List.mem_of_mem_drop hn), rfl⟩
  · exact ⟨meet, List.mem_append_left Q (List.mem_of_getElem? hmeet), rfl⟩
  · exact ⟨n, List.mem_append_right P (List.mem_of_mem_drop hn), rfl⟩

theorem between_tagsFree {P Q : List Node} {r : Route}
    (h : ∀ n ∈ P ++ Q, ']' ∉ n.tag.toList) (hr : between P Q = some r) : r.TagsFree := by
  intro t ht
  obtain ⟨n, hn, rfl⟩ := exists_node_of_between hr ht
  exact h n hn

/-- Writing the route of two chains loses nothing. There is no text exactly when
the chains share no first node; otherwise the text is read back as the tags
behind the shared part of the first chain in reverse, the tag of the last shared
node, and the tags behind the shared part of the second chain. So texts agree
exactly where these tags do. -/
theorem between_render_decodes (P Q P' Q' : List Node)
    (free : ∀ n ∈ P ++ Q, ']' ∉ n.tag.toList) (free' : ∀ n ∈ P' ++ Q', ']' ∉ n.tag.toList) :
    let k := commonLength P Q
    let k' := commonLength P' Q'
    ((between P Q).map render = none ↔ k = 0) ∧
      (k = 0 ↔
        P = [] ∨ Q = [] ∨ ∃ p P₁ q Q₁, P = p :: P₁ ∧ Q = q :: Q₁ ∧ p.same q = false) ∧
      (k ≠ 0 → ∃ text lca, (between P Q).map render = some text ∧ P[k - 1]? = some lca ∧
        parse? text =
          some ⟨((P.drop k).map Node.tag).reverse, lca.tag, (Q.drop k).map Node.tag⟩) ∧
      (k ≠ 0 → k' ≠ 0 →
        ((between P Q).map render = (between P' Q').map render ↔
          (P.drop k).map Node.tag = (P'.drop k').map Node.tag ∧
            P[k - 1]?.map Node.tag = P'[k' - 1]?.map Node.tag ∧
            (Q.drop k).map Node.tag = (Q'.drop k').map Node.tag)) := by
  intro k k'
  refine ⟨?_, commonLength_eq_zero_iff P Q, ?_, ?_⟩
  · rw [Option.map_eq_none_iff]
    exact between_eq_none_iff P Q
  · intro hk
    obtain ⟨lca, hlca, hsome⟩ := between_of_commonLength_ne_zero hk
    refine ⟨_, lca, by rw [hsome]; rfl, hlca, ?_⟩
    exact parse?_render (between_tagsFree free hsome)
  · intro hk hk'
    obtain ⟨lca, hlca, hsome⟩ := between_of_commonLength_ne_zero hk
    obtain ⟨lca', hlca', hsome'⟩ := between_of_commonLength_ne_zero hk'
    have htext := render_inj (between_tagsFree free hsome) (between_tagsFree free' hsome')
    change P[k - 1]? = some lca at hlca
    change P'[k' - 1]? = some lca' at hlca'
    rw [hsome, hsome', hlca, hlca']
    simpa using htext

/-- An operator that holds an opening bracket and a marker is read back. -/
theorem between_render_decodes_operator :
    let t := Tree.node (.binary "[UP") [.ident "a", .lit "1"]
    let P := [Node.root 0 t, ⟨0, [0], .ident "a"⟩]
    let Q := [Node.root 0 t, ⟨0, [1], .lit "1"⟩]
    (∀ n ∈ P ++ Q, ']' ∉ n.tag.toList) ∧ commonLength P Q = 1 ∧
      ∃ text, (between P Q).map render = some text ∧
        parse? text = some ⟨["Ident"], "BinaryExpr:[UP", ["Lit"]⟩ := by
  intro t P Q
  have hfree : ∀ n ∈ P ++ Q, ']' ∉ n.tag.toList := by decide
  obtain ⟨-, -, hread, -⟩ := between_render_decodes P Q P Q hfree hfree
  obtain ⟨text, lca, htext, hlca, hparse⟩ := hread (by decide)
  cases hlca
  exact ⟨hfree, rfl, text, htext, hparse⟩

end LeafPaths.Route
