import LeafPaths.Proofs.LoaderRuns
import LeafPaths.Proofs.NameOrder

/-!
The sources of a folder. A search goes through a folder entry by entry and into each
folder before the next entry, so what it finds is in the order of the names on the way,
compared one after another: `a/x.rs` comes before `a.rs`. Where there are no links it
finds every source once, since no two ways lead to the same place, and adding the folder
adds exactly these, up to the first that is no text.
-/

namespace LeafPaths

/-! ### Paths below a folder -/

namespace FilePath

def below (p : FilePath) (names : List String) : FilePath := names.foldl join p

theorem isSourceName_iff {n : String} :
    isSourceName n = true ↔ ∃ stem, stem ≠ "" ∧ n = stem ++ ".rs" := by
  constructor
  · intro h
    unfold isSourceName at h
    split at h
    · next c cs hrev =>
        refine ⟨String.ofList (c :: cs).reverse, ?_, ?_⟩
        · intro hempty
          have := congrArg String.toList hempty
          simp at this
        · apply String.toList_inj.mp
          have := congrArg List.reverse hrev
          simpa using this
    · cases h
  · rintro ⟨stem, hstem, rfl⟩
    have hne : stem.toList.reverse ≠ [] := by simpa using hstem
    obtain ⟨c, cs, hcs⟩ := List.exists_cons_of_ne_nil hne
    simp [isSourceName, hcs]

theorem steps_join {p : FilePath} {n : String} (hp : p.text ≠ "") (hn : isName n = true) :
    (p.join n).steps = p.steps ++ [n] := by
  have hkept : (n != "" && n != ".") = true := by
    simp only [isName, Bool.and_eq_true] at hn ⊢
    exact hn.1.1
  unfold steps
  rcases parts_join hp hn with h | ⟨front, hp, h⟩
  · simp [h, hkept]
  · simp [h, hp, hkept]

theorem isSkipped_eq_false_iff {p : FilePath} :
    p.isSkipped = false ↔ ∀ n ∈ p.steps.getLast?, n ≠ "target" ∧ n ≠ ".git" := by
  unfold isSkipped
  cases p.steps.getLast? with
  | none => simp
  | some n => simp

theorem isSkipped_join {p : FilePath} {n : String} (hp : p.text ≠ "") (hn : isName n = true) :
    (p.join n).isSkipped = (n == "target" || n == ".git") := by
  simp [isSkipped, steps_join hp hn]

theorem isSource_join {p : FilePath} {n : String} (hp : p.text ≠ "") (hn : isName n = true) :
    (p.join n).isSource = isSourceName n := by
  simp [isSource, steps_join hp hn]

end FilePath

namespace FileSystem

variable {fs : FileSystem}

theorem nodup_eraseDups (names : List String) : names.eraseDups.Nodup := by
  induction hlength : names.length using Nat.strongRecOn generalizing names with
  | ind k ih =>
      cases names with
      | nil => exact List.nodup_nil
      | cons n rest =>
          -- the recursion is on what is left after all repetitions of the first name are gone
          have hless : (rest.filter fun m => !m == n).length < k := by
            rw [← hlength, List.length_cons]
            exact Nat.lt_succ_of_le (List.length_filter_le _ _)
          have hfirst : n ∉ (rest.filter fun m => !m == n).eraseDups := by
            simp [List.mem_eraseDups]
          rw [List.eraseDups_cons]
          exact List.nodup_cons.mpr ⟨hfirst, ih _ hless _ rfl⟩

theorem namesAt_pairwise (fs : FileSystem) (l : Location) :
    (fs.namesAt l).Pairwise FilePath.NameBefore := by
  unfold namesAt
  generalize fs.objects.filterMap _ = names
  have hsorted : names.eraseDups.mergeSort.Pairwise fun m n => decide (m ≤ n) = true := by
    apply List.pairwise_mergeSort
    · intro a b c hab hbc
      exact decide_eq_true (String.le_trans (of_decide_eq_true hab) (of_decide_eq_true hbc))
    · intro a b
      simpa using String.le_total a b
  have hnodup : names.eraseDups.mergeSort.Nodup :=
    (List.mergeSort_perm _ _).nodup_iff.mpr (nodup_eraseDups names)
  refine (hsorted.and hnodup).imp ?_
  rintro m n ⟨hle, hne⟩
  exact FilePath.nameBefore_of_lt (Std.lt_of_le_of_ne (of_decide_eq_true hle) hne)

theorem mem_namesAt {l : Location} {n : String} :
    n ∈ fs.namesAt l ↔ FilePath.isName n = true ∧ ∃ o, fs.object? (l ++ [n]) = some o := by
  have hobject : fs.object? (l ++ [n]) = fs.objects.lookup (l ++ [n]) := by
    simp [object?]
  rw [← Option.isSome_iff_exists, hobject, List.lookup_isSome_iff]
  simp only [namesAt, List.mem_mergeSort, List.mem_eraseDups, List.mem_filterMap]
  constructor
  · rintro ⟨x, hx, hn⟩
    split at hn
    · split at hn
      · next hc =>
          cases hn
          exact ⟨hc.2, x, hx, by simp [hc.1]⟩
      · cases hn
    · cases hn
  · rintro ⟨hname, x, hx, hl⟩
    refine ⟨x, hx, ?_⟩
    have hl : x.1 = l ++ [n] := (eq_of_beq hl).symm
    simp [hl, hname]

theorem object?_cases {l : Location} {o : Object} (h : fs.object? l = some o) :
    l = [] ∧ o = .folder ∨ (l, o) ∈ fs.objects := by
  unfold object? at h
  split at h
  · next hl => exact .inl ⟨hl, (Option.some.inj h).symm⟩
  · obtain ⟨before, after, hsplit, -⟩ := List.lookup_eq_some_iff.mp h
    exact .inr (by simp [hsplit])

def NoLinks (fs : FileSystem) : Prop := ∀ l target, fs.object? l ≠ some (.link target)

theorem text_ne_of_resolve {p : FilePath} {place : Place} (h : fs.resolve p = .ok place) :
    p.text ≠ "" := by
  intro hp
  rw [resolve, if_pos hp] at h
  cases h

theorem resolve_join_of_object {p : FilePath} {place : Place} {n : String} {o : Object}
    (hlinks : fs.NoLinks) (hp : fs.resolve p = .ok place)
    (hfolder : fs.object? place.location = some .folder) (hn : FilePath.isName n = true)
    (ho : fs.object? (place.location ++ [n]) = some o) :
    fs.resolve (p.join n) = .ok ⟨place.links, place.location ++ [n]⟩ := by
  have hlink : ∀ target, o ≠ .link target := by
    rintro target rfl
    exact hlinks _ target ho
  rw [resolve_join hp hfolder hn, walk_name hfolder hn ho hlink, walk_nil]

/-- A source below a folder: a file whose name has the ending `.rs`, and every folder on the way
to it is one to be searched. -/
structure HasSource (fs : FileSystem) (l : Location) (w : List String) : Prop where
  file : ∃ content, fs.object? (l ++ w) = some (.file content)
  named : ∀ n ∈ w, FilePath.isName n = true
  ending : ∃ front stem, w = front ++ [stem ++ ".rs"] ∧ stem ≠ ""
  searched : ∀ u n v, w = u ++ n :: v → v ≠ [] →
    fs.object? (l ++ u ++ [n]) = some .folder ∧ n ≠ "target" ∧ n ≠ ".git"

namespace HasSource

variable {l : Location} {n : String} {w : List String}

theorem ne_nil (h : fs.HasSource l w) : w ≠ [] := by
  obtain ⟨front, stem, rfl, -⟩ := h.ending
  simp

theorem exists_cons (h : fs.HasSource l w) : ∃ n u, n ∈ fs.namesAt l ∧ w = n :: u := by
  obtain ⟨n, u, rfl⟩ := List.exists_cons_of_ne_nil h.ne_nil
  refine ⟨n, u, mem_namesAt.mpr ⟨h.named n List.mem_cons_self, ?_⟩, rfl⟩
  by_cases hu : u = []
  · subst hu
    obtain ⟨content, hfile⟩ := h.file
    exact ⟨_, hfile⟩
  · have hfolder := (h.searched [] n u rfl hu).1
    rw [List.append_nil] at hfolder
    exact ⟨_, hfolder⟩

theorem cons_of_file {content : ByteArray} (hname : FilePath.isName n = true)
    (ho : fs.object? (l ++ [n]) = some (.file content)) :
    fs.HasSource l (n :: w) ↔ FilePath.isSourceName n = true ∧ w = [] := by
  rw [FilePath.isSourceName_iff]
  constructor
  · intro h
    have hw : w = [] := by
      apply Classical.byContradiction
      intro hw
      have hfolder := (h.searched [] n w rfl hw).1
      rw [List.append_nil, ho] at hfolder
      cases hfolder
    subst hw
    obtain ⟨front, stem, hfront, hstem⟩ := h.ending
    rw [← List.nil_append [n]] at hfront
    exact ⟨⟨stem, hstem, (List.cons.inj (List.append_inj' hfront rfl).2).1⟩, rfl⟩
  · rintro ⟨⟨stem, hstem, rfl⟩, rfl⟩
    refine ⟨⟨content, ho⟩, by simpa using hname, ⟨[], stem, rfl, hstem⟩, ?_⟩
    intro u m v hw hv
    have hlength := congrArg List.length hw
    have hpos := List.length_pos_iff.mpr hv
    simp only [List.length_append, List.length_cons, List.length_nil] at hlength
    omega

theorem cons_of_folder (hname : FilePath.isName n = true)
    (ho : fs.object? (l ++ [n]) = some .folder) :
    fs.HasSource l (n :: w) ↔ n ≠ "target" ∧ n ≠ ".git" ∧ fs.HasSource (l ++ [n]) w := by
  constructor
  · intro h
    obtain ⟨front, stem, hfront, hstem⟩ := h.ending
    cases front with
    | nil =>
        obtain ⟨rfl, rfl⟩ := List.cons.inj hfront
        obtain ⟨content, hfile⟩ := h.file
        rw [ho] at hfile
        cases hfile
    | cons m front =>
        obtain ⟨rfl, rfl⟩ := List.cons.inj hfront
        obtain ⟨-, hskip⟩ := h.searched [] n _ rfl (by simp)
        refine ⟨hskip.1, hskip.2, ⟨?_, ?_, ⟨front, stem, rfl, hstem⟩, ?_⟩⟩
        · rw [List.append_assoc]
          exact h.file
        · intro m hm
          exact h.named m (List.mem_cons_of_mem n hm)
        · intro u m v hv hne
          rw [List.append_assoc l]
          exact h.searched (n :: u) m v (congrArg (n :: ·) hv) hne
  · rintro ⟨htarget, hgit, h⟩
    obtain ⟨front, stem, hfront, hstem⟩ := h.ending
    refine ⟨?_, List.forall_mem_cons.mpr ⟨hname, h.named⟩, ⟨n :: front, stem, ?_, hstem⟩, ?_⟩
    · rw [← List.singleton_append, ← List.append_assoc]
      exact h.file
    · rw [hfront, List.cons_append]
    · intro u m v hv hne
      cases u with
      | nil =>
          cases hv
          rw [List.append_nil]
          exact ⟨ho, htarget, hgit⟩
      | cons k u =>
          obtain ⟨rfl, hw⟩ := List.cons.inj hv
          have hsearched := h.searched u m v hw hne
          rw [List.append_assoc l] at hsearched
          exact hsearched

end HasSource

/-- Paths that lead from a folder to places below it, in the order of the places. -/
structure Lists (p : FilePath) (found : Location → Prop) (paths : List FilePath)
    (places : List Location) : Prop where
  paths_eq : paths = places.map p.below
  ordered : places.Pairwise (List.Lex FilePath.NameBefore)
  mem_iff : ∀ w, w ∈ places ↔ found w

theorem names_eq_namesAt {p : FilePath} {place : Place} (hp : fs.resolve p = .ok place)
    (hfolder : fs.object? place.location = some .folder) :
    fs.names p = fs.namesAt place.location := by
  simp only [names, list, hp, hfolder]

theorem exists_lists_names {p : FilePath} {l : Location} {ns : List String}
    (hns : ns.Pairwise FilePath.NameBefore)
    (h : ∀ n ∈ ns, ∃ ws,
      Lists (p.join n) (fun w => fs.HasSource l (n :: w)) (fs.sourcesAt p n) ws) :
    ∃ ws, Lists p (fun w => ∃ n u, n ∈ ns ∧ w = n :: u ∧ fs.HasSource l w)
      (ns.flatMap (fs.sourcesAt p)) ws := by
  induction ns with
  | nil => exact ⟨[], rfl, .nil, by simp⟩
  | cons n ns ih =>
      obtain ⟨hn, hns⟩ := List.pairwise_cons.mp hns
      obtain ⟨⟨us, hus⟩, hrest⟩ := List.forall_mem_cons.mp h
      obtain ⟨vs, hvs⟩ := ih hns hrest
      refine ⟨us.map (n :: ·) ++ vs, ?_, ?_, ?_⟩
      · rw [List.flatMap_cons, hus.paths_eq, hvs.paths_eq, List.map_append, List.map_map]
        rfl
      · refine List.pairwise_append.mpr ⟨?_, hvs.ordered, ?_⟩
        · exact List.pairwise_map.mpr (hus.ordered.imp .cons)
        · -- whatever is below the first name comes before all that is below a later one
          intro u hu v hv
          obtain ⟨u, -, rfl⟩ := List.mem_map.mp hu
          obtain ⟨m, w, hm, rfl, -⟩ := (hvs.mem_iff v).mp hv
          exact .rel (hn m hm)
      · intro w
        rw [List.mem_append, List.mem_map, hvs.mem_iff]
        constructor
        · rintro (⟨u, hu, rfl⟩ | ⟨m, u, hm, rfl, hsource⟩)
          · exact ⟨n, u, List.mem_cons_self, rfl, (hus.mem_iff u).mp hu⟩
          · exact ⟨m, u, List.mem_cons_of_mem n hm, rfl, hsource⟩
        · rintro ⟨m, u, hm, rfl, hsource⟩
          rcases List.mem_cons.mp hm with rfl | hm
          · exact .inl ⟨u, (hus.mem_iff u).mpr hsource, rfl⟩
          · exact .inr ⟨m, u, hm, rfl, hsource⟩

theorem isFolder_of_resolve {p : FilePath} {place : Place} (hp : fs.resolve p = .ok place) :
    fs.isFolder p = true ↔ fs.object? place.location = some .folder := by
  simp only [isFolder, objectOf?, hp]
  split <;> simp_all

/-- A folder adds what is found in it, unless it is skipped, and a file adds itself. -/
theorem exists_lists_name {p : FilePath} {place : Place} {n : String} (hlinks : fs.NoLinks)
    (hp : fs.resolve p = .ok place) (hfolder : fs.object? place.location = some .folder)
    (hn : n ∈ fs.namesAt place.location)
    (ih : fs.object? (place.location ++ [n]) = some .folder →
      ∃ ws, Lists (p.join n) (fs.HasSource (place.location ++ [n])) (fs.sourcesIn (p.join n)) ws) :
    ∃ ws,
      Lists (p.join n) (fun w => fs.HasSource place.location (n :: w)) (fs.sourcesAt p n) ws := by
  obtain ⟨hname, o, ho⟩ := mem_namesAt.mp hn
  have htext := text_ne_of_resolve hp
  have hr := resolve_join_of_object hlinks hp hfolder hname ho
  have hisFolder := isFolder_of_resolve hr
  cases o with
  | link target => exact absurd ho (hlinks _ target)
  | folder =>
      rw [sourcesAt, if_pos (hisFolder.mpr ho), FilePath.isSkipped_join htext hname]
      simp only [HasSource.cons_of_folder hname ho]
      split
      · next hskip =>
          rw [Bool.or_eq_true, beq_iff_eq, beq_iff_eq] at hskip
          refine ⟨[], rfl, .nil, ?_⟩
          intro w
          rw [List.mem_nil_iff, false_iff]
          rintro ⟨htarget, hgit, -⟩
          exact hskip.elim htarget hgit
      · next hskip =>
          rw [Bool.or_eq_true, beq_iff_eq, beq_iff_eq, not_or] at hskip
          obtain ⟨ws, hws⟩ := ih ho
          refine ⟨ws, hws.paths_eq, hws.ordered, ?_⟩
          intro w
          rw [hws.mem_iff, and_iff_right hskip.1, and_iff_right hskip.2]
  | file content =>
      have hnot : fs.isFolder (p.join n) ≠ true := by
        intro h
        rw [hisFolder.mp h] at ho
        cases ho
      rw [sourcesAt, if_neg hnot, FilePath.isSource_join htext hname]
      simp only [HasSource.cons_of_file hname ho]
      split
      · next hsource =>
          refine ⟨[[]], rfl, List.pairwise_singleton _ _, ?_⟩
          simp [hsource]
      · next hsource =>
          exact ⟨[], rfl, .nil, by simp [hsource]⟩

theorem exists_lists_sources {p : FilePath} {place : Place} (hlinks : fs.NoLinks)
    (hp : fs.resolve p = .ok place) (hfolder : fs.object? place.location = some .folder) :
    ∃ ws, Lists p (fs.HasSource place.location) (fs.sourcesIn p) ws := by
  -- along the search, which ends although a folder's path does not say how deep it goes
  induction p using FileSystem.sourcesIn.induct fs generalizing place with
  | case1 p ih =>
      have hnames := names_eq_namesAt hp hfolder
      have hentries : ∀ n ∈ fs.namesAt place.location, ∃ ws,
          Lists (p.join n) (fun w => fs.HasSource place.location (n :: w)) (fs.sourcesAt p n)
            ws := by
        intro n hn
        apply exists_lists_name hlinks hp hfolder hn
        intro ho
        have hr := resolve_join_of_object hlinks hp hfolder (mem_namesAt.mp hn).1 ho
        exact ih n (hnames ▸ hn) ((isFolder_of_resolve hr).mpr ho) hr ho
      obtain ⟨ws, hws⟩ := exists_lists_names (namesAt_pairwise fs place.location) hentries
      rw [sourcesIn_eq_flatMap, hnames]
      refine ⟨ws, hws.paths_eq, hws.ordered, ?_⟩
      intro w
      rw [hws.mem_iff]
      constructor
      · rintro ⟨n, u, -, -, hsource⟩
        exact hsource
      · intro hsource
        obtain ⟨n, u, hn, hw⟩ := hsource.exists_cons
        exact ⟨n, u, hn, hw, hsource⟩

theorem resolve_below {p : FilePath} {place : Place} {w : List String} (hlinks : fs.NoLinks)
    (hp : fs.resolve p = .ok place) (hfolder : fs.object? place.location = some .folder)
    (hw : fs.HasSource place.location w) :
    fs.resolve (p.below w) = .ok ⟨place.links, place.location ++ w⟩ := by
  induction w generalizing p place with
  | nil => exact absurd rfl hw.ne_nil
  | cons n u ih =>
      obtain ⟨m, v, hm, heq⟩ := hw.exists_cons
      cases heq
      obtain ⟨hname, o, ho⟩ := mem_namesAt.mp hm
      have hr := resolve_join_of_object hlinks hp hfolder hname ho
      cases o with
      | link target => exact absurd ho (hlinks _ target)
      | file content =>
          obtain ⟨-, rfl⟩ := (HasSource.cons_of_file hname ho).mp hw
          exact hr
      | folder =>
          obtain ⟨-, -, hu⟩ := (HasSource.cons_of_folder hname ho).mp hw
          have hrest := ih hr ho hu
          rw [List.append_assoc] at hrest
          exact hrest

/-- What stands at a location is a file with a text in it. -/
def HoldsText (fs : FileSystem) (l : Location) : Prop :=
  ∃ content, fs.object? l = some (.file content) ∧ content.IsValidUTF8

/-- The text of the file at a location, and the empty text where there is none. -/
def textAt (fs : FileSystem) (l : Location) : String :=
  match fs.object? l with
  | some (.file content) => (String.fromUTF8? content).getD ""
  | _ => ""

theorem textAt_of_file {l : Location} {text : String}
    (h : fs.object? l = some (.file text.toUTF8)) : fs.textAt l = text := by
  simp only [textAt, h, fromUTF8?_eq_some_iff.mpr rfl, Option.getD_some]

theorem readText_of_holdsText {p : FilePath} {l : Location} (hp : fs.canonical p = .ok l)
    (h : fs.HoldsText l) : fs.readText p = .ok (fs.textAt l) := by
  obtain ⟨content, ho, hvalid⟩ := h
  have htext : String.fromUTF8? content = some (String.ofByteArray content hvalid) := by
    rw [String.fromUTF8?, dif_pos hvalid]
    rfl
  refine readText_eq_ok_iff.mpr ⟨l, hp, ?_⟩
  simp only [ho, textAt, htext]
  rfl

end FileSystem

namespace Loader

variable {fs : FileSystem}

theorem addEach_addFile_fresh {sources : List Source} {loader : Loader} (rest : List FilePath)
    (hread : ∀ s ∈ sources, fs.readText s.path = .ok s.content)
    (hnew : sources.Pairwise fun s t => fs.canonical s.path ≠ fs.canonical t.path)
    (hunseen : ∀ s ∈ sources, ∀ l ∈ loader.seen, fs.canonical s.path ≠ .ok l) :
    ∃ after : Loader, after.files = loader.files ++ sources ∧
      (∀ l ∈ after.seen, l ∈ loader.seen ∨ ∃ s ∈ sources, fs.canonical s.path = .ok l) ∧
      addEach (addFile fs) (sources.map Source.path ++ rest) loader =
        addEach (addFile fs) rest after := by
  induction sources generalizing loader with
  | nil => exact ⟨loader, by simp, fun l hl => .inl hl, rfl⟩
  | cons s sources ih =>
      obtain ⟨hs, hread⟩ := List.forall_mem_cons.mp hread
      obtain ⟨hsunseen, hunseen⟩ := List.forall_mem_cons.mp hunseen
      obtain ⟨hfirst, hnew⟩ := List.pairwise_cons.mp hnew
      obtain ⟨l, hl, -⟩ := FileSystem.readText_eq_ok_iff.mp hs
      have hl' : l ∉ loader.seen := fun hseen => hsunseen l hseen hl
      have hadd := addFile_of_text hl hl' hs
      have hunseen' : ∀ t ∈ sources, ∀ m ∈ l :: loader.seen, fs.canonical t.path ≠ .ok m := by
        intro t ht m hm
        rcases List.mem_cons.mp hm with rfl | hm
        · intro h
          exact hfirst t ht (hl.trans h.symm)
        · exact hunseen t ht m hm
      obtain ⟨after, hfiles, hseen, heach⟩ := @ih ⟨loader.files ++ [s], l :: loader.seen⟩
        hread hnew hunseen'
      refine ⟨after, by simpa using hfiles, ?_, ?_⟩
      · intro m hm
        rcases hseen m hm with hm | ⟨t, ht, htm⟩
        · rcases List.mem_cons.mp hm with rfl | hm
          · exact .inr ⟨s, by simp, hl⟩
          · exact .inl hm
        · exact .inr ⟨t, by simp [ht], htm⟩
      · rw [List.map_cons, List.cons_append, addEach, hadd]
        exact heach

/-- The sources at places below a folder, under the paths by which they are reached from it. -/
def sourceAt (fs : FileSystem) (p : FilePath) (l w : Location) : Source :=
  ⟨p.below w, fs.textAt (l ++ w)⟩

theorem addEach_below {p : FilePath} {l : Location} {ws : List Location} (rest : List FilePath)
    (hleads : ∀ w ∈ ws, fs.canonical (p.below w) = .ok (l ++ w)) (hdistinct : ws.Nodup)
    (htext : ∀ w ∈ ws, fs.HoldsText (l ++ w)) :
    ∃ after : Loader, after.files = ws.map (sourceAt fs p l) ∧
      (∀ m ∈ after.seen, ∃ w ∈ ws, m = l ++ w) ∧
      addEach (addFile fs) (ws.map p.below ++ rest) .empty = addEach (addFile fs) rest after := by
  have hread : ∀ s ∈ ws.map (sourceAt fs p l), fs.readText s.path = .ok s.content := by
    intro s hs
    obtain ⟨w, hw, rfl⟩ := List.mem_map.mp hs
    exact FileSystem.readText_of_holdsText (hleads w hw) (htext w hw)
  have hnew : (ws.map (sourceAt fs p l)).Pairwise fun s t =>
      fs.canonical s.path ≠ fs.canonical t.path := by
    refine List.pairwise_map.mpr (hdistinct.imp_of_mem ?_)
    intro u w hu hw hne hsame
    change fs.canonical (p.below u) = fs.canonical (p.below w) at hsame
    rw [hleads u hu, hleads w hw] at hsame
    exact hne (List.append_cancel_left (Except.ok.inj hsame))
  have hunseen : ∀ s ∈ ws.map (sourceAt fs p l), ∀ m ∈ Loader.empty.seen,
      fs.canonical s.path ≠ .ok m := by
    simp [Loader.empty]
  obtain ⟨after, hfiles, hseen, heach⟩ := addEach_addFile_fresh rest hread hnew hunseen
  refine ⟨after, hfiles, ?_, ?_⟩
  · intro m hm
    rcases hseen m hm with hm | ⟨s, hs, hsm⟩
    · cases hm
    · obtain ⟨w, hw, rfl⟩ := List.mem_map.mp hs
      change fs.canonical (p.below w) = .ok m at hsm
      rw [hleads w hw] at hsm
      exact ⟨w, hw, (Except.ok.inj hsm).symm⟩
  · rw [List.map_map] at heach
    exact heach

theorem addFolder_of_folder {p : FilePath} {l : Location} (hp : fs.canonical p = .ok l)
    (hfolder : fs.object? l = some .folder) (hskip : p.isSkipped = false) (loader : Loader) :
    addFolder fs p loader = addEach (addFile fs) (fs.sourcesIn p) loader := by
  obtain ⟨place, hr, rfl⟩ := FileSystem.canonical_eq_ok_iff.mp hp
  have hfile : fs.isFile p = false := by
    simp only [FileSystem.isFile, FileSystem.objectOf?, hr, hfolder]
  simp only [addFolder, hskip, hfile, FileSystem.list, hr, hfolder]
  rfl

/-- Adding a folder to an empty loader, where there are no links. The sources below the folder, in
the order of their names, are added if they are all texts; otherwise those before the first that
is none are added, and that one is reported. -/
theorem addFolder_exact (fs : FileSystem) (p : FilePath) (l : Location) (hlinks : fs.NoLinks)
    (hp : fs.canonical p = .ok l) (hfolder : fs.object? l = some .folder)
    (hskip : ∀ n ∈ p.steps.getLast?, n ≠ "target" ∧ n ≠ ".git") :
    ∃ places : List Location,
      places.Pairwise (List.Lex FilePath.NameBefore) ∧
      (∀ w, w ∈ places ↔ fs.HasSource l w) ∧
      (∀ w ∈ places, fs.canonical (p.below w) = .ok (l ++ w)) ∧
      ((∀ w ∈ places, fs.HoldsText (l ++ w)) →
        (addFolder fs p .empty).2 = none ∧
          (addFolder fs p .empty).1.files = places.map (sourceAt fs p l)) ∧
      ∀ before w after, places = before ++ w :: after → (∀ u ∈ before, fs.HoldsText (l ++ u)) →
        ¬ fs.HoldsText (l ++ w) →
        (addFolder fs p .empty).2 = some (.io (p.below w).text .invalidText) ∧
          (addFolder fs p .empty).1.files = before.map (sourceAt fs p l) := by
  rw [addFolder_of_folder hp hfolder (FilePath.isSkipped_eq_false_iff.mpr hskip)]
  obtain ⟨place, hr, rfl⟩ := FileSystem.canonical_eq_ok_iff.mp hp
  obtain ⟨places, hplaces⟩ := FileSystem.exists_lists_sources hlinks hr hfolder
  have hdistinct := FilePath.nodup_of_ordered hplaces.ordered
  have hleads : ∀ w ∈ places, fs.canonical (p.below w) = .ok (place.location ++ w) := by
    intro w hw
    have hbelow := FileSystem.resolve_below hlinks hr hfolder ((hplaces.mem_iff w).mp hw)
    exact FileSystem.canonical_eq_ok_iff.mpr ⟨_, hbelow, rfl⟩
  refine ⟨places, hplaces.ordered, hplaces.mem_iff, hleads, ?_, ?_⟩
  · intro htext
    obtain ⟨after, hfiles, -, heach⟩ := addEach_below [] hleads hdistinct htext
    rw [hplaces.paths_eq, ← List.append_nil (places.map p.below), heach]
    exact ⟨rfl, hfiles⟩
  · intro before w after hsplit htext hbad
    subst hsplit
    obtain ⟨hbefore, hw⟩ := List.forall_mem_append.mp hleads
    have hleadsw := hw w List.mem_cons_self
    obtain ⟨content, hfile⟩ := ((hplaces.mem_iff w).mp (by simp)).file
    obtain ⟨hnodup, -, hapart⟩ := List.nodup_append.mp hdistinct
    obtain ⟨reached, hfiles, hseen, heach⟩ := addEach_below
      (p.below w :: after.map p.below) hbefore hnodup htext
    have hunseen : place.location ++ w ∉ reached.seen := by
      intro hmem
      obtain ⟨u, hu, huw⟩ := hseen _ hmem
      exact hapart u hu w List.mem_cons_self (List.append_cancel_left huw).symm
    have hinvalid : ¬ content.IsValidUTF8 := fun hvalid => hbad ⟨content, hfile, hvalid⟩
    have hread := FileSystem.readText_of_invalid hleadsw hfile hinvalid
    rw [hplaces.paths_eq, List.map_append, List.map_cons, heach, addEach,
      addFile_of_unreadable hleadsw hunseen hread]
    exact ⟨rfl, hfiles⟩

/-- A folder comes before a file whose name goes on with a dot, and a skipped folder is not entered.
The second of the two sources is no text. -/
theorem addFolder_exact_mixed :
    let fs : FileSystem :=
      ⟨[(["a.rs"], .file ⟨#[0xff]⟩), (["a"], .folder), (["a", "x.rs"], .file "fn x();".toUTF8),
        (["target"], .folder), (["target", "z.rs"], .file "fn z();".toUTF8)], []⟩
    fs.NoLinks ∧ fs.canonical ⟨"."⟩ = .ok [] ∧ fs.object? [] = some .folder ∧
      (∀ n ∈ (⟨"."⟩ : FilePath).steps.getLast?, n ≠ "target" ∧ n ≠ ".git") ∧
      (addFolder fs ⟨"."⟩ .empty).2 = some (.io "./a.rs" .invalidText) ∧
      (addFolder fs ⟨"."⟩ .empty).1.files = [⟨⟨"./a/x.rs"⟩, "fn x();"⟩] := by
  intro fs
  have hlinks : fs.NoLinks := by
    intro l target h
    rcases FileSystem.object?_cases h with ⟨-, h⟩ | h
    · cases h
    · simp [fs] at h
  have hp : fs.canonical ⟨"."⟩ = .ok [] := by
    have hparts : FilePath.parts ⟨"."⟩ = ["."] := by decide
    have hr : fs.resolve ⟨"."⟩ = .ok ⟨0, []⟩ := by
      rw [FileSystem.resolve, if_neg (by decide), hparts,
        FileSystem.walk_stay rfl (.inr rfl), FileSystem.walk_nil]
      rfl
    rw [FileSystem.canonical, hr]
    rfl
  have hskip : ∀ n ∈ (⟨"."⟩ : FilePath).steps.getLast?, n ≠ "target" ∧ n ≠ ".git" := by decide
  have hinside : ∀ v, fs.HasSource ["a"] v ↔ v = ["x.rs"] := by
    intro v
    constructor
    · intro h
      obtain ⟨n, u, hn, rfl⟩ := h.exists_cons
      have hnames : fs.namesAt ["a"] = ["x.rs"] := by decide +kernel
      rw [hnames, List.mem_singleton] at hn
      subst hn
      rw [((FileSystem.HasSource.cons_of_file (by decide) rfl).mp h).2]
    · rintro rfl
      exact (FileSystem.HasSource.cons_of_file (by decide) rfl).mpr ⟨by decide, rfl⟩
  have hsources : ∀ w, fs.HasSource [] w ↔ w ∈ [["a", "x.rs"], ["a.rs"]] := by
    intro w
    constructor
    · intro h
      obtain ⟨n, u, hn, rfl⟩ := h.exists_cons
      have hnames : n = "a.rs" ∨ n = "a" ∨ n = "target" := by
        obtain ⟨-, o, ho⟩ := FileSystem.mem_namesAt.mp hn
        rcases FileSystem.object?_cases ho with ⟨hnil, -⟩ | hmem
        · cases hnil
        · have hplace : [] ++ [n] ∈ fs.objects.map Prod.fst := List.mem_map_of_mem hmem
          simpa [fs] using hplace
      rcases hnames with rfl | rfl | rfl
      · rw [((FileSystem.HasSource.cons_of_file (by decide) rfl).mp h).2]
        decide
      · obtain ⟨-, -, hu⟩ := (FileSystem.HasSource.cons_of_folder (by decide) rfl).mp h
        rw [(hinside u).mp hu]
        decide
      · obtain ⟨htarget, -⟩ := (FileSystem.HasSource.cons_of_folder (by decide) rfl).mp h
        exact absurd rfl htarget
    · intro hw
      rcases List.mem_cons.mp hw with rfl | hw
      · refine (FileSystem.HasSource.cons_of_folder (by decide) rfl).mpr ⟨by decide, by decide, ?_⟩
        exact (hinside _).mpr rfl
      · cases List.mem_singleton.mp hw
        exact (FileSystem.HasSource.cons_of_file (by decide) rfl).mpr ⟨by decide, rfl⟩
  obtain ⟨places, hordered, hplaces, -, -, hfails⟩ :=
    addFolder_exact fs ⟨"."⟩ [] hlinks hp rfl hskip
  have heq : places = [["a", "x.rs"]] ++ ["a.rs"] :: [] := by
    apply FilePath.eq_of_ordered hordered
    · apply List.pairwise_pair.mpr
      exact .rel (FilePath.nameBefore_of_lt (by decide))
    · intro w
      rw [hplaces w]
      exact hsources w
  have htext : ∀ u ∈ [["a", "x.rs"]], fs.HoldsText ([] ++ u) := by
    intro u hu
    cases List.mem_singleton.mp hu
    exact ⟨_, rfl, "fn x();".isValidUTF8⟩
  have hbad : ¬ fs.HoldsText ([] ++ ["a.rs"]) := by
    rintro ⟨content, ho, hvalid⟩
    cases ho
    revert hvalid
    decide +kernel
  obtain ⟨hfailure, hfiles⟩ := hfails _ _ _ heq htext hbad
  refine ⟨hlinks, hp, rfl, hskip, hfailure, ?_⟩
  rw [hfiles, List.map_singleton, sourceAt, FileSystem.textAt_of_file rfl]
  rfl

end Loader

end LeafPaths
