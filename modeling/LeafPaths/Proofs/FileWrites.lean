import LeafPaths.FileSystem.Change

/-!
Writing a file. A file is only ever put where there was a file or nothing, so
every walk that succeeded still meets the same folders and links. Hence one
location changes, and the path that was written leads there afterwards.
-/

namespace LeafPaths.FileSystem

variable {fs : FileSystem} {l : Location}

theorem lookup_filter_ne {m : Location} (h : m ≠ l) (objects : List (Location × Object)) :
    (objects.filter (·.1 ≠ l)).lookup m = objects.lookup m := by
  induction objects with
  | nil => rfl
  | cons x rest ih =>
      by_cases hx : x.1 = l
      · have hm : (m == x.1) = false := by simp [hx, h]
        rw [List.filter_cons_of_neg (by simp [hx]), ih, List.lookup_cons, hm]
      · rw [List.filter_cons_of_pos (by simp [hx]), List.lookup_cons, List.lookup_cons, ih]

theorem object?_put (hl : l ≠ []) (o : Object) (m : Location) :
    (fs.put l o).object? m = if m = l then some o else fs.object? m := by
  by_cases hm : m = l
  · subst hm
    simp [object?, put, hl]
  · have hne : (m == l) = false := by simp [hm]
    simp only [object?, put, List.lookup_cons, hne, lookup_filter_ne hm, hm, if_false]

/-- A file can be put where there is a file or nothing. -/
structure Accepts (fs : FileSystem) (l : Location) : Prop where
  ne_root : l ≠ []
  not_folder : fs.object? l ≠ some .folder
  not_link : ∀ target, fs.object? l ≠ some (.link target)

namespace Accepts

theorem object?_put_self (hl : fs.Accepts l) (o : Object) : (fs.put l o).object? l = some o := by
  rw [object?_put hl.ne_root, if_pos rfl]

theorem object?_put_ne (hl : fs.Accepts l) (o : Object) {m : Location} (hm : m ≠ l) :
    (fs.put l o).object? m = fs.object? m := by
  rw [object?_put hl.ne_root, if_neg hm]

theorem folder_put (hl : fs.Accepts l) (o : Object) {m : Location}
    (hm : fs.object? m = some .folder) : (fs.put l o).object? m = some .folder := by
  rw [hl.object?_put_ne o, hm]
  rintro rfl
  exact hl.not_folder hm

theorem link_put (hl : fs.Accepts l) (o : Object) {m : Location} {target : FilePath}
    (hm : fs.object? m = some (.link target)) :
    (fs.put l o).object? m = some (.link target) := by
  rw [hl.object?_put_ne o, hm]
  rintro rfl
  exact hl.not_link target hm

theorem walk_put (hl : fs.Accepts l) (content : ByteArray) {k : Nat} {here : Location}
    {parts : List String} {place : Place} (h : fs.walk k here parts = .ok place) :
    (fs.put l (.file content)).walk k here parts = .ok place := by
  fun_induction fs.walk k here parts with
  | case1 k here =>
      rw [walk]
      exact h
  | case2 k here part rest hf hd ih =>
      rw [walk, hl.folder_put _ hf]
      simp only [hd, if_true]
      exact ih h
  | case3 k here rest hf hd ih =>
      rw [walk, hl.folder_put _ hf]
      simp only [hd, if_true, if_false]
      exact ih h
  | case4 | case6 | case8 => cases h
  | case5 k here part rest hf hd hu target ho hk ih =>
      rw [walk, hl.folder_put _ hf]
      simp only [hd, hu, hl.link_put _ ho, hk, if_true, if_false]
      exact ih h
  | case7 k here part rest hf hd hu o hlink ho ih =>
      rw [walk, hl.folder_put _ hf]
      simp only [hd, hu, if_false]
      by_cases hm : here ++ [part] = l
      · rw [hm, hl.object?_put_self]
        rw [hm] at ih h
        exact ih h
      · rw [hl.object?_put_ne _ hm, ho]
        cases o with
        | file | folder => exact ih h
        | link target => exact absurd rfl (hlink target)

end Accepts

theorem eq_append_of_dropWhile {parts before : List String} {last : String}
    (h : parts.reverse.dropWhile (· = "") = last :: before) (hlast : parts.getLast? ≠ some "") :
    parts = before.reverse ++ [last] ∧ last ≠ "" := by
  rw [← List.head?_reverse] at hlast
  cases hparts : parts.reverse with
  | nil => simp [hparts] at h
  | cons x xs =>
      have hx : x ≠ "" := by simpa [hparts] using hlast
      rw [hparts, List.dropWhile_cons_of_neg (by simpa using hx)] at h
      cases h
      refine ⟨?_, hx⟩
      rw [← List.reverse_cons, ← hparts, List.reverse_reverse]

/-- Where a file is written it can be put, and the path then leads to it. -/
theorem destination_leads {k : Nat} {here : Location} {p : FilePath}
    (h : fs.destination k here p = .ok l) (content : ByteArray) :
    fs.Accepts l ∧ ∃ n, (fs.put l (.file content)).walk k here p.parts = .ok ⟨n, l⟩ := by
  fun_induction fs.destination k here p with
  | case1 | case2 | case3 | case4 | case6 | case8 => cases h
  | case5 k here p last before hsplit place hw hf hlast target ho hk ih =>
      -- the last part is a link: what is written is where its target leads
      simp only [not_or] at hlast
      obtain ⟨hparts, hname⟩ := eq_append_of_dropWhile hsplit hlast.2.2
      obtain ⟨hl, n, hn⟩ := ih h
      refine ⟨hl, n, ?_⟩
      rw [hparts, walk_append, hl.walk_put content hw, Except.bind, walk, hl.folder_put _ hf]
      simp only [hname, hlast, hl.link_put _ ho, hk, or_false, if_true, if_false, List.append_nil]
      exact hn
  | case7 k here p last before hsplit place hw hf hlast hfolder hlink =>
      cases h
      simp only [not_or] at hlast
      obtain ⟨hparts, hname⟩ := eq_append_of_dropWhile hsplit hlast.2.2
      have hl : fs.Accepts (place.location ++ [last]) := ⟨by simp, hfolder, hlink⟩
      refine ⟨hl, place.links, ?_⟩
      rw [hparts, walk_append, hl.walk_put content hw, Except.bind, walk, hl.folder_put _ hf]
      simp only [hname, hlast, hl.object?_put_self, or_false, if_false, walk]

theorem destination_of_parts {k : Nat} {here : Location} {p : FilePath} {before : List String}
    {last : String} {place : Place} (hparts : p.parts = before ++ [last])
    (hlast : FilePath.isName last = true) (hw : fs.walk k here before = .ok place)
    (hf : fs.object? place.location = some .folder) :
    fs.destination k here p =
      match fs.object? (place.location ++ [last]) with
      | some .folder => .error .isDirectory
      | some (.link target) =>
        if place.links < linkLimit then
          fs.destination (place.links + 1) (target.base place.location) target
        else .error .tooManyLinks
      | _ => .ok (place.location ++ [last]) := by
  simp only [FilePath.isName, Bool.and_eq_true, bne_iff_ne] at hlast
  obtain ⟨⟨⟨hempty, hdot⟩, hdots⟩, -⟩ := hlast
  have hsplit : p.parts.reverse.dropWhile (· = "") = last :: before.reverse := by
    simp [hparts, hempty]
  rw [destination]
  split
  · next h =>
      rw [hsplit] at h
      cases h
  · next last' before' h =>
      rw [hsplit] at h
      cases h
      split
      · next e he =>
          rw [List.reverse_reverse, hw] at he
          cases he
      · next place' hplace =>
          rw [List.reverse_reverse, hw] at hplace
          cases hplace
          have hname : ¬ (last = "." ∨ last = ".." ∨ p.parts.getLast? = some "") := by
            simp [hdot, hdots, hparts, hempty]
          rw [hf]
          exact if_neg hname

theorem canonical_eq_ok_iff_walk {p : FilePath} (hp : p.text ≠ "") :
    fs.canonical p = .ok l ↔
      ∃ n, fs.walk 0 (p.base fs.workingFolder) p.parts = .ok ⟨n, l⟩ := by
  rw [canonical, resolve, if_neg hp]
  cases fs.walk 0 (p.base fs.workingFolder) p.parts with
  | error e => simp [Except.map]
  | ok place =>
      obtain ⟨n, m⟩ := place
      simp [Except.map]

/-- A file system in which a file was written: the path leads to the file, which
stands where there was a file or nothing, and nothing else changed. -/
structure Written (fs : FileSystem) (p : FilePath) (content : ByteArray) (after : FileSystem)
    (l : Location) : Prop where
  leads : after.canonical p = .ok l
  led : ∀ m, fs.canonical p = .ok m → m = l
  replaces : fs.Accepts l
  content : after.object? l = some (.file content)
  others : ∀ m, m ≠ l → after.object? m = fs.object? m
  workingFolder : after.workingFolder = fs.workingFolder

theorem put_put (fs : FileSystem) (l : Location) (a b : Object) :
    (fs.put l a).put l b = fs.put l b := by
  simp [put, List.filter_filter]

theorem create_cases (fs : FileSystem) (p : FilePath) :
    (∃ e, fs.create p = .error e) ∨
      p.text ≠ "" ∧ ∃ l, fs.destination 0 (p.base fs.workingFolder) p = .ok l ∧
        fs.create p = .ok (l, fs.put l (.file .empty)) := by
  by_cases hp : p.text = ""
  · exact .inl ⟨.notFound, by rw [create, if_pos hp]⟩
  · cases hd : fs.destination 0 (p.base fs.workingFolder) p with
    | error e => exact .inl ⟨e, by rw [create, if_neg hp, hd, Except.map]⟩
    | ok l => exact .inr ⟨hp, l, rfl, by rw [create, if_neg hp, hd, Except.map]⟩

/-- A file that can be created can be given any content, and nothing but that file changes. -/
theorem create_error_or_written (fs : FileSystem) (p : FilePath) :
    (∃ e, fs.create p = .error e) ∨
      ∃ l created, fs.create p = .ok (l, created) ∧
        ∀ content, fs.Written p content (created.put l (.file content)) l := by
  refine (create_cases fs p).imp_right ?_
  rintro ⟨hp, l, hd, hcreate⟩
  refine ⟨l, _, hcreate, ?_⟩
  intro content
  obtain ⟨hl, n, hn⟩ := destination_leads hd content
  rw [put_put]
  refine
    { leads := (canonical_eq_ok_iff_walk hp).mpr ⟨n, hn⟩
      led := ?_
      replaces := hl
      content := hl.object?_put_self _
      others := fun m hm => hl.object?_put_ne _ hm
      workingFolder := rfl }
  intro m hm
  obtain ⟨k, hk⟩ := (canonical_eq_ok_iff_walk hp).mp hm
  have hsame := hl.walk_put content hk
  rw [hn] at hsame
  cases hsame
  rfl

end LeafPaths.FileSystem
