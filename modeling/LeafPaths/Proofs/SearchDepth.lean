import LeafPaths.Proofs.FolderSources

/-!
The search of a folder comes to an end, whatever the links in it lead to. Here it
is written as it goes: the entries of a folder are dealt with in turn, and for an
entry that is a folder the search begins anew inside it, with nothing remembered
of the folders passed on the way. Links may lead round in circles. But every
search inside another has followed one link more, or stands one name deeper, and
a path that follows more links than allowed leads nowhere: it is no folder, and
it has no location. So only so many searches stand inside each other.
-/

namespace LeafPaths

namespace FileSystem

theorem links_le_limit_of_walk {fs : FileSystem} {k : Nat} {here : Location}
    {parts : List String} {place : Place} (hk : k ≤ linkLimit)
    (h : fs.walk k here parts = .ok place) : place.links ≤ linkLimit := by
  fun_induction fs.walk k here parts with
  | case1 =>
      cases h
      exact hk
  | case2 _ _ _ _ _ _ ih | case3 _ _ _ _ _ ih | case7 _ _ _ _ _ _ _ _ _ _ ih => exact ih hk h
  | case4 | case6 | case8 => cases h
  | case5 _ _ _ _ _ _ _ _ _ hlt ih => exact ih hlt h

theorem links_le_of_resolve {fs : FileSystem} {p : FilePath} {place : Place}
    (h : fs.resolve p = .ok place) : place.links ≤ linkLimit := by
  unfold resolve at h
  split at h
  · cases h
  · exact links_le_limit_of_walk (Nat.zero_le _) h

/-- The budget of a path as a number: a link is worth all names that a location
can have. -/
def rank (fs : FileSystem) (p : FilePath) : Nat :=
  (fs.budget p).1 * (fs.height + 1) + (fs.budget p).2

theorem budget_le (fs : FileSystem) (p : FilePath) :
    (fs.budget p).1 ≤ linkLimit ∧ (fs.budget p).2 ≤ fs.height := by
  unfold budget
  split
  · exact ⟨Nat.sub_le _ _, Nat.sub_le _ _⟩
  · exact ⟨Nat.zero_le _, Nat.zero_le _⟩

theorem rank_lt (fs : FileSystem) (p : FilePath) :
    fs.rank p < (linkLimit + 1) * (fs.height + 1) := by
  have hle := fs.budget_le p
  have hlinks : (fs.budget p).1 * (fs.height + 1) ≤ linkLimit * (fs.height + 1) :=
    Nat.mul_le_mul_right _ hle.1
  rw [rank, Nat.succ_mul]
  omega

theorem rank_join_lt {fs : FileSystem} {p : FilePath} {name : String}
    (hn : name ∈ fs.names p) (hf : fs.isFolder (p.join name) = true) :
    fs.rank (p.join name) < fs.rank p := by
  have hle := fs.budget_le (p.join name)
  have hlt := budget_join_lt hn hf
  unfold rank
  generalize fs.budget (p.join name) = inside at hle hlt ⊢
  generalize fs.budget p = outside at hlt ⊢
  cases hlt with
  | left _ _ hfewer =>
      have hlinks := Nat.mul_le_mul_right (fs.height + 1) (Nat.succ_le_of_lt hfewer)
      rw [Nat.succ_mul] at hlinks
      dsimp only at hle ⊢
      omega
  | right _ hlower => exact Nat.add_lt_add_left hlower _

end FileSystem

namespace Loader

variable {fs : FileSystem}

/-- Deals with one thing after another, up to the first that fails or has no
answer. -/
def visitEach {α : Type} (visit : α → Loader → Option Result) :
    List α → Loader → Option Result
  | [], loader => some (loader, none)
  | a :: rest, loader =>
    match visit a loader with
    | some (loader, none) => visitEach visit rest loader
    | stopped => stopped

def addIfSource (fs : FileSystem) (p : FilePath) (loader : Loader) : Result :=
  if p.isSource then addFile fs p loader else (loader, none)

/-- The search of a folder with at most `depth` searches inside each other, this
one included; there is no answer if it would take more. -/
def searchWithin (fs : FileSystem) : Nat → FilePath → Loader → Option Result
  | 0, _, _ => none
  | depth + 1, p, loader =>
    if p.isSkipped then some (loader, none)
    else if fs.isFile p then some (addIfSource fs p loader)
    else
      match fs.list p with
      | .error e => some (loader, some (.io p.text e))
      | .ok names =>
        visitEach (fun name loader =>
          if fs.isFolder (p.join name) then searchWithin fs depth (p.join name) loader
          else some (addIfSource fs (p.join name) loader)) names loader

theorem visitEach_eq_addEach {α β : Type} {visit : α → Loader → Option Result}
    {add : β → Loader → Result} {found : α → List β} {as : List α}
    (h : ∀ a ∈ as, ∀ loader, visit a loader = some (addEach add (found a) loader))
    (loader : Loader) : visitEach visit as loader = some (addEach add (as.flatMap found) loader) := by
  induction as generalizing loader with
  | nil => rfl
  | cons a as ih =>
      have hrest := ih fun b hb => h b (List.mem_cons_of_mem a hb)
      rw [visitEach, h a List.mem_cons_self, List.flatMap_cons, addEach_append]
      cases addEach add (found a) loader with
      | mk after failed =>
          cases failed with
          | none => exact hrest after
          | some e => rfl

theorem addEach_singleton {α : Type} (add : α → Loader → Result) (a : α) (loader : Loader) :
    addEach add [a] loader = add a loader := by
  rw [addEach]
  cases add a loader with
  | mk after failed => cases failed <;> rfl

theorem addFolder_of_isFolder {p : FilePath} (h : fs.isFolder p = true) (loader : Loader) :
    addFolder fs p loader =
      addEach (addFile fs) (if p.isSkipped then [] else fs.sourcesIn p) loader := by
  cases hskip : p.isSkipped with
  | true =>
      simp only [addFolder, hskip, if_true]
      rfl
  | false =>
      cases hp : fs.resolve p with
      | error e => simp [FileSystem.isFolder, FileSystem.objectOf?, hp] at h
      | ok place =>
          have hfolder := (FileSystem.isFolder_of_resolve hp).mp h
          have hcanonical := FileSystem.canonical_eq_ok_iff.mpr ⟨place, hp, rfl⟩
          rw [addFolder_of_folder hcanonical hfolder hskip]
          rfl

/-- Enough depth for the rank of a path is enough for its search. The induction is
on the depth: an entry that is a folder has a lower rank. -/
theorem searchWithin_eq_addFolder {depth : Nat} {p : FilePath} (h : fs.rank p < depth)
    (loader : Loader) : searchWithin fs depth p loader = some (addFolder fs p loader) := by
  induction depth generalizing p loader with
  | zero => exact absurd h (Nat.not_lt_zero _)
  | succ depth ih =>
      rw [searchWithin, addFolder]
      by_cases hskip : p.isSkipped = true
      · rw [if_pos hskip, if_pos hskip]
      · rw [if_neg hskip, if_neg hskip]
        by_cases hfile : fs.isFile p = true
        · rw [if_pos hfile, if_pos hfile]
          rfl
        · rw [if_neg hfile, if_neg hfile]
          cases hlist : fs.list p with
          | error e => rfl
          | ok names =>
              have hnames : fs.names p = names := by rw [FileSystem.names, hlist]
              rw [FileSystem.sourcesIn_eq_flatMap, hnames]
              apply visitEach_eq_addEach
              intro name hname loader
              unfold FileSystem.sourcesAt
              by_cases hfolder : fs.isFolder (p.join name) = true
              · have hlt := FileSystem.rank_join_lt (hnames ▸ hname) hfolder
                rw [if_pos hfolder, if_pos hfolder, ih (by omega), addFolder_of_isFolder hfolder]
              · rw [if_neg hfolder, if_neg hfolder, addIfSource]
                by_cases hsource : (p.join name).isSource = true
                · rw [if_pos hsource, if_pos hsource, addEach_singleton]
                · rw [if_neg hsource, if_neg hsource]
                  rfl

/-! ### Failures -/

theorem error_of_addEach {α : Type} {add : α → Loader → Result} {p : ExtractError → Prop}
    (h : ∀ a loader e, (add a loader).2 = some e → p e) {as : List α} {loader : Loader}
    {e : ExtractError} (he : (addEach add as loader).2 = some e) : p e := by
  induction as generalizing loader with
  | nil => cases he
  | cons a as ih =>
      rw [addEach] at he
      split at he
      · exact ih he
      · next hadd =>
          cases he
          exact h a loader e (by rw [hadd])

theorem io_of_addFile (p : FilePath) (loader : Loader) (e : ExtractError)
    (h : (addFile fs p loader).2 = some e) : ∃ path cause, e = .io path cause := by
  rcases addFile_cases fs p loader with ⟨cause, -, hadd⟩ | ⟨l, -, hcases⟩
  · rw [hadd] at h
    cases h
    exact ⟨p.text, cause, rfl⟩
  · rcases hcases with ⟨-, hadd⟩ | ⟨-, cause, -, hadd⟩ | ⟨-, text, -, hadd⟩ <;> rw [hadd] at h <;>
      cases h
    exact ⟨p.text, cause, rfl⟩

theorem io_of_addFolder {p : FilePath} {loader : Loader} {e : ExtractError}
    (h : (addFolder fs p loader).2 = some e) : ∃ path cause, e = .io path cause := by
  unfold addFolder at h
  split at h
  · cases h
  · split at h
    · split at h
      · exact io_of_addFile p loader e h
      · cases h
    · split at h
      · cases h
        exact ⟨_, _, rfl⟩
      · exact error_of_addEach io_of_addFile h

/-- The search of a folder ends in every file system, also where links lead round in
circles. With as many searches inside each other as there are pairs of a number of
links and a length of a location it has its answer, and room for more changes
nothing. The answer is a success or an error of the file system. Of paths this uses
only that none leads anywhere over more than `linkLimit` links, and that a path which
leads nowhere is no folder and has no location. -/
theorem searchWithin_ends (fs : FileSystem) (p : FilePath) (loader : Loader) :
    (∀ extra, searchWithin fs ((FileSystem.linkLimit + 1) * (fs.height + 1) + extra) p loader =
        some (addFolder fs p loader)) ∧
      ((addFolder fs p loader).2 = none ∨
        ∃ path cause, (addFolder fs p loader).2 = some (.io path cause)) ∧
      (∀ q place, fs.resolve q = .ok place → place.links ≤ FileSystem.linkLimit) ∧
      ∀ q e, fs.resolve q = .error e → fs.isFolder q = false ∧ fs.canonical q = .error e := by
  refine ⟨?_, ?_, ?_, ?_⟩
  · intro extra
    have hlt := fs.rank_lt p
    exact searchWithin_eq_addFolder (by omega) loader
  · cases hresult : (addFolder fs p loader).2 with
    | none => exact .inl rfl
    | some e =>
        obtain ⟨path, cause, rfl⟩ := io_of_addFolder hresult
        exact .inr ⟨path, cause, rfl⟩
  · intro q place hq
    exact FileSystem.links_le_of_resolve hq
  · intro q e hq
    simp [FileSystem.isFolder, FileSystem.objectOf?, FileSystem.canonical, hq, Except.map]

end Loader

end LeafPaths
