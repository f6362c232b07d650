import LeafPaths.FileSystem

/-!
The search of a folder for sources.

Links may lead back to folders above them, so the search is not bounded by what exists alone. It
ends because each step down either follows a link, of which one walk allows only so many, or goes
one name deeper into the table of objects.
-/

namespace LeafPaths

namespace FileSystem

def height (fs : FileSystem) : Nat := (fs.objects.map fun o => o.1.length).foldr max 0

theorem length_le_height {fs : FileSystem} {l : Location} {o : Object}
    (h : fs.object? l = some o) : l.length ≤ fs.height := by
  unfold object? at h
  split at h
  · next hl => simp [hl]
  · unfold height
    generalize fs.objects = os at h ⊢
    induction os with
    | nil => simp at h
    | cons x xs ih =>
      obtain ⟨m, p⟩ := x
      simp only [List.lookup_cons] at h
      simp only [List.map_cons, List.foldr_cons]
      split at h
      · next hb =>
          have : l = m := by simpa using hb
          subst this
          exact Nat.le_max_left _ _
      · exact Nat.le_trans (ih h) (Nat.le_max_right _ _)

/-- What a search may still spend below a path: links, then names. -/
def budget (fs : FileSystem) (p : FilePath) : Nat × Nat :=
  match fs.resolve p with
  | .ok place => (linkLimit - place.links, fs.height - place.location.length)
  | .error _ => (0, 0)

theorem budget_join_lt {fs : FileSystem} {p : FilePath} {name : String}
    (hn : name ∈ fs.names p) (hf : fs.isFolder (p.join name) = true) :
    Prod.Lex (· < ·) (· < ·) (fs.budget (p.join name)) (fs.budget p) := by
  unfold names list at hn
  split at hn
  · next ns hns =>
      split at hns
      · cases hns
      · next place hp =>
          split at hns
          · next hfolder =>
              cases hns
              have hname := isName_of_mem_namesAt hn
              have hr := resolve_join hp hfolder hname
              have hparts : name ≠ "" ∧ name ≠ "." ∧ name ≠ ".." := by
                simp only [FilePath.isName, Bool.and_eq_true, bne_iff_ne] at hname
                exact ⟨hname.1.1.1, hname.1.1.2, hname.1.2⟩
              rw [walk, hfolder] at hr
              simp only [hparts.1, hparts.2.1, hparts.2.2, or_false, if_false] at hr
              unfold isFolder objectOf? at hf
              unfold budget
              rw [hp]
              split at hr
              · simp [hr] at hf
              · next target _ =>
                  split at hr
                  · next hk =>
                      rw [hr]
                      cases hw : fs.walk (place.links + 1) (target.base place.location)
                          (target.parts ++ []) with
                      | error e => rw [hr, hw] at hf; cases hf
                      | ok q =>
                        have := links_le_of_walk hw
                        exact .left _ _ (by omega)
                  · simp [hr] at hf
              · next o _ ho =>
                  simp only [walk] at hr
                  rw [hr]
                  have := length_le_height ho
                  simp only [List.length_append, List.length_cons, List.length_nil] at this
                  refine .right _ ?_
                  simp only [List.length_append, List.length_cons, List.length_nil]
                  omega
          · cases hns
  · simp at hn

/-- The sources in a folder and in the folders below it, entry by entry in the order of names.
Folders to be skipped are not entered. -/
def sourcesIn (fs : FileSystem) (p : FilePath) : List FilePath :=
  (fs.names p).attach.flatMap fun ⟨name, _⟩ =>
    let entry := p.join name
    if _ : fs.isFolder entry then
      if entry.isSkipped then [] else fs.sourcesIn entry
    else if entry.isSource then [entry]
    else []
termination_by fs.budget p
decreasing_by
  rename_i hn hf _
  exact budget_join_lt hn hf

def sourcesAt (fs : FileSystem) (p : FilePath) (name : String) : List FilePath :=
  if fs.isFolder (p.join name) then
    if (p.join name).isSkipped then [] else fs.sourcesIn (p.join name)
  else if (p.join name).isSource then [p.join name]
  else []

theorem sourcesIn_eq_flatMap (fs : FileSystem) (p : FilePath) :
    fs.sourcesIn p = (fs.names p).flatMap (fs.sourcesAt p) := by
  rw [sourcesIn, List.flatMap_subtype (g := fs.sourcesAt p), List.unattach_attach]
  intro name _
  simp only [sourcesAt, dite_eq_ite]

end FileSystem

end LeafPaths
