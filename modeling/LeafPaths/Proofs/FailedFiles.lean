import LeafPaths.Proofs.LoaderRuns

/-!
Files that cannot be read. A path that leads nowhere is refused without a trace, but a
file that is found and cannot be read stays marked as reached. Two loaders that differ
in such a mark alone answer alike until a path leads to the marked place: there the
loader without the mark reports the file, and the one with the mark passes it over.
-/

namespace LeafPaths

namespace FileSystem

theorem readText_ne_of_list {fs : FileSystem} {q : FilePath} {l : Location} {e : IoError}
    (hl : fs.canonical q = .ok l) (hlist : fs.list q = .error e) : fs.readText q ≠ .error e := by
  obtain ⟨place, hq, rfl⟩ := canonical_eq_ok_iff.mp hl
  intro hread
  simp only [list, hq] at hlist
  simp only [readText, read, hq] at hread
  cases ho : fs.object? place.location with
  | none =>
      simp only [ho] at hlist hread
      cases hlist
      cases hread
  | some o =>
      cases o with
      | folder =>
          simp only [ho] at hlist
          cases hlist
      | link target =>
          simp only [ho] at hlist hread
          cases hlist
          cases hread
      | file content =>
          simp only [ho] at hlist hread
          cases hlist
          split at hread <;> cases hread

end FileSystem

namespace Loader

variable {fs : FileSystem} {l : Location} {loader marked : Loader}

/-- A loader and the same one with a further place marked as reached. -/
structure Marks (l : Location) (loader marked : Loader) : Prop where
  files : marked.files = loader.files
  seen : ∀ m, m ∈ marked.seen ↔ m = l ∨ m ∈ loader.seen
  unseen : l ∉ loader.seen

/-- Nothing that can be read is at a location. -/
def Unreadable (fs : FileSystem) (l : Location) : Prop :=
  ∀ q, fs.canonical q = .ok l → ∃ e, fs.readText q = .error e

theorem Marks.addFile (h : Marks l loader marked) {q : FilePath} (hq : fs.canonical q ≠ .ok l) :
    (Loader.addFile fs q marked).2 = (Loader.addFile fs q loader).2 ∧
      Marks l (Loader.addFile fs q loader).1 (Loader.addFile fs q marked).1 := by
  unfold Loader.addFile
  cases hcanonical : fs.canonical q with
  | error e => exact ⟨rfl, h⟩
  | ok m =>
      have hne : m ≠ l := by
        rintro rfl
        exact hq hcanonical
      have hseen : m ∈ marked.seen ↔ m ∈ loader.seen := by
        rw [h.seen, or_iff_right hne]
      by_cases hm : m ∈ loader.seen
      · simp only [hm, hseen.mpr hm, if_true]
        exact ⟨trivial, h⟩
      · have hm' : m ∉ marked.seen := fun hmem => hm (hseen.mp hmem)
        have hmore : ∀ k, k ∈ m :: marked.seen ↔ k = l ∨ k ∈ m :: loader.seen := by
          intro k
          rw [List.mem_cons, List.mem_cons, h.seen]
          exact or_left_comm
        have hunseen : l ∉ m :: loader.seen := by
          simp only [List.mem_cons, not_or]
          exact ⟨hne.symm, h.unseen⟩
        simp only [hm, hm', if_false]
        cases fs.readText q with
        | error e => exact ⟨rfl, h.files, hmore, hunseen⟩
        | ok text => exact ⟨rfl, by simp [h.files], hmore, hunseen⟩

/-- As long as no path leads to the marked place, the mark does not show. -/
theorem Marks.addEach (h : Marks l loader marked) {paths : List FilePath}
    (hpaths : ∀ q ∈ reached fs paths loader, fs.canonical q ≠ .ok l) :
    (Loader.addEach (Loader.addFile fs) paths marked).2 =
        (Loader.addEach (Loader.addFile fs) paths loader).2 ∧
      Marks l (Loader.addEach (Loader.addFile fs) paths loader).1
        (Loader.addEach (Loader.addFile fs) paths marked).1 := by
  induction paths generalizing loader marked with
  | nil => exact ⟨rfl, h⟩
  | cons q rest ih =>
      rw [reached] at hpaths
      cases hadd : Loader.addFile fs q loader with
      | mk after failed =>
          have hq : fs.canonical q ≠ .ok l := by
            rw [hadd] at hpaths
            cases failed <;> exact hpaths q (by simp)
          obtain ⟨hsame, hmarks⟩ := h.addFile hq
          cases hadd' : Loader.addFile fs q marked with
          | mk after' failed' =>
              rw [hadd, hadd'] at hsame hmarks
              cases hsame
              rw [Loader.addEach, Loader.addEach, hadd, hadd']
              cases failed with
              | some e => exact ⟨rfl, hmarks⟩
              | none =>
                  rw [hadd] at hpaths
                  exact ih hmarks fun p hp => hpaths p (List.mem_cons_of_mem q hp)

theorem unseen_of_addFile (h : l ∉ loader.seen) {q : FilePath} (hq : fs.canonical q ≠ .ok l) :
    l ∉ (addFile fs q loader).1.seen := by
  rcases addFile_cases fs q loader with ⟨e, -, hadd⟩ | ⟨m, hm, hcases⟩
  · rwa [hadd]
  · have hmore : l ∉ m :: loader.seen := by
      simp only [List.mem_cons, not_or]
      refine ⟨?_, h⟩
      rintro rfl
      exact hq hm
    rcases hcases with ⟨-, hadd⟩ | ⟨-, e, -, hadd⟩ | ⟨-, text, -, hadd⟩ <;> rw [hadd]
    · exact h
    · exact hmore
    · exact hmore

/-- Without the mark, the first path that leads to the place is reported. -/
theorem addEach_of_reached (h : l ∉ loader.seen) (hbad : Unreadable fs l) {paths : List FilePath}
    (hreached : ∃ q ∈ reached fs paths loader, fs.canonical q = .ok l) :
    ∃ q e, fs.canonical q = .ok l ∧ fs.readText q = .error e ∧
      (addEach (addFile fs) paths loader).2 = some (.io q.text e) := by
  induction paths generalizing loader with
  | nil =>
      obtain ⟨q, hq, -⟩ := hreached
      cases hq
  | cons p rest ih =>
      by_cases hp : fs.canonical p = .ok l
      · obtain ⟨e, he⟩ := hbad p hp
        exact ⟨p, e, hp, he, by rw [addEach, addFile_of_unreadable hp h he]⟩
      · have hunseen := unseen_of_addFile h hp
        obtain ⟨q, hq, hql⟩ := hreached
        rw [reached] at hq
        rw [addEach]
        cases hadd : addFile fs p loader with
        | mk after failed =>
            rw [hadd] at hunseen hq
            cases failed with
            | some e =>
                cases List.mem_singleton.mp hq
                exact absurd hql hp
            | none =>
                rcases List.mem_cons.mp hq with rfl | hq
                · exact absurd hql hp
                · exact ih hunseen ⟨q, hq, hql⟩

/-- With the mark, what is reported stands elsewhere. -/
theorem error_of_addEach_seen (h : l ∈ loader.seen) {paths : List FilePath} {error : ExtractError}
    (herror : (addEach (addFile fs) paths loader).2 = some error) :
    ∃ q e, fs.canonical q ≠ .ok l ∧ error = .io q.text e := by
  induction paths generalizing loader with
  | nil => cases herror
  | cons p rest ih =>
      rw [addEach] at herror
      rcases addFile_cases fs p loader with ⟨e, hp, hadd⟩ | ⟨m, hm, hcases⟩
      · rw [hadd] at herror
        cases herror
        exact ⟨p, e, by simp [hp], rfl⟩
      · rcases hcases with ⟨-, hadd⟩ | ⟨hunseen, e, -, hadd⟩ | ⟨-, text, -, hadd⟩ <;>
          rw [hadd] at herror
        · exact ih h herror
        · cases herror
          refine ⟨p, e, ?_, rfl⟩
          intro hl
          rw [hm] at hl
          cases hl
          exact hunseen h
        · exact ih (List.mem_cons_of_mem m h) herror

namespace Plan

theorem failure?_andThen {first second : Plan} {error : ExtractError}
    (h : (first.andThen second).failure? = some error) :
    first.failure? = some error ∨ second.failure? = some error := by
  unfold andThen at h
  split at h
  · exact .inl h
  · exact .inr h

theorem failure?_ofFolder {p : FilePath} {error : ExtractError}
    (h : (ofFolder fs p).failure? = some error) :
    ∃ e, fs.list p = .error e ∧ error = .io p.text e := by
  unfold ofFolder at h
  split at h
  · cases h
  · split at h
    · split at h <;> cases h
    · split at h
      · next e he =>
          cases h
          exact ⟨e, he, rfl⟩
      · cases h

theorem failure?_inTurn {ps : List FilePath} {error : ExtractError}
    (h : (inTurn (ofFolder fs) ps).failure? = some error) :
    ∃ p e, fs.list p = .error e ∧ error = .io p.text e := by
  induction ps with
  | nil => cases h
  | cons p rest ih =>
      rcases failure?_andThen h with h | h
      · exact ⟨p, failure?_ofFolder h⟩
      · exact ih h

end Plan

theorem Addition.failure?_plan {a : Addition} {error : ExtractError}
    (h : (a.plan fs).failure? = some error) :
    (∃ reason, error = .workspace reason) ∨ ∃ p e, fs.list p = .error e ∧ error = .io p.text e := by
  cases a with
  | file p => cases h
  | folder p => exact .inr ⟨p, Plan.failure?_ofFolder h⟩
  | workspace found =>
      cases found with
      | error reason =>
          cases h
          exact .inl ⟨reason, rfl⟩
      | ok packages => exact .inr (Plan.failure?_inTurn h)

theorem eq_of_io_eq {p q : FilePath} {e e' : IoError}
    (h : ExtractError.io p.text e = .io q.text e') : p = q ∧ e = e' := by
  obtain ⟨htext, he⟩ := ExtractError.io.inj h
  cases p
  cases q
  cases htext
  exact ⟨rfl, he⟩

namespace Marks

theorem perform (h : Marks l loader marked) {a : Addition}
    (hpaths : ∀ q ∈ reached fs (a.plan fs).paths loader, fs.canonical q ≠ .ok l) :
    (a.perform fs marked).2 = (a.perform fs loader).2 ∧
      Marks l (a.perform fs loader).1 (a.perform fs marked).1 := by
  obtain ⟨hsame, hmarks⟩ := h.addEach hpaths
  rw [Addition.perform_eq_follow, Addition.perform_eq_follow, Plan.follow, Plan.follow]
  cases hadd : Loader.addEach (Loader.addFile fs) (a.plan fs).paths loader with
  | mk after failed =>
      cases hadd' : Loader.addEach (Loader.addFile fs) (a.plan fs).paths marked with
      | mk after' failed' =>
          rw [hadd, hadd'] at hsame hmarks
          cases hsame
          cases failed <;> exact ⟨rfl, hmarks⟩

theorem perform_ne (h : Marks l loader marked) (hbad : Unreadable fs l) {a : Addition}
    (hreached : ∃ q ∈ reached fs (a.plan fs).paths loader, fs.canonical q = .ok l) :
    (a.perform fs marked).2 ≠ (a.perform fs loader).2 := by
  obtain ⟨q, e, hq, he, hloader⟩ := addEach_of_reached h.unseen hbad hreached
  have hplain : (a.perform fs loader).2 = some (.io q.text e) := by
    rw [Addition.perform_eq_follow, Plan.follow]
    cases hadd : Loader.addEach (Loader.addFile fs) (a.plan fs).paths loader with
    | mk after failed =>
        rw [hadd] at hloader
        cases hloader
        rfl
  rw [hplain, Addition.perform_eq_follow, Plan.follow]
  have hseen : l ∈ marked.seen := (h.seen l).mpr (.inl rfl)
  cases hadd : Loader.addEach (Loader.addFile fs) (a.plan fs).paths marked with
  | mk after failed =>
      cases failed with
      | some error =>
          obtain ⟨p, e', hp, rfl⟩ := error_of_addEach_seen hseen (congrArg Prod.snd hadd)
          intro heq
          obtain ⟨rfl, -⟩ := eq_of_io_eq (Option.some.inj heq)
          exact hp hq
      | none =>
          intro hfailure
          rcases Addition.failure?_plan hfailure with ⟨reason, heq⟩ | ⟨p, e', hlist, heq⟩
          · cases heq
          · obtain ⟨rfl, rfl⟩ := eq_of_io_eq heq
            exact FileSystem.readText_ne_of_list hq hlist he

theorem answers_eq_iff (h : Marks l loader marked) (hbad : Unreadable fs l) (as : List Addition) :
    answers fs as marked = answers fs as loader ↔
      ∀ q ∈ history fs as loader, fs.canonical q ≠ .ok l := by
  induction as generalizing loader marked with
  | nil => simp [answers, history]
  | cons a rest ih =>
      rw [answers, answers, history, List.cons.injEq, Prod.mk.injEq, List.forall_mem_append]
      by_cases hpaths : ∀ q ∈ reached fs (a.plan fs).paths loader, fs.canonical q ≠ .ok l
      · obtain ⟨hsame, hmarks⟩ := h.perform hpaths
        rw [ih hmarks]
        exact ⟨fun heq => ⟨hpaths, heq.2⟩, fun hall => ⟨⟨hsame, hmarks.files⟩, hall.2⟩⟩
      · refine ⟨?_, fun hall => absurd hall.1 hpaths⟩
        rintro ⟨⟨hsame, -⟩, -⟩
        simp only [ne_eq, Classical.not_forall, Classical.not_not] at hpaths
        obtain ⟨q, hq, hql⟩ := hpaths
        exact absurd hsame (h.perform_ne hbad ⟨q, hq, hql⟩)

end Marks

/-- After a file could not be added, a loader answers later additions as if it had not been
tried exactly if none of the paths they go through leads to where that file is. -/
theorem answers_after_failure_iff (fs : FileSystem) (loader : Loader) (p : FilePath)
    (as : List Addition) (hfail : (addFile fs p loader).2 ≠ none) :
    answers fs as (addFile fs p loader).1 = answers fs as loader ↔
      ∀ q ∈ history fs as loader, ∀ l, fs.canonical p = .ok l → fs.canonical q ≠ .ok l := by
  rcases addFile_cases fs p loader with ⟨e, hp, hadd⟩ | ⟨l, hl, hcases⟩
  · rw [hadd]
    simp [hp]
  · rcases hcases with ⟨-, hadd⟩ | ⟨hunseen, e, he, hadd⟩ | ⟨-, text, -, hadd⟩
    · exact absurd (by rw [hadd]) hfail
    · have hmarks : Marks l loader (addFile fs p loader).1 := by
        rw [hadd]
        exact ⟨rfl, fun m => List.mem_cons, hunseen⟩
      have hbad : Unreadable fs l := by
        intro q hq
        cases hread : fs.readText q with
        | error e' => exact ⟨e', rfl⟩
        | ok text =>
            rw [FileSystem.readText_eq_of_canonical hq hl hread] at he
            cases he
      rw [hmarks.answers_eq_iff hbad, hl]
      simp only [Except.ok.injEq, forall_eq']
    · exact absurd (by rw [hadd]) hfail

theorem history_file (fs : FileSystem) (p : FilePath) (loader : Loader) :
    history fs [.file p] loader = [p] := by
  simp only [history, Addition.plan, reached, List.append_nil]
  cases addFile fs p loader with
  | mk after failed => cases failed <;> rfl

/-- Beside a file that cannot be read another one is added as before, and only a second try of the
first shows that there was a first try. -/
theorem answers_after_failure_beside :
    let fs : FileSystem :=
      ⟨[(["bad.rs"], .file ⟨#[0xff]⟩), (["ok.rs"], .file "fn f();".toUTF8)], []⟩
    let failed := addFile fs ⟨"bad.rs"⟩ .empty
    failed.2 ≠ none ∧
      answers fs [.file ⟨"ok.rs"⟩] failed.1 = answers fs [.file ⟨"ok.rs"⟩] .empty ∧
      answers fs [.file ⟨"bad.rs"⟩] failed.1 ≠ answers fs [.file ⟨"bad.rs"⟩] .empty := by
  intro fs failed
  have hbad : fs.canonical ⟨"bad.rs"⟩ = .ok ["bad.rs"] :=
    FileSystem.canonical_of_file (by decide) rfl rfl
  have hok : fs.canonical ⟨"ok.rs"⟩ = .ok ["ok.rs"] :=
    FileSystem.canonical_of_file (by decide) rfl rfl
  have hread : fs.readText ⟨"bad.rs"⟩ = .error .invalidText :=
    FileSystem.readText_of_invalid hbad rfl (by decide +kernel)
  have hfail : (addFile fs ⟨"bad.rs"⟩ .empty).2 ≠ none := by
    rw [addFile_of_unreadable hbad List.not_mem_nil hread]
    exact Option.some_ne_none _
  refine ⟨hfail, ?_, ?_⟩
  · apply (answers_after_failure_iff fs .empty ⟨"bad.rs"⟩ _ hfail).mpr
    rw [history_file]
    intro q hq l hl
    cases List.mem_singleton.mp hq
    rw [hbad] at hl
    cases hl
    simp [hok]
  · intro hsame
    have hpaths := (answers_after_failure_iff fs .empty ⟨"bad.rs"⟩ _ hfail).mp hsame
    rw [history_file] at hpaths
    exact hpaths _ List.mem_cons_self _ hbad hbad

/-- A file that cannot be read is reported at the first try and passed over at the second. -/
theorem failed_file_passed_over :
    ¬ ∀ (fs : FileSystem) (before : List Addition) (p : FilePath) (as : List Addition),
      (addFile fs p (addAll fs before .empty)).2 ≠ none →
        answers fs as (addFile fs p (addAll fs before .empty)).1 =
          answers fs as (addAll fs before .empty) := by
  intro hall
  let fs : FileSystem := ⟨[(["bad.rs"], .file ⟨#[0xff]⟩)], []⟩
  have hbad : fs.canonical ⟨"bad.rs"⟩ = .ok ["bad.rs"] :=
    FileSystem.canonical_of_file (by decide) rfl rfl
  have hread : fs.readText ⟨"bad.rs"⟩ = .error .invalidText :=
    FileSystem.readText_of_invalid hbad rfl (by decide +kernel)
  have hfirst : addFile fs ⟨"bad.rs"⟩ .empty =
      (⟨[], [["bad.rs"]]⟩, some (.io "bad.rs" .invalidText)) :=
    addFile_of_unreadable hbad List.not_mem_nil hread
  have hsecond : addFile fs ⟨"bad.rs"⟩ ⟨[], [["bad.rs"]]⟩ = (⟨[], [["bad.rs"]]⟩, none) :=
    addFile_of_seen hbad List.mem_cons_self
  have hsame := hall fs [] ⟨"bad.rs"⟩ [.file ⟨"bad.rs"⟩]
  simp only [addAll, answers, Addition.perform, hfirst, hsecond] at hsame
  cases hsame (Option.some_ne_none _)

end Loader

end LeafPaths
