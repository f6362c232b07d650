import LeafPaths.Proofs.LoaderRuns

/-!
Loading without failures. Whether additions succeed can be told from their plans alone:
each of them must lead to texts only. So their order decides under which spelling and in
which place a file is held, but neither whether it is held nor whether the run succeeds,
and what was added once is not added again.
-/

namespace LeafPaths

def FileSystem.IsText (fs : FileSystem) (p : FilePath) : Prop := ∃ text, fs.readText p = .ok text

namespace Loader

variable {fs : FileSystem}

theorem addFile_eq_none_iff {paths : List FilePath} {loader : Loader}
    (h : Remembers fs paths loader) (hread : ∀ q ∈ paths, fs.IsText q)
    (p : FilePath) : (addFile fs p loader).2 = none ↔ fs.IsText p := by
  rcases addFile_cases fs p loader with ⟨e, hp, hadd⟩ | ⟨l, hl, hcases⟩
  · rw [hadd]
    refine ⟨by simp, ?_⟩
    rintro ⟨text, htext⟩
    obtain ⟨l, hl, -⟩ := FileSystem.readText_eq_ok_iff.mp htext
    rw [hp] at hl
    cases hl
  · rcases hcases with ⟨hseen, hadd⟩ | ⟨-, e, he, hadd⟩ | ⟨-, text, htext, hadd⟩ <;> rw [hadd]
    · -- what was reached before was read under another spelling
      obtain ⟨q, hq, hql⟩ := (h.seen l).mp hseen
      obtain ⟨text, htext⟩ := hread q hq
      have hsame := FileSystem.readText_eq_of_canonical hql hl htext
      exact ⟨fun _ => ⟨text, hsame⟩, fun _ => rfl⟩
    · simp [FileSystem.IsText, he]
    · simp [FileSystem.IsText, htext]

namespace Plan

/-- A plan whose paths all lead to texts, and which does not end in a failure. -/
structure Succeeds (fs : FileSystem) (plan : Plan) : Prop where
  noFailure : plan.failure? = none
  readable : ∀ p ∈ plan.paths, fs.IsText p

theorem succeeds_andThen {first second : Plan} :
    (first.andThen second).Succeeds fs ↔ first.Succeeds fs ∧ second.Succeeds fs := by
  obtain ⟨paths, failure⟩ := first
  cases failure with
  | some e =>
      constructor
      · intro h
        cases h.noFailure
      · intro h
        cases h.1.noFailure
  | none =>
      constructor
      · rintro ⟨hfailure, hread⟩
        exact ⟨⟨rfl, fun p hp => hread p (List.mem_append_left _ hp)⟩,
          ⟨hfailure, fun p hp => hread p (List.mem_append_right _ hp)⟩⟩
      · rintro ⟨hfirst, hsecond⟩
        refine ⟨hsecond.noFailure, ?_⟩
        intro p hp
        rcases List.mem_append.mp hp with hp | hp
        · exact hfirst.readable p hp
        · exact hsecond.readable p hp

variable {α : Type} {plan : α → Plan}

theorem succeeds_inTurn {as : List α} :
    (inTurn plan as).Succeeds fs ↔ ∀ a ∈ as, (plan a).Succeeds fs := by
  induction as with
  | nil => simpa [inTurn, nothing] using Succeeds.mk rfl (by simp)
  | cons a rest ih => rw [inTurn, succeeds_andThen, ih, List.forall_mem_cons]

theorem paths_inTurn {as : List α} (h : ∀ a ∈ as, (plan a).Succeeds fs) :
    (inTurn plan as).paths = as.flatMap fun a => (plan a).paths := by
  induction as with
  | nil => rfl
  | cons a rest ih =>
      obtain ⟨ha, hrest⟩ := List.forall_mem_cons.mp h
      rw [inTurn, andThen, ha.noFailure, ih hrest, List.flatMap_cons]

end Plan

theorem addEach_addFile_cases {before : List FilePath} {loader : Loader}
    (h : Remembers fs before loader) (hread : ∀ q ∈ before, fs.IsText q)
    (paths : List FilePath) :
    (∀ p ∈ paths, fs.IsText p) ∧
        addEach (addFile fs) paths loader = (handOver fs paths loader, none) ∨
      (¬ ∀ p ∈ paths, fs.IsText p) ∧
        ∃ after e, addEach (addFile fs) paths loader = (after, some e) := by
  induction paths generalizing before loader with
  | nil => exact .inl ⟨by simp, rfl⟩
  | cons p rest ih =>
      have hiff := addFile_eq_none_iff h hread p
      have hnext := h.addFile p
      cases hadd : addFile fs p loader with
      | mk after failed =>
          rw [hadd] at hiff hnext
          cases failed with
          | some e =>
              refine .inr ⟨?_, after, e, by rw [addEach, hadd]⟩
              intro hall
              cases hiff.mpr (hall p (by simp))
          | none =>
              have hp := hiff.mp rfl
              have hread' : ∀ q ∈ before ++ [p], fs.IsText q := by
                intro q hq
                rcases List.mem_append.mp hq with hq | hq
                · exact hread q hq
                · cases List.mem_singleton.mp hq
                  exact hp
              rw [addEach, hadd, handOver_cons, hadd, List.forall_mem_cons, and_iff_right hp]
              exact ih hnext hread'

theorem Plan.follow_cases (fs : FileSystem) (plan : Plan) :
    plan.Succeeds fs ∧ plan.follow fs .empty = (handOver fs plan.paths .empty, none) ∨
      ¬ plan.Succeeds fs ∧ ∃ after e, plan.follow fs .empty = (after, some e) := by
  rcases addEach_addFile_cases (Remembers.empty fs) (by simp) plan.paths with
    ⟨hread, hadd⟩ | ⟨hread, after, e, hadd⟩
  · cases hfailure : plan.failure? with
    | none => exact .inl ⟨⟨hfailure, hread⟩, by rw [follow, hadd, hfailure]⟩
    | some e =>
        refine .inr ⟨?_, _, e, by rw [follow, hadd, hfailure]⟩
        intro h
        rw [h.noFailure] at hfailure
        cases hfailure
  · exact .inr ⟨fun h => hread h.readable, after, e, by rw [follow, hadd]⟩

/-- Additions up to the first that fails succeed if all their plans do, and then go through
all paths of the plans. -/
theorem addEach_cases {α : Type} {plan : α → Plan} {add : α → Loader → Result}
    (hfollow : ∀ a loader, (plan a).follow fs loader = add a loader) (as : List α) :
    (∀ a ∈ as, (plan a).Succeeds fs) ∧
        addEach add as .empty = (handOver fs (as.flatMap fun a => (plan a).paths) .empty, none) ∨
      (¬ ∀ a ∈ as, (plan a).Succeeds fs) ∧ ∃ after e, addEach add as .empty = (after, some e) := by
  rw [← Plan.follow_inTurn hfollow, ← Plan.succeeds_inTurn]
  rcases Plan.follow_cases fs (Plan.inTurn plan as) with ⟨hplan, hadd⟩ | hfails
  · rw [Plan.paths_inTurn (Plan.succeeds_inTurn.mp hplan)] at hadd
    exact .inl ⟨hplan, hadd⟩
  · exact .inr hfails

/-! ### Additions in any order -/

/-- Additions that are continued after failures do not differ from those that are not, if there
are no failures. -/
theorem addEach_perform_cases (as : List Addition) (loader : Loader) :
    (∀ r ∈ answers fs as loader, r.1 = none) ∧
        addEach (Addition.perform fs) as loader = (addAll fs as loader, none) ∨
      (¬ ∀ r ∈ answers fs as loader, r.1 = none) ∧
        ∃ after e, addEach (Addition.perform fs) as loader = (after, some e) := by
  induction as generalizing loader with
  | nil => exact .inl ⟨by simp [answers], rfl⟩
  | cons a rest ih =>
      rw [answers, addEach, addAll, List.forall_mem_cons]
      cases hadd : a.perform fs loader with
      | mk after failed =>
          cases failed with
          | some e => exact .inr ⟨by simp, after, e, rfl⟩
          | none =>
              rw [and_iff_right rfl]
              exact ih after

/-- The paths that additions go through if none of them fails. -/
def pathsOf (fs : FileSystem) (as : List Addition) : List FilePath :=
  as.flatMap fun a => (a.plan fs).paths

theorem succeeds_of_answers {as : List Addition} (h : ∀ r ∈ answers fs as .empty, r.1 = none) :
    ∀ a ∈ as, (a.plan fs).Succeeds fs := by
  have hfollow : ∀ (a : Addition) loader, (a.plan fs).follow fs loader = a.perform fs loader :=
    fun a loader => (a.perform_eq_follow fs loader).symm
  rcases addEach_cases hfollow as with ⟨hplans, -⟩ | ⟨-, after, e, hfails⟩
  · exact hplans
  · rcases addEach_perform_cases as .empty with ⟨-, hadd⟩ | ⟨hnot, -⟩
    · rw [hadd] at hfails
      cases hfails
    · exact absurd h hnot

theorem answers_of_succeeds {as : List Addition} (h : ∀ a ∈ as, (a.plan fs).Succeeds fs) :
    (∀ r ∈ answers fs as .empty, r.1 = none) ∧
      addAll fs as .empty = handOver fs (pathsOf fs as) .empty := by
  have hfollow : ∀ (a : Addition) loader, (a.plan fs).follow fs loader = a.perform fs loader :=
    fun a loader => (a.perform_eq_follow fs loader).symm
  rcases addEach_cases hfollow as with ⟨-, hadd⟩ | ⟨hnot, -⟩
  · rcases addEach_perform_cases as .empty with ⟨hanswers, hall⟩ | ⟨-, after, e, hfails⟩
    · rw [hall] at hadd
      exact ⟨hanswers, congrArg Prod.fst hadd⟩
    · rw [hfails] at hadd
      cases hadd
  · exact absurd h hnot

end Loader

/-- Where a source is and what it holds, whatever its path is called. -/
def Source.entry (fs : FileSystem) (s : Source) : Except IoError Location × String :=
  (fs.canonical s.path, s.content)

namespace Loader

variable {fs : FileSystem}

namespace Holds

variable {paths paths' : List FilePath} {files files' : List Source}

theorem mem_entries_iff (h : Holds fs paths files) (x : Except IoError Location × String) :
    x ∈ files.map (Source.entry fs) ↔
      ∃ p ∈ paths, fs.canonical p = x.1 ∧ fs.readText p = .ok x.2 := by
  obtain ⟨place, content⟩ := x
  rw [List.mem_map]
  constructor
  · rintro ⟨s, hs, hx⟩
    cases hx
    refine ⟨s.path, h.ordered.subset (List.mem_map_of_mem hs), rfl, ?_⟩
    exact FileSystem.readText_eq_ok_iff.mpr (h.content s hs)
  · rintro ⟨p, hp, rfl, hread⟩
    obtain ⟨s, hs, hsame⟩ := h.complete p hp content hread
    obtain ⟨l, hl, ho⟩ := h.content s hs
    have hcontent := FileSystem.readText_eq_ok_iff.mpr ⟨l, hsame ▸ hl, ho⟩
    rw [hread] at hcontent
    cases hcontent
    exact ⟨s, hs, Prod.ext hsame rfl⟩

theorem nodup_entries (h : Holds fs paths files) : (files.map (Source.entry fs)).Nodup := by
  refine List.pairwise_map.mpr (h.once.imp ?_)
  intro s t hne heq
  exact hne (congrArg Prod.fst heq)

/-- What is held in the end depends on which paths were reached and not on their order. -/
theorem perm_entries (h : Holds fs paths files) (h' : Holds fs paths' files')
    (hperm : paths.Perm paths') :
    (files.map (Source.entry fs)).Perm (files'.map (Source.entry fs)) := by
  rw [List.perm_ext_iff_of_nodup h.nodup_entries h'.nodup_entries]
  intro x
  rw [h.mem_entries_iff, h'.mem_entries_iff]
  simp only [hperm.mem_iff]

end Holds

theorem addEach_of_seen {loader : Loader} {paths : List FilePath}
    (h : ∀ p ∈ paths, ∃ l ∈ loader.seen, fs.canonical p = .ok l) :
    addEach (addFile fs) paths loader = (loader, none) := by
  induction paths with
  | nil => rfl
  | cons p rest ih =>
      obtain ⟨⟨l, hseen, hl⟩, hrest⟩ := List.forall_mem_cons.mp h
      rw [addEach, addFile_of_seen hl hseen]
      exact ih hrest

theorem perform_again {paths : List FilePath} {loader : Loader} {a : Addition}
    (h : Remembers fs paths loader) (hplan : (a.plan fs).Succeeds fs)
    (hpaths : ∀ p ∈ (a.plan fs).paths, p ∈ paths) : a.perform fs loader = (loader, none) := by
  have hadd : addEach (addFile fs) (a.plan fs).paths loader = (loader, none) := by
    apply addEach_of_seen
    intro p hp
    obtain ⟨text, htext⟩ := hplan.readable p hp
    obtain ⟨l, hl, -⟩ := FileSystem.readText_eq_ok_iff.mp htext
    exact ⟨l, (h.seen l).mpr ⟨p, hpaths p hp, hl⟩, hl⟩
  rw [Addition.perform_eq_follow, Plan.follow, hadd, hplan.noFailure]

theorem addAll_remembers {as : List Addition} (h : ∀ a ∈ as, (a.plan fs).Succeeds fs) :
    Remembers fs (pathsOf fs as) (addAll fs as .empty) := by
  have hremembers := (Remembers.empty fs).handOver (pathsOf fs as)
  rwa [List.nil_append, ← (answers_of_succeeds h).2] at hremembers

/-- Additions that all succeed, made in any other order, succeed as well and leave the same files
with the same contents. After that, each of them succeeds again and changes nothing. -/
theorem addAll_perm (fs : FileSystem) (as bs : List Addition) (hperm : as.Perm bs)
    (h : ∀ r ∈ answers fs as .empty, r.1 = none) :
    (∀ r ∈ answers fs bs .empty, r.1 = none) ∧
      ((addAll fs as .empty).files.map (Source.entry fs)).Perm
        ((addAll fs bs .empty).files.map (Source.entry fs)) ∧
      ∀ a ∈ as, a.perform fs (addAll fs bs .empty) = (addAll fs bs .empty, none) := by
  have has := succeeds_of_answers h
  have hbs : ∀ b ∈ bs, (b.plan fs).Succeeds fs := by
    intro b hb
    exact has b (hperm.mem_iff.mpr hb)
  have hpaths : (pathsOf fs as).Perm (pathsOf fs bs) := hperm.flatMap_right _
  refine ⟨(answers_of_succeeds hbs).1, ?_, ?_⟩
  · exact (addAll_remembers has).holds.perm_entries (addAll_remembers hbs).holds hpaths
  · intro a ha
    apply perform_again (addAll_remembers hbs) (has a ha)
    intro p hp
    exact List.mem_flatMap.mpr ⟨a, hperm.mem_iff.mp ha, hp⟩

/-- A file that is reached through its folder and through a link, in either order. -/
theorem addAll_perm_link :
    let fs : FileSystem :=
      ⟨[(["src"], .folder), (["src", "a.rs"], .file "fn f();".toUTF8),
        (["b.rs"], .link ⟨"src/a.rs"⟩)], []⟩
    let as : List Addition := [.folder ⟨"src"⟩, .file ⟨"b.rs"⟩]
    let bs : List Addition := [.file ⟨"b.rs"⟩, .folder ⟨"src"⟩]
    as.Perm bs ∧ (∀ r ∈ answers fs as .empty, r.1 = none) ∧
      (∀ r ∈ answers fs bs .empty, r.1 = none) ∧
      ((addAll fs as .empty).files.map (Source.entry fs)).Perm
        ((addAll fs bs .empty).files.map (Source.entry fs)) ∧
      ∀ a ∈ as, a.perform fs (addAll fs bs .empty) = (addAll fs bs .empty, none) := by
  intro fs as bs
  have hperm : as.Perm bs := .swap _ _ _
  have hinside : ∀ k, fs.walk k ["src"] ["a.rs"] = .ok ⟨k, ["src", "a.rs"]⟩ := by
    intro k
    rw [FileSystem.walk_name rfl (by decide) rfl (by simp), FileSystem.walk_nil]
    rfl
  have hfolder : fs.resolve ⟨"src"⟩ = .ok ⟨0, ["src"]⟩ := by
    rw [FileSystem.resolve_name fs (by decide),
      FileSystem.walk_name rfl (by decide) rfl (by simp), FileSystem.walk_nil]
    rfl
  have hfile : fs.resolve ⟨"src/a.rs"⟩ = .ok ⟨0, ["src", "a.rs"]⟩ := by
    exact (FileSystem.resolve_join hfolder rfl (by decide)).trans (hinside 0)
  have hlink : fs.resolve ⟨"b.rs"⟩ = .ok ⟨1, ["src", "a.rs"]⟩ := by
    have hparts : FilePath.parts ⟨"src/a.rs"⟩ = ["src", "a.rs"] := by decide
    rw [FileSystem.resolve_name fs (by decide),
      FileSystem.walk_link rfl (by decide) rfl (by decide), hparts]
    exact (FileSystem.walk_name rfl (by decide) rfl (by simp) 1 _).trans (hinside 1)
  have htext : ∀ p k, fs.resolve p = .ok ⟨k, ["src", "a.rs"]⟩ → fs.IsText p := by
    intro p k hp
    exact ⟨"fn f();", FileSystem.readText_eq_ok_iff.mpr
      ⟨_, FileSystem.canonical_eq_ok_iff.mpr ⟨_, hp, rfl⟩, rfl⟩⟩
  have hsources : fs.sourcesIn ⟨"src"⟩ = [⟨"src/a.rs"⟩] := by
    have hnames : fs.names ⟨"src"⟩ = ["a.rs"] := by
      simp only [FileSystem.names, FileSystem.list, hfolder]
      decide +kernel
    have hjoin : FilePath.join ⟨"src"⟩ "a.rs" = ⟨"src/a.rs"⟩ := by decide
    have hnot : fs.isFolder ⟨"src/a.rs"⟩ = false := by
      simp only [FileSystem.isFolder, FileSystem.objectOf?, hfile]
      rfl
    rw [FileSystem.sourcesIn_eq_flatMap, hnames, List.flatMap_singleton, FileSystem.sourcesAt,
      hjoin, hnot]
    decide
  have hplan : (Addition.folder ⟨"src"⟩).plan fs = ⟨[⟨"src/a.rs"⟩], none⟩ := by
    have hnot : fs.isFile ⟨"src"⟩ = false := by
      simp only [FileSystem.isFile, FileSystem.objectOf?, hfolder]
      rfl
    have hskip : (⟨"src"⟩ : FilePath).isSkipped = false := by decide
    simp only [Addition.plan, Plan.ofFolder, hskip, hnot, FileSystem.list, hfolder, hsources]
    rfl
  have hplans : ∀ a ∈ as, (a.plan fs).Succeeds fs := by
    refine List.forall_mem_cons.mpr ⟨?_, List.forall_mem_singleton.mpr ?_⟩
    · rw [hplan]
      exact ⟨rfl, List.forall_mem_singleton.mpr (htext _ 0 hfile)⟩
    · exact ⟨rfl, List.forall_mem_singleton.mpr (htext _ 1 hlink)⟩
  have h := (answers_of_succeeds hplans).1
  exact ⟨hperm, h, addAll_perm fs as bs hperm h⟩

end Loader

end LeafPaths
