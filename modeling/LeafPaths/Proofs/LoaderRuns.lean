import LeafPaths.Loader

/-!
Runs of a loader. Whatever is added, files reach the loader one path at a time,
and which paths these are does not depend on what it holds: an addition has a
plan, which it follows up to the first path that fails. So the state after any
run is that of a list of paths handed over one by one, and what holds of one
path holds of the run.
-/

namespace LeafPaths

namespace FileSystem

theorem canonical_eq_ok_iff {fs : FileSystem} {p : FilePath} {l : Location} :
    fs.canonical p = .ok l ↔ ∃ place, fs.resolve p = .ok place ∧ place.location = l := by
  unfold canonical
  cases fs.resolve p with
  | error e => simp [Except.map]
  | ok place => simp [Except.map]

theorem canonical_of_file {fs : FileSystem} {name : String} {content : ByteArray}
    (hn : FilePath.isName name = true) (hfolder : fs.object? fs.workingFolder = some .folder)
    (ho : fs.object? (fs.workingFolder ++ [name]) = some (.file content)) :
    fs.canonical ⟨name⟩ = .ok (fs.workingFolder ++ [name]) := by
  have hr : fs.resolve ⟨name⟩ = .ok ⟨0, fs.workingFolder ++ [name]⟩ := by
    rw [resolve_name fs hn, walk_name hfolder hn ho (by simp), walk_nil]
  exact canonical_eq_ok_iff.mpr ⟨_, hr, rfl⟩

theorem fromUTF8?_eq_some_iff {bytes : ByteArray} {text : String} :
    String.fromUTF8? bytes = some text ↔ bytes = text.toUTF8 := by
  unfold String.fromUTF8?
  constructor
  · intro h
    split at h
    · cases h
      rfl
    · cases h
  · rintro rfl
    have hvalid : text.toUTF8.IsValidUTF8 := text.isValidUTF8
    rw [dif_pos hvalid]
    rfl

theorem readText_eq_ok_iff {fs : FileSystem} {p : FilePath} {text : String} :
    fs.readText p = .ok text ↔
      ∃ l, fs.canonical p = .ok l ∧ fs.object? l = some (.file text.toUTF8) := by
  simp only [canonical_eq_ok_iff]
  constructor
  · intro h
    unfold readText read at h
    cases hp : fs.resolve p with
    | error e => simp [hp] at h
    | ok place =>
        refine ⟨place.location, ⟨place, rfl, rfl⟩, ?_⟩
        simp only [hp] at h
        cases ho : fs.object? place.location with
        | none => simp [ho] at h
        | some o =>
            cases o with
            | folder | link target => simp [ho] at h
            | file bytes =>
                simp only [ho] at h
                split at h
                · next text' htext =>
                    cases h
                    rw [fromUTF8?_eq_some_iff.mp htext]
                · cases h
  · rintro ⟨l, ⟨place, hp, rfl⟩, ho⟩
    have htext : String.fromUTF8? text.toUTF8 = some text := fromUTF8?_eq_some_iff.mpr rfl
    simp only [readText, read, hp, ho, htext]

theorem readText_of_invalid {fs : FileSystem} {p : FilePath} {l : Location} {content : ByteArray}
    (hp : fs.canonical p = .ok l) (ho : fs.object? l = some (.file content))
    (h : ¬ content.IsValidUTF8) : fs.readText p = .error .invalidText := by
  obtain ⟨place, hr, rfl⟩ := canonical_eq_ok_iff.mp hp
  have hnone : String.fromUTF8? content = none := by
    rw [String.fromUTF8?, dif_neg h]
  simp only [readText, read, hr, ho, hnone]

theorem readText_eq_of_canonical {fs : FileSystem} {p q : FilePath} {l : Location} {text : String}
    (hp : fs.canonical p = .ok l) (hq : fs.canonical q = .ok l) (h : fs.readText p = .ok text) :
    fs.readText q = .ok text := by
  obtain ⟨l', hl, ho⟩ := readText_eq_ok_iff.mp h
  rw [hp] at hl
  cases hl
  exact readText_eq_ok_iff.mpr ⟨l, hq, ho⟩

end FileSystem

namespace Loader

/-! ### Plans -/

/-- The paths that an addition goes through, and how it ends if none of them
fails. -/
structure Plan where
  paths : List FilePath
  failure? : Option ExtractError

namespace Plan

def nothing : Plan := ⟨[], none⟩

/-- A plan that goes on with another one unless it ends in a failure. -/
def andThen (first second : Plan) : Plan :=
  match first.failure? with
  | some _ => first
  | none => ⟨first.paths ++ second.paths, second.failure?⟩

def ofFolder (fs : FileSystem) (p : FilePath) : Plan :=
  if p.isSkipped then nothing
  else if fs.isFile p then if p.isSource then ⟨[p], none⟩ else nothing
  else
    match fs.list p with
    | .error e => ⟨[], some (.io p.text e)⟩
    | .ok _ => ⟨fs.sourcesIn p, none⟩

/-- One plan after another, up to the first that ends in a failure. -/
def inTurn {α : Type} (plan : α → Plan) : List α → Plan
  | [] => nothing
  | a :: rest => (plan a).andThen (inTurn plan rest)

def follow (fs : FileSystem) (plan : Plan) (loader : Loader) : Result :=
  match addEach (addFile fs) plan.paths loader with
  | (loader, none) => (loader, plan.failure?)
  | (loader, some e) => (loader, some e)

end Plan

def Addition.plan (fs : FileSystem) : Addition → Plan
  | file p => ⟨[p], none⟩
  | folder p => .ofFolder fs p
  | workspace (.error reason) => ⟨[], some (.workspace reason)⟩
  | workspace (.ok m) => .inTurn (.ofFolder fs) m.folders

theorem addEach_append {α : Type} (add : α → Loader → Result) (xs ys : List α) (loader : Loader) :
    addEach add (xs ++ ys) loader =
      match addEach add xs loader with
      | (loader, none) => addEach add ys loader
      | (loader, some e) => (loader, some e) := by
  induction xs generalizing loader with
  | nil => rfl
  | cons x xs ih =>
      rw [List.cons_append, addEach, addEach]
      split
      · exact ih _
      · rfl

namespace Plan

theorem follow_andThen (fs : FileSystem) (first second : Plan) (loader : Loader) :
    (first.andThen second).follow fs loader =
      match first.follow fs loader with
      | (loader, none) => second.follow fs loader
      | (loader, some e) => (loader, some e) := by
  obtain ⟨paths, failure⟩ := first
  cases failure with
  | some e =>
      simp only [andThen, follow]
      cases addEach (addFile fs) paths loader with
      | mk after failed => cases failed <;> rfl
  | none =>
      simp only [andThen, follow, addEach_append]
      cases addEach (addFile fs) paths loader with
      | mk after failed => cases failed <;> rfl

theorem follow_ofFolder (fs : FileSystem) (p : FilePath) (loader : Loader) :
    (ofFolder fs p).follow fs loader = addFolder fs p loader := by
  unfold ofFolder addFolder
  split
  · rfl
  · split
    · split
      · simp only [follow, addEach]
        cases addFile fs p loader with
        | mk after failed => cases failed <;> rfl
      · rfl
    · cases fs.list p with
      | error e => rfl
      | ok names =>
          simp only [follow]
          cases addEach (addFile fs) (fs.sourcesIn p) loader with
          | mk after failed => cases failed <;> rfl

theorem follow_inTurn {α : Type} {fs : FileSystem} {plan : α → Plan} {add : α → Loader → Result}
    (h : ∀ a loader, (plan a).follow fs loader = add a loader) (as : List α) (loader : Loader) :
    (inTurn plan as).follow fs loader = addEach add as loader := by
  induction as generalizing loader with
  | nil => rfl
  | cons a rest ih =>
      rw [inTurn, follow_andThen, h, addEach]
      cases add a loader with
      | mk after failed =>
          cases failed with
          | none => exact ih after
          | some e => rfl

end Plan

/-- An addition does nothing but follow its plan. -/
theorem Addition.perform_eq_follow (fs : FileSystem) (a : Addition) (loader : Loader) :
    a.perform fs loader = (a.plan fs).follow fs loader := by
  cases a with
  | file p =>
      simp only [perform, plan, Plan.follow, addEach]
      cases addFile fs p loader with
      | mk after failed => cases failed <;> rfl
  | folder p => exact (Plan.follow_ofFolder fs p loader).symm
  | workspace found =>
      cases found with
      | error reason => rfl
      | ok m => exact (Plan.follow_inTurn (Plan.follow_ofFolder fs) _ loader).symm

/-! ### Paths that are reached -/

/-- The paths of a list up to the first that fails, which is reached too. -/
def reached (fs : FileSystem) : List FilePath → Loader → List FilePath
  | [], _ => []
  | p :: rest, loader =>
    match addFile fs p loader with
    | (loader, none) => p :: reached fs rest loader
    | (_, some _) => [p]

/-- Makes additions one after another, also after those that fail. -/
def addAll (fs : FileSystem) : List Addition → Loader → Loader
  | [], loader => loader
  | a :: rest, loader => addAll fs rest (a.perform fs loader).1

/-- What each of several additions answers, and the files that are held after it. -/
def answers (fs : FileSystem) : List Addition → Loader → List (Option ExtractError × List Source)
  | [], _ => []
  | a :: rest, loader =>
    ((a.perform fs loader).2, (a.perform fs loader).1.files) ::
      answers fs rest (a.perform fs loader).1

/-- The paths that are reached while additions are made, in order. -/
def history (fs : FileSystem) : List Addition → Loader → List FilePath
  | [], _ => []
  | a :: rest, loader =>
    reached fs (a.plan fs).paths loader ++ history fs rest (a.perform fs loader).1

/-- The loader after a list of paths has been handed over, whatever fails. -/
def handOver (fs : FileSystem) (paths : List FilePath) (loader : Loader) : Loader :=
  paths.foldl (fun loader p => (addFile fs p loader).1) loader

theorem handOver_cons (fs : FileSystem) (p : FilePath) (rest : List FilePath) (loader : Loader) :
    handOver fs (p :: rest) loader = handOver fs rest (addFile fs p loader).1 := rfl

theorem handOver_reached (fs : FileSystem) (paths : List FilePath) (loader : Loader) :
    handOver fs (reached fs paths loader) loader = (addEach (addFile fs) paths loader).1 := by
  induction paths generalizing loader with
  | nil => rfl
  | cons p rest ih =>
      rw [reached, addEach]
      split
      · next after h =>
          rw [handOver_cons, h]
          exact ih after
      · next after e h =>
          rw [handOver_cons, h]
          rfl

theorem perform_fst (fs : FileSystem) (a : Addition) (loader : Loader) :
    (a.perform fs loader).1 = handOver fs (reached fs (a.plan fs).paths loader) loader := by
  rw [Addition.perform_eq_follow, handOver_reached, Plan.follow]
  cases addEach (addFile fs) (a.plan fs).paths loader with
  | mk after failed => cases failed <;> rfl

theorem addAll_eq_handOver (fs : FileSystem) (as : List Addition) (loader : Loader) :
    addAll fs as loader = handOver fs (history fs as loader) loader := by
  induction as generalizing loader with
  | nil => rfl
  | cons a rest ih =>
      rw [addAll, history, ih, perform_fst, handOver, handOver, handOver, List.foldl_append]

/-! ### What is held -/

/-- Sources that are held after paths were reached: those of all files that can
be read, each once and in the order in which they were reached first. -/
structure Holds (fs : FileSystem) (paths : List FilePath) (files : List Source) : Prop where
  once : files.Pairwise fun s t => fs.canonical s.path ≠ fs.canonical t.path
  content : ∀ s ∈ files, ∃ l, fs.canonical s.path = .ok l ∧
    fs.object? l = some (.file s.content.toUTF8)
  first : ∀ s ∈ files, ∃ before after, paths = before ++ s.path :: after ∧
    ∀ p ∈ before, fs.canonical p ≠ fs.canonical s.path
  ordered : (files.map Source.path).Sublist paths
  complete : ∀ p ∈ paths, ∀ text, fs.readText p = .ok text →
    ∃ s ∈ files, fs.canonical s.path = fs.canonical p

/-- What a loader knows of the paths that were handed over. -/
structure Remembers (fs : FileSystem) (paths : List FilePath) (loader : Loader) : Prop where
  holds : Holds fs paths loader.files
  seen : ∀ l, l ∈ loader.seen ↔ ∃ p ∈ paths, fs.canonical p = .ok l

theorem addFile_of_seen {fs : FileSystem} {p : FilePath} {loader : Loader} {l : Location}
    (hp : fs.canonical p = .ok l) (hl : l ∈ loader.seen) : addFile fs p loader = (loader, none) := by
  simp only [addFile, hp, hl, if_true]

theorem addFile_of_unreadable {fs : FileSystem} {p : FilePath} {loader : Loader} {l : Location}
    {e : IoError} (hp : fs.canonical p = .ok l) (hl : l ∉ loader.seen)
    (he : fs.readText p = .error e) :
    addFile fs p loader = (⟨loader.files, l :: loader.seen⟩, some (.io p.text e)) := by
  simp only [addFile, hp, hl, he, if_false]

theorem addFile_of_text {fs : FileSystem} {p : FilePath} {loader : Loader} {l : Location}
    {text : String} (hp : fs.canonical p = .ok l) (hl : l ∉ loader.seen)
    (htext : fs.readText p = .ok text) :
    addFile fs p loader = (⟨loader.files ++ [⟨p, text⟩], l :: loader.seen⟩, none) := by
  simp only [addFile, hp, hl, htext, if_false]

theorem addFile_cases (fs : FileSystem) (p : FilePath) (loader : Loader) :
    (∃ e, fs.canonical p = .error e ∧ addFile fs p loader = (loader, some (.io p.text e))) ∨
    ∃ l, fs.canonical p = .ok l ∧
      ((l ∈ loader.seen ∧ addFile fs p loader = (loader, none)) ∨
      (l ∉ loader.seen ∧ ∃ e, fs.readText p = .error e ∧
        addFile fs p loader = (⟨loader.files, l :: loader.seen⟩, some (.io p.text e))) ∨
      (l ∉ loader.seen ∧ ∃ text, fs.readText p = .ok text ∧
        addFile fs p loader = (⟨loader.files ++ [⟨p, text⟩], l :: loader.seen⟩, none))) := by
  cases hp : fs.canonical p with
  | error e => exact .inl ⟨e, rfl, by simp only [addFile, hp]⟩
  | ok l =>
      refine .inr ⟨l, rfl, ?_⟩
      by_cases hl : l ∈ loader.seen
      · exact .inl ⟨hl, addFile_of_seen hp hl⟩
      · cases hread : fs.readText p with
        | error e => exact .inr (.inl ⟨hl, e, rfl, addFile_of_unreadable hp hl hread⟩)
        | ok text => exact .inr (.inr ⟨hl, text, rfl, addFile_of_text hp hl hread⟩)

namespace Holds

variable {fs : FileSystem} {paths : List FilePath} {files : List Source} {p : FilePath}

theorem empty (fs : FileSystem) : Holds fs [] [] :=
  { once := .nil
    content := by simp
    first := by simp
    ordered := .slnil
    complete := by simp }

/-- A path that adds no file may be reached beside the others, if it cannot be
read or what it leads to is held. -/
theorem reach (h : Holds fs paths files)
    (hp : ∀ text, fs.readText p = .ok text → ∃ s ∈ files, fs.canonical s.path = fs.canonical p) :
    Holds fs (paths ++ [p]) files :=
  { once := h.once
    content := h.content
    first := by
      intro s hs
      obtain ⟨before, after, rfl, hbefore⟩ := h.first s hs
      exact ⟨before, after ++ [p], by simp, hbefore⟩
    ordered := h.ordered.trans (List.sublist_append_left paths [p])
    complete := by
      intro q hq text htext
      rcases List.mem_append.mp hq with hq | hq
      · exact h.complete q hq text htext
      · cases List.mem_singleton.mp hq
        exact hp text htext }

theorem take {text : String} (h : Holds fs paths files) (htext : fs.readText p = .ok text)
    (hnew : ∀ q ∈ paths, fs.canonical q ≠ fs.canonical p) :
    Holds fs (paths ++ [p]) (files ++ [⟨p, text⟩]) :=
  { once := by
      refine List.pairwise_append.mpr ⟨h.once, List.pairwise_singleton _ _, ?_⟩
      intro s hs t ht
      cases List.mem_singleton.mp ht
      exact hnew s.path (h.ordered.subset (List.mem_map_of_mem hs))
    content := by
      intro s hs
      rcases List.mem_append.mp hs with hs | hs
      · exact h.content s hs
      · cases List.mem_singleton.mp hs
        exact FileSystem.readText_eq_ok_iff.mp htext
    first := by
      intro s hs
      rcases List.mem_append.mp hs with hs | hs
      · obtain ⟨before, after, rfl, hbefore⟩ := h.first s hs
        exact ⟨before, after ++ [p], by simp, hbefore⟩
      · cases List.mem_singleton.mp hs
        exact ⟨paths, [], rfl, hnew⟩
    ordered := by
      rw [List.map_append]
      exact h.ordered.append (List.Sublist.refl [p])
    complete := by
      intro q hq text' htext'
      rcases List.mem_append.mp hq with hq | hq
      · obtain ⟨s, hs, hsame⟩ := h.complete q hq text' htext'
        exact ⟨s, List.mem_append_left _ hs, hsame⟩
      · cases List.mem_singleton.mp hq
        exact ⟨⟨p, text⟩, by simp, rfl⟩ }

end Holds

namespace Remembers

variable {fs : FileSystem} {paths : List FilePath} {loader : Loader}

theorem empty (fs : FileSystem) : Remembers fs [] .empty :=
  ⟨.empty fs, by simp [Loader.empty]⟩

private theorem seen_cons {p : FilePath} {l : Location} (h : Remembers fs paths loader)
    (hl : fs.canonical p = .ok l) :
    ∀ m, m ∈ l :: loader.seen ↔ ∃ q ∈ paths ++ [p], fs.canonical q = .ok m := by
  intro m
  rw [List.mem_cons, h.seen, or_comm, eq_comm]
  simp [or_and_right, exists_or, hl]

/-- One path keeps the account, whether it fails or not. -/
theorem addFile (h : Remembers fs paths loader) (p : FilePath) :
    Remembers fs (paths ++ [p]) (Loader.addFile fs p loader).1 := by
  rcases addFile_cases fs p loader with ⟨e, hp, hadd⟩ | ⟨l, hl, hcases⟩
  · rw [hadd]
    refine ⟨h.holds.reach ?_, ?_⟩
    · intro text htext
      obtain ⟨l, hl, -⟩ := FileSystem.readText_eq_ok_iff.mp htext
      rw [hp] at hl
      cases hl
    · intro l
      simp [h.seen, or_and_right, exists_or, hp]
  · rcases hcases with ⟨hseen, hadd⟩ | ⟨hseen, e, he, hadd⟩ | ⟨hseen, text, htext, hadd⟩ <;>
      rw [hadd]
    · obtain ⟨q, hq, hql⟩ := (h.seen l).mp hseen
      refine ⟨h.holds.reach ?_, ?_⟩
      · intro text htext
        rw [hl, ← hql]
        exact h.holds.complete q hq text (FileSystem.readText_eq_of_canonical hl hql htext)
      · intro m
        rw [← seen_cons h hl m, List.mem_cons]
        constructor
        · exact .inr
        · rintro (rfl | hm)
          · exact hseen
          · exact hm
    · refine ⟨h.holds.reach ?_, seen_cons h hl⟩
      intro text htext
      rw [he] at htext
      cases htext
    · refine ⟨h.holds.take htext ?_, seen_cons h hl⟩
      intro q hq hsame
      exact hseen ((h.seen l).mpr ⟨q, hq, hsame.trans hl⟩)

theorem handOver (h : Remembers fs paths loader) (more : List FilePath) :
    Remembers fs (paths ++ more) (Loader.handOver fs more loader) := by
  induction more generalizing paths loader with
  | nil =>
      rw [List.append_nil]
      exact h
  | cons p rest ih =>
      rw [List.append_cons]
      exact ih (h.addFile p)

end Remembers

theorem prefix_addFile_files (fs : FileSystem) (p : FilePath) (loader : Loader) :
    loader.files <+: (addFile fs p loader).1.files := by
  rcases addFile_cases fs p loader with ⟨e, hp, hadd⟩ | ⟨l, hl, hcases⟩
  · exact ⟨[], by simp [hadd]⟩
  · rcases hcases with ⟨-, hadd⟩ | ⟨-, e, -, hadd⟩ | ⟨-, text, -, hadd⟩
    · exact ⟨[], by simp [hadd]⟩
    · exact ⟨[], by simp [hadd]⟩
    · exact ⟨[⟨p, text⟩], by rw [hadd]⟩

theorem prefix_handOver_files (fs : FileSystem) (paths : List FilePath) (loader : Loader) :
    loader.files <+: (handOver fs paths loader).files := by
  induction paths generalizing loader with
  | nil => exact List.prefix_refl _
  | cons p rest ih => exact (prefix_addFile_files fs p loader).trans (ih _)

/-- Every run of additions, continued after failures, leaves the loader with the
files that were reached and can be read: no two at the same location, each with
the content at its location, and each under the spelling by which it was first
reached. A further addition, whether it fails or not, only appends. -/
theorem addAll_holds (fs : FileSystem) (as : List Addition) :
    Holds fs (history fs as .empty) (addAll fs as .empty).files ∧
      addAll fs as .empty = handOver fs (history fs as .empty) .empty ∧
      ∀ a : Addition,
        (addAll fs as .empty).files <+: (a.perform fs (addAll fs as .empty)).1.files := by
  have hstate := addAll_eq_handOver fs as .empty
  refine ⟨?_, hstate, ?_⟩
  · rw [hstate]
    have hremembers := (Remembers.empty fs).handOver (history fs as .empty)
    rw [List.nil_append] at hremembers
    exact hremembers.holds
  · intro a
    rw [perform_fst]
    exact prefix_handOver_files fs _ _

end Loader

end LeafPaths
