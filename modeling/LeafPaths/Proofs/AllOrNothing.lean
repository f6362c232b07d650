import LeafPaths.Program
import LeafPaths.Proofs.FileWrites
import LeafPaths.Proofs.LoadingOrder
import LeafPaths.Proofs.RunOutput

/-!
The program as a whole. Whether a run fails can be told from the file system and
the options without following the run, since no stage changes what a later stage
reads. A run that fails has written nothing, and one that succeeds has written
the records of everything it was asked to load.
-/

namespace LeafPaths

/-! ### What a run is asked to load -/

namespace Program

open Loader (Plan Addition)

variable {env : Environment} {fs : FileSystem} {o : Options} {files : List Source}

/-- The paths that a run goes through: the files, then the sources below the
folders, then those of the workspace, whatever was found of it. -/
def paths (env : Environment) (fs : FileSystem) (o : Options) : List FilePath :=
  o.inputs ++ (o.folders.flatMap fun d => (Plan.ofFolder fs d).paths) ++
    o.workspace?.toList.flatMap fun manifest =>
      ((Addition.workspace (env.metadata fs manifest)).plan fs).paths

/-- The sources of a run that loads everything: those that the paths lead to, each
once. -/
structure Loads (env : Environment) (fs : FileSystem) (o : Options) (files : List Source) :
    Prop where
  holds : Loader.Holds fs (paths env fs o) files
  all : ∀ p ∈ paths env fs o, ∃ s ∈ files, fs.canonical s.path = fs.canonical p

theorem flatMap_additions (env : Environment) (fs : FileSystem) (o : Options) :
    ((additions env fs o).flatMap fun a => (a.plan fs).paths) = paths env fs o := by
  have hinputs : (o.inputs.flatMap fun p => ((Addition.file p).plan fs).paths) = o.inputs := by
    simp [Addition.plan]
  rw [additions, List.flatMap_append, List.flatMap_append, List.flatMap_map, List.flatMap_map,
    List.flatMap_map, hinputs]
  rfl

theorem addEach_additions_cases (env : Environment) (fs : FileSystem) (o : Options) :
    (∀ a ∈ additions env fs o, (a.plan fs).Succeeds fs) ∧
        Loader.addEach (Addition.perform fs) (additions env fs o) .empty =
          (Loader.handOver fs (paths env fs o) .empty, none) ∨
      (¬ ∀ a ∈ additions env fs o, (a.plan fs).Succeeds fs) ∧
        ∃ after e,
          Loader.addEach (Addition.perform fs) (additions env fs o) .empty = (after, some e) := by
  rw [← flatMap_additions]
  exact Loader.addEach_cases (fun a loader => (a.perform_eq_follow fs loader).symm) _

theorem sources_eq_error
    (h : (¬ ∀ a ∈ additions env fs o, (a.plan fs).Succeeds fs) ∨ paths env fs o = []) :
    ∃ e, sources env fs o = .error e := by
  rcases addEach_additions_cases env fs o with ⟨hall, hadd⟩ | ⟨-, after, e, hadd⟩
  · have hnil : paths env fs o = [] := h.resolve_left fun hnot => hnot hall
    refine ⟨.noSources, ?_⟩
    rw [sources, hadd, hnil]
    rfl
  · exact ⟨e, by rw [sources, hadd]⟩

theorem isText_of_mem_paths (hall : ∀ a ∈ additions env fs o, (a.plan fs).Succeeds fs)
    {p : FilePath} (hp : p ∈ paths env fs o) : fs.IsText p := by
  rw [← flatMap_additions, List.mem_flatMap] at hp
  obtain ⟨a, ha, hp⟩ := hp
  exact (hall a ha).readable p hp

theorem sources_eq_ok (hall : ∀ a ∈ additions env fs o, (a.plan fs).Succeeds fs)
    (hne : paths env fs o ≠ []) :
    ∃ files, sources env fs o = .ok files ∧ Loads env fs o files := by
  rcases addEach_additions_cases env fs o with ⟨-, hadd⟩ | ⟨hnot, -⟩
  · have hremembers := (Loader.Remembers.empty fs).handOver (paths env fs o)
    rw [List.nil_append] at hremembers
    have hloads : Loads env fs o (Loader.handOver fs (paths env fs o) .empty).files := by
      refine ⟨hremembers.holds, ?_⟩
      intro p hp
      obtain ⟨text, htext⟩ := isText_of_mem_paths hall hp
      exact hremembers.holds.complete p hp text htext
    refine ⟨_, ?_, hloads⟩
    obtain ⟨p, hp⟩ := List.exists_mem_of_ne_nil _ hne
    obtain ⟨s, hs, -⟩ := hloads.all p hp
    rw [sources, hadd]
    simp [List.ne_nil_of_mem hs]
  · exact absurd hall hnot

/-! ### Runs -/

/-- What makes a run fail. -/
inductive Fails (env : Environment) (fs : FileSystem) (o : Options) : Prop where
  | load (a : Addition) (ha : a ∈ additions env fs o) (hplan : ¬ (a.plan fs).Succeeds fs)
  | noSource (hpaths : paths env fs o = [])
  | pool (reason : String) (hpool : env.startPool (workers env o) = .error reason)
  | parse (hstop : o.keepGoing = false) (p : FilePath) (hp : p ∈ paths env fs o) (text : String)
      (htext : fs.readText p = .ok text) (hbad : ¬ ∃ f, SourceFile.parse text = .ok f)
  | create (p : FilePath) (houtput : o.output? = some p) (e : IoError)
      (hcreate : fs.create p = .error e)

section Stages

variable {w : World}

theorem run_of_sources_error {e : ExtractError} (h : sources env w.files o = .error e) :
    run env o w = (w, .error (.extract e)) := by
  rw [run, h]

theorem run_of_pool_error {reason : String} (h : sources env w.files o = .ok files)
    (hpool : env.startPool (workers env o) = .error reason) :
    run env o w = (w, .error (.pool reason)) := by
  simp only [run, h, hpool]

theorem run_of_started (h : sources env w.files o = .ok files)
    (hpool : env.startPool (workers env o) = .ok ()) :
    run env o w = (config o).runTo files o.output? w := by
  simp only [run, h, hpool]

/-- Sources are extracted before anything is written, so one that is refused leaves everything
as it was. -/
theorem runTo_of_refused (hread : ¬ (o.keepGoing = true ∨ ∀ s ∈ files, s.IsReadable)) :
    ∃ e, (config o).runTo files o.output? w = (w, .error e) := by
  obtain ⟨hgoing, hbad⟩ := not_or.mp hread
  have hstop : (config o).keepGoing = false := eq_false_of_ne_true hgoing
  rcases Source.readable_or_first files with hall | ⟨before, s, rest, e, rfl, hbefore, he⟩
  · exact absurd hall hbad
  · refine ⟨.extract e, ?_⟩
    rw [RunConfig.runTo, hstop, Extraction.ofSources_eq_error hbefore he]

end Stages

/-- The records of sources, as a run writes them. -/
def records (o : Options) (files : List Source) : ByteArray :=
  (Source.rendering (o.format?.getD .raw) files).toUTF8

theorem runTo_of_readable (fs : FileSystem)
    (hread : o.keepGoing = true ∨ ∀ s ∈ files, s.IsReadable) :
    (config o).runTo files o.output? ⟨.unlimited, fs⟩ =
      match o.output? with
      | none => (⟨⟨records o files, none, true⟩, fs⟩, .ok (Source.totals files))
      | some p =>
        match fs.create p with
        | .error e => (⟨.unlimited, fs⟩, .error (.create p e))
        | .ok (l, created) =>
          (⟨.unlimited, created.put l (.file (records o files))⟩, .ok (Source.totals files)) := by
  have hgoing : (config o).keepGoing = true ∨ ∀ s ∈ files, s.IsReadable := hread
  obtain ⟨extraction, hextraction, hcovers⟩ := Extraction.ofSources_eq_ok hgoing
  have hwrite : extraction.write (config o).format .unlimited =
      (⟨records o files, none, true⟩, .ok (Source.totals files)) := by
    have hopen := hcovers.write_open (config o).format .empty
    rw [ByteArray.empty_append] at hopen
    exact hopen
  rw [RunConfig.runTo, hextraction]
  cases o.output? with
  | none => simp only [hwrite]
  | some p =>
      cases hcreate : fs.create p with
      | error e => simp only [hcreate]
      | ok created => simp only [hcreate, hwrite]

theorem Loads.readable_iff (h : Loads env fs o files) :
    (∀ s ∈ files, s.IsReadable) ↔
      ∀ p ∈ paths env fs o, ∀ text, fs.readText p = .ok text →
        ∃ f, SourceFile.parse text = .ok f := by
  constructor
  · intro hall p hp text htext
    obtain ⟨s, hs, hsame⟩ := h.all p hp
    obtain ⟨l, hl, ho⟩ := h.holds.content s hs
    have hcontent := FileSystem.readText_eq_ok_iff.mpr ⟨l, hsame ▸ hl, ho⟩
    rw [htext] at hcontent
    cases hcontent
    exact Source.isReadable_iff.mp (hall s hs)
  · intro hall s hs
    have hpath : s.path ∈ paths env fs o := h.holds.ordered.subset (List.mem_map_of_mem hs)
    have htext := FileSystem.readText_eq_ok_iff.mpr (h.holds.content s hs)
    exact Source.isReadable_iff.mpr (hall s.path hpath s.content htext)

/-- What a run leaves behind that writes the records of some sources. -/
def Delivers (fs : FileSystem) (o : Options) (files : List Source) (outcome : Outcome) : Prop :=
  match o.output? with
  | none => outcome.output = records o files ∧ outcome.files = fs
  | some p => outcome.output = .empty ∧ ∃ l, fs.Written p (records o files) outcome.files l

theorem Fails.of_refused (hloads : Loads env fs o files)
    (hread : ¬ (o.keepGoing = true ∨ ∀ s ∈ files, s.IsReadable)) : Fails env fs o := by
  rw [hloads.readable_iff] at hread
  obtain ⟨hgoing, hbad⟩ := not_or.mp hread
  simp only [Classical.not_forall] at hbad
  obtain ⟨p, hp, text, htext, hbad⟩ := hbad
  exact .parse (eq_false_of_ne_true hgoing) p hp text htext hbad

theorem not_fails (hall : ∀ a ∈ additions env fs o, (a.plan fs).Succeeds fs)
    (hne : paths env fs o ≠ []) (hpool : env.startPool (workers env o) = .ok ())
    (hloads : Loads env fs o files) (hread : o.keepGoing = true ∨ ∀ s ∈ files, s.IsReadable)
    (hcreate : ∀ p, o.output? = some p → ∃ created, fs.create p = .ok created) :
    ¬ Fails env fs o := by
  intro hfails
  cases hfails with
  | load a ha hplan => exact hplan (hall a ha)
  | noSource hpaths => exact hne hpaths
  | pool reason hnot =>
      rw [hpool] at hnot
      cases hnot
  | parse hstop p hp text htext hbad =>
      rcases hread with hgoing | hread
      · rw [hstop] at hgoing
        cases hgoing
      · exact hbad (hloads.readable_iff.mp hread p hp text htext)
  | create p houtput e hnot =>
      obtain ⟨created, hok⟩ := hcreate p houtput
      rw [hok] at hnot
      cases hnot

/-- Either something makes a run fail, and it leaves the world as it was, or nothing
does, and the records of all sources are delivered. -/
theorem run_cases (env : Environment) (fs : FileSystem) (o : Options) :
    Fails env fs o ∧ (∃ e, run env o ⟨.unlimited, fs⟩ = (⟨.unlimited, fs⟩, .error e)) ∨
      ¬ Fails env fs o ∧ ∃ w files, run env o ⟨.unlimited, fs⟩ = (w, .ok (Source.totals files)) ∧
        sources env fs o = .ok files ∧ Loads env fs o files ∧
        Delivers fs o files ⟨0, w.stdout.accepted, none, w.files⟩ := by
  by_cases hall : ∀ a ∈ additions env fs o, (a.plan fs).Succeeds fs
  case neg =>
    obtain ⟨e, he⟩ := sources_eq_error (.inl hall)
    simp only [Classical.not_forall] at hall
    obtain ⟨a, ha, hplan⟩ := hall
    exact .inl ⟨.load a ha hplan, _, run_of_sources_error he⟩
  by_cases hne : paths env fs o = []
  case pos =>
    obtain ⟨e, he⟩ := sources_eq_error (.inr hne)
    exact .inl ⟨.noSource hne, _, run_of_sources_error he⟩
  obtain ⟨files, hsources, hloads⟩ := sources_eq_ok hall hne
  cases hpool : env.startPool (workers env o) with
  | error reason => exact .inl ⟨.pool reason hpool, _, run_of_pool_error hsources hpool⟩
  | ok =>
    have hrun := run_of_started (w := ⟨.unlimited, fs⟩) hsources hpool
    by_cases hread : o.keepGoing = true ∨ ∀ s ∈ files, s.IsReadable
    case neg =>
      obtain ⟨e, he⟩ := runTo_of_refused (w := ⟨.unlimited, fs⟩) hread
      exact .inl ⟨.of_refused hloads hread, e, hrun.trans he⟩
    have hnot := not_fails hall hne hpool hloads hread
    rw [runTo_of_readable fs hread] at hrun
    cases houtput : o.output? with
    | none =>
        rw [houtput] at hrun
        refine .inr ⟨hnot (by simp [houtput]), _, files, hrun, hsources, hloads, ?_⟩
        rw [Delivers, houtput]
        exact ⟨rfl, rfl⟩
    | some p =>
        rw [houtput] at hrun
        rcases fs.create_error_or_written p with ⟨e, he⟩ | ⟨l, created, hok, hwritten⟩
        · simp only [he] at hrun
          exact .inl ⟨.create p houtput e he, _, hrun⟩
        · simp only [hok] at hrun
          refine .inr ⟨hnot ?_, _, files, hrun, hsources, hloads, ?_⟩
          · intro q hq
            rw [houtput] at hq
            cases hq
            exact ⟨_, hok⟩
          · rw [Delivers, houtput]
            exact ⟨rfl, l, hwritten _⟩

/-- The program does all that its options ask for, or nothing, whatever is found of a
workspace. It fails exactly if something cannot be loaded, there is no source, the workers
cannot be started, a source cannot be read and the run is not to keep going, or the output
cannot be created; then nothing is printed and the file system is as before. Otherwise the
records of all sources are printed, and nothing else changes, or they are the whole content of
the file that the output leads to, which is all that changes, even if it is one of the sources. -/
theorem answer_all_or_nothing (env : Environment) (fs : FileSystem) {args : List String}
    {o : Options} (h : CommandLine.parse args = .ok o) :
    ((answer env fs args).code ≠ 0 ↔ Fails env fs o) ∧
      ((answer env fs args).code ≠ 0 →
        (answer env fs args).output = .empty ∧ (answer env fs args).files = fs) ∧
      ((answer env fs args).code = 0 →
        ∃ files, sources env fs o = .ok files ∧ Loads env fs o files ∧
          Delivers fs o files (answer env fs args)) := by
  have hanswer : answer env fs args = .ofRun (run env o ⟨.unlimited, fs⟩) := by rw [answer, h]
  rw [hanswer]
  rcases run_cases env fs o with ⟨hfails, e, he⟩ | ⟨hnot, w, files, hrun, hdone⟩
  · rw [he]
    simp [Outcome.ofRun, Sink.unlimited, hfails]
  · rw [hrun]
    refine ⟨?_, ?_, fun _ => ⟨files, hdone⟩⟩
    · simp [Outcome.ofRun, hnot]
    · intro hne
      exact absurd rfl hne

/-- The output may be a link to the only source; the workspace adds none, since its library is for
other languages only. With a manifest that does not exist everything stays as it is. -/
theorem answer_all_or_nothing_workspace :
    let source := "fn f(a:u8)\x7b\x7d"
    let text := "f,[Ident]UP[FunctionDecl]DOWN[Params]DOWN[Param]DOWN[Ident],a\n" ++
      "f,[Ident]UP[FunctionDecl]DOWN[Params]DOWN[Param]DOWN[Ident],u8\n" ++
      "a,[Ident]UP[Param]DOWN[Ident],u8\n"
    let manifest :=
      "[package]\nname = \"p\"\n[lib]\npath = \"a.rs\"\ncrate-type = [\"cdylib\"]\n"
    let fs : FileSystem :=
      ⟨[(["Cargo.toml"], .file manifest.toUTF8), (["a.rs"], .file source.toUTF8),
        (["out"], .link ⟨"a.rs"⟩)], []⟩
    let found : Metadata := ⟨["path+file:///#p@0.0.0"],
      [⟨"path+file:///#p@0.0.0", [⟨["cdylib"], ⟨"/a.rs"⟩⟩]⟩]⟩
    let env : Environment :=
      { metadata := fun _ path =>
          if path = ⟨"Cargo.toml"⟩ then .ok found else .error "the manifest does not exist"
        cores := 4
        startPool := fun _ => .ok ()
        helpText := fun _ => "" }
    let done := answer env fs ["-i", "a.rs", "--workspace", "Cargo.toml", "-o", "out"]
    let failed := answer env fs ["-i", "a.rs", "--workspace", "b/Cargo.toml", "-o", "out"]
    (done.code = 0 ∧ done.output = .empty ∧
      done.files.object? ["a.rs"] = some (.file text.toUTF8) ∧
      done.files.object? ["out"] = some (.link ⟨"a.rs"⟩)) ∧
    (failed.code ≠ 0 ∧ failed.output = .empty ∧ failed.files = fs) := by
  intro source text manifest fs found env done failed
  constructor
  · let o : Options :=
      ⟨[⟨"a.rs"⟩], [], some ⟨"Cargo.toml"⟩, some ⟨"out"⟩, none, none, false, 0⟩
    let good : Source := ⟨⟨"a.rs"⟩, source⟩
    have hargs : CommandLine.parse
        ["-i", "a.rs", "--workspace", "Cargo.toml", "-o", "out"] = .ok o := by rfl
    have hfile : fs.canonical ⟨"a.rs"⟩ = .ok ["a.rs"] :=
      FileSystem.canonical_of_file (by decide) rfl rfl
    have hlink : fs.canonical ⟨"out"⟩ = .ok ["a.rs"] := by
      have hr : fs.resolve ⟨"out"⟩ = .ok ⟨1, ["a.rs"]⟩ := by
        rw [FileSystem.resolve_name fs (by decide),
          FileSystem.walk_link rfl (by decide) rfl (by decide), FilePath.parts_name (by decide)]
        exact (FileSystem.walk_name rfl (by decide) rfl (by simp) 1 []).trans (fs.walk_nil 1 _)
      exact FileSystem.canonical_eq_ok_iff.mpr ⟨_, hr, rfl⟩
    have hsources : sources env fs o = .ok [good] := by
      have htext : fs.readText ⟨"a.rs"⟩ = .ok source :=
        FileSystem.readText_eq_ok_iff.mpr ⟨_, hfile, rfl⟩
      have hadditions : additions env fs o = [.file ⟨"a.rs"⟩, .workspace (.ok found)] := by
        simp [additions, o, env]
      have hfolders : found.folders = [] := by decide
      have hadd : Loader.addFile fs ⟨"a.rs"⟩ .empty = (⟨[good], [["a.rs"]]⟩, none) :=
        Loader.addFile_of_text hfile (by simp [Loader.empty]) htext
      simp only [sources, hadditions, Loader.addEach, Addition.perform, hadd, Loader.addWorkspace,
        hfolders]
      rfl
    have hgood : good.IsReadable := by
      rw [Source.isReadable_iff_isOk]
      decide +kernel
    have hrecords : records o [good] = text.toUTF8 := by
      have htext : Source.rendering .raw [good] = text := by decide +kernel
      exact congrArg String.toUTF8 htext
    have hdestination : fs.destination 0 [] ⟨"out"⟩ = .ok ["a.rs"] := by
      have hparts : ∀ name, FilePath.isName name = true →
          (⟨name⟩ : FilePath).parts = [] ++ [name] := fun name => FilePath.parts_name
      rw [FileSystem.destination_of_parts (hparts "out" (by decide)) (by decide) (fs.walk_nil 0 [])
        rfl]
      exact FileSystem.destination_of_parts (hparts "a.rs" (by decide)) (by decide)
        (fs.walk_nil 1 []) rfl
    have hcode : done.code = 0 := by
      have hcreate : fs.create ⟨"out"⟩ = .ok (["a.rs"], fs.put ["a.rs"] (.file .empty)) := by
        rw [FileSystem.create, if_neg (by decide)]
        exact congrArg (Except.map _) hdestination
      have hread : o.keepGoing = true ∨ ∀ s ∈ [good], s.IsReadable := .inr (by simpa using hgood)
      have hrun := runTo_of_readable fs hread
      have houtput : o.output? = some ⟨"out"⟩ := rfl
      simp only [houtput, hcreate] at hrun
      have hdone : done = .ofRun (run env o ⟨.unlimited, fs⟩) := by
        simp only [done, answer, hargs]
      rw [hdone, run_of_started hsources rfl, hrun, Outcome.ofRun]
    obtain ⟨-, -, hdone⟩ := answer_all_or_nothing env fs hargs
    obtain ⟨files, hfiles, -, houtput, l, hwritten⟩ := hdone hcode
    rw [hsources] at hfiles
    cases hfiles
    have hl : ["a.rs"] = l := hwritten.led _ hlink
    subst hl
    refine ⟨hcode, houtput, ?_, ?_⟩
    · rw [hwritten.content, hrecords]
    · rw [hwritten.others _ (by decide)]
      rfl
  · let o : Options :=
      ⟨[⟨"a.rs"⟩], [], some ⟨"b/Cargo.toml"⟩, some ⟨"out"⟩, none, none, false, 0⟩
    have hargs : CommandLine.parse
        ["-i", "a.rs", "--workspace", "b/Cargo.toml", "-o", "out"] = .ok o := by rfl
    have hfails : Fails env fs o := by
      refine .load (.workspace (.error "the manifest does not exist")) ?_ ?_
      · simp [additions, o, env]
      · intro h
        cases h.noFailure
    obtain ⟨hcode, hnothing, -⟩ := answer_all_or_nothing env fs hargs
    have hne := hcode.mpr hfails
    exact ⟨hne, hnothing hne⟩

end Program

end LeafPaths
