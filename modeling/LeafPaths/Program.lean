import LeafPaths.CommandLine
import LeafPaths.Run

/-!
The whole program, from the command line to what it prints and changes.

The stages follow one another: options, sources, workers, extraction, output. Each may fail, and
what the program has printed and changed by then is what it leaves behind. What it asks of others
is given by an `Environment`, of which nothing is assumed but that asking changes no file.
-/

namespace LeafPaths

/-- What the program relies on without deciding it. -/
structure Environment where
  /-- The answer of `cargo metadata` for a manifest. -/
  metadata : FileSystem → FilePath → Except String Metadata
  cores : Nat
  /-- Starts that many workers, or tells why they cannot be started. -/
  startPool : Nat → Except String Unit
  helpText : Bool → String

structure Outcome where
  code : Nat
  output : ByteArray
  error? : Option RunError
  files : FileSystem

def Outcome.ofRun : World × Except RunError Summary → Outcome
  | (w, .error e) => ⟨1, w.stdout.accepted, some e, w.files⟩
  | (w, .ok _) => ⟨0, w.stdout.accepted, none, w.files⟩

namespace Program

def versionLine : String := "pathctx 0.1.0\n"

def additions (env : Environment) (fs : FileSystem) (o : Options) : List Loader.Addition :=
  o.inputs.map .file ++ o.folders.map .folder ++
    o.workspace?.toList.map fun manifest => .workspace (env.metadata fs manifest)

def sources (env : Environment) (fs : FileSystem) (o : Options) :
    Except ExtractError (List Source) :=
  match Loader.addEach (Loader.Addition.perform fs) (additions env fs o) .empty with
  | (_, some e) => .error e
  | (loader, none) => if loader.files.isEmpty then .error .noSources else .ok loader.files

/-- `init_thread_pool`: half the cores work unless a number is asked for; zero asks for none. -/
def workers (env : Environment) (o : Options) : Nat :=
  match o.jobs? with
  | some (n + 1) => n + 1
  | _ => max 1 (env.cores / 2)

def config (o : Options) : RunConfig := ⟨o.format?.getD .raw, o.keepGoing⟩

/-- `main` behind the reading of the options. The number of workers changes no answer. -/
def run (env : Environment) (o : Options) (w : World) : World × Except RunError Summary :=
  match sources env w.files o with
  | .error e => (w, .error (.extract e))
  | .ok sources =>
    match env.startPool (workers env o) with
    | .error reason => (w, .error (.pool reason))
    | .ok () => (config o).runTo sources o.output? w

def answer (env : Environment) (fs : FileSystem) (args : List String) : Outcome :=
  match CommandLine.parse args with
  | .ok o => .ofRun (run env o ⟨.unlimited, fs⟩)
  | .error .version => ⟨0, versionLine.toUTF8, none, fs⟩
  | .error (.help isLong) => ⟨0, (env.helpText isLong).toUTF8, none, fs⟩
  | .error (.misuse _) => ⟨2, .empty, none, fs⟩

end Program

end LeafPaths
