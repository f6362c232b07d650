import LeafPaths.Extraction
import LeafPaths.FileSystem.Change
import LeafPaths.Sink

/-!
A run: sources are extracted and their contexts written.

Nothing is written, and no file is created, before all sources have been extracted.
-/

namespace LeafPaths

inductive RunError where
  | extract (cause : ExtractError)
  | pool (reason : String)
  | create (path : FilePath) (cause : IoError)
  | write (source : FilePath) (cause : SinkError)
  | flush (cause : SinkError)
deriving DecidableEq, Repr, Inhabited

/-- What is told about a failure, from the outermost account to the innermost cause. -/
def RunError.chain : RunError → List String
  | extract (.io path cause) => [(ExtractError.io path cause).message, cause.message]
  | extract cause => [cause.message]
  | pool reason => [reason]
  | create path cause => ["cannot create " ++ path.text, cause.message]
  | write source cause => ["failed to write path-contexts of " ++ source.text, cause.message]
  | flush cause => ["failed to flush output", cause.message]

/-- `ExtractConfig`, without the number of workers. -/
structure RunConfig where
  format : Format
  keepGoing : Bool
deriving DecidableEq, Repr, Inhabited

/-- Whether a format hands over each source on its own. -/
def Format.flushesEach : Format → Bool
  | csv => true
  | raw | jsonl => false

namespace Extraction

/-- `ContextExporter::export`: writes the contexts of one source, piece by piece. -/
def writeFile (format : Format) (f : FileContexts) (sink : Sink) :
    Sink × Except SinkError Unit :=
  match sink.writeEach (format.pieces f.triples) with
  | (sink, .error e) => (sink, .error e)
  | (sink, .ok ()) => (sink, if format.flushesEach then sink.flush else .ok ())

def writeFiles (format : Format) : List FileContexts → Sink → Sink × Except RunError Unit
  | [], sink => (sink, .ok ())
  | f :: rest, sink =>
    match writeFile format f sink with
    | (sink, .error e) => (sink, .error (.write f.path e))
    | (sink, .ok ()) => writeFiles format rest sink

def summary (e : Extraction) : Summary :=
  { files := e.files.length
    skipped := e.skipped
    functions := e.files.foldl (fun n f => n + f.functions) 0
    triples := e.files.foldl (fun n f => n + f.triples.length) 0 }

/-- `export`: writes an extraction and flushes the sink at the end. -/
def write (format : Format) (e : Extraction) (sink : Sink) : Sink × Except RunError Summary :=
  match writeFiles format e.files sink with
  | (sink, .error err) => (sink, .error err)
  | (sink, .ok ()) =>
    match sink.flush with
    | .error err => (sink, .error (.flush err))
    | .ok () => (sink, .ok e.summary)

end Extraction

structure World where
  stdout : Sink
  files : FileSystem

namespace RunConfig

/-- `run`: extracts sources and writes their contexts to a sink. -/
def run (c : RunConfig) (sources : List Source) (sink : Sink) : Sink × Except RunError Summary :=
  match Extraction.ofSources c.keepGoing sources with
  | .error e => (sink, .error (.extract e))
  | .ok e => e.write c.format sink

/-- `run_to`: like `run`, but to the file at a path or, without one, to the standard output. Files
take everything. -/
def runTo (c : RunConfig) (sources : List Source) (output? : Option FilePath) (w : World) :
    World × Except RunError Summary :=
  match Extraction.ofSources c.keepGoing sources with
  | .error e => (w, .error (.extract e))
  | .ok e =>
    match output? with
    | none =>
      let (stdout, result) := e.write c.format w.stdout
      ({ w with stdout }, result)
    | some path =>
      match w.files.create path with
      | .error err => (w, .error (.create path err))
      | .ok (l, created) =>
        let (file, result) := e.write c.format .unlimited
        ({ w with files := created.put l (.file file.accepted) }, result)

end RunConfig

end LeafPaths
