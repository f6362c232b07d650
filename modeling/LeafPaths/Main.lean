import LeafPaths.Program
import LeafPaths.Workspace

/-!
The command line.

The program is a function of the file system. Here the folders and files that the arguments lead to
are looked up, the program is run on what was found, and what it answers is carried out.
-/

namespace LeafPaths.Survey

/-- What has been found of the file system, the folders that have been listed, and those of which
also the files have been read. -/
structure State where
  fs : FileSystem
  listed : List Location
  explored : List Location

abbrev SurveyM := StateT State IO

def record (l : Location) (o : Object) : SurveyM Unit :=
  modify fun s => { s with fs := s.fs.put l o }

def textOf (l : Location) : String := (FilePath.ofNames l).text

def namesOf (text : String) : Location := (⟨text⟩ : FilePath).steps

def isInteresting (name : String) : Bool := FilePath.isSourceName name || name == "Cargo.toml"

/-- Records what a folder holds, unless that was done before. A link is recorded with the place
that it leads to in the end; one that leads nowhere is left out, and files are still empty. -/
def listFolder (l : Location) : SurveyM Unit := do
  if (← get).listed.contains l then return
  modify fun s => { s with listed := l :: s.listed }
  let folder ← IO.FS.realPath (textOf l)
  let entries ← try folder.readDir catch _ => pure #[]
  for entry in entries do
    let here := l ++ [entry.fileName]
    match (← entry.path.symlinkMetadata).type with
    | .dir => record here .folder
    | .symlink =>
      if ← entry.path.pathExists then
        record here (.link ⟨(← IO.FS.realPath entry.path).toString⟩)
    | _ => record here (.file .empty)

def readFile (l : Location) : SurveyM Unit := do
  record l (.file (← IO.FS.readBinFile (textOf l)))

partial def follow (here : Location) : List String → SurveyM (Option Location)
  | [] => return some here
  | part :: rest => do
    if part = "" ∨ part = "." then follow here rest
    else if part = ".." then follow here.dropLast rest
    else
      listFolder here
      match (← get).fs.object? (here ++ [part]) with
      | some (.link target) =>
        match ← follow [] target.parts with
        | some l => follow l rest
        | none => return none
      | some .folder => follow (here ++ [part]) rest
      | some (.file _) => return if rest.isEmpty then some (here ++ [part]) else none
      | none => return none

partial def explore (l : Location) : SurveyM Unit := do
  unless (← get).explored.contains l do
    modify fun s => { s with explored := l :: s.explored }
    listFolder l
    let fs := (← get).fs
    for name in fs.namesAt l do
      match fs.object? (l ++ [name]) with
      | some .folder => explore (l ++ [name])
      | some (.file _) => if isInteresting name then readFile (l ++ [name])
      | some (.link target) =>
        if let some below ← follow [] target.parts then
          match (← get).fs.object? below with
          | some .folder => explore below
          | some (.file _) => if isInteresting name then readFile below
          | _ => pure ()
      | none => pure ()

def locate (p : FilePath) : SurveyM (Option Location) := do
  follow (p.base (← get).fs.workingFolder) p.parts

def surveyFile (p : FilePath) : SurveyM Unit := do
  if let some l ← locate p then
    if let some (.file _) := (← get).fs.object? l then readFile l

def surveyFolder (p : FilePath) : SurveyM Unit := do
  if let some l ← locate p then
    match (← get).fs.object? l with
    | some .folder => explore l
    | some (.file _) => readFile l
    | _ => pure ()

/-- Looks at the folder of a manifest, and at those above it that hold a manifest. -/
def surveyWorkspace (manifest : FilePath) : SurveyM Unit := do
  let folder := (manifest.flatten (← get).fs.workingFolder).dropLast
  for above in folder :: Workspace.above folder.length folder do
    if let some l ← locate (.ofNames above) then
      if (← locate (.ofNames (above ++ ["Cargo.toml"]))).isSome then explore l

def survey (o : Options) : SurveyM Unit := do
  discard (follow [] (← get).fs.workingFolder)
  o.inputs.forM surveyFile
  o.folders.forM surveyFolder
  o.workspace?.forM surveyWorkspace
  o.output?.forM surveyFile

end LeafPaths.Survey

namespace LeafPaths

/-- How the error stream tells why a run failed: the account first, then the causes, numbered if
there are several. -/
def RunError.report (e : RunError) : String :=
  match e.chain with
  | [] => ""
  | [account] => s!"Error: {account}\n"
  | [account, cause] => s!"Error: {account}\n\nCaused by:\n    {cause}\n"
  | account :: causes =>
    let lines := causes.zipIdx.map fun (cause, i) => s!"    {i}: {cause}\n"
    s!"Error: {account}\n\nCaused by:\n" ++ String.join lines

def writeBack (before after : FileSystem) (p : FilePath) : IO Unit := do
  if let .ok content := after.read p then
    let same := match before.read p with
      | .ok old => old == content
      | .error _ => false
    unless same do IO.FS.writeBinFile p.text content

def aboutText : String :=
  "pathctx - Extracts AST path-contexts (token, path, token) from Rust functions for " ++
    "code-representation models.\n\nUsage: pathctx [OPTIONS]\n\nOptions:\n"

def shortHelp : String :=
  aboutText ++
  "  -i, --input <INPUT>          Input source file path (can specify multiple)\n" ++
  "  -d, --folder <FOLDER>        Input source folder(s), searched recursively for .rs files\n" ++
  "      --workspace <WORKSPACE>  Workspace Cargo.toml; every member's sources are included\n" ++
  "  -o, --output <OUTPUT>        Output file path (stdout when omitted)\n" ++
  "  -f, --format <FORMAT>        Output format [default: raw] [possible values: raw, csv, jsonl]\n" ++
  "  -j, --jobs <JOBS>            Worker threads (default: half the cores)\n" ++
  "      --keep-going             Skip files that fail to parse instead of aborting\n" ++
  "  -v, --verbose...             Increase log verbosity (-v info, -vv debug, -vvv trace)\n" ++
  "  -h, --help                   Print help (see more with '--help')\n" ++
  "  -V, --version                Print version\n"

def longHelp : String :=
  aboutText ++
  "  -i, --input <INPUT>\n          Input source file path (can specify multiple)\n\n" ++
  "  -d, --folder <FOLDER>\n" ++
  "          Input source folder(s), searched recursively for .rs files\n\n" ++
  "      --workspace <WORKSPACE>\n" ++
  "          Workspace Cargo.toml; every member's sources are included\n\n" ++
  "  -o, --output <OUTPUT>\n          Output file path (stdout when omitted)\n\n" ++
  "  -f, --format <FORMAT>\n          Output format\n          \n          [default: raw]\n\n" ++
  "          Possible values:\n" ++
  "          - raw:   `left,path,right`, unescaped\n" ++
  "          - csv:   RFC 4180 quoting where a field needs it\n" ++
  "          - jsonl: One JSON object per line\n\n" ++
  "  -j, --jobs <JOBS>\n          Worker threads (default: half the cores)\n\n" ++
  "      --keep-going\n          Skip files that fail to parse instead of aborting\n\n" ++
  "  -v, --verbose...\n" ++
  "          Increase log verbosity (-v info, -vv debug, -vvv trace)\n\n" ++
  "  -h, --help\n          Print help (see a summary with '-h')\n\n" ++
  "  -V, --version\n          Print version\n"

/-- Manifests are read here, and sources are extracted one after another, by no workers. -/
def environment : Environment where
  metadata := Workspace.load
  cores := 1
  startPool := fun _ => .ok ()
  helpText := fun isLong => if isLong then longHelp else shortHelp

def Options.execute (o : Options) : IO UInt32 := do
  let here := Survey.namesOf (← IO.FS.realPath ".").toString
  let start : Survey.State := ⟨⟨[], here⟩, [], []⟩
  let (_, found) ← (Survey.survey o).run start
  let outcome := Outcome.ofRun (Program.run environment o ⟨.unlimited, found.fs⟩)
  (← IO.getStdout).write outcome.output
  o.output?.forM (writeBack found.fs outcome.files)
  outcome.error?.forM fun e => IO.eprint e.report
  return outcome.code.toUInt32

end LeafPaths

open LeafPaths in
def main (args : List String) : IO UInt32 := do
  match CommandLine.parse args with
  | .ok o => o.execute
  | .error _ =>
    let outcome := Program.answer environment ⟨[], []⟩ args
    (← IO.getStdout).write outcome.output
    if outcome.code ≠ 0 then IO.eprintln "error: the arguments cannot be understood"
    return outcome.code.toUInt32
