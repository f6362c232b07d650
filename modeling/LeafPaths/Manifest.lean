import LeafPaths.Glob
import LeafPaths.Package
import LeafPaths.Toml.Reader
import LeafPaths.Version

/-!
Manifests: the package that one describes, where the code of that package begins, and the members
of the workspace that it opens.

The targets of a package are its library and what is found at the usual places for programs,
examples, tests and benchmarks.
-/

namespace LeafPaths

structure Manifest where
  package? : Option Package
  members? : Option (List String)
deriving DecidableEq, Repr, Inhabited

inductive Edition where
  | year2015
  | year2018
  | year2021
  | year2024
deriving DecidableEq, Repr, Inhabited

def Edition.ofString? : String → Option Edition
  | "2015" => some year2015
  | "2018" => some year2018
  | "2021" => some year2021
  | "2024" => some year2024
  | _ => none

namespace Manifest

def hasEntry (fs : FileSystem) (names : List String) : Bool :=
  (fs.objectOf? (.ofNames names)).isSome

def located (folder : List String) (path : FilePath) : FilePath :=
  let path := path.tidy
  if path.isAbsolute then path
  else if path.text = "" then .ofNames folder
  else (FilePath.ofNames folder).join path.text

/-! ### Targets -/

/-- A target at a usual place in a folder: a folder with a main file has its own name, and a source
file has its name without the ending. -/
def inferred? (fs : FileSystem) (folder : List String) (name : String) :
    Option (String × FilePath) :=
  if name.startsWith "." then none
  else
    match fs.entry? (.ofNames folder) name with
    | some .folder =>
      let main := folder ++ [name, "main.rs"]
      if hasEntry fs main then some (name, .ofNames main) else none
    | _ =>
      if FilePath.isSourceName name then
        some ((name.dropEnd 3).toString, .ofNames (folder ++ [name]))
      else none

def inferredIn (fs : FileSystem) (folder : List String) : List (String × FilePath) :=
  (fs.names (.ofNames folder)).filterMap (inferred? fs folder)

def isSpace (c : Char) : Bool := Lexeme.isBlank c && c != '\u200e' && c != '\u200f'

def trim (s : String) : List Char :=
  ((s.toList.dropWhile isSpace).reverse.dropWhile isSpace).reverse

/-- Targets of one kind by name. No two have the same name, and none has a blank one. -/
def named (kind : String) (found : List (String × FilePath)) : Except String (List Target) := do
  let sorted := found.mergeSort fun a b => a.1 ≤ b.1
  let names := sorted.map (·.1)
  if names.any fun n => (trim n).isEmpty then throw "the name of a target is blank"
  if names.eraseDups.length < names.length then throw "two targets have the same name"
  return sorted.map fun p => ⟨[kind], p.2⟩

def reserved : List String := ["build", "deps", "examples", "incremental"]

/-- The programs of a package: the main one has the name of the package. -/
def programs (fs : FileSystem) (folder : List String) (name : String) :
    Except String (List Target) := do
  let main := folder ++ ["src", "main.rs"]
  let found := (if hasEntry fs main then [(name, .ofNames main)] else []) ++
    inferredIn fs (folder ++ ["src", "bin"])
  if found.any fun p => reserved.contains p.1 then throw "the name of a program is reserved"
  named "bin" found

def others (fs : FileSystem) (folder : List String) : Except String (List Target) := do
  let places := [("examples", "example"), ("tests", "test"), ("benches", "bench")]
  return (← places.mapM fun (place, kind) => named kind (inferredIn fs (folder ++ [place]))).flatten

/-! ### The library -/

/-- A setting that has a hyphen in its name. Before 2024 an underscore may stand in its place. -/
def setting (edition : Edition) (lib : Toml) (hyphen underscore : String) :
    Except String (Option Toml) := do
  let old := lib.get? [underscore]
  if old.isSome && edition = .year2024 then throw "a setting has an underscore in its name"
  return (lib.get? [hyphen]).or old

def checkLibrary (lib : Toml) : Except String Unit := do
  unless lib.isTable do throw "the library is a table"
  for key in ["crate-type", "crate_type"] do
    unless (lib.get? [key]).all fun v => v.texts?.isSome do
      throw "the kinds of a library are a list of texts"
  for key in ["proc-macro", "proc_macro"] do
    unless (lib.get? [key]).all (fun | .flag _ => true | _ => false) do
      throw "whether a library holds macros is a flag"
  unless (lib.get? ["path"]).all (fun | .text _ => true | _ => false) do
    throw "the path of a library is a text"

def libraryKinds (edition : Edition) (lib : Toml) : Except String (List String) := do
  let kinds ← setting edition lib "crate-type" "crate_type"
  let holdsMacros ← setting edition lib "proc-macro" "proc_macro"
  match kinds.bind Toml.texts?, holdsMacros with
  | some kinds, _ =>
    if kinds.contains "dylib" && kinds.contains "cdylib" then
      throw "a library cannot be of both dynamic kinds"
    else if kinds.contains "proc-macro" && kinds.length > 1 then
      throw "a macro library has no other kind"
    else return kinds
  | none, some (.flag true) => return ["proc-macro"]
  | none, _ => return ["lib"]

/-- Where a library begins whose manifest does not say so: at the usual place or, in 2015, at a
file with its name. -/
def librarySource? (fs : FileSystem) (folder : List String) (edition : Edition) (name : String) :
    Option FilePath :=
  let usual := folder ++ ["src", "lib.rs"]
  let identifier := String.ofList (name.toList.map fun c => if c = '-' then '_' else c)
  let own := folder ++ ["src", identifier ++ ".rs"]
  if hasEntry fs usual then some (.ofNames usual)
  else if edition = .year2015 && hasEntry fs own then some (.ofNames own)
  else none

/-- The library of a package: its section in the manifest, or a file at the usual place. -/
def library? (fs : FileSystem) (folder : List String) (edition : Edition) (name : String)
    (toml : Toml) : Except String (Option Target) := do
  match toml.get? ["lib"] with
  | none =>
    let usual := folder ++ ["src", "lib.rs"]
    return if hasEntry fs usual then some ⟨["lib"], .ofNames usual⟩ else none
  | some lib =>
    checkLibrary lib
    let kinds ← libraryKinds edition lib
    match lib.get? ["path"], librarySource? fs folder edition name with
    | some (.text p), _ => return some ⟨kinds, located folder ⟨p⟩⟩
    | _, some source => return some ⟨kinds, source⟩
    | _, none => throw "the library has no source"

/-! ### The package -/

def isPackageName (s : String) : Bool :=
  match s.toList with
  | [] => false
  | c :: cs => Lexeme.isIdentStart c && cs.all fun c => Lexeme.isIdentContinue c || c == '-'

def packageName (toml : Toml) : Except String String :=
  match toml.get? ["package", "name"] with
  | some (.text name) =>
    if isPackageName name then .ok name else .error "the name of the package is not valid"
  | _ => .error "the package has no name"

def edition (toml : Toml) : Except String Edition :=
  match toml.get? ["package", "edition"] with
  | none => .ok .year2015
  | some (.text s) =>
    match Edition.ofString? s with
    | some e => .ok e
    | none => .error "the edition is not known"
  | some _ => .error "the edition is a text"

def checkVersion (toml : Toml) : Except String Unit :=
  match toml.get? ["package", "version"] with
  | none => .ok ()
  | some (.text s) =>
    if Version.isValid (trim s) then .ok () else .error "the version is not valid"
  | some _ => .error "the version is a text"

/-- The package that a manifest in a folder describes. It must have something to build. -/
def package (fs : FileSystem) (folder : List String) (toml : Toml) : Except String Package := do
  let name ← packageName toml
  let edition ← edition toml
  checkVersion toml
  let library ← library? fs folder edition name toml
  let programs ← programs fs folder name
  let targets := library.toList ++ programs ++ (← others fs folder)
  if targets.isEmpty then throw "the package has no targets"
  return ⟨name, targets⟩

/-! ### The workspace -/

def resolvers : List String := ["1", "2", "3"]

def members (workspace : Toml) : Except String (List String) := do
  unless workspace.isTable do throw "the workspace is a table"
  match workspace.get? ["resolver"] with
  | none => pure ()
  | some (.text r) => unless resolvers.contains r do throw "the resolver is not known"
  | some _ => throw "the resolver is a text"
  match workspace.get? ["members"] with
  | none => return []
  | some ms =>
    match ms.texts? with
    | some ms => return ms
    | none => throw "the members are a list of texts"

def packageSections : List String :=
  ["lib", "bin", "example", "test", "bench", "dependencies", "dev-dependencies",
    "dev_dependencies", "build-dependencies", "build_dependencies", "features", "target", "badges",
    "lints"]

def ofToml (fs : FileSystem) (folder : List String) (toml : Toml) : Except String Manifest := do
  let package? ← match toml.get? ["package"] with
    | none => pure none
    | some description =>
      unless description.isTable do throw "the package is a table"
      some <$> package fs folder toml
  let members? ← match toml.get? ["workspace"] with
    | none => pure none
    | some workspace => some <$> members workspace
  if package?.isNone then
    if members?.isNone then throw "the manifest describes neither a package nor a workspace"
    if packageSections.any fun s => (toml.get? [s]).isSome then
      throw "the manifest has a section for a package but describes none"
  return ⟨package?, members?⟩

def read (fs : FileSystem) (folder : List String) : Except String Manifest := do
  match fs.readText (.ofNames (folder ++ ["Cargo.toml"])) with
  | .error e => throw ("cannot read the manifest: " ++ e.message)
  | .ok text =>
    match Toml.parse? text with
    | none => throw "the manifest cannot be parsed"
    | some toml => ofToml fs folder toml

end Manifest

end LeafPaths
