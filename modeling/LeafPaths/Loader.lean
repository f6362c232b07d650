import LeafPaths.FileSystem.Search
import LeafPaths.Package

/-!
Loading: sources are collected from files, folders and workspaces.

Sources keep the order in which they were added, and a file that is reached again, under any
spelling of its path, is not added again. A file counts as reached before it is read, and one that
cannot be read stays so marked. An addition that fails keeps what it added before.
-/

namespace LeafPaths

/-- `SourceFile`: a source text and the path under which it is reported. -/
structure Source where
  path : FilePath
  content : String
deriving DecidableEq, Repr, Inhabited

/-- `ProjectLoader`: the sources held so far, and the locations that were reached. -/
structure Loader where
  files : List Source
  seen : List Location
deriving DecidableEq, Repr, Inhabited

namespace Loader

def empty : Loader := ⟨[], []⟩

abbrev Result := Loader × Option ExtractError

/-- `add_file`: adds a file, unless it was reached before. -/
def addFile (fs : FileSystem) (p : FilePath) (loader : Loader) : Result :=
  match fs.canonical p with
  | .error e => (loader, some (.io p.text e))
  | .ok l =>
    if l ∈ loader.seen then (loader, none)
    else
      let reached := { loader with seen := l :: loader.seen }
      match fs.readText p with
      | .error e => (reached, some (.io p.text e))
      | .ok content => ({ reached with files := loader.files ++ [⟨p, content⟩] }, none)

def addEach {α : Type} (add : α → Loader → Result) : List α → Loader → Result
  | [], loader => (loader, none)
  | a :: rest, loader =>
    match add a loader with
    | (loader, none) => addEach add rest loader
    | (loader, some e) => (loader, some e)

/-- `add_folder`: adds the sources in a folder and below it. A folder that is to be skipped adds
nothing, even if it does not exist; a file in place of a folder stands for itself. -/
def addFolder (fs : FileSystem) (p : FilePath) (loader : Loader) : Result :=
  if p.isSkipped then (loader, none)
  else if fs.isFile p then
    if p.isSource then addFile fs p loader else (loader, none)
  else
    match fs.list p with
    | .error e => (loader, some (.io p.text e))
    | .ok _ => addEach (addFile fs) (fs.sourcesIn p) loader

/-- `add_workspace`: adds the folders in which the code of a workspace begins, as far as the
workspace could be described. -/
def addWorkspace (fs : FileSystem) (found : Except String Metadata) (loader : Loader) : Result :=
  match found with
  | .error reason => (loader, some (.workspace reason))
  | .ok m => addEach (addFolder fs) m.folders loader

/-- One thing to be added. What a workspace consists of is given, whatever it is. -/
inductive Addition where
  | file (p : FilePath)
  | folder (p : FilePath)
  | workspace (found : Except String Metadata)

def Addition.perform (fs : FileSystem) : Addition → Loader → Result
  | file p => addFile fs p
  | folder p => addFolder fs p
  | workspace found => addWorkspace fs found

end Loader

end LeafPaths
