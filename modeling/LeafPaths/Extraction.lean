import LeafPaths.Loader
import LeafPaths.Outline
import LeafPaths.Record

/-!
Extraction of many sources.

Each source is read on its own. The first one that cannot be read stops the extraction, unless it
is told to keep going; then such sources are counted and left out, and the others are not affected.
-/

namespace LeafPaths

/-- `parse` of the parser port: the tree of a source, or where and why it cannot be read. -/
def Source.tree (s : Source) : Except ExtractError Tree :=
  match SourceFile.parse s.content with
  | .ok f => .ok f.tree
  | .error f => .error (.parse s.path.text f.mark f.message)

structure FileContexts where
  path : FilePath
  functions : Nat
  triples : List Triple
deriving DecidableEq, Repr, Inhabited

def FileContexts.ofTree (path : FilePath) (t : Tree) : FileContexts :=
  let functions := t.functionContexts
  { path := path
    functions := functions.length
    triples := functions.flatMap (·.triples) }

/-- `extract_file`: the contexts of a source. -/
def Source.contexts (s : Source) : Except ExtractError FileContexts :=
  s.tree.map (.ofTree s.path)

structure Extraction where
  files : List FileContexts
  skipped : Nat
deriving DecidableEq, Repr, Inhabited

namespace Extraction

/-- `extract`: sources are extracted in order, and one that is refused is skipped or ends it all. -/
def ofSources (keepGoing : Bool) : List Source → Except ExtractError Extraction
  | [] => .ok ⟨[], 0⟩
  | s :: rest =>
    match s.contexts with
    | .ok f => (ofSources keepGoing rest).map fun e => ⟨f :: e.files, e.skipped⟩
    | .error e =>
      if keepGoing then (ofSources keepGoing rest).map fun e => ⟨e.files, e.skipped + 1⟩
      else .error e

end Extraction

structure Summary where
  files : Nat
  skipped : Nat
  functions : Nat
  triples : Nat
deriving DecidableEq, Repr, Inhabited

end LeafPaths
