import LeafPaths.FilePath

/-!
Packages, as `cargo metadata` describes them.

Which packages a manifest stands for is decided elsewhere. All that loading relies on is the form
of the answer: the members of a workspace by their identifiers, the packages that are described,
and for each of these the files at which the code of its targets begins.
-/

namespace LeafPaths

structure Target where
  kinds : List String
  source : FilePath
deriving DecidableEq, Repr, Inhabited

namespace Target

/-- Libraries, programs and macros are searched for sources; libraries for other languages only,
tests, examples and benchmarks are not. -/
def isSearched (t : Target) : Bool :=
  t.kinds.any fun k => k == "lib" || k == "bin" || k == "proc-macro"

def folder (t : Target) : FilePath := t.source.parent?.getD t.source

end Target

structure Package where
  id : String
  targets : List Target
deriving DecidableEq, Repr, Inhabited

structure Metadata where
  members : List String
  packages : List Package
deriving DecidableEq, Repr, Inhabited

namespace Metadata

/-- The packages of the members in their order. A member that is not described is passed over, and
of two packages with one identifier the first counts. -/
def memberPackages (m : Metadata) : List Package :=
  m.members.filterMap fun id => m.packages.find? fun p => p.id == id

/-- The folders that are searched for the sources of a workspace. -/
def folders (m : Metadata) : List FilePath :=
  (m.memberPackages.flatMap fun p => p.targets.filter Target.isSearched).map Target.folder

end Metadata

end LeafPaths
