import LeafPaths.Manifest

/-!
Workspaces: which packages a manifest stands for.

A package belongs to the workspace that its own manifest or the nearest manifest above it opens, and
a workspace consists of the members that it declares, followed by the package at its root.

This is one `Environment.metadata` among others; nothing that is proved rests on it. Settings that a
package inherits from its workspace, programs with paths of their own and folders that a workspace
excludes are not read: manifests with the first are refused, the others are passed over.
-/

namespace LeafPaths.Workspace

/-- The nearest folder, among those given, whose manifest opens a workspace. Manifests on the way
are read even if they open none. -/
def nearest (fs : FileSystem) : List (List String) → Except String (Option (List String))
  | [] => .ok none
  | folder :: rest =>
    if Manifest.hasEntry fs (folder ++ ["Cargo.toml"]) then
      match Manifest.read fs folder with
      | .error e => .error e
      | .ok m => if m.members?.isSome then .ok (some folder) else nearest fs rest
    else nearest fs rest

def above : Nat → List String → List (List String)
  | 0, _ => []
  | n + 1, folder => folder.dropLast :: above n folder.dropLast

/-- Where packages are unpacked to be tried, apart from any workspace around. -/
def isTrial (folder : List String) : Bool := ["package", "target"].isPrefixOf folder.reverse

def rootOf (fs : FileSystem) (folder : List String) : Except String (Option (List String)) :=
  nearest fs (folder :: (above folder.length folder).takeWhile fun f => !isTrial f)

/-- The folders of a declared member, which is a pattern. What fits it without being a folder is
left out, but a pattern that nothing fits is taken as it stands. -/
def memberFolders (fs : FileSystem) (root : List String) (member : String) :
    Except String (List (List String)) :=
  let path : FilePath := ⟨member⟩
  match Glob.parse? path with
  | none => .error "a member is not a pattern"
  | some parts =>
    let start : FilePath := if path.isAbsolute then ⟨"/"⟩ else .ofNames root
    let needsFolder := member.toList.getLast? == some '/'
    let found := (fs.matching parts start).filter fun p => !needsFolder || fs.isFolder p
    if found.isEmpty then .ok [path.flatten root]
    else .ok ((found.filter fs.isFolder).map fun p => p.flatten [])

def memberPackage? (fs : FileSystem) (root folder : List String) :
    Except String (Option (List String × Package)) := do
  let m ← Manifest.read fs folder
  unless (← rootOf fs folder) == some root do throw "a member belongs to another workspace"
  return m.package?.map fun p => (folder, p)

def packages (fs : FileSystem) (manifest : FilePath) : Except String (List Package) := do
  let names := manifest.flatten fs.workingFolder
  unless names.getLast? == some "Cargo.toml" do throw "a manifest is named Cargo.toml"
  let folder := names.dropLast
  let own ← Manifest.read fs folder
  match ← rootOf fs folder with
  | none => return own.package?.toList
  | some root =>
    let top ← Manifest.read fs root
    let declared := (← (top.members?.getD []).mapM (memberFolders fs root)).flatten
    let all := (← (declared ++ [root]).eraseDups.mapM (memberPackage? fs root)).filterMap id
    let listed := all.map (·.2)
    if (listed.map (·.id)).eraseDups.length < listed.length then
      throw "two packages have the same name"
    unless folder == root || (all.map (·.1)).contains folder do
      throw "the package is not a member of the workspace around it"
    return listed

def load (fs : FileSystem) (manifest : FilePath) : Except String Metadata :=
  (packages fs manifest).map fun listed => ⟨listed.map (·.id), listed⟩

end LeafPaths.Workspace
