import LeafPaths.FileSystem

/-!
Changes of a file system: files that are made.
-/

namespace LeafPaths

namespace FileSystem

def put (fs : FileSystem) (l : Location) (o : Object) : FileSystem :=
  { fs with objects := (l, o) :: fs.objects.filter (·.1 ≠ l) }

/-- The location at which a file is written: that of the file there is, or that of a new one in a
folder that exists. The last part may be a link, also to a file that does not exist yet. -/
def destination (fs : FileSystem) (links : Nat) (here : Location) (p : FilePath) :
    Except IoError Location :=
  match p.parts.reverse.dropWhile (· = "") with
  | [] => .error .isDirectory
  | last :: before =>
    match _hw : fs.walk links here before.reverse with
    | .error e => .error e
    | .ok place =>
      match fs.object? place.location with
      | some .folder =>
        if last = "." ∨ last = ".." ∨ p.parts.getLast? = some "" then .error .isDirectory
        else
          match fs.object? (place.location ++ [last]) with
          | some .folder => .error .isDirectory
          | some (.link target) =>
            if place.links < linkLimit then
              fs.destination (place.links + 1) (target.base place.location) target
            else .error .tooManyLinks
          | _ => .ok (place.location ++ [last])
      | _ => .error .notDirectory
termination_by linkLimit - links
decreasing_by
  have := links_le_of_walk _hw
  omega

/-- A file that holds nothing, in place of what there was, and its location. -/
def create (fs : FileSystem) (p : FilePath) : Except IoError (Location × FileSystem) :=
  if p.text = "" then .error .notFound
  else
    (fs.destination 0 (p.base fs.workingFolder) p).map fun l => (l, fs.put l (.file .empty))

end FileSystem

end LeafPaths
