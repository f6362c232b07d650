import LeafPaths.Source.Position

/-!
What can go wrong, and how it is told.
-/

namespace LeafPaths

inductive IoError where
  | notFound
  | notDirectory
  | isDirectory
  | tooManyLinks
  | invalidText
  | other (text : String)
deriving DecidableEq, Repr, Inhabited

namespace IoError

def message : IoError → String
  | notFound => "No such file or directory (os error 2)"
  | notDirectory => "Not a directory (os error 20)"
  | isDirectory => "Is a directory (os error 21)"
  | tooManyLinks => "Too many levels of symbolic links (os error 40)"
  | invalidText => "stream did not contain valid UTF-8"
  | other text => text

end IoError

inductive ExtractError where
  | parse (path : String) (position : Position) (complaint : String)
  | io (path : String) (cause : IoError)
  | workspace (reason : String)
  | noSources
deriving DecidableEq, Repr, Inhabited

namespace ExtractError

def message : ExtractError → String
  | parse path position complaint =>
    "failed to parse " ++ path ++ ":" ++ toString position.line ++ ":" ++
      toString position.column ++ ": " ++ complaint
  | io path cause => "cannot read " ++ path ++ ": " ++ cause.message
  | workspace reason => "workspace loading failed: " ++ reason
  | noSources => "no source files given; use --input, --folder or --workspace"

end ExtractError

end LeafPaths
