/-!
Versions of packages: three numbers, then optional marks for what comes before a release and for a
build.
-/

namespace LeafPaths.Version

def isNumber (cs : List Char) : Bool :=
  !cs.isEmpty && cs.all Char.isDigit && (cs.length == 1 || cs.head? != some '0') &&
    cs.foldl (fun n c => 10 * n + (c.toNat - '0'.toNat)) 0 < Nat.pow 2 64

def isMarkChar (c : Char) : Bool := c.isAlphanum || c == '-'

def isMarks (isMark : List Char → Bool) (cs : List Char) : Bool :=
  (cs.splitOn '.').all fun mark => !mark.isEmpty && mark.all isMarkChar && isMark mark

/-- In a mark before a release a number has no zeros in front. -/
def isReleaseMark (mark : List Char) : Bool :=
  !(mark.all Char.isDigit && mark.length > 1 && mark.head? == some '0')

def isNumbers (cs : List Char) : Bool :=
  match cs.splitOn '.' with
  | [major, minor, patch] => isNumber major && isNumber minor && isNumber patch
  | _ => false

def cutAt (c : Char) (cs : List Char) : List Char × Option (List Char) :=
  let front := cs.takeWhile (· != c)
  (front, match cs.drop front.length with
    | _ :: rest => some rest
    | [] => none)

/-- Whether a text is a version. A plus sign begins the marks of a build; in front of it, a hyphen
begins the marks before a release. -/
def isValid (cs : List Char) : Bool :=
  let (front, build) := cutAt '+' cs
  let (numbers, release) := cutAt '-' front
  isNumbers numbers && release.all (isMarks isReleaseMark) && build.all (isMarks fun _ => true)

end LeafPaths.Version
