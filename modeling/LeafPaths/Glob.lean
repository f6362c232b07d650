import LeafPaths.FileSystem.Search

/-!
Patterns for paths.

A pattern consists of parts, each of which fits names in a folder: a question mark stands for one
character, a star for any characters, and brackets for one of several characters, or for one that
is not among them. Two stars as a part stand for any number of folders.
-/

namespace LeafPaths

namespace Glob

inductive Token where
  | char (c : Char)
  | anyChar
  | anyChars
  /-- One character that is in one of the ranges, or in none of them. -/
  | range (isInside : Bool) (ranges : List (Char × Char))
deriving DecidableEq, Repr

def Token.fits (c : Char) : Token → Bool
  | char d => c == d
  | anyChar | anyChars => true
  | range isInside ranges => (ranges.any fun r => r.1 ≤ c && c ≤ r.2) == isInside

def fits : List Token → List Char → Bool
  | [], cs => cs.isEmpty
  | .anyChars :: ts, cs =>
    fits ts cs ||
      match cs with
      | [] => false
      | _ :: cs => fits (.anyChars :: ts) cs
  | t :: ts, c :: cs => t.fits c && fits ts cs
  | _ :: _, [] => false
termination_by ts cs => ts.length + cs.length

def rangesOf : List Char → List (Char × Char)
  | a :: '-' :: b :: rest => (a, b) :: rangesOf rest
  | a :: rest => (a, a) :: rangesOf rest
  | [] => []

/-- Brackets, read behind the opening one; the first character in them never closes them. -/
def brackets? (isInside : Bool) : List Char → Option (Token × List Char)
  | [] => none
  | c :: rest =>
    let more := rest.takeWhile (· != ']')
    match rest.drop more.length with
    | _ :: rest => some (.range isInside (rangesOf (c :: more)), rest)
    | [] => none

def tokens? : Nat → List Char → Option (List Token)
  | 0, _ => none
  | n + 1, cs =>
    match cs with
    | [] => some []
    | '*' :: '*' :: _ => none
    | '*' :: rest => (tokens? n rest).map (.anyChars :: ·)
    | '?' :: rest => (tokens? n rest).map (.anyChar :: ·)
    | '[' :: '!' :: rest => do
      let (t, rest) ← brackets? false rest
      return t :: (← tokens? n rest)
    | '[' :: rest => do
      let (t, rest) ← brackets? true rest
      return t :: (← tokens? n rest)
    | c :: rest => (tokens? n rest).map (.char c :: ·)

def literal? (ts : List Token) : Option String :=
  let chars := ts.mapM fun t : Token =>
    match t with
    | .char c => some c
    | _ => none
  chars.map String.ofList

end Glob

inductive Glob where
  | folders
  | name (tokens : List Glob.Token)
deriving DecidableEq, Repr

namespace Glob

def part? (s : String) : Option Glob :=
  if s = "**" then some .folders else (tokens? (s.length + 1) s.toList).map .name

def isFor (g : Glob) (name : String) : Bool :=
  match g with
  | .folders => false
  | .name ts => fits ts name.toList

/-- Any number of folders after any number of folders are any number of folders. -/
def collapse : List Glob → List Glob
  | .folders :: .folders :: rest => collapse (.folders :: rest)
  | g :: rest => g :: collapse rest
  | [] => []

/-- The parts of a pattern; a slash at its end adds none. -/
def parse? (p : FilePath) : Option (List Glob) := do
  let parts := match p.parts.reverse with
    | "" :: front => front.reverse
    | _ => p.parts
  return collapse (← parts.mapM part?)

end Glob

namespace FileSystem

def entry? (fs : FileSystem) (folder : FilePath) (name : String) : Option Object :=
  match fs.resolve folder with
  | .error _ => none
  | .ok place =>
    match fs.object? place.location with
    | some .folder => if name = "" then some .folder else fs.object? (place.location ++ [name])
    | _ => none

def leadsOn (fs : FileSystem) (p : FilePath) (name : String) : Bool :=
  if name = "." ∨ name = ".." then fs.isFolder p else (fs.entry? p name).isSome

/-- The dots among the names that fit a pattern: only one that begins with a dot asks for them. -/
def dotsFor (fs : FileSystem) (p : FilePath) (ts : List Glob.Token) : List String :=
  if ts.head? = some (.char '.') ∧ fs.isFolder p then
    ["..", "."].filter fun s => Glob.fits ts s.toList
  else []

/-- The paths below a path that fit a pattern, in the order of names and each folder before what is
in it. -/
def matching (fs : FileSystem) (gs : List Glob) (p : FilePath) : List FilePath :=
  match gs with
  | [] => [p]
  | .folders :: rest =>
    (fs.names p).attach.flatMap fun ⟨name, _⟩ =>
      let here := match rest with
        | [] => if fs.isFolder (p.join name) then [p.join name] else []
        | g :: rest => if g.isFor name then fs.matching rest (p.join name) else []
      let below :=
        if _ : fs.isFolder (p.join name) then fs.matching (.folders :: rest) (p.join name) else []
      here ++ below
  | .name ts :: rest =>
    match Glob.literal? ts with
    | some s => if fs.leadsOn p s then fs.matching rest (p.join s) else []
    | none =>
      let names := (fs.names p).filter fun n => Glob.fits ts n.toList
      (fs.dotsFor p ts ++ names).flatMap fun n => fs.matching rest (p.join n)
termination_by (gs.length, fs.budget p)
decreasing_by
  · exact .left _ _ (by simp only [List.length_cons]; omega)
  · rename_i _ hn hf
    exact .right _ (budget_join_lt hn hf)
  · exact .left _ _ (by simp)
  · exact .left _ _ (by simp)

end FileSystem

end LeafPaths
