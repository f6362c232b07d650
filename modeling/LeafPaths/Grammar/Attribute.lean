import LeafPaths.Grammar.Rules

/-!
Attributes, visibility, and the paths that have no arguments.
-/

namespace LeafPaths.Grammar

variable {α : Type} {d : Nat}

def isPathWord (ts : Tokens α) : Bool :=
  ts.isName || ts.isWord "super" || ts.isWord "self" || ts.isWord "Self" || ts.isWord "crate"

def pathWords : Nat → Parser α d (List String)
  | 0 => return [← anyWord]
  | n + 1 => do
    let w ← anyWord
    if !(← optOp "::") then return [w]
    else if isPathWord (← upcoming) then return w :: (← pathWords n)
    else fail .noSegment

def modPath : Parser α d (Syn d .path) := do
  let isGlobal ← optOp "::"
  let ts ← upcoming
  let words ← if isPathWord ts then pathWords ts.length else pure [← name]
  return .plainPath isGlobal (.ofList (words.map .plainSegment))

section

variable (r : Rules α d)

def attributeValue : Parser α d Unit := do
  let ts ← upcoming
  match ts.literal? with
  | some (_, n) =>
    if (ts.skip n).isEmpty then advance n else discard r.expr
  | none =>
    if ts.isOp "#" && (ts.skip 1).isGroup .bracket then fail .attributeInAttribute
    else discard r.expr

/-- The content of an attribute: a path, and behind it a group or a value. -/
def attributeContent : Parser α d Unit := do
  if !(← optWord "unsafe") then discard (modPath : Parser α d (Syn d .path))
  let ts ← upcoming
  if ts.isGroup .parenthesis || ts.isGroup .bracket || ts.isGroup .brace then
    discard (body : Parser α d (Delimiter × Body d))
  else if ts.isOp "=" && !ts.isOp "==" && !ts.isOp "=>" then
    op "="
    attributeValue r

def outerAttribute : Parser α d Attribute := do
  op "#"
  return ⟨false, ← inside .bracket (tokensOf (attributeContent r))⟩

def outerAttributes : Parser α d (List Attribute) :=
  collect do
    if (← upcoming).isOp "#" then return some (← outerAttribute r) else return none

def innerAttribute : Parser α d Attribute := do
  op "#"
  op "!"
  return ⟨true, ← inside .bracket (tokensOf (attributeContent r))⟩

def innerAttributes : Parser α d (List Attribute) :=
  collect do
    let ts ← upcoming
    if ts.isOp "#" && (ts.skip 1).isOp "!" then return some (← innerAttribute r) else return none

end

/-- Where something is visible, in parentheses behind the word `pub`. Parentheses with anything else
belong to what follows. -/
def restriction : Parser α d Unit := do
  match ← upcoming with
  | .group _ .parenthesis content _ :: _ =>
    let ts : Tokens α := content
    if ts.isWord "crate" || ts.isWord "self" || ts.isWord "super" then
      if (ts.skip 1).isEmpty then advance 1
    else if ts.isWord "in" then
      inside .parenthesis do
        word "in"
        discard (modPath : Parser α d (Syn d .path))
  | _ => return

def visibility : Parser α d Verbatim := do
  if !(← upcoming).isWord "pub" then return []
  else tokensOf do
    word "pub"
    restriction

end LeafPaths.Grammar
