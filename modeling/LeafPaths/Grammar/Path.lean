import LeafPaths.Grammar.Attribute

/-!
Paths with arguments, macro invocations, blocks, and the arguments themselves.
-/

namespace LeafPaths.Grammar

variable {α : Type} {d : Nat} (r : Rules α d)

def attributedBlock : Parser α d (Syn d .block) :=
  inside .brace do
    let attributes ← innerAttributes r
    return .block attributes (← r.stmts)

def block : Parser α d (Syn d .block) :=
  inside .brace do return .block [] (← r.stmts)

def invocation (path : Syn d .path) : Parser α d (Syn d .invocation) := do
  op "!"
  let (del, b) ← body
  return .invocation path del b

def isInvocation (ts : Tokens α) (path : Syn d .path) : Bool :=
  ts.isOp "!" && !ts.isOp "!=" && path.isModStyle

def constArgument : Parser α d (Syn d .expr) := do
  let ts ← upcoming
  if ts.isLiteral then return .literal (← literal)
  else if ts.isName then return .pathExpr (.plainPath false (.ofList [.plainSegment (← name)]))
  else if ts.isGroup .brace then return .blockExpr none (← attributedBlock r)
  else failExpecting []

/-- A name for an associated item with its arguments: what a type may be reread as if an equals
sign or a colon follows. -/
def associated? : Syn d .type → Option (String × Syn d (.opt (.list .genericArg)))
  | .pathType (.plainPath false (.cons (.plainSegment name) .nil)) => some (name, .absent)
  | .pathType (.plainPath false (.cons (.angleSegment name args) .nil)) =>
    some (name, .present args)
  | _ => none

def boundsUntil (isStop : Tokens α → Bool) : Parser α d (Syn d (.list .bound)) := do
  return .ofList (← joined "+" isStop (r.bound false true))

/-- A generic argument. A type may turn out to be the name of an associated item. -/
def genericArg : Parser α d (Syn d .genericArg) := do
  let ts ← upcoming
  if ts.isLifetime && !(ts.skip 1).isOp "+" then return .lifetimeArg (← lifetime)
  else if ts.isLiteral || ts.isGroup .brace then return .constArg (← constArgument r)
  else
    let t ← r.type true
    match associated? t with
    | none => return .typeArg t
    | some (name, args) =>
      if ← optOp "=" then
        let ts ← upcoming
        if ts.isLiteral || ts.isGroup .brace then
          return .assocConstArg name args (← constArgument r)
        else return .assocTypeArg name args (← r.type true)
      else if ← optOp ":" then
        return .constraintArg name args (← boundsUntil r fun ts => ts.isOp "," || ts.isOp ">")
      else return .typeArg t

def genericArgs : Parser α d (Syn d (.list .genericArg)) := do
  op "<"
  let args ← separated "," (·.isOp ">") (genericArg r)
  op ">"
  return .ofList args

/-- A segment of a path. In expressions arguments follow a double colon, in types they need not. -/
def segment (isExpr : Bool) : Parser α d (Syn d .segment) := do
  let ts ← upcoming
  if ts.isWord "super" || ts.isWord "self" || ts.isWord "crate" || ts.isWord "try" then
    return .plainSegment (← anyWord)
  else
    let n ← if ts.isWord "Self" then anyWord else name
    let ts ← upcoming
    if !isExpr && ts.isOp "<" && !ts.isOp "<=" && !ts.isOp "<<=" ||
        ts.isOp "::" && (ts.skip 2).isOp "<" then
      discard (optOp "::")
      return .angleSegment n (← genericArgs r)
    else return .plainSegment n

/-- More segments of a path. A double colon before parentheses does not belong to it. -/
def moreSegments (isExpr : Bool) : Parser α d (List (Syn d .segment)) :=
  collect do
    let ts ← upcoming
    if ts.isOp "::" && !(ts.skip 2).isGroup .parenthesis then
      op "::"
      return some (← segment r isExpr)
    else return none

def plainPath (isExpr : Bool) : Parser α d (Bool × List (Syn d .segment)) := do
  let isGlobal ← optOp "::"
  let first ← segment r isExpr
  return (isGlobal, first :: (← moreSegments r isExpr))

def segments (isExpr : Bool) : Parser α d (List (Syn d .segment)) := do
  let first ← segment r isExpr
  let others ← collect do
    if ← optOp "::" then return some (← segment r isExpr) else return none
  return first :: others

def path (isExpr : Bool) : Parser α d (Syn d .path) := do
  if ← optOp "<" then
    let self ← r.type true
    let inTrait ← if ← optWord "as" then some <$> plainPath r false else pure none
    op ">"
    op "::"
    let rest ← segments r isExpr
    return match inTrait with
      | some (isGlobal, ss) => .qualifiedPath self ss.length isGlobal (.ofList (ss ++ rest))
      | none => .qualifiedPath self 0 true (.ofList rest)
  else
    let (isGlobal, ss) ← plainPath r isExpr
    return .plainPath isGlobal (.ofList ss)

end LeafPaths.Grammar
