import LeafPaths.Grammar.Type

/-!
Patterns.
-/

namespace LeafPaths.Grammar

variable {α : Type} {d : Nat} (r : Rules α d)

def isAlternative (ts : Tokens α) : Bool := ts.isOp "|" && !ts.isOp "||" && !ts.isOp "|="

/-- A pattern with alternatives. A bar before the first makes alternatives even of one. -/
def patRule : Parser α d (Syn d .pat) := do
  let hasLeadingBar ← optOp "|"
  let first ← r.pat
  if hasLeadingBar || isAlternative (← upcoming) then
    let others ← collect do
      if isAlternative (← upcoming) then
        op "|"
        return some (← r.pat)
      else return none
    return .orPat (.cons first (.ofList others))
  else return first

def constBlock : Parser α d (Syn d .block) := do
  word "const"
  attributedBlock r

inductive RangeBound (d : Nat) where
  | literal (text : String)
  | path (path : Syn d .path)
  | block (body : Syn d .block)

namespace RangeBound

def toExpr : RangeBound d → Syn d .expr
  | literal text => .literal text
  | path p => .pathExpr p
  | block b => .constBlock b

def toPat : RangeBound d → Syn d .pat
  | literal text => .literalPat text
  | path p => .pathPat p
  | block b => .constPat b

end RangeBound

def rangeBound : Parser α d (RangeBound d) := do
  let ts ← upcoming
  if ts.isLiteral then return .literal (← literal)
  else if ts.isName || ts.isOp "::" || ts.isOp "<" || isPathKeyword ts then
    return .path (← path r true)
  else if ts.isWord "const" then return .block (← constBlock r)
  else
    failExpecting [.literal, .name, .op "::", .op "<", .word "self", .word "Self", .word "super",
      .word "crate", .word "const"]

def upperBound : Parser α d (Option (RangeBound d)) := do
  let ts ← upcoming
  if ts.isEmpty || ts.isOp "|" || ts.isOp "=" || ts.isOp ":" && !ts.isOp "::" || ts.isOp "," ||
      ts.isOp ";" || ts.isWord "if" then
    return none
  else return some (← rangeBound r)

/-- The dots of a range: whether they include the end. Three dots count as inclusive where they
are allowed. -/
def rangeDots (allowThree : Bool) : Parser α d Bool := do
  let ts ← upcoming
  if ts.isOp "..=" then
    op "..="
    return true
  else if ts.isOp "..." then
    if allowThree then
      op "..."
      return true
    else failExpecting [.op "..="]
  else
    op ".."
    return false

def rangeFrom (low : RangeBound d) : Parser α d (Syn d .pat) := do
  let isClosed ← rangeDots true
  match ← upperBound r with
  | some high => return .rangePat (.present low.toExpr) isClosed (.present high.toExpr)
  | none =>
    if isClosed then fail .noUpperBound
    else return .rangePat (.present low.toExpr) false .absent

/-- A range without lower end, or the dots that stand for other elements. -/
def rangeTo : Parser α d (Syn d .pat) := do
  let isClosed ← rangeDots false
  match ← upperBound r with
  | some high => return .rangePat .absent isClosed (.present high.toExpr)
  | none => if isClosed then fail .noUpperBound else return .restPat

def fieldPat (attributes : List Attribute) : Parser α d (Syn d .fieldPat) := do
  let ((isBox, isRef, isMut, m), tokens) ← withTokens do
    let isBox ← optWord "box"
    let isRef ← optWord "ref"
    let isMut ← optWord "mut"
    let m ← if isBox || isRef || isMut then Member.named <$> name else member
    return (isBox, isRef, isMut, m)
  let full : Parser α d (Syn d .fieldPat) := do
    op ":"
    return .fieldPatFull attributes m (← patRule r)
  match m with
  | .position _ => full
  | .named n =>
    if !isBox && !isRef && !isMut && (← upcoming).isOp ":" then full
    else if isBox then
      return .fieldPatShort attributes (.verbatimPat (Token.forgetAll tokens))
    else return .fieldPatShort attributes (.bindingPat isRef isMut n .absent)

def fieldPats : Parser α d (List (Syn d .fieldPat) × Bool) := do
  go ((← upcoming).length + 1)
where
  go : Nat → Parser α d (List (Syn d .fieldPat) × Bool)
    | 0 => return ([], false)
    | n + 1 => do
      if ← atEnd then return ([], false)
      else
        let attributes ← outerAttributes r
        if ← optOp ".." then return ([], true)
        else
          let f ← fieldPat r attributes
          if ← atEnd then return ([f], false)
          else
            op ","
            let (fs, hasRest) ← go n
            return (f :: fs, hasRest)

def pathPat : Parser α d (Syn d .pat) := do
  let p ← path r true
  let ts ← upcoming
  if isInvocation ts p then return .macroPat (← invocation p)
  else if ts.isGroup .brace then
    let (fields, hasRest) ← inside .brace (fieldPats r)
    return .structPat p (.ofList fields) hasRest
  else if ts.isGroup .parenthesis then
    return .tupleStructPat p (.ofList (← inside .parenthesis (commaList (patRule r))))
  else if ts.isOp ".." then rangeFrom r (.path p)
  else return .pathPat p

def literalPat : Parser α d (Syn d .pat) := do
  let low ← rangeBound r
  if (← upcoming).isOp ".." then rangeFrom r low else return low.toPat

def bindingPat : Parser α d (Syn d .pat) := do
  let isRef ← optWord "ref"
  let isMut ← optWord "mut"
  let n ← if (← upcoming).isWord "self" then anyWord else name
  if ← optOp "@" then return .bindingPat isRef isMut n (.present (← r.pat))
  else return .bindingPat isRef isMut n .absent

def referencePat : Parser α d (Syn d .pat) := do
  op "&"
  let isMut ← optWord "mut"
  return .referencePat isMut (← r.pat)

def isRest : Syn d .pat → Bool
  | .restPat => true
  | _ => false

/-- A pattern in parentheses or a tuple. Dots alone make a tuple. -/
def parenPat : Parser α d (Syn d .pat) :=
  inside .parenthesis do
    if ← atEnd then return .tuplePat .nil
    else
      let first ← patRule r
      if ← atEnd then
        if isRest first then return .tuplePat (.cons first .nil) else return .parenPat first
      else
        op ","
        return .tuplePat (.cons first (.ofList (← commaList (patRule r))))

/-- An element of a slice pattern, which is no range with an open end. -/
def slicePatElement : Parser α d (Syn d .pat) := do
  let (p, tokens) ← withTokens (patRule r)
  let dots : Option (Token α) := match p with
    | .rangePat .absent _ _ => tokens.head?
    | .rangePat _ _ .absent => tokens[tokens.length - 2]?
    | _ => none
  match dots with
  | some t => failAt t.mark .rangeInSlice
  | none => return p

def boxPat : Parser α d (Syn d .pat) := do
  return .verbatimPat (← tokensOf do
    word "box"
    discard r.pat)

def patAtom : Parser α d (Syn d .pat) := do
  let ts ← upcoming
  let second := ts.skip 1
  if ts.isName && (second.isOp "::" || second.isOp "!" || second.isGroup .brace ||
        second.isGroup .parenthesis || second.isOp "..") ||
      ts.isWord "self" && second.isOp "::" || ts.isOp "::" || ts.isOp "<" ||
      ts.isWord "Self" || ts.isWord "super" || ts.isWord "crate" then
    pathPat r
  else if ts.isWord "_" then
    word "_"
    return .wildPat
  else if ts.isWord "box" then boxPat r
  else if ts.isOp "-" || ts.isLiteral || ts.isWord "const" then literalPat r
  else if ts.isWord "ref" || ts.isWord "mut" || ts.isWord "self" || ts.isName then bindingPat r
  else if ts.isOp "&" then referencePat r
  else if ts.isGroup .parenthesis then parenPat r
  else if ts.isGroup .bracket then
    return .slicePat (.ofList (← inside .bracket (commaList (slicePatElement r))))
  else if ts.isOp ".." && !ts.isOp "..." then rangeTo r
  else
    failExpecting [.name, .op "::", .op "<", .word "_", .literal, .word "const", .word "ref",
      .word "mut", .op "&", .group .parenthesis, .group .bracket, .op "..", .word "const"]

end LeafPaths.Grammar
