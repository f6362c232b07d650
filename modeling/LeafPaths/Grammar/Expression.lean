import LeafPaths.Grammar.Pattern

/-!
Expressions.

Operators are read by precedence. Where a brace would end the surrounding construct, as in the
condition of an `if`, struct literals are not read at the top of an expression.
-/

namespace LeafPaths.Grammar

variable {α : Type} {d : Nat} (r : Rules α d)

/-! ### Operators -/

inductive Infix where
  | assigning (op : ArithOp)
  | plain (op : BinaryOp)

namespace Infix

/-- The operators in the order in which they are tried, so that a longer one comes before its
beginnings. -/
def all : List (String × Infix) :=
  let assigning := [ArithOp.add, .sub, .mul, .div, .rem, .bitXor, .bitAnd, .bitOr, .shl, .shr].map
    fun o => (o.symbol ++ "=", Infix.assigning o)
  let plain := [BinaryOp.and, .or, .arith .shl, .arith .shr, .eq, .le, .ne, .ge, .arith .add,
    .arith .sub, .arith .mul, .arith .div, .arith .rem, .arith .bitXor, .arith .bitAnd,
    .arith .bitOr, .lt, .gt].map fun o => (o.symbol, Infix.plain o)
  assigning ++ plain

def next? (ts : Tokens α) : Option (String × Infix) :=
  match ts with
  | .punct _ _ _ :: _ => all.find? fun (text, _) => ts.isOp text
  | _ => none

def precedence : Infix → Precedence
  | assigning _ => .assign
  | plain o =>
    match o with
    | .and => .and
    | .or => .or
    | .eq | .lt | .le | .ne | .ge | .gt => .compare
    | .arith o =>
      match o with
      | .add | .sub => .sum
      | .mul | .div | .rem => .product
      | .bitXor => .bitXor
      | .bitAnd => .bitAnd
      | .bitOr => .bitOr
      | .shl | .shr => .shift

def apply (left right : Syn d .expr) : Infix → Syn d .expr
  | assigning o => .compound o left right
  | plain o => .binary o left right

end Infix

def nextPrecedence (ts : Tokens α) : Precedence :=
  match Infix.next? ts with
  | some (_, o) => o.precedence
  | none =>
    if ts.isOp "=" && !ts.isOp "=>" then .assign
    else if ts.isOp ".." then .range
    else if ts.isWord "as" then .cast
    else .jump

def operand (allowStruct : Bool) (p : Precedence) : Parser α d (Syn d .expr) := do
  r.settle allowStruct p (← r.unary allowStruct)

/-- Extends a right operand by the operators that bind tighter than the one before it, until
nothing more is read. Assignments extend to the right. -/
def settleRule (allowStruct : Bool) (p : Precedence) (e : Syn d .expr) :
    Parser α d (Syn d .expr) := do
  let ts ← upcoming
  let next := nextPrecedence ts
  if p.level < next.level || next == .assign && p == .assign then
    let e ← r.climb allowStruct next e
    if (← upcoming).length == ts.length then return e else r.settle allowStruct p e
  else return e

def isRangeEnd (allowStruct : Bool) (ts : Tokens α) : Bool :=
  ts.isEmpty || ts.isOp "," || ts.isOp ";" || ts.isOp "." && !ts.isOp ".." || ts.isOp "?" ||
    ts.isOp "=>" || !allowStruct && ts.isGroup .brace || ts.isOp "=" || ts.isOp "+" ||
    ts.isOp "/" || ts.isOp "%" || ts.isOp "^" || ts.isOp ">" || ts.isOp "<=" || ts.isOp "!=" ||
    ts.isOp "-=" || ts.isOp "*=" || ts.isOp "&=" || ts.isOp "|=" || ts.isOp "<<=" ||
    ts.isWord "as"

def rangeRest (allowStruct : Bool) (low : Syn d (.opt .expr)) : Parser α d (Syn d .expr) := do
  let isClosed ← rangeDots false
  if !isClosed && isRangeEnd allowStruct (← upcoming) then return .range low false .absent
  else return .range low isClosed (.present (← operand r allowStruct .range))

/-- A cast is not followed by what would apply to its type. -/
def checkCast : Parser α d Unit := do
  let ts ← upcoming
  let second := ts.skip 1
  if ts.isOp "." && !ts.isOp ".." then
    if second.isWord "await" then fail (.castFollowedBy .await)
    else if second.isName && ((ts.skip 2).isGroup .parenthesis || (ts.skip 2).isOp "::") then
      fail (.castFollowedBy .methodCall)
    else fail (.castFollowedBy .fieldAccess)
  else if ts.isOp "?" then fail (.castFollowedBy .question)
  else if ts.isGroup .bracket then fail (.castFollowedBy .indexing)
  else if ts.isGroup .parenthesis then fail (.castFollowedBy .call)

/-- Operators of at least a given precedence behind an operand. Nothing follows a range, and
comparisons do not follow one another. -/
def climbRule (allowStruct : Bool) (base : Precedence) (left : Syn d .expr) :
    Parser α d (Syn d .expr) := do
  let ts ← upcoming
  if left.isRange then return left
  else
    match Infix.next? ts with
    | some (text, o) =>
      let p := o.precedence
      if p.level < base.level then return left
      else if p == .compare && left.isComparison then fail .chainedComparison
      else
        op text
        let right ← operand r allowStruct p
        r.climb allowStruct base (o.apply left right)
    | none =>
      if base.level ≤ Precedence.assign.level && ts.isOp "=" && !ts.isOp "=>" then
        op "="
        let right ← operand r allowStruct .assign
        r.climb allowStruct base (.assign left right)
      else if base.level ≤ Precedence.range.level && ts.isOp ".." then
        r.climb allowStruct base (← rangeRest r allowStruct (.present left))
      else if ts.isWord "as" then
        word "as"
        let t ← r.type false
        checkCast
        r.climb allowStruct base (.cast left t)
      else return left

/-! ### Operands -/

def attributed (attributes : List Attribute) (e : Syn d .expr) : Syn d .expr :=
  if attributes.isEmpty then e else .attributedExpr attributes e

def isExprStart (ts : Tokens α) : Bool :=
  ts.isAnyWord && !ts.isWord "as" || ts.isGroup .parenthesis || ts.isGroup .bracket ||
    ts.isGroup .brace || ts.isLiteral || ts.isOp "!" && !ts.isOp "!=" ||
    ts.isOp "-" && !ts.isOp "-=" && !ts.isOp "->" || ts.isOp "*" && !ts.isOp "*=" ||
    ts.isOp "|" && !ts.isOp "|=" || ts.isOp "&" && !ts.isOp "&=" || ts.isOp ".." ||
    ts.isOp "<" && !ts.isOp "<=" && !ts.isOp "<<=" || ts.isOp "::" || ts.isLifetime ||
    ts.isOp "#"

def optValue : Parser α d (Syn d (.opt .expr)) := do
  if isExprStart (← upcoming) then return .present (← r.expr) else return .absent

def args : Parser α d (Syn d (.list .expr)) := do
  return .ofList (← inside .parenthesis (commaList r.expr))

def positionOf (m : α) (text : String) : Parser α d Nat :=
  let (isNegative, digits) := Tokens.numeral text
  match Numeral.int? digits with
  | some (value, suffix) =>
    if !suffix.isEmpty then failAt m .suffixedIndex
    else if isNegative then failAt m .negativeIndex
    else if value < Nat.pow 2 32 then return value
    else failAt m .largeIndex
  | none => failAt m .noInteger

/-- Positions in a tuple that were read as a number with a dot: each part is a position. The last
part is empty if the number ends with the dot. -/
def positionsOf (m : α) (text : String) : Parser α d (List Nat) :=
  ((text.toList.splitOn '.').filter (!·.isEmpty)).mapM fun digits =>
    positionOf m (String.ofList digits)

def memberAccess (e : Syn d .expr) : Parser α d (Syn d .expr) := do
  if ← optWord "await" then return .await e
  else
    match ← member with
    | .named n =>
      if ← optOp "::" then
        let generics ← genericArgs r
        return .methodCall e n (.present generics) (← args r)
      else if (← upcoming).isGroup .parenthesis then return .methodCall e n .absent (← args r)
      else return .field e (.named n)
    | .position i => return .field e (.position i)

def dotAccess (e : Syn d .expr) : Parser α d (Syn d .expr) := do
  let ts ← upcoming
  match ts.literal? with
  | some (text, n) =>
    if ts.isFloat then
      let positions ← positionsOf (← mark) text
      advance n
      let e := positions.foldl (fun e i => Syntax.field e (.position i)) e
      if text.toList.getLast? == some '.' then memberAccess r e else return e
    else memberAccess r e
  | none => memberAccess r e

def trailersRule (e : Syn d .expr) : Parser α d (Syn d .expr) := do
  let ts ← upcoming
  if ts.isGroup .parenthesis then r.trailers (.call e (← args r))
  else if ts.isOp "." && !ts.isOp ".." && !e.isRange then
    op "."
    r.trailers (← dotAccess r e)
  else if ts.isGroup .bracket then r.trailers (.index e (← inside .bracket r.expr))
  else if ts.isOp "?" && !e.isRange then
    op "?"
    r.trailers (.tryExpr e)
  else return e

def fieldValue : Parser α d (Syn d .fieldValue) := do
  let attributes ← outerAttributes r
  let m ← member
  match m with
  | .named n =>
    if ← optOp ":" then return .fieldValueFull attributes m (← r.expr)
    else return .fieldValueShort attributes n
  | .position _ =>
    op ":"
    return .fieldValueFull attributes m (← r.expr)

def fieldValues : Parser α d (List (Syn d .fieldValue) × Syn d (.opt .expr)) := do
  go ((← upcoming).length + 1)
where
  go : Nat → Parser α d (List (Syn d .fieldValue) × Syn d (.opt .expr))
    | 0 => return ([], .absent)
    | n + 1 => do
      if ← atEnd then return ([], .absent)
      else if ← optOp ".." then
        if ← atEnd then return ([], .absent) else return ([], .present (← r.expr))
      else
        let f ← fieldValue r
        if ← atEnd then return ([f], .absent)
        else
          op ","
          let (fs, base) ← go n
          return (f :: fs, base)

def pathExpr (allowStruct : Bool) : Parser α d (Syn d .expr) := do
  let p ← path r true
  let ts ← upcoming
  if isInvocation ts p then return .macroExpr (← invocation p)
  else if allowStruct && ts.isGroup .brace then
    let (fields, base) ← inside .brace (fieldValues r)
    return .structLit p (.ofList fields) base
  else return .pathExpr p

def parenExpr : Parser α d (Syn d .expr) :=
  inside .parenthesis do
    if ← atEnd then return .tuple .nil
    else
      let first ← r.expr
      if ← atEnd then return .paren first
      else
        op ","
        return .tuple (.cons first (.ofList (← commaList r.expr)))

def bracketExpr : Parser α d (Syn d .expr) :=
  inside .bracket do
    if ← atEnd then return .array .nil
    else
      let first ← r.expr
      let ts ← upcoming
      if ts.isEmpty then return .array (.cons first .nil)
      else if ts.isOp "," then
        op ","
        return .array (.cons first (.ofList (← commaList r.expr)))
      else if ts.isOp ";" then
        op ";"
        return .replicate first (← r.expr)
      else fail (.expected [.op ",", .op ";"])

/-- Whether a binder comes next that belongs to a closure, not to a loop. -/
def isClosureBinder (ts : Tokens α) : Bool :=
  ts.isWord "for" && opensGenerics (ts.skip 1)

def closureParam : Parser α d (Syn d .pat) := do
  let attributes ← outerAttributes r
  let p ← r.pat
  let p ← if ← optOp ":" then .typedPat p <$> r.type true else pure p
  return if attributes.isEmpty then p else .attributedPat attributes p

def closure (allowStruct : Bool) : Parser α d (Syn d .expr) := do
  let binder ← binder r
  let isConst ← optWord "const"
  let isStatic ← optWord "static"
  let isAsync ← optWord "async"
  let isMove ← optWord "move"
  op "|"
  let params ← separated "," (·.isOp "|") (closureParam r)
  op "|"
  let mode := ⟨binder, isConst, isStatic, isAsync, isMove⟩
  if ← optOp "->" then
    let result ← r.type true
    let body ← block r
    return .closure mode (.ofList params) (.present result) (.blockExpr none body)
  else return .closure mode (.ofList params) .absent (← r.exprWhere allowStruct)

def ifRule : Parser α d (Syn d .expr) := do
  word "if"
  let condition ← r.exprBeforeBrace
  let body ← block r
  if ← optWord "else" then
    let ts ← upcoming
    if ts.isWord "if" then return .ifExpr condition body (.present (← r.ifExpr))
    else if ts.isGroup .brace then
      return .ifExpr condition body (.present (.blockExpr none (← block r)))
    else failExpecting [.word "if", .group .brace]
  else return .ifExpr condition body .absent

def whileLoop (label : Option String) : Parser α d (Syn d .expr) := do
  word "while"
  let condition ← r.exprBeforeBrace
  return .whileLoop label condition (← attributedBlock r)

def forLoop (label : Option String) : Parser α d (Syn d .expr) := do
  word "for"
  let p ← patRule r
  word "in"
  let e ← r.exprBeforeBrace
  return .forLoop label p e (← attributedBlock r)

def endlessLoop (label : Option String) : Parser α d (Syn d .expr) := do
  word "loop"
  return .endlessLoop label (← attributedBlock r)

def labeled : Parser α d (Syn d .expr) := do
  let label ← lifetime
  op ":"
  let ts ← upcoming
  if ts.isWord "while" then whileLoop r (some label)
  else if ts.isWord "for" then forLoop r (some label)
  else if ts.isWord "loop" then endlessLoop r (some label)
  else if ts.isGroup .brace then return .blockExpr (some label) (← attributedBlock r)
  else fail .noLoopOrBlock

def tryBlock : Parser α d (Syn d .expr) := do
  word "try"
  return .tryBlock (← block r)

def unsafeExpr : Parser α d (Syn d .expr) := do
  word "unsafe"
  return .unsafeBlock (← attributedBlock r)

/-- An arm of a match. A comma follows it unless its body is a block or the arms end. -/
def arm : Parser α d (Syn d .arm) := do
  let attributes ← outerAttributes r
  let p ← patRule r
  let guard ← if ← optWord "if" then .present <$> r.expr else pure .absent
  op "=>"
  let body ← r.early
  if body.isBlockLike || (← atEnd) then discard (optOp ",") else op ","
  return .arm attributes p guard body

def matchExpr : Parser α d (Syn d .expr) := do
  word "match"
  let e ← r.exprBeforeBrace
  inside .brace do
    let attributes ← innerAttributes r
    return attributed attributes (.matchExpr e (.ofList (← untilEnd (arm r))))

/-- An expression that ends where a block ends it: one that begins with a block is not continued by
an operator, only by a dot or a question mark. -/
def earlyRule : Parser α d (Syn d .expr) := do
  let attributes ← outerAttributes r
  let ts ← upcoming
  let whole (p : Parser α d (Syn d .expr)) : Parser α d (Syn d .expr) := do
    let e ← p
    let ts ← upcoming
    if ts.isOp "." && !ts.isOp ".." || ts.isOp "?" then
      let e ← r.trailers e
      r.climb true .jump (attributed attributes e)
    else return attributed attributes e
  if ts.isWord "if" then whole (ifRule r)
  else if ts.isWord "while" then whole (whileLoop r none)
  else if ts.isWord "for" && !isClosureBinder ts then whole (forLoop r none)
  else if ts.isWord "loop" then whole (endlessLoop r none)
  else if ts.isWord "match" then whole (matchExpr r)
  else if ts.isWord "try" && (ts.skip 1).isGroup .brace then whole (tryBlock r)
  else if ts.isWord "unsafe" then whole (unsafeExpr r)
  else if ts.isWord "const" && (ts.skip 1).isGroup .brace then
    whole (.constBlock <$> constBlock r)
  else if ts.isGroup .brace then whole (.blockExpr none <$> attributedBlock r)
  else if ts.isLifetime then whole (labeled r)
  else
    let e ← r.unary true
    r.climb true .jump (attributed attributes e)

/-- A jump out of a loop or a block. The value is not a labeled loop, unless in parentheses. -/
def breakExpr (allowStruct : Bool) : Parser α d (Syn d .expr) := do
  word "break"
  let ts ← upcoming
  if ts.isLifetime && (ts.skip 1).isOp ":" then
    let m ← mark
    discard r.expr
    failAt m .labelNeedsParentheses
  else
    let label ← optLifetime
    let ts ← upcoming
    if isExprStart ts && (allowStruct || !ts.isGroup .brace) then
      return .breakExpr label (.present (← r.expr))
    else return .breakExpr label .absent

def letExpr (allowStruct : Bool) : Parser α d (Syn d .expr) := do
  word "let"
  let p ← patRule r
  op "="
  let e ← r.unary allowStruct
  return .letExpr p (← r.climb allowStruct .compare e)

def atom (allowStruct : Bool) : Parser α d (Syn d .expr) := do
  let ts ← upcoming
  let second := ts.skip 1
  let third := ts.skip 2
  if ts.isLiteral then return .literal (← literal)
  else if ts.isWord "async" &&
      (second.isGroup .brace || second.isWord "move" && third.isGroup .brace) then
    word "async"
    let isMove ← optWord "move"
    return .asyncBlock isMove (← block r)
  else if ts.isWord "try" && second.isGroup .brace then tryBlock r
  else if ts.isOp "|" || ts.isWord "move" || isClosureBinder ts ||
      ts.isWord "const" && !second.isGroup .brace || ts.isWord "static" ||
      ts.isWord "async" && (second.isOp "|" || second.isWord "move") then
    closure r allowStruct
  else if ts.isWord "builtin" && second.isOp "#" then return .verbatimExpr (← builtin)
  else if ts.isName || ts.isOp "::" || ts.isOp "<" || isPathKeyword ts ||
      ts.isWord "try" && (second.isOp "!" || second.isOp "::") then
    pathExpr r allowStruct
  else if ts.isGroup .parenthesis then parenExpr r
  else if ts.isWord "break" then breakExpr r allowStruct
  else if ts.isWord "continue" then
    word "continue"
    return .continueExpr (← optLifetime)
  else if ts.isWord "return" then
    word "return"
    return .returnExpr (← optValue r)
  else if ts.isWord "become" then
    return .verbatimExpr (← tokensOf do
      word "become"
      discard r.expr)
  else if ts.isGroup .bracket then bracketExpr r
  else if ts.isWord "let" then letExpr r allowStruct
  else if ts.isWord "if" then ifRule r
  else if ts.isWord "while" then whileLoop r none
  else if ts.isWord "for" then forLoop r none
  else if ts.isWord "loop" then endlessLoop r none
  else if ts.isWord "match" then matchExpr r
  else if ts.isWord "yield" then
    word "yield"
    return .yieldExpr (← optValue r)
  else if ts.isWord "unsafe" then unsafeExpr r
  else if ts.isWord "const" then return .constBlock (← constBlock r)
  else if ts.isGroup .brace then return .blockExpr none (← attributedBlock r)
  else if ts.isOp ".." then rangeRest r allowStruct .absent
  else if ts.isWord "_" then
    word "_"
    return .inferExpr
  else if ts.isLifetime then labeled r
  else fail .noExpression

def referenceExpr (allowStruct : Bool) : Parser α d (Syn d .expr) := do
  op "&"
  let ts ← upcoming
  let second := ts.skip 1
  let isRaw := ts.isWord "raw" && (second.isWord "mut" || second.isWord "const")
  if isRaw then word "raw"
  let isMut ← optWord "mut"
  if isRaw && !isMut then word "const"
  let e ← r.unary allowStruct
  return if isRaw then .rawAddress isMut e else .reference isMut e

def unaryRule (allowStruct : Bool) : Parser α d (Syn d .expr) := do
  let attributes ← outerAttributes r
  let ts ← upcoming
  let prefixed (text : String) (o : UnaryOp) : Parser α d (Syn d .expr) := do
    op text
    return attributed attributes (.unary o (← r.unary allowStruct))
  if ts.isOp "&" then return attributed attributes (← referenceExpr r allowStruct)
  else if ts.isOp "*" then prefixed "*" .deref
  else if ts.isOp "!" then prefixed "!" .not
  else if ts.isOp "-" then prefixed "-" .neg
  else
    let m ← mark
    let e ← r.trailers (← atom r allowStruct)
    if !attributes.isEmpty && e.isRange then failAt m .attributeOnRange
    else return attributed attributes e

end LeafPaths.Grammar
