import LeafPaths.Grammar.Path

/-!
Types, bounds, generic parameters and where clauses.
-/

namespace LeafPaths.Grammar

variable {α : Type} {d : Nat} (r : Rules α d)

/-! ### Generic parameters -/

def lifetimeBounds (isStop : Tokens α → Bool) : Parser α d (List String) :=
  joined "+" isStop lifetime

def lifetimeParam (attributes : List Attribute) : Parser α d (Syn d .genericParam) := do
  let l ← lifetime
  let bounds ← if ← optOp ":" then
      lifetimeBounds fun ts => ts.isEmpty || ts.isOp "," || ts.isOp ">"
    else pure []
  return .lifetimeParam attributes l bounds

def typeParam (attributes : List Attribute) : Parser α d (Syn d .genericParam) := do
  let n ← name
  let bounds ← if ← optOp ":" then
      boundsUntil r fun ts => ts.isEmpty || ts.isOp "," || ts.isOp ">" || ts.isOp "="
    else pure .nil
  let default ← if ← optOp "=" then .present <$> r.type true else pure .absent
  return .typeParam attributes n bounds default

def constParam (attributes : List Attribute) : Parser α d (Syn d .genericParam) := do
  word "const"
  let n ← name
  op ":"
  let t ← r.type true
  let default ← if ← optOp "=" then .present <$> constArgument r else pure .absent
  return .constParam attributes n t default

def binderParam : Parser α d (Syn d .genericParam) := do
  let attributes ← outerAttributes r
  let ts ← upcoming
  if ts.isName then typeParam r attributes
  else if ts.isLifetime then lifetimeParam attributes
  else if ts.isWord "const" then constParam r attributes
  else failExpecting [.name, .lifetime, .word "const"]

def binder : Parser α d (Option Verbatim) := do
  if (← upcoming).isWord "for" then
    return some (← tokensOf do
      word "for"
      op "<"
      discard (separated "," (·.isOp ">") (binderParam r))
      op ">")
  else return none

def genericParam : Parser α d (Syn d .genericParam) := do
  let attributes ← outerAttributes r
  let ts ← upcoming
  if ts.isLifetime then lifetimeParam attributes
  else if ts.isName then typeParam r attributes
  else if ts.isWord "const" then constParam r attributes
  else if ts.isWord "_" then return .typeParam attributes (← anyWord) .nil .absent
  else failExpecting [.lifetime, .name, .word "const"]

def generics : Parser α d (Syn d (.list .genericParam)) := do
  if ← optOp "<" then
    let params ← separated "," (·.isOp ">") (genericParam r)
    op ">"
    return .ofList params
  else return .nil

/-- Whether an angle bracket opens generic parameters rather than a qualified path. A name alone in
brackets is taken for a parameter. -/
def opensGenerics (ts : Tokens α) : Bool :=
  let second := ts.skip 1
  let third := ts.skip 2
  ts.isOp "<" &&
    (second.isOp ">" || second.isOp "#" ||
      (second.isLifetime || second.isName) &&
        (third.isOp ">" || third.isOp "," || third.isOp ":" && !third.isOp "::" ||
          third.isOp "=") ||
      second.isWord "const")

def isConditionEnd (ts : Tokens α) : Bool :=
  ts.isEmpty || ts.isGroup .brace || ts.isOp "," || ts.isOp ";" ||
    ts.isOp ":" && !ts.isOp "::" || ts.isOp "="

def condition : Parser α d Unit := do
  let ts ← upcoming
  if ts.isLifetime && (ts.skip 1).isOp ":" then
    discard lifetime
    op ":"
    discard (lifetimeBounds (d := d) fun ts => isConditionEnd ts || ts.isOp ":")
  else
    discard (binder r)
    discard (r.type true)
    op ":"
    discard (boundsUntil r isConditionEnd)

def whereClause : Parser α d Verbatim := do
  if (← upcoming).isWord "where" then
    tokensOf do
      word "where"
      if opensGenerics (← upcoming) then fail .whereGenerics
      discard (joined "," isConditionEnd (condition r))
  else return []

/-! ### Bounds -/

def resultType (allowPlus : Bool) : Parser α d (Syn d (.opt .type)) := do
  if ← optOp "->" then return .present (← r.type allowPlus) else return .absent

def hasNoArguments : Syn d .segment → Bool
  | .plainSegment _ => true
  | .angleSegment _ args => args.isNil
  | _ => false

def segmentName : Syn d .segment → String
  | .plainSegment n | .angleSegment n _ | .callSegment n _ _ => n

/-- The trait of a bound. Its last segment may have arguments in parentheses. -/
def traitPath : Parser α d (Syn d .path) := do
  let (isGlobal, ss) ← plainPath r false
  let ts ← upcoming
  match ss.getLast? with
  | some last =>
    if hasNoArguments last &&
        (ts.isGroup .parenthesis || ts.isOp "::" && (ts.skip 2).isGroup .parenthesis) then
      discard (optOp "::")
      let inputs ← inside .parenthesis (commaList (r.type true))
      let output ← resultType r false
      let call := .callSegment (segmentName last) (.ofList inputs) output
      return .plainPath isGlobal (.ofList (ss.dropLast ++ [call]))
    else return .plainPath isGlobal (.ofList ss)
  | none => return .plainPath isGlobal .nil

def constMarker (allowConst : Bool) : Parser α d Bool := do
  let ts ← upcoming
  let m ← mark
  if ts.isGroup .bracket then
    inside .bracket (word "const")
    if allowConst then return true else failAt m .maybeConstNotAllowed
  else if ← optWord "const" then
    if allowConst then return true else failAt m .constNotAllowed
  else return false

/-- A trait bound without its parentheses, or nothing if it is marked as constant. A question mark
and a binder exclude each other, which is told once the path is read. -/
def bareTraitBound (hasParens allowConst : Bool) : Parser α d (Option (Syn d .bound)) := do
  let outer ← binder r
  let isConst ← constMarker allowConst
  let m ← mark
  let isMaybe ← optOp "?"
  let binder ← if outer.isNone && isMaybe then binder r else pure outer
  let p ← traitPath r
  if isMaybe && binder.isSome then failAt m .binderNotAllowed
  if isConst then return none else return some (.traitBound hasParens isMaybe binder p)

def capture : Parser α d Unit := do
  word "use"
  op "<"
  discard (collect (x := Unit) do
    let ts ← upcoming
    if ts.isOp ">" then return none
    else
      if ts.isLifetime then discard lifetime
      else if ts.isName || ts.isWord "Self" then discard anyWord
      else failExpecting [.lifetime, .name, .op ">"]
      if ← optOp "," then return some ()
      else if (← upcoming).isOp ">" then return some ()
      else failExpecting [.op ",", .op ">"])
  op ">"

def boundRule (allowCapture allowConst : Bool) : Parser α d (Syn d .bound) := do
  let ts ← upcoming
  let m ← mark
  if ts.isLifetime then return .lifetimeBound (← lifetime)
  else if ts.isWord "use" then
    let tokens ← tokensOf (capture : Parser α d Unit)
    if allowCapture then return .verbatimBound tokens else failAt m .captureNotAllowed
  else
    let (bound, tokens) ← withTokens
      (if ts.isGroup .parenthesis then inside .parenthesis (bareTraitBound r true allowConst)
        else bareTraitBound r false allowConst)
    return bound.getD (.verbatimBound (Token.forgetAll tokens))

/-- Whether another bound follows a plus sign. Brackets begin one only where `const` may stand in
them. -/
def isBoundStart (allowConst : Bool) (ts : Tokens α) : Bool :=
  ts.isAnyWord || ts.isOp "::" || ts.isOp "?" || ts.isLifetime || ts.isGroup .parenthesis ||
    allowConst && ts.isGroup .bracket

def bounds (allowPlus allowCapture allowConst : Bool) : Parser α d (List (Syn d .bound)) := do
  let first ← r.bound allowCapture allowConst
  let others ← collect do
    if allowPlus && (← upcoming).isOp "+" then
      op "+"
      if isBoundStart allowConst (← upcoming) then
        return some (← r.bound allowCapture allowConst)
      else return none
    else return none
  return first :: others

def moreBounds : Parser α d (List (Syn d .bound)) :=
  collect do if ← optOp "+" then return some (← r.bound false false) else return none

def isTraitBound : Syn d .bound → Bool
  | .lifetimeBound _ => false
  | _ => true

def objectBounds (m : α) (allowPlus : Bool) : Parser α d (Syn d (.list .bound)) := do
  let bs ← bounds r allowPlus false false
  if bs.any isTraitBound then return .ofList bs else failAt m .objectWithoutTrait

def objectType (allowPlus : Bool) : Parser α d (Syn d .type) := do
  let m ← mark
  let hasDyn ← optWord "dyn"
  return .objectType hasDyn (← objectBounds r m allowPlus)

/-! ### Types -/

def abi : Parser α d (Option Verbatim) := do
  if (← upcoming).isWord "extern" then
    return some (← tokensOf do
      word "extern"
      if (← upcoming).isStringLiteral then discard literal)
  else return none

def isNameOrBlank (ts : Tokens α) : Bool := ts.isName || ts.isWord "_"

/-- A parameter of a function type. The first may be called `self`; with `mut` before it the whole
parameter is kept as it is. -/
def bareParam (isFirst : Bool) (attributes : List Attribute) : Parser α d (Syn d .bareParam) := do
  let ((named, type), tokens) ← withTokens do
    let ts ← upcoming
    let hasMut := isFirst && ts.isWord "mut" && (ts.skip 1).isWord "self"
    if hasMut then word "mut"
    let ts ← upcoming
    let isColon := (ts.skip 1).isOp ":" && !(ts.skip 1).isOp "::"
    let isNamed := isNameOrBlank ts && isColon
    let isSelf := !isNamed && isFirst && ts.isWord "self" && isColon
    let named ← if isNamed || isSelf then
        let n ← anyWord
        op ":"
        pure (some n)
      else pure none
    let ts ← upcoming
    if isFirst && !isSelf && ts.isWord "mut" && (ts.skip 1).isWord "self" then
      word "mut"
      word "self"
      return (named, none)
    else if hasMut && named.isNone then
      word "self"
      return (named, none)
    else
      let t ← r.type true
      return (named, if hasMut then none else some t)
  return match type with
    | some t => .bareParam attributes named t
    | none => .bareParam attributes none (.verbatimType (Token.forgetAll tokens))

def bareVariadic (attributes : List Attribute) : Parser α d Variadic := do
  let named ← if isNameOrBlank (← upcoming) then
      let n ← tokensOf anyWord
      op ":"
      pure n
    else pure []
  op "..."
  discard (optOp ",")
  return ⟨attributes, named⟩

def bareParams : Parser α d (List (Syn d .bareParam) × Option Variadic) := do
  go ((← upcoming).length + 1) true
where
  go : Nat → Bool → Parser α d (List (Syn d .bareParam) × Option Variadic)
    | 0, _ => return ([], none)
    | n + 1, isFirst => do
      if ← atEnd then return ([], none)
      else
        let attributes ← outerAttributes r
        let ts ← upcoming
        if ts.isOp "..." ||
            isNameOrBlank ts && (ts.skip 1).isOp ":" && (ts.skip 2).isOp "..." then
          return ([], some (← bareVariadic attributes))
        else
          let p ← bareParam r isFirst attributes
          if ← atEnd then return ([p], none)
          else
            op ","
            let (ps, variadic) ← go n false
            return (p :: ps, variadic)

def fnType (binder : Option Verbatim) : Parser α d (Syn d .type) := do
  let isUnsafe ← optWord "unsafe"
  let abi ← abi
  word "fn"
  let ((params, variadic), left) ← enter .parenthesis (bareParams r)
  let result ← resultType r false
  note left
  return .fnType binder ⟨false, false, isUnsafe, abi⟩ (.ofList params) variadic result

inductive Parenthesized (d : Nat) where
  | complete (type : Syn d .type)
  | bound (bound : Syn d .bound)
  | single (type : Syn d .type) (endsInPlus : Bool)

def parenthesized : Parser α d (Parenthesized d) := do
  let ts ← upcoming
  if ts.isEmpty then return .complete (.tupleType .nil)
  else if ts.isLifetime then return .complete (.parenType (← objectType r true))
  else if ts.isOp "?" then
    return .bound ((← bareTraitBound r true false).getD (.verbatimBound []))
  else
    let (first, tokens) ← withTokens (r.type true)
    if (← upcoming).isOp "," then
      op ","
      return .complete (.tupleType (.cons first (.ofList (← commaList (r.type true)))))
    else
      let endsInPlus := match tokens.getLast? with
        | some (.punct _ '+' _) => true
        | _ => false
      return .single first endsInPlus

def boundOfType? (endsInPlus : Bool) : Syn d .type → Option (Syn d .bound)
  | .pathType (.plainPath isGlobal ss) => some (.traitBound true false none (.plainPath isGlobal ss))
  | .objectType false (.cons b .nil) =>
    if endsInPlus then none
    else match b with
      | .traitBound _ isMaybe binder p => some (.traitBound true isMaybe binder p)
      | b => some b
  | _ => none

/-- A tuple, a type in parentheses, or bounds of which the first is in parentheses. -/
def parenType (allowPlus : Bool) : Parser α d (Syn d .type) := do
  let (content, left) ← enter .parenthesis (parenthesized r)
  let type ← match content with
    | .complete t => pure t
    | .bound b => pure (.objectType false (.cons b (.ofList (← moreBounds r))))
    | .single t endsInPlus =>
      if allowPlus && (← upcoming).isOp "+" then
        match boundOfType? endsInPlus t with
        | some b => pure (.objectType false (.cons b (.ofList (← moreBounds r))))
        | none => pure (.parenType t)
      else pure (.parenType t)
  note left
  return type

def builtin : Parser α d Verbatim :=
  tokensOf do
    word "builtin"
    op "#"
    discard name
    inside .parenthesis (discard remainder)

/-- A type that begins with a path: the path itself, a macro, or bounds. -/
def pathType (allowPlus : Bool) (binder : Option Verbatim) : Parser α d (Syn d .type) := do
  let ts ← upcoming
  if ts.isWord "builtin" && (ts.skip 1).isOp "#" then return .verbatimType (← builtin)
  else
    let p ← path r false
    match p with
    | .qualifiedPath _ _ _ _ => return .pathType p
    | p =>
      let ts ← upcoming
      if isInvocation ts p then return .macroType (← invocation p)
      else if binder.isSome || allowPlus && ts.isOp "+" then
        let others ← collect do
          if allowPlus && (← upcoming).isOp "+" then
            op "+"
            if isBoundStart false (← upcoming) then return some (← r.bound false false)
            else return none
          else return none
        return .objectType false (.cons (.traitBound false false binder p) (.ofList others))
      else return .pathType p

def pointerType : Parser α d (Syn d .type) := do
  op "*"
  let ts ← upcoming
  if ts.isWord "const" || ts.isWord "mut" then
    let w ← anyWord
    return .pointerType (w == "mut") (← r.type false)
  else failExpecting [.word "const", .word "mut"]

def referenceType : Parser α d (Syn d .type) := do
  op "&"
  let l ← optLifetime
  let isMut ← optWord "mut"
  return .referenceType l isMut (← r.type false)

def bracketType : Parser α d (Syn d .type) :=
  inside .bracket do
    let t ← r.type true
    if ← optOp ";" then return .arrayType t (← r.expr) else return .sliceType t

def implType (allowPlus : Bool) : Parser α d (Syn d .type) := do
  let m ← mark
  word "impl"
  let bs ← bounds r allowPlus true true
  let isTrait : Syn d .bound → Bool
    | .traitBound _ _ _ _ => true
    | .verbatimBound (.ident _ w :: _) => w != "use"
    | .verbatimBound _ => true
    | _ => false
  if bs.any isTrait then return .implType (.ofList bs) else failAt m .implWithoutTrait

/-- An object type behind the word `dyn`; with a star it is kept as it is. -/
def dynType (allowPlus : Bool) : Parser α d (Syn d .type) := do
  let m ← mark
  let ((hasStar, bs), tokens) ← withTokens do
    word "dyn"
    let hasStar ← optOp "*"
    return (hasStar, ← objectBounds r m allowPlus)
  if hasStar then return .verbatimType (Token.forgetAll tokens) else return .objectType true bs

def isPathKeyword (ts : Tokens α) : Bool :=
  ts.isWord "super" || ts.isWord "self" || ts.isWord "Self" || ts.isWord "crate"

/-- A type. A sum of bounds is read only if `allowPlus` says so. -/
def typeRule (allowPlus : Bool) : Parser α d (Syn d .type) := do
  let binder ← binder r
  let ts ← upcoming
  if binder.isSome && !(ts.isName || ts.isWord "fn" || ts.isWord "unsafe" || ts.isWord "extern" ||
      isPathKeyword ts) then
    failExpecting [.name, .word "fn", .word "unsafe", .word "extern", .word "super", .word "self",
      .word "Self", .word "crate"]
  else if ts.isGroup .parenthesis then parenType r allowPlus
  else if ts.isWord "fn" || ts.isWord "unsafe" || ts.isWord "extern" then fnType r binder
  else if ts.isName || isPathKeyword ts || ts.isOp "::" || ts.isOp "<" then
    pathType r allowPlus binder
  else if ts.isWord "dyn" then dynType r allowPlus
  else if ts.isGroup .bracket then bracketType r
  else if ts.isOp "*" then pointerType r
  else if ts.isOp "&" then referenceType r
  else if ts.isOp "!" then
    op "!"
    return .neverType
  else if ts.isWord "impl" then implType r allowPlus
  else if ts.isWord "_" then
    word "_"
    return .inferType
  else if ts.isLifetime then objectType r true
  else
    failExpecting [.word "for", .group .parenthesis, .word "fn", .word "unsafe", .word "extern",
      .name, .op "::", .op "<", .word "dyn", .group .bracket, .op "*", .op "&", .op "!",
      .word "impl", .word "_", .lifetime]

end LeafPaths.Grammar
