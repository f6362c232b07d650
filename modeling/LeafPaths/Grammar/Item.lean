import LeafPaths.Grammar.Statement

/-!
Items.

Functions, modules, impls, traits, constants and statics are kept with their parts; of all other
items, and of the few forms of these that stand for nothing, only the tokens are kept.
-/

namespace LeafPaths.Grammar

variable {α : Type} {d : Nat} (r : Rules α d)

/-! ### Functions -/

def isSignature (allowSafe : Bool) (ts : Tokens α) : Bool :=
  let drop (w : String) (ts : Tokens α) : Tokens α := if ts.isWord w then ts.skip 1 else ts
  let ts := drop "async" (drop "const" ts)
  let ts := if allowSafe && ts.isWord "safe" then ts.skip 1 else drop "unsafe" ts
  let ts :=
    if ts.isWord "extern" then
      if (ts.skip 1).isStringLiteral then ts.skip 2 else ts.skip 1
    else ts
  ts.isWord "fn"

def receiver (attributes : List Attribute) : Parser α d (Syn d .param × α) := do
  let reference ← if ← optOp "&" then some <$> optLifetime else pure none
  let isMut ← optWord "mut"
  let m ← mark
  word "self"
  let type ← if reference.isNone && (← upcoming).isOp ":" then
      op ":"
      .present <$> r.type true
    else pure .absent
  return (.receiver attributes reference isMut type, m)

inductive Parameter (α : Type) (d : Nat) where
  | receiver (param : Syn d .param) (selfMark : α)
  | typed (param : Syn d .param)
  | variadic (it : Variadic)

def isReceiver (ts : Tokens α) : Bool :=
  let ts :=
    if ts.isOp "&" then
      if (ts.skip 1).isLifetime then ts.skip 2 else ts.skip 1
    else ts
  let ts := if ts.isWord "mut" then ts.skip 1 else ts
  ts.isWord "self" && !(ts.skip 1).isOp "::"

/-- A parameter of a function. A type with arguments may stand alone, without a pattern. -/
def parameter : Parser α d (Parameter α d) := do
  let attributes ← outerAttributes r
  let ts ← upcoming
  if ← optOp "..." then return .variadic ⟨attributes, []⟩
  else if isReceiver ts then
    let (p, m) ← receiver r attributes
    return .receiver p m
  else if ts.isName && (ts.skip 1).isOp "<" then
    return .typed (.typedParam attributes .wildPat (← r.type true))
  else
    let (p, tokens) ← withTokens r.pat
    op ":"
    if ← optOp "..." then return .variadic ⟨attributes, Token.forgetAll tokens⟩
    else return .typed (.typedParam attributes p (← r.type true))

/-- The parameters of a function. A receiver comes first if at all, dots come last. -/
def parameters : Parser α d (List (Syn d .param) × Option Variadic) := do
  go ((← upcoming).length + 1) true false
where
  go : Nat → Bool → Bool → Parser α d (List (Syn d .param) × Option Variadic)
    | 0, _, _ => return ([], none)
    | n + 1, isFirst, hasReceiver => do
      if ← atEnd then return ([], none)
      else
        let next (p : Syn d .param) (hasReceiver : Bool) :
            Parser α d (List (Syn d .param) × Option Variadic) := do
          if ← atEnd then return ([p], none)
          else
            op ","
            let (ps, variadic) ← go n false hasReceiver
            return (p :: ps, variadic)
        match ← parameter r with
        | .variadic it =>
          if !(← atEnd) then op ","
          return ([], some it)
        | .receiver p m =>
          if hasReceiver then failAt m .secondReceiver
          else if !isFirst then failAt m .receiverNotFirst
          else next p true
        | .typed p => next p hasReceiver

/-- A signature. In foreign blocks the word `safe` may stand in it. -/
def signature (allowSafe : Bool) : Parser α d (Syn d .signature) := do
  let isConst ← optWord "const"
  let isAsync ← optWord "async"
  let isUnsafe ← optWord "unsafe"
  if allowSafe && !isUnsafe then discard (optWord "safe")
  let abi ← abi
  word "fn"
  let n ← name
  let generics ← generics r
  let ((params, variadic), left) ← enter .parenthesis (parameters r)
  let result ← resultType r true
  let conditions ← whereClause r
  note left
  return .signature ⟨isConst, isAsync, isUnsafe, abi⟩ n generics (.ofList params) variadic result
    conditions

/-! ### Constants and types -/

def nameOrBlank : Parser α d String := do
  if isNameOrBlank (← upcoming) then anyWord else failExpecting [.name, .word "_"]

/-- The parts of a constant, or nothing if it lacks a value or has generics or conditions. -/
def constant : Parser α d (Option (String × Syn d .type × Syn d .expr)) := do
  word "const"
  let n ← nameOrBlank
  let hasGenerics := (← upcoming).isOp "<"
  discard (generics r)
  op ":"
  let t ← r.type true
  let value ← if ← optOp "=" then some <$> r.expr else pure none
  let conditions ← whereClause r
  op ";"
  return if hasGenerics || !conditions.isEmpty then none else value.map fun e => (n, t, e)

inductive ConditionsPlace where
  | beforeEquals
  | afterEquals
  | anywhere
deriving DecidableEq

def typeAlias (allowDefault : Bool) (place : ConditionsPlace) : Parser α d Unit := do
  discard (visibility : Parser α d Verbatim)
  if allowDefault then discard (optWord "default")
  word "type"
  discard name
  discard (generics r)
  if ← optOp ":" then
    discard (separated "+" (fun ts => ts.isWord "where" || ts.isOp "=" || ts.isOp ";")
      (r.bound false true))
  let early ← if place = .afterEquals then pure [] else whereClause r
  if ← optOp "=" then discard (r.type true)
  if place ≠ .beforeEquals && early.isEmpty then discard (whereClause r)
  op ";"

/-! ### Structures -/

/-- A field with a name. An underscore may have an anonymous structure as its type. -/
def namedField : Parser α d Unit := do
  discard (outerAttributes r)
  discard (visibility : Parser α d Verbatim)
  let isBlank := (← upcoming).isWord "_"
  if isBlank then discard anyWord else discard name
  op ":"
  let ts ← upcoming
  if isBlank && (ts.isWord "struct" || ts.isWord "union" && (ts.skip 1).isGroup .brace) then
    discard anyWord
    r.fields
  else discard (r.type true)

def fieldsRule : Parser α d Unit := inside .brace (discard (commaList (namedField r)))

def tupleField : Parser α d Unit := do
  discard (outerAttributes r)
  discard (visibility : Parser α d Verbatim)
  discard (r.type true)

def tupleFields : Parser α d Unit :=
  inside .parenthesis (discard (commaList (tupleField r)))

def structBody : Parser α d Unit := do
  let hasConditions := (← upcoming).isWord "where"
  discard (whereClause r)
  let ts ← upcoming
  if !hasConditions && ts.isGroup .parenthesis then
    tupleFields r
    let hasConditions := (← upcoming).isWord "where"
    discard (whereClause r)
    if (← upcoming).isOp ";" then op ";"
    else failExpecting (if hasConditions then [.op ";"] else [.word "where", .op ";"])
  else if ts.isGroup .brace then fieldsRule r
  else if ts.isOp ";" then op ";"
  else
    failExpecting (if hasConditions then [.group .brace, .op ";"]
      else [.word "where", .group .parenthesis, .group .brace, .op ";"])

def variant : Parser α d Unit := do
  discard (outerAttributes r)
  discard (visibility : Parser α d Verbatim)
  discard name
  let ts ← upcoming
  if ts.isGroup .brace then fieldsRule r else if ts.isGroup .parenthesis then tupleFields r
  if ← optOp "=" then discard r.expr

/-! ### Imports and macros -/

/-- A tree of imports. Global paths may begin it, or the trees in its braces. -/
def useTreeRule (allowGlobal : Bool) : Parser α d Unit := do
  let ts ← upcoming
  if ts.isName || ts.isWord "self" || ts.isWord "super" || ts.isWord "crate" || ts.isWord "try" then
    discard anyWord
    if ← optOp "::" then r.useTree false
    else if ← optWord "as" then
      if isNameOrBlank (← upcoming) then discard anyWord else fail .noRename
  else if ts.isOp "*" then op "*"
  else if ts.isGroup .brace then
    inside .brace (discard (commaList do
      let isGlobal ← if allowGlobal then optOp "::" else pure false
      r.useTree (allowGlobal && !isGlobal)))
  else
    failExpecting [.name, .word "self", .word "super", .word "crate", .word "try", .op "*",
      .group .brace]

/-- A macro invocation in an impl, a trait or a foreign block. A semicolon ends it unless it has
braces. -/
def macroMember : Parser α d Unit := do
  let call ← invocation (← (modPath : Parser α d (Syn d .path)))
  if !call.hasBraces then op ";"

def macroItem : Parser α d Unit := do
  discard (modPath : Parser α d (Syn d .path))
  op "!"
  let ts ← upcoming
  if ts.isName || ts.isWord "try" then discard anyWord
  let (del, _) ← (body : Parser α d (Delimiter × Body d))
  if del ≠ .brace then op ";"

def macroDefinition : Parser α d Unit := do
  word "macro"
  discard name
  let hasParens := (← upcoming).isGroup .parenthesis
  if hasParens then inside .parenthesis (discard remainder)
  if (← upcoming).isGroup .brace then inside .brace (discard remainder)
  else failExpecting (if hasParens then [.group .brace] else [.group .parenthesis, .group .brace])

def isMacroPath (ts : Tokens α) : Bool :=
  ts.isName || ts.isWord "self" || ts.isWord "super" || ts.isWord "crate" || ts.isOp "::"

def macroPathStarts : List Terminal :=
  [.name, .word "self", .word "super", .word "crate", .op "::"]

/-! ### Foreign blocks -/

def foreignFn : Parser α d Unit := do
  discard (visibility : Parser α d Verbatim)
  discard (signature r true)
  if (← upcoming).isGroup .brace then discard (attributedBlock r) else op ";"

def foreignStatic : Parser α d Unit := do
  discard (visibility : Parser α d Verbatim)
  if !(← optWord "unsafe") then discard (optWord "safe")
  word "static"
  discard (optWord "mut")
  discard name
  op ":"
  discard (r.type true)
  if ← optOp "=" then discard r.expr
  op ";"

def foreignMember : Parser α d Unit := do
  discard (outerAttributes r)
  let (vis, ts) ← ahead (visibility : Parser α d Verbatim)
  if isSignature true ts then foreignFn r
  else if ts.isWord "static" ||
      (ts.isWord "unsafe" || ts.isWord "safe") && (ts.skip 1).isWord "static" then
    foreignStatic r
  else if ts.isWord "type" then typeAlias r false .anywhere
  else if vis.isEmpty && isMacroPath ts then macroMember
  else
    discard (visibility : Parser α d Verbatim)
    failExpecting ([.word "fn", .word "static", .word "type"] ++
      if vis.isEmpty then macroPathStarts else [])

def foreignBlock : Parser α d Unit := do
  discard (optWord "unsafe")
  word "extern"
  if (← upcoming).isStringLiteral then discard literal
  inside .brace do
    discard (innerAttributes r)
    discard (untilEnd (foreignMember r))

def externCrate : Parser α d Unit := do
  discard (visibility : Parser α d Verbatim)
  word "extern"
  word "crate"
  if (← upcoming).isWord "self" then discard anyWord else discard name
  if ← optWord "as" then
    if (← upcoming).isWord "_" then discard anyWord else discard name
  op ";"

/-! ### Impls -/

/-- A member of an impl. A function without a body is none. -/
def implMember : Parser α d (Syn d .implMember) := do
  let attributes ← outerAttributes r
  let (m, tokens) ← withTokens do
    let (vis, ts) ← ahead (visibility : Parser α d Verbatim)
    let isDefault := ts.isWord "default" && !(ts.skip 1).isOp "!"
    let ts := if isDefault then ts.skip 1 else ts
    if isSignature false ts then
      let vis ← visibility
      let isDefault ← optWord "default"
      let sig ← signature r false
      if ← optOp ";" then return none
      else return some (.method vis isDefault sig (← attributedBlock r))
    else if ts.isWord "const" then
      discard (visibility : Parser α d Verbatim)
      discard (optWord "default")
      discard (constant r)
      return none
    else if ts.isWord "type" then
      typeAlias r true .afterEquals
      return none
    else if vis.isEmpty && !isDefault && isMacroPath ts then
      macroMember
      return none
    else
      discard (visibility : Parser α d Verbatim)
      if isDefault then word "default"
      failExpecting ((if isDefault then [] else [.word "default"]) ++
        [.word "fn", .word "const", .word "type"] ++
        if vis.isEmpty && !isDefault then macroPathStarts else [])
  let m : Syn d .implMember := m.getD (.otherImplMember (Token.forgetAll tokens))
  return if attributes.isEmpty then m else .attributedImplMember attributes m

def isTraitName : Syn d .type → Bool
  | .pathType (.plainPath _ _) => true
  | _ => false

/-- What an impl is of, or for: whether something other than a trait stands before the word `for`. -/
def implTarget (m : α) (isNegative : Bool) : Parser α d Bool := do
  let first ← r.type true
  if ← optWord "for" then
    discard (r.type true)
    return !isTraitName first
  else if isNegative then failAt m .negativeInherentImpl
  else return false

/-- An impl. One that is public, constant, or of something other than a trait stands for
nothing. -/
def implItem : Parser α d (Syn d .item) := do
  let ((header, isOpaque, members), tokens) ← withTokens do
    let (isOpaque, header) ← withTokens do
      let vis ← visibility
      discard (optWord "default")
      discard (optWord "unsafe")
      word "impl"
      if opensGenerics (← upcoming) then discard (generics r)
      let ts ← upcoming
      let isConst := ts.isWord "const" || ts.isOp "?" && (ts.skip 1).isWord "const"
      if isConst then
        discard (optOp "?")
        word "const"
      let ts ← upcoming
      let m ← mark
      let isNegative := ts.isOp "!" && !(ts.skip 1).isGroup .brace
      if isNegative then op "!"
      let isForOther ← implTarget r m isNegative
      discard (whereClause r)
      return !vis.isEmpty || isConst || isForOther
    let members ← inside .brace do
      discard (innerAttributes r)
      untilEnd (implMember r)
    return (Token.forgetAll header, isOpaque, members)
  return if isOpaque then .otherItem (Token.forgetAll tokens)
    else .implItem header (.ofList members)

/-! ### Traits -/

def traitFn : Parser α d (Syn d .traitMember) := do
  let sig ← signature r false
  let ts ← upcoming
  if ts.isGroup .brace then return .traitMethod sig (.present (← attributedBlock r))
  else if ts.isOp ";" then
    op ";"
    return .traitMethod sig .absent
  else failExpecting [.group .brace, .op ";"]

/-- A member of a trait. With a visibility or the word `default` it stands for nothing. -/
def traitMember : Parser α d (Syn d .traitMember) := do
  let attributes ← outerAttributes r
  let (m, tokens) ← withTokens do
    let vis ← visibility
    let isDefault ← optWord "default"
    let isPlain := vis.isEmpty && !isDefault
    let ts ← upcoming
    if isSignature false ts then
      let f ← traitFn r
      return if isPlain then some f else none
    else if ts.isWord "const" then
      let second := ts.skip 1
      if isNameOrBlank second then
        discard (constant r)
        return none
      else if second.isWord "async" || second.isWord "unsafe" || second.isWord "extern" ||
          second.isWord "fn" then
        let f ← traitFn r
        return if isPlain then some f else none
      else
        word "const"
        failExpecting [.name, .word "_", .word "async", .word "unsafe", .word "extern", .word "fn"]
    else if ts.isWord "type" then
      typeAlias r false .afterEquals
      return none
    else if isPlain && isMacroPath ts then
      macroMember
      return none
    else
      failExpecting ([.word "fn", .word "const", .word "type"] ++
        if isPlain then macroPathStarts else [])
  let m : Syn d .traitMember := m.getD (.otherTraitMember (Token.forgetAll tokens))
  return if attributes.isEmpty then m else .attributedTraitMember attributes m

def traitBody : Parser α d (List (Syn d .traitMember)) := do
  if ← optOp ":" then
    discard (separated "+" (fun ts => ts.isWord "where" || ts.isGroup .brace) (r.bound false true))
  discard (whereClause r)
  inside .brace do
    discard (innerAttributes r)
    untilEnd (traitMember r)

/-- A trait, or a trait alias, which stands for nothing. -/
def traitItem (allowAlias : Bool) : Parser α d (Syn d .item) := do
  let (members, tokens) ← withTokens do
    discard (visibility : Parser α d Verbatim)
    discard (optWord "unsafe")
    discard (optWord "auto")
    word "trait"
    discard name
    discard (generics r)
    let ts ← upcoming
    if allowAlias && ts.isOp "=" then
      op "="
      discard (separated "+" (fun ts => ts.isWord "where" || ts.isOp ";") (r.bound false false))
      discard (whereClause r)
      op ";"
      return none
    else if allowAlias && !(ts.isGroup .brace || ts.isOp ":" || ts.isWord "where") then
      failExpecting [.group .brace, .op ":", .word "where", .op "="]
    else return some (← traitBody r)
  return match members with
    | some members => .traitItem (headerOf tokens) (.ofList members)
    | none => .otherItem (Token.forgetAll tokens)
where
  headerOf (ts : Tokens α) : Verbatim := Token.forgetAll ts.dropLast

/-! ### Items -/

/-- A function. Without a body it stands for nothing. -/
def fnItem : Parser α d (Syn d .item) := do
  let (i, tokens) ← withTokens do
    let vis ← visibility
    let sig ← signature r false
    if ← optOp ";" then return none
    else return some (.fnItem vis sig (← attributedBlock r))
  return i.getD (.otherItem (Token.forgetAll tokens))

/-- A static. Without a type or a value it stands for nothing. -/
def staticItem : Parser α d (Syn d .item) := do
  let (i, tokens) ← withTokens do
    let vis ← visibility
    word "static"
    let isMut ← optWord "mut"
    let n ← name
    if ← optOp "=" then
      discard r.expr
      op ";"
      return none
    else
      op ":"
      let t ← r.type true
      if ← optOp ";" then return none
      else
        op "="
        let e ← r.expr
        op ";"
        return some (.staticItem vis isMut n t e)
  return i.getD (.otherItem (Token.forgetAll tokens))

def constItem : Parser α d (Syn d .item) := do
  let ((vis, parts), tokens) ← withTokens do
    let vis ← visibility
    return (vis, ← constant r)
  return match parts with
    | some (n, t, e) => .constItem vis n [] t e
    | none => .otherItem (Token.forgetAll tokens)

def modItem : Parser α d (Syn d .item) := do
  let header ← tokensOf do
    discard (visibility : Parser α d Verbatim)
    discard (optWord "unsafe")
    word "mod"
  let n ← if (← upcoming).isWord "try" then anyWord else name
  let ts ← upcoming
  if ts.isOp ";" then
    op ";"
    return .modItem header n .absent
  else if ts.isGroup .brace then
    inside .brace do
      let attributes ← innerAttributes r
      let items ← untilEnd do
        let attributes ← outerAttributes r
        return attributedItem attributes (← r.item)
      return attributedItem attributes (.modItem header n (.present (.ofList items)))
  else failExpecting [.op ";", .group .brace]

def keptItem (p : Parser α d Unit) : Parser α d (Syn d .item) := do
  return .otherItem (← tokensOf p)

def dataItem (w : String) (rest : Parser α d Unit) : Parser α d (Syn d .item) :=
  keptItem do
    discard (visibility : Parser α d Verbatim)
    word w
    discard name
    discard (generics r)
    rest

def externItem (ts : Tokens α) : Parser α d (Syn d .item) := do
  let second := ts.skip 1
  let skipTo (ts : Tokens α) : Parser α d Unit := do
    advance ((← upcoming).length - ts.length)
  if second.isWord "crate" then keptItem externCrate
  else if second.isGroup .brace then keptItem (foreignBlock r)
  else if second.isStringLiteral then
    if (ts.skip 2).isGroup .brace then keptItem (foreignBlock r)
    else
      skipTo (ts.skip 2)
      failExpecting [.group .brace]
  else
    skipTo second
    failExpecting [.word "crate", .group .brace, .stringLiteral]

def unsafeItem (ts : Tokens α) : Parser α d (Syn d .item) := do
  let second := ts.skip 1
  if second.isWord "trait" || second.isWord "auto" && (ts.skip 2).isWord "trait" then
    traitItem r false
  else if second.isWord "impl" then implItem r
  else if second.isWord "extern" then keptItem (foreignBlock r)
  else if second.isWord "mod" then modItem r
  else
    advance ((← upcoming).length - second.length)
    failExpecting [.word "trait", .word "auto", .word "impl", .word "extern", .word "mod"]

def itemRule : Parser α d (Syn d .item) := do
  let (vis, ts) ← ahead (visibility : Parser α d Verbatim)
  let second := ts.skip 1
  if isSignature false ts then fnItem r
  else if ts.isWord "extern" then externItem r ts
  else if ts.isWord "use" then
    keptItem do
      discard (visibility : Parser α d Verbatim)
      word "use"
      let isGlobal ← optOp "::"
      r.useTree (!isGlobal)
      op ";"
  else if ts.isWord "static" then staticItem r
  else if ts.isWord "const" then constItem r
  else if ts.isWord "unsafe" then unsafeItem r ts
  else if ts.isWord "mod" then modItem r
  else if ts.isWord "type" then keptItem (typeAlias r false .beforeEquals)
  else if ts.isWord "struct" then dataItem r "struct" (structBody r)
  else if ts.isWord "enum" then
    dataItem r "enum" do
      discard (whereClause r)
      inside .brace (discard (commaList (variant r)))
  else if ts.isWord "union" && second.isName then
    dataItem r "union" do
      discard (whereClause r)
      fieldsRule r
  else if ts.isWord "trait" then traitItem r true
  else if ts.isWord "auto" && second.isWord "trait" then traitItem r false
  else if ts.isWord "impl" || ts.isWord "default" && !second.isOp "!" then implItem r
  else if ts.isWord "macro" then
    keptItem do
      discard (visibility : Parser α d Verbatim)
      macroDefinition
  else if vis.isEmpty && isMacroPath ts then keptItem macroItem
  else
    discard (visibility : Parser α d Verbatim)
    failExpecting ([.word "fn", .word "extern", .word "use", .word "static", .word "const",
      .word "unsafe", .word "mod", .word "type", .word "struct", .word "enum", .word "union",
      .word "trait", .word "auto", .word "impl", .word "default", .word "macro"] ++
      if vis.isEmpty then macroPathStarts else [])

end LeafPaths.Grammar
