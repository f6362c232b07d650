import LeafPaths.Grammar.Expression

/-!
Statements.
-/

namespace LeafPaths.Grammar

variable {α : Type} {d : Nat} (r : Rules α d)

/-- A `let` statement. A value that ends in a brace has no `else` behind it. -/
def letStmt (attributes : List Attribute) : Parser α d (Syn d .stmt) := do
  word "let"
  let p ← r.pat
  let p ← if ← optOp ":" then .typedPat p <$> r.type true else pure p
  let stmt ← if ← optOp "=" then
      let e ← r.expr
      if !e.endsInBrace && (← upcoming).isWord "else" then
        word "else"
        pure (.letElse attributes p e (.blockExpr none (← block r)))
      else pure (.letInit attributes p e)
    else pure (.letBare attributes p)
  op ";"
  return stmt

/-- An expression as a statement. An invocation of a macro with braces or a semicolon is a
statement of its own kind. -/
def exprStmt (attributes : List Attribute) : Parser α d (Syn d .stmt) := do
  let e ← r.early
  let hasSemi ← optOp ";"
  return match e with
    | .macroExpr call =>
      if hasSemi || call.hasBraces then .macroStmt attributes call hasSemi
      else .exprStmt (attributed attributes e) hasSemi
    | e => .exprStmt (attributed attributes e) hasSemi

def isItemStart (ts : Tokens α) : Bool :=
  let second := ts.skip 1
  let third := ts.skip 2
  ts.isWord "pub" || ts.isWord "crate" && !second.isOp "::" || ts.isWord "extern" ||
    ts.isWord "use" || ts.isWord "static" && (second.isWord "mut" || second.isName) ||
    ts.isWord "const" &&
      !(second.isGroup .brace || second.isWord "static" ||
        second.isWord "async" &&
          !(third.isWord "unsafe" || third.isWord "extern" || third.isWord "fn") ||
        second.isWord "move" || second.isOp "|") ||
    ts.isWord "unsafe" && !second.isGroup .brace ||
    ts.isWord "async" && (second.isWord "unsafe" || second.isWord "extern" || second.isWord "fn") ||
    ts.isWord "fn" || ts.isWord "mod" || ts.isWord "type" || ts.isWord "struct" ||
    ts.isWord "enum" || ts.isWord "union" && second.isName ||
    ts.isWord "auto" && second.isWord "trait" || ts.isWord "trait" ||
    ts.isWord "default" && (second.isWord "unsafe" || second.isWord "impl") ||
    ts.isWord "impl" || ts.isWord "macro"

inductive MacroStart where
  /-- A name follows the exclamation mark: a definition, and so an item. -/
  | item
  /-- Braces follow, and nothing that would continue an expression. -/
  | statement
  | none
deriving DecidableEq

def macroStart (ts : Tokens α) : MacroStart :=
  let second := ts.skip 1
  let third := ts.skip 2
  if !ts.isOp "!" then .none
  else if second.isName || second.isWord "try" then .item
  else if second.isGroup .brace && !(third.isOp "." && !third.isOp ".." || third.isOp "?") then
    .statement
  else .none

def attributedItem (attributes : List Attribute) (i : Syn d .item) : Syn d .item :=
  if attributes.isEmpty then i else .attributedItem attributes i

def stmt : Parser α d (Syn d .stmt) := do
  let attributes ← outerAttributes r
  let ts ← upcoming
  let pathAhead ← attempt (ahead (modPath : Parser α d (Syn d .path)))
  let start := match pathAhead with
    | some (_, rest) => macroStart rest
    | none => .none
  if start == .statement then
    let p ← modPath
    let call ← invocation p
    return .macroStmt attributes call (← optOp ";")
  else if ts.isWord "let" then letStmt r attributes
  else if isItemStart ts || start == .item then
    return .itemStmt (attributedItem attributes (← r.item))
  else exprStmt r attributes

def isUnfinished : Syn d .stmt → Bool
  | .exprStmt e false => e.needsSemicolon
  | .macroStmt _ call false => !call.hasBraces
  | _ => false

def emptyStmt : Syn d .stmt := .exprStmt (.verbatimExpr []) true

/-- Statements up to the end of a block. Only the last may lack a semicolon that it needs. -/
def stmtsRule : Parser α d (Syn d (.list .stmt)) := do
  return .ofList (← untilEnd do
    if ← optOp ";" then return emptyStmt
    else
      let s ← stmt r
      if isUnfinished s && !(← atEnd) then fail .missingSemicolon else return s)

end LeafPaths.Grammar
