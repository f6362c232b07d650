import LeafPaths.Syntax

/-!
Properties of syntax on which the grammar depends: what may be continued, what needs a separator
behind it, and what ends in a brace.
-/

namespace LeafPaths.Syntax

variable {β : Type}

def withoutAttributes : Syntax β .expr → Syntax β .expr
  | attributedExpr _ e => withoutAttributes e
  | e => e

def isRange (e : Syntax β .expr) : Bool :=
  match e.withoutAttributes with
  | range _ _ _ => true
  | _ => false

def isComparison (e : Syntax β .expr) : Bool :=
  match e.withoutAttributes with
  | binary op _ _ =>
    match op with
    | .eq | .lt | .le | .ne | .ge | .gt => true
    | _ => false
  | _ => false

/-- Whether an expression is a block or ends with one that belongs to it, so that it needs no
separator behind it. -/
def isBlockLike (e : Syntax β .expr) : Bool :=
  match e.withoutAttributes with
  | ifExpr _ _ _ | matchExpr _ _ | blockExpr _ _ | unsafeBlock _ | whileLoop _ _ _
  | endlessLoop _ _ | forLoop _ _ _ _ | tryBlock _ | constBlock _ => true
  | _ => false

def hasBraces : Syntax β .invocation → Bool
  | invocation _ del _ => del == .brace

/-- Whether an expression must be followed by a semicolon to be a statement before others. -/
def needsSemicolon (e : Syntax β .expr) : Bool :=
  match e.withoutAttributes with
  | macroExpr m => !m.hasBraces
  | _ => !e.isBlockLike

def isModStyle : Syntax β .path → Bool
  | plainPath _ segments => segments.toList.all fun
    | plainSegment _ => true
    | _ => false
  | qualifiedPath _ _ _ _ => false

def tokensEndInBrace (ts : Verbatim) : Bool :=
  match ts.getLast? with
  | some (.group _ del _ _) => del == .brace
  | _ => false

/-- Whether the text of an expression or a type ends with a closing brace. -/
def endsInBrace {s : Phrase} : Syntax β s → Bool
  | nil => false
  | cons x xs =>
    match xs with
    | nil => endsInBrace x
    | xs => endsInBrace xs
  | absent => false
  | present x => endsInBrace x
  | asyncBlock _ _ | blockExpr _ _ | constBlock _ | forLoop _ _ _ _ | ifExpr _ _ _
  | endlessLoop _ _ | matchExpr _ _ | structLit _ _ _ | tryBlock _ | unsafeBlock _
  | whileLoop _ _ _ => true
  | assign _ e => endsInBrace e
  | compound _ _ e => endsInBrace e
  | binary _ _ e => endsInBrace e
  | breakExpr _ e => endsInBrace e
  | cast _ t => endsInBrace t
  | closure _ _ _ e => endsInBrace e
  | group e => endsInBrace e
  | letExpr _ e => endsInBrace e
  | macroExpr m => m.hasBraces
  | range _ _ e => endsInBrace e
  | rawAddress _ e => endsInBrace e
  | reference _ e => endsInBrace e
  | returnExpr e => endsInBrace e
  | unary _ e => endsInBrace e
  | verbatimExpr ts => tokensEndInBrace ts
  | yieldExpr e => endsInBrace e
  | attributedExpr _ e => endsInBrace e
  | fnType _ _ _ _ t => endsInBrace t
  | implType bs => endsInBrace bs
  | macroType m => m.hasBraces
  | pathType p => endsInBrace p
  | pointerType _ t => endsInBrace t
  | referenceType _ _ t => endsInBrace t
  | objectType _ bs => endsInBrace bs
  | verbatimType ts => tokensEndInBrace ts
  | traitBound _ _ _ p => endsInBrace p
  | verbatimBound ts => tokensEndInBrace ts
  | plainPath _ ss => endsInBrace ss
  | qualifiedPath _ _ _ ss => endsInBrace ss
  | callSegment _ _ t => endsInBrace t
  | _ => false

end LeafPaths.Syntax
