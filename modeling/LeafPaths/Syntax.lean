import LeafPaths.Source.Token

/-!
Abstract syntax of Rust source files.

All syntactic sorts share one family `Syntax β s`, indexed by the sort `s`, so that a function on
syntax is one recursion and a proof about it one induction. Lists and optional parts are sorts of
the family too. Children stand in source order.

A macro invocation keeps its body unread; `β` is the type of such bodies. What never reaches a
tree of categories (attributes, visibility, where clauses, names of further arguments, generics of
constants, headers of impls and traits, items other than functions, modules, constants and statics)
is kept as tokens.
-/

namespace LeafPaths

inductive Phrase where
  | expr
  | block
  | stmt
  | pat
  | type
  | path
  | segment
  | genericArg
  | bound
  | bareParam
  | genericParam
  | param
  | signature
  | fieldValue
  | fieldPat
  | arm
  | invocation
  | implMember
  | traitMember
  | item
  | file
  | list (of : Phrase)
  | opt (of : Phrase)
deriving DecidableEq, Repr

/-- Unary operators, the reference operators apart. -/
inductive UnaryOp where
  | deref
  | not
  | neg
deriving DecidableEq, Repr

def UnaryOp.symbol : UnaryOp → String
  | deref => "*"
  | not => "!"
  | neg => "-"

/-- Operators that have an assigning form. -/
inductive ArithOp where
  | add
  | sub
  | mul
  | div
  | rem
  | bitXor
  | bitAnd
  | bitOr
  | shl
  | shr
deriving DecidableEq, Repr

def ArithOp.symbol : ArithOp → String
  | add => "+"
  | sub => "-"
  | mul => "*"
  | div => "/"
  | rem => "%"
  | bitXor => "^"
  | bitAnd => "&"
  | bitOr => "|"
  | shl => "<<"
  | shr => ">>"

inductive BinaryOp where
  | arith (op : ArithOp)
  | and
  | or
  | eq
  | lt
  | le
  | ne
  | ge
  | gt
deriving DecidableEq, Repr

def BinaryOp.symbol : BinaryOp → String
  | arith op => op.symbol
  | and => "&&"
  | or => "||"
  | eq => "=="
  | lt => "<"
  | le => "<="
  | ne => "!="
  | ge => ">="
  | gt => ">"

inductive Member where
  | named (name : String)
  | position (index : Nat)
deriving DecidableEq, Repr

/-- An attribute, its content unread. -/
structure Attribute where
  isInner : Bool
  content : Verbatim
deriving Repr

structure ClosureMode where
  binder : Option Verbatim
  isConst : Bool
  isStatic : Bool
  isAsync : Bool
  isMove : Bool
deriving Repr

structure FnMode where
  isConst : Bool
  isAsync : Bool
  isUnsafe : Bool
  abi : Option Verbatim
deriving Repr

/-- Dots for further arguments, and what stands before them, unread. -/
structure Variadic where
  attributes : List Attribute
  name : Verbatim
deriving Repr

/-- Syntax of a sort, over macro bodies in `β`. -/
inductive Syntax (β : Type) : Phrase → Type where
  | nil {s : Phrase} : Syntax β (.list s)
  | cons {s : Phrase} (head : Syntax β s) (tail : Syntax β (.list s)) : Syntax β (.list s)
  | absent {s : Phrase} : Syntax β (.opt s)
  | present {s : Phrase} (it : Syntax β s) : Syntax β (.opt s)
  -- expressions
  | literal (text : String) : Syntax β .expr
  | pathExpr (path : Syntax β .path) : Syntax β .expr
  | array (elems : Syntax β (.list .expr)) : Syntax β .expr
  | replicate (elem count : Syntax β .expr) : Syntax β .expr
  | assign (target value : Syntax β .expr) : Syntax β .expr
  | compound (op : ArithOp) (target value : Syntax β .expr) : Syntax β .expr
  | binary (op : BinaryOp) (left right : Syntax β .expr) : Syntax β .expr
  | unary (op : UnaryOp) (operand : Syntax β .expr) : Syntax β .expr
  | reference (isMut : Bool) (operand : Syntax β .expr) : Syntax β .expr
  | rawAddress (isMut : Bool) (operand : Syntax β .expr) : Syntax β .expr
  | asyncBlock (isMove : Bool) (body : Syntax β .block) : Syntax β .expr
  | await (operand : Syntax β .expr) : Syntax β .expr
  | blockExpr (label : Option String) (body : Syntax β .block) : Syntax β .expr
  | unsafeBlock (body : Syntax β .block) : Syntax β .expr
  | constBlock (body : Syntax β .block) : Syntax β .expr
  | tryBlock (body : Syntax β .block) : Syntax β .expr
  | breakExpr (label : Option String) (value : Syntax β (.opt .expr)) : Syntax β .expr
  | continueExpr (label : Option String) : Syntax β .expr
  | returnExpr (value : Syntax β (.opt .expr)) : Syntax β .expr
  | yieldExpr (value : Syntax β (.opt .expr)) : Syntax β .expr
  | call (callee : Syntax β .expr) (args : Syntax β (.list .expr)) : Syntax β .expr
  | methodCall (receiver : Syntax β .expr) (name : String)
      (turbofish : Syntax β (.opt (.list .genericArg))) (args : Syntax β (.list .expr)) :
      Syntax β .expr
  | cast (operand : Syntax β .expr) (type : Syntax β .type) : Syntax β .expr
  | closure (mode : ClosureMode) (params : Syntax β (.list .pat)) (result : Syntax β (.opt .type))
      (body : Syntax β .expr) : Syntax β .expr
  | field (base : Syntax β .expr) (member : Member) : Syntax β .expr
  | index (base position : Syntax β .expr) : Syntax β .expr
  | forLoop (label : Option String) (pat : Syntax β .pat) (iterated : Syntax β .expr)
      (body : Syntax β .block) : Syntax β .expr
  | whileLoop (label : Option String) (condition : Syntax β .expr) (body : Syntax β .block) :
      Syntax β .expr
  | endlessLoop (label : Option String) (body : Syntax β .block) : Syntax β .expr
  | ifExpr (condition : Syntax β .expr) (body : Syntax β .block)
      (otherwise : Syntax β (.opt .expr)) : Syntax β .expr
  | matchExpr (scrutinee : Syntax β .expr) (arms : Syntax β (.list .arm)) : Syntax β .expr
  | inferExpr : Syntax β .expr
  | letExpr (pat : Syntax β .pat) (value : Syntax β .expr) : Syntax β .expr
  | macroExpr (call : Syntax β .invocation) : Syntax β .expr
  | paren (inner : Syntax β .expr) : Syntax β .expr
  /-- An expression held together by delimiters that are not written. -/
  | group (inner : Syntax β .expr) : Syntax β .expr
  | range (low : Syntax β (.opt .expr)) (isClosed : Bool) (high : Syntax β (.opt .expr)) :
      Syntax β .expr
  | structLit (path : Syntax β .path) (fields : Syntax β (.list .fieldValue))
      (base : Syntax β (.opt .expr)) : Syntax β .expr
  | tryExpr (operand : Syntax β .expr) : Syntax β .expr
  | tuple (elems : Syntax β (.list .expr)) : Syntax β .expr
  | verbatimExpr (tokens : Verbatim) : Syntax β .expr
  | attributedExpr (attributes : List Attribute) (inner : Syntax β .expr) : Syntax β .expr
  | fieldValueFull (attributes : List Attribute) (member : Member) (value : Syntax β .expr) :
      Syntax β .fieldValue
  | fieldValueShort (attributes : List Attribute) (name : String) : Syntax β .fieldValue
  | arm (attributes : List Attribute) (pat : Syntax β .pat) (guard : Syntax β (.opt .expr))
      (body : Syntax β .expr) : Syntax β .arm
  | invocation (path : Syntax β .path) (delimiter : Delimiter) (body : β) : Syntax β .invocation
  -- statements
  | block (attributes : List Attribute) (stmts : Syntax β (.list .stmt)) : Syntax β .block
  | letBare (attributes : List Attribute) (pat : Syntax β .pat) : Syntax β .stmt
  | letInit (attributes : List Attribute) (pat : Syntax β .pat) (value : Syntax β .expr) :
      Syntax β .stmt
  | letElse (attributes : List Attribute) (pat : Syntax β .pat) (value diverge : Syntax β .expr) :
      Syntax β .stmt
  | itemStmt (item : Syntax β .item) : Syntax β .stmt
  | exprStmt (value : Syntax β .expr) (hasSemi : Bool) : Syntax β .stmt
  | macroStmt (attributes : List Attribute) (call : Syntax β .invocation) (hasSemi : Bool) :
      Syntax β .stmt
  -- patterns
  | constPat (body : Syntax β .block) : Syntax β .pat
  | bindingPat (isRef isMut : Bool) (name : String) (sub : Syntax β (.opt .pat)) : Syntax β .pat
  | literalPat (text : String) : Syntax β .pat
  | macroPat (call : Syntax β .invocation) : Syntax β .pat
  | orPat (cases : Syntax β (.list .pat)) : Syntax β .pat
  | parenPat (inner : Syntax β .pat) : Syntax β .pat
  | pathPat (path : Syntax β .path) : Syntax β .pat
  | rangePat (low : Syntax β (.opt .expr)) (isClosed : Bool) (high : Syntax β (.opt .expr)) :
      Syntax β .pat
  | referencePat (isMut : Bool) (inner : Syntax β .pat) : Syntax β .pat
  | restPat : Syntax β .pat
  | slicePat (elems : Syntax β (.list .pat)) : Syntax β .pat
  | structPat (path : Syntax β .path) (fields : Syntax β (.list .fieldPat)) (hasRest : Bool) :
      Syntax β .pat
  | tuplePat (elems : Syntax β (.list .pat)) : Syntax β .pat
  | tupleStructPat (path : Syntax β .path) (elems : Syntax β (.list .pat)) : Syntax β .pat
  | typedPat (inner : Syntax β .pat) (type : Syntax β .type) : Syntax β .pat
  | wildPat : Syntax β .pat
  | verbatimPat (tokens : Verbatim) : Syntax β .pat
  | attributedPat (attributes : List Attribute) (inner : Syntax β .pat) : Syntax β .pat
  | fieldPatFull (attributes : List Attribute) (member : Member) (pat : Syntax β .pat) :
      Syntax β .fieldPat
  | fieldPatShort (attributes : List Attribute) (pat : Syntax β .pat) : Syntax β .fieldPat
  -- types
  | arrayType (elem : Syntax β .type) (length : Syntax β .expr) : Syntax β .type
  | fnType (binder : Option Verbatim) (mode : FnMode) (params : Syntax β (.list .bareParam))
      (variadic : Option Variadic) (result : Syntax β (.opt .type)) : Syntax β .type
  | groupType (inner : Syntax β .type) : Syntax β .type
  | implType (bounds : Syntax β (.list .bound)) : Syntax β .type
  | inferType : Syntax β .type
  | macroType (call : Syntax β .invocation) : Syntax β .type
  | neverType : Syntax β .type
  | parenType (inner : Syntax β .type) : Syntax β .type
  | pathType (path : Syntax β .path) : Syntax β .type
  | pointerType (isMut : Bool) (target : Syntax β .type) : Syntax β .type
  | referenceType (lifetime : Option String) (isMut : Bool) (target : Syntax β .type) :
      Syntax β .type
  | sliceType (elem : Syntax β .type) : Syntax β .type
  | objectType (hasDyn : Bool) (bounds : Syntax β (.list .bound)) : Syntax β .type
  | tupleType (elems : Syntax β (.list .type)) : Syntax β .type
  | verbatimType (tokens : Verbatim) : Syntax β .type
  | bareParam (attributes : List Attribute) (name : Option String) (type : Syntax β .type) :
      Syntax β .bareParam
  | traitBound (hasParens isMaybe : Bool) (binder : Option Verbatim) (path : Syntax β .path) :
      Syntax β .bound
  | lifetimeBound (lifetime : String) : Syntax β .bound
  | verbatimBound (tokens : Verbatim) : Syntax β .bound
  -- paths
  | plainPath (isGlobal : Bool) (segments : Syntax β (.list .segment)) : Syntax β .path
  /-- `<self as Trait>::Name`: the first `traitLength` segments name the trait. -/
  | qualifiedPath (self : Syntax β .type) (traitLength : Nat) (isGlobal : Bool)
      (segments : Syntax β (.list .segment)) : Syntax β .path
  | plainSegment (name : String) : Syntax β .segment
  | angleSegment (name : String) (args : Syntax β (.list .genericArg)) : Syntax β .segment
  | callSegment (name : String) (inputs : Syntax β (.list .type))
      (output : Syntax β (.opt .type)) : Syntax β .segment
  | lifetimeArg (lifetime : String) : Syntax β .genericArg
  | typeArg (type : Syntax β .type) : Syntax β .genericArg
  | constArg (value : Syntax β .expr) : Syntax β .genericArg
  | assocTypeArg (name : String) (args : Syntax β (.opt (.list .genericArg)))
      (type : Syntax β .type) : Syntax β .genericArg
  | assocConstArg (name : String) (args : Syntax β (.opt (.list .genericArg)))
      (value : Syntax β .expr) : Syntax β .genericArg
  | constraintArg (name : String) (args : Syntax β (.opt (.list .genericArg)))
      (bounds : Syntax β (.list .bound)) : Syntax β .genericArg
  -- functions
  | lifetimeParam (attributes : List Attribute) (lifetime : String) (bounds : List String) :
      Syntax β .genericParam
  | typeParam (attributes : List Attribute) (name : String) (bounds : Syntax β (.list .bound))
      (default : Syntax β (.opt .type)) : Syntax β .genericParam
  | constParam (attributes : List Attribute) (name : String) (type : Syntax β .type)
      (default : Syntax β (.opt .expr)) : Syntax β .genericParam
  | receiver (attributes : List Attribute) (lifetime : Option (Option String)) (isMut : Bool)
      (type : Syntax β (.opt .type)) : Syntax β .param
  | typedParam (attributes : List Attribute) (pat : Syntax β .pat) (type : Syntax β .type) :
      Syntax β .param
  | signature (mode : FnMode) (name : String) (generics : Syntax β (.list .genericParam))
      (params : Syntax β (.list .param)) (variadic : Option Variadic)
      (result : Syntax β (.opt .type)) (conditions : Verbatim) : Syntax β .signature
  -- items
  | method (visibility : Verbatim) (isDefault : Bool) (signature : Syntax β .signature)
      (body : Syntax β .block) : Syntax β .implMember
  | otherImplMember (tokens : Verbatim) : Syntax β .implMember
  | attributedImplMember (attributes : List Attribute) (inner : Syntax β .implMember) :
      Syntax β .implMember
  | traitMethod (signature : Syntax β .signature) (body : Syntax β (.opt .block)) :
      Syntax β .traitMember
  | otherTraitMember (tokens : Verbatim) : Syntax β .traitMember
  | attributedTraitMember (attributes : List Attribute) (inner : Syntax β .traitMember) :
      Syntax β .traitMember
  | fnItem (visibility : Verbatim) (signature : Syntax β .signature) (body : Syntax β .block) :
      Syntax β .item
  | implItem (header : Verbatim) (members : Syntax β (.list .implMember)) : Syntax β .item
  | traitItem (header : Verbatim) (members : Syntax β (.list .traitMember)) : Syntax β .item
  | modItem (header : Verbatim) (name : String) (content : Syntax β (.opt (.list .item))) :
      Syntax β .item
  | constItem (visibility : Verbatim) (name : String) (generics : Verbatim)
      (type : Syntax β .type) (value : Syntax β .expr) : Syntax β .item
  | staticItem (visibility : Verbatim) (isMut : Bool) (name : String) (type : Syntax β .type)
      (value : Syntax β .expr) : Syntax β .item
  | otherItem (tokens : Verbatim) : Syntax β .item
  | attributedItem (attributes : List Attribute) (inner : Syntax β .item) : Syntax β .item
  | file (attributes : List Attribute) (items : Syntax β (.list .item)) : Syntax β .file

namespace Syntax

variable {β : Type}

def ofList {s : Phrase} : List (Syntax β s) → Syntax β (.list s)
  | [] => .nil
  | x :: xs => .cons x (ofList xs)

def ofOption {s : Phrase} : Option (Syntax β s) → Syntax β (.opt s)
  | none => .absent
  | some x => .present x

def toList {s : Phrase} : Syntax β (.list s) → List (Syntax β s)
  | .nil => []
  | .cons x xs => x :: toList xs

def isNil {s : Phrase} : Syntax β (.list s) → Bool
  | .nil => true
  | .cons .. => false

end Syntax

end LeafPaths
