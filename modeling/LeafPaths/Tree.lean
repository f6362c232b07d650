/-!
Trees of syntactic categories, the data that paths are drawn through.

Identifiers and literals are the leaves and carry the text of their token. Binary, unary and
assignment nodes carry their operator, which shows in the tag. A leaf may have children: being a
leaf is a matter of its kind alone.
-/

namespace LeafPaths

/-- `AstNodeKind`: the syntactic category of a node. -/
inductive Kind where
  | file
  | module
  | implBlock
  | traitDecl
  | item
  | functionDecl
  | generics
  | typeParam
  | constParam
  | params
  | param
  | receiver
  | results
  | constDecl
  | staticDecl
  | block
  | letStmt
  | returnExpr
  | ifExpr
  | whileLoop
  | forLoop
  | endlessLoop
  | matchExpr
  | arm
  | guard
  | breakExpr
  | continueExpr
  | yieldExpr
  | binary (operator : String)
  | unary (operator : String)
  | assign (operator : String)
  | call
  | methodCall
  | macroCall
  | closure
  | fieldAccess
  | index
  | range
  | cast
  | tryExpr
  | await
  | paren
  | tuple
  | array
  | repeatExpr
  | structLit
  | fieldValue
  | path
  | genericArgs
  | assocType
  | asyncBlock
  | letExpr
  | infer
  | tuplePat
  | tupleStructPat
  | structPat
  | fieldPat
  | slicePat
  | orPat
  | refPat
  | rangePat
  | restPat
  | wildPat
  | typedPat
  | bindingPat
  | refType
  | ptrType
  | sliceType
  | arrayType
  | tupleType
  | fnType
  | traitObject
  | implTrait
  | traitBound
  | neverType
  | inferType
  | ident (token : String)
  | lit (token : String)
  | unknown
deriving DecidableEq, Repr, Inhabited

namespace Kind

def name : Kind → String
  | file => "File"
  | module => "Mod"
  | implBlock => "Impl"
  | traitDecl => "Trait"
  | item => "Item"
  | functionDecl => "FunctionDecl"
  | generics => "Generics"
  | typeParam => "TypeParam"
  | constParam => "ConstParam"
  | params => "Params"
  | param => "Param"
  | receiver => "Receiver"
  | results => "Results"
  | constDecl => "ConstDecl"
  | staticDecl => "StaticDecl"
  | block => "Block"
  | letStmt => "LetStmt"
  | returnExpr => "Return"
  | ifExpr => "If"
  | whileLoop => "While"
  | forLoop => "ForLoop"
  | endlessLoop => "Loop"
  | matchExpr => "Match"
  | arm => "Arm"
  | guard => "Guard"
  | breakExpr => "Break"
  | continueExpr => "Continue"
  | yieldExpr => "Yield"
  | binary _ => "BinaryExpr"
  | unary _ => "UnaryExpr"
  | assign _ => "AssignExpr"
  | call => "Call"
  | methodCall => "MethodCall"
  | macroCall => "MacroCall"
  | closure => "Closure"
  | fieldAccess => "FieldAccess"
  | index => "Index"
  | range => "Range"
  | cast => "Cast"
  | tryExpr => "Try"
  | await => "Await"
  | paren => "Paren"
  | tuple => "Tuple"
  | array => "Array"
  | repeatExpr => "Repeat"
  | structLit => "StructLit"
  | fieldValue => "FieldValue"
  | path => "Path"
  | genericArgs => "GenericArgs"
  | assocType => "AssocType"
  | asyncBlock => "AsyncBlock"
  | letExpr => "LetExpr"
  | infer => "Infer"
  | tuplePat => "TuplePat"
  | tupleStructPat => "TupleStructPat"
  | structPat => "StructPat"
  | fieldPat => "FieldPat"
  | slicePat => "SlicePat"
  | orPat => "OrPat"
  | refPat => "RefPat"
  | rangePat => "RangePat"
  | restPat => "RestPat"
  | wildPat => "WildPat"
  | typedPat => "TypedPat"
  | bindingPat => "BindingPat"
  | refType => "RefType"
  | ptrType => "PtrType"
  | sliceType => "SliceType"
  | arrayType => "ArrayType"
  | tupleType => "TupleType"
  | fnType => "FnType"
  | traitObject => "TraitObject"
  | implTrait => "ImplTrait"
  | traitBound => "TraitBound"
  | neverType => "NeverType"
  | inferType => "InferType"
  | ident _ => "Ident"
  | lit _ => "Lit"
  | unknown => "Unknown"

def operator? : Kind → Option String
  | binary op | unary op | assign op => some op
  | _ => none

def token? : Kind → Option String
  | ident text | lit text => some text
  | _ => none

/-- How the category is written in a path: its name, then its operator after a colon. -/
def tag (k : Kind) : String :=
  match k.operator? with
  | some op => k.name ++ ":" ++ op
  | none => k.name

end Kind

/-- `AstNode`, with its children in source order. -/
inductive Tree where
  | node (kind : Kind) (children : List Tree)
deriving Repr, Inhabited

namespace Tree

def kind : Tree → Kind
  | node k _ => k

def children : Tree → List Tree
  | node _ cs => cs

abbrev single (k : Kind) : Tree := node k []

abbrev ident (text : String) : Tree := single (.ident text)

abbrev lit (text : String) : Tree := single (.lit text)

def tag (t : Tree) : String := t.kind.tag

def token? (t : Tree) : Option String := t.kind.token?

/-- Whether paths are drawn to this node. -/
def isLeaf (t : Tree) : Bool := t.token?.isSome

/-- `function_name`: the token of the first child, whatever that is. -/
def functionName? : Tree → Option String
  | node .functionDecl (first :: _) => first.token?
  | _ => none

mutual

def nodeCount : Tree → Nat
  | node _ cs => 1 + nodeCountAll cs

def nodeCountAll : List Tree → Nat
  | [] => 0
  | t :: ts => nodeCount t + nodeCountAll ts

end

mutual

/-- The tree with every token replaced. -/
def mapTokens (r : String → String) : Tree → Tree
  | node (.ident x) cs => node (.ident (r x)) (mapTokensAll r cs)
  | node (.lit x) cs => node (.lit (r x)) (mapTokensAll r cs)
  | node k cs => node k (mapTokensAll r cs)

def mapTokensAll (r : String → String) : List Tree → List Tree
  | [] => []
  | t :: ts => mapTokens r t :: mapTokensAll r ts

end

end Tree

end LeafPaths
