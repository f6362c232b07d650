import LeafPaths.Syntax
import LeafPaths.Tree

/-!
From syntax to trees of categories.

A piece of syntax becomes a forest: expressions, patterns, types, blocks and items become one tree,
parts that trees do not show become none. Children keep source order, so that walking the tree
visits the tokens from left to right.

How a macro body reads as an argument list is a parameter here.
-/

namespace LeafPaths.Syntax

variable {β : Type}

def memberTree : Member → Tree
  | .named name => .ident name
  | .position i => .lit (toString i)

def isAbsent {s : Phrase} : Syntax β (.opt s) → Bool
  | .absent => true
  | .present _ => false

def isPlain : Syntax β .segment → Bool
  | .plainSegment _ => true
  | _ => false

def isLoneName : Syntax β (.list .segment) → Bool
  | .nil => false
  | .cons x xs => x.isPlain && xs.isNil

/-- A node around a forest, or nothing if the part was not written. -/
def around (k : Kind) (isMissing : Bool) (ts : List Tree) : List Tree :=
  if isMissing then [] else [.node k ts]

/-- `lower_item`, `lower_stmt`, `lower_expr`, `lower_pat`, `lower_type` and the functions they call:
the trees of a piece of syntax, where `args` gives those of a macro body. -/
def forest (args : β → List Tree) {s : Phrase} : Syntax β s → List Tree
  | nil => []
  | cons x xs => forest args x ++ forest args xs
  | absent => []
  | present x => forest args x
  -- expressions
  | literal text => [.lit text]
  | pathExpr p => forest args p
  | array es => [.node .array (forest args es)]
  | replicate e n => [.node .repeatExpr (forest args e ++ forest args n)]
  | assign l r => [.node (.assign "=") (forest args l ++ forest args r)]
  | compound op l r => [.node (.assign (op.symbol ++ "=")) (forest args l ++ forest args r)]
  | binary op l r => [.node (.binary op.symbol) (forest args l ++ forest args r)]
  | unary op e => [.node (.unary op.symbol) (forest args e)]
  | reference isMut e => [.node (.unary (if isMut then "&mut" else "&")) (forest args e)]
  | rawAddress _ _ => [.single .unknown]
  | asyncBlock _ b => [.node .asyncBlock (forest args b)]
  | await e => [.node .await (forest args e)]
  | blockExpr _ b => forest args b
  | unsafeBlock b => forest args b
  | constBlock b => forest args b
  | tryBlock b => forest args b
  | breakExpr _ e => [.node .breakExpr (forest args e)]
  | continueExpr _ => [.single .continueExpr]
  | returnExpr e => [.node .returnExpr (forest args e)]
  | yieldExpr e => [.node .yieldExpr (forest args e)]
  | call f es => [.node .call (forest args f ++ forest args es)]
  | methodCall e name ts es =>
    [.node .methodCall (forest args e ++ .ident name ::
      (around .genericArgs ts.isAbsent (forest args ts) ++ forest args es))]
  | cast e t => [.node .cast (forest args e ++ forest args t)]
  | closure _ ps t e => [.node .closure (forest args ps ++ forest args t ++ forest args e)]
  | field e m => [.node .fieldAccess (forest args e ++ [memberTree m])]
  | index e i => [.node .index (forest args e ++ forest args i)]
  | forLoop _ p e b => [.node .forLoop (forest args p ++ forest args e ++ forest args b)]
  | whileLoop _ e b => [.node .whileLoop (forest args e ++ forest args b)]
  | endlessLoop _ b => [.node .endlessLoop (forest args b)]
  | ifExpr e b o => [.node .ifExpr (forest args e ++ forest args b ++ forest args o)]
  | matchExpr e as => [.node .matchExpr (forest args e ++ forest args as)]
  | inferExpr => [.single .infer]
  | letExpr p e => [.node .letExpr (forest args p ++ forest args e)]
  | macroExpr m => forest args m
  | paren e => [.node .paren (forest args e)]
  | group e => forest args e
  | range l _ h => [.node .range (forest args l ++ forest args h)]
  | structLit p fs b => [.node .structLit (forest args p ++ forest args fs ++ forest args b)]
  | tryExpr e => [.node .tryExpr (forest args e)]
  | tuple es => [.node .tuple (forest args es)]
  | verbatimExpr _ => [.single .unknown]
  | attributedExpr _ e => forest args e
  | fieldValueFull _ m e => [.node .fieldValue (memberTree m :: forest args e)]
  | fieldValueShort _ name => [.node .fieldValue [.ident name]]
  | arm _ p g e =>
    [.node .arm (forest args p ++ around .guard g.isAbsent (forest args g) ++ forest args e)]
  | invocation p _ body => [.node .macroCall (forest args p ++ args body)]
  -- statements
  | block _ ss => [.node .block (forest args ss)]
  | letBare _ p => [.node .letStmt (forest args p)]
  | letInit _ p e => [.node .letStmt (forest args p ++ forest args e)]
  | letElse _ p e d => [.node .letStmt (forest args p ++ forest args e ++ forest args d)]
  | itemStmt i => forest args i
  | exprStmt e _ => forest args e
  | macroStmt _ m _ => forest args m
  -- patterns
  | constPat b => forest args b
  | bindingPat _ _ name sub =>
    if sub.isAbsent then [.ident name]
    else [.node .bindingPat (.ident name :: forest args sub)]
  | literalPat text => [.lit text]
  | macroPat m => forest args m
  | orPat ps => [.node .orPat (forest args ps)]
  | parenPat p => forest args p
  | pathPat p => forest args p
  | rangePat l _ h => [.node .rangePat (forest args l ++ forest args h)]
  | referencePat _ p => [.node .refPat (forest args p)]
  | restPat => [.single .restPat]
  | slicePat ps => [.node .slicePat (forest args ps)]
  | structPat p fs hasRest =>
    [.node .structPat (forest args p ++ forest args fs ++ around .restPat (!hasRest) [])]
  | tuplePat ps => [.node .tuplePat (forest args ps)]
  | tupleStructPat p ps => [.node .tupleStructPat (forest args p ++ forest args ps)]
  | typedPat p t => [.node .typedPat (forest args p ++ forest args t)]
  | wildPat => [.single .wildPat]
  | verbatimPat _ => [.single .unknown]
  | attributedPat _ p => forest args p
  | fieldPatFull _ m p => [.node .fieldPat (memberTree m :: forest args p)]
  | fieldPatShort _ p => [.node .fieldPat (forest args p)]
  -- types
  | arrayType t e => [.node .arrayType (forest args t ++ forest args e)]
  | fnType _ _ ps _ t => [.node .fnType (forest args ps ++ forest args t)]
  | groupType t => forest args t
  | implType bs => [.node .implTrait (forest args bs)]
  | inferType => [.single .inferType]
  | macroType m => forest args m
  | neverType => [.single .neverType]
  | parenType t => forest args t
  | pathType p => forest args p
  | pointerType _ t => [.node .ptrType (forest args t)]
  | referenceType _ _ t => [.node .refType (forest args t)]
  | sliceType t => [.node .sliceType (forest args t)]
  | objectType _ bs => [.node .traitObject (forest args bs)]
  | tupleType ts => [.node .tupleType (forest args ts)]
  | verbatimType _ => [.single .unknown]
  | bareParam _ name t => (name.map Tree.ident).toList ++ forest args t
  | traitBound _ _ _ p => [.node .traitBound (forest args p)]
  | lifetimeBound _ => []
  | verbatimBound _ => []
  -- paths
  | plainPath isGlobal ss =>
    if !isGlobal && ss.isLoneName then forest args ss else [.node .path (forest args ss)]
  | qualifiedPath t _ _ ss => [.node .path (forest args t ++ forest args ss)]
  | plainSegment name => [.ident name]
  | angleSegment name as => [.ident name, .node .genericArgs (forest args as)]
  | callSegment name ts t =>
    [.ident name, .node .genericArgs (forest args ts ++ forest args t)]
  | lifetimeArg _ => []
  | typeArg t => forest args t
  | constArg e => forest args e
  | assocTypeArg name _ t => [.node .assocType (.ident name :: forest args t)]
  | assocConstArg _ _ _ => []
  | constraintArg _ _ _ => []
  -- functions
  | lifetimeParam _ _ _ => []
  | typeParam _ name bs t =>
    [.node .typeParam (.ident name :: (forest args bs ++ forest args t))]
  | constParam _ name t _ => [.node .constParam (.ident name :: forest args t)]
  | receiver _ _ _ t => [.node .receiver (.ident "self" :: forest args t)]
  | typedParam _ p t => [.node .param (forest args p ++ forest args t)]
  | signature _ name gs ps _ t _ =>
    .ident name :: (around .generics gs.isNil (forest args gs) ++
      .node .params (forest args ps) :: around .results t.isAbsent (forest args t))
  -- items
  | method _ _ sig b => [.node .functionDecl (forest args sig ++ forest args b)]
  | otherImplMember _ => []
  | attributedImplMember _ m => forest args m
  | traitMethod sig b => [.node .functionDecl (forest args sig ++ forest args b)]
  | otherTraitMember _ => []
  | attributedTraitMember _ m => forest args m
  | fnItem _ sig b => [.node .functionDecl (forest args sig ++ forest args b)]
  | implItem _ ms => [.node .implBlock (forest args ms)]
  | traitItem _ ms => [.node .traitDecl (forest args ms)]
  | modItem _ _ is => [.node .module (forest args is)]
  | constItem _ name _ t e => [.node .constDecl (.ident name :: (forest args t ++ forest args e))]
  | staticItem _ _ name t e =>
    [.node .staticDecl (.ident name :: (forest args t ++ forest args e))]
  | otherItem _ => [.single .item]
  | attributedItem _ i => forest args i
  | file _ is => [.node .file (forest args is)]

end LeafPaths.Syntax
