import LeafPaths.Outline

/-!
The words that a piece of syntax holds, listed in source order and each once.

Every name, literal and unread token of the syntax is listed, whether trees show
it or not. A word that they do not show is marked with the reason, and these
reasons are all there are.
-/

namespace LeafPaths

inductive Word where
  | identifier (text : String)
  | receiver
  | literal (text : String)
  | position (index : Nat)
deriving DecidableEq, Repr

def Word.token : Word → String
  | identifier text => text
  | receiver => "self"
  | literal text => text
  | position i => toString i

/-- Why a word is not shown. -/
inductive Omission where
  | attribute
  | visibility
  | abi
  | lifetime
  -- lifetimes that `for` binds, with all else that it binds
  | binder
  | label
  | whereClause
  | variadic
  | constDefault
  | constGenerics
  -- bounds that name no trait
  | bound
  -- generic arguments other than types, constants and equalities with a type
  | genericArg
  -- arguments on the left side of such an equality
  | equalityArgs
  -- impls and traits: all before the members, and members that are no functions
  | header
  | member
  | moduleName
  -- items other than functions, impls, traits, modules, constants and statics
  | item
  -- macro bodies that list no expressions
  | macroBody
  -- expressions, patterns and types that have no category of their own
  | unknown
deriving DecidableEq, Repr

structure Entry where
  word : Word
  omission : Option Omission
deriving DecidableEq, Repr

namespace Entry

/-- A word that is shown unless the part around it is left out. -/
def held (w : Word) : Entry := ⟨w, none⟩

def name (text : String) : Entry := held (.identifier text)

/-- Leaves out a whole part for one reason. -/
def leaveOut (o : Omission) (es : List Entry) : List Entry :=
  es.map fun e => { e with omission := some o }

/-- The tokens of the words that are not left out. -/
def tokens (es : List Entry) : List String :=
  (es.filter fun e => e.omission.isNone).map fun e => e.word.token

mutual

/-- The words of an unread token, keywords among them. -/
def ofToken : Token Unit → List Entry
  | .ident _ text => [name text]
  | .lifetime _ text => [name text]
  | .punct _ _ _ => []
  | .literal _ text => [held (.literal text)]
  | .group _ _ body _ => ofTokens body

def ofTokens : Verbatim → List Entry
  | [] => []
  | t :: ts => ofToken t ++ ofTokens ts

end

def unread (o : Omission) (ts : Verbatim) : List Entry := leaveOut o (ofTokens ts)

def names (o : Omission) (texts : List String) : List Entry := leaveOut o (texts.map name)

def ofAttributes (as : List Attribute) : List Entry :=
  leaveOut .attribute (as.flatMap fun a => ofTokens a.content)

def ofVariadic (variadic : Option Variadic) : List Entry :=
  leaveOut .variadic (variadic.toList.flatMap fun v => ofAttributes v.attributes ++ ofTokens v.name)

def ofMember : Member → Entry
  | .named text => name text
  | .position i => held (.position i)

end Entry

namespace Syntax

open Entry

variable {β : Type}

/-- The words of a piece of syntax, where `body` lists those of a macro body. -/
def entries (body : β → List Entry) {s : Phrase} : Syntax β s → List Entry
  | nil => []
  | cons x xs => entries body x ++ entries body xs
  | absent => []
  | present x => entries body x
  -- expressions
  | literal text => [held (.literal text)]
  | pathExpr p => entries body p
  | array es => entries body es
  | replicate e n => entries body e ++ entries body n
  | assign l r => entries body l ++ entries body r
  | compound _ l r => entries body l ++ entries body r
  | binary _ l r => entries body l ++ entries body r
  | unary _ e => entries body e
  | reference _ e => entries body e
  | rawAddress _ e => leaveOut .unknown (entries body e)
  | asyncBlock _ b => entries body b
  | await e => entries body e
  | blockExpr label b => names .label label.toList ++ entries body b
  | unsafeBlock b => entries body b
  | constBlock b => entries body b
  | tryBlock b => entries body b
  | breakExpr label e => names .label label.toList ++ entries body e
  | continueExpr label => names .label label.toList
  | returnExpr e => entries body e
  | yieldExpr e => entries body e
  | call f es => entries body f ++ entries body es
  | methodCall e n ts es => entries body e ++ name n :: (entries body ts ++ entries body es)
  | cast e t => entries body e ++ entries body t
  | closure mode ps t e =>
    unread .binder (mode.binder.getD []) ++
      (entries body ps ++ entries body t ++ entries body e)
  | field e m => entries body e ++ [ofMember m]
  | index e i => entries body e ++ entries body i
  | forLoop label p e b =>
    names .label label.toList ++ (entries body p ++ entries body e ++ entries body b)
  | whileLoop label e b => names .label label.toList ++ (entries body e ++ entries body b)
  | endlessLoop label b => names .label label.toList ++ entries body b
  | ifExpr e b o => entries body e ++ entries body b ++ entries body o
  | matchExpr e as => entries body e ++ entries body as
  | inferExpr => []
  | letExpr p e => entries body p ++ entries body e
  | macroExpr m => entries body m
  | paren e => entries body e
  | group e => entries body e
  | range l _ h => entries body l ++ entries body h
  | structLit p fs b => entries body p ++ entries body fs ++ entries body b
  | tryExpr e => entries body e
  | tuple es => entries body es
  | verbatimExpr ts => unread .unknown ts
  | attributedExpr as e => ofAttributes as ++ entries body e
  | fieldValueFull as m e => ofAttributes as ++ ofMember m :: entries body e
  | fieldValueShort as n => ofAttributes as ++ [name n]
  | arm as p g e => ofAttributes as ++ (entries body p ++ entries body g ++ entries body e)
  | invocation p _ b => entries body p ++ body b
  -- statements
  | block as ss => ofAttributes as ++ entries body ss
  | letBare as p => ofAttributes as ++ entries body p
  | letInit as p e => ofAttributes as ++ (entries body p ++ entries body e)
  | letElse as p e d => ofAttributes as ++ (entries body p ++ entries body e ++ entries body d)
  | itemStmt i => entries body i
  | exprStmt e _ => entries body e
  | macroStmt as m _ => ofAttributes as ++ entries body m
  -- patterns
  | constPat b => entries body b
  | bindingPat _ _ n sub => name n :: entries body sub
  | literalPat text => [held (.literal text)]
  | macroPat m => entries body m
  | orPat ps => entries body ps
  | parenPat p => entries body p
  | pathPat p => entries body p
  | rangePat l _ h => entries body l ++ entries body h
  | referencePat _ p => entries body p
  | restPat => []
  | slicePat ps => entries body ps
  | structPat p fs _ => entries body p ++ entries body fs
  | tuplePat ps => entries body ps
  | tupleStructPat p ps => entries body p ++ entries body ps
  | typedPat p t => entries body p ++ entries body t
  | wildPat => []
  | verbatimPat ts => unread .unknown ts
  | attributedPat as p => ofAttributes as ++ entries body p
  | fieldPatFull as m p => ofAttributes as ++ ofMember m :: entries body p
  | fieldPatShort as p => ofAttributes as ++ entries body p
  -- types
  | arrayType t e => entries body t ++ entries body e
  | fnType binder mode ps variadic t =>
    unread .binder (binder.getD []) ++ (unread .abi (mode.abi.getD []) ++
      (entries body ps ++ (ofVariadic variadic ++ entries body t)))
  | groupType t => entries body t
  | implType bs => entries body bs
  | inferType => []
  | macroType m => entries body m
  | neverType => []
  | parenType t => entries body t
  | pathType p => entries body p
  | pointerType _ t => entries body t
  | referenceType lifetime _ t => names .lifetime lifetime.toList ++ entries body t
  | sliceType t => entries body t
  | objectType _ bs => entries body bs
  | tupleType ts => entries body ts
  | verbatimType ts => unread .unknown ts
  | bareParam as n t => ofAttributes as ++ (n.toList.map name ++ entries body t)
  | traitBound _ _ binder p => unread .binder (binder.getD []) ++ entries body p
  | lifetimeBound lifetime => names .bound [lifetime]
  | verbatimBound ts => unread .bound ts
  -- paths
  | plainPath _ ss => entries body ss
  | qualifiedPath t _ _ ss => entries body t ++ entries body ss
  | plainSegment n => [name n]
  | angleSegment n as => name n :: entries body as
  | callSegment n ts t => name n :: (entries body ts ++ entries body t)
  | lifetimeArg lifetime => names .genericArg [lifetime]
  | typeArg t => entries body t
  | constArg e => entries body e
  | assocTypeArg n as t => name n :: (leaveOut .equalityArgs (entries body as) ++ entries body t)
  | assocConstArg n as e =>
    leaveOut .genericArg (name n :: (entries body as ++ entries body e))
  | constraintArg n as bs =>
    leaveOut .genericArg (name n :: (entries body as ++ entries body bs))
  -- functions
  | lifetimeParam as lifetime bounds => ofAttributes as ++ names .lifetime (lifetime :: bounds)
  | typeParam as n bs t => ofAttributes as ++ name n :: (entries body bs ++ entries body t)
  | constParam as n t e =>
    ofAttributes as ++ name n :: (entries body t ++ leaveOut .constDefault (entries body e))
  | receiver as lifetime _ t =>
    ofAttributes as ++ (names .lifetime (lifetime.bind id).toList ++
      held .receiver :: entries body t)
  | typedParam as p t => ofAttributes as ++ (entries body p ++ entries body t)
  | signature mode n gs ps variadic t conditions =>
    unread .abi (mode.abi.getD []) ++ name n :: (entries body gs ++ (entries body ps ++
      (ofVariadic variadic ++ (entries body t ++ unread .whereClause conditions))))
  -- items
  | method visibility _ sig b =>
    unread .visibility visibility ++ (entries body sig ++ entries body b)
  | otherImplMember ts => unread .member ts
  | attributedImplMember as m => ofAttributes as ++ entries body m
  | traitMethod sig b => entries body sig ++ entries body b
  | otherTraitMember ts => unread .member ts
  | attributedTraitMember as m => ofAttributes as ++ entries body m
  | fnItem visibility sig b =>
    unread .visibility visibility ++ (entries body sig ++ entries body b)
  | implItem header ms => unread .header header ++ entries body ms
  | traitItem header ms => unread .header header ++ entries body ms
  | modItem header n is =>
    unread .visibility header ++ (names .moduleName [n] ++ entries body is)
  | constItem visibility n gs t e =>
    unread .visibility visibility ++ name n :: (unread .constGenerics gs ++
      (entries body t ++ entries body e))
  | staticItem visibility _ n t e =>
    unread .visibility visibility ++ name n :: (entries body t ++ entries body e)
  | otherItem ts => unread .item ts
  | attributedItem as i => ofAttributes as ++ entries body i
  | file as is => ofAttributes as ++ entries body is

end Syntax

/-- The words of a macro body: those of the arguments that it lists, or else its
tokens, which are left out. -/
def macroEntries {d : Nat} (body : Body d) : List Entry :=
  match parseArguments body.val with
  | .ok es => es.flatMap fun e => e.entries fun inner => macroEntries inner
  | .error _ => Entry.unread .macroBody body.val
termination_by d
decreasing_by exact body.property

def SourceFile.entries (f : SourceFile) : List Entry := f.content.entries macroEntries

end LeafPaths
