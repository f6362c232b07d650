import LeafPaths.Context
import LeafPaths.Outline

/-!
What trees do not show. Syntax is stripped of attributes, visibility, qualifiers,
labels, where clauses, modes of bindings and references, lifetime bounds and
modifiers of bounds, of parentheses around patterns and types and of groups that
are not written, and all blocks that are run in place become plain ones. This is
done at any depth, and the tree of a file stays the same. Parentheses around
expressions, lifetime parameters and lifetime arguments are kept, since trees
show that they are there.

Macro bodies are not read: two files are compared by the tokens of their bodies,
in whatever depth each file may nest them.
-/

namespace LeafPaths

namespace Syntax

variable {β γ : Type} {s : Phrase}

def isLifetimeBound : Syntax β s → Bool
  | lifetimeBound _ => true
  | _ => false

def plainFn : FnMode := ⟨false, false, false, none⟩

def plainClosure : ClosureMode := ⟨none, false, false, false, false⟩

/-- Dots for further arguments without anything before them. -/
def bareDots (variadic : Option Variadic) : Option Variadic := variadic.map fun _ => ⟨[], []⟩

/-- Syntax without what trees do not show of it, its macro bodies replaced by
`unread`. Headers, generics of constants, and items and members that are kept as
tokens, hold visibility, attributes and conditions among other things, and are
emptied. -/
def stripped (unread : β → γ) {s : Phrase} : Syntax β s → Syntax γ s
  | nil => .nil
  | cons x xs =>
    if x.isLifetimeBound then stripped unread xs
    else .cons (stripped unread x) (stripped unread xs)
  | absent => .absent
  | present x => .present (stripped unread x)
  -- expressions
  | literal text => .literal text
  | pathExpr p => .pathExpr (stripped unread p)
  | array es => .array (stripped unread es)
  | replicate e n => .replicate (stripped unread e) (stripped unread n)
  | assign l r => .assign (stripped unread l) (stripped unread r)
  | compound op l r => .compound op (stripped unread l) (stripped unread r)
  | binary op l r => .binary op (stripped unread l) (stripped unread r)
  | unary op e => .unary op (stripped unread e)
  | reference isMut e => .reference isMut (stripped unread e)
  | rawAddress isMut e => .rawAddress isMut (stripped unread e)
  | asyncBlock _ b => .asyncBlock false (stripped unread b)
  | await e => .await (stripped unread e)
  | blockExpr _ b => .blockExpr none (stripped unread b)
  | unsafeBlock b => .blockExpr none (stripped unread b)
  | constBlock b => .blockExpr none (stripped unread b)
  | tryBlock b => .blockExpr none (stripped unread b)
  | breakExpr _ e => .breakExpr none (stripped unread e)
  | continueExpr _ => .continueExpr none
  | returnExpr e => .returnExpr (stripped unread e)
  | yieldExpr e => .yieldExpr (stripped unread e)
  | call f es => .call (stripped unread f) (stripped unread es)
  | methodCall e name ts es =>
    .methodCall (stripped unread e) name (stripped unread ts) (stripped unread es)
  | cast e t => .cast (stripped unread e) (stripped unread t)
  | closure _ ps t e =>
    .closure plainClosure (stripped unread ps) (stripped unread t) (stripped unread e)
  | field e m => .field (stripped unread e) m
  | index e i => .index (stripped unread e) (stripped unread i)
  | forLoop _ p e b => .forLoop none (stripped unread p) (stripped unread e) (stripped unread b)
  | whileLoop _ e b => .whileLoop none (stripped unread e) (stripped unread b)
  | endlessLoop _ b => .endlessLoop none (stripped unread b)
  | ifExpr e b o => .ifExpr (stripped unread e) (stripped unread b) (stripped unread o)
  | matchExpr e as => .matchExpr (stripped unread e) (stripped unread as)
  | inferExpr => .inferExpr
  | letExpr p e => .letExpr (stripped unread p) (stripped unread e)
  | macroExpr m => .macroExpr (stripped unread m)
  | paren e => .paren (stripped unread e)
  | group e => stripped unread e
  | range l _ h => .range (stripped unread l) false (stripped unread h)
  | structLit p fs b => .structLit (stripped unread p) (stripped unread fs) (stripped unread b)
  | tryExpr e => .tryExpr (stripped unread e)
  | tuple es => .tuple (stripped unread es)
  | verbatimExpr ts => .verbatimExpr ts
  | attributedExpr _ e => stripped unread e
  | fieldValueFull _ m e => .fieldValueFull [] m (stripped unread e)
  | fieldValueShort _ name => .fieldValueShort [] name
  | arm _ p g e => .arm [] (stripped unread p) (stripped unread g) (stripped unread e)
  | invocation p d body => .invocation (stripped unread p) d (unread body)
  -- statements
  | block _ ss => .block [] (stripped unread ss)
  | letBare _ p => .letBare [] (stripped unread p)
  | letInit _ p e => .letInit [] (stripped unread p) (stripped unread e)
  | letElse _ p e d => .letElse [] (stripped unread p) (stripped unread e) (stripped unread d)
  | itemStmt i => .itemStmt (stripped unread i)
  | exprStmt e hasSemi => .exprStmt (stripped unread e) hasSemi
  | macroStmt _ m hasSemi => .macroStmt [] (stripped unread m) hasSemi
  -- patterns
  | constPat b => .constPat (stripped unread b)
  | bindingPat _ _ name sub => .bindingPat false false name (stripped unread sub)
  | literalPat text => .literalPat text
  | macroPat m => .macroPat (stripped unread m)
  | orPat ps => .orPat (stripped unread ps)
  | parenPat p => stripped unread p
  | pathPat p => .pathPat (stripped unread p)
  | rangePat l _ h => .rangePat (stripped unread l) false (stripped unread h)
  | referencePat _ p => .referencePat false (stripped unread p)
  | restPat => .restPat
  | slicePat ps => .slicePat (stripped unread ps)
  | structPat p fs hasRest => .structPat (stripped unread p) (stripped unread fs) hasRest
  | tuplePat ps => .tuplePat (stripped unread ps)
  | tupleStructPat p ps => .tupleStructPat (stripped unread p) (stripped unread ps)
  | typedPat p t => .typedPat (stripped unread p) (stripped unread t)
  | wildPat => .wildPat
  | verbatimPat ts => .verbatimPat ts
  | attributedPat _ p => stripped unread p
  | fieldPatFull _ m p => .fieldPatFull [] m (stripped unread p)
  | fieldPatShort _ p => .fieldPatShort [] (stripped unread p)
  -- types
  | arrayType t e => .arrayType (stripped unread t) (stripped unread e)
  | fnType _ _ ps variadic t =>
    .fnType none plainFn (stripped unread ps) (bareDots variadic) (stripped unread t)
  | groupType t => stripped unread t
  | implType bs => .implType (stripped unread bs)
  | inferType => .inferType
  | macroType m => .macroType (stripped unread m)
  | neverType => .neverType
  | parenType t => stripped unread t
  | pathType p => .pathType (stripped unread p)
  | pointerType _ t => .pointerType false (stripped unread t)
  | referenceType _ _ t => .referenceType none false (stripped unread t)
  | sliceType t => .sliceType (stripped unread t)
  | objectType hasDyn bs => .objectType hasDyn (stripped unread bs)
  | tupleType ts => .tupleType (stripped unread ts)
  | verbatimType ts => .verbatimType ts
  | bareParam _ name t => .bareParam [] name (stripped unread t)
  | traitBound _ _ _ p => .traitBound false false none (stripped unread p)
  | lifetimeBound lifetime => .lifetimeBound lifetime
  | verbatimBound ts => .verbatimBound ts
  -- paths
  | plainPath isGlobal ss => .plainPath isGlobal (stripped unread ss)
  | qualifiedPath t n isGlobal ss =>
    .qualifiedPath (stripped unread t) n isGlobal (stripped unread ss)
  | plainSegment name => .plainSegment name
  | angleSegment name as => .angleSegment name (stripped unread as)
  | callSegment name ts t => .callSegment name (stripped unread ts) (stripped unread t)
  | lifetimeArg lifetime => .lifetimeArg lifetime
  | typeArg t => .typeArg (stripped unread t)
  | constArg e => .constArg (stripped unread e)
  | assocTypeArg name as t => .assocTypeArg name (stripped unread as) (stripped unread t)
  | assocConstArg name as e => .assocConstArg name (stripped unread as) (stripped unread e)
  | constraintArg name as bs => .constraintArg name (stripped unread as) (stripped unread bs)
  -- functions
  | lifetimeParam _ lifetime _ => .lifetimeParam [] lifetime []
  | typeParam _ name bs t => .typeParam [] name (stripped unread bs) (stripped unread t)
  | constParam _ name t e => .constParam [] name (stripped unread t) (stripped unread e)
  | receiver _ lifetime _ t =>
    .receiver [] (lifetime.map fun _ => none) false (stripped unread t)
  | typedParam _ p t => .typedParam [] (stripped unread p) (stripped unread t)
  | signature _ name gs ps variadic t _ =>
    .signature plainFn name (stripped unread gs) (stripped unread ps) (bareDots variadic)
      (stripped unread t) []
  -- items
  | method _ _ sig b => .method [] false (stripped unread sig) (stripped unread b)
  | otherImplMember _ => .otherImplMember []
  | attributedImplMember _ m => stripped unread m
  | traitMethod sig b => .traitMethod (stripped unread sig) (stripped unread b)
  | otherTraitMember _ => .otherTraitMember []
  | attributedTraitMember _ m => stripped unread m
  | fnItem _ sig b => .fnItem [] (stripped unread sig) (stripped unread b)
  | implItem _ ms => .implItem [] (stripped unread ms)
  | traitItem _ ms => .traitItem [] (stripped unread ms)
  | modItem _ name is => .modItem [] name (stripped unread is)
  | constItem _ name _ t e => .constItem [] name [] (stripped unread t) (stripped unread e)
  | staticItem _ _ name t e => .staticItem [] false name (stripped unread t) (stripped unread e)
  | otherItem _ => .otherItem []
  | attributedItem _ i => stripped unread i
  | file _ is => .file [] (stripped unread is)

/-! ### Stripping and lowering -/

theorem forest_of_isLifetimeBound {args : β → List Tree} {x : Syntax β s}
    (h : x.isLifetimeBound = true) : forest args x = [] := by
  cases x with
  | lifetimeBound lifetime => rfl
  | _ => cases h

theorem isLifetimeBound_of_ne (hs : s ≠ .bound) (x : Syntax β s) : x.isLifetimeBound = false := by
  cases x with
  | lifetimeBound lifetime => exact absurd rfl hs
  | _ => rfl

/-- Only lists of bounds lose members. -/
theorem stripped_cons (unread : β → γ) (hs : s ≠ .bound) (x : Syntax β s)
    (xs : Syntax β (.list s)) :
    (cons x xs).stripped unread = .cons (x.stripped unread) (xs.stripped unread) := by
  change (if x.isLifetimeBound then xs.stripped unread
    else .cons (x.stripped unread) (xs.stripped unread)) = _
  rw [isLifetimeBound_of_ne hs]
  rfl

theorem isNil_stripped (unread : β → γ) (hs : s ≠ .bound) (xs : Syntax β (.list s)) :
    (xs.stripped unread).isNil = xs.isNil := by
  cases xs with
  | nil => rfl
  | cons x xs =>
      rw [stripped_cons unread hs]
      rfl

theorem isAbsent_stripped (unread : β → γ) (x : Syntax β (.opt s)) :
    (x.stripped unread).isAbsent = x.isAbsent := by
  cases x <;> rfl

theorem isPlain_stripped (unread : β → γ) (x : Syntax β .segment) :
    (x.stripped unread).isPlain = x.isPlain := by
  cases x <;> rfl

theorem isLoneName_stripped (unread : β → γ) (ss : Syntax β (.list .segment)) :
    (ss.stripped unread).isLoneName = ss.isLoneName := by
  cases ss with
  | nil => rfl
  | cons x xs =>
      rw [stripped_cons unread (by decide), isLoneName, isLoneName, isPlain_stripped,
        isNil_stripped unread (by decide)]

theorem node_congr {k : Kind} {ts us : List Tree} (h : ts = us) :
    [Tree.node k ts] = [Tree.node k us] := by
  rw [h]

theorem cons_congr {t u : Tree} {ts us : List Tree} (h : t = u) (h' : ts = us) :
    t :: ts = u :: us := by
  rw [h, h']

theorem append_congr {ts ts' us us' : List Tree} (h : ts = us) (h' : ts' = us') :
    ts ++ ts' = us ++ us' := by
  rw [h, h']

theorem around_congr {k : Kind} {isMissing isMissing' : Bool} {ts us : List Tree}
    (h : isMissing = isMissing') (h' : ts = us) : around k isMissing ts = around k isMissing' us := by
  rw [h, h']

/-- Stripped syntax has the trees that the syntax has, if a body has the trees of
what is put in its place. One case for each constructor. -/
theorem forest_stripped (unread : β → γ) (args : γ → List Tree) (x : Syntax β s) :
    forest args (x.stripped unread) = forest (fun b => args (unread b)) x := by
  induction x with
  | nil | absent | literal _ | continueExpr _ | inferExpr | verbatimExpr _ | rawAddress _ _ _
  | fieldValueShort _ _ | literalPat _ | restPat | wildPat | verbatimPat _ | inferType | neverType
  | verbatimType _ | lifetimeBound _ | verbatimBound _ | plainSegment _ | lifetimeArg _
  | assocConstArg _ _ _ _ _ | constraintArg _ _ _ _ _ | lifetimeParam _ _ _ | otherImplMember _
  | otherTraitMember _ | otherItem _ => rfl
  | cons x xs ih₁ ih₂ =>
      change forest args (if x.isLifetimeBound then xs.stripped unread
        else .cons (x.stripped unread) (xs.stripped unread)) = _
      split
      · next hbound => exact ih₂.trans (append_congr (forest_of_isLifetimeBound hbound).symm rfl)
      · exact append_congr ih₁ ih₂
  -- parts that add nothing of their own
  | present x ih | pathExpr p ih | blockExpr _ b ih | unsafeBlock b ih | constBlock b ih
  | tryBlock b ih | macroExpr m ih | group e ih | attributedExpr _ e ih | itemStmt i ih
  | exprStmt e _ ih | macroStmt _ m _ ih | constPat b ih | macroPat m ih | parenPat p ih
  | pathPat p ih | attributedPat _ p ih | groupType t ih | macroType m ih | parenType t ih
  | pathType p ih | typeArg t ih | constArg e ih | attributedImplMember _ m ih
  | attributedTraitMember _ m ih | attributedItem _ i ih => exact ih
  -- nodes around other parts
  | array es ih | unary _ e ih | reference _ e ih | asyncBlock _ b ih | await e ih | breakExpr _ e ih
  | returnExpr e ih | yieldExpr e ih | endlessLoop _ b ih | paren e ih | tryExpr e ih | tuple es ih
  | block _ ss ih | letBare _ p ih | orPat ps ih | referencePat _ p ih | slicePat ps ih
  | tuplePat ps ih | fieldPatShort _ p ih | implType bs ih | pointerType _ t ih
  | referenceType _ _ t ih | sliceType t ih | objectType _ bs ih | tupleType ts ih
  | traitBound _ _ _ p ih | implItem _ ms ih | traitItem _ ms ih | modItem _ _ is ih
  | file _ is ih => exact node_congr ih
  | replicate e n ih₁ ih₂ | assign l r ih₁ ih₂ | compound _ l r ih₁ ih₂ | binary _ l r ih₁ ih₂
  | call f es ih₁ ih₂ | cast e t ih₁ ih₂ | index e i ih₁ ih₂ | whileLoop _ e b ih₁ ih₂
  | matchExpr e as ih₁ ih₂ | letExpr p e ih₁ ih₂ | range l _ h ih₁ ih₂ | letInit _ p e ih₁ ih₂
  | rangePat l _ h ih₁ ih₂ | tupleStructPat p ps ih₁ ih₂ | typedPat p t ih₁ ih₂
  | arrayType t e ih₁ ih₂ | fnType _ _ ps _ t ih₁ ih₂ | qualifiedPath t _ _ ss ih₁ ih₂
  | typedParam _ p t ih₁ ih₂ | method _ _ sig b ih₁ ih₂ | traitMethod sig b ih₁ ih₂
  | fnItem _ sig b ih₁ ih₂ => exact node_congr (append_congr ih₁ ih₂)
  | closure _ ps t e ih₁ ih₂ ih₃ | forLoop _ p e b ih₁ ih₂ ih₃ | ifExpr e b o ih₁ ih₂ ih₃
  | structLit p fs b ih₁ ih₂ ih₃ | letElse _ p e d ih₁ ih₂ ih₃ =>
      exact node_congr (append_congr (append_congr ih₁ ih₂) ih₃)
  -- parts that may be missing
  | methodCall e n ts es ihe ihts ihes =>
      have hturbofish := around_congr (k := .genericArgs) (isAbsent_stripped unread ts) ihts
      exact node_congr (append_congr ihe (cons_congr rfl (append_congr hturbofish ihes)))
  | arm _ p g e ihp ihg ihe =>
      have hguard := around_congr (k := .guard) (isAbsent_stripped unread g) ihg
      exact node_congr (append_congr (append_congr ihp hguard) ihe)
  | bindingPat _ _ n sub ih =>
      cases sub with
      | absent => rfl
      | present p => exact node_congr (cons_congr rfl ih)
  | signature _ n gs ps _ t _ ihgs ihps iht =>
      have hgenerics := around_congr (k := .generics) (isNil_stripped unread (by decide) gs) ihgs
      have hresult := around_congr (k := .results) (isAbsent_stripped unread t) iht
      have hparams := congrArg (Tree.node .params) ihps
      exact cons_congr rfl (append_congr hgenerics (cons_congr hparams hresult))
  -- paths and names
  | plainPath isGlobal ss ih =>
      change (if !isGlobal && (ss.stripped unread).isLoneName then forest args (ss.stripped unread)
        else [.node .path (forest args (ss.stripped unread))]) = _
      rw [isLoneName_stripped, ih]
      rfl
  | field e m ih => exact node_congr (append_congr ih rfl)
  | structPat p fs _ ihp ihfs => exact node_congr (append_congr (append_congr ihp ihfs) rfl)
  | invocation p _ b ih => exact node_congr (append_congr ih rfl)
  | bareParam _ n t ih => exact append_congr rfl ih
  | angleSegment n as ih => exact cons_congr rfl (node_congr ih)
  | callSegment n ts t ih₁ ih₂ => exact cons_congr rfl (node_congr (append_congr ih₁ ih₂))
  | fieldValueFull _ m e ih | fieldPatFull _ m e ih | assocTypeArg n as t _ ih
  | constParam _ n t e ih _ | receiver _ _ _ t ih => exact node_congr (cons_congr rfl ih)
  | typeParam _ n bs t ih₁ ih₂ | constItem _ n _ t e ih₁ ih₂ | staticItem _ _ n t e ih₁ ih₂ =>
      exact node_congr (cons_congr rfl (append_congr ih₁ ih₂))

end Syntax

/-! ### Files -/

def argumentTrees (ts : Verbatim) : List Tree :=
  macroArguments (⟨ts, Nat.lt_succ_self _⟩ : Body (Token.depthAll ts + 1))

/-- How deep a file may nest macro bodies does not show in what a body lists. -/
theorem macroArguments_eq_argumentTrees {d : Nat} (b : Body d) :
    macroArguments b = argumentTrees b.val := by
  rw [argumentTrees, macroArguments, macroArguments]
  cases parseArguments b.val with
  | ok es => rfl
  | error fault => rfl

namespace SourceFile

/-- What the tree of a file can show of it. -/
def stripped (f : SourceFile) : Syntax Verbatim .file := f.content.stripped Subtype.val

theorem forest_stripped (f : SourceFile) : f.stripped.forest argumentTrees = [f.tree] := by
  have hbodies : (fun b : Body f.depth => argumentTrees b.val) = macroArguments := by
    funext b
    exact (macroArguments_eq_argumentTrees b).symm
  rw [stripped, Syntax.forest_stripped, hbodies, forest_content]

/-- Two files that are equal once they are stripped have the same tree, and so the
same contexts. -/
theorem tree_eq_of_stripped (f g : SourceFile) (h : f.stripped = g.stripped) :
    f.tree = g.tree ∧ f.tree.contexts = g.tree.contexts := by
  have hforest : [f.tree] = [g.tree] := by
    rw [← forest_stripped f, ← forest_stripped g, h]
  have htree : f.tree = g.tree := List.singleton_inj.mp hforest
  exact ⟨htree, congrArg Tree.contexts htree⟩

/-- An unsafe function with modes, lifetimes and parentheses, and one without. -/
theorem tree_eq_of_stripped_modes :
    let path (β : Type) (name : String) : Syntax β .path :=
      .plainPath false (.cons (.plainSegment name) .nil)
    let sized (β : Type) (isMaybe : Bool) : Syntax β (.list .bound) :=
      .cons (.traitBound false isMaybe none (path β "Sized")) .nil
    let call (d : Nat) (h : 0 < d) : Syntax (Body d) (.list .stmt) :=
      .cons (.macroStmt [] (.invocation (path _ "m") .parenthesis ⟨[.ident () "x"], h⟩) true) .nil
    let f : SourceFile := ⟨2, .file [⟨true, [.ident () "test"]⟩] (.cons
      (.fnItem [.ident () "pub"]
        (.signature ⟨false, false, true, none⟩ "f"
          (.cons (.typeParam [] "T" (.cons (.lifetimeBound "'a") (sized _ true)) .absent) .nil)
          (.cons (.typedParam [] (.parenPat (.bindingPat false true "x" .absent))
            (.referenceType (some "'a") true (.parenType (.pathType (path _ "T"))))) .nil)
          none .absent [.ident () "where"])
        (.block [] (.cons (.exprStmt (.unsafeBlock (.block [] (call 2 (by decide)))) false) .nil)))
      .nil)⟩
    let g : SourceFile := ⟨1, .file [] (.cons
      (.fnItem []
        (.signature ⟨false, false, false, none⟩ "f"
          (.cons (.typeParam [] "T" (sized _ false) .absent) .nil)
          (.cons (.typedParam [] (.bindingPat false false "x" .absent)
            (.referenceType none false (.pathType (path _ "T")))) .nil)
          none .absent [])
        (.block [] (.cons
          (.exprStmt (.blockExpr none (.block [] (call 1 (by decide)))) false) .nil)))
      .nil)⟩
    f.stripped = g.stripped ∧ f.tree = g.tree ∧ f.tree.contexts = g.tree.contexts := by
  intro path sized call f g
  have h : f.stripped = g.stripped := rfl
  exact ⟨h, tree_eq_of_stripped f g h⟩

end SourceFile

end LeafPaths
