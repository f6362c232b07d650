import Mathlib.Data.List.Forall2
import LeafPaths.Outline
import LeafPaths.Tree.Node

/-!
Parts of syntax and the nodes that show them. Functions and invocations of macros have
nodes of a kind of their own, wherever they stand: in items, in the bodies of other
functions, in types and patterns, and in the arguments that macro bodies list, to any
depth. A listing says what is noted of each of them.

Parts are listed in source order, each before those inside it. This is the order in which
a walk meets their nodes, and no other nodes have their kinds.
-/

namespace LeafPaths

/-! ### Nodes of one kind -/

namespace Tree

variable {kind : Kind}

/-- A node by itself, if it has the kind that is asked for. -/
def only (kind : Kind) (t : Tree) : List Tree := if t.kind = kind then [t] else []

mutual

/-- The nodes of one kind in a tree, each before those below it. -/
def nodesOf (kind : Kind) : Tree → List Tree
  | .node k cs => only kind (.node k cs) ++ nodesOfAll kind cs

def nodesOfAll (kind : Kind) : List Tree → List Tree
  | [] => []
  | t :: ts => nodesOf kind t ++ nodesOfAll kind ts

end

theorem only_self (kind : Kind) (cs : List Tree) : only kind (.node kind cs) = [.node kind cs] :=
  if_pos rfl

theorem only_of_ne {k : Kind} (hk : k ≠ kind) (cs : List Tree) : only kind (.node k cs) = [] :=
  if_neg hk

theorem nodesOfAll_singleton (t : Tree) : nodesOfAll kind [t] = t.nodesOf kind := by
  rw [nodesOfAll, nodesOfAll, List.append_nil]

theorem nodesOfAll_append (ts us : List Tree) :
    nodesOfAll kind (ts ++ us) = nodesOfAll kind ts ++ nodesOfAll kind us := by
  induction ts with
  | nil => rfl
  | cons t ts ih => rw [List.cons_append, nodesOfAll, nodesOfAll, ih, List.append_assoc]

mutual

theorem map_tree_functionsFrom (origin : Nat) (addr : Address) (t : Tree) :
    (t.functionsFrom origin addr).map Node.tree = t.nodesOf .functionDecl := by
  cases t with
  | node k cs =>
      have hinner := map_tree_functionsFromAll origin addr 0 cs
      by_cases hk : k = .functionDecl
      · subst hk
        rw [functionsFrom, if_pos rfl, List.map_cons, hinner, nodesOf, only_self]
        rfl
      · rw [functionsFrom, if_neg hk, hinner, nodesOf, only_of_ne hk]
        rfl

theorem map_tree_functionsFromAll (origin : Nat) (addr : Address) (i : Nat) (ts : List Tree) :
    (functionsFromAll origin addr i ts).map Node.tree = nodesOfAll .functionDecl ts := by
  cases ts with
  | nil => rfl
  | cons t ts =>
      rw [functionsFromAll, List.map_append, map_tree_functionsFrom, map_tree_functionsFromAll,
        nodesOfAll]

end

end Tree

theorem Node.map_tree_functions (n : Node) :
    n.functions.map Node.tree = n.tree.nodesOf .functionDecl :=
  Tree.map_tree_functionsFrom n.origin n.address n.tree

/-! ### Listings -/

def Kind.isListed : Kind → Bool
  | functionDecl | macroCall => true
  | _ => false

/-- What is noted of functions and of invocations, whose nodes have one of two kinds. -/
structure Listing (α : Type) where
  kind : Kind
  isListed : kind.isListed = true
  function : {d : Nat} → Syntax (Body d) .signature → List α
  invocation : {d : Nat} → Syntax (Body d) .path → Body d → List α

/-- What is noted of the parts of a piece of syntax that trees show, where `inner` notes
what macro bodies list. -/
def Syntax.listed {α : Type} (l : Listing α) {d : Nat} (inner : Body d → List α) {s : Phrase} :
    Syntax (Body d) s → List α
  | cons x y => listed l inner x ++ listed l inner y
  | method _ _ x y | traitMethod x y | fnItem _ x y =>
    l.function x ++ (listed l inner x ++ listed l inner y)
  | invocation p _ b => l.invocation p b ++ (listed l inner p ++ inner b)
  -- one part
  | present x | pathExpr x | array x | unary _ x | reference _ x | asyncBlock _ x | await x
  | blockExpr _ x | unsafeBlock x | constBlock x | tryBlock x | breakExpr _ x | returnExpr x
  | yieldExpr x | field x _ | endlessLoop _ x | macroExpr x | paren x | group x | tryExpr x
  | tuple x | attributedExpr _ x | fieldValueFull _ _ x | block _ x | letBare _ x | itemStmt x
  | exprStmt x _ | macroStmt _ x _ | constPat x | bindingPat _ _ _ x | macroPat x | orPat x
  | parenPat x | pathPat x | referencePat _ x | slicePat x | tuplePat x | attributedPat _ x
  | fieldPatFull _ _ x | fieldPatShort _ x | groupType x | implType x | macroType x | parenType x
  | pathType x | pointerType _ x | referenceType _ _ x | sliceType x | objectType _ x | tupleType x
  | bareParam _ _ x | traitBound _ _ _ x | plainPath _ x | angleSegment _ x | typeArg x | constArg x
  | receiver _ _ _ x | attributedImplMember _ x | attributedTraitMember _ x | implItem _ x
  | traitItem _ x | modItem _ _ x | attributedItem _ x | file _ x => listed l inner x
  -- arguments of an equality and defaults of constants are not shown
  | assocTypeArg _ _ x | constParam _ _ x _ => listed l inner x
  -- several parts
  | replicate x y | assign x y | compound _ x y | binary _ x y | call x y | cast x y | index x y
  | whileLoop _ x y | matchExpr x y | letExpr x y | range x _ y | letInit _ x y | rangePat x _ y
  | structPat x y _ | tupleStructPat x y | typedPat x y | arrayType x y | fnType _ _ x _ y
  | qualifiedPath x _ _ y | callSegment _ x y | typeParam _ _ x y | typedParam _ x y
  | constItem _ _ _ x y | staticItem _ _ _ x y => listed l inner x ++ listed l inner y
  | closure _ x y z | forLoop _ x y z | ifExpr x y z | structLit x y z | arm _ x y z
  | letElse _ x y z => listed l inner x ++ listed l inner y ++ listed l inner z
  | methodCall x _ y z | signature _ _ x y _ z _ =>
    listed l inner x ++ (listed l inner y ++ listed l inner z)
  | _ => []

namespace Listing

variable {α : Type} {l : Listing α} {r : α → Tree → Prop}

def ofBody (l : Listing α) {d : Nat} (body : Body d) : List α :=
  match parseArguments body.val with
  | .ok es => es.flatMap fun e => e.listed l fun inner => l.ofBody inner
  | .error _ => []
termination_by d
decreasing_by exact body.property

/-- What a listing notes of a part is related to the node of the part, if that has the
listed kind; of other parts nothing is noted. -/
structure Relates (l : Listing α) (r : α → Tree → Prop) : Prop where
  function : ∀ {d : Nat} (sig : Syntax (Body d) .signature) (body : List Tree),
    List.Forall₂ r (l.function sig)
      (Tree.only l.kind (.node .functionDecl (sig.forest macroArguments ++ body)))
  invocation : ∀ {d : Nat} (path : Syntax (Body d) .path) (body : Body d),
    List.Forall₂ r (l.invocation path body)
      (Tree.only l.kind (.node .macroCall (path.forest macroArguments ++ macroArguments body)))

/-- Trees whose nodes of the listed kind are related, one by one, to what was noted. -/
def Shown (l : Listing α) (r : α → Tree → Prop) (ts : List Tree) (xs : List α) : Prop :=
  List.Forall₂ r xs (Tree.nodesOfAll l.kind ts)

namespace Shown

variable {ts us : List Tree} {xs ys : List α} {k : Kind}

theorem nil : l.Shown r [] [] := List.Forall₂.nil

theorem append (h : l.Shown r ts xs) (h' : l.Shown r us ys) :
    l.Shown r (ts ++ us) (xs ++ ys) := by
  rw [Shown, Tree.nodesOfAll_append]
  exact List.rel_append h h'

/-- The node of a part comes before those of the parts inside it. -/
theorem part {own : List α} (hown : List.Forall₂ r own (Tree.only l.kind (.node k ts)))
    (h : l.Shown r ts xs) : l.Shown r [.node k ts] (own ++ xs) := by
  rw [Shown, Tree.nodesOfAll_singleton, Tree.nodesOf]
  exact List.rel_append hown h

theorem node (hk : k.isListed = false) (h : l.Shown r ts xs) : l.Shown r [.node k ts] xs := by
  have hne : k ≠ l.kind := by
    rintro rfl
    rw [l.isListed] at hk
    cases hk
  have hown : List.Forall₂ r [] (Tree.only l.kind (.node k ts)) := by
    rw [Tree.only_of_ne hne]
    exact .nil
  exact part hown h

theorem node_cons (hk : k.isListed = false) (h : l.Shown r ts xs) (h' : l.Shown r us ys) :
    l.Shown r (.node k ts :: us) (xs ++ ys) := (node hk h).append h'

theorem leaf (hk : k.isListed = false) (h : l.Shown r ts xs) : l.Shown r (.single k :: ts) xs :=
  node_cons hk nil h

theorem member (m : Member) (h : l.Shown r ts xs) :
    l.Shown r (Syntax.memberTree m :: ts) xs := by
  cases m with
  | named name => exact leaf rfl h
  | position i => exact leaf rfl h

theorem append_member (m : Member) (h : l.Shown r ts xs) :
    l.Shown r (ts ++ [Syntax.memberTree m]) xs := by
  have hmember := h.append (member m nil)
  rwa [List.append_nil] at hmember

theorem optional_name (n : Option String) (h : l.Shown r ts xs) :
    l.Shown r ((n.map Tree.ident).toList ++ ts) xs := by
  cases n with
  | none => exact h
  | some name => exact leaf rfl h

theorem around_rest (isMissing : Bool) (h : l.Shown r ts xs) :
    l.Shown r (ts ++ Syntax.around .restPat isMissing []) xs := by
  cases isMissing with
  | true =>
      rw [Syntax.around, if_pos rfl, List.append_nil]
      exact h
  | false =>
      have hrest := h.append (leaf rfl nil : l.Shown r [.single .restPat] [])
      rwa [List.append_nil] at hrest

theorem flatMap {γ : Type} {f : γ → List Tree} {g : γ → List α} (zs : List γ)
    (h : ∀ z, l.Shown r (f z) (g z)) : l.Shown r (zs.flatMap f) (zs.flatMap g) := by
  induction zs with
  | nil => exact nil
  | cons z zs ih =>
      rw [List.flatMap_cons, List.flatMap_cons]
      exact (h z).append ih

end Shown

end Listing

namespace Syntax

variable {α : Type} {l : Listing α} {r : α → Tree → Prop} {d : Nat} {s : Phrase}

theorem shown_around_opt {k : Kind} (hk : k.isListed = false) {x : Syntax (Body d) (.opt s)}
    (h : l.Shown r (x.forest macroArguments) (x.listed l l.ofBody)) :
    l.Shown r (around k x.isAbsent (x.forest macroArguments)) (x.listed l l.ofBody) := by
  cases x with
  | absent => exact .nil
  | present x => exact .node hk h

theorem shown_around_list {k : Kind} (hk : k.isListed = false) {x : Syntax (Body d) (.list s)}
    (h : l.Shown r (x.forest macroArguments) (x.listed l l.ofBody)) :
    l.Shown r (around k x.isNil (x.forest macroArguments)) (x.listed l l.ofBody) := by
  cases x with
  | nil => exact .nil
  | cons x xs => exact .node hk h

/-- The nodes of the listed kind in the trees of a piece of syntax are those of its parts, if
those in the trees of macro bodies are. One case for each constructor. -/
theorem shown_forest (hr : l.Relates r)
    (hbody : ∀ b : Body d, l.Shown r (macroArguments b) (l.ofBody b)) (x : Syntax (Body d) s) :
    l.Shown r (x.forest macroArguments) (x.listed l l.ofBody) := by
  induction x with
  | nil | absent | lifetimeBound _ | verbatimBound _ | lifetimeArg _ | assocConstArg _ _ _ _ _
  | constraintArg _ _ _ _ _ | lifetimeParam _ _ _ | otherImplMember _ | otherTraitMember _ =>
      exact .nil
  | cons x xs ih₁ ih₂ => exact ih₁.append ih₂
  -- parts with nodes of their own
  | method _ _ sig b ih₁ ih₂ | traitMethod sig b ih₁ ih₂ | fnItem _ sig b ih₁ ih₂ =>
      exact .part (hr.function sig _) (ih₁.append ih₂)
  | invocation p _ b ih => exact .part (hr.invocation p b) (ih.append (hbody b))
  -- parts that add nothing of their own
  | present x ih | pathExpr p ih | blockExpr _ b ih | unsafeBlock b ih | constBlock b ih
  | tryBlock b ih | macroExpr m ih | group e ih | attributedExpr _ e ih | itemStmt i ih
  | exprStmt e _ ih | macroStmt _ m _ ih | constPat b ih | macroPat m ih | parenPat p ih
  | pathPat p ih | attributedPat _ p ih | groupType t ih | macroType m ih | parenType t ih
  | pathType p ih | typeArg t ih | constArg e ih | attributedImplMember _ m ih
  | attributedTraitMember _ m ih | attributedItem _ i ih => exact ih
  -- nodes without parts below
  | literal _ | rawAddress _ _ _ | verbatimExpr _ | continueExpr _ | inferExpr | literalPat _
  | restPat | wildPat | verbatimPat _ | inferType | neverType | verbatimType _ | plainSegment _
  | otherItem _ => exact .leaf rfl .nil
  | fieldValueShort _ _ => exact .node rfl (.leaf rfl .nil)
  -- nodes around other parts
  | array es ih | unary _ e ih | reference _ e ih | asyncBlock _ b ih | await e ih | breakExpr _ e ih
  | returnExpr e ih | yieldExpr e ih | endlessLoop _ b ih | paren e ih | tryExpr e ih | tuple es ih
  | block _ ss ih | letBare _ p ih | orPat ps ih | referencePat _ p ih | slicePat ps ih
  | tuplePat ps ih | fieldPatShort _ p ih | implType bs ih | pointerType _ t ih
  | referenceType _ _ t ih | sliceType t ih | objectType _ bs ih | tupleType ts ih
  | traitBound _ _ _ p ih | implItem _ ms ih | traitItem _ ms ih | modItem _ _ is ih
  | file _ is ih => exact .node rfl ih
  | replicate e n ih₁ ih₂ | assign l r ih₁ ih₂ | compound _ l r ih₁ ih₂ | binary _ l r ih₁ ih₂
  | call f es ih₁ ih₂ | cast e t ih₁ ih₂ | index e i ih₁ ih₂ | whileLoop _ e b ih₁ ih₂
  | matchExpr e as ih₁ ih₂ | letExpr p e ih₁ ih₂ | range l _ h ih₁ ih₂ | letInit _ p e ih₁ ih₂
  | rangePat l _ h ih₁ ih₂ | tupleStructPat p ps ih₁ ih₂ | typedPat p t ih₁ ih₂
  | arrayType t e ih₁ ih₂ | fnType _ _ ps _ t ih₁ ih₂ | qualifiedPath t _ _ ss ih₁ ih₂
  | typedParam _ p t ih₁ ih₂ => exact .node rfl (ih₁.append ih₂)
  | closure _ ps t e ih₁ ih₂ ih₃ | forLoop _ p e b ih₁ ih₂ ih₃ | ifExpr e b o ih₁ ih₂ ih₃
  | structLit p fs b ih₁ ih₂ ih₃ | letElse _ p e d ih₁ ih₂ ih₃ =>
      exact .node rfl ((ih₁.append ih₂).append ih₃)
  -- parts that may be missing
  | methodCall e n ts es ihe ihts ihes =>
      have hturbofish := shown_around_opt (k := .genericArgs) rfl ihts
      exact .node rfl (ihe.append (.leaf rfl (hturbofish.append ihes)))
  | arm _ p g e ihp ihg ihe =>
      have hguard := shown_around_opt (k := .guard) rfl ihg
      exact .node rfl ((ihp.append hguard).append ihe)
  | structPat p fs hasRest ihp ihfs =>
      exact .node rfl (.around_rest (!hasRest) (ihp.append ihfs))
  | bindingPat _ _ n sub ih =>
      cases sub with
      | absent => exact .leaf rfl .nil
      | present p => exact .node rfl (.leaf rfl ih)
  | signature _ n gs ps _ t _ ihgs ihps iht =>
      have hgenerics := shown_around_list (k := .generics) rfl ihgs
      have hresult := shown_around_opt (k := .results) rfl iht
      exact .leaf rfl (hgenerics.append (.node_cons rfl ihps hresult))
  -- names and positions
  | field e m ih => exact .node rfl (.append_member m ih)
  | fieldValueFull _ m e ih | fieldPatFull _ m e ih => exact .node rfl (.member m ih)
  | bareParam _ n t ih => exact .optional_name n ih
  | plainPath isGlobal ss ih =>
      change l.Shown r (if !isGlobal && ss.isLoneName then ss.forest macroArguments
        else [.node .path (ss.forest macroArguments)]) (ss.listed l l.ofBody)
      split
      · exact ih
      · exact .node rfl ih
  | angleSegment n as ih => exact .leaf rfl (.node rfl ih)
  | callSegment n ts t ih₁ ih₂ => exact .leaf rfl (.node rfl (ih₁.append ih₂))
  | assocTypeArg n as t _ ih | constParam _ n t e ih _ | receiver _ _ _ t ih =>
      exact .node rfl (.leaf rfl ih)
  | typeParam _ n bs t ih₁ ih₂ | constItem _ n _ t e ih₁ ih₂ | staticItem _ _ n t e ih₁ ih₂ =>
      exact .node rfl (.leaf rfl (ih₁.append ih₂))

end Syntax

/-- What a body lists is no part of the syntax around it: the induction is on how deep bodies are
nested. -/
theorem Listing.Relates.shown_macroArguments {α : Type} {l : Listing α} {r : α → Tree → Prop}
    (hr : l.Relates r) {d : Nat} (b : Body d) : l.Shown r (macroArguments b) (l.ofBody b) := by
  induction d using Nat.strongRecOn with
  | ind d ih =>
      rw [macroArguments, ofBody]
      cases parseArguments b.val with
      | error fault => exact .nil
      | ok es =>
          apply Shown.flatMap
          intro e
          exact Syntax.shown_forest hr (fun inner => ih _ b.property inner) e

namespace SourceFile

def listed {α : Type} (f : SourceFile) (l : Listing α) : List α := f.content.listed l l.ofBody

/-- The nodes of the listed kind in the tree of a file are related, one by one and in their
order, to what was noted of the parts of the file. -/
theorem forall₂_listed {α : Type} {l : Listing α} {r : α → Tree → Prop} (hr : l.Relates r)
    (f : SourceFile) : List.Forall₂ r (f.listed l) (f.tree.nodesOf l.kind) := by
  have hshown := f.content.shown_forest hr fun b => hr.shown_macroArguments b
  rw [forest_content, Listing.Shown, Tree.nodesOfAll_singleton] at hshown
  exact hshown

end SourceFile

end LeafPaths
