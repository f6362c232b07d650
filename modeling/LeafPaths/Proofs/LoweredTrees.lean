import LeafPaths.Outline
import LeafPaths.Record

/-!
What every node of a file's tree satisfies. Identifiers and literals have no
children, and a tag holds no character that would end it or that would put a
record's field in quotes. Trees in general satisfy neither: a leaf may have
children, and an operator may be any text. Both hold because of the categories
and operators that syntax is turned into.
-/

namespace LeafPaths

namespace Tree

/-- A predicate that holds at a tree and at all trees inside it. -/
inductive Every (p : Tree → Prop) : Tree → Prop where
  | node {k : Kind} {cs : List Tree} (here : p (.node k cs)) (below : ∀ c ∈ cs, Every p c) :
      Every p (.node k cs)

namespace Every

variable {p : Tree → Prop} {t u : Tree}

theorem root (h : Every p t) : p t := by
  cases h with
  | node here _ => exact here

theorem child (h : Every p t) (hu : u ∈ t.children) : Every p u := by
  cases h with
  | node _ below => exact below u hu

end Every

end Tree

/-- The characters that end a tag in a path, or that make a field need quotes. -/
def isDelimiter (c : Char) : Bool := c == ']' || Csv.needsQuotes c

-- a decision over a list, since the instances for a bounded quantifier compete
theorem all_not_isDelimiter_iff {cs : List Char} :
    cs.all (fun c => !isDelimiter c) = true ↔ ∀ c ∈ cs, isDelimiter c = false := by
  simp

/-- A node is neat if it has no children below a token and no delimiters in its
tag. -/
structure Tree.IsNeat (t : Tree) : Prop where
  leaf_children : t.isLeaf = true → t.children = []
  tag_free : ∀ c ∈ t.tag.toList, isDelimiter c = false

/-- A category that stands for no token and has a tag without delimiters. -/
def Kind.IsInner (k : Kind) : Prop :=
  k.token? = none ∧ ∀ c ∈ k.tag.toList, isDelimiter c = false

namespace Kind

instance (k : Kind) : Decidable k.IsInner :=
  decidable_of_decidable_of_iff (and_congr_right fun _ => all_not_isDelimiter_iff)

theorem isInner_of_bare {k : Kind} (htoken : k.token? = none) (hop : k.operator? = none) :
    k.IsInner := by
  cases k with
  | binary op | unary op | assign op => cases hop
  | ident text | lit text => cases htoken
  | _ => exact ⟨rfl, all_not_isDelimiter_iff.mp (by decide +kernel)⟩

theorem isInner_binary (op : BinaryOp) : (binary op.symbol).IsInner := by
  cases op with
  | arith op => cases op <;> decide +kernel
  | _ => decide +kernel

theorem isInner_unary (op : UnaryOp) : (unary op.symbol).IsInner := by
  cases op <;> decide +kernel

theorem isInner_reference (isMut : Bool) : (unary (if isMut then "&mut" else "&")).IsInner := by
  cases isMut <;> decide +kernel

theorem isInner_compound (op : ArithOp) : (assign (op.symbol ++ "=")).IsInner := by
  cases op <;> decide +kernel

end Kind

/-- Trees of which every node is neat. -/
def Neat (ts : List Tree) : Prop := ∀ t ∈ ts, t.Every Tree.IsNeat

namespace Neat

variable {ts us : List Tree} {k : Kind}

theorem nil : Neat [] := by
  intro t ht
  cases ht

theorem cons {t : Tree} (ht : t.Every Tree.IsNeat) (h : Neat ts) : Neat (t :: ts) :=
  List.forall_mem_cons.mpr ⟨ht, h⟩

theorem append (h : Neat ts) (h' : Neat us) : Neat (ts ++ us) :=
  List.forall_mem_append.mpr ⟨h, h'⟩

theorem ident (text : String) (h : Neat ts) : Neat (.ident text :: ts) := by
  have hfree : ∀ c ∈ "Ident".toList, isDelimiter c = false :=
    all_not_isDelimiter_iff.mp (by decide)
  exact cons (.node ⟨fun _ => rfl, hfree⟩ nil) h

theorem lit (text : String) (h : Neat ts) : Neat (.lit text :: ts) := by
  have hfree : ∀ c ∈ "Lit".toList, isDelimiter c = false :=
    all_not_isDelimiter_iff.mp (by decide)
  exact cons (.node ⟨fun _ => rfl, hfree⟩ nil) h

theorem member (m : Member) (h : Neat ts) : Neat (Syntax.memberTree m :: ts) := by
  cases m with
  | named text => exact ident text h
  | position i => exact lit _ h

theorem inner_cons (hk : k.IsInner) (h : Neat ts) (h' : Neat us) : Neat (.node k ts :: us) := by
  have hneat : Tree.IsNeat (.node k ts) := by
    refine ⟨?_, hk.2⟩
    intro hleaf
    simp [Tree.isLeaf, Tree.token?, Tree.kind, hk.1] at hleaf
  exact cons (.node hneat h) h'

theorem inner (hk : k.IsInner) (h : Neat ts) : Neat [.node k ts] := inner_cons hk h nil

theorem node_cons (htoken : k.token? = none) (hop : k.operator? = none) (h : Neat ts)
    (h' : Neat us) : Neat (.node k ts :: us) :=
  inner_cons (Kind.isInner_of_bare htoken hop) h h'

theorem node (htoken : k.token? = none) (hop : k.operator? = none) (h : Neat ts) :
    Neat [.node k ts] :=
  node_cons htoken hop h nil

theorem around (htoken : k.token? = none) (hop : k.operator? = none) (isMissing : Bool)
    (h : Neat ts) : Neat (Syntax.around k isMissing ts) := by
  cases isMissing with
  | true => exact nil
  | false => exact node htoken hop h

theorem optional_name (n : Option String) : Neat (n.map Tree.ident).toList := by
  cases n with
  | none => exact nil
  | some text => exact ident text nil

theorem flatMap {α : Type} {f : α → List Tree} (xs : List α) (h : ∀ x, Neat (f x)) :
    Neat (xs.flatMap f) := by
  induction xs with
  | nil => exact nil
  | cons x xs ih =>
      rw [List.flatMap_cons]
      exact (h x).append ih

end Neat

namespace Syntax

variable {β : Type} {args : β → List Tree} {s : Phrase}

/-- The trees of a piece of syntax are neat, if those of macro bodies are. One
case for each constructor; names, literals and positions are the only leaves. -/
theorem neat_forest (hbody : ∀ b, Neat (args b)) (x : Syntax β s) : Neat (forest args x) := by
  induction x with
  -- parts that add nothing of their own
  | nil | absent | lifetimeBound _ | verbatimBound _ | lifetimeArg _ | assocConstArg _ _ _ _ _
  | constraintArg _ _ _ _ _ | lifetimeParam _ _ _ | otherImplMember _ | otherTraitMember _ =>
      exact .nil
  | cons x xs ih₁ ih₂ => exact ih₁.append ih₂
  | present x ih | pathExpr p ih | blockExpr _ b ih | unsafeBlock b ih | constBlock b ih
  | tryBlock b ih | macroExpr m ih | group e ih | attributedExpr _ e ih | itemStmt i ih
  | exprStmt e _ ih | macroStmt _ m _ ih | constPat b ih | macroPat m ih | parenPat p ih
  | pathPat p ih | attributedPat _ p ih | groupType t ih | macroType m ih | parenType t ih
  | pathType p ih | typeArg t ih | constArg e ih | attributedImplMember _ m ih
  | attributedTraitMember _ m ih | attributedItem _ i ih => exact ih
  -- nodes without children
  | rawAddress _ _ _ | verbatimExpr _ | continueExpr _ | inferExpr | restPat | wildPat
  | verbatimPat _ | inferType | neverType | verbatimType _ | otherItem _ =>
      exact .node rfl rfl .nil
  -- operators
  | assign l r ih₁ ih₂ => exact .inner (by decide) (ih₁.append ih₂)
  | compound op l r ih₁ ih₂ => exact .inner (Kind.isInner_compound op) (ih₁.append ih₂)
  | binary op l r ih₁ ih₂ => exact .inner (Kind.isInner_binary op) (ih₁.append ih₂)
  | unary op e ih => exact .inner (Kind.isInner_unary op) ih
  | reference isMut e ih => exact .inner (Kind.isInner_reference isMut) ih
  -- nodes around other parts
  | array es ih | asyncBlock _ b ih | await e ih | breakExpr _ e ih | returnExpr e ih
  | yieldExpr e ih | endlessLoop _ b ih | paren e ih | tryExpr e ih | tuple es ih | block _ ss ih
  | letBare _ p ih | orPat ps ih | referencePat _ p ih | slicePat ps ih | tuplePat ps ih
  | fieldPatShort _ p ih | implType bs ih | pointerType _ t ih | referenceType _ _ t ih
  | sliceType t ih | objectType _ bs ih | tupleType ts ih | traitBound _ _ _ p ih
  | implItem _ ms ih | traitItem _ ms ih | modItem _ _ is ih | file _ is ih =>
      exact .node rfl rfl ih
  | replicate e n ih₁ ih₂ | call f es ih₁ ih₂ | cast e t ih₁ ih₂ | index e i ih₁ ih₂
  | whileLoop _ e b ih₁ ih₂ | matchExpr e as ih₁ ih₂ | letExpr p e ih₁ ih₂ | range l _ h ih₁ ih₂
  | letInit _ p e ih₁ ih₂ | rangePat l _ h ih₁ ih₂ | tupleStructPat p ps ih₁ ih₂
  | typedPat p t ih₁ ih₂ | arrayType t e ih₁ ih₂ | fnType _ _ ps _ t ih₁ ih₂
  | qualifiedPath t _ _ ss ih₁ ih₂ | typedParam _ p t ih₁ ih₂ | method _ _ sig b ih₁ ih₂
  | traitMethod sig b ih₁ ih₂ | fnItem _ sig b ih₁ ih₂ => exact .node rfl rfl (ih₁.append ih₂)
  | closure _ ps t e ih₁ ih₂ ih₃ | forLoop _ p e b ih₁ ih₂ ih₃ | ifExpr e b o ih₁ ih₂ ih₃
  | structLit p fs b ih₁ ih₂ ih₃ | letElse _ p e d ih₁ ih₂ ih₃ =>
      exact .node rfl rfl ((ih₁.append ih₂).append ih₃)
  | arm _ p g e ihp ihg ihe =>
      exact .node rfl rfl ((ihp.append (.around rfl rfl _ ihg)).append ihe)
  | structPat p fs hasRest ihp ihfs =>
      exact .node rfl rfl ((ihp.append ihfs).append (.around rfl rfl _ .nil))
  | invocation p _ b ih => exact .node rfl rfl (ih.append (hbody b))
  -- leaves
  | literal text | literalPat text => exact .lit text .nil
  | plainSegment n => exact .ident n .nil
  | methodCall e n ts es ihe ihts ihes =>
      exact .node rfl rfl (ihe.append (.ident n ((Neat.around rfl rfl _ ihts).append ihes)))
  | field e m ih => exact .node rfl rfl (ih.append (.member m .nil))
  | fieldValueFull _ m e ih | fieldPatFull _ m e ih => exact .node rfl rfl (ih.member m)
  | fieldValueShort _ n => exact .node rfl rfl (.ident n .nil)
  | bindingPat _ _ n sub ih =>
      cases sub with
      | absent => exact .ident n .nil
      | present p => exact .node rfl rfl (.ident n ih)
  | bareParam _ n t ih => exact (Neat.optional_name n).append ih
  | plainPath isGlobal ss ih =>
      change Neat (if !isGlobal && ss.isLoneName then forest args ss
        else [.node .path (forest args ss)])
      split
      · exact ih
      · exact .node rfl rfl ih
  | angleSegment n as ih => exact .ident n (.node rfl rfl ih)
  | callSegment n ts t ih₁ ih₂ => exact .ident n (.node rfl rfl (ih₁.append ih₂))
  | assocTypeArg n as t _ ih | constParam _ n t e ih _ => exact .node rfl rfl (.ident n ih)
  | typeParam _ n bs t ih₁ ih₂ | constItem _ n _ t e ih₁ ih₂ | staticItem _ _ n t e ih₁ ih₂ =>
      exact .node rfl rfl (.ident n (ih₁.append ih₂))
  | receiver _ _ _ t ih => exact .node rfl rfl (.ident "self" ih)
  | signature _ n gs ps _ t _ ihgs ihps iht =>
      have hresult := Neat.around (k := .results) rfl rfl t.isAbsent iht
      have hgenerics := Neat.around (k := .generics) rfl rfl gs.isNil ihgs
      exact .ident n (hgenerics.append (.node_cons rfl rfl ihps hresult))

end Syntax

/-- A body's arguments are read from its tokens and are no part of the syntax
around it, so the induction is on how deep bodies are nested. -/
theorem neat_macroArguments {d : Nat} (b : Body d) : Neat (macroArguments b) := by
  induction d using Nat.strongRecOn with
  | ind d ih =>
      rw [macroArguments]
      cases parseArguments b.val with
      | error fault => exact .nil
      | ok es =>
          apply Neat.flatMap
          intro e
          exact Syntax.neat_forest (fun inner => ih _ b.property inner) e

theorem SourceFile.every_isNeat (f : SourceFile) : f.tree.Every Tree.IsNeat := by
  have hneat := Syntax.neat_forest (fun b => neat_macroArguments b) f.content
  obtain ⟨depth, content⟩ := f
  cases content with
  | file attributes items => exact hneat _ (List.mem_singleton_self _)

end LeafPaths
