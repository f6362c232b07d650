import LeafPaths.Proofs.LoweredTrees
import LeafPaths.Proofs.ShownParts
import LeafPaths.Proofs.TreeGrammar

/-!
The trees of source files obey the grammar of trees. Any expression, type, pattern
or item may occur inside any other, and macro bodies are read anew, so that the
rules are shown for all sorts of syntax at once. The trees of a sort have a shape
of their own, and the rule of a category is put together from the shapes of the
parts that its node is made of.
-/

namespace LeafPaths

namespace Kind

theorem hasKnownOperator_binary (op : BinaryOp) : (binary op.symbol).hasKnownOperator = true := by
  cases op with
  | arith op => cases op <;> decide
  | _ => decide

theorem hasKnownOperator_unary (op : UnaryOp) : (unary op.symbol).hasKnownOperator = true := by
  cases op <;> decide

theorem hasKnownOperator_reference (isMut : Bool) :
    (unary (if isMut then "&mut" else "&")).hasKnownOperator = true := by
  cases isMut <;> decide

theorem hasKnownOperator_compound (op : ArithOp) :
    (assign (op.symbol ++ "=")).hasKnownOperator = true := by
  cases op <;> decide

end Kind

namespace Phrase

/-- The categories of the trees of a sort. -/
def kinds : Phrase → Kind → Bool
  | expr | stmt | pat | type | bareParam => Kind.isWhole
  | block => (· == .block)
  | path => Kind.isPath
  | segment => Kind.isSegment
  | genericArg => Kind.isArgument
  | bound => (· == .traitBound)
  | genericParam => Kind.isGenericParam
  | param => Kind.isParam
  | signature => fun _ => true
  | fieldValue => (· == .fieldValue)
  | fieldPat => (· == .fieldPat)
  | arm => (· == .arm)
  | invocation => (· == .macroCall)
  | implMember | traitMember => (· == .functionDecl)
  | item => Kind.isItem
  | file => (· == .file)
  | list s | opt s => s.kinds

/-- How many trees a sort has, and of which categories. -/
def slots : Phrase → List Slot
  | list s => [.many s.kinds]
  | opt s => s.slots.map Slot.optional
  | signature =>
    [.one Kind.isIdent, .maybe (· == .generics), .one (· == .params), .maybe (· == .results)]
  | segment => [.one Kind.isIdent, .maybe (· == .genericArgs)]
  | bareParam => [.maybe Kind.isIdent, .one Kind.isWhole]
  | bound => [.maybe (· == .traitBound)]
  | genericArg => [.maybe Kind.isArgument]
  | genericParam => [.maybe Kind.isGenericParam]
  | implMember | traitMember => [.maybe (· == .functionDecl)]
  | s => [.one s.kinds]

end Phrase

theorem Phrase.kinds_of_allowed (s : Phrase) :
    ∀ slot ∈ s.slots, ∀ k, slot.allowed k = true → s.kinds k = true := by
  induction s with
  | list s ih =>
      intro slot hslot k hk
      cases List.mem_singleton.mp hslot
      exact hk
  | opt s ih =>
      intro slot hslot k hk
      obtain ⟨slot', hslot', rfl⟩ := List.mem_map.mp hslot
      rw [Slot.allowed_optional] at hk
      exact ih slot' hslot' k hk
  | signature => exact fun _ _ _ _ => rfl
  | segment =>
      simp only [slots, List.forall_mem_cons, Slot.allowed, kinds, Kind.isSegment, Bool.or_eq_true]
      exact ⟨fun k hk => .inl hk, fun k hk => .inr hk, by simp⟩
  | bareParam =>
      simp only [slots, List.forall_mem_cons, Slot.allowed, kinds]
      exact ⟨Kind.isWhole_of_isIdent, fun k hk => hk, by simp⟩
  | _ =>
      intro slot hslot k hk
      cases List.mem_singleton.mp hslot
      exact hk

/-- Trees that obey the grammar throughout and stand in the places of a rule. -/
structure Formed (slots : List Slot) (ts : List Tree) : Prop where
  every : ∀ t ∈ ts, t.Every Tree.IsFormed
  fits : Fits slots (ts.map Tree.kind)

namespace Formed

variable {a b : List Slot} {ts us : List Tree} {k : Kind} {p : Kind → Bool}

theorem nil : Formed [] [] := ⟨by simp, .nil⟩

theorem list_nil (s : Phrase) : Formed (Phrase.list s).slots [] := ⟨by simp, .stop .nil⟩

theorem absent (s : Phrase) : Formed (Phrase.opt s).slots [] := ⟨by simp, .optional_nil _⟩

theorem append (h : Formed a ts) (h' : Formed b us) : Formed (a ++ b) (ts ++ us) := by
  refine ⟨List.forall_mem_append.mpr ⟨h.every, h'.every⟩, ?_⟩
  rw [List.map_append]
  exact h.fits.append h'.fits

theorem optional (h : Formed a ts) : Formed (a.map Slot.optional) ts := ⟨h.every, h.fits.optional⟩

theorem skip (h : Formed a ts) : Formed (.maybe p :: a) ts := ⟨h.every, .skip h.fits⟩

theorem none_last (h : Formed a ts) : Formed (a ++ [.maybe p]) ts := by
  simpa using h.append (skip nil : Formed [.maybe p] [])

theorem cons {t : Tree} (ht : t.Every Tree.IsFormed) (hp : p t.kind = true) (h : Formed a ts) :
    Formed (.one p :: a) (t :: ts) :=
  ⟨List.forall_mem_cons.mpr ⟨ht, h.every⟩, .one hp h.fits⟩

theorem one_mono {q : Kind → Bool} (hpq : ∀ k, p k = true → q k = true) (h : Formed [.one p] ts) :
    Formed [.one q] ts :=
  ⟨h.every, h.fits.one_mono hpq⟩

theorem one_of_eq (h : Formed [.one (· == k)] ts) (hp : p k = true) : Formed [.one p] ts := by
  apply h.one_mono
  intro k' hk'
  rw [eq_of_beq hk']
  exact hp

theorem many_append {s s' : Phrase} (h : Formed s.slots ts) (h' : Formed s'.slots us)
    (hs : ∀ k, s.kinds k = true → p k = true) (hs' : ∀ k, s'.kinds k = true → p k = true) :
    Formed [.many p] (ts ++ us) := by
  have hts := h.fits.allowed_of_mem s.kinds_of_allowed
  have hus := h'.fits.allowed_of_mem s'.kinds_of_allowed
  refine ⟨List.forall_mem_append.mpr ⟨h.every, h'.every⟩, ?_⟩
  rw [List.map_append]
  apply Fits.many
  intro k hk
  cases List.mem_append.mp hk with
  | inl hk => exact hs k (hts k hk)
  | inr hk => exact hs' k (hus k hk)

theorem flatMap {α : Type} {s : Phrase} {f : α → List Tree} (xs : List α)
    (h : ∀ x, Formed s.slots (f x)) : Formed (Phrase.list s).slots (xs.flatMap f) := by
  induction xs with
  | nil => exact list_nil s
  | cons x xs ih =>
      rw [List.flatMap_cons]
      exact (h x).many_append ih (fun _ h => h) fun _ h => h

theorem node_cons (h : Formed k.slots ts) (hop : k.hasKnownOperator = true) (hp : p k = true)
    (h' : Formed a us) : Formed (.one p :: a) (.node k ts :: us) :=
  cons (.node ⟨hop, h.fits⟩ h.every) hp h'

theorem node (h : Formed k.slots ts) (hop : k.hasKnownOperator = true) (hp : p k = true) :
    Formed [.one p] [.node k ts] :=
  node_cons h hop hp nil

theorem maybe_node (h : Formed k.slots ts) (hop : k.hasKnownOperator = true) (hp : p k = true) :
    Formed [.maybe p] [.node k ts] :=
  (node h hop hp : Formed [.one p] [.node k ts]).optional

theorem single (hslots : k.slots = []) (hop : k.hasKnownOperator = true) (hp : p k = true) :
    Formed [.one p] [.single k] :=
  node (hslots ▸ nil) hop hp

theorem ident {name : String} (hp : p (.ident name) = true) (h : Formed a ts) :
    Formed (.one p :: a) (.ident name :: ts) :=
  node_cons nil rfl hp h

theorem member (m : Member) (h : Formed a ts) :
    Formed (.one Kind.isToken :: a) (Syntax.memberTree m :: ts) := by
  cases m with
  | named name => exact ident rfl h
  | position i => exact node_cons nil rfl rfl h

theorem around {isMissing : Bool} (h : isMissing = false → Formed k.slots ts)
    (hop : k.hasKnownOperator = true) :
    Formed [.maybe (· == k)] (Syntax.around k isMissing ts) := by
  cases isMissing with
  | true => exact skip nil
  | false => exact maybe_node (h rfl) hop (by simp)

theorem optional_name (n : Option String) :
    Formed [.maybe Kind.isIdent] (n.map Tree.ident).toList := by
  cases n with
  | none => exact skip nil
  | some name => exact maybe_node nil rfl rfl

end Formed

namespace Phrase

/-- The sorts whose syntax always has exactly one tree. -/
def isSingle : Phrase → Bool
  | expr | block | stmt | pat | type | path | param | fieldValue | fieldPat | arm | invocation
  | item | file => true
  | _ => false

end Phrase

namespace Syntax

variable {β : Type} {args : β → List Tree} {s : Phrase}

theorem forest_of_isLoneName {ss : Syntax β (.list .segment)} (h : ss.isLoneName = true) :
    ∃ name, forest args ss = [.ident name] := by
  cases ss with
  | nil => cases h
  | cons x xs =>
      cases x with
      | plainSegment name =>
          cases xs with
          | nil => exact ⟨name, rfl⟩
          | cons y ys => cases h
      | angleSegment name as => cases h
      | callSegment name ts t => cases h

theorem length_forest (x : Syntax β s) (hs : s.isSingle = true) : (forest args x).length = 1 := by
  induction x with
  | pathExpr p ih | blockExpr _ b ih | unsafeBlock b ih | constBlock b ih
  | tryBlock b ih | macroExpr m ih | group e ih | attributedExpr _ e ih | itemStmt i ih
  | exprStmt e _ ih | macroStmt _ m _ ih | constPat b ih | macroPat m ih | parenPat p ih
  | pathPat p ih | attributedPat _ p ih | groupType t ih | macroType m ih | parenType t ih
  | pathType p ih | attributedItem _ i ih => exact ih rfl
  | plainPath isGlobal ss ih =>
      change (if !isGlobal && ss.isLoneName then forest args ss
        else [.node .path (forest args ss)]).length = 1
      split
      · next hlone =>
          obtain ⟨name, hname⟩ := forest_of_isLoneName (Bool.and_eq_true_iff.mp hlone).2
          rw [hname]
          rfl
      · rfl
  | bindingPat _ _ n sub ih => cases sub <;> rfl
  | nil | cons | absent | present | signature | plainSegment | angleSegment | callSegment
  | bareParam | traitBound | lifetimeBound | verbatimBound | lifetimeArg | typeArg | constArg
  | assocTypeArg | assocConstArg | constraintArg | lifetimeParam | typeParam | constParam | method
  | otherImplMember | attributedImplMember | traitMethod | otherTraitMember
  | attributedTraitMember => cases hs
  | _ => rfl

theorem formed_present {p : Kind → Bool} {x : Syntax β (.opt s)} (hs : s.isSingle = true)
    (h : Formed [.maybe p] (forest args x)) (hx : x.isAbsent = false) :
    Formed [.one p] (forest args x) := by
  refine ⟨h.every, h.fits.one_of_maybe ?_⟩
  cases x with
  | absent => cases hx
  | present y =>
      have hlength : (forest args y).length = 1 := length_forest y hs
      intro hnil
      change (forest args y).map Tree.kind = [] at hnil
      simp [List.map_eq_nil_iff.mp hnil] at hlength

/-- The trees of a piece of syntax obey the grammar and have the shape of its sort,
if those of macro bodies can stand for arguments. One case for each constructor,
whose rule is put together from the shapes of its parts. -/
theorem formed_forest (hbody : ∀ b, Formed [.many Kind.isWhole] (args b)) (x : Syntax β s) :
    Formed s.slots (forest args x) := by
  induction x with
  | nil => exact .list_nil _
  | cons x xs ih₁ ih₂ => exact ih₁.many_append ih₂ (fun _ h => h) fun _ h => h
  | absent => exact .absent _
  | present x ih => exact ih.optional
  -- parts that add nothing of their own
  | group e ih | attributedExpr _ e ih | exprStmt e _ ih | parenPat p ih | attributedPat _ p ih
  | groupType t ih | parenType t ih | attributedImplMember _ m ih | attributedTraitMember _ m ih
  | attributedItem _ i ih => exact ih
  | pathExpr p ih | pathPat p ih | pathType p ih => exact ih.one_mono Kind.isWhole_of_isPath
  | itemStmt i ih => exact ih.one_mono Kind.isWhole_of_isItem
  | blockExpr _ b ih | unsafeBlock b ih | constBlock b ih | tryBlock b ih | constPat b ih
  | macroExpr m ih | macroStmt _ m _ ih | macroPat m ih | macroType m ih => exact ih.one_of_eq rfl
  | typeArg t ih | constArg e ih => exact (ih.one_mono Kind.isArgument_of_isWhole).optional
  | lifetimeBound _ | verbatimBound _ | lifetimeArg _ | assocConstArg _ _ _ _ _
  | constraintArg _ _ _ _ _ | lifetimeParam _ _ _ | otherImplMember _ | otherTraitMember _ =>
      exact .skip .nil
  -- nodes without children
  | literal _ | literalPat _ | rawAddress _ _ _ | verbatimExpr _ | continueExpr _ | inferExpr
  | restPat | wildPat | verbatimPat _ | inferType | neverType | verbatimType _ | otherItem _ =>
      exact .single rfl rfl rfl
  -- operators
  | assign l r ih₁ ih₂ => exact .node (ih₁.append ih₂) (by decide) rfl
  | compound op l r ih₁ ih₂ =>
      exact .node (ih₁.append ih₂) (Kind.hasKnownOperator_compound op) rfl
  | binary op l r ih₁ ih₂ => exact .node (ih₁.append ih₂) (Kind.hasKnownOperator_binary op) rfl
  | unary op e ih => exact .node ih (Kind.hasKnownOperator_unary op) rfl
  | reference isMut e ih => exact .node ih (Kind.hasKnownOperator_reference isMut) rfl
  -- nodes whose parts fill their rule as they stand
  | array es ih | asyncBlock _ b ih | await e ih | breakExpr _ e ih | returnExpr e ih
  | yieldExpr e ih | endlessLoop _ b ih | paren e ih | tryExpr e ih | tuple es ih | block _ ss ih
  | orPat ps ih | referencePat _ p ih | slicePat ps ih | tuplePat ps ih | implType bs ih
  | pointerType _ t ih | referenceType _ _ t ih | sliceType t ih | objectType _ bs ih
  | tupleType ts ih | implItem _ ms ih | traitItem _ ms ih | modItem _ _ is ih | file _ is ih =>
      exact .node ih rfl rfl
  | replicate e n ih₁ ih₂ | call f es ih₁ ih₂ | cast e t ih₁ ih₂ | index e i ih₁ ih₂
  | whileLoop _ e b ih₁ ih₂ | matchExpr e as ih₁ ih₂ | letExpr p e ih₁ ih₂ | range l _ h ih₁ ih₂
  | rangePat l _ h ih₁ ih₂ | tupleStructPat p ps ih₁ ih₂ | typedPat p t ih₁ ih₂
  | arrayType t e ih₁ ih₂ | typedParam _ p t ih₁ ih₂ => exact .node (ih₁.append ih₂) rfl rfl
  | closure _ ps t e ih₁ ih₂ ih₃ | forLoop _ p e b ih₁ ih₂ ih₃ | ifExpr e b o ih₁ ih₂ ih₃
  | structLit p fs b ih₁ ih₂ ih₃ => exact .node ((ih₁.append ih₂).append ih₃) rfl rfl
  | invocation p _ b ih => exact .node (ih.append (hbody b)) rfl rfl
  -- nodes with places that may stay empty
  | arm _ p g e ihp ihg ihe =>
      have hguard : Formed [.maybe (· == .guard)] (around .guard g.isAbsent (forest args g)) :=
        .around (formed_present rfl ihg) rfl
      exact .node ((ihp.append hguard).append ihe) rfl rfl
  | letBare _ p ih => exact .node ih.none_last.none_last rfl rfl
  | letInit _ p e ih₁ ih₂ => exact .node (ih₁.append ih₂.optional).none_last rfl rfl
  | letElse _ p e d ih₁ ih₂ ih₃ =>
      exact .node ((ih₁.append ih₂.optional).append ih₃.optional) rfl rfl
  | structPat p fs hasRest ihp ihfs =>
      exact .node ((ihp.append ihfs).append (.around (fun _ => .nil) rfl)) rfl rfl
  | qualifiedPath t _ _ ss ih₁ ih₂ => exact .node (ih₁.optional.append ih₂) rfl rfl
  | fnType _ _ ps _ t ih₁ ih₂ =>
      exact .node (ih₁.many_append ih₂ (fun _ h => h) fun _ h => h) rfl rfl
  | traitBound _ _ _ p ih => exact .maybe_node ih rfl rfl
  -- names and positions
  | methodCall e n ts es ihe ihts ihes =>
      have hturbofish : Formed [.maybe (· == .genericArgs)]
          (around .genericArgs ts.isAbsent (forest args ts)) := .around (fun _ => ihts) rfl
      exact .node (ihe.append (.ident rfl (hturbofish.append ihes))) rfl rfl
  | field e m ih => exact .node (ih.append (.member m .nil)) rfl rfl
  | fieldValueFull _ m e ih => exact .node (.member m ih.optional) rfl rfl
  | fieldValueShort _ n => exact .node (.ident rfl (.skip .nil)) rfl rfl
  | fieldPatFull _ m p ih => exact .node ((Formed.member m .nil).optional.append ih) rfl rfl
  | fieldPatShort _ p ih => exact .node ih.skip rfl rfl
  | bindingPat _ _ n sub ih =>
      cases sub with
      | absent => exact .single rfl rfl rfl
      | present p => exact .node (.ident rfl (formed_present rfl ih rfl)) rfl rfl
  | bareParam _ n t ih => exact (Formed.optional_name n).append ih
  | plainPath isGlobal ss ih =>
      change Formed [.one Kind.isPath] (if !isGlobal && ss.isLoneName then forest args ss
        else [.node .path (forest args ss)])
      split
      · next hlone =>
          obtain ⟨name, hname⟩ := forest_of_isLoneName (Bool.and_eq_true_iff.mp hlone).2
          rw [hname]
          exact .single rfl rfl rfl
      · exact .node ih.skip rfl rfl
  | plainSegment n => exact .ident rfl (.skip .nil)
  | angleSegment n as ih => exact .ident rfl (.maybe_node ih rfl rfl)
  | callSegment n ts t ih₁ ih₂ =>
      have hargs := ih₁.many_append ih₂ Kind.isArgument_of_isWhole Kind.isArgument_of_isWhole
      exact .ident rfl (.maybe_node hargs rfl rfl)
  | assocTypeArg n as t _ ih | constParam _ n t e ih _ =>
      exact .maybe_node (.ident rfl ih) rfl rfl
  | typeParam _ n bs t ih₁ ih₂ =>
      exact .maybe_node (.ident rfl (ih₁.append ih₂)) rfl rfl
  | receiver _ _ _ t ih => exact .node (.ident rfl ih) rfl rfl
  | signature _ n gs ps _ t _ ihgs ihps iht =>
      have hgenerics : Formed [.maybe (· == .generics)]
          (around .generics gs.isNil (forest args gs)) := .around (fun _ => ihgs) rfl
      have hresult : Formed [.maybe (· == .results)]
          (around .results t.isAbsent (forest args t)) := .around (formed_present rfl iht) rfl
      exact .ident rfl (hgenerics.append (.node_cons ihps rfl rfl hresult))
  -- items
  | method _ _ sig b ih₁ ih₂ => exact .maybe_node (ih₁.append ih₂.optional) rfl rfl
  | traitMethod sig b ih₁ ih₂ => exact .maybe_node (ih₁.append ih₂) rfl rfl
  | fnItem _ sig b ih₁ ih₂ => exact .node (ih₁.append ih₂.optional) rfl rfl
  | constItem _ n _ t e ih₁ ih₂ | staticItem _ _ n t e ih₁ ih₂ =>
      exact .node (.ident rfl (ih₁.append ih₂)) rfl rfl

/-- The name that a signature declares. -/
def declaredName : Syntax β .signature → String
  | signature _ name _ _ _ _ _ => name

theorem functionName?_of_signature (args : β → List Tree) (sig : Syntax β .signature)
    (body : List Tree) :
    (Tree.node .functionDecl (forest args sig ++ body)).functionName? = some sig.declaredName := by
  cases sig with
  | signature mode name gs ps variadic t conditions => rfl

end Syntax

def declaredNames : Listing String where
  kind := .functionDecl
  isListed := rfl
  function := fun sig => [sig.declaredName]
  invocation := fun _ _ => []

/-- The names of all functions in a file that trees show: free functions, methods and functions of
traits, at any depth and also in the arguments of macros, each before those inside it. -/
def SourceFile.functionNames (f : SourceFile) : List String := f.listed declaredNames

theorem declaredNames_relates :
    declaredNames.Relates fun name t => t.functionName? = some name where
  function := fun sig body =>
    .cons (Syntax.functionName?_of_signature macroArguments sig body) .nil
  invocation := fun _ _ => .nil

theorem SourceFile.map_functionName? (f : SourceFile) :
    (Node.root 0 f.tree).functions.map (fun n => n.tree.functionName?) =
      f.functionNames.map some := by
  have hnames := f.forall₂_listed declaredNames_relates
  have hmap : (f.tree.nodesOf .functionDecl).map Tree.functionName? = f.functionNames.map some := by
    rw [← List.forall₂_eq_eq_eq, List.forall₂_map_left_iff, List.forall₂_map_right_iff]
    exact hnames.flip
  have hfunctions : (Node.root 0 f.tree).functions.map Node.tree = f.tree.nodesOf .functionDecl :=
    Node.map_tree_functions _
  rw [← hmap, ← hfunctions, List.map_map]
  rfl

/-- The arguments that a macro body lists can stand for arguments of a call. They
are no part of the syntax around them: the induction is on how deep bodies are
nested. -/
theorem formed_macroArguments {d : Nat} (b : Body d) :
    Formed [.many Kind.isWhole] (macroArguments b) := by
  induction d using Nat.strongRecOn with
  | ind d ih =>
      rw [macroArguments]
      cases parseArguments b.val with
      | error fault => exact .list_nil .expr
      | ok es =>
          apply Formed.flatMap (s := .expr)
          intro e
          exact Syntax.formed_forest (fun inner => ih _ b.property inner) e

theorem Tree.Every.mono {p q : Tree → Prop} {t : Tree} (h : t.Every p) (hpq : ∀ u, p u → q u) :
    t.Every q := by
  induction h with
  | node here _ ih => exact .node (hpq _ here) ih

theorem Tree.IsFormed.functionName? {t : Tree} (h : t.IsFormed) (hkind : t.kind = .functionDecl) :
    ∃ name, t.functionName? = some name := by
  obtain ⟨k, cs⟩ := t
  cases hkind
  cases cs with
  | nil => cases h.children
  | cons first rest =>
      cases h.children with
      | one hident _ =>
          obtain ⟨kind, children⟩ := first
          cases kind with
          | ident name => exact ⟨name, rfl⟩
          | _ => cases hident

/-- Every node of a file's tree obeys the rule of its category and has one of the
known operators, if any; the file itself is the root. So each function has a name, and
the names of the functions of the tree, in their order, are those that the functions of the
file declare. -/
theorem SourceFile.tree_obeys_grammar (f : SourceFile) :
    f.tree.kind = .file ∧ f.tree.Every Tree.IsFormed ∧
      (f.tree.Every fun t => t.kind = .functionDecl → ∃ name, t.functionName? = some name) ∧
      (Node.root 0 f.tree).functions.map (fun n => n.tree.functionName?) =
        f.functionNames.map some := by
  have hformed := Syntax.formed_forest (fun b => formed_macroArguments b) f.content
  rw [forest_content] at hformed
  have hevery := hformed.every _ (List.mem_singleton_self _)
  refine ⟨?_, hevery, hevery.mono fun t ht hkind => ht.functionName? hkind, f.map_functionName?⟩
  obtain ⟨depth, content⟩ := f
  cases content with
  | file attributes items => rfl

end LeafPaths
