import LeafPaths.Proofs.SourceWords

/-!
Trees keep source order. The tokens of a file's tree, from left to right, are
those of the words that the file holds, without the words that its listing marks
as left out. Macro bodies are covered to any depth: a body that lists expressions
is listed as they are, and any other is left out as a whole.
-/

namespace LeafPaths

namespace Tree

mutual

/-- The tokens of the identifiers and literals of a tree, each node before its
children and these from left to right. -/
def tokens : Tree → List String
  | .node k cs => k.token?.toList ++ tokensAll cs

def tokensAll : List Tree → List String
  | [] => []
  | t :: ts => tokens t ++ tokensAll ts

end

@[simp] theorem tokensAll_nil : tokensAll [] = [] := rfl

@[simp] theorem tokensAll_cons (t : Tree) (ts : List Tree) :
    tokensAll (t :: ts) = t.tokens ++ tokensAll ts := rfl

@[simp] theorem tokens_node (k : Kind) (cs : List Tree) :
    (Tree.node k cs).tokens = k.token?.toList ++ tokensAll cs := by
  rw [tokens]

@[simp] theorem tokensAll_append (ts us : List Tree) :
    tokensAll (ts ++ us) = tokensAll ts ++ tokensAll us := by
  induction ts with
  | nil => rfl
  | cons t ts ih => simp [ih]

end Tree

namespace Entry

@[simp] theorem tokens_append (es fs : List Entry) : tokens (es ++ fs) = tokens es ++ tokens fs := by
  simp [tokens]

@[simp] theorem tokens_held (w : Word) (es : List Entry) :
    tokens (held w :: es) = w.token :: tokens es := rfl

@[simp] theorem tokens_leaveOut (o : Omission) (es : List Entry) : tokens (leaveOut o es) = [] := by
  simp [tokens, leaveOut]

end Entry

/-- Trees that show exactly the words of a listing that are not left out, in
their order. -/
def Shows (ts : List Tree) (es : List Entry) : Prop := Tree.tokensAll ts = Entry.tokens es

namespace Shows

variable {ts us : List Tree} {es fs : List Entry}

theorem nil : Shows [] [] := rfl

theorem append (h : Shows ts es) (h' : Shows us fs) : Shows (ts ++ us) (es ++ fs) := by
  simp only [Shows, Tree.tokensAll_append, Entry.tokens_append] at *
  rw [h, h']

/-- Words that are left out need no trees, and trees without tokens no words. -/
theorem hidden {o : Omission} (h : Tree.tokensAll ts = []) : Shows ts (Entry.leaveOut o es) := by
  rw [Shows, h, Entry.tokens_leaveOut]

theorem skip {o : Omission} (h : Shows ts fs) : Shows ts (Entry.leaveOut o es ++ fs) := by
  simpa using append (hidden rfl : Shows [] (Entry.leaveOut o es)) h

theorem skip_last {o : Omission} (h : Shows ts es) : Shows ts (es ++ Entry.leaveOut o fs) := by
  simpa using append h (hidden rfl : Shows [] (Entry.leaveOut o fs))

theorem append_blank (h : Shows ts es) (hus : Tree.tokensAll us = []) : Shows (ts ++ us) es := by
  rw [Shows, Tree.tokensAll_append, hus, List.append_nil]
  exact h

theorem leaf {k : Kind} {w : Word} (hk : k.token? = some w.token) (h : Shows ts es) :
    Shows (.single k :: ts) (.held w :: es) := by
  simp only [Shows] at h
  simp [Shows, hk, h]

theorem node_cons {k : Kind} (hk : k.token? = none) (h : Shows ts es) (h' : Shows us fs) :
    Shows (.node k ts :: us) (es ++ fs) := by
  simp only [Shows] at h h'
  simp [Shows, hk, h, h']

theorem node {k : Kind} (hk : k.token? = none) (h : Shows ts es) : Shows [.node k ts] es := by
  simpa using node_cons hk h nil

theorem member (m : Member) (h : Shows ts es) :
    Shows (Syntax.memberTree m :: ts) (Entry.ofMember m :: es) := by
  cases m with
  | named text => exact leaf rfl h
  | position i => exact leaf rfl h

theorem optional_name (n : Option String) :
    Shows (n.map Tree.ident).toList (n.toList.map Entry.name) := by
  cases n with
  | none => exact nil
  | some text => exact leaf rfl nil

end Shows

namespace Syntax

variable {β : Type} {args : β → List Tree} {body : β → List Entry} {s : Phrase}

theorem shows_around_opt {k : Kind} (hk : k.token? = none) (x : Syntax β (.opt s))
    (h : Shows (forest args x) (entries body x)) :
    Shows (around k x.isAbsent (forest args x)) (entries body x) := by
  cases x with
  | absent => exact .nil
  | present x => exact .node hk h

theorem shows_around_list {k : Kind} (hk : k.token? = none) (xs : Syntax β (.list s))
    (h : Shows (forest args xs) (entries body xs)) :
    Shows (around k xs.isNil (forest args xs)) (entries body xs) := by
  cases xs with
  | nil => exact .nil
  | cons x xs => exact .node hk h

theorem tokensAll_around_rest (isMissing : Bool) :
    Tree.tokensAll (around .restPat isMissing []) = [] := by
  cases isMissing <;> rfl

/-- The trees of a piece of syntax show its words, if those of macro bodies do.
One case for each constructor: each child is shown once and in its place. -/
theorem shows_forest (hbody : ∀ b, Shows (args b) (body b)) (x : Syntax β s) :
    Shows (forest args x) (entries body x) := by
  induction x with
  | nil | absent => exact .nil
  | cons x xs ih₁ ih₂ => exact ih₁.append ih₂
  -- parts that add nothing of their own
  | present x ih | pathExpr p ih | unsafeBlock b ih | constBlock b ih | tryBlock b ih
  | macroExpr m ih | group e ih | itemStmt i ih | exprStmt e _ ih | constPat b ih | macroPat m ih
  | parenPat p ih | pathPat p ih | groupType t ih | macroType m ih | parenType t ih
  | pathType p ih | typeArg t ih | constArg e ih => exact ih
  | blockExpr _ b ih | attributedExpr _ e ih | macroStmt _ m _ ih | attributedPat _ p ih
  | attributedImplMember _ m ih | attributedTraitMember _ m ih | attributedItem _ i ih =>
      exact ih.skip
  -- parts that are left out
  | rawAddress _ _ _ | verbatimExpr _ | continueExpr _ | verbatimPat _ | verbatimType _
  | lifetimeBound _ | verbatimBound _ | lifetimeArg _ | assocConstArg _ _ _ _ _
  | constraintArg _ _ _ _ _ | otherImplMember _ | otherTraitMember _ | otherItem _ =>
      exact .hidden rfl
  | lifetimeParam _ _ _ => exact .skip (.hidden rfl)
  -- nodes around one child
  | inferExpr | restPat | wildPat | inferType | neverType => exact .node rfl .nil
  | array es ih | unary _ e ih | reference _ e ih | asyncBlock _ b ih | await e ih
  | returnExpr e ih | yieldExpr e ih | paren e ih | tryExpr e ih | tuple es ih | orPat ps ih
  | referencePat _ p ih | slicePat ps ih | tuplePat ps ih | implType bs ih | pointerType _ t ih
  | sliceType t ih | objectType _ bs ih | tupleType ts ih => exact .node rfl ih
  | breakExpr _ e ih | endlessLoop _ b ih | block _ ss ih | letBare _ p ih | fieldPatShort _ p ih
  | referenceType _ _ t ih | traitBound _ _ _ p ih | implItem _ ms ih | traitItem _ ms ih
  | file _ is ih => exact .node rfl ih.skip
  | modItem _ _ is ih => exact .node rfl ih.skip.skip
  -- nodes around several children
  | replicate e n ih₁ ih₂ | assign l r ih₁ ih₂ | compound _ l r ih₁ ih₂ | binary _ l r ih₁ ih₂
  | call f es ih₁ ih₂ | cast e t ih₁ ih₂ | index e i ih₁ ih₂ | matchExpr e as ih₁ ih₂
  | letExpr p e ih₁ ih₂ | range l _ h ih₁ ih₂ | rangePat l _ h ih₁ ih₂
  | tupleStructPat p ps ih₁ ih₂ | typedPat p t ih₁ ih₂ | arrayType t e ih₁ ih₂
  | qualifiedPath t _ _ ss ih₁ ih₂ | traitMethod sig b ih₁ ih₂ => exact .node rfl (ih₁.append ih₂)
  | whileLoop _ e b ih₁ ih₂ | letInit _ p e ih₁ ih₂ | typedParam _ p t ih₁ ih₂
  | method _ _ sig b ih₁ ih₂ | fnItem _ sig b ih₁ ih₂ => exact .node rfl (ih₁.append ih₂).skip
  | fnType _ _ ps _ t ih₁ ih₂ => exact .node rfl (ih₁.append ih₂.skip).skip.skip
  | ifExpr e b o ih₁ ih₂ ih₃ | structLit p fs b ih₁ ih₂ ih₃ =>
      exact .node rfl ((ih₁.append ih₂).append ih₃)
  | closure _ ps t e ih₁ ih₂ ih₃ | forLoop _ p e b ih₁ ih₂ ih₃ | letElse _ p e d ih₁ ih₂ ih₃ =>
      exact .node rfl ((ih₁.append ih₂).append ih₃).skip
  | arm _ p g e ihp ihg ihe =>
      exact .node rfl ((ihp.append (shows_around_opt rfl g ihg)).append ihe).skip
  | structPat p fs hasRest ihp ihfs =>
      exact .node rfl ((ihp.append ihfs).append_blank (tokensAll_around_rest (!hasRest)))
  | invocation p _ b ih => exact .node rfl (ih.append (hbody b))
  -- words of their own
  | literal _ | literalPat _ | plainSegment _ => exact .leaf rfl .nil
  | methodCall e n ts es ihe ihts ihes =>
      exact .node rfl (ihe.append (.leaf rfl ((shows_around_opt rfl ts ihts).append ihes)))
  | field e m ih => exact .node rfl (ih.append (.member m .nil))
  | fieldValueFull _ m e ih | fieldPatFull _ m e ih => exact .node rfl (ih.member m).skip
  | fieldValueShort _ n => exact .node rfl (.skip (.leaf rfl .nil))
  | bindingPat _ _ n sub ih =>
      cases sub with
      | absent => exact .leaf rfl .nil
      | present p => exact .node rfl (.leaf rfl ih)
  | bareParam _ n t ih => exact ((Shows.optional_name n).append ih).skip
  | plainPath isGlobal ss ih =>
      change Shows (if !isGlobal && ss.isLoneName then forest args ss
        else [.node .path (forest args ss)]) (entries body ss)
      split
      · exact ih
      · exact .node rfl ih
  | angleSegment n as ih => exact .leaf rfl (.node rfl ih)
  | callSegment n ts t ih₁ ih₂ => exact .leaf rfl (.node rfl (ih₁.append ih₂))
  | assocTypeArg n as t _ ih => exact .node rfl (.leaf rfl ih.skip)
  | typeParam _ n bs t ih₁ ih₂ => exact .node rfl (.skip (.leaf rfl (ih₁.append ih₂)))
  | constParam _ n t e ih _ => exact .node rfl (.skip (.leaf rfl ih.skip_last))
  | receiver _ _ _ t ih => exact .node rfl (.skip (.skip (.leaf rfl ih)))
  | signature _ n gs ps _ t _ ihgs ihps iht =>
      have hresult := (shows_around_opt rfl t iht : Shows (around .results _ _) _)
      have hgenerics := (shows_around_list rfl gs ihgs : Shows (around .generics _ _) _)
      exact .skip (.leaf rfl (hgenerics.append (.node_cons rfl ihps hresult.skip_last.skip)))
  | constItem _ n _ t e ih₁ ih₂ => exact .node rfl (.skip (.leaf rfl (ih₁.append ih₂).skip))
  | staticItem _ _ n t e ih₁ ih₂ => exact .node rfl (.skip (.leaf rfl (ih₁.append ih₂)))

end Syntax

theorem shows_flatMap {α : Type} (f : α → List Tree) (g : α → List Entry) (xs : List α)
    (h : ∀ x, Shows (f x) (g x)) : Shows (xs.flatMap f) (xs.flatMap g) := by
  induction xs with
  | nil => exact .nil
  | cons x xs ih =>
      rw [List.flatMap_cons, List.flatMap_cons]
      exact (h x).append ih

/-- Bodies inside a body are nested less deep, which is what the induction is on:
the arguments that a body lists are no part of the syntax around it. -/
theorem shows_macroArguments {d : Nat} (b : Body d) :
    Shows (macroArguments b) (macroEntries b) := by
  induction d using Nat.strongRecOn with
  | ind d ih =>
      rw [macroArguments, macroEntries]
      cases parseArguments b.val with
      | error fault => exact .hidden rfl
      | ok es =>
          apply shows_flatMap
          intro e
          exact Syntax.shows_forest (fun inner => ih _ b.property inner) e

/-- The tokens of a file's tree in pre-order are the words that the file holds,
each once and in source order, without those that are left out. -/
theorem SourceFile.tree_tokens (f : SourceFile) : f.tree.tokens = Entry.tokens f.entries := by
  have hshows := Syntax.shows_forest (fun b => shows_macroArguments b) f.content
  obtain ⟨depth, content⟩ := f
  cases content with
  | file attributes items =>
      have htree : Syntax.forest macroArguments (.file attributes items) =
          [SourceFile.tree ⟨depth, .file attributes items⟩] := rfl
      rw [htree] at hshows
      simpa [Shows, SourceFile.entries] using hshows

-- A lifetime is listed and left out, a receiver and a position are shown.
example :
    let self : Syntax (Body 0) .expr :=
      .pathExpr (.plainPath false (.cons (.plainSegment "self") .nil))
    let params : Syntax (Body 0) (.list .param) :=
      .cons (.receiver [] (some (some "'a")) false .absent) .nil
    let f : Syntax (Body 0) .item :=
      .fnItem [] (.signature ⟨false, false, false, none⟩ "f" .nil params none .absent [])
        (.block [] (.cons (.exprStmt (.field self (.position 0)) false) .nil))
    (SourceFile.entries ⟨0, .file [] (.cons f .nil)⟩).map (fun e => (e.word, e.omission)) =
      [(.identifier "f", none), (.identifier "'a", some .lifetime), (.receiver, none),
        (.identifier "self", none), (.position 0, none)] := rfl

end LeafPaths
