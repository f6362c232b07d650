import LeafPaths.Tree

/-!
The grammar of trees. For each category a rule lists what stands below it, from
left to right: one child, one that may be missing, or any number of them, each of
the categories named there. Trees in general obey no rule, and a rule says nothing
of what its children hold: they have rules of their own.
-/

namespace LeafPaths

namespace Kind

/-! ### Groups of categories -/

def isIdent : Kind → Bool
  | ident _ => true
  | _ => false

def isToken (k : Kind) : Bool := k.token?.isSome

/-- A path of one name is that name. -/
def isPath (k : Kind) : Bool := k.isIdent || k == path

def isItem : Kind → Bool
  | functionDecl | implBlock | traitDecl | module | constDecl | staticDecl | item => true
  | _ => false

/-- What can stand wherever an expression, a statement, a pattern or a type can.
The other categories are the file and parts of something else, such as the
parameters of a function. -/
def isWhole : Kind → Bool
  | file | generics | typeParam | constParam | params | param | receiver | results | arm | guard
  | fieldValue | genericArgs | assocType | fieldPat | traitBound => false
  | _ => true

def isSegment (k : Kind) : Bool := k.isIdent || k == genericArgs

def isArgument (k : Kind) : Bool := k.isWhole || k == assocType

def isGenericParam (k : Kind) : Bool := k == typeParam || k == constParam

def isParam (k : Kind) : Bool := k == param || k == receiver

def binaryOperators : List String :=
  ["+", "-", "*", "/", "%", "&&", "||", "^", "&", "|", "<<", ">>", "==", "<", "<=", "!=", ">=", ">"]

def unaryOperators : List String := ["*", "!", "-", "&", "&mut"]

def assignOperators : List String :=
  ["=", "+=", "-=", "*=", "/=", "%=", "^=", "&=", "|=", "<<=", ">>="]

def hasKnownOperator : Kind → Bool
  | binary op => binaryOperators.contains op
  | unary op => unaryOperators.contains op
  | assign op => assignOperators.contains op
  | _ => true

theorem isWhole_of_isIdent (k : Kind) (h : k.isIdent = true) : k.isWhole = true := by
  cases k <;> simp_all [isIdent, isWhole]

theorem isWhole_of_isPath (k : Kind) (h : k.isPath = true) : k.isWhole = true := by
  cases k <;> simp_all [isPath, isIdent, isWhole]

theorem isWhole_of_isItem (k : Kind) (h : k.isItem = true) : k.isWhole = true := by
  cases k <;> simp_all [isItem, isWhole]

theorem isArgument_of_isWhole (k : Kind) (h : k.isWhole = true) : k.isArgument = true := by
  rw [isArgument, h, Bool.true_or]

end Kind

/-! ### Rules -/

/-- A place in a rule, with the categories that may fill it. -/
inductive Slot where
  | one (allowed : Kind → Bool)
  | maybe (allowed : Kind → Bool)
  | many (allowed : Kind → Bool)

/-- Categories that fill the places of a rule in their order. -/
inductive Fits : List Slot → List Kind → Prop where
  | nil : Fits [] []
  | one {p : Kind → Bool} {k : Kind} {slots : List Slot} {ks : List Kind} (hk : p k = true)
      (h : Fits slots ks) : Fits (.one p :: slots) (k :: ks)
  | skip {p : Kind → Bool} {slots : List Slot} {ks : List Kind} (h : Fits slots ks) :
      Fits (.maybe p :: slots) ks
  | take {p : Kind → Bool} {k : Kind} {slots : List Slot} {ks : List Kind} (hk : p k = true)
      (h : Fits slots ks) : Fits (.maybe p :: slots) (k :: ks)
  | stop {p : Kind → Bool} {slots : List Slot} {ks : List Kind} (h : Fits slots ks) :
      Fits (.many p :: slots) ks
  | more {p : Kind → Bool} {k : Kind} {slots : List Slot} {ks : List Kind} (hk : p k = true)
      (h : Fits (.many p :: slots) ks) : Fits (.many p :: slots) (k :: ks)

open Slot Kind in
/-- What stands below each category. -/
def Kind.slots : Kind → List Slot
  | .file | .module => [many isItem]
  | .implBlock | .traitDecl => [many (· == functionDecl)]
  | .functionDecl =>
    [one isIdent, maybe (· == generics), one (· == params), maybe (· == results),
      maybe (· == block)]
  | .generics => [many isGenericParam]
  | .typeParam => [one isIdent, many (· == traitBound), maybe isWhole]
  | .constParam | .assocType | .bindingPat => [one isIdent, one isWhole]
  | .params => [many isParam]
  | .receiver => [one (· == ident "self"), maybe isWhole]
  | .constDecl | .staticDecl => [one isIdent, one isWhole, one isWhole]
  | .ident _ | .lit _ | .item | .continueExpr | .infer | .inferType | .neverType | .wildPat
  | .restPat | .unknown => []
  | .unary _ | .await | .tryExpr | .paren | .guard | .refPat | .refType | .ptrType | .sliceType
  | .results => [one isWhole]
  | .endlessLoop | .asyncBlock => [one (· == block)]
  | .traitBound => [one isPath]
  | .binary _ | .assign _ | .cast | .index | .repeatExpr | .letExpr | .typedPat | .arrayType
  | .param => [one isWhole, one isWhole]
  | .fieldAccess => [one isWhole, one isToken]
  | .forLoop => [one isWhole, one isWhole, one (· == block)]
  | .whileLoop => [one isWhole, one (· == block)]
  | .ifExpr => [one isWhole, one (· == block), maybe isWhole]
  | .matchExpr => [one isWhole, many (· == arm)]
  | .arm => [one isWhole, maybe (· == guard), one isWhole]
  | .letStmt => [one isWhole, maybe isWhole, maybe isWhole]
  | .returnExpr | .breakExpr | .yieldExpr => [maybe isWhole]
  | .range | .rangePat => [maybe isWhole, maybe isWhole]
  | .block | .tuple | .array | .tuplePat | .slicePat | .orPat | .tupleType | .fnType =>
    [many isWhole]
  | .call => [one isWhole, many isWhole]
  | .methodCall => [one isWhole, one isIdent, maybe (· == genericArgs), many isWhole]
  | .macroCall | .tupleStructPat => [one isPath, many isWhole]
  | .closure => [many isWhole, maybe isWhole, one isWhole]
  | .structLit => [one isPath, many (· == fieldValue), maybe isWhole]
  | .fieldValue => [one isToken, maybe isWhole]
  | .structPat => [one isPath, many (· == fieldPat), maybe (· == restPat)]
  | .fieldPat => [maybe isToken, one isWhole]
  | .path => [maybe isWhole, many isSegment]
  | .genericArgs => [many isArgument]
  | .traitObject | .implTrait => [many (· == traitBound)]

/-- A node whose operator is known and whose children fill the rule of its
category. -/
structure Tree.IsFormed (t : Tree) : Prop where
  operator : t.kind.hasKnownOperator = true
  children : Fits t.kind.slots (t.children.map Tree.kind)

namespace Slot

def allowed : Slot → Kind → Bool
  | one p | maybe p | many p => p

/-- The place, where nothing needs to stand. -/
def optional : Slot → Slot
  | one p => maybe p
  | slot => slot

theorem allowed_optional (slot : Slot) : slot.optional.allowed = slot.allowed := by
  cases slot <;> rfl

end Slot

namespace Fits

variable {a b : List Slot} {ks ls : List Kind}

theorem append (h : Fits a ks) (h' : Fits b ls) : Fits (a ++ b) (ks ++ ls) := by
  induction h with
  | nil => exact h'
  | one hk _ ih => exact .one hk ih
  | skip _ ih => exact .skip ih
  | take hk _ ih => exact .take hk ih
  | stop _ ih => exact .stop ih
  | more hk _ ih => exact .more hk ih

theorem optional (h : Fits a ks) : Fits (a.map Slot.optional) ks := by
  induction h with
  | nil => exact .nil
  | one hk _ ih => exact .take hk ih
  | skip _ ih => exact .skip ih
  | take hk _ ih => exact .take hk ih
  | stop _ ih => exact .stop ih
  | more hk _ ih => exact .more hk ih

theorem optional_nil (a : List Slot) : Fits (a.map Slot.optional) [] := by
  induction a with
  | nil => exact .nil
  | cons slot a ih =>
      cases slot with
      | one p | maybe p => exact .skip ih
      | many p => exact .stop ih

theorem allowed_of_mem {q : Kind → Bool} (h : Fits a ks)
    (hslots : ∀ slot ∈ a, ∀ k, slot.allowed k = true → q k = true) : ∀ k ∈ ks, q k = true := by
  induction h with
  | nil => simp
  | one hk _ ih | take hk _ ih =>
      have hhead := hslots _ List.mem_cons_self _ hk
      have htail := ih fun slot hslot => hslots slot (List.mem_cons_of_mem _ hslot)
      exact List.forall_mem_cons.mpr ⟨hhead, htail⟩
  | skip _ ih | stop _ ih => exact ih fun slot hslot => hslots slot (List.mem_cons_of_mem _ hslot)
  | more hk _ ih => exact List.forall_mem_cons.mpr ⟨hslots _ List.mem_cons_self _ hk, ih hslots⟩

theorem many {p : Kind → Bool} (h : ∀ k ∈ ks, p k = true) : Fits [.many p] ks := by
  induction ks with
  | nil => exact .stop .nil
  | cons k ks ih =>
      obtain ⟨hk, hks⟩ := List.forall_mem_cons.mp h
      exact .more hk (ih hks)

theorem one_mono {p q : Kind → Bool} (hpq : ∀ k, p k = true → q k = true)
    (h : Fits [.one p] ks) : Fits [.one q] ks := by
  cases h with
  | one hk hnil => exact .one (hpq _ hk) hnil

theorem one_of_maybe {p : Kind → Bool} (h : Fits [.maybe p] ks) (hne : ks ≠ []) :
    Fits [.one p] ks := by
  cases h with
  | skip h =>
      cases h
      exact absurd rfl hne
  | take hk h => exact .one hk h

end Fits

end LeafPaths
