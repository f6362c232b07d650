import LeafPaths.Proofs.ParserProgress

/-!
Paths, types and patterns come to an end.

`Rules.Ready` says that the rules end on streams of fewer than `n` tokens. Under this assumption
every parser of the grammar ends: most on `n` tokens too, because they take a token before they
apply a rule, the others where one has been taken before them. Of the rules that follow, only the
one for types may begin with another rule, in an object type that begins with a bound.
-/

-- What follows a conditional step is looked at once for each of its branches.
set_option synthInstance.maxSize 20000

namespace LeafPaths

namespace Grammar

variable {α : Type} {d : Nat} {n : Nat} {z : Zone}

/-- The rules end on streams of fewer than `n` tokens. -/
class Rules.Ready (r : Rules α d) (n : Nat) : Prop where
  unary (b : Bool) : Ends n .rest (r.unary b)
  climb (b : Bool) (p : Precedence) (e : Syn d .expr) : Ends n .rest (r.climb b p e)
  settle (b : Bool) (p : Precedence) (e : Syn d .expr) : Ends n .rest (r.settle b p e)
  trailers (e : Syn d .expr) : Ends n .rest (r.trailers e)
  early : Ends n .rest r.early
  ifExpr : Ends n .rest r.ifExpr
  type (b : Bool) : Ends n .rest (r.type b)
  bound (b c : Bool) : Ends n .rest (r.bound b c)
  pat : Ends n .rest r.pat
  stmts : Ends n .rest r.stmts
  item : Ends n .rest r.item
  fields : Ends n .rest r.fields
  useTree (b : Bool) : Ends n .rest (r.useTree b)

attribute [instance] Rules.Ready.unary Rules.Ready.climb Rules.Ready.settle Rules.Ready.trailers
  Rules.Ready.early Rules.Ready.ifExpr Rules.Ready.type Rules.Ready.bound Rules.Ready.pat
  Rules.Ready.stmts Rules.Ready.item Rules.Ready.fields Rules.Ready.useTree

/-! ### Attributes -/

instance {k : Nat} : Ends n z (pathWords k : Parser α d (List String)) := by
  induction k with
  | zero =>
    unfold pathWords
    infer_instance
  | succ k ih =>
    unfold pathWords
    infer_instance

instance : Ends n z (modPath : Parser α d (Syn d .path)) := by unfold modPath; infer_instance

instance : Ends n z (restriction : Parser α d Unit) := by
  unfold restriction
  refine .step inferInstance fun ts => ?_
  split <;> infer_instance

instance : Ends n z (visibility : Parser α d Verbatim) := by unfold visibility; infer_instance

variable (r : Rules α d) [r.Ready n] {isExpr allowPlus allowCapture allowConst : Bool}
  {attributes : List Attribute} {isStop : Tokens α → Bool}

instance {b : Bool} : Ends n .rest (r.exprWhere b) := by unfold Rules.exprWhere; infer_instance
instance : Ends n .rest r.expr := by unfold Rules.expr; infer_instance
instance : Ends n .rest r.exprBeforeBrace := by unfold Rules.exprBeforeBrace; infer_instance

instance : Ends n .rest (attributeValue r) := by
  unfold attributeValue
  refine .step inferInstance fun ts => ?_
  split <;> infer_instance

instance : Ends n z (attributeContent r) := by unfold attributeContent; infer_instance
instance : Ends n z (outerAttribute r) := by unfold outerAttribute; infer_instance
instance : Ends n z (outerAttributes r) := by unfold outerAttributes; infer_instance
instance : Ends n z (innerAttribute r) := by unfold innerAttribute; infer_instance
instance : Ends n z (innerAttributes r) := by unfold innerAttributes; infer_instance

/-! ### Paths -/

instance : Ends n z (attributedBlock r) := by unfold attributedBlock; infer_instance
instance : Ends n z (block r) := by unfold block; infer_instance

instance {p : Syn d .path} : Ends n z (invocation p : Parser α d (Syn d .invocation)) := by
  unfold invocation
  infer_instance

instance : Ends n z (constArgument r) := by unfold constArgument; infer_instance
instance : Ends n .rest (boundsUntil r isStop) := by unfold boundsUntil; infer_instance

instance : Ends n .rest (genericArg r) := by
  unfold genericArg
  refine .step inferInstance fun ts => ?_
  split
  · infer_instance
  split
  · infer_instance
  refine .step inferInstance fun t => ?_
  split <;> infer_instance

instance : Ends n z (genericArgs r) := by unfold genericArgs; infer_instance
instance : Ends n z (segment r isExpr) := by unfold segment; infer_instance
instance : Ends n z (moreSegments r isExpr) := by unfold moreSegments; infer_instance
instance : Ends n z (plainPath r isExpr) := by unfold plainPath; infer_instance
instance : Ends n z (segments r isExpr) := by unfold segments; infer_instance
instance : Ends n z (path r isExpr) := by unfold path; infer_instance

/-! ### Generic parameters -/

instance : Ends n z (lifetimeBounds isStop : Parser α d (List String)) := by
  unfold lifetimeBounds
  infer_instance

instance : Ends n z (lifetimeParam attributes : Parser α d (Syn d .genericParam)) := by
  unfold lifetimeParam
  infer_instance

instance : Ends n z (typeParam r attributes) := by unfold typeParam; infer_instance
instance : Ends n z (constParam r attributes) := by unfold constParam; infer_instance
instance : Ends n z (binderParam r) := by unfold binderParam; infer_instance
instance : Ends n z (binder r) := by unfold binder; infer_instance
instance : Ends n z (genericParam r) := by unfold genericParam; infer_instance
instance : Ends n z (generics r) := by unfold generics; infer_instance
instance : Ends n .rest (condition r) := by unfold condition; infer_instance
instance : Ends n z (whereClause r) := by unfold whereClause; infer_instance

/-! ### Bounds -/

instance : Ends n z (resultType r allowPlus) := by unfold resultType; infer_instance

instance : Ends n z (traitPath r) := by
  unfold traitPath
  refine .step inferInstance fun p => .step inferInstance fun ts => ?_
  split <;> infer_instance

instance : Ends n z (constMarker allowConst : Parser α d Bool) := by
  unfold constMarker
  infer_instance

instance {hasParens : Bool} : Ends n z (bareTraitBound r hasParens allowConst) := by
  unfold bareTraitBound
  infer_instance

instance : Ends n z (capture : Parser α d Unit) := by unfold capture; infer_instance
instance : Ends n z (boundRule r allowCapture allowConst) := by unfold boundRule; infer_instance

instance [∀ b c, Ends n z (r.bound b c)] :
    Ends n z (bounds r allowPlus allowCapture allowConst) := by
  unfold bounds
  infer_instance

instance : Ends n z (moreBounds r) := by unfold moreBounds; infer_instance

instance {m : α} [∀ b c, Ends n z (r.bound b c)] : Ends n z (objectBounds r m allowPlus) := by
  unfold objectBounds
  infer_instance

instance [∀ b c, Ends n z (r.bound b c)] : Ends n z (objectType r allowPlus) := by
  unfold objectType
  infer_instance

/-! ### Types -/

instance : Ends n z (abi : Parser α d (Option Verbatim)) := by unfold abi; infer_instance

instance {isFirst : Bool} : Ends n .rest (bareParam r isFirst attributes) := by
  unfold bareParam
  infer_instance

instance : Ends n z (bareVariadic attributes : Parser α d Variadic) := by
  unfold bareVariadic
  infer_instance

instance : Ends n .rest (bareParams r) := by
  have go : ∀ k isFirst, Ends n .rest (bareParams.go r k isFirst) := by
    intro k
    induction k with
    | zero => exact fun _ => .pure
    | succ k ih =>
      intro isFirst
      unfold bareParams.go
      infer_instance
  exact .step inferInstance fun ts => go _ _

instance {binder : Option Verbatim} : Ends n z (fnType r binder) := by unfold fnType; infer_instance
instance : Ends n .rest (parenthesized r) := by unfold parenthesized; infer_instance

instance : Ends n z (parenType r allowPlus) := by
  unfold parenType
  refine .past_enter inferInstance fun content left => ?_
  cases content with
  | complete t => infer_instance
  | bound b => infer_instance
  | single t endsInPlus =>
    refine .step inferInstance fun ts => ?_
    dsimp only
    split
    · split <;> infer_instance
    · infer_instance

instance : Ends n z (builtin : Parser α d Verbatim) := by unfold builtin; infer_instance

instance {binder : Option Verbatim} : Ends n z (pathType r allowPlus binder) := by
  unfold pathType
  refine .step inferInstance fun ts => ?_
  split
  · infer_instance
  refine .step inferInstance fun p => ?_
  split <;> infer_instance

instance : Ends n z (pointerType r) := by unfold pointerType; infer_instance
instance : Ends n z (referenceType r) := by unfold referenceType; infer_instance
instance : Ends n z (bracketType r) := by unfold bracketType; infer_instance
instance : Ends n z (implType r allowPlus) := by unfold implType; infer_instance
instance : Ends n z (dynType r allowPlus) := by unfold dynType; infer_instance

instance [∀ b c, Ends n z (r.bound b c)] : Ends n z (typeRule r allowPlus) := by
  unfold typeRule
  infer_instance

/-! ### Patterns -/

instance : Ends n .rest (patRule r) := by unfold patRule; infer_instance
instance : Ends n z (constBlock r) := by unfold constBlock; infer_instance
instance : Ends n z (rangeBound r) := by unfold rangeBound; infer_instance
instance : Ends n z (upperBound r) := by unfold upperBound; infer_instance

instance {allowThree : Bool} : Ends n z (rangeDots allowThree : Parser α d Bool) := by
  unfold rangeDots
  infer_instance

instance {allowThree : Bool} : Takes (rangeDots allowThree : Parser α d Bool) where
  takesOf ts := by
    unfold rangeDots
    have hop (text : String) : TakesOf ts (op text : Parser α d Unit) := Takes.takesOf ts
    grind

instance {low : RangeBound d} : Ends n z (rangeFrom r low) := by
  unfold rangeFrom
  refine .step inferInstance fun isClosed => .step inferInstance fun high => ?_
  split <;> infer_instance

instance : Ends n z (rangeTo r) := by
  unfold rangeTo
  refine .step inferInstance fun isClosed => .step inferInstance fun high => ?_
  split <;> infer_instance

instance : Ends n .rest (fieldPat r attributes) := by
  unfold fieldPat
  refine .step inferInstance fun p => ?_
  dsimp only
  split <;> infer_instance

instance : Ends n .rest (fieldPats r) := by
  have go : ∀ k, Ends n .rest (fieldPats.go r k) := by
    intro k
    induction k with
    | zero => exact .pure
    | succ k ih =>
      unfold fieldPats.go
      infer_instance
  exact .step inferInstance fun ts => go _

instance : Ends n z (pathPat r) := by unfold pathPat; infer_instance
instance : Ends n z (literalPat r) := by unfold literalPat; infer_instance
instance : Ends n z (bindingPat r) := by unfold bindingPat; infer_instance
instance : Ends n z (referencePat r) := by unfold referencePat; infer_instance
instance : Ends n z (parenPat r) := by unfold parenPat; infer_instance

instance : Ends n .rest (slicePatElement r) := by
  unfold slicePatElement
  refine .step inferInstance fun p => ?_
  dsimp only
  split <;> infer_instance

instance : Ends n z (boxPat r) := by unfold boxPat; infer_instance
instance : Ends n z (patAtom r) := by unfold patAtom; infer_instance

end Grammar

end LeafPaths
