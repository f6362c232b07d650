import LeafPaths.Proofs.TypeProgress

/-!
The rules of the grammar never give up.

Every rule takes a token before it applies another, with few exceptions: statements may begin with
an item or an expression, an expression with its operand, and nothing need stand between an operand
and its trailers or operators. At most four rules follow one another in this way, so four more
applications let all of them end on streams of one token more, and the depth that `Rules.for` sets
is enough for any text.
-/

set_option synthInstance.maxSize 20000

namespace LeafPaths

namespace Grammar

variable {α : Type} {d : Nat} {x : Type} {n : Nat} {z : Zone} (r : Rules α d) [r.Ready n]
  {allowStruct : Bool} {attributes : List Attribute} {label : Option String} {e : Syn d .expr}

/-! ### Operators -/

instance {p : Precedence} : Ends n .rest (operand r allowStruct p) := by
  unfold operand
  infer_instance

instance {low : Syn d (.opt .expr)} : Ends n z (rangeRest r allowStruct low) := by
  unfold rangeRest
  infer_instance

-- The dots of a range are taken first, so what follows it begins with fewer tokens.
instance {low : Syn d (.opt .expr)} {f : Syn d .expr → Parser α d x} [∀ e, Ends n .rest (f e)] :
    Ends n z (rangeRest r allowStruct low >>= f) := by
  unfold rangeRest
  rw [bind_assoc]
  infer_instance

instance : Ends n z (checkCast : Parser α d Unit) := by unfold checkCast; infer_instance

instance {base : Precedence} {left : Syn d .expr} :
    Ends n z (climbRule r allowStruct base left) := by
  unfold climbRule
  refine .step inferInstance fun ts => ?_
  split
  · infer_instance
  split <;> infer_instance

instance [∀ b p e, Ends n z (r.climb b p e)] {p : Precedence} :
    Ends n z (settleRule r allowStruct p e) where
  endsWell s hs hl := by
    have hclimb : Ends n z (r.climb allowStruct (nextPrecedence s.rest) e) := inferInstance
    change EndsWell s ((if _ then _ else pure e : Parser α d (Syn d .expr)) s)
    split
    · refine (hclimb.endsWell s hs hl).bind fun e' s' _ hw hl' => ?_
      change EndsWell s' ((if s'.rest.length == s.rest.length then pure e' else
        r.settle allowStruct p e' : Parser α d (Syn d .expr)) s')
      split
      · exact ⟨List.suffix_refl _, hl'⟩
      · rename_i hlength
        have hlt := hw.size_lt (by simpa using hlength)
        exact (Rules.Ready.settle allowStruct p e').endsWell s' (hs.rest_of_lt hlt) hl'
    · exact ⟨List.suffix_refl _, hl⟩

/-! ### Operands -/

instance : Ends n .rest (optValue r) := by unfold optValue; infer_instance
instance : Ends n z (args r) := by unfold args; infer_instance

instance {m : α} {text : String} : Ends n z (positionOf m text : Parser α d Nat) := by
  unfold positionOf
  dsimp only
  split <;> infer_instance

instance {m : α} {text : String} : Ends n z (positionsOf m text : Parser α d (List Nat)) := by
  unfold positionsOf
  infer_instance

instance : Ends n .rest (memberAccess r e) := by
  unfold memberAccess
  refine .step inferInstance fun _ => ?_
  split
  · infer_instance
  refine .step inferInstance fun m => ?_
  split <;> infer_instance

instance : Ends n .rest (dotAccess r e) := by
  unfold dotAccess
  refine .step inferInstance fun ts => ?_
  split <;> infer_instance

instance : Takes (args r) where
  takesOf ts := by
    have h : TakesOf ts (inside .parenthesis (commaList r.expr)) := Takes.takesOf ts
    exact h.bind_pure fun _ => ⟨_, rfl⟩

instance : Ends n z (trailersRule r e) := by unfold trailersRule; infer_instance

instance : Ends n .rest (fieldValue r) := by
  unfold fieldValue
  refine .step inferInstance fun _ => .step inferInstance fun m => ?_
  split <;> infer_instance

instance : Ends n .rest (fieldValues r) := by
  have go : ∀ k, Ends n .rest (fieldValues.go r k) := by
    intro k
    induction k with
    | zero => exact .pure
    | succ k ih =>
      unfold fieldValues.go
      infer_instance
  exact .step inferInstance fun ts => go _

instance : Ends n z (pathExpr r allowStruct) := by unfold pathExpr; infer_instance
instance : Ends n z (parenExpr r) := by unfold parenExpr; infer_instance
instance : Ends n z (bracketExpr r) := by unfold bracketExpr; infer_instance
instance : Ends n .rest (closureParam r) := by unfold closureParam; infer_instance
instance : Ends n z (closure r allowStruct) := by unfold closure; infer_instance
instance : Ends n z (ifRule r) := by unfold ifRule; infer_instance
instance : Ends n z (whileLoop r label) := by unfold whileLoop; infer_instance
instance : Ends n z (forLoop r label) := by unfold forLoop; infer_instance
instance : Ends n z (endlessLoop r label) := by unfold endlessLoop; infer_instance
instance : Ends n z (labeled r) := by unfold labeled; infer_instance
instance : Ends n z (tryBlock r) := by unfold tryBlock; infer_instance
instance : Ends n z (unsafeExpr r) := by unfold unsafeExpr; infer_instance
instance : Ends n .rest (arm r) := by unfold arm; infer_instance
instance : Ends n z (matchExpr r) := by unfold matchExpr; infer_instance

instance [∀ b, Ends n z (r.unary b)] [∀ e, Ends n z (r.trailers e)]
    [∀ b p e, Ends n z (r.climb b p e)] : Ends n z (earlyRule r) := by
  unfold earlyRule
  infer_instance

instance : Ends n z (breakExpr r allowStruct) := by unfold breakExpr; infer_instance
instance : Ends n z (letExpr r allowStruct) := by unfold letExpr; infer_instance
instance : Ends n z (atom r allowStruct) := by unfold atom; infer_instance
instance : Ends n z (referenceExpr r allowStruct) := by unfold referenceExpr; infer_instance

instance [∀ e, Ends n z (r.trailers e)] : Ends n z (unaryRule r allowStruct) := by
  unfold unaryRule
  infer_instance

/-! ### Statements -/

instance : Ends n z (letStmt r attributes) := by unfold letStmt; infer_instance
instance [Ends n z r.early] : Ends n z (exprStmt r attributes) := by unfold exprStmt; infer_instance
instance [Ends n z r.early] [Ends n z r.item] : Ends n z (stmt r) := by unfold stmt; infer_instance

instance [Ends n z r.early] [Ends n z r.item] : Ends n z (stmtsRule r) := by
  unfold stmtsRule
  infer_instance

/-! ### Functions -/

instance : Ends n z (receiver r attributes) := by unfold receiver; infer_instance
instance : Ends n .rest (parameter r) := by unfold parameter; infer_instance

instance : Ends n .rest (parameters r) := by
  have go : ∀ k isFirst hasReceiver, Ends n .rest (parameters.go r k isFirst hasReceiver) := by
    intro k
    induction k with
    | zero => exact fun _ _ => .pure
    | succ k ih =>
      intro isFirst hasReceiver
      unfold parameters.go
      refine .step inferInstance fun _ => ?_
      split
      · infer_instance
      refine .step inferInstance fun p => ?_
      split <;> infer_instance
  exact .step inferInstance fun ts => go _ _ _

instance {allowSafe : Bool} : Ends n z (signature r allowSafe) := by
  unfold signature
  infer_instance

/-! ### Items -/

instance : Ends n z (nameOrBlank : Parser α d String) := by unfold nameOrBlank; infer_instance
instance : Ends n z (constant r) := by unfold constant; infer_instance

instance {allowDefault : Bool} {place : ConditionsPlace} :
    Ends n z (typeAlias r allowDefault place) := by
  unfold typeAlias
  infer_instance

instance : Ends n z (namedField r) := by unfold namedField; infer_instance
instance : Ends n z (fieldsRule r) := by unfold fieldsRule; infer_instance
instance : Ends n .rest (tupleField r) := by unfold tupleField; infer_instance
instance : Ends n z (tupleFields r) := by unfold tupleFields; infer_instance
instance : Ends n z (structBody r) := by unfold structBody; infer_instance
instance : Ends n z (variant r) := by unfold variant; infer_instance

instance {allowGlobal : Bool} : Ends n z (useTreeRule r allowGlobal) := by
  unfold useTreeRule
  infer_instance

instance : Ends n z (macroMember : Parser α d Unit) := by unfold macroMember; infer_instance
instance : Ends n z (macroItem : Parser α d Unit) := by unfold macroItem; infer_instance
instance : Ends n z (macroDefinition : Parser α d Unit) := by unfold macroDefinition; infer_instance
instance : Ends n z (foreignFn r) := by unfold foreignFn; infer_instance
instance : Ends n z (foreignStatic r) := by unfold foreignStatic; infer_instance
instance : Ends n z (foreignMember r) := by unfold foreignMember; infer_instance
instance : Ends n z (foreignBlock r) := by unfold foreignBlock; infer_instance
instance : Ends n z (externCrate : Parser α d Unit) := by unfold externCrate; infer_instance
instance : Ends n z (implMember r) := by unfold implMember; infer_instance

instance {m : α} {isNegative : Bool} : Ends n .rest (implTarget r m isNegative) := by
  unfold implTarget
  infer_instance

instance : Ends n z (implItem r) := by unfold implItem; infer_instance
instance : Ends n z (traitFn r) := by unfold traitFn; infer_instance
instance : Ends n z (traitMember r) := by unfold traitMember; infer_instance
instance : Ends n z (traitBody r) := by unfold traitBody; infer_instance

instance {allowAlias : Bool} : Ends n z (traitItem r allowAlias) := by
  unfold traitItem
  infer_instance

instance : Ends n z (fnItem r) := by unfold fnItem; infer_instance
instance : Ends n z (staticItem r) := by unfold staticItem; infer_instance
instance : Ends n z (constItem r) := by unfold constItem; infer_instance
instance : Ends n z (modItem r) := by unfold modItem; infer_instance

instance {p : Parser α d Unit} [Ends n z p] : Ends n z (keptItem p : Parser α d (Syn d .item)) := by
  unfold keptItem
  infer_instance

instance {w : String} {rest : Parser α d Unit} [Ends n .rest rest] :
    Ends n z (dataItem r w rest) := by
  unfold dataItem
  infer_instance

instance {ts : Tokens α} : Ends n z (externItem r ts) := by unfold externItem; infer_instance
instance {ts : Tokens α} : Ends n z (unsafeItem r ts) := by unfold unsafeItem; infer_instance
instance : Ends n z (itemRule r) := by unfold itemRule; infer_instance
instance : Ends n .rest (file r) := by unfold file; infer_instance

/-! ### The closed rules -/

theorem Ends.none {p : Parser α d x} : Ends 0 .rest p := ⟨fun _ hs => absurd hs (Nat.not_lt_zero _)⟩

theorem Ends.succ {p : Parser α d x} (h : Ends n .whole p) : Ends (n + 1) .rest p :=
  ⟨fun s hs => h.endsWell s (Nat.le_of_lt_succ hs)⟩

section

variable {k : Nat} [(Rules.upTo k : Rules α d).Ready n]

-- A rule of one depth is its text over the rules of the depth below. What it may begin with is
-- asked for in the same zone.

instance {b c : Bool} : Ends n z ((Rules.upTo (k + 1) : Rules α d).bound b c) :=
  inferInstanceAs (Ends n z (boundRule (.upTo k) b c))

instance {b : Bool} [∀ b c, Ends n z ((Rules.upTo k : Rules α d).bound b c)] :
    Ends n z ((Rules.upTo (k + 1) : Rules α d).type b) :=
  inferInstanceAs (Ends n z (typeRule (.upTo k) b))

instance {e : Syn d .expr} : Ends n z ((Rules.upTo (k + 1) : Rules α d).trailers e) :=
  inferInstanceAs (Ends n z (trailersRule (.upTo k) e))

instance {b : Bool} [∀ e, Ends n z ((Rules.upTo k : Rules α d).trailers e)] :
    Ends n z ((Rules.upTo (k + 1) : Rules α d).unary b) :=
  inferInstanceAs (Ends n z (unaryRule (.upTo k) b))

instance {b : Bool} {p : Precedence} {e : Syn d .expr} :
    Ends n z ((Rules.upTo (k + 1) : Rules α d).climb b p e) :=
  inferInstanceAs (Ends n z (climbRule (.upTo k) b p e))

instance {b : Bool} {p : Precedence} {e : Syn d .expr}
    [∀ b p e, Ends n z ((Rules.upTo k : Rules α d).climb b p e)] :
    Ends n z ((Rules.upTo (k + 1) : Rules α d).settle b p e) :=
  inferInstanceAs (Ends n z (settleRule (.upTo k) b p e))

instance [∀ b, Ends n z ((Rules.upTo k : Rules α d).unary b)]
    [∀ e, Ends n z ((Rules.upTo k : Rules α d).trailers e)]
    [∀ b p e, Ends n z ((Rules.upTo k : Rules α d).climb b p e)] :
    Ends n z (Rules.upTo (k + 1) : Rules α d).early :=
  inferInstanceAs (Ends n z (earlyRule (.upTo k)))

instance : Ends n z (Rules.upTo (k + 1) : Rules α d).ifExpr :=
  inferInstanceAs (Ends n z (ifRule (.upTo k)))

instance : Ends n z (Rules.upTo (k + 1) : Rules α d).pat :=
  inferInstanceAs (Ends n z (patAtom (.upTo k)))

instance : Ends n z (Rules.upTo (k + 1) : Rules α d).item :=
  inferInstanceAs (Ends n z (itemRule (.upTo k)))

instance : Ends n z (Rules.upTo (k + 1) : Rules α d).fields :=
  inferInstanceAs (Ends n z (fieldsRule (.upTo k)))

instance {b : Bool} : Ends n z ((Rules.upTo (k + 1) : Rules α d).useTree b) :=
  inferInstanceAs (Ends n z (useTreeRule (.upTo k) b))

instance [Ends n z (Rules.upTo k : Rules α d).early] [Ends n z (Rules.upTo k : Rules α d).item] :
    Ends n z (Rules.upTo (k + 1) : Rules α d).stmts :=
  inferInstanceAs (Ends n z (stmtsRule (.upTo k)))

instance : (Rules.upTo (k + 1) : Rules α d).Ready n := by
  constructor <;> infer_instance

theorem Rules.ready_succ : (Rules.upTo (k + 4) : Rules α d).Ready (n + 1) := by
  constructor <;> intros <;> exact .succ inferInstance

end

theorem Rules.ready_upTo (n j : Nat) : (Rules.upTo (4 * n + j) : Rules α d).Ready n := by
  induction n with
  | zero => constructor <;> intros <;> exact .none
  | succ n ih =>
    rw [show 4 * (n + 1) + j = 4 * n + j + 4 by omega]
    exact Rules.ready_succ

instance {ts : Tokens α} : (Rules.for ts : Rules α d).Ready (Token.sizeAll ts + 1) := by
  have h := Rules.ready_upTo (α := α) (d := d) (Token.sizeAll ts + 1) (4 * Token.sizeAll ts + 12)
  rw [show 4 * (Token.sizeAll ts + 1) + (4 * Token.sizeAll ts + 12) = 8 * (Token.sizeAll ts + 2) by
    omega] at h
  exact h

theorem complaint_of_run_eq_error {p : Parser α d x} {ts : Tokens α}
    {h : Token.depthAll ts ≤ d} {scope : α} {f : Fault α} (hp : Ends (Token.sizeAll ts + 1) .rest p)
    (hrun : run p ts h scope = .error f) : f.complaint.isSome := by
  have hends := hp.endsWell ⟨ts, h, scope, none⟩ (Nat.lt_succ_self _) nofun
  unfold run at hrun
  split at hrun
  · rename_i hp
    cases hrun
    rwa [hp] at hends
  · rename_i s hp
    rw [hp] at hends
    split at hrun
    · rename_i hleft
      cases hrun
      exact hends.2 f hleft
    · cases hrun
      rfl
    · cases hrun

end Grammar

/-- The rules never give up on a text: where it is refused, there is a complaint about it. -/
theorem SourceFile.complaint_of_parse_eq_error {text : String} {f : Fault Position}
    (h : SourceFile.parse text = .error f) : f.complaint.isSome := by
  unfold SourceFile.parse at h
  split at h
  · cases h
    rfl
  · rename_i ts _
    cases hrun : Grammar.run (Grammar.file (.for ts)) ts (Nat.le_refl _) .start with
    | error e =>
      rw [hrun] at h
      cases h
      exact Grammar.complaint_of_run_eq_error inferInstance hrun
    | ok content =>
      rw [hrun] at h
      cases h

theorem complaint_of_parseArguments_eq_error {ts : Verbatim} {f : Fault Unit}
    (h : parseArguments ts = .error f) : f.complaint.isSome :=
  Grammar.complaint_of_run_eq_error inferInstance h

end LeafPaths
