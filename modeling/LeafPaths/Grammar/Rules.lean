import LeafPaths.Grammar.Parser
import LeafPaths.Syntax.Shape

/-!
The rules that refer to one another.

Each family of rules is written against a `Rules` record that stands for all of them; the record is
closed at the end by counting down the depth to which rules may be applied.
-/

namespace LeafPaths.Grammar

/-- How tightly operators bind, the loosest first. -/
inductive Precedence where
  | jump
  | assign
  | range
  | or
  | and
  | letBinding
  | compare
  | bitOr
  | bitXor
  | bitAnd
  | shift
  | sum
  | product
  | cast
deriving DecidableEq, Repr

namespace Precedence

def level : Precedence → Nat
  | jump => 0
  | assign => 1
  | range => 2
  | or => 3
  | and => 4
  | letBinding => 5
  | compare => 6
  | bitOr => 7
  | bitXor => 8
  | bitAnd => 9
  | shift => 10
  | sum => 11
  | product => 12
  | cast => 13

end Precedence

/-- The mutually recursive rules. Where a rule takes a `Bool` first, it says whether a struct
literal, or for types a sum of bounds, may be read. -/
structure Rules (α : Type) (d : Nat) where
  unary : Bool → Parser α d (Syn d .expr)
  climb : Bool → Precedence → Syn d .expr → Parser α d (Syn d .expr)
  /-- Operators that bind tighter than the one before the operand. -/
  settle : Bool → Precedence → Syn d .expr → Parser α d (Syn d .expr)
  trailers : Syn d .expr → Parser α d (Syn d .expr)
  /-- An expression that ends where a block ends it. -/
  early : Parser α d (Syn d .expr)
  ifExpr : Parser α d (Syn d .expr)
  type : Bool → Parser α d (Syn d .type)
  /-- A bound; the arguments say whether `use<...>` and whether `const` may stand in it. -/
  bound : Bool → Bool → Parser α d (Syn d .bound)
  pat : Parser α d (Syn d .pat)
  stmts : Parser α d (Syn d (.list .stmt))
  item : Parser α d (Syn d .item)
  /-- Fields with names, in braces. -/
  fields : Parser α d Unit
  /-- A tree of imports; a global path may begin it if the first argument says so. -/
  useTree : Bool → Parser α d Unit

variable {α : Type} {d : Nat}

namespace Rules

variable (r : Rules α d)

def exprWhere (allowStruct : Bool) : Parser α d (Syn d .expr) := do
  r.climb allowStruct .jump (← r.unary allowStruct)

def expr : Parser α d (Syn d .expr) := r.exprWhere true

def exprBeforeBrace : Parser α d (Syn d .expr) := r.exprWhere false

end Rules

end LeafPaths.Grammar
