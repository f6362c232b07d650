/-!
Token trees: the tokens of a source text, grouped by balanced delimiters.

Tokens carry marks of a type `α`: positions while a text is read, nothing at all once they are kept
as the unread content of an attribute or a macro. The nesting depth of delimiters bounds how deep
macros can be nested in one another.
-/

namespace LeafPaths

inductive Delimiter where
  | parenthesis
  | brace
  | bracket
deriving DecidableEq, Repr, Inhabited

namespace Delimiter

def opening : Delimiter → Char
  | parenthesis => '('
  | brace => '\x7b'
  | bracket => '['

def closing : Delimiter → Char
  | parenthesis => ')'
  | brace => '\x7d'
  | bracket => ']'

def describe : Delimiter → String
  | parenthesis => "parentheses"
  | brace => "curly braces"
  | bracket => "square brackets"

end Delimiter

inductive Token (α : Type) where
  /-- An identifier or a keyword, a raw one with its `r#`. -/
  | ident (mark : α) (text : String)
  | lifetime (mark : α) (text : String)
  /-- One punctuation character; `joint` if another one follows without a gap. -/
  | punct (mark : α) (char : Char) (joint : Bool)
  | literal (mark : α) (text : String)
  | group (opening : α) (delimiter : Delimiter) (body : List (Token α)) (closing : α)
deriving Repr, Inhabited

namespace Token

variable {α : Type}

def mark : Token α → α
  | ident m _ | lifetime m _ | punct m _ _ | literal m _ | group m _ _ _ => m

mutual

def depth : Token α → Nat
  | group _ _ body _ => depthAll body + 1
  | _ => 0

def depthAll : List (Token α) → Nat
  | [] => 0
  | t :: ts => max (depth t) (depthAll ts)

end

mutual

/-- The number of tokens, where a group counts for two beside its content. -/
def size : Token α → Nat
  | group _ _ body _ => sizeAll body + 2
  | _ => 1

def sizeAll : List (Token α) → Nat
  | [] => 0
  | t :: ts => size t + sizeAll ts

end

mutual

def forget : Token α → Token Unit
  | ident _ text => ident () text
  | lifetime _ text => lifetime () text
  | punct _ c joint => punct () c joint
  | literal _ text => literal () text
  | group _ d body _ => group () d (forgetAll body) ()

def forgetAll : List (Token α) → List (Token Unit)
  | [] => []
  | t :: ts => forget t :: forgetAll ts

end

mutual

theorem depth_forget (t : Token α) : depth (forget t) = depth t := by
  cases t with
  | group _ _ body _ => simp [forget, depth, depthAll_forgetAll body]
  | _ => simp [forget, depth]

theorem depthAll_forgetAll (ts : List (Token α)) : depthAll (forgetAll ts) = depthAll ts := by
  cases ts with
  | nil => simp [forgetAll, depthAll]
  | cons t ts => simp [forgetAll, depthAll, depth_forget t, depthAll_forgetAll ts]

end

theorem depthAll_drop_le (ts : List (Token α)) (n : Nat) : depthAll (ts.drop n) ≤ depthAll ts := by
  induction n generalizing ts with
  | zero => simp
  | succ n ih =>
    cases ts with
    | nil => simp
    | cons t ts =>
      have h := ih ts
      simp only [List.drop_succ_cons, depthAll]
      omega

end Token

/-- Tokens that are kept as they are, without being read any further. -/
abbrev Verbatim := List (Token Unit)

end LeafPaths
