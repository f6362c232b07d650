import LeafPaths.Source.Position
import LeafPaths.Source.Token

/-!
Faults: why and where a token stream is not a source file.
-/

namespace LeafPaths

inductive Terminal where
  | word (text : String)
  | op (text : String)
  | name
  | lifetime
  | literal
  | stringLiteral
  | group (delimiter : Delimiter)
deriving DecidableEq, Repr

def Terminal.describe : Terminal → String
  | word text | op text => "`" ++ text ++ "`"
  | name => "identifier"
  | lifetime => "lifetime"
  | literal => "literal"
  | stringLiteral => "string literal"
  | group d => d.describe

inductive CastFollower where
  | await
  | methodCall
  | fieldAccess
  | question
  | indexing
  | call
deriving DecidableEq, Repr

def CastFollower.describe : CastFollower → String
  | await => "`.await`"
  | methodCall => "a method call"
  | fieldAccess => "a field access"
  | question => "`?`"
  | indexing => "indexing"
  | call => "a function call"

inductive Complaint where
  | lexical
  /-- None of the terminals that could stand here does. -/
  | expected (alternatives : List Terminal)
  | keyword (word : String)
  | noExpression
  | noMember
  | noWord
  | noInteger
  | noDelimiter
  | noLoopOrBlock
  | noUpperBound
  | noSegment
  | noRename
  /-- Tokens are left at the end of a group, or of the text. -/
  | leftover (enclosing : Option Delimiter)
  | missingSemicolon
  | suffixedIndex
  | negativeIndex
  | largeIndex
  | chainedComparison
  | castFollowedBy (follower : CastFollower)
  | attributeOnRange
  | attributeInAttribute
  | labelNeedsParentheses
  | rangeInSlice
  | whereGenerics
  | objectWithoutTrait
  | implWithoutTrait
  | captureNotAllowed
  | constNotAllowed
  | maybeConstNotAllowed
  | binderNotAllowed
  | negativeInherentImpl
  | receiverNotFirst
  | secondReceiver
deriving DecidableEq, Repr

namespace Complaint

def listAlternatives : List Terminal → Option String
  | [] => none
  | [a] => some ("expected " ++ a.describe)
  | [a, b] => some ("expected " ++ a.describe ++ " or " ++ b.describe)
  | as => some ("expected one of: " ++ ", ".intercalate (as.map Terminal.describe))

/-- The wording of a complaint; at the end of the input there may be none beyond saying so. -/
def describe : Complaint → Option String
  | lexical => some "cannot parse string into token stream"
  | expected as => listAlternatives as
  | keyword w => some ("expected identifier, found keyword `" ++ w ++ "`")
  | noExpression => some "expected an expression"
  | noMember => some "expected identifier or integer"
  | noWord => some "expected ident"
  | noInteger => some "expected integer literal"
  | noDelimiter => some "expected delimiter"
  | noLoopOrBlock => some "expected loop or block expression"
  | noUpperBound => some "expected range upper bound"
  | noSegment => some "expected path segment after `::`"
  | noRename => some "expected identifier or underscore"
  | leftover none => some "unexpected token"
  | leftover (some d) => some ("unexpected token, expected `" ++ d.closing.toString ++ "`")
  | missingSemicolon => some "unexpected token, expected `;`"
  | suffixedIndex => some "expected unsuffixed integer"
  | negativeIndex => some "invalid digit found in string"
  | largeIndex => some "number too large to fit in target type"
  | chainedComparison => some "comparison operators cannot be chained"
  | castFollowedBy f => some ("casts cannot be followed by " ++ f.describe)
  | attributeOnRange =>
    some "attributes are not allowed on range expressions starting with `..`"
  | attributeInAttribute => some "unexpected attribute inside of attribute"
  | labelNeedsParentheses => some "parentheses required"
  | rangeInSlice => some "range pattern is not allowed unparenthesized inside slice pattern"
  | whereGenerics =>
    some "generic parameters on `where` clauses are reserved for future use"
  | objectWithoutTrait => some "at least one trait is required for an object type"
  | implWithoutTrait => some "at least one trait must be specified"
  | captureNotAllowed => some "`use<...>` precise capturing syntax is not allowed here"
  | constNotAllowed => some "`const` is not allowed here"
  | maybeConstNotAllowed => some "`[const]` is not allowed here"
  | binderNotAllowed => some "`for<...>` binder not allowed with `?` trait polarity modifier"
  | negativeInherentImpl => some "inherent impls cannot be negative"
  | receiverNotFirst => some "unexpected method receiver"
  | secondReceiver => some "unexpected second method receiver"

end Complaint

structure Fault (α : Type) where
  mark : α
  /-- Whether the input ended where something was expected. -/
  isAtEnd : Bool
  /-- What is wrong, unless the rules gave up before they knew. -/
  complaint : Option Complaint
deriving Repr

namespace Fault

variable {α : Type}

def message (f : Fault α) : String :=
  match f.isAtEnd, f.complaint.bind Complaint.describe with
  | false, some text => text
  | false, none => "unexpected token"
  | true, some text => "unexpected end of input, " ++ text
  | true, none => "unexpected end of input"

end Fault

end LeafPaths
