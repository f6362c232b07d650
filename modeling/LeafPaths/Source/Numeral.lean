import LeafPaths.Source.Lexeme

/-!
Numerals: what the text of a numeric literal says.

A numeral is an integer if it can be read as one, and otherwise a decimal fraction. A letter `e` in
a decimal numeral begins an exponent if digits follow, and a suffix if not.
-/

namespace LeafPaths.Numeral

open Lexeme

def isSuffix : List Char → Bool
  | [] => true
  | c :: rest => isIdentStart c && rest.all isIdentContinue

/-- Whether an `e` followed by this text begins an exponent. -/
def isExponent : Bool → List Char → Bool
  | hasDigit, [] => hasDigit
  | hasDigit, c :: rest =>
    if c == '_' then isExponent hasDigit rest
    else if c == '-' || c == '+' then true
    else if isDecimal c then isExponent true rest
    else hasDigit && isSuffix (c :: rest)

/-- The value of the digits and the suffix behind them, with the value read so far. -/
def intValue? (base : Nat) : Option Nat → List Char → Option (Nat × List Char)
  | value, [] => value.map fun v => (v, [])
  | value, c :: rest =>
    let finish := if isSuffix (c :: rest) then value.map fun v => (v, c :: rest) else none
    if c == '_' then intValue? base value rest
    else if base == 10 && (c == 'e' || c == 'E') then
      if isExponent false rest then none else finish
    else
      match hexValue? c with
      | some digit =>
        if isDecimal c || 10 < base then
          if digit < base then intValue? base (some (value.getD 0 * base + digit)) rest else none
        else finish
      | none => finish

def int? : List Char → Option (Nat × List Char)
  | '0' :: 'x' :: rest => intValue? 16 none rest
  | '0' :: 'o' :: rest => intValue? 8 none rest
  | '0' :: 'b' :: rest => intValue? 2 none rest
  | c :: rest => if isDecimal c then intValue? 10 none (c :: rest) else none
  | [] => none

structure Seen where
  dot : Bool
  e : Bool
  sign : Bool
  exponent : Bool

def isFraction : Seen → List Char → Bool
  | s, [] => !s.e || s.exponent
  | s, c :: rest =>
    let finish := (!s.e || s.exponent) && isSuffix (c :: rest)
    if c == '_' then isFraction s rest
    else if isDecimal c then isFraction { s with exponent := s.exponent || s.e } rest
    else if c == '.' then !s.e && !s.dot && isFraction { s with dot := true } rest
    else if c == 'e' || c == 'E' then
      match rest.dropWhile (· == '_') with
      | d :: _ =>
        if d == '-' || d == '+' || isDecimal d then
          if s.e then s.exponent && finish else isFraction { s with e := true } rest
        else finish
      | [] => finish
    else if c == '-' || c == '+' then
      s.e && !s.sign && !s.exponent && isFraction { s with sign := true } rest
    else finish

/-- Whether a text is a decimal fraction and not an integer. -/
def isFloat (s : List Char) : Bool :=
  (s.head?.map isDecimal).getD false && (int? s).isNone && isFraction ⟨false, false, false, false⟩ s

def isNumber (s : List Char) : Bool := (int? s).isSome || isFloat s

end LeafPaths.Numeral
