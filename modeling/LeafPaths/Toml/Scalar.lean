/-!
The spelling of numbers and dates in configuration files.

The values are of no use to the reader of a manifest, so these are only recognized.
-/

namespace LeafPaths.Toml.Scalar

/-- Digits with single underscores between them. -/
def isDigits (isDigit : Char → Bool) : List Char → Bool
  | [] => false
  | [c] => isDigit c
  | c :: '_' :: cs => isDigit c && isDigits isDigit cs
  | c :: cs => isDigit c && isDigits isDigit cs

def isHexDigit (c : Char) : Bool :=
  c.isDigit || 'a' ≤ c && c ≤ 'f' || 'A' ≤ c && c ≤ 'F'

/-- A whole number without sign in decimal digits: no zero stands in front. -/
def isDecimal (cs : List Char) : Bool :=
  isDigits Char.isDigit cs && (cs == ['0'] || cs.head? != some '0')

def afterSign : List Char → List Char
  | '+' :: cs => cs
  | '-' :: cs => cs
  | cs => cs

def isInteger : List Char → Bool
  | '0' :: 'x' :: cs => isDigits isHexDigit cs
  | '0' :: 'o' :: cs => isDigits (fun c => '0' ≤ c && c ≤ '7') cs
  | '0' :: 'b' :: cs => isDigits (fun c => c == '0' || c == '1') cs
  | cs => isDecimal (afterSign cs)

def isExponent : List Char → Bool
  | 'e' :: cs => isDigits Char.isDigit (afterSign cs)
  | 'E' :: cs => isDigits Char.isDigit (afterSign cs)
  | _ => false

def isDigitOrGap (c : Char) : Bool := c.isDigit || c == '_'

def isFloat (cs : List Char) : Bool :=
  let cs := afterSign cs
  let whole := cs.takeWhile isDigitOrGap
  cs == "inf".toList || cs == "nan".toList ||
    isDecimal whole &&
      match cs.drop whole.length with
      | '.' :: rest =>
        let fraction := rest.takeWhile isDigitOrGap
        isDigits Char.isDigit fraction &&
          (fraction.length == rest.length || isExponent (rest.drop fraction.length))
      | rest => isExponent rest

/-! ### Dates -/

def field (digits low high : Nat) (cs : List Char) : Option (Nat × List Char) :=
  let ds := cs.take digits
  let n := ds.foldl (fun n c => 10 * n + (c.toNat - '0'.toNat)) 0
  if ds.length = digits ∧ ds.all Char.isDigit ∧ low ≤ n ∧ n ≤ high then
    some (n, cs.drop digits)
  else none

def after? (c : Char) : List Char → Option (List Char)
  | d :: cs => if c = d then some cs else none
  | [] => none

def isLeapYear (year : Nat) : Bool :=
  year % 4 == 0 && (year % 100 != 0 || year % 400 == 0)

def daysIn (year month : Nat) : Nat :=
  if month = 2 then (if isLeapYear year then 29 else 28)
  else if month = 4 ∨ month = 6 ∨ month = 9 ∨ month = 11 then 30
  else 31

def afterDay? (cs : List Char) : Option (List Char) := do
  let (year, cs) ← field 4 0 9999 cs
  let (month, cs) ← field 2 1 12 (← after? '-' cs)
  let (_, cs) ← field 2 1 (daysIn year month) (← after? '-' cs)
  return cs

/-- What follows a time of day. The seconds may be missing; they may have a fraction. -/
def afterTime? (cs : List Char) : Option (List Char) := do
  let (_, cs) ← field 2 0 23 cs
  let (_, cs) ← field 2 0 59 (← after? ':' cs)
  match cs with
  | ':' :: cs =>
    let (_, cs) ← field 2 0 60 cs
    match cs with
    | '.' :: cs =>
      let fraction := cs.takeWhile Char.isDigit
      if fraction.isEmpty then none else return cs.drop fraction.length
    | cs => return cs
  | cs => return cs

def isOffset (cs : List Char) : Bool :=
  let isShift (cs : List Char) : Bool :=
    match (do
      let (_, cs) ← field 2 0 23 cs
      let (_, cs) ← field 2 0 59 (← after? ':' cs)
      return cs) with
    | some cs => cs.isEmpty
    | none => false
  match cs with
  | [] => true
  | ['Z'] | ['z'] => true
  | '+' :: cs => isShift cs
  | '-' :: cs => isShift cs
  | _ => false

def isDate (cs : List Char) : Bool :=
  match afterDay? cs with
  | some [] => true
  | some (c :: rest) =>
    (c == 'T' || c == 't' || c == ' ') &&
      match afterTime? rest with
      | some rest => isOffset rest
      | none => false
  | none => (afterTime? cs).any List.isEmpty

def isNumber (cs : List Char) : Bool := isInteger cs || isFloat cs || isDate cs

end LeafPaths.Toml.Scalar
