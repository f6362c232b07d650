import LeafPaths.Source.IdentifierTable

/-!
Lexemes: the classes of characters, and for each lexical form a scanner that takes it off the front
of a text.

A scanner gives what follows the form, or nothing if the text does not begin with one. The forms of
literals are tried in a fixed order; any identifier directly behind a literal belongs to it as a
suffix.
-/

namespace LeafPaths.Lexeme

/-! ### Classes of characters -/

def inRanges (c : Char) (ranges : List (Nat × Nat)) : Bool :=
  ranges.any fun r => r.1 ≤ c.toNat && c.toNat ≤ r.2

def isIdentStart (c : Char) : Bool :=
  if c.toNat < 128 then c.isAlpha || c == '_' else inRanges c IdentifierTable.start

def isIdentContinue (c : Char) : Bool :=
  if c.toNat < 128 then c.isAlphanum || c == '_'
  else inRanges c IdentifierTable.start || inRanges c IdentifierTable.extend

/-- White space: the Unicode property, and the marks for writing direction. -/
def isBlank (c : Char) : Bool :=
  let n := c.toNat
  n == 0x20 || (0x09 ≤ n && n ≤ 0x0D) || n == 0x85 || n == 0xA0 || n == 0x1680 ||
    (0x2000 ≤ n && n ≤ 0x200A) || n == 0x200E || n == 0x200F || n == 0x2028 || n == 0x2029 ||
    n == 0x202F || n == 0x205F || n == 0x3000

def isPunct (c : Char) : Bool := "~!@#$%^&*-=+|;:,<.>/?'".toList.contains c

def isDecimal (c : Char) : Bool := '0' ≤ c && c ≤ '9'

def hexValue? (c : Char) : Option Nat :=
  if '0' ≤ c && c ≤ '9' then some (c.toNat - 48)
  else if 'a' ≤ c && c ≤ 'f' then some (c.toNat - 87)
  else if 'A' ≤ c && c ≤ 'F' then some (c.toNat - 55)
  else none

def isAscii (c : Char) : Bool := c.toNat < 128

/-! ### Beginnings -/

def startsWith (s : List Char) (text : String) : Bool := text.toList.isPrefixOf s

def after? (text : String) (s : List Char) : Option (List Char) :=
  if startsWith s text then some (s.drop text.length) else none

def taken (s rest : List Char) : List Char := s.take (s.length - rest.length)

/-! ### Comments and blanks -/

/-- The rest of a line; it ends before a line feed, or between a carriage return and a line
feed. -/
def line : List Char → List Char × List Char
  | [] => ([], [])
  | '\n' :: rest => ([], '\n' :: rest)
  | '\r' :: '\n' :: rest => ([], '\n' :: rest)
  | c :: rest =>
    let (text, rest) := line rest
    (c :: text, rest)

/-- What follows the end of a block comment in which `depth` comments are open. -/
def blockCommentEnd? : Nat → List Char → Option (List Char)
  | depth, '/' :: '*' :: rest => blockCommentEnd? (depth + 1) rest
  | depth, '*' :: '/' :: rest =>
    match depth with
    | 0 | 1 => some rest
    | depth + 2 => blockCommentEnd? (depth + 1) rest
  | depth, _ :: rest => blockCommentEnd? depth rest
  | _, [] => none

def blockComment? (s : List Char) : Option (List Char) :=
  (after? "/*" s).bind (blockCommentEnd? 1)

def isLineComment (s : List Char) : Bool :=
  startsWith s "//" && (!startsWith s "///" || startsWith s "////") && !startsWith s "//!"

def isBlockComment (s : List Char) : Bool :=
  startsWith s "/*" && (!startsWith s "/**" || startsWith s "/***") && !startsWith s "/*!"

/-- What follows blanks and comments, except comments that document something. A comment that does
not end is left standing. Each round drops at least one character, so that `fuel` need not exceed
the length of the text. -/
def skipBlanks : Nat → List Char → List Char
  | 0, s => s
  | fuel + 1, s =>
    match s with
    | [] => []
    | c :: rest =>
      if isBlank c then skipBlanks fuel rest
      else if c != '/' then s
      else if isLineComment s then skipBlanks fuel (line s).2
      else if startsWith s "/**/" then skipBlanks fuel (s.drop 4)
      else if isBlockComment s then
        match blockComment? s with
        | some rest => skipBlanks fuel rest
        | none => s
      else s

def noBareReturn : List Char → Bool
  | [] => true
  | ['\r'] => false
  | '\r' :: c :: rest => c == '\n' && noBareReturn (c :: rest)
  | _ :: rest => noBareReturn rest

/-- A comment that documents something: whether it documents what is around it, its text, and what
follows. -/
def docComment? (s : List Char) : Option (Bool × List Char × List Char) :=
  let block (isInner : Bool) :=
    (blockComment? s).map fun rest =>
      (isInner, ((taken s rest).drop 3).dropLast.dropLast, rest)
  let found :=
    if startsWith s "//!" then
      let (text, rest) := line (s.drop 3)
      some (true, text, rest)
    else if startsWith s "/*!" then block true
    else if startsWith s "///" then
      if startsWith s "////" then none
      else
        let (text, rest) := line (s.drop 3)
        some (false, text, rest)
    else if startsWith s "/**" && !startsWith s "/***" then block false
    else none
  found.filter fun (_, text, _) => noBareReturn text

/-! ### Identifiers -/

def word? : List Char → Option (List Char × List Char)
  | c :: rest =>
    if isIdentStart c then
      some (c :: rest.takeWhile isIdentContinue, rest.dropWhile isIdentContinue)
    else none
  | [] => none

def neverRaw : List String := ["_", "super", "self", "Self", "crate"]

def anyIdent? (s : List Char) : Option (List Char × List Char) :=
  match after? "r#" s with
  | some s =>
    (word? s).bind fun (w, rest) =>
      if neverRaw.contains (String.ofList w) then none else some ('r' :: '#' :: w, rest)
  | none => word? s

/-- Beginnings of literals, which no identifier has. -/
def literalStarts : List String :=
  ["r\"", "r#\"", "r##", "b\"", "b'", "br\"", "br#", "c\"", "cr\"", "cr#"]

def ident? (s : List Char) : Option (List Char × List Char) :=
  if literalStarts.any (startsWith s) then none else anyIdent? s

def skipSuffix (s : List Char) : List Char :=
  match word? s with
  | some (_, rest) => rest
  | none => s

/-! ### Escapes -/

inductive Encoding where
  | text
  | bytes
  | terminated
deriving DecidableEq

def Encoding.allows : Encoding → Char → Bool
  | text, _ => true
  | bytes, c => isAscii c
  | terminated, c => c.toNat != 0

/-- The two digits of `\x`: in text at most `7F`, in a terminated string not zero. -/
def hexEscape? (e : Encoding) : List Char → Option (List Char)
  | a :: b :: rest =>
    match hexValue? a, hexValue? b with
    | some m, some n =>
      let isGood := match e with
        | .text => decide (m < 8)
        | .bytes => true
        | .terminated => !(m == 0 && n == 0)
      if isGood then some rest else none
    | _, _ => none
  | _ => none

def isScalar (n : Nat) : Bool := n < 0xD800 || (0xDFFF < n && n < 0x110000)

/-- The digits of `\u` up to the closing brace: one to six, with underscores after the first. -/
def unicodeDigits? (count value : Nat) : List Char → Option (Nat × List Char)
  | [] => none
  | c :: rest =>
    if c == '_' && 0 < count then unicodeDigits? count value rest
    else if c == '\x7d' && 0 < count then
      if isScalar value then some (value, rest) else none
    else
      match hexValue? c with
      | some d => if count == 6 then none else unicodeDigits? (count + 1) (value * 16 + d) rest
      | none => none

def unicodeEscape? (e : Encoding) : List Char → Option (List Char)
  | '\x7b' :: rest =>
    match unicodeDigits? 0 0 rest with
    | some (value, rest) => if e == .terminated && value == 0 then none else some rest
    | none => none
  | _ => none

def escape? (e : Encoding) : List Char → Option (List Char)
  | 'x' :: rest => hexEscape? e rest
  | 'u' :: rest => if e == .bytes then none else unicodeEscape? e rest
  | '0' :: rest => if e == .terminated then none else some rest
  | c :: rest => if "nrt\\'\"".toList.contains c then some rest else none
  | [] => none

/-- The blanks that a backslash at the end of a line swallows, where `last` was the one before.
The text must go on behind them. -/
def continuation? (last : Char) (s : List Char) : Option (List Char) :=
  match last, s with
  | '\r', '\n' :: c :: rest | '\n', c :: rest | ' ', c :: rest | '\t', c :: rest =>
    if c == ' ' || c == '\t' || c == '\n' || c == '\r' then continuation? c rest
    else some (c :: rest)
  | _, _ => none
termination_by s.length

/-! ### Strings -/

/-- What follows a string literal whose opening quote has been read. Each round drops at least one
character, so that `fuel` need not exceed the length of the text. -/
def stringEnd? (e : Encoding) : Nat → List Char → Option (List Char)
  | 0, _ => none
  | fuel + 1, s =>
    match s with
    | '"' :: rest => some (skipSuffix rest)
    | '\r' :: '\n' :: rest => stringEnd? e fuel rest
    | '\r' :: _ => none
    | '\\' :: '\n' :: rest => (continuation? '\n' rest).bind (stringEnd? e fuel)
    | '\\' :: '\r' :: rest => (continuation? '\r' rest).bind (stringEnd? e fuel)
    | '\\' :: rest => (escape? e rest).bind (stringEnd? e fuel)
    | c :: rest => if e.allows c then stringEnd? e fuel rest else none
    | [] => none

def rawStringEnd? (e : Encoding) (hashes : List Char) : List Char → Option (List Char)
  | '\r' :: '\n' :: rest => rawStringEnd? e hashes rest
  | '\r' :: _ => none
  | '"' :: rest =>
    if hashes.isPrefixOf rest then some (skipSuffix (rest.drop hashes.length))
    else rawStringEnd? e hashes rest
  | c :: rest => if e.allows c then rawStringEnd? e hashes rest else none
  | [] => none

/-- What follows a raw string literal whose letters have been read. At most 255 hashes are
allowed. -/
def rawString? (e : Encoding) (s : List Char) : Option (List Char) :=
  let hashes := s.takeWhile (· == '#')
  match s.dropWhile (· == '#') with
  | '"' :: rest => if hashes.length ≤ 255 then rawStringEnd? e hashes rest else none
  | _ => none

def string? : List Char → Option (List Char)
  | '"' :: s => stringEnd? .text (s.length + 1) s
  | 'r' :: s => rawString? .text s
  | 'b' :: '"' :: s => stringEnd? .bytes (s.length + 1) s
  | 'b' :: 'r' :: s => rawString? .bytes s
  | 'c' :: '"' :: s => stringEnd? .terminated (s.length + 1) s
  | 'c' :: 'r' :: s => rawString? .terminated s
  | _ => none

def closeQuote? : List Char → Option (List Char)
  | '\'' :: rest => some (skipSuffix rest)
  | _ => none

/-- A character or byte literal: one character or escape between quotes, and the character may be
a quote itself. -/
def character? : List Char → Option (List Char)
  | 'b' :: '\'' :: '\\' :: s => (escape? .bytes s).bind closeQuote?
  | 'b' :: '\'' :: c :: s => if isAscii c then closeQuote? s else none
  | '\'' :: '\\' :: s => (escape? .text s).bind closeQuote?
  | '\'' :: _ :: s => closeQuote? s
  | _ => none

/-! ### Numbers -/

def wordBreak? : List Char → Option (List Char)
  | c :: rest => if isIdentContinue c then none else some (c :: rest)
  | [] => some []

def numberEnd? (s : List Char) : Option (List Char) := wordBreak? (skipSuffix s)

def isDigitOrGap (c : Char) : Bool := isDecimal c || c == '_'

/-- An exponent behind its letter. It has a digit, and its sign comes before any digit. -/
def exponent? (s : List Char) : Option (List Char) :=
  let s := s.dropWhile (· == '_')
  match s with
  | c :: rest =>
    if c == '+' || c == '-' then
      let rest := rest.dropWhile (· == '_')
      if (rest.head?.map isDecimal).getD false then some (rest.dropWhile isDigitOrGap) else none
    else if isDecimal c then some (s.dropWhile isDigitOrGap)
    else none
  | [] => none

/-- The digits of a number with a fraction or an exponent. A dot does not belong to the number if
another dot or an identifier follows; an exponent without digits does not either, and then there
must be a fraction. -/
def floatDigits? : List Char → Option (List Char)
  | c :: rest =>
    if !isDecimal c then none
    else
      let afterExponent (otherwise : Option (List Char)) (s : List Char) :=
        match exponent? s with
        | some rest => some rest
        | none => otherwise
      match rest.dropWhile isDigitOrGap with
      | '.' :: s =>
        if (s.head?.map fun c => c == '.' || isIdentStart c).getD false then none
        else
          let s := s.dropWhile isDigitOrGap
          match s with
          | 'e' :: t | 'E' :: t => afterExponent (some s) t
          | _ => some s
      | 'e' :: s | 'E' :: s => afterExponent none s
      | _ => none
  | [] => none

def float? (s : List Char) : Option (List Char) := (floatDigits? s).bind numberEnd?

/-- The digits of an integer in a base. A decimal digit outside the base is an error, a letter ends
the digits. -/
def intDigits? (base : Nat) (isEmpty : Bool) : List Char → Option (List Char)
  | c :: rest =>
    if c == '_' then
      if isEmpty && base == 10 then none else intDigits? base isEmpty rest
    else
      match hexValue? c with
      | some d =>
        if d < base then intDigits? base false rest
        else if isDecimal c || isEmpty then none
        else some (c :: rest)
      | none => if isEmpty then none else some (c :: rest)
  | [] => if isEmpty then none else some []

def int? (s : List Char) : Option (List Char) :=
  let digits :=
    match s with
    | '0' :: 'x' :: rest => intDigits? 16 true rest
    | '0' :: 'o' :: rest => intDigits? 8 true rest
    | '0' :: 'b' :: rest => intDigits? 2 true rest
    | _ => intDigits? 10 true s
  digits.bind numberEnd?

def literal? (s : List Char) : Option (List Char) :=
  string? s <|> character? s <|> float? s <|> int? s

def brokenLiteral : String := "(/*ERROR*/)"

/-! ### Punctuation -/

def punctChar? : List Char → Option (Char × List Char)
  | '/' :: '/' :: _ | '/' :: '*' :: _ => none
  | c :: rest => if isPunct c then some (c, rest) else none
  | [] => none

/-- What follows the apostrophe of a lifetime. No quote follows the name, and no hash unless the
name is raw. -/
def lifetimeQuote? : List Char → Option (List Char)
  | '\'' :: rest =>
    match anyIdent? rest with
    | some (_, '\'' :: _) => none
    | some (_, '#' :: _) => if startsWith rest "r#" then some rest else none
    | some _ => some rest
    | none => none
  | _ => none

end LeafPaths.Lexeme
