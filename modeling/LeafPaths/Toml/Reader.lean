import LeafPaths.Source.Lexeme
import LeafPaths.Toml
import LeafPaths.Toml.Scalar

/-!
The reader of configuration files.

Lines are read one after another: the header of a table, or a key with its value. Lists and tables
in braces may extend over several lines.
-/

namespace LeafPaths

namespace Toml

namespace Reader

def isBlank (c : Char) : Bool := c == ' ' || c == '\t'

def isControl (c : Char) : Bool := (c.toNat < 32 && c != '\t') || c.toNat == 127

def isBareKey (c : Char) : Bool := c.isAlphanum || c == '_' || c == '-'

def blanks (cs : List Char) : List Char := cs.dropWhile isBlank

def lineBreak? : List Char → Option (List Char)
  | '\n' :: cs => some cs
  | '\r' :: '\n' :: cs => some cs
  | _ => none

def comment : List Char → List Char
  | '#' :: cs => cs.dropWhile fun c => !isControl c
  | cs => cs

/-- Passes the rest of a line, in which nothing but blanks and a comment may stand. -/
def lineEnd (cs : List Char) : Option (List Char) :=
  match comment (blanks cs) with
  | [] => some []
  | rest => lineBreak? rest

def gap : Nat → List Char → List Char
  | 0, cs => cs
  | n + 1, cs =>
    let rest := comment (blanks cs)
    match lineBreak? rest with
    | some rest => gap n rest
    | none => rest

def blankLines : Nat → List Char → List Char
  | 0, cs => cs
  | n + 1, cs =>
    let rest := blanks cs
    match lineBreak? rest with
    | some rest => blankLines n rest
    | none => rest

/-! ### Texts -/

def codePoint? (digits : Nat) (cs : List Char) : Option (Char × List Char) := do
  let code ← (cs.take digits).foldlM (fun n c => (Lexeme.hexValue? c).map (16 * n + ·)) 0
  if (cs.take digits).length = digits ∧ code.isValidChar then
    some (Char.ofNat code, cs.drop digits)
  else none

def escape? : List Char → Option (Char × List Char)
  | 'b' :: cs => some (Char.ofNat 8, cs)
  | 't' :: cs => some ('\t', cs)
  | 'n' :: cs => some ('\n', cs)
  | 'f' :: cs => some (Char.ofNat 12, cs)
  | 'r' :: cs => some ('\r', cs)
  | 'e' :: cs => some (Char.ofNat 27, cs)
  | '"' :: cs => some ('"', cs)
  | '\\' :: cs => some ('\\', cs)
  | 'x' :: cs => codePoint? 2 cs
  | 'u' :: cs => codePoint? 4 cs
  | 'U' :: cs => codePoint? 8 cs
  | _ => none

def basic : Nat → List Char → List Char → Option (String × List Char)
  | _, acc, '"' :: cs => some (String.ofList acc.reverse, cs)
  | n + 1, acc, '\\' :: cs => do
    let (c, rest) ← escape? cs
    basic n (c :: acc) rest
  | n + 1, acc, c :: cs => if isControl c then none else basic n (c :: acc) cs
  | _, _, _ => none

def verbatim (cs : List Char) : Option (String × List Char) :=
  let body := cs.takeWhile fun c => c != '\'' && !isControl c
  match cs.drop body.length with
  | '\'' :: rest => some (String.ofList body, rest)
  | _ => none

/-- The quotes that close a text of several lines: up to two more belong to the text. -/
def closing (quote : Char) (cs : List Char) : Option (List Char × List Char) :=
  let quotes := (cs.take 5).takeWhile (· == quote)
  if 3 ≤ quotes.length then some (quotes.drop 3, cs.drop quotes.length) else none

/-- A text in three double quotes: a backslash at the end of a line joins what follows. -/
def basicLines : Nat → List Char → List Char → Option (String × List Char)
  | 0, _, _ => none
  | n + 1, acc, cs =>
    match closing '"' cs, cs with
    | some (quotes, rest), _ => some (String.ofList (acc.reverse ++ quotes), rest)
    | none, '\\' :: rest =>
      match escape? rest with
      | some (c, rest) => basicLines n (c :: acc) rest
      | none =>
        match lineBreak? (blanks rest) with
        | some rest => basicLines n acc (blankLines rest.length rest)
        | none => none
    | none, c :: rest =>
      match lineBreak? (c :: rest) with
      | some rest => basicLines n ('\n' :: acc) rest
      | none => if isControl c then none else basicLines n (c :: acc) rest
    | none, [] => none

def verbatimLines : Nat → List Char → List Char → Option (String × List Char)
  | 0, _, _ => none
  | n + 1, acc, cs =>
    match closing '\'' cs, cs with
    | some (quotes, rest), _ => some (String.ofList (acc.reverse ++ quotes), rest)
    | none, c :: rest =>
      match lineBreak? (c :: rest) with
      | some rest => verbatimLines n ('\n' :: acc) rest
      | none => if isControl c then none else verbatimLines n (c :: acc) rest
    | none, [] => none

/-- A line end directly behind the opening quotes is not part of the text. -/
def firstLineEnd (cs : List Char) : List Char := (lineBreak? cs).getD cs

/-! ### Keys and values -/

def word (cs : List Char) : Option (String × List Char) :=
  match cs with
  | '"' :: cs => basic cs.length [] cs
  | '\'' :: cs => verbatim cs
  | cs =>
    let body := cs.takeWhile isBareKey
    if body.isEmpty then none else some (String.ofList body, cs.drop body.length)

/-- A key of parts with dots between them: the parts in front, the last part, and what follows. -/
def key : Nat → List Char → Option ((List String × String) × List Char)
  | 0, _ => none
  | n + 1, cs => do
    let (k, rest) ← word cs
    match blanks rest with
    | '.' :: rest =>
      let ((front, last), rest) ← key n (blanks rest)
      some ((k :: front, last), rest)
    | rest => some (([], k), rest)

def isScalar (c : Char) : Bool := isBareKey c || c == '+' || c == '.' || c == ':'

/-- The characters of a flag, a number or a date. A blank may stand between a day and a time. -/
def scalarText (cs : List Char) : List Char :=
  let body := cs.takeWhile isScalar
  match Scalar.afterDay? body, cs.drop body.length with
  | some [], ' ' :: c :: rest =>
    if c.isDigit then body ++ ' ' :: (c :: rest).takeWhile isScalar else body
  | _, _ => body

def scalar (cs : List Char) : Option (Toml × List Char) :=
  let body := scalarText cs
  let rest := cs.drop body.length
  if body == "true".toList then some (.flag true, rest)
  else if body == "false".toList then some (.flag false, rest)
  else if Scalar.isNumber body then some (.number (String.ofList body), rest)
  else none

mutual

def value : Nat → List Char → Option (Toml × List Char)
  | 0, _ => none
  | n + 1, cs =>
    match cs with
    | '"' :: '"' :: '"' :: cs =>
      (basicLines (cs.length + 1) [] (firstLineEnd cs)).map fun (s, rest) => (.text s, rest)
    | '"' :: cs => (basic cs.length [] cs).map fun (s, rest) => (.text s, rest)
    | '\'' :: '\'' :: '\'' :: cs =>
      (verbatimLines (cs.length + 1) [] (firstLineEnd cs)).map fun (s, rest) => (.text s, rest)
    | '\'' :: cs => (verbatim cs).map fun (s, rest) => (.text s, rest)
    | '[' :: cs => (items n (gap cs.length cs)).map fun (vs, rest) => (.list vs, rest)
    | '\x7b' :: cs =>
      (pairs n (gap cs.length cs) []).map fun (fields, rest) => (.table .braces fields, rest)
    | cs => scalar cs

/-- The rest of a list; a comma may stand behind its last element. -/
def items : Nat → List Char → Option (List Toml × List Char)
  | 0, _ => none
  | n + 1, cs =>
    match cs with
    | ']' :: rest => some ([], rest)
    | cs =>
      match value n cs with
      | none => none
      | some (v, rest) =>
        match gap rest.length rest with
        | ',' :: rest => (items n (gap rest.length rest)).map fun (vs, rest) => (v :: vs, rest)
        | ']' :: rest => some ([v], rest)
        | _ => none

/-- The rest of a table in braces; a comma may stand behind its last value. -/
def pairs : Nat → List Char → Fields → Option (Fields × List Char)
  | 0, _, _ => none
  | n + 1, cs, fields =>
    match cs with
    | '\x7d' :: rest => some (fields, rest)
    | cs =>
      match key cs.length cs with
      | some ((path, k), '=' :: rest) =>
        match value n (blanks rest) with
        | none => none
        | some (v, rest) =>
          match fields.addValue path k v with
          | none => none
          | some fields =>
            match gap rest.length rest with
            | ',' :: rest => pairs n (gap rest.length rest) fields
            | '\x7d' :: rest => some (fields, rest)
            | _ => none
      | _ => none

end

/-! ### Documents -/

structure State where
  fields : Fields
  here : List String

def line (s : State) (cs : List Char) : Option (State × List Char) :=
  match cs with
  | '[' :: '[' :: cs => do
    match ← key cs.length (blanks cs) with
    | ((path, k), ']' :: ']' :: rest) =>
      return (⟨← s.fields.openNext path k, path ++ [k]⟩, ← lineEnd rest)
    | _ => none
  | '[' :: cs => do
    match ← key cs.length (blanks cs) with
    | ((path, k), ']' :: rest) =>
      return (⟨← s.fields.openTable path k, path ++ [k]⟩, ← lineEnd rest)
    | _ => none
  | cs => do
    match ← key cs.length cs with
    | ((path, k), '=' :: rest) =>
      let (v, rest) ← value (rest.length + 1) (blanks rest)
      let fields ← s.fields.alter false (fun _ inner => inner.addValue path k v) .header s.here
      return (⟨fields, s.here⟩, ← lineEnd rest)
    | _ => none

def lines : Nat → State → List Char → Option Fields
  | 0, _, _ => none
  | n + 1, s, cs =>
    match gap cs.length cs with
    | [] => some s.fields
    | cs =>
      match line s cs with
      | some (s, rest) => lines n s rest
      | none => none

end Reader

def parse? (text : String) : Option Toml :=
  let cs := match text.toList with
    | '\uFEFF' :: cs => cs
    | cs => cs
  (Reader.lines (cs.length + 1) ⟨[], []⟩ cs).map (.table .header)

end Toml

end LeafPaths
