import LeafPaths.Context

/-!
Records: the written forms of path contexts, one record per line.

`raw` escapes nothing, so a token with a comma or a line break makes a record that does not read
back. `csv` quotes the fields that need it, `jsonl` writes an object per line.
-/

namespace LeafPaths

inductive Format where
  | raw
  | csv
  | jsonl
deriving DecidableEq, Repr, Inhabited

namespace Format

def name : Format → String
  | raw => "raw"
  | csv => "csv"
  | jsonl => "jsonl"

def ofName? (s : String) : Option Format :=
  [raw, csv, jsonl].find? fun f => f.name == s

end Format

namespace Csv

def needsQuotes (c : Char) : Bool := c == ',' || c == '"' || c == '\r' || c == '\n'

def doubleQuotes : List Char → List Char
  | [] => []
  | c :: rest => if c = '"' then '"' :: '"' :: doubleQuotes rest else c :: doubleQuotes rest

/-- A field as `write_csv` writes it, in quotes only if it needs them. -/
def field (s : List Char) : List Char :=
  if s.any needsQuotes then '"' :: doubleQuotes s ++ ['"'] else s

def record (t : Triple) : List Char :=
  field t.left.toList ++ ',' :: field t.path.toList ++ ',' :: field t.right.toList ++ ['\n']

end Csv

namespace Json

def hexDigit (n : Nat) : Char :=
  if n < 10 then Char.ofNat (48 + n) else Char.ofNat (87 + n)

/-- A character inside a string: quotes, backslashes and control characters are escaped. -/
def escape (c : Char) : List Char :=
  if c = '"' then ['\\', '"']
  else if c = '\\' then ['\\', '\\']
  else if c.toNat = 8 then ['\\', 'b']
  else if c.toNat = 12 then ['\\', 'f']
  else if c = '\n' then ['\\', 'n']
  else if c = '\r' then ['\\', 'r']
  else if c = '\t' then ['\\', 't']
  else if c.toNat < 32 then ['\\', 'u', '0', '0', hexDigit (c.toNat / 16), hexDigit (c.toNat % 16)]
  else [c]

def string (s : List Char) : List Char := '"' :: s.flatMap escape ++ ['"']

def record (t : Triple) : List Char :=
  "\x7b\"left\":".toList ++ string t.left.toList ++ ",\"path\":".toList ++ string t.path.toList ++
    ",\"right\":".toList ++ string t.right.toList ++ "\x7d\n".toList

end Json

namespace Format

def record : Format → Triple → String
  | raw, t => t.display ++ "\n"
  | csv, t => String.ofList (Csv.record t)
  | jsonl, t => String.ofList (Json.record t)

/-- `export`, into one text. -/
def render (f : Format) (ts : List Triple) : String := String.join (ts.map f.record)

/-- The pieces in which contexts are handed over: raw records field by field, objects one by one,
and quoted records through a buffer. Where the buffer cuts them does not show and is left out. -/
def pieces : Format → List Triple → List String
  | raw, ts => ts.flatMap fun t => [t.left, ",", t.path, ",", t.right, "\n"]
  | csv, ts => [csv.render ts]
  | jsonl, ts => ts.map jsonl.record

theorem join_pieces (f : Format) (ts : List Triple) : String.join (f.pieces ts) = f.render ts := by
  cases f with
  | raw =>
    induction ts with
    | nil => rfl
    | cons t ts ih =>
      rw [pieces, render] at ih
      rw [pieces, render]
      simp only [List.flatMap_cons, List.cons_append, List.nil_append, List.map_cons,
        String.join_cons, ih, record, Triple.display, String.append_assoc]
  | csv => simp [pieces]
  | jsonl => rfl

end Format

end LeafPaths
