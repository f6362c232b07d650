import LeafPaths.Source.Lexeme
import LeafPaths.Source.Position
import LeafPaths.Source.Token

/-!
From text to token trees.

A text that has no tokens is refused with one position: the place where no lexeme begins, a closing
delimiter that does not match, or the innermost delimiter that is never closed.
-/

namespace LeafPaths.Lexer

open Lexeme

structure Cursor where
  position : Position
  rest : List Char

namespace Cursor

def moveTo (c : Cursor) (rest : List Char) : Cursor :=
  ⟨c.position.advance (taken c.rest rest), rest⟩

end Cursor

/-- A delimiter that waits to be closed, with the tokens before it in reverse order. -/
structure Frame where
  position : Position
  delimiter : Delimiter
  before : List (Token Position)

def opening? (s : List Char) : Option Delimiter :=
  match s with
  | '(' :: _ => if startsWith s brokenLiteral then none else some .parenthesis
  | '[' :: _ => some .bracket
  | '\x7b' :: _ => some .brace
  | _ => none

def closing? : List Char → Option Delimiter
  | ')' :: _ => some .parenthesis
  | ']' :: _ => some .bracket
  | '\x7d' :: _ => some .brace
  | _ => none

/-- A token that is no group. A lifetime is one token, unless what follows the apostrophe begins a
literal. -/
def leaf? (c : Cursor) : Option (Token Position × List Char) :=
  match literal? c.rest with
  | some rest => some (.literal c.position (String.ofList (taken c.rest rest)), rest)
  | none =>
    match lifetimeQuote? c.rest with
    | some rest =>
      match literal? rest, ident? rest with
      | none, some (name, rest) => some (.lifetime c.position (String.ofList ('\'' :: name)), rest)
      | _, _ => some (.punct c.position '\'' true, rest)
    | none =>
      match punctChar? c.rest with
      | some (ch, rest) =>
        if ch == '\'' then none
        else some (.punct c.position ch (punctChar? rest).isSome, rest)
      | none =>
        match ident? c.rest with
        | some (name, rest) => some (.ident c.position (String.ofList name), rest)
        | none =>
          (after? brokenLiteral c.rest).map fun rest => (.literal c.position brokenLiteral, rest)

def docTokens (p : Position) (isInner : Bool) (text : List Char) : List (Token Position) :=
  let content := [.ident p "doc", .punct p '=' false,
    .literal p (String.ofList ('"' :: text ++ ['"']))]
  let body := .group p .bracket content p
  if isInner then [body, .punct p '!' false, .punct p '#' false] else [body, .punct p '#' false]

/-- Reads tokens until the text ends, with the tokens of the innermost open group in reverse order.
Each round takes at least one character, so that `fuel` need not exceed the length of the text by
more than one. -/
def run : Nat → Cursor → List Frame → List (Token Position) →
    Except Position (List (Token Position))
  | 0, c, _, _ => .error c.position
  | fuel + 1, c, frames, tokens =>
    let c := c.moveTo (skipBlanks c.rest.length c.rest)
    match docComment? c.rest with
    | some (isInner, text, rest) =>
      run fuel (c.moveTo rest) frames (docTokens c.position isInner text ++ tokens)
    | none =>
      match c.rest with
      | [] =>
        match frames with
        | [] => .ok tokens.reverse
        | f :: _ => .error f.position
      | _ :: rest =>
        match opening? c.rest, closing? c.rest with
        | some d, _ => run fuel (c.moveTo rest) (⟨c.position, d, tokens⟩ :: frames) []
        | none, some d =>
          match frames with
          | [] => .error c.position
          | f :: frames =>
            if f.delimiter = d then
              run fuel (c.moveTo rest) frames
                (.group f.position d tokens.reverse c.position :: f.before)
            else .error c.position
        | none, none =>
          match leaf? c with
          | some (token, rest) => run fuel (c.moveTo rest) frames (token :: tokens)
          | none => .error c.position

/-- The first line of a script: a text that begins with `#!` without going on as an attribute. The
line end stays. -/
def dropShebang (s : List Char) : List Char :=
  match after? "#!" s with
  | some rest =>
    match skipBlanks rest.length rest with
    | '[' :: _ => s
    | _ => s.dropWhile (· != '\n')
  | none => s

def byteOrderMark : Char := '\uFEFF'

def dropMark : List Char → List Char
  | c :: rest => if c = byteOrderMark then rest else c :: rest
  | [] => []

end LeafPaths.Lexer

namespace LeafPaths

/-- The tokens of a source text, or the place of the first lexical fault. -/
def tokenize (text : String) : Except Position (List (Token Position)) :=
  let s := Lexer.dropShebang (Lexer.dropMark text.toList)
  let c : Lexer.Cursor := ⟨.start, s⟩
  Lexer.run (s.length + 1) (c.moveTo (Lexer.dropMark s)) [] []

end LeafPaths
