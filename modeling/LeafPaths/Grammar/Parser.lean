import LeafPaths.Grammar.Fault
import LeafPaths.Source.Numeral
import LeafPaths.Syntax

/-!
Parsers over token streams.

A parser works on what is left of the content of one group, or of the whole text. Marks are of any
type, so that the same rules read a text with positions and the body of a macro without. All
streams of one parse are nested less than `d` deep in the groups around them, so that every macro
body that is met has a depth below `d`.

Tokens that a rule leaves at the end of a group are a fault, but one that is reported only if the
rest of the text is in order; the first such fault counts.
-/

namespace LeafPaths

/-- An unread macro body that is nested less than `d` deep. -/
abbrev Body (d : Nat) : Type := { ts : Verbatim // Token.depthAll ts < d }

namespace Grammar

abbrev Tokens (α : Type) : Type := List (Token α)

structure State (α : Type) (d : Nat) where
  rest : Tokens α
  depth_le : Token.depthAll rest ≤ d
  /-- The place to which the end of the stream is attributed. -/
  scope : α
  /-- The first fault of a group that was not read to its end. -/
  leftover : Option (Fault α)

abbrev Parser (α : Type) (d : Nat) := StateT (State α d) (Except (Fault α))

/-- Syntax whose macro bodies are nested less than `d` deep. -/
abbrev Syn (d : Nat) (s : Phrase) : Type := Syntax (Body d) s

variable {α : Type} {d : Nat} {x : Type}

/-! ### Looking ahead -/

def keywords : List String :=
  ["_", "abstract", "as", "async", "await", "become", "box", "break", "const", "continue", "crate",
    "do", "dyn", "else", "enum", "extern", "false", "final", "fn", "for", "if", "impl", "in", "let",
    "loop", "macro", "match", "mod", "move", "mut", "override", "priv", "pub", "ref", "return",
    "Self", "self", "static", "struct", "super", "trait", "true", "try", "type", "typeof", "unsafe",
    "unsized", "use", "virtual", "where", "while", "yield"]

namespace Tokens

def skip (ts : Tokens α) (n : Nat) : Tokens α := List.drop n ts

def isWord (ts : Tokens α) (w : String) : Bool :=
  match ts with
  | .ident _ text :: _ => text == w
  | _ => false

def isAnyWord (ts : Tokens α) : Bool :=
  match ts with
  | .ident _ _ :: _ => true
  | _ => false

def isName (ts : Tokens α) : Bool :=
  match ts with
  | .ident _ text :: _ => !keywords.contains text
  | _ => false

def isLifetime (ts : Tokens α) : Bool :=
  match ts with
  | .lifetime _ _ :: _ => true
  | _ => false

def isGroup (ts : Tokens α) (del : Delimiter) : Bool :=
  match ts with
  | .group _ del' _ _ :: _ => del == del'
  | _ => false

def beginsWith : Tokens α → List Char → Bool
  | .punct _ c _ :: _, [c'] => c == c'
  | .punct _ c joint :: ts, c' :: cs => c == c' && joint && beginsWith ts cs
  | _, _ => false

/-- Whether an operator comes next. Longer operators that begin with it count. -/
def isOp (ts : Tokens α) (text : String) : Bool := beginsWith ts text.toList

/-- A literal that comes next, with the tokens it takes: a literal token, a truth value, or a
numeral behind a minus sign. -/
def literal? (ts : Tokens α) : Option (String × Nat) :=
  match ts with
  | .literal _ text :: _ => some (text, 1)
  | .ident _ text :: _ => if text == "true" || text == "false" then some (text, 1) else none
  | .punct _ '-' _ :: .literal _ text :: _ =>
    if Numeral.isNumber text.toList then some ("-" ++ text, 2) else none
  | _ => none

def isLiteral (ts : Tokens α) : Bool := ts.literal?.isSome

def isStringLiteral (ts : Tokens α) : Bool :=
  match ts with
  | .literal _ text :: _ =>
    match text.toList with
    | c :: _ => c == '"' || c == 'r'
    | [] => false
  | _ => false

def numeral (text : String) : Bool × List Char :=
  match text.toList with
  | '-' :: cs => (true, cs)
  | cs => (false, cs)

def isInt (ts : Tokens α) : Bool :=
  match ts.literal? with
  | some (text, _) => (Numeral.int? (numeral text).2).isSome
  | none => false

def isFloat (ts : Tokens α) : Bool :=
  match ts.literal? with
  | some (text, _) => Numeral.isFloat (numeral text).2
  | none => false

def holds (ts : Tokens α) : Terminal → Bool
  | .word w => ts.isWord w
  | .op text => ts.isOp text
  | .name => ts.isName
  | .lifetime => ts.isLifetime
  | .literal => ts.isLiteral
  | .stringLiteral => ts.isStringLiteral
  | .group del => ts.isGroup del

end Tokens

/-! ### Faults -/

def upcoming : Parser α d (Tokens α) := fun s => .ok (s.rest, s)

def State.mark (s : State α d) : α :=
  match s.rest with
  | t :: _ => t.mark
  | [] => s.scope

def mark : Parser α d α := fun s => .ok (s.mark, s)

def failAt (m : α) (c : Complaint) : Parser α d x := fun _ => .error ⟨m, false, some c⟩

def fail (c : Complaint) : Parser α d x := fun s => .error ⟨s.mark, s.rest.isEmpty, some c⟩

/-- Complains that none of the terminals comes next. One that does come next was refused for what
follows it, and is not mentioned. -/
def failExpecting (alternatives : List Terminal) : Parser α d x := fun s =>
  .error ⟨s.mark, s.rest.isEmpty,
    some (.expected (alternatives.filter fun t => !s.rest.holds t))⟩

/-- Stops without a complaint, where the rules have been applied too often. -/
def giveUp : Parser α d x := fun s => .error ⟨s.mark, false, none⟩

/-! ### Single tokens -/

def atEnd : Parser α d Bool := fun s => .ok (s.rest.isEmpty, s)

def advance (n : Nat) : Parser α d Unit := fun s =>
  .ok ((), { s with
    rest := s.rest.drop n
    depth_le := Nat.le_trans (Token.depthAll_drop_le s.rest n) s.depth_le })

def word (w : String) : Parser α d Unit := do
  if (← upcoming).isWord w then advance 1 else fail (.expected [.word w])

def optWord (w : String) : Parser α d Bool := do
  if (← upcoming).isWord w then
    advance 1
    return true
  else
    return false

/-- A missing operator is a complaint without regard to the end of the input. -/
def op (text : String) : Parser α d Unit := do
  if (← upcoming).isOp text then advance text.length
  else failAt (← mark) (.expected [.op text])

def optOp (text : String) : Parser α d Bool := do
  if (← upcoming).isOp text then
    advance text.length
    return true
  else
    return false

def name : Parser α d String := do
  match ← upcoming with
  | .ident _ text :: _ =>
    if keywords.contains text then fail (.keyword text)
    else
      advance 1
      return text
  | _ => fail (.expected [.name])

def anyWord : Parser α d String := do
  match ← upcoming with
  | .ident _ text :: _ =>
    advance 1
    return text
  | _ => fail .noWord

def lifetime : Parser α d String := do
  match ← upcoming with
  | .lifetime _ text :: _ =>
    advance 1
    return text
  | _ => fail (.expected [.lifetime])

def optLifetime : Parser α d (Option String) := do
  if (← upcoming).isLifetime then return some (← lifetime) else return none

def literal : Parser α d String := do
  match (← upcoming).literal? with
  | some (text, n) =>
    advance n
    return text
  | none => fail (.expected [.literal])

def position : Parser α d Nat := do
  let m ← mark
  match (← upcoming).literal? with
  | some (text, n) =>
    let (isNegative, digits) := Tokens.numeral text
    match Numeral.int? digits with
    | some (value, suffix) =>
      if !suffix.isEmpty then failAt m .suffixedIndex
      else if isNegative then failAt m .negativeIndex
      else if value < Nat.pow 2 32 then
        advance n
        return value
      else failAt m .largeIndex
    | none => fail .noInteger
  | none => fail .noInteger

def member : Parser α d Member := do
  let ts ← upcoming
  if ts.isName then return .named (← name)
  else if ts.isInt then return .position (← position)
  else fail .noMember

/-! ### Groups -/

/-- Reads the content of a group. What the rule leaves of it is a fault, given back for the caller
to `note`. -/
def enter (del : Delimiter) (content : Parser α d x) : Parser α d (x × Option (Fault α)) := fun s =>
  match h : s.rest with
  | .group _ del' body closing :: rest =>
    if del = del' then
      have hbody : Token.depthAll body ≤ d := by
        have := s.depth_le
        rw [h] at this
        simp only [Token.depthAll, Token.depth] at this
        omega
      have hrest : Token.depthAll rest ≤ d := by
        have := s.depth_le
        rw [h] at this
        simp only [Token.depthAll] at this
        omega
      match content ⟨body, hbody, closing, s.leftover⟩ with
      | .ok (result, s') =>
        let left := if s'.rest.isEmpty then none
          else some ⟨s'.mark, false, some (.leftover (some del))⟩
        .ok ((result, left),
          { s with rest := rest, depth_le := hrest, leftover := s'.leftover })
      | .error f => .error f
    else fail (.expected [.group del]) s
  | _ => fail (.expected [.group del]) s

def note (f : Option (Fault α)) : Parser α d Unit := fun s =>
  .ok ((), { s with leftover := s.leftover <|> f })

def inside (del : Delimiter) (content : Parser α d x) : Parser α d x := do
  let (result, left) ← enter del content
  note left
  return result

/-- The body of a macro, whatever its delimiters, left unread. -/
def body : Parser α d (Delimiter × Body d) := fun s =>
  match h : s.rest with
  | .group _ del body _ :: rest =>
    have hbody : Token.depthAll (Token.forgetAll body) < d := by
      have := s.depth_le
      rw [h] at this
      simp only [Token.depthAll, Token.depth] at this
      rw [Token.depthAll_forgetAll]
      omega
    have hrest : Token.depthAll rest ≤ d := by
      have := s.depth_le
      rw [h] at this
      simp only [Token.depthAll] at this
      omega
    .ok ((del, ⟨Token.forgetAll body, hbody⟩), { s with rest := rest, depth_le := hrest })
  | _ => fail .noDelimiter s

def remainder : Parser α d Verbatim := do
  let ts ← upcoming
  advance ts.length
  return Token.forgetAll ts

/-! ### Combinators -/

def withTokens (p : Parser α d x) : Parser α d (x × Tokens α) := do
  let before ← upcoming
  let result ← p
  let after ← upcoming
  return (result, before.take (before.length - after.length))

def tokensOf (p : Parser α d x) : Parser α d Verbatim := do
  let (_, ts) ← withTokens p
  return Token.forgetAll ts

/-- Tries a rule. If it fails nothing has been read. -/
def attempt (p : Parser α d x) : Parser α d (Option x) := fun s =>
  match p s with
  | .ok (result, s') => .ok (some result, s')
  | .error _ => .ok (none, s)

/-- Looks at what a rule would read, without reading it. A failure of the rule still counts. -/
def ahead (p : Parser α d x) : Parser α d (x × Tokens α) := fun s =>
  match p s with
  | .ok (result, s') => .ok ((result, s'.rest), s)
  | .error f => .error f

/-- Repeats a step until it gives nothing, at most once for every token that is left. -/
def collect (step : Parser α d (Option x)) : Parser α d (List x) := do
  go ((← upcoming).length + 1)
where
  go : Nat → Parser α d (List x)
    | 0 => return []
    | n + 1 => do
      match ← step with
      | some result => return result :: (← go n)
      | none => return []

def untilEnd (p : Parser α d x) : Parser α d (List x) :=
  collect do if ← atEnd then return none else return some (← p)

/-- A list with separators between its elements, up to a stop that is looked for before each
element and before each separator. -/
def separated (separator : String) (isStop : Tokens α → Bool) (p : Parser α d x) :
    Parser α d (List x) := do
  go ((← upcoming).length + 1)
where
  go : Nat → Parser α d (List x)
    | 0 => return []
    | n + 1 => do
      if isStop (← upcoming) then return []
      else
        let result ← p
        if isStop (← upcoming) then return [result]
        else
          op separator
          return result :: (← go n)

def commaList (p : Parser α d x) : Parser α d (List x) := separated "," List.isEmpty p

/-- A list with separators between its elements, where a stop is looked for before each element
and the list also ends where no separator follows. -/
def joined (separator : String) (isStop : Tokens α → Bool) (p : Parser α d x) :
    Parser α d (List x) := do
  go ((← upcoming).length + 1)
where
  go : Nat → Parser α d (List x)
    | 0 => return []
    | n + 1 => do
      if isStop (← upcoming) then return []
      else
        let result ← p
        if (← upcoming).isOp separator then
          op separator
          return result :: (← go n)
        else return [result]

/-! ### Whole streams -/

/-- Reads a whole stream. Faults come in the order in which they matter: one that stopped a rule,
tokens left in a group, tokens left at the end. -/
def run (p : Parser α d x) (ts : Tokens α) (h : Token.depthAll ts ≤ d) (scope : α) :
    Except (Fault α) x :=
  match p ⟨ts, h, scope, none⟩ with
  | .error f => .error f
  | .ok (result, s) =>
    match s.leftover, s.rest with
    | some f, _ => .error f
    | none, t :: _ => .error ⟨t.mark, false, some (.leftover none)⟩
    | none, [] => .ok result

end Grammar

end LeafPaths
