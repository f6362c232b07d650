import LeafPaths.Grammar.Item
import LeafPaths.Source.Lexer

/-!
The grammar of source files, closed.

The rules call one another. `Rules.upTo` counts how deep they do and gives up at a given depth, and
`Rules.for` sets this depth by the number of tokens. No text needs more, as `GrammarProgress` shows.
-/

namespace LeafPaths

namespace Grammar

variable {α : Type} {d : Nat}

/-- The rules, applied at most `n` deep in one another. -/
def Rules.upTo : Nat → Rules α d
  | 0 =>
    { unary := fun _ => giveUp
      climb := fun _ _ _ => giveUp
      settle := fun _ _ _ => giveUp
      trailers := fun _ => giveUp
      early := giveUp
      ifExpr := giveUp
      type := fun _ => giveUp
      bound := fun _ _ => giveUp
      pat := giveUp
      stmts := giveUp
      item := giveUp
      fields := giveUp
      useTree := fun _ => giveUp }
  | n + 1 =>
    { unary := fun allowStruct => unaryRule (upTo n) allowStruct
      climb := fun allowStruct p e => climbRule (upTo n) allowStruct p e
      settle := fun allowStruct p e => settleRule (upTo n) allowStruct p e
      trailers := fun e => trailersRule (upTo n) e
      early := fun s => earlyRule (upTo n) s
      ifExpr := fun s => ifRule (upTo n) s
      type := fun allowPlus => typeRule (upTo n) allowPlus
      bound := fun allowCapture allowConst => boundRule (upTo n) allowCapture allowConst
      pat := fun s => patAtom (upTo n) s
      stmts := fun s => stmtsRule (upTo n) s
      item := fun s => itemRule (upTo n) s
      fields := fun s => fieldsRule (upTo n) s
      useTree := fun allowGlobal => useTreeRule (upTo n) allowGlobal }

def Rules.for (ts : Tokens α) : Rules α d := .upTo (8 * (Token.sizeAll ts + 2))

def file (r : Rules α d) : Parser α d (Syn d .file) := do
  let attributes ← innerAttributes r
  let items ← untilEnd do
    let attributes ← outerAttributes r
    return attributedItem attributes (← r.item)
  return .file attributes (.ofList items)

end Grammar

/-- A source file, in which macros are nested less than `depth` deep. -/
structure SourceFile where
  depth : Nat
  content : Syntax (Body depth) .file

def SourceFile.parse (text : String) : Except (Fault Position) SourceFile :=
  match tokenize text with
  | .error p => .error ⟨p, false, some .lexical⟩
  | .ok ts =>
    (Grammar.run (Grammar.file (.for ts)) ts (Nat.le_refl _) .start).map (⟨_, ·⟩)

/-- Reads tokens as expressions with commas between them, and perhaps one behind the last. -/
def parseArguments (ts : Verbatim) :
    Except (Fault Unit) (List (Syntax (Body (Token.depthAll ts)) .expr)) :=
  Grammar.run (Grammar.commaList (Grammar.Rules.for ts).expr) ts (Nat.le_refl _) ()

end LeafPaths
