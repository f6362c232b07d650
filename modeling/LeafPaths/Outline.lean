import LeafPaths.Grammar
import LeafPaths.Syntax.Lowering

/-!
The tree of a source file.

The body of a macro is read as an argument list where it is one; otherwise only the macro's path
shows. Bodies inside bodies are nested less deep, so that this comes to an end.
-/

namespace LeafPaths

/-- `lower_macro` behind the path: the trees of the arguments that a macro body lists, or none if it
is no argument list. -/
def macroArguments {d : Nat} (body : Body d) : List Tree :=
  match parseArguments body.val with
  | .ok es => es.flatMap fun e => e.forest fun inner => macroArguments inner
  | .error _ => []
termination_by d
decreasing_by exact body.property

/-- `lower_file`: the tree of a source file. -/
def SourceFile.tree (f : SourceFile) : Tree :=
  match f.content with
  | .file _ items => .node .file (items.forest macroArguments)

theorem SourceFile.forest_content (f : SourceFile) :
    f.content.forest macroArguments = [f.tree] := by
  obtain ⟨depth, content⟩ := f
  cases content with
  | file attributes items => rfl

end LeafPaths
