import LeafPaths.Proofs.TreeShape

/-!
Macros inside macros. What a macro body lists is read from its tokens and is no part
of the syntax around it, and it may invoke macros in turn. Bodies inside a body are
nested less deep than it is, so that all of them are read after a number of steps
that the file bounds, and nothing is cut short: every invocation that trees show,
however deep, is a node with the path of the macro and one child for each argument.
-/

namespace LeafPaths

/-! ### Invocations -/

/-- An invocation of a macro in a file or in the body of another. -/
structure MacroUse where
  depth : Nat
  path : Syntax (Body depth) .path
  body : Body depth

def MacroUse.listing : Listing MacroUse where
  kind := .macroCall
  isListed := rfl
  function := fun _ => []
  invocation := fun path body => [⟨_, path, body⟩]

/-- All invocations in a file that trees show. -/
def SourceFile.macroUses (f : SourceFile) : List MacroUse := f.listed MacroUse.listing

/-- The macro calls in a tree, each before those below it. -/
def Tree.macroCalls (t : Tree) : List Tree := t.nodesOf .macroCall

/-- The whole lowering of an invocation: the path of the macro, then one tree for each
expression that its body lists, in their order, or the path alone if it lists none. -/
inductive MacroUse.Lowers (u : MacroUse) : Tree → Prop where
  | arguments {es : List (Syntax (Body (Token.depthAll u.body.val)) .expr)} {path : Tree}
      {args : List Tree} (hes : parseArguments u.body.val = .ok es)
      (hpath : u.path.forest macroArguments = [path])
      (hargs : List.Forall₂ (fun e t => e.forest macroArguments = [t]) es args) :
      Lowers u (.node .macroCall (path :: args))
  | pathAlone {fault : Fault Unit} {path : Tree} (hfault : parseArguments u.body.val = .error fault)
      (hpath : u.path.forest macroArguments = [path]) : Lowers u (.node .macroCall [path])

theorem Syntax.exists_tree {β : Type} {s : Phrase} (args : β → List Tree) (hs : s.isSingle = true)
    (x : Syntax β s) : ∃ t, x.forest args = [t] :=
  List.length_eq_one_iff.mp (length_forest x hs)

theorem Syntax.forall₂_flatMap {β : Type} {s : Phrase} (args : β → List Tree)
    (hs : s.isSingle = true) (xs : List (Syntax β s)) :
    List.Forall₂ (fun x t => x.forest args = [t]) xs (xs.flatMap fun x => x.forest args) := by
  induction xs with
  | nil => exact .nil
  | cons x xs ih =>
      obtain ⟨t, ht⟩ := exists_tree args hs x
      rw [List.flatMap_cons, ht]
      exact .cons ht ih

theorem MacroUse.lowers (u : MacroUse) :
    u.Lowers (.node .macroCall (u.path.forest macroArguments ++ macroArguments u.body)) := by
  obtain ⟨path, hpath⟩ := Syntax.exists_tree macroArguments rfl u.path
  rw [hpath, macroArguments]
  cases hbody : parseArguments u.body.val with
  | ok es => exact .arguments hbody hpath (Syntax.forall₂_flatMap macroArguments rfl es)
  | error fault => exact .pathAlone hbody hpath

theorem MacroUse.listing_relates : listing.Relates MacroUse.Lowers where
  function := fun _ _ => .nil
  invocation := fun path body => .cons (MacroUse.lowers ⟨_, path, body⟩) .nil

/-! ### Depth -/

/-- The trees of the arguments of a macro body with at most `n` bodies read inside each
other, this one included. If it would take more, `cut` is given where reading stops. -/
def argumentsWithin (cut : List Tree) : Nat → {d : Nat} → Body d → List Tree
  | 0, _, _ => cut
  | n + 1, _, body =>
    match parseArguments body.val with
    | .ok es => es.flatMap fun e => e.forest fun inner => argumentsWithin cut n inner
    | .error _ => []

theorem argumentsWithin_eq (cut : List Tree) {n d : Nat} (h : d ≤ n) (b : Body d) :
    argumentsWithin cut n b = macroArguments b := by
  induction n generalizing d with
  | zero => exact absurd b.property (by omega)
  | succ n ih =>
      have hinner : (fun inner : Body (Token.depthAll b.val) => argumentsWithin cut n inner) =
          macroArguments := by
        funext inner
        exact ih (by have hb := b.property; omega) inner
      rw [argumentsWithin, macroArguments]
      cases parseArguments b.val with
      | ok es => exact congrArg (fun args => es.flatMap fun e => e.forest args) hinner
      | error fault => rfl

/-- Lowering ends and is never cut short. No more bodies are read inside each other than
the file nests, whatever would be given where reading stops. The macro calls in the tree
are the invocations of the file, one for each and in their order, and each is lowered as
a whole: with all its arguments, or with none if its body lists no expressions. -/
theorem SourceFile.macros_lowered_whole (f : SourceFile) :
    (∀ (n : Nat) (cut : List Tree), f.depth ≤ n →
        f.content.forest (argumentsWithin cut n) = [f.tree]) ∧
      List.Forall₂ MacroUse.Lowers f.macroUses f.tree.macroCalls := by
  constructor
  · intro n cut hn
    have hargs : (argumentsWithin cut n : Body f.depth → List Tree) = macroArguments := by
      funext b
      exact argumentsWithin_eq cut hn b
    rw [hargs, forest_content]
  · exact f.forall₂_listed MacroUse.listing_relates

end LeafPaths
