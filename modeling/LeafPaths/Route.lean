import LeafPaths.Tree.Node

/-!
Routes between two nodes through their lowest common ancestor, and their written form

    [Ident]UP[BinaryExpr:+]DOWN[Ident]

A tag on the way up is followed by `UP`, a tag on the way down is preceded by `DOWN`, and the tag
of the common ancestor stands alone between them. A tag holds no closing bracket in the written
form, so a text is read in at most one way.
-/

namespace LeafPaths

/-- `PathParts`: the tags below the common ancestor on the way up, its own, and those below it on
the way down. -/
structure Route where
  up : List String
  lca : String
  down : List String
deriving DecidableEq, Repr, Inhabited

namespace Route

/-- `common_prefix_len`: the number of leading nodes that two chains share, by identity. -/
def commonLength : List Node → List Node → Nat
  | a :: as, b :: bs => if a.same b then commonLength as bs + 1 else 0
  | _, _ => 0

/-- `encode_path` before it is written: the route from the end of one chain to the end of another.
There is none if the chains do not begin at the same node. -/
def between (source target : List Node) : Option Route :=
  match commonLength source target with
  | 0 => none
  | shared + 1 =>
    source[shared]?.map fun meet =>
      { up := ((source.drop (shared + 1)).map Node.tag).reverse
        lca := meet.tag
        down := (target.drop (shared + 1)).map Node.tag }

def reversed (r : Route) : Route :=
  { up := r.down.reverse, lca := r.lca, down := r.up.reverse }

def renderTag (tag : String) : String := "[" ++ tag ++ "]"

def render (r : Route) : String :=
  String.join (r.up.map fun t => renderTag t ++ "UP") ++ renderTag r.lca ++
    String.join (r.down.map fun t => "DOWN" ++ renderTag t)

/-- `take_tag`: reads a bracketed tag. It ends at the first closing bracket. -/
def readTag? : List Char → Option (String × List Char)
  | '[' :: rest =>
    match rest.dropWhile (· != ']') with
    | [] => none
    | _ :: after => some (String.ofList (rest.takeWhile (· != ']')), after)
  | _ => none

theorem readTag?_length {s rest : List Char} {tag : String} (h : readTag? s = some (tag, rest)) :
    rest.length < s.length := by
  unfold readTag? at h
  split at h
  · rename_i inner
    split at h
    · cases h
    · rename_i c after heq
      have hle := (List.dropWhile_sublist (· != ']') : (inner.dropWhile _).Sublist inner).length_le
      rw [heq] at hle
      cases h
      simp only [List.length_cons] at hle ⊢
      omega
  · cases h

def readDown? (s : List Char) : Option (List String) :=
  match s with
  | [] => some []
  | 'D' :: 'O' :: 'W' :: 'N' :: rest =>
    match h : readTag? rest with
    | some (tag, after) =>
      have := readTag?_length h
      (readDown? after).map (tag :: ·)
    | none => none
  | _ => none
termination_by s.length
decreasing_by simp only [List.length_cons]; omega

/-- Reads a whole route: tags followed by `UP`, then the common ancestor, then the way down. -/
def read? (s : List Char) : Option Route :=
  match h : readTag? s with
  | some (tag, 'U' :: 'P' :: rest) =>
    have := readTag?_length h
    (read? rest).map fun r => { r with up := tag :: r.up }
  | some (tag, rest) => (readDown? rest).map fun down => ⟨[], tag, down⟩
  | none => none
termination_by s.length
decreasing_by simp only [List.length_cons] at this; omega

/-- `PathParts::parse`: the route that a text writes, if it writes one. -/
def parse? (s : String) : Option Route := read? s.toList

end Route

end LeafPaths
