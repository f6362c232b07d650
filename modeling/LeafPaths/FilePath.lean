/-!
File paths as they are spelled.

A path is kept as its text, since a file is reported under the spelling by which it was first
reached. What stands between two slashes is a part; a doubled slash and a slash at either end give
empty parts, which matter only because a path that ends in a slash must lead to a folder.
-/

namespace LeafPaths

structure FilePath where
  text : String
deriving DecidableEq, Repr, Inhabited

namespace FilePath

def cut : List Char → List (List Char)
  | [] => [[]]
  | c :: cs =>
    if c = '/' then [] :: cut cs
    else
      match cut cs with
      | [] => [[c]]
      | p :: ps => (c :: p) :: ps

def parts (p : FilePath) : List String := (cut p.text.toList).map String.ofList

def isAbsolute (p : FilePath) : Bool := p.text.toList.head? == some '/'

/-- The parts that lead somewhere: an empty part and a single dot stay where they are. -/
def steps (p : FilePath) : List String := p.parts.filter fun s => s != "" && s != "."

/-- Whether the last step of a path names a folder of build products or of version control. -/
def isSkipped (p : FilePath) : Bool :=
  match p.steps.getLast? with
  | some s => s == "target" || s == ".git"
  | none => false

/-- `is_rust_source`, asked of a file name: it ends in `.rs` with something before the dot. -/
def isSourceName (name : String) : Bool :=
  match name.toList.reverse with
  | 's' :: 'r' :: '.' :: _ :: _ => true
  | _ => false

def isSource (p : FilePath) : Bool :=
  match p.steps.getLast? with
  | some s => isSourceName s
  | none => false

def isName (s : String) : Bool := s != "" && s != "." && s != ".." && !s.toList.contains '/'

/-- A name below a path, behind exactly one more slash unless the path ends in one. -/
def join (p : FilePath) (name : String) : FilePath :=
  match p.text.toList.getLast? with
  | none => ⟨name⟩
  | some c => if c = '/' then ⟨p.text ++ name⟩ else ⟨p.text ++ "/" ++ name⟩

/-- The beginning of a path that is no part: the slash of an absolute path, or the dot of a path
that begins with one. -/
def splitStart : List Char → List Char × List Char
  | '/' :: cs => (['/'], cs)
  | ['.'] => (['.'], [])
  | '.' :: '/' :: cs => (['.'], '/' :: cs)
  | cs => ([], cs)

/-- The path without its last step. Empty parts and dots lead nowhere and go with it, on both of its
sides. The root has no parent, nor has the empty path. -/
def parent? (p : FilePath) : Option FilePath :=
  let (start, body) := splitStart p.text.toList
  let leadsNowhere (part : List Char) : Bool := part == [] || part == ['.']
  match (cut body).reverse.dropWhile leadsNowhere with
  | _ :: before =>
    let above := (before.dropWhile leadsNowhere).reverse
    some ⟨String.ofList (start ++ ['/'].intercalate above)⟩
  | [] => if start = ['.'] then some ⟨""⟩ else none

/-- The names of an absolute path, found by its spelling alone: a double dot takes back the name in
front of it. A relative path continues the names that are given. -/
def flatten (p : FilePath) (here : List String) : List String :=
  p.steps.foldl (fun names s => if s = ".." then names.dropLast else names ++ [s])
    (if p.isAbsolute then [] else here)

/-- A path without dots, found by its spelling alone. A double dot takes back the name in front of
it, and stays only at the beginning of a relative path. -/
def tidy (p : FilePath) : FilePath :=
  let names := p.steps.foldl (fun names s =>
    if s ≠ ".." then names ++ [s]
    else
      match names.getLast? with
      | none => if p.isAbsolute then [] else [s]
      | some last => if last = ".." then names ++ [s] else names.dropLast) []
  ⟨(if p.isAbsolute then "/" else "") ++ "/".intercalate names⟩

def ofNames (names : List String) : FilePath := ⟨"/" ++ "/".intercalate names⟩

theorem cut_ne_nil (cs : List Char) : cut cs ≠ [] := by
  cases cs with
  | nil => simp [cut]
  | cons c cs =>
    simp only [cut]
    split
    · simp
    · split <;> simp

theorem cut_append_slash (a b : List Char) : cut (a ++ '/' :: b) = cut a ++ cut b := by
  induction a with
  | nil => simp [cut]
  | cons c cs ih =>
    simp only [List.cons_append, cut, ih]
    split
    · simp
    · cases h : cut cs with
      | nil => exact absurd h (cut_ne_nil cs)
      | cons p ps => simp

theorem cut_of_not_mem {cs : List Char} (h : '/' ∉ cs) : cut cs = [cs] := by
  induction cs with
  | nil => rfl
  | cons c cs ih =>
    simp only [List.mem_cons, not_or] at h
    simp [cut, ih h.2, Ne.symm h.1]

theorem slash_not_mem_of_isName {name : String} (hn : isName name = true) :
    '/' ∉ name.toList := by
  simp only [isName, Bool.and_eq_true, Bool.not_eq_true'] at hn
  simpa using hn.2

theorem parts_name {name : String} (hn : isName name = true) : parts ⟨name⟩ = [name] := by
  simp [parts, cut_of_not_mem (slash_not_mem_of_isName hn)]

theorem isAbsolute_name {name : String} (hn : isName name = true) :
    isAbsolute ⟨name⟩ = false := by
  rw [isAbsolute, beq_eq_false_iff_ne]
  intro hhead
  exact slash_not_mem_of_isName hn (List.mem_of_mem_head? hhead)

/-- The parts of a joined path are those of the folder and the name, except that an empty last part
of the folder gives way to the name. -/
theorem parts_join {p : FilePath} {name : String} (hp : p.text ≠ "") (hn : isName name = true) :
    (p.join name).parts = p.parts ++ [name] ∨
      ∃ front, p.parts = front ++ [""] ∧ (p.join name).parts = front ++ [name] := by
  have hslash := slash_not_mem_of_isName hn
  unfold join
  split
  · next h =>
      rw [List.getLast?_eq_none_iff] at h
      exact absurd (String.toList_eq_nil_iff.mp h) hp
  · next c h =>
      split
      · next hc =>
          subst hc
          obtain ⟨front, hf⟩ := List.getLast?_eq_some_iff.mp h
          refine .inr ⟨(cut front).map String.ofList, ?_, ?_⟩
          · simp [parts, hf, cut_append_slash, cut]
          · simp [parts, hf, cut_append_slash, cut_of_not_mem hslash]
      · refine .inl ?_
        simp [parts, cut_append_slash, cut_of_not_mem hslash]

theorem isAbsolute_join {p : FilePath} {name : String} (hp : p.text ≠ "") :
    (p.join name).isAbsolute = p.isAbsolute := by
  have hne : p.text.toList ≠ [] := fun h => hp (String.toList_eq_nil_iff.mp h)
  obtain ⟨c, cs, hcs⟩ := List.exists_cons_of_ne_nil hne
  unfold join
  split
  · next h => exact absurd (List.getLast?_eq_none_iff.mp h) hne
  · split <;> simp [isAbsolute, hcs]

end FilePath

end LeafPaths
