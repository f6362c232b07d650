import LeafPaths.Error
import LeafPaths.FilePath

/-!
A file system with symbolic links.

What exists is a finite table from locations to objects. A location is the chain of names from the
root, without dots and links, so that an object has exactly one. Paths are walked part by part, and
a walk follows at most `linkLimit` links, hence it ends.
-/

namespace LeafPaths

/-- The names from the root down to an object. -/
abbrev Location := List String

inductive Object where
  | file (content : ByteArray)
  | folder
  | link (target : FilePath)

structure FileSystem where
  objects : List (Location × Object)
  workingFolder : Location

/-- Where a walk has arrived, and how many links it followed. -/
structure Place where
  links : Nat
  location : Location
deriving DecidableEq, Repr, Inhabited

def FilePath.base (p : FilePath) (here : Location) : Location := if p.isAbsolute then [] else here

namespace FileSystem

def linkLimit : Nat := 40

/-- The object at a location; the root is always a folder. -/
def object? (fs : FileSystem) (l : Location) : Option Object :=
  if l = [] then some .folder else fs.objects.lookup l

/-- Walks the parts of a path. Only a folder can be left, also by an empty part and by a dot; the
folder above the root is the root. -/
def walk (fs : FileSystem) (links : Nat) (here : Location) : List String → Except IoError Place
  | [] => .ok ⟨links, here⟩
  | part :: rest =>
    match fs.object? here with
    | some .folder =>
      if part = "" ∨ part = "." then fs.walk links here rest
      else if part = ".." then fs.walk links here.dropLast rest
      else
        match fs.object? (here ++ [part]) with
        | none => .error .notFound
        | some (.link target) =>
          if links < linkLimit then
            fs.walk (links + 1) (target.base here) (target.parts ++ rest)
          else .error .tooManyLinks
        | some _ => fs.walk links (here ++ [part]) rest
    | _ => .error .notDirectory
termination_by parts => (linkLimit - links, parts.length)
decreasing_by all_goals simp_wf; omega

def resolve (fs : FileSystem) (p : FilePath) : Except IoError Place :=
  if p.text = "" then .error .notFound else fs.walk 0 (p.base fs.workingFolder) p.parts

def canonical (fs : FileSystem) (p : FilePath) : Except IoError Location :=
  (fs.resolve p).map (·.location)

def objectOf? (fs : FileSystem) (p : FilePath) : Option Object :=
  match fs.resolve p with
  | .ok place => fs.object? place.location
  | .error _ => none

def isFile (fs : FileSystem) (p : FilePath) : Bool :=
  match fs.objectOf? p with
  | some (.file _) => true
  | _ => false

def isFolder (fs : FileSystem) (p : FilePath) : Bool :=
  match fs.objectOf? p with
  | some .folder => true
  | _ => false

def read (fs : FileSystem) (p : FilePath) : Except IoError ByteArray :=
  match fs.resolve p with
  | .error e => .error e
  | .ok place =>
    match fs.object? place.location with
    | some (.file content) => .ok content
    | some .folder => .error .isDirectory
    | _ => .error .notFound

def readText (fs : FileSystem) (p : FilePath) : Except IoError String :=
  match fs.read p with
  | .error e => .error e
  | .ok content =>
    match String.fromUTF8? content with
    | some text => .ok text
    | none => .error .invalidText

/-- The names in a folder, each once, by their characters' code points. -/
def namesAt (fs : FileSystem) (l : Location) : List String :=
  let names := fs.objects.filterMap fun (m, _) =>
    match m.getLast? with
    | some n => if m = l ++ [n] ∧ FilePath.isName n then some n else none
    | none => none
  names.eraseDups.mergeSort

def list (fs : FileSystem) (p : FilePath) : Except IoError (List String) :=
  match fs.resolve p with
  | .error e => .error e
  | .ok place =>
    match fs.object? place.location with
    | some .folder => .ok (fs.namesAt place.location)
    | _ => .error .notDirectory

def names (fs : FileSystem) (p : FilePath) : List String :=
  match fs.list p with
  | .ok ns => ns
  | .error _ => []

theorem isName_of_mem_namesAt {fs : FileSystem} {l : Location} {n : String}
    (h : n ∈ fs.namesAt l) : FilePath.isName n = true := by
  simp only [namesAt, List.mem_mergeSort, List.mem_eraseDups, List.mem_filterMap] at h
  obtain ⟨x, -, hx⟩ := h
  split at hx
  · split at hx
    · next hc => cases hx; exact hc.2
    · cases hx
  · cases hx

theorem walk_nil (fs : FileSystem) (k : Nat) (here : Location) :
    fs.walk k here [] = .ok ⟨k, here⟩ := by
  rw [walk]

theorem walk_stay {fs : FileSystem} {here : Location} {part : String}
    (hfolder : fs.object? here = some .folder) (hpart : part = "" ∨ part = ".") (k : Nat)
    (rest : List String) : fs.walk k here (part :: rest) = fs.walk k here rest := by
  rw [walk, hfolder]
  simp only [hpart, if_true]

theorem walk_name {fs : FileSystem} {here : Location} {n : String} {o : Object}
    (hfolder : fs.object? here = some .folder) (hn : FilePath.isName n = true)
    (ho : fs.object? (here ++ [n]) = some o) (hlink : ∀ target, o ≠ .link target) (k : Nat)
    (rest : List String) : fs.walk k here (n :: rest) = fs.walk k (here ++ [n]) rest := by
  simp only [FilePath.isName, Bool.and_eq_true, bne_iff_ne] at hn
  rw [walk, hfolder]
  simp only [hn.1.1.1, hn.1.1.2, hn.1.2, or_false, if_false, ho]

theorem walk_link {fs : FileSystem} {here : Location} {n : String} {target : FilePath}
    (hfolder : fs.object? here = some .folder) (hn : FilePath.isName n = true)
    (ho : fs.object? (here ++ [n]) = some (.link target)) {k : Nat} (hk : k < linkLimit)
    (rest : List String) :
    fs.walk k here (n :: rest) =
      fs.walk (k + 1) (target.base here) (target.parts ++ rest) := by
  simp only [FilePath.isName, Bool.and_eq_true, bne_iff_ne] at hn
  rw [walk, hfolder]
  simp only [hn.1.1.1, hn.1.1.2, hn.1.2, or_false, if_false, ho, hk, if_true]

theorem links_le_of_walk {fs : FileSystem} {k : Nat} {here : Location} {parts : List String}
    {place : Place} (h : fs.walk k here parts = .ok place) : k ≤ place.links := by
  fun_induction fs.walk k here parts with
  | case1 => cases h; exact Nat.le_refl _
  | case2 | case3 | case7 => simp_all
  | case4 | case6 | case8 => cases h
  | case5 _ _ _ _ _ _ _ _ _ _ ih => exact Nat.le_of_succ_le (ih h)

theorem walk_append (fs : FileSystem) (k : Nat) (here : Location) (a b : List String) :
    fs.walk k here (a ++ b) =
      (fs.walk k here a).bind fun place => fs.walk place.links place.location b := by
  fun_induction fs.walk k here a with
  | case1 => rfl
  | case2 _ _ part rest hf hd ih => rw [List.cons_append, walk, hf]; simp [hd, ih]
  | case3 _ _ rest hf hd ih => rw [List.cons_append, walk, hf]; simp [ih]
  | case4 _ _ part rest hf hd hu hn =>
    rw [List.cons_append, walk, hf]
    simp only [hd, hu, hn, if_false]
    rfl
  | case5 _ _ part rest hf hd hu target ho hk ih =>
    rw [List.cons_append, walk, hf]
    simp only [hd, hu, ho, hk, if_false, if_true, ← List.append_assoc, ih]
  | case6 _ _ part rest hf hd hu target ho hk =>
    rw [List.cons_append, walk, hf]
    simp only [hd, hu, ho, hk, if_false]
    rfl
  | case7 _ _ part rest hf hd hu o hl ho ih =>
    rw [List.cons_append, walk, hf]
    cases o <;> simp_all
  | case8 _ _ part rest hf =>
    rw [List.cons_append, walk]
    split
    · next h => exact absurd h hf
    · rfl

theorem resolve_name (fs : FileSystem) {name : String} (hn : FilePath.isName name = true) :
    fs.resolve ⟨name⟩ = fs.walk 0 fs.workingFolder [name] := by
  have hne : name ≠ "" := by
    simp only [FilePath.isName, Bool.and_eq_true, bne_iff_ne] at hn
    exact hn.1.1.1
  rw [resolve, if_neg hne, FilePath.base, FilePath.isAbsolute_name hn, FilePath.parts_name hn]
  rfl

theorem resolve_join {fs : FileSystem} {p : FilePath} {place : Place} {name : String}
    (hp : fs.resolve p = .ok place) (hf : fs.object? place.location = some .folder)
    (hn : FilePath.isName name = true) :
    fs.resolve (p.join name) = fs.walk place.links place.location [name] := by
  unfold resolve at hp
  split at hp
  · cases hp
  · next hne =>
      have hne' : (p.join name).text ≠ "" := by
        unfold FilePath.join
        simp only [FilePath.isName, Bool.and_eq_true, bne_iff_ne] at hn
        split
        · simpa using hn.1.1.1
        · split <;> simp [hne]
      rw [resolve, if_neg hne', FilePath.base, FilePath.isAbsolute_join hne]
      rw [FilePath.base] at hp
      rcases FilePath.parts_join hne hn with h | ⟨front, hfront, h⟩
      · rw [h, walk_append, hp]; rfl
      · rw [hfront, walk_append] at hp
        rw [h, walk_append]
        cases hw : fs.walk 0 (if p.isAbsolute then [] else fs.workingFolder) front with
        | error e => rw [hw] at hp; cases hp
        | ok q =>
          rw [hw] at hp
          have hq : fs.walk q.links q.location [""] = .ok place := hp
          rw [walk] at hq
          split at hq
          · simp only [true_or, if_true, walk] at hq
            cases hq
            rfl
          · cases hq

end FileSystem

end LeafPaths
