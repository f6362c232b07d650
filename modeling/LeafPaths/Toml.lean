/-!
Configuration files: tables of keys with texts, flags, numbers, lists and tables.

A table remembers how it came to be, because that decides what may still be added to it: a table in
braces is complete, one with a header is not continued by dotted keys, and one made by dotted keys
gets no header.
-/

namespace LeafPaths

namespace Toml

inductive Opening where
  | header
  /-- On the way of a header to a table below. -/
  | passed
  | dotted
  | braces
deriving DecidableEq, Repr

end Toml

inductive Toml where
  | text (s : String)
  | flag (b : Bool)
  | number (s : String)
  | list (items : List Toml)
  /-- A list of tables with headers, to which further headers may add. -/
  | tables (items : List Toml)
  | table (opening : Toml.Opening) (fields : List (String × Toml))
deriving Inhabited

namespace Toml

abbrev Fields := List (String × Toml)

def get? (t : Toml) : List String → Option Toml
  | [] => some t
  | k :: rest =>
    match t with
    | .table _ fields =>
      match fields.lookup k with
      | some inner => inner.get? rest
      | none => none
    | _ => none

def isTable : Toml → Bool
  | .table _ _ => true
  | _ => false

def texts? : Toml → Option (List String)
  | .list items => items.mapM fun
    | .text s => some s
    | _ => none
  | _ => none

namespace Fields

def set (k : String) (v : Toml) (fields : Fields) : Fields :=
  fields.map fun f => if f.1 = k then (k, v) else f

/-- Changes the table behind a path of keys, which may be `dotted` or part of a header. Tables that
are missing are made, and the way through a list of tables goes through the last one. -/
def alter (dotted : Bool) (change : Opening → Fields → Option Fields) (opening : Opening) :
    List String → Fields → Option Fields
  | [], fields => change opening fields
  | k :: rest, fields =>
    match fields.lookup k with
    | none =>
      let made : Opening := if dotted then .dotted else .passed
      (alter dotted change made rest []).map fun inner => fields ++ [(k, .table made inner)]
    | some (.table o inner) =>
      if o = .braces ∨ dotted ∧ o = .header then none
      else (alter dotted change o rest inner).map fun inner => set k (.table o inner) fields
    | some (.tables items) =>
      match items.getLast? with
      | some (.table o inner) =>
        (alter dotted change o rest inner).map fun inner =>
          set k (.tables (items.dropLast ++ [.table o inner])) fields
      | _ => none
    | some _ => none

def addValue (path : List String) (key : String) (v : Toml) (fields : Fields) : Option Fields :=
  let dotted := !path.isEmpty
  alter dotted (fun o inner =>
    if (o = .dotted) = path.isEmpty || (inner.lookup key).isSome then none
    else some (inner ++ [(key, v)])) .header path fields

/-- Opens a table by its header. It may have been passed before, but is opened once. -/
def openTable (path : List String) (key : String) (fields : Fields) : Option Fields :=
  alter false (fun _ inner =>
    match inner.lookup key with
    | none => some (inner ++ [(key, .table .header [])])
    | some (.table .passed below) => some (set key (.table .header below) inner)
    | some _ => none) .header path fields

def openNext (path : List String) (key : String) (fields : Fields) : Option Fields :=
  alter false (fun _ inner =>
    match inner.lookup key with
    | none => some (inner ++ [(key, .tables [.table .header []])])
    | some (.tables items) => some (set key (.tables (items ++ [.table .header []])) inner)
    | some _ => none) .header path fields

end Fields

end Toml

end LeafPaths
