import LeafPaths.Record

/-!
Quoted records, written and read back. What a text of quoted records may look
like is said by a grammar, in which quotes are always allowed and a field without
them holds neither separators nor quotes. A reader goes through a text one
character at a time and accepts what the grammar allows, and nothing else. Every
record ends with a line feed, the last one too.
-/

namespace LeafPaths

namespace Csv

/-! ### The grammar -/

/-- The characters that end a field or a record, or stand around a field. -/
def IsSpecial (c : Char) : Prop := c = ',' ∨ c = '"' ∨ c = '\r' ∨ c = '\n'

/-- A text inside quotes: each quote is there twice. -/
def inner (s : List Char) : List Char := s.flatMap fun c => if c = '"' then ['"', '"'] else [c]

inductive SpellsField : String → List Char → Prop where
  | bare {s : String} : (∀ c ∈ s.toList, ¬ IsSpecial c) → SpellsField s s.toList
  | quoted (s : String) : SpellsField s ('"' :: inner s.toList ++ ['"'])

inductive SpellsRecord : List String → List Char → Prop where
  | last {s : String} {w : List Char} : SpellsField s w → SpellsRecord [s] (w ++ ['\n'])
  | more {s : String} {w : List Char} {fields : List String} {rest : List Char} :
      SpellsField s w → SpellsRecord fields rest → SpellsRecord (s :: fields) (w ++ ',' :: rest)

inductive Spells : List (List String) → List Char → Prop where
  | nil : Spells [] []
  | cons {fields : List String} {w : List Char} {records : List (List String)} {rest : List Char} :
      SpellsRecord fields w → Spells records rest → Spells (fields :: records) (w ++ rest)

/-! ### The reader -/

/-- Where a reader stands in a field. Behind a quote inside quotes it cannot tell
yet whether that one closed the field or is the first of two. -/
inductive Place where
  | start
  | bare
  | quoted
  | closing
deriving DecidableEq, Repr

/-- What has been read: the records and the fields that are complete, and the
characters of the field that is being read. -/
structure Reader where
  records : List (List String)
  fields : List String
  field : List Char
  place : Place
deriving Repr

namespace Reader

def empty : Reader := ⟨[], [], [], .start⟩

def take (r : Reader) (c : Char) (place : Place) : Reader :=
  { r with field := r.field ++ [c], place }

def endField (r : Reader) : Reader :=
  { r with fields := r.fields ++ [String.ofList r.field], field := [], place := .start }

def endRecord (r : Reader) : Reader :=
  { r with
    records := r.records ++ [r.fields ++ [String.ofList r.field]]
    fields := []
    field := []
    place := .start }

def step (r : Reader) (c : Char) : Option Reader :=
  if r.place = .quoted then
    some (if c = '"' then { r with place := .closing } else r.take c .quoted)
  else if c = ',' then some r.endField
  else if c = '\n' then some r.endRecord
  else if c = '"' then
    match r.place with
    | .start => some { r with place := .quoted }
    | .closing => some (r.take '"' .quoted)
    | _ => none
  else if c = '\r' ∨ r.place = .closing then none
  else some (r.take c .bare)

def finish (r : Reader) : Option (List (List String)) :=
  if r.place = .start ∧ r.fields = [] then some r.records else none

end Reader

def read? (s : String) : Option (List (List String)) :=
  (s.toList.foldlM Reader.step .empty).bind Reader.finish

/-! ### The reader accepts the grammar -/

namespace Reader

variable {records : List (List String)} {fields : List String} {field : List Char} {place : Place}

theorem step_comma (h : place ≠ .quoted) :
    step ⟨records, fields, field, place⟩ ',' =
      some ⟨records, fields ++ [String.ofList field], [], .start⟩ := by
  simp [step, h, endField]

theorem step_lineFeed (h : place ≠ .quoted) :
    step ⟨records, fields, field, place⟩ '\n' =
      some ⟨records ++ [fields ++ [String.ofList field]], [], [], .start⟩ := by
  simp [step, h, endRecord]

theorem step_bare {c : Char} (hc : ¬ IsSpecial c) (hp : place = .start ∨ place = .bare) :
    step ⟨records, fields, field, place⟩ c = some ⟨records, fields, field ++ [c], .bare⟩ := by
  simp only [IsSpecial, not_or] at hc
  rcases hp with rfl | rfl <;> simp [step, hc, take]

theorem run_bare (field : List Char) {s : List Char} (hs : ∀ c ∈ s, ¬ IsSpecial c)
    (hp : place = .start ∨ place = .bare) :
    ∃ after, after ≠ .quoted ∧
      s.foldlM step ⟨records, fields, field, place⟩ =
        some ⟨records, fields, field ++ s, after⟩ := by
  induction s generalizing field place with
  | nil =>
      refine ⟨place, ?_, by simp⟩
      rcases hp with rfl | rfl <;> decide
  | cons c s ih =>
      obtain ⟨hc, hs⟩ := List.forall_mem_cons.mp hs
      obtain ⟨after, hafter, hrun⟩ := ih (field ++ [c]) hs (.inr rfl)
      refine ⟨after, hafter, ?_⟩
      rw [List.foldlM_cons, step_bare hc hp]
      simpa using hrun

/-- Inside quotes a run stays there: of two quotes the first is taken for the end
of the field and the second takes that back. -/
theorem run_inner (field s : List Char) :
    (inner s).foldlM step ⟨records, fields, field, .quoted⟩ =
      some ⟨records, fields, field ++ s, .quoted⟩ := by
  induction s generalizing field with
  | nil => simp [inner]
  | cons c s ih =>
      have hrest := ih (field ++ [c])
      by_cases hc : c = '"'
      · subst hc
        simpa [inner, step, take] using hrest
      · simpa [inner, step, take, hc] using hrest

/-- Behind a field the reader knows the field and stands where a separator ends it. -/
theorem run_field (records : List (List String)) (fields : List String) {s : String}
    {w : List Char} (h : SpellsField s w) :
    ∃ place, place ≠ .quoted ∧
      w.foldlM step ⟨records, fields, [], .start⟩ = some ⟨records, fields, s.toList, place⟩ := by
  cases h with
  | bare hs => exact run_bare [] hs (.inl rfl)
  | quoted =>
      have hopen : step ⟨records, fields, [], .start⟩ '"' =
          some ⟨records, fields, [], .quoted⟩ := by simp [step]
      refine ⟨.closing, by decide, ?_⟩
      rw [List.cons_append, List.foldlM_cons, hopen, Option.bind_eq_bind, Option.bind_some,
        List.foldlM_append, run_inner]
      simp [step]

theorem run_record {added : List String} {w : List Char} (h : SpellsRecord added w) :
    w.foldlM step ⟨records, fields, [], .start⟩ =
      some ⟨records ++ [fields ++ added], [], [], .start⟩ := by
  induction h generalizing fields with
  | last hs =>
      obtain ⟨place, hplace, hrun⟩ := run_field records fields hs
      rw [List.foldlM_append, hrun]
      simp [step_lineFeed hplace]
  | more hs _ ih =>
      obtain ⟨place, hplace, hrun⟩ := run_field records fields hs
      rw [List.foldlM_append, hrun]
      simp [step_comma hplace, ih]

theorem run_spells {added : List (List String)} {w : List Char} (h : Spells added w) :
    w.foldlM step ⟨records, [], [], .start⟩ = some ⟨records ++ added, [], [], .start⟩ := by
  induction h generalizing records with
  | nil => simp
  | cons hfields _ ih =>
      rw [List.foldlM_append, run_record hfields]
      simp [ih]

/-! ### The reader accepts nothing else -/

/-- The text of complete fields, each with the comma behind it. -/
inductive SpellsOpen : List String → List Char → Prop where
  | nil : SpellsOpen [] []
  | snoc {fields : List String} {w : List Char} {s : String} {u : List Char} :
      SpellsOpen fields w → SpellsField s u → SpellsOpen (fields ++ [s]) (w ++ u ++ [','])

/-- The text of a field as far as it has been read. -/
inductive SpellsPart : Place → List Char → List Char → Prop where
  | start : SpellsPart .start [] []
  | bare {s : List Char} : (∀ c ∈ s, ¬ IsSpecial c) → SpellsPart .bare s s
  | quoted (s : List Char) : SpellsPart .quoted s ('"' :: inner s)
  | closing (s : List Char) : SpellsPart .closing s ('"' :: inner s ++ ['"'])

/-- The reader has come through this text. -/
def Passed (r : Reader) (s : List Char) : Prop :=
  ∃ before line part, s = before ++ line ++ part ∧
    Spells r.records before ∧ SpellsOpen r.fields line ∧ SpellsPart r.place r.field part

theorem SpellsOpen.eq_nil {line : List Char} (h : SpellsOpen fields line) (hf : fields = []) :
    line = [] := by
  cases h with
  | nil => rfl
  | snoc => simp at hf

theorem SpellsOpen.append {rest : List String} {w line : List Char} (h : SpellsOpen fields line)
    (hrest : SpellsRecord rest w) : SpellsRecord (fields ++ rest) (line ++ w) := by
  induction h generalizing rest w with
  | nil => exact hrest
  | snoc _ hs ih => simpa using ih (.more hs hrest)

theorem spells_snoc {w before : List Char} (h : Spells records before)
    (hw : SpellsRecord fields w) : Spells (records ++ [fields]) (before ++ w) := by
  induction h with
  | nil => simpa using Spells.cons hw .nil
  | cons hfields _ ih => simpa using Spells.cons hfields ih

theorem SpellsPart.toField {s w : List Char} (h : SpellsPart place s w) (hp : place ≠ .quoted) :
    SpellsField (String.ofList s) w := by
  cases h with
  | start => exact .bare (s := "") (by simp)
  | bare hs => simpa using SpellsField.bare (s := String.ofList s) (by simpa using hs)
  | quoted => exact absurd rfl hp
  | closing => simpa using SpellsField.quoted (String.ofList s)

theorem SpellsPart.take_bare {s w : List Char} {c : Char} (h : SpellsPart place s w)
    (hp : place = .start ∨ place = .bare) (hc : ¬ IsSpecial c) :
    SpellsPart .bare (s ++ [c]) (w ++ [c]) := by
  cases h with
  | start => exact .bare (by simpa using hc)
  | bare hs =>
      refine .bare ?_
      intro d hd
      rcases List.mem_append.mp hd with hd | hd
      · exact hs d hd
      · rwa [List.mem_singleton.mp hd]
  | quoted | closing => simp at hp

theorem step_inside {r r' : Reader} {c : Char} (h : r.step c = some r')
    (hc : r.place = .quoted ∨ c ≠ ',' ∧ c ≠ '\n') :
    r'.records = r.records ∧ r'.fields = r.fields ∧
      ∀ part, SpellsPart r.place r.field part → SpellsPart r'.place r'.field (part ++ [c]) := by
  obtain ⟨records, fields, field, place⟩ := r
  by_cases hplace : place = .quoted
  · subst hplace
    by_cases hquote : c = '"'
    · subst hquote
      cases h
      refine ⟨rfl, rfl, ?_⟩
      rintro _ ⟨⟩
      exact .closing field
    · simp only [step, if_true, if_neg hquote] at h
      cases h
      refine ⟨rfl, rfl, ?_⟩
      rintro _ ⟨⟩
      simpa [take, inner, hquote] using SpellsPart.quoted (field ++ [c])
  · obtain ⟨hcomma, hlf⟩ := hc.resolve_left hplace
    simp only [step, if_neg hplace, if_neg hcomma, if_neg hlf] at h
    by_cases hquote : c = '"'
    · subst hquote
      cases place with
      | start =>
          cases h
          refine ⟨rfl, rfl, ?_⟩
          rintro _ ⟨⟩
          exact .quoted []
      | closing =>
          cases h
          refine ⟨rfl, rfl, ?_⟩
          rintro _ ⟨⟩
          simpa [take, inner] using SpellsPart.quoted (field ++ ['"'])
      | bare | quoted => cases h
    · simp only [if_neg hquote, Option.ite_none_left_eq_some, not_or] at h
      obtain ⟨⟨hreturn, hclosing⟩, ⟨⟩⟩ := h
      have hbare : place = .start ∨ place = .bare := by
        cases place <;> simp_all
      refine ⟨rfl, rfl, ?_⟩
      intro part hpart
      exact hpart.take_bare hbare (by simp [IsSpecial, *])

theorem step_passed {r r' : Reader} {s : List Char} {c : Char} (h : r.Passed s)
    (hstep : r.step c = some r') : r'.Passed (s ++ [c]) := by
  obtain ⟨before, line, part, rfl, hbefore, hline, hpart⟩ := h
  by_cases hc : r.place = .quoted ∨ c ≠ ',' ∧ c ≠ '\n'
  · obtain ⟨hrecords, hfields, hmore⟩ := step_inside hstep hc
    refine ⟨before, line, part ++ [c], by simp, ?_, ?_, hmore part hpart⟩
    · rwa [hrecords]
    · rwa [hfields]
  · obtain ⟨hplace, hsep⟩ := not_or.mp hc
    have hfield := hpart.toField hplace
    by_cases hcomma : c = ','
    · subst hcomma
      rw [step_comma hplace] at hstep
      cases hstep
      exact ⟨before, line ++ part ++ [','], [], by simp, hbefore, .snoc hline hfield, .start⟩
    · obtain rfl : c = '\n' := by simpa [hcomma] using hsep
      rw [step_lineFeed hplace] at hstep
      cases hstep
      refine ⟨before ++ (line ++ (part ++ ['\n'])), [], [], by simp, ?_, .nil, .start⟩
      exact spells_snoc hbefore (hline.append (.last hfield))

theorem run_passed {r r' : Reader} {s w : List Char} (h : r.Passed s)
    (hrun : w.foldlM step r = some r') : r'.Passed (s ++ w) := by
  induction w generalizing r s with
  | nil =>
      cases hrun
      simpa using h
  | cons c w ih =>
      rw [List.foldlM_cons] at hrun
      obtain ⟨between, hstep, hrest⟩ := Option.bind_eq_some_iff.mp hrun
      simpa using ih (step_passed h hstep) hrest

end Reader

theorem read?_eq_some_iff (s : String) (records : List (List String)) :
    read? s = some records ↔ Spells records s.toList := by
  constructor
  · intro h
    obtain ⟨r, hrun, hfinish⟩ := Option.bind_eq_some_iff.mp h
    have hempty : Reader.empty.Passed [] := ⟨[], [], [], rfl, .nil, .nil, .start⟩
    obtain ⟨before, line, part, hs, hbefore, hline, hpart⟩ := Reader.run_passed hempty hrun
    obtain ⟨done, fields, field, place⟩ := r
    simp only [Reader.finish, Option.ite_none_right_eq_some] at hfinish
    obtain ⟨⟨rfl, rfl⟩, ⟨⟩⟩ := hfinish
    cases hpart
    obtain rfl : s.toList = before := by simpa [hline.eq_nil rfl] using hs
    exact hbefore
  · intro h
    rw [read?, Reader.empty, Reader.run_spells h]
    simp [Reader.finish]

/-- Quotes that nothing needs are read; a quote within a bare field, a carriage
return outside quotes and a record without an end are not. -/
example : read? "\"a\",\n" = some [["a", ""]] ∧ read? "a\"\n" = none ∧
    read? "a\r\n" = none ∧ read? "a,b" = none := by
  decide

/-! ### What is written -/

theorem needsQuotes_iff (c : Char) : needsQuotes c = true ↔ IsSpecial c := by
  simp [needsQuotes, IsSpecial, or_assoc]

theorem any_needsQuotes_iff (s : List Char) : s.any needsQuotes = true ↔ ∃ c ∈ s, IsSpecial c := by
  simp [needsQuotes_iff]

theorem doubleQuotes_eq_inner (s : List Char) : doubleQuotes s = inner s := by
  induction s with
  | nil => rfl
  | cons c s ih => by_cases hc : c = '"' <;> simp [doubleQuotes, inner, hc, ih]

theorem field_spells (s : String) : SpellsField s (field s.toList) := by
  unfold field
  split
  · rw [doubleQuotes_eq_inner]
    exact .quoted s
  · rename_i hplain
    refine .bare ?_
    intro c hc hspecial
    exact hplain ((any_needsQuotes_iff _).mpr ⟨c, hc, hspecial⟩)

/-- Quotes stand around a field only where it could not be read without them. -/
theorem field_quoted_iff (s : List Char) :
    (∃ w, field s = '"' :: w ++ ['"']) ↔ ∃ c ∈ s, IsSpecial c := by
  rw [← any_needsQuotes_iff]
  constructor
  · rintro ⟨w, hw⟩
    by_cases hany : s.any needsQuotes = true
    · exact hany
    · rw [field, if_neg hany] at hw
      simp [hw, needsQuotes]
  · intro hany
    exact ⟨doubleQuotes s, by rw [field, if_pos hany]⟩

def row (t : Triple) : List String := [t.left, t.path, t.right]

theorem record_spells (t : Triple) : SpellsRecord (row t) (record t) := by
  have hright : SpellsRecord [t.right] (field t.right.toList ++ ['\n']) :=
    .last (field_spells t.right)
  have hpath := SpellsRecord.more (field_spells t.path) hright
  simpa [record, row] using SpellsRecord.more (field_spells t.left) hpath

theorem render_toList (ts : List Triple) :
    (Format.csv.render ts).toList = ts.flatMap record := by
  simp [Format.render, Format.record, List.flatMap_map]

theorem render_spells (ts : List Triple) :
    Spells (ts.map row) (Format.csv.render ts).toList := by
  rw [render_toList]
  induction ts with
  | nil => exact .nil
  | cons t ts ih => exact .cons (record_spells t) ih

end Csv

namespace Format

theorem render_append (f : Format) (ts us : List Triple) :
    f.render (ts ++ us) = f.render ts ++ f.render us := by
  simp [render]

theorem join_render (f : Format) (tss : List (List Triple)) :
    String.join (tss.map f.render) = f.render tss.flatten := by
  induction tss with
  | nil => rfl
  | cons ts tss ih => simp [render_append, ih]

end Format

namespace Csv

/-- Quoted records lose nothing. The text of a list of contexts is read back as
their rows, and the grammar has no other reading of it. A field stands in quotes
exactly if it holds a comma, a quote, a carriage return or a line feed. Texts that
are written one after the other make one text, which is read as all their rows. -/
theorem render_reads_back (ts us : List Triple) (files : List (List Triple)) :
    read? (Format.csv.render ts) = some (ts.map row) ∧
      (∀ records, Spells records (Format.csv.render ts).toList ↔ records = ts.map row) ∧
      (Format.csv.render ts).toList = (ts.flatMap fun t =>
        field t.left.toList ++ ',' :: field t.path.toList ++ ',' :: field t.right.toList ++
          ['\n']) ∧
      (∀ s : String, SpellsField s (field s.toList) ∧
        ((∃ w, field s.toList = '"' :: w ++ ['"']) ↔
          ∃ c ∈ s.toList, c = ',' ∨ c = '"' ∨ c = '\r' ∨ c = '\n')) ∧
      Format.csv.render (ts ++ us) = Format.csv.render ts ++ Format.csv.render us ∧
      read? (String.join (files.map Format.csv.render)) = some (files.flatten.map row) := by
  have hread : ∀ ts : List Triple, read? (Format.csv.render ts) = some (ts.map row) := by
    intro ts
    exact (read?_eq_some_iff _ _).mpr (render_spells ts)
  refine ⟨hread ts, ?_, render_toList ts, ?_, Format.render_append .csv ts us, ?_⟩
  · intro records
    rw [← read?_eq_some_iff, hread, Option.some.injEq, eq_comm]
  · intro s
    exact ⟨field_spells s, field_quoted_iff s.toList⟩
  · rw [Format.join_render, hread]

end Csv

end LeafPaths
