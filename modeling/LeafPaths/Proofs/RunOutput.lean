import Mathlib.Algebra.Ring.Nat
import LeafPaths.Run

/-!
What a run writes and counts. Both depend on nothing but the trees of the
sources that can be read, in their order. A source that cannot be read is either
counted and otherwise without effect, or it ends the run before anything is
written.
-/

namespace LeafPaths

namespace Source

/-- The trees of the sources that can be read, in their order. -/
def trees (sources : List Source) : List Tree := sources.filterMap fun s => s.tree.toOption

/-- The records of all sources that can be read, source after source. -/
def rendering (format : Format) (sources : List Source) : String :=
  String.join ((trees sources).map fun t => format.render t.contexts)

/-- What is counted of sources if those that cannot be read are skipped. -/
def totals (sources : List Source) : Summary :=
  { files := (trees sources).length
    skipped := sources.length - (trees sources).length
    functions := ((trees sources).map fun t => t.functionContexts.length).sum
    triples := ((trees sources).map fun t => t.contexts.length).sum }

def IsReadable (s : Source) : Prop := ∃ t, s.tree = .ok t

theorem isReadable_iff {s : Source} : s.IsReadable ↔ ∃ f, SourceFile.parse s.content = .ok f := by
  unfold IsReadable tree
  cases SourceFile.parse s.content with
  | ok f => simp
  | error f => simp

theorem isReadable_iff_isOk {s : Source} : s.IsReadable ↔ s.tree.isOk = true := by
  unfold IsReadable
  cases s.tree with
  | ok t => simp [Except.isOk, Except.toBool]
  | error e => simp [Except.isOk, Except.toBool]

theorem tree_error {s : Source} {e : ExtractError} (h : s.tree = .error e) :
    ∃ position complaint, e = .parse s.path.text position complaint := by
  unfold tree at h
  split at h
  · cases h
  · cases h
    exact ⟨_, _, rfl⟩

theorem isReadable_or_error (s : Source) : s.IsReadable ∨ ∃ e, s.tree = .error e := by
  cases h : s.tree with
  | ok t => exact .inl ⟨t, h⟩
  | error e => exact .inr ⟨e, rfl⟩

theorem trees_cons_ok {s : Source} {t : Tree} (h : s.tree = .ok t) (rest : List Source) :
    trees (s :: rest) = t :: trees rest := by
  simp [trees, h, Except.toOption]

theorem trees_cons_error {s : Source} {e : ExtractError} (h : s.tree = .error e)
    (rest : List Source) : trees (s :: rest) = trees rest := by
  simp [trees, h, Except.toOption]

theorem trees_append (front back : List Source) :
    trees (front ++ back) = trees front ++ trees back := by
  simp [trees]

theorem length_trees_le (sources : List Source) : (trees sources).length ≤ sources.length :=
  List.length_filterMap_le _ _

theorem length_trees_of_readable {sources : List Source} (h : ∀ s ∈ sources, s.IsReadable) :
    (trees sources).length = sources.length := by
  induction sources with
  | nil => rfl
  | cons s rest ih =>
      obtain ⟨⟨t, ht⟩, hrest⟩ := List.forall_mem_cons.mp h
      rw [trees_cons_ok ht, List.length_cons, List.length_cons, ih hrest]

theorem trees_of_refused {sources : List Source} (h : ∀ s ∈ sources, ∃ e, s.tree = .error e) :
    trees sources = [] := by
  induction sources with
  | nil => rfl
  | cons s rest ih =>
      obtain ⟨⟨e, he⟩, hrest⟩ := List.forall_mem_cons.mp h
      rw [trees_cons_error he, ih hrest]

theorem readable_or_first (sources : List Source) :
    (∀ s ∈ sources, s.IsReadable) ∨
      ∃ before s rest e, sources = before ++ s :: rest ∧ (∀ b ∈ before, b.IsReadable) ∧
        s.tree = .error e := by
  induction sources with
  | nil => exact .inl (by simp)
  | cons s rest ih =>
      rcases s.isReadable_or_error with hs | ⟨e, he⟩
      · rcases ih with hall | ⟨before, s', rest', e, rfl, hbefore, he⟩
        · exact .inl (List.forall_mem_cons.mpr ⟨hs, hall⟩)
        · exact .inr ⟨s :: before, s', rest', e, rfl, List.forall_mem_cons.mpr ⟨hs, hbefore⟩, he⟩
      · exact .inr ⟨[], s, rest, e, rfl, by simp, he⟩

end Source

/-! ### Extraction -/

namespace Extraction

theorem ofSources_cons (keepGoing : Bool) (s : Source) (rest : List Source) :
    ofSources keepGoing (s :: rest) =
      match s.contexts with
      | .ok f => (ofSources keepGoing rest).map fun e => ⟨f :: e.files, e.skipped⟩
      | .error err =>
        if keepGoing then (ofSources keepGoing rest).map fun e => ⟨e.files, e.skipped + 1⟩
        else .error err := by
  -- the equations that rewriting would use are slow to make
  rfl

theorem ofSources_cons_ok {s : Source} {t : Tree} (h : s.tree = .ok t) (keepGoing : Bool)
    (rest : List Source) :
    ofSources keepGoing (s :: rest) =
      (ofSources keepGoing rest).map fun e => ⟨.ofTree s.path t :: e.files, e.skipped⟩ := by
  have hcontexts : s.contexts = .ok (.ofTree s.path t) := by
    rw [Source.contexts, h]
    rfl
  rw [ofSources_cons, hcontexts]

theorem ofSources_cons_error {s : Source} {err : ExtractError} (h : s.tree = .error err)
    (keepGoing : Bool) (rest : List Source) :
    ofSources keepGoing (s :: rest) =
      if keepGoing then (ofSources keepGoing rest).map fun e => ⟨e.files, e.skipped + 1⟩
      else .error err := by
  have hcontexts : s.contexts = .error err := by
    rw [Source.contexts, h]
    rfl
  rw [ofSources_cons, hcontexts]

/-- An extraction that holds the contexts of all sources that can be read. -/
structure Covers (e : Extraction) (sources : List Source) : Prop where
  triples : e.files.map FileContexts.triples = (Source.trees sources).map Tree.contexts
  functions : e.files.map FileContexts.functions =
    (Source.trees sources).map fun t => t.functionContexts.length
  skipped : e.skipped + (Source.trees sources).length = sources.length

namespace Covers

variable {e : Extraction} {s : Source} {rest : List Source}

theorem nil : Covers ⟨[], 0⟩ [] := ⟨rfl, rfl, rfl⟩

theorem read {t : Tree} (h : e.Covers rest) (hs : s.tree = .ok t) :
    Covers ⟨.ofTree s.path t :: e.files, e.skipped⟩ (s :: rest) := by
  refine ⟨?_, ?_, ?_⟩ <;> rw [Source.trees_cons_ok hs]
  · simp [h.triples, FileContexts.ofTree, Tree.contexts]
  · simp [h.functions, FileContexts.ofTree]
  · rw [List.length_cons, List.length_cons, ← h.skipped, Nat.add_assoc]

theorem skip {err : ExtractError} (h : e.Covers rest) (hs : s.tree = .error err) :
    Covers ⟨e.files, e.skipped + 1⟩ (s :: rest) := by
  refine ⟨?_, ?_, ?_⟩ <;> rw [Source.trees_cons_error hs]
  · exact h.triples
  · exact h.functions
  · rw [List.length_cons, ← h.skipped, Nat.add_right_comm]

end Covers

theorem ofSources_eq_ok {keepGoing : Bool} {sources : List Source}
    (h : keepGoing = true ∨ ∀ s ∈ sources, s.IsReadable) :
    ∃ e, ofSources keepGoing sources = .ok e ∧ e.Covers sources := by
  induction sources with
  | nil => exact ⟨_, rfl, .nil⟩
  | cons s rest ih =>
      have hrest : keepGoing = true ∨ ∀ s ∈ rest, s.IsReadable :=
        h.imp_right fun hall => (List.forall_mem_cons.mp hall).2
      obtain ⟨e, he, hcovers⟩ := ih hrest
      rcases s.isReadable_or_error with ⟨t, ht⟩ | ⟨err, herr⟩
      · have hcons := ofSources_cons_ok ht keepGoing rest
        rw [he] at hcons
        exact ⟨_, hcons, hcovers.read ht⟩
      · rcases h with rfl | hall
        · have hcons := ofSources_cons_error herr true rest
          rw [he] at hcons
          exact ⟨_, hcons, hcovers.skip herr⟩
        · obtain ⟨t, ht⟩ := (List.forall_mem_cons.mp hall).1
          rw [herr] at ht
          cases ht

theorem ofSources_eq_error {before rest : List Source} {s : Source} {e : ExtractError}
    (hbefore : ∀ b ∈ before, b.IsReadable) (hs : s.tree = .error e) :
    ofSources false (before ++ s :: rest) = .error e := by
  induction before with
  | nil => exact ofSources_cons_error hs false rest
  | cons b before ih =>
      obtain ⟨⟨t, ht⟩, hbefore⟩ := List.forall_mem_cons.mp hbefore
      rw [List.cons_append, ofSources_cons_ok ht, ih hbefore, Except.map]

private theorem foldl_add_eq {α : Type} (g : α → Nat) (xs : List α) (n : Nat) :
    xs.foldl (fun n x => n + g x) n = n + (xs.map g).sum := by
  induction xs generalizing n with
  | nil => rfl
  | cons x xs ih => rw [List.foldl_cons, ih, List.map_cons, List.sum_cons, Nat.add_assoc]

theorem Covers.summary_eq {e : Extraction} {sources : List Source} (h : e.Covers sources) :
    e.summary = Source.totals sources := by
  have hfiles : e.files.length = (Source.trees sources).length := by
    simpa using congrArg List.length h.functions
  have hlengths : e.files.map (fun f => f.triples.length) =
      (Source.trees sources).map fun t => t.contexts.length := by
    simpa [Function.comp_def] using congrArg (List.map List.length) h.triples
  have hskipped : e.skipped = sources.length - (Source.trees sources).length :=
    Nat.eq_sub_of_add_eq h.skipped
  simp only [summary, Source.totals, foldl_add_eq, hfiles, hlengths, hskipped, h.functions,
    Nat.zero_add]

/-! ### Writing -/

abbrev openSink (written : ByteArray) : Sink := ⟨written, none, true⟩

theorem writeFile_open (format : Format) (f : FileContexts) (written : ByteArray) :
    writeFile format f (openSink written) =
      (openSink (written ++ (format.render f.triples).toUTF8), .ok ()) := by
  rw [writeFile, Sink.writeEach_eq_write, Format.join_pieces]
  cases format <;> simp [Sink.write, Sink.room, Sink.flush, Format.flushesEach]

theorem writeFiles_open (format : Format) (files : List FileContexts) (written : ByteArray) :
    writeFiles format files (openSink written) =
      (openSink (written ++ (String.join (files.map fun f => format.render f.triples)).toUTF8),
        .ok ()) := by
  induction files generalizing written with
  | nil => simp [writeFiles]
  | cons f rest ih =>
      rw [writeFiles, writeFile_open]
      simp [ih, ByteArray.append_assoc]

theorem Covers.write_open {e : Extraction} {sources : List Source} (h : e.Covers sources)
    (format : Format) (written : ByteArray) :
    e.write format (openSink written) =
      (openSink (written ++ (Source.rendering format sources).toUTF8),
        .ok (Source.totals sources)) := by
  have hrecords : e.files.map (fun f => format.render f.triples) =
      (Source.trees sources).map fun t => format.render t.contexts := by
    simpa [Function.comp_def] using congrArg (List.map format.render) h.triples
  rw [write, writeFiles_open, hrecords]
  simp [Sink.flush, Source.rendering, h.summary_eq]

end Extraction

/-! ### Runs -/

namespace Source

theorem totals_skipped_of_readable {sources : List Source} (h : ∀ s ∈ sources, s.IsReadable) :
    (totals sources).skipped = 0 := by
  simp [totals, length_trees_of_readable h]

theorem trees_insert {front bad back : List Source} (h : ∀ s ∈ bad, ∃ e, s.tree = .error e) :
    trees (front ++ bad ++ back) = trees (front ++ back) := by
  simp [trees_append, trees_of_refused h]

theorem totals_insert {front bad back : List Source} (h : ∀ s ∈ bad, ∃ e, s.tree = .error e) :
    totals (front ++ bad ++ back) =
      { totals (front ++ back) with skipped := (totals (front ++ back)).skipped + bad.length } := by
  have hle := length_trees_le (front ++ back)
  simp only [totals, trees_insert h, List.length_append] at hle ⊢
  congr 1
  omega

end Source

namespace RunConfig

open Extraction (openSink)

theorem run_open (c : RunConfig) (sources : List Source)
    (h : c.keepGoing = true ∨ ∀ s ∈ sources, s.IsReadable) (written : ByteArray) :
    c.run sources (openSink written) =
      (openSink (written ++ (Source.rendering c.format sources).toUTF8),
        .ok (Source.totals sources)) := by
  obtain ⟨e, he, hcovers⟩ := Extraction.ofSources_eq_ok h
  rw [run, he]
  exact hcovers.write_open c.format written

theorem run_refused {c : RunConfig} {before rest : List Source} {s : Source} {e : ExtractError}
    (hc : c.keepGoing = false) (hbefore : ∀ b ∈ before, b.IsReadable) (hs : s.tree = .error e)
    (sink : Sink) : c.run (before ++ s :: rest) sink = (sink, .error (.extract e)) := by
  rw [run, hc, Extraction.ofSources_eq_error hbefore hs]

/-- A run into a sink that takes everything. If it keeps going it succeeds, writes
the records of the sources that can be read and counts them, and sources that
cannot be read change nothing but how many were skipped, wherever they stand. If
it does not, it does the same where all sources can be read; otherwise it fails
with what is wrong with the first that cannot, and nothing is written. -/
theorem run_unlimited (format : Format) (sources : List Source) (written : ByteArray) :
    let sink : Sink := ⟨written, none, true⟩
    let done : Sink := ⟨written ++ (Source.rendering format sources).toUTF8, none, true⟩
    run ⟨format, true⟩ sources sink = (done, .ok (Source.totals sources)) ∧
      (∀ front bad back : List Source, sources = front ++ back →
        (∀ s ∈ bad, ∃ e, s.tree = .error e) →
        run ⟨format, true⟩ (front ++ bad ++ back) sink =
          (done, .ok { Source.totals sources with
            skipped := (Source.totals sources).skipped + bad.length })) ∧
      ((∀ s ∈ sources, s.IsReadable) →
        run ⟨format, false⟩ sources sink =
          (done, .ok { Source.totals sources with skipped := 0 })) ∧
      ((∃ s ∈ sources, ¬ s.IsReadable) →
        ∃ before s rest position complaint, sources = before ++ s :: rest ∧
          (∀ b ∈ before, b.IsReadable) ∧
          s.tree = .error (.parse s.path.text position complaint) ∧
          run ⟨format, false⟩ sources sink =
            (sink, .error (.extract (.parse s.path.text position complaint)))) := by
  intro sink done
  refine ⟨run_open ⟨format, true⟩ sources (.inl rfl) written, ?_, ?_, ?_⟩
  · rintro front bad back rfl hbad
    have hrun := run_open ⟨format, true⟩ (front ++ bad ++ back) (.inl rfl) written
    rwa [Source.totals_insert hbad, Source.rendering, Source.trees_insert hbad] at hrun
  · intro hall
    have hrun := run_open ⟨format, false⟩ sources (.inr hall) written
    rwa [← Source.totals_skipped_of_readable hall]
  · rintro ⟨s, hs, hrefused⟩
    rcases Source.readable_or_first sources with hall | ⟨before, s, rest, e, rfl, hbefore, he⟩
    · exact absurd (hall s hs) hrefused
    · obtain ⟨position, complaint, rfl⟩ := Source.tree_error he
      exact ⟨before, s, rest, position, complaint, rfl, hbefore, he,
        run_refused rfl hbefore he sink⟩

/-- A source that cannot be read is skipped behind one that can, and fatal in
front of it. -/
theorem run_unlimited_refused :
    let good : Source := ⟨⟨"a.rs"⟩, "fn f(a:u8)\x7b\x7d"⟩
    let bad : Source := ⟨⟨"b.rs"⟩, "\x7d"⟩
    let text := "f,[Ident]UP[FunctionDecl]DOWN[Params]DOWN[Param]DOWN[Ident],a\n" ++
      "f,[Ident]UP[FunctionDecl]DOWN[Params]DOWN[Param]DOWN[Ident],u8\n" ++
      "a,[Ident]UP[Param]DOWN[Ident],u8\n"
    run ⟨.raw, true⟩ [good, bad] .unlimited = (⟨text.toUTF8, none, true⟩, .ok ⟨1, 1, 1, 3⟩) ∧
      run ⟨.raw, false⟩ [good] .unlimited = (⟨text.toUTF8, none, true⟩, .ok ⟨1, 0, 1, 3⟩) ∧
      ∃ position complaint, run ⟨.raw, false⟩ [bad, good] .unlimited =
        (.unlimited, .error (.extract (.parse "b.rs" position complaint))) := by
  intro good bad text
  have hbad : ¬ bad.IsReadable := by
    rw [Source.isReadable_iff_isOk]
    decide +kernel
  have hgood : good.IsReadable := by
    rw [Source.isReadable_iff_isOk]
    decide +kernel
  have htext : Source.rendering .raw [good] = text := by decide +kernel
  have htotals : Source.totals [good] = ⟨1, 0, 1, 3⟩ := by decide +kernel
  refine ⟨?_, ?_, ?_⟩
  · obtain ⟨-, hinsert, -⟩ := run_unlimited .raw [good] .empty
    have hrefused : ∀ s ∈ [bad], ∃ e, s.tree = .error e := by
      simpa using bad.isReadable_or_error.resolve_left hbad
    have hrun := hinsert [good] [bad] [] rfl hrefused
    rw [htext, htotals, ByteArray.empty_append] at hrun
    exact hrun
  · obtain ⟨-, -, hall, -⟩ := run_unlimited .raw [good] .empty
    have hrun := hall (by simpa using hgood)
    rw [htext, htotals, ByteArray.empty_append] at hrun
    exact hrun
  · obtain ⟨-, -, -, hrefused⟩ := run_unlimited .raw [bad, good] .empty
    obtain ⟨before, s, rest, position, complaint, hsplit, hbefore, -, hrun⟩ :=
      hrefused ⟨bad, by simp, hbad⟩
    cases before with
    | nil =>
        cases hsplit
        exact ⟨position, complaint, hrun⟩
    | cons b before =>
        have hfirst : bad = b := (List.cons.inj hsplit).1
        exact absurd (hfirst ▸ hbefore b (by simp)) hbad

end RunConfig

end LeafPaths
