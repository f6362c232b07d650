import Mathlib.Data.List.Forall2
import LeafPaths.Proofs.RunOutput

/-!
Runs into a sink that takes only so many bytes. Whatever the pieces are in which
a format writes, the sink takes the beginning of all records that fits into it,
and the run fails at the source whose records go beyond that. A sink that refuses
to be flushed fails the run as well, at the first source where the format flushes
after each and at the end where it does not.
-/

namespace LeafPaths

namespace Source

/-- The number of bytes that the records of a source take. -/
def size (format : Format) (s : Source) : Nat := (rendering format [s]).toUTF8.size

def totalSize (format : Format) (sources : List Source) : Nat := (sources.map (size format)).sum

/-- The first source with which the records no longer fit into `n` bytes. -/
def IsFirstOver (format : Format) (n : Nat) (sources : List Source) (s : Source) : Prop :=
  ∃ before rest, sources = before ++ s :: rest ∧ totalSize format before ≤ n ∧
    n < totalSize format before + size format s

variable {format : Format} {n : Nat} {s : Source} {rest : List Source}

theorem totalSize_cons (format : Format) (s : Source) (rest : List Source) :
    totalSize format (s :: rest) = size format s + totalSize format rest := by
  simp [totalSize]

theorem rendering_cons (format : Format) (s : Source) (rest : List Source) :
    rendering format (s :: rest) = rendering format [s] ++ rendering format rest := by
  have htrees : trees (s :: rest) = trees [s] ++ trees rest := trees_append [s] rest
  rw [rendering, htrees, List.map_append, String.join_append]
  rfl

theorem IsFirstOver.here (h : n < size format s) : IsFirstOver format n (s :: rest) s :=
  ⟨[], rest, rfl, Nat.zero_le n, by simpa [totalSize] using h⟩

theorem IsFirstOver.later {s' : Source} (hs : size format s ≤ n)
    (h : IsFirstOver format (n - size format s) rest s') : IsFirstOver format n (s :: rest) s' := by
  obtain ⟨before, after, rfl, hbefore, hover⟩ := h
  refine ⟨s :: before, after, rfl, ?_, ?_⟩ <;> rw [totalSize_cons] <;> omega

theorem IsFirstOver.lt_totalSize (h : IsFirstOver format n rest s) : n < totalSize format rest := by
  obtain ⟨before, after, rfl, -, hover⟩ := h
  simp only [totalSize, List.map_append, List.map_cons, List.sum_append, List.sum_cons] at hover ⊢
  omega

end Source

/-- What is extracted from a source that can be read. -/
def FileContexts.IsOf (s : Source) (f : FileContexts) : Prop :=
  ∃ t, s.tree = .ok t ∧ f = .ofTree s.path t

theorem FileContexts.IsOf.render_eq {s : Source} {f : FileContexts} (h : IsOf s f)
    (format : Format) : format.render f.triples = Source.rendering format [s] := by
  obtain ⟨t, ht, rfl⟩ := h
  rw [Source.rendering, Source.trees_cons_ok ht]
  simp [Source.trees, FileContexts.ofTree, Tree.contexts]

theorem FileContexts.IsOf.path_eq {s : Source} {f : FileContexts} (h : IsOf s f) :
    f.path = s.path := by
  obtain ⟨t, -, rfl⟩ := h
  rfl

namespace Extraction

theorem ofSources_eq_ok_of_readable (keepGoing : Bool) {sources : List Source}
    (h : ∀ s ∈ sources, s.IsReadable) :
    ∃ e, ofSources keepGoing sources = .ok e ∧
      List.Forall₂ FileContexts.IsOf sources e.files := by
  induction sources with
  | nil => exact ⟨_, rfl, .nil⟩
  | cons s rest ih =>
      obtain ⟨⟨t, ht⟩, hrest⟩ := List.forall_mem_cons.mp h
      obtain ⟨e, he, hfiles⟩ := ih hrest
      have hcons := ofSources_cons_ok ht keepGoing rest
      rw [he] at hcons
      exact ⟨_, hcons, .cons ⟨t, ht, rfl⟩ hfiles⟩

/-! ### Writing -/

variable {format : Format} {n : Nat} {flushes : Bool} {written : ByteArray}

/-- A sink that is offered bytes and takes the first `n` of them. -/
abbrev limitedSink (n : Nat) (flushes : Bool) (offered : ByteArray) : Sink :=
  ⟨offered.extract 0 n, some n, flushes⟩

theorem limitedSink_append (h : n ≤ written.size) (bytes : ByteArray) :
    limitedSink n flushes (written ++ bytes) = limitedSink n flushes written := by
  rw [limitedSink, limitedSink, ByteArray.extract_append, Nat.sub_eq_zero_of_le h, Nat.zero_sub,
    ByteArray.extract_same, ByteArray.append_empty]

theorem write_limitedSink (hw : written.size ≤ n) (bytes : ByteArray) :
    (limitedSink n flushes written).write bytes =
      (limitedSink n flushes (written ++ bytes),
        if written.size + bytes.size ≤ n then .ok () else .error .full) := by
  have hfit : bytes.size ≤ n - written.size ↔ written.size + bytes.size ≤ n := by omega
  rw [limitedSink, Sink.extract_of_size_le hw, Sink.write_limited, limitedSink,
    ByteArray.extract_append, Sink.extract_of_size_le hw, Nat.zero_sub]
  simp only [hfit]

/-- One source: its records are written as far as they fit, and then it is flushed
if the format does so. -/
theorem writeFile_limitedSink {s : Source} {f : FileContexts} (hf : f.IsOf s)
    (hw : written.size ≤ n) :
    writeFile format f (limitedSink n flushes written) =
      (limitedSink n flushes (written ++ (Source.rendering format [s]).toUTF8),
        if written.size + s.size format ≤ n then
          if format.flushesEach && !flushes then .error .flushRefused else .ok ()
        else .error .full) := by
  rw [writeFile, Sink.writeEach_eq_write, Format.join_pieces, hf.render_eq,
    write_limitedSink hw, Source.size]
  by_cases hfit : written.size + (Source.rendering format [s]).toUTF8.size ≤ n
  · simp only [if_pos hfit, Sink.flush]
    cases format.flushesEach <;> cases flushes <;> rfl
  · simp only [if_neg hfit]

/-- Where no flush is refused in between, the sources are written up to the one
that goes beyond the capacity. The induction is on the sources, with what was
written before them. -/
theorem writeFiles_limitedSink {sources : List Source} {files : List FileContexts}
    (hfiles : List.Forall₂ FileContexts.IsOf sources files)
    (hquiet : (format.flushesEach && !flushes) = false) (hw : written.size ≤ n) :
    ∃ answer, writeFiles format files (limitedSink n flushes written) =
        (limitedSink n flushes (written ++ (Source.rendering format sources).toUTF8), answer) ∧
      (written.size + Source.totalSize format sources ≤ n ∧ answer = .ok () ∨
        ∃ s, Source.IsFirstOver format (n - written.size) sources s ∧
          answer = .error (.write s.path .full)) := by
  induction hfiles generalizing written with
  | nil =>
      refine ⟨.ok (), ?_, .inl ⟨hw, rfl⟩⟩
      simp [writeFiles, Source.rendering, Source.trees]
  | @cons s f rest files hf _ ih =>
      have hsplit : written ++ (Source.rendering format (s :: rest)).toUTF8 =
          written ++ (Source.rendering format [s]).toUTF8 ++
            (Source.rendering format rest).toUTF8 := by
        rw [Source.rendering_cons, ByteArray.append_assoc]
        simp
      have hsize : (written ++ (Source.rendering format [s]).toUTF8).size =
          written.size + s.size format := ByteArray.size_append
      rw [writeFiles, writeFile_limitedSink hf hw, hsplit, hquiet]
      by_cases hfit : written.size + s.size format ≤ n
      · obtain ⟨answer, hwrite, hanswer⟩ := ih (hsize ▸ hfit)
        rw [hsize] at hanswer
        rw [if_pos hfit, Source.totalSize_cons]
        refine ⟨answer, hwrite, hanswer.imp (fun hok => ⟨by omega, hok.2⟩) ?_⟩
        rintro ⟨s', hover, herror⟩
        refine ⟨s', .later (by omega) ?_, herror⟩
        rwa [Nat.sub_sub]
      · have hfull : n ≤ (written ++ (Source.rendering format [s]).toUTF8).size := by omega
        rw [if_neg hfit, limitedSink_append hfull, hf.path_eq]
        exact ⟨_, rfl, .inr ⟨s, .here (by omega), rfl⟩⟩

theorem writeFiles_refused {s : Source} {f : FileContexts} (hf : f.IsOf s)
    (files : List FileContexts) (hflush : format.flushesEach = true) :
    writeFiles format (f :: files) (limitedSink n false .empty) =
      (limitedSink n false (Source.rendering format [s]).toUTF8,
        .error (.write s.path (if s.size format ≤ n then .flushRefused else .full))) := by
  have hempty : ByteArray.empty.size ≤ n := Nat.zero_le n
  rw [writeFiles, writeFile_limitedSink hf hempty, ByteArray.empty_append, hflush, hf.path_eq,
    ByteArray.size_empty, Nat.zero_add]
  by_cases hfit : s.size format ≤ n
  · rw [if_pos hfit, if_pos hfit]
    rfl
  · rw [if_neg hfit, if_neg hfit]

end Extraction

/-! ### Runs -/

namespace RunConfig

open Extraction (limitedSink)

variable {c : RunConfig} {sources : List Source}

theorem limitedSink_empty (n : Nat) (flushes : Bool) :
    (⟨.empty, some n, flushes⟩ : Sink) = limitedSink n flushes .empty := by
  rw [limitedSink, Sink.extract_of_size_le (Nat.zero_le n)]

theorem run_quiet (n : Nat) (flushes : Bool) (h : ∀ s ∈ sources, s.IsReadable)
    (hquiet : (c.format.flushesEach && !flushes) = false) :
    (c.run sources ⟨.empty, some n, flushes⟩).1 =
        limitedSink n flushes (Source.rendering c.format sources).toUTF8 ∧
      (Source.totalSize c.format sources ≤ n →
        ∃ summary, (c.run sources ⟨.empty, some n, flushes⟩).2 =
          if flushes then .ok summary else .error (.flush .flushRefused)) ∧
      (n < Source.totalSize c.format sources →
        ∃ s, Source.IsFirstOver c.format n sources s ∧
          (c.run sources ⟨.empty, some n, flushes⟩).2 = .error (.write s.path .full)) := by
  obtain ⟨e, he, hfiles⟩ := Extraction.ofSources_eq_ok_of_readable c.keepGoing h
  have hempty : ByteArray.empty.size ≤ n := Nat.zero_le n
  obtain ⟨answer, hwrite, hanswer⟩ := Extraction.writeFiles_limitedSink hfiles hquiet hempty
  rw [ByteArray.empty_append] at hwrite
  rw [ByteArray.size_empty, Nat.zero_add, Nat.sub_zero] at hanswer
  have hrun : c.run sources ⟨.empty, some n, flushes⟩ =
      e.write c.format (limitedSink n flushes .empty) := by
    rw [run, he, limitedSink_empty]
  rw [hrun, Extraction.write, hwrite]
  obtain ⟨hfit, rfl⟩ | ⟨s, hover, rfl⟩ := hanswer
  · refine ⟨by cases flushes <;> rfl, ?_, fun hlt => absurd hfit (Nat.not_le.mpr hlt)⟩
    intro _
    exact ⟨e.summary, by cases flushes <;> rfl⟩
  · refine ⟨rfl, fun hfit => absurd hover.lt_totalSize (Nat.not_lt.mpr hfit), ?_⟩
    intro _
    exact ⟨s, hover, rfl⟩

theorem run_refused_flush {s : Source} {rest : List Source} (n : Nat)
    (h : ∀ s' ∈ s :: rest, s'.IsReadable) (hflush : c.format.flushesEach = true) :
    c.run (s :: rest) ⟨.empty, some n, false⟩ =
      (limitedSink n false (Source.rendering c.format [s]).toUTF8,
        .error (.write s.path (if s.size c.format ≤ n then .flushRefused else .full))) := by
  obtain ⟨e, he, hfiles⟩ := Extraction.ofSources_eq_ok_of_readable c.keepGoing h
  have hrun : c.run (s :: rest) ⟨.empty, some n, false⟩ =
      e.write c.format (limitedSink n false .empty) := by
    rw [run, he, limitedSink_empty]
  rw [hrun, Extraction.write]
  cases hfile : e.files with
  | nil => simp [hfile] at hfiles
  | cons f files =>
      rw [hfile] at hfiles
      cases hfiles with
      | cons hf _ => rw [Extraction.writeFiles_refused hf files hflush]

theorem exists_extract_append (bytes : ByteArray) (n : Nat) :
    ∃ rest, bytes.extract 0 n ++ rest = bytes := by
  refine ⟨bytes.extract n (max n bytes.size), ?_⟩
  rw [ByteArray.extract_append_extract, Nat.zero_min, ← Nat.max_assoc, Nat.max_self,
    ByteArray.extract_zero_max_size]

/-- What a sink has accepted is where the records of all sources begin, however
the run ends. -/
theorem exists_accepted_append (n : Nat) (flushes : Bool) (h : ∀ s ∈ sources, s.IsReadable) :
    ∃ rest, (c.run sources ⟨.empty, some n, flushes⟩).1.accepted ++ rest =
      (Source.rendering c.format sources).toUTF8 := by
  cases hflush : (c.format.flushesEach && !flushes) with
  | false =>
      rw [(run_quiet n flushes h hflush).1]
      exact exists_extract_append _ n
  | true =>
      obtain ⟨hformat, hsink⟩ := Bool.and_eq_true_iff.mp hflush
      obtain rfl : flushes = false := by simpa using hsink
      cases sources with
      | nil => exact ⟨.empty, rfl⟩
      | cons s rest =>
          obtain ⟨front, hfront⟩ := exists_extract_append (Source.rendering c.format [s]).toUTF8 n
          refine ⟨front ++ (Source.rendering c.format rest).toUTF8, ?_⟩
          rw [run_refused_flush n h hformat, ← ByteArray.append_assoc]
          change (Source.rendering c.format [s]).toUTF8.extract 0 n ++ front ++ _ = _
          rw [hfront, Source.rendering_cons c.format s rest]
          simp

theorem quiet_of_ne_csv {format : Format} (h : format ≠ .csv) (flushes : Bool) :
    (format.flushesEach && !flushes) = false := by
  cases format with
  | csv => exact absurd rfl h
  | raw | jsonl => rfl

theorem run_flushing_ok_iff (n : Nat) (h : ∀ s ∈ sources, s.IsReadable) :
    (∃ summary, (c.run sources ⟨.empty, some n, true⟩).2 = .ok summary) ↔
      Source.totalSize c.format sources ≤ n := by
  obtain ⟨-, hfits, hover⟩ := run_quiet n true h (Bool.and_false _)
  constructor
  · rintro ⟨summary, hok⟩
    apply Nat.not_lt.mp
    intro hlt
    obtain ⟨s, -, herror⟩ := hover hlt
    cases hok.symm.trans herror
  · exact hfits

theorem run_refusing_ne_ok (n : Nat) (h : ∀ s ∈ sources, s.IsReadable) (summary : Summary) :
    (c.run sources ⟨.empty, some n, false⟩).2 ≠ .ok summary := by
  intro hok
  by_cases hquiet : (c.format.flushesEach && !false) = false
  · obtain ⟨-, hfits, hover⟩ := run_quiet n false h hquiet
    obtain hlt | hfit := Nat.lt_or_ge n (Source.totalSize c.format sources)
    · obtain ⟨s, -, herror⟩ := hover hlt
      cases hok.symm.trans herror
    · obtain ⟨_, herror⟩ := hfits hfit
      cases hok.symm.trans herror
  · have hflush : c.format.flushesEach = true := by simpa using hquiet
    cases sources with
    | nil => cases hok
    | cons s rest =>
        rw [run_refused_flush n h hflush] at hok
        cases hok

/-- A run over sources that can all be read, into a sink that takes `n` bytes. If
it lets itself be flushed, the run succeeds exactly if all records fit, and
otherwise it fails at the first source that goes beyond. If it refuses to be
flushed, the run fails there too; a format that flushes each source fails at the
first one in any case, and where no source fails the flush at the end does. The
sink has always accepted where the records of all sources begin. -/
theorem run_limited (c : RunConfig) (sources : List Source) (n : Nat)
    (h : ∀ s ∈ sources, s.IsReadable) :
    let full := (Source.rendering c.format sources).toUTF8
    let total := Source.totalSize c.format sources
    let flushing := c.run sources ⟨.empty, some n, true⟩
    let refusing := c.run sources ⟨.empty, some n, false⟩
    ((∃ summary, flushing.2 = .ok summary) ↔ total ≤ n) ∧
      (n < total → ∃ s, Source.IsFirstOver c.format n sources s ∧
        flushing.2 = .error (.write s.path .full)) ∧
      (∀ summary, refusing.2 ≠ .ok summary) ∧
      (c.format ≠ .csv → n < total → ∃ s, Source.IsFirstOver c.format n sources s ∧
        refusing.2 = .error (.write s.path .full)) ∧
      (c.format = .csv → ∀ s rest, sources = s :: rest →
        refusing.2 = .error (.write s.path (if s.size .csv ≤ n then .flushRefused else .full))) ∧
      (c.format ≠ .csv ∧ total ≤ n ∨ sources = [] →
        refusing.2 = .error (.flush .flushRefused)) ∧
      (∃ rest, flushing.1.accepted ++ rest = full) ∧
      ∃ rest, refusing.1.accepted ++ rest = full := by
  intro full total flushing refusing
  refine ⟨run_flushing_ok_iff n h, (run_quiet n true h (Bool.and_false _)).2.2,
    run_refusing_ne_ok n h, ?_, ?_, ?_, exists_accepted_append n true h,
    exists_accepted_append n false h⟩
  · intro hformat
    exact (run_quiet n false h (quiet_of_ne_csv hformat false)).2.2
  · rintro hformat s rest rfl
    have hrun := run_refused_flush n h (by rw [hformat]; rfl)
    rw [hformat] at hrun
    exact congrArg Prod.snd hrun
  · rintro (⟨hformat, hfit⟩ | rfl)
    · obtain ⟨_, herror⟩ := (run_quiet n false h (quiet_of_ne_csv hformat false)).2.1 hfit
      exact herror
    · rfl

/-- The first of two sources fills the sink to its last byte. -/
theorem run_limited_boundary :
    let a : Source := ⟨⟨"a.rs"⟩, "fn f(v:u8)\x7b\x7d"⟩
    let b : Source := ⟨⟨"b.rs"⟩, "fn g(v:u8)\x7b\x7d"⟩
    (∀ s ∈ [a, b], s.IsReadable) ∧ a.size .raw = 158 ∧
      (run ⟨.raw, false⟩ [a, b] ⟨.empty, some 158, true⟩).2 = .error (.write ⟨"b.rs"⟩ .full) ∧
      (run ⟨.csv, false⟩ [a, b] ⟨.empty, some 158, false⟩).2 =
        .error (.write ⟨"a.rs"⟩ .flushRefused) := by
  intro a b
  have ha : a.IsReadable := by
    rw [Source.isReadable_iff_isOk]
    decide +kernel
  have hb : b.IsReadable := by
    rw [Source.isReadable_iff_isOk]
    decide +kernel
  have hall : ∀ s ∈ [a, b], s.IsReadable := by simp [ha, hb]
  have hsize : a.size .raw = 158 := by decide +kernel
  have hsize' : b.size .raw = 158 := by decide +kernel
  have hcsv : a.size .csv ≤ 158 := by decide +kernel
  refine ⟨hall, hsize, ?_, ?_⟩
  · have htotal : 158 < Source.totalSize .raw [a, b] := by
      simp [Source.totalSize, hsize, hsize']
    obtain ⟨s, ⟨before, rest, hsplit, hbefore, hover⟩, herror⟩ :=
      (run_limited ⟨.raw, false⟩ [a, b] 158 hall).2.1 htotal
    cases before with
    | nil =>
        obtain rfl : a = s := (List.cons.inj hsplit).1
        simp [Source.totalSize, hsize] at hover
    | cons first before =>
        cases before with
        | nil =>
            obtain rfl : b = s := (List.cons.inj (List.cons.inj hsplit).2).1
            exact herror
        | cons second before => simp at hsplit
  · have hrefused := (run_limited ⟨.csv, false⟩ [a, b] 158 hall).2.2.2.2.1 rfl a [b] rfl
    rwa [if_pos hcsv] at hrefused

end RunConfig

end LeafPaths
