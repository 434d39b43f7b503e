import TableSchema.CommandLine.Run
import TableSchema.Proofs.CommandLine.Host
import TableSchema.Proofs.Documents
import TableSchema.Proofs.Grammar

/-!
# Outcomes of a run

A run that cannot read one of its sources, or cannot make its document, leaves nothing behind but
its code. Any other run puts one document on the output or into one file, unless it is a summary
with a column too wide to be padded: `run_outcome`. Such a run is aborted, and one that cannot write
its file may leave it emptied or cut: `run_of_failures`.
-/

namespace TableSchema

namespace CommandLine

-- ---------------------------------------------------------------------------
-- Sources
-- ---------------------------------------------------------------------------

namespace Origin

/-- The input where the first hyphen stands, and no hyphen after it. -/
def inOrder : List String → List Origin
  | [] => []
  | name :: rest =>
    if name = "-" then input :: (rest.filter (· ≠ "-")).map file else file name :: inOrder rest

/-- The sources of a run that is given these names. -/
def named (names : List String) : List Origin := if names = [] then [input] else inOrder names

def ofName (name : String) : Origin := if name = "-" then input else file name

/-- Adds an origin unless it is the input and the input is there. -/
def keep (kept : List Origin) (origin : Origin) : List Origin :=
  if origin = input ∧ input ∈ kept then kept else kept ++ [origin]

/-- Behind the first hyphen only files are added. -/
theorem foldl_keep_behind_input {kept : List Origin} (h : input ∈ kept) (names : List String) :
    (names.map ofName).foldl keep kept = kept ++ (names.filter (· ≠ "-")).map file := by
  induction names generalizing kept with
  | nil => simp
  | cons name names ih =>
    by_cases hn : name = "-"
    · simp [ofName, keep, hn, h, ih h]
    · have hi : input ∈ kept ++ [file name] := List.mem_append_left _ h
      simp [ofName, keep, hn, ih hi]

theorem foldl_keep {kept : List Origin} (h : input ∉ kept) (names : List String) :
    (names.map ofName).foldl keep kept = kept ++ inOrder names := by
  induction names generalizing kept with
  | nil => simp [inOrder]
  | cons name names ih =>
    by_cases hn : name = "-"
    · have hi : input ∈ kept ++ [input] := by simp
      have hrest := foldl_keep_behind_input hi names
      simpa [ofName, keep, inOrder, hn, h] using hrest
    · have hf : input ∉ kept ++ [file name] := by simp [h]
      have hrest := ih hf
      simpa [ofName, keep, inOrder, hn] using hrest

theorem ofFiles_eq_named (names : List String) : ofFiles names = named names := by
  cases names with
  | nil => rfl
  | cons name names => exact foldl_keep List.not_mem_nil (name :: names)

theorem named_ne_nil (names : List String) : named names ≠ [] := by
  unfold named
  split
  next => exact List.cons_ne_nil _ _
  next h =>
    obtain ⟨name, rest, rfl⟩ := List.exists_cons_of_ne_nil h
    unfold inOrder
    split <;> exact List.cons_ne_nil _ _

end Origin

theorem Source.ofBytes_text (name text : String) :
    ofBytes name (.ok text.toUTF8) = .ok ⟨name, withoutMark text⟩ := by
  have hdecode : String.fromUTF8? text.toUTF8 = some text := by
    rw [String.fromUTF8?, String.toUTF8_eq_toByteArray, dif_pos text.isValidUTF8]
    rfl
  simp only [ofBytes, hdecode]

theorem Host.Reads.ofBytes_eq {host : Host (StateM σ)} {s : σ} {origin : Origin} {source : Source}
    (h : host.Reads s origin source) :
    Source.ofBytes origin.name (host.answer s origin) = .ok source := by
  obtain ⟨text, hb, rfl⟩ := h
  rw [hb]
  exact Source.ofBytes_text _ text

theorem Source.ofBytes_no_text (name : String) {read : Except SystemError ByteArray}
    (h : ∀ text : String, read ≠ .ok text.toUTF8) : ∃ e, ofBytes name read = .error e := by
  cases read with
  | error e => exact ⟨.system e, rfl⟩
  | ok bytes =>
    have hdecode : String.fromUTF8? bytes = none := by
      rw [String.fromUTF8?, dif_neg]
      intro hv
      exact h (String.fromUTF8 bytes hv) rfl
    exact ⟨.notUtf8, by simp only [ofBytes, hdecode]⟩

section

variable {host : Host (StateM σ)} {view : View σ} (hhost : host.Faithful view) {s : σ}
  {origins : List Origin} {sources : List Source}

include hhost

theorem read_run (origin : Origin) (s : σ) :
    (origin.read host).run s = (Source.ofBytes origin.name (host.answer s origin), s) := by
  cases origin with
  | file name => exact Prod.ext rfl (hhost.readFile name s)
  | input => exact Prod.ext rfl (hhost.readInput s)

theorem readAll_cons_error {origin : Origin} {e : ReadError} (rest : List Origin)
    (h : Source.ofBytes origin.name (host.answer s origin) = .error e) :
    (readAll host (origin :: rest)).run s = (.error (origin.readFailure e), s) := by
  rw [readAll, StateT.run_bind, read_run hhost, h]
  rfl

theorem readAll_cons_ok {origin : Origin} {rest : List Origin} {source : Source}
    {result : Except String (List Source)}
    (h : Source.ofBytes origin.name (host.answer s origin) = .ok source)
    (hr : (readAll host rest).run s = (result, s)) :
    (readAll host (origin :: rest)).run s = ((source :: ·) <$> result, s) := by
  rw [readAll, StateT.run_bind, read_run hhost, h]
  change (readAll host rest >>= _).run s = _
  rw [StateT.run_bind, hr]
  cases result <;> rfl

theorem readAll_of_reads (h : List.Forall₂ (host.Reads s) origins sources) :
    (readAll host origins).run s = (.ok sources, s) := by
  induction h with
  | nil => rfl
  | cons h _ ih => exact readAll_cons_ok hhost h.ofBytes_eq ih

theorem readAll_of_unreadable (h : ∃ origin ∈ origins, host.Unreadable s origin) :
    ∃ report, (readAll host origins).run s = (.error report, s) := by
  induction origins with
  | nil => obtain ⟨origin, ho, -⟩ := h; cases ho
  | cons origin rest ih =>
    cases hs : Source.ofBytes origin.name (host.answer s origin) with
    | error e => exact ⟨_, readAll_cons_error hhost rest hs⟩
    | ok source =>
      have hrest : ∃ o ∈ rest, host.Unreadable s o := by
        obtain ⟨o, ho, hu⟩ := h
        rcases List.mem_cons.mp ho with rfl | ho
        · obtain ⟨e, he⟩ := Source.ofBytes_no_text o.name hu
          rw [hs] at he
          cases he
        · exact ⟨o, ho, hu⟩
      obtain ⟨report, hr⟩ := ih hrest
      exact ⟨report, readAll_cons_ok hhost hs hr⟩

omit hhost in
theorem exists_reads (h : ∀ origin ∈ origins, ¬host.Unreadable s origin) :
    ∃ sources, List.Forall₂ (host.Reads s) origins sources := by
  induction origins with
  | nil => exact ⟨[], .nil⟩
  | cons origin rest ih =>
    rw [List.forall_mem_cons] at h
    obtain ⟨hfirst, hrest⟩ := h
    simp only [Host.Unreadable, ne_eq, not_forall, not_not] at hfirst
    obtain ⟨text, ht⟩ := hfirst
    obtain ⟨sources, hs⟩ := ih hrest
    exact ⟨_, .cons ⟨text, ht, rfl⟩ hs⟩

end

-- ---------------------------------------------------------------------------
-- Tables
-- ---------------------------------------------------------------------------

def Source.IsTable (source : Source) (dialect : Option Dialect) : Prop :=
  ∃ table, Table.parse source.content dialect = .ok table

namespace Options

/-- The tables among sources, in order. -/
def tables (options : Options) (sources : List Source) : List SourcedTable :=
  sources.filterMap fun source =>
    (Table.parse source.content options.dialect).toOption.map (⟨source.name, ·⟩)

def render (options : Options) (tables : List SourcedTable) : Except Document.Failure String :=
  Document.render tables options.format options.nameCase options.quiet options.compact

/-- No source is a table, or the format asks for types that a column does not have. -/
def Undocumented (options : Options) (sources : List Source) : Prop :=
  (∀ source ∈ sources, ¬source.IsTable options.dialect) ∨
    (options.format = .fields ∨ options.format = .ddl) ∧
      ∃ sourced ∈ options.tables sources, ∃ column ∈ sourced.table.columns.toList, ¬column.Mappable

/-- The document would be a summary with a name or a type too wide to be padded. -/
def Overwide (options : Options) (sources : List Source) : Prop :=
  options.format = .table ∧
    ∃ sourced ∈ options.tables sources, ¬Summary.Fits options.nameCase sourced.table

end Options

theorem Source.table_toOption (source : Source) (dialect : Option Dialect) :
    (source.table dialect).toOption =
      (Table.parse source.content dialect).toOption.map (⟨source.name, ·⟩) := by
  unfold Source.table
  split
  next h => rw [h]; rfl
  next h => rw [h]; rfl
  next h => rw [h]; rfl

theorem Source.isTable_iff (source : Source) (dialect : Option Dialect) :
    source.IsTable dialect ↔ ∃ sourced, source.table dialect = .ok sourced := by
  unfold IsTable Source.table
  cases Table.parse source.content dialect with
  | ok table => simp
  | error e => cases e <;> simp

section

variable {options : Options} {sources : List Source}

theorem Options.tables_eq_nil_iff :
    options.tables sources = [] ↔ ∀ source ∈ sources, ¬source.IsTable options.dialect := by
  rw [tables, List.filterMap_eq_nil_iff]
  refine forall₂_congr fun source _ => ?_
  unfold Source.IsTable
  cases Table.parse source.content options.dialect <;> simp [Except.toOption]

/-- What is reported of the sources that are left out. -/
def Options.reports (options : Options) (sources : List Source) : List String :=
  (sources.map (·.table options.dialect)).filterMap fun
    | .error report => some report
    | .ok _ => none

theorem Options.reports_eq_nil_iff :
    options.reports sources = [] ↔ ∀ source ∈ sources, source.IsTable options.dialect := by
  rw [reports, List.filterMap_eq_nil_iff, List.forall_mem_map]
  refine forall₂_congr fun source _ => ?_
  rw [Source.isTable_iff]
  cases source.table options.dialect <;> simp

theorem convert_eq_of_tables (options : Options) (sources : List Source) :
    convert options sources =
      if options.tables sources = [] then ⟨options.reports sources, .nothing⟩
      else
        match options.render (options.tables sources) with
        | .ok document => ⟨options.reports sources, .document document⟩
        | .error (.unmapped e) => ⟨options.reports sources ++ [e.message], .nothing⟩
        | .error (.tooWide e) => ⟨options.reports sources, .abort e.message⟩ := by
  have htables : (sources.map (·.table options.dialect)).filterMap (·.toOption) =
      options.tables sources := by
    rw [List.filterMap_map]
    exact List.filterMap_congr fun source _ => source.table_toOption options.dialect
  unfold convert
  dsimp only
  rw [htables]
  cases options.tables sources <;> rfl

theorem Options.exists_render_iff (options : Options) (sources : List Source) :
    (∃ document, options.render (options.tables sources) = .ok document) ↔
      ¬((options.format = .fields ∨ options.format = .ddl) ∧
        ∃ sourced ∈ options.tables sources,
          ∃ column ∈ sourced.table.columns.toList, ¬column.Mappable) ∧
      ¬options.Overwide sources := by
  unfold render Overwide
  rw [Document.exists_render_iff]
  push Not
  rfl

theorem convert_of_undocumented (hs : sources ≠ []) (h : options.Undocumented sources) :
    (convert options sources).product = .nothing ∧ (convert options sources).reports ≠ [] := by
  rw [convert_eq_of_tables]
  split
  next ht =>
    obtain ⟨source, rest, rfl⟩ := List.exists_cons_of_ne_nil hs
    refine ⟨rfl, fun hr => ?_⟩
    exact Options.tables_eq_nil_iff.mp ht _ (List.mem_cons_self ..)
      (Options.reports_eq_nil_iff.mp hr _ (List.mem_cons_self ..))
  next ht =>
    have hunmapped := h.resolve_left fun hn => ht (Options.tables_eq_nil_iff.mpr hn)
    cases hr : options.render (options.tables sources) with
    | ok document => exact absurd hunmapped ((options.exists_render_iff sources).mp ⟨_, hr⟩).1
    | error e =>
      obtain ⟨cause, rfl⟩ := Document.exists_unmapped_of_render hunmapped.1 hr
      exact ⟨rfl, by simp⟩

theorem convert_of_documented (h : ¬options.Undocumented sources)
    (hwide : ¬options.Overwide sources) :
    ∃ document, options.render (options.tables sources) = .ok document ∧
      convert options sources = ⟨options.reports sources, .document document⟩ := by
  unfold Options.Undocumented at h
  rw [not_or, ← Options.tables_eq_nil_iff] at h
  obtain ⟨document, hd⟩ := (options.exists_render_iff sources).mpr ⟨h.2, hwide⟩
  exact ⟨document, hd, by rw [convert_eq_of_tables, if_neg h.1, hd]⟩

theorem convert_of_overwide (h : options.Overwide sources) :
    convert options sources =
      ⟨options.reports sources, .abort "Formatting argument out of range"⟩ := by
  obtain ⟨hformat, sourced, hs, hn⟩ := h
  have htables : options.tables sources ≠ [] := List.ne_nil_of_mem hs
  have hrender : options.render (options.tables sources) = .error (.tooWide {}) := by
    rw [Options.render, hformat]
    exact Document.render_table_of_not_fits fun hall => hn (hall sourced hs)
  rw [convert_eq_of_tables, if_neg htables, hrender]
  rfl

end

-- ---------------------------------------------------------------------------
-- Runs
-- ---------------------------------------------------------------------------

/-- The code of a run that has made its document. -/
def Options.ExitsWith (options : Options) (sources : List Source) (code : Nat) : Prop :=
  (∀ source ∈ sources, source.IsTable options.dialect) ∧ code = 0 ∨
    (∃ source ∈ sources, ¬source.IsTable options.dialect) ∧ code = 1

/-- The document goes to the output, or to the file that the path leads to and that is the only one
to change. If the file cannot be written, then the code says so. -/
def Options.Delivers (options : Options) (host : Host (StateM σ)) (view : View σ)
    (sources : List Source) (document : String) (s : σ) (outcome : Outcome) (after : σ) : Prop :=
  match options.output with
  | none => outcome.stdout = endLine document ∧ after = s ∧ options.ExitsWith sources outcome.code
  | some path =>
    outcome.stdout = "" ∧
      (∀ place, view.placeOf? after path ≠ some place →
        view.entryAt? after place = view.entryAt? s place) ∧
      ((∃ e, (host.writeFile path document).run s = (.error e, after)) ∧ outcome.code = 66 ∨
        (host.writeFile path document).run s = (.ok (), after) ∧
          options.ExitsWith sources outcome.code ∧
          ∃ place, view.placeOf? after path = some place ∧
            view.entryAt? after place = some (.file document.toUTF8))

section

variable {options : Options} {sources : List Source} {host : Host (StateM σ)} {view : View σ}
  {s : σ}

theorem exitsWith_reports (options : Options) (sources : List Source) :
    options.ExitsWith sources (if (options.reports sources).isEmpty then 0 else exitFailure) := by
  unfold Options.ExitsWith
  split
  next h => exact .inl ⟨Options.reports_eq_nil_iff.mp (List.isEmpty_iff.mp h), rfl⟩
  next h =>
    rw [List.isEmpty_iff, Options.reports_eq_nil_iff] at h
    push Not at h
    exact .inr ⟨h, rfl⟩

theorem runConvert_unreadable {report : String}
    (hr : (readAll host (Origin.ofFiles options.files)).run s = (.error report, s)) :
    (runConvert host options).run s =
      ({ code := exitInputOutput, stderr := errorLine report }, s) := by
  rw [runConvert, StateT.run_bind, hr]
  rfl

section

variable (hr : (readAll host (Origin.ofFiles options.files)).run s = (.ok sources, s))

include hr

/-- What a run does when it has its sources. -/
theorem runConvert_of_sources :
    (runConvert host options).run s =
      let conversion := convert options sources
      let stderr := String.join (conversion.reports.map errorLine)
      let code := if conversion.reports.isEmpty then 0 else exitFailure
      match conversion.product, options.output with
      | .nothing, _ => ({ code, stderr }, s)
      | .abort message, _ => ({ code := exitAborted, stderr := stderr ++ message ++ "\n" }, s)
      | .document document, none => ({ code, stdout := endLine document, stderr }, s)
      | .document document, some path =>
        match (host.writeFile path document).run s with
        | (.ok (), after) => ({ code, stderr }, after)
        | (.error e, after) =>
          ({ code := exitInputOutput
             stderr := stderr ++ errorLine ("Failed to write to " ++ path ++ ": " ++ e.message) },
            after) := by
  rw [runConvert, StateT.run_bind, hr]
  dsimp only [bind]
  obtain ⟨reports, product⟩ := convert options sources
  cases product with
  | nothing => rfl
  | abort message => rfl
  | document document =>
    cases options.output with
    | none => rfl
    | some path =>
      change (host.writeFile path document >>= _).run s = _
      rw [StateT.run_bind]
      dsimp only
      obtain ⟨result, after⟩ := (host.writeFile path document).run s
      cases result <;> rfl

theorem runConvert_undocumented (hs : sources ≠ []) (h : options.Undocumented sources) :
    ∃ stderr, (runConvert host options).run s = ({ code := exitFailure, stderr }, s) := by
  obtain ⟨hproduct, hreports⟩ := convert_of_undocumented hs h
  have hcode : (convert options sources).reports.isEmpty = false := by simpa using hreports
  have hrun := runConvert_of_sources hr
  simp only [hproduct, hcode] at hrun
  exact ⟨_, hrun⟩

/-- A run that would have to pad a text too far is aborted, and nothing is left of it. -/
theorem runConvert_overwide (h : options.Overwide sources) :
    ∃ stderr, (runConvert host options).run s = ({ code := exitAborted, stderr }, s) := by
  have hrun := runConvert_of_sources hr
  rw [convert_of_overwide h] at hrun
  exact ⟨_, hrun⟩

theorem runConvert_documented (hhost : host.Faithful view) (h : ¬options.Undocumented sources)
    (hwide : ¬options.Overwide sources) :
    ∃ outcome after document, (runConvert host options).run s = (outcome, after) ∧
      options.render (options.tables sources) = .ok document ∧
      options.Delivers host view sources document s outcome after := by
  obtain ⟨document, hd, hc⟩ := convert_of_documented h hwide
  have hexit := exitsWith_reports options sources
  have hrun := runConvert_of_sources hr
  simp only [hc] at hrun
  unfold Options.Delivers
  cases ho : options.output with
  | none =>
    simp only [ho] at hrun
    exact ⟨_, _, document, hrun, hd, rfl, rfl, hexit⟩
  | some path =>
    simp only [ho] at hrun
    cases hw : (host.writeFile path document).run s with
    | mk result after =>
      cases result with
      | error e =>
        simp only [hw] at hrun
        exact ⟨_, _, document, hrun, hd, rfl, hhost.frame hw, .inl ⟨⟨e, hw⟩, rfl⟩⟩
      | ok _ =>
        simp only [hw] at hrun
        exact ⟨_, _, document, hrun, hd, rfl, hhost.frame hw,
          .inr ⟨hw, hexit, hhost.written hw⟩⟩

end

/-- What a run leaves behind: nothing but its code if a source is unreadable or there is no
document, and otherwise one document of all tables, on the output or in the one file that it is
written to. A write that fails may have changed that file, but no other. -/
theorem run_outcome (hhost : host.Faithful view) {arguments : List String}
    (h : Invocation.ofArguments arguments = .ok (.convert options)) (s : σ) :
    ∃ outcome after, (run host arguments).run s = (outcome, after) ∧
      ((∃ origin ∈ Origin.named options.files, host.Unreadable s origin) →
        outcome.code = 66 ∧ outcome.stdout = "" ∧ after = s) ∧
      ((∀ origin ∈ Origin.named options.files, ¬host.Unreadable s origin) →
        ∃ sources, List.Forall₂ (host.Reads s) (Origin.named options.files) sources ∧
          (options.Undocumented sources →
            outcome.code = 1 ∧ outcome.stdout = "" ∧ after = s) ∧
          (¬options.Undocumented sources → ¬options.Overwide sources →
            ∃ document,
              Document.IsRendering (options.tables sources) options.format options.nameCase
                options.quiet options.compact document ∧
              options.Delivers host view sources document s outcome after)) := by
  have hrun : run host arguments = runConvert host options := by rw [run, h]
  rw [hrun]
  by_cases hu : ∃ origin ∈ Origin.named options.files, host.Unreadable s origin
  · obtain ⟨report, hr⟩ := readAll_of_unreadable hhost hu
    rw [← Origin.ofFiles_eq_named] at hr
    refine ⟨_, _, runConvert_unreadable hr, fun _ => ⟨rfl, rfl, rfl⟩, fun hall => ?_⟩
    obtain ⟨origin, ho, hun⟩ := hu
    exact absurd hun (hall origin ho)
  · have hall : ∀ origin ∈ Origin.named options.files, ¬host.Unreadable s origin :=
      fun origin ho hun => hu ⟨origin, ho, hun⟩
    obtain ⟨sources, hs⟩ := exists_reads hall
    have hr := readAll_of_reads hhost hs
    rw [← Origin.ofFiles_eq_named] at hr
    by_cases hd : options.Undocumented sources
    · have hne : sources ≠ [] := by
        rintro rfl
        exact Origin.named_ne_nil options.files (List.forall₂_nil_right_iff.mp hs)
      obtain ⟨stderr, hrun⟩ := runConvert_undocumented hr hne hd
      exact ⟨_, _, hrun, fun hu' => absurd hu' hu, fun _ =>
        ⟨sources, hs, fun _ => ⟨rfl, rfl, rfl⟩, fun hn => absurd hd hn⟩⟩
    by_cases hw : options.Overwide sources
    · obtain ⟨stderr, hrun⟩ := runConvert_overwide hr hw
      exact ⟨_, _, hrun, fun hu' => absurd hu' hu, fun _ =>
        ⟨sources, hs, fun hd' => absurd hd' hd, fun _ hn => absurd hw hn⟩⟩
    · obtain ⟨outcome, after, document, hrun, hrender, hdelivers⟩ :=
        runConvert_documented hr hhost hd hw
      exact ⟨outcome, after, hrun, fun hu' => absurd hu' hu, fun _ =>
        ⟨sources, hs, fun hd' => absurd hd' hd, fun _ _ =>
          ⟨document, Document.isRendering_of_render hrender, hdelivers⟩⟩⟩

theorem run_outcome_of_statement :
    ∃ outcome document,
      (run (FileSystem.hostWithin (some 0) "CREATE TABLE t (a int)".toUTF8) ["-f", "ddl"]).run
        (.ofFiles []) = (outcome, .ofFiles []) ∧
      outcome.code = 0 ∧ outcome.stdout = endLine document ∧
      Document.IsRendering
        (Options.tables { format := .ddl } [⟨"<stdin>", "CREATE TABLE t (a int)"⟩]) .ddl .declared
        false false document := by
  generalize htext : "CREATE TABLE t (a int)" = text
  let options : Options := { format := .ddl }
  let source : Source := ⟨"<stdin>", text⟩
  have hhost := FileSystem.faithful_hostWithin (some 0) text.toUTF8
  have harguments : Invocation.ofArguments ["-f", "ddl"] = .ok (.convert options) := by
    decide +kernel
  obtain ⟨outcome, after, hrun, -, hreads⟩ := run_outcome hhost harguments (.ofFiles [])
  obtain ⟨sources, hs, -, hdocument⟩ := hreads fun origin ho hu => by
    obtain rfl := List.mem_singleton.mp ho
    exact hu text rfl
  have hsources : sources = [source] := by
    obtain ⟨first, rest, hfirst, hrest, rfl⟩ := List.forall₂_cons_left_iff.mp hs
    cases hrest
    have hmark : withoutMark text = text := htext ▸ rfl
    have hof := Source.ofBytes_text "<stdin>" text
    rw [hmark] at hof
    exact congrArg (fun x => [x]) (Except.ok.inj (hfirst.ofBytes_eq.symm.trans hof))
  subst hsources
  have htables : (options.tables [source]).map (fun sourced =>
      sourced.table.columns.toList.map (·.fieldType)) = [[.ok .integer]] := by
    rw [show source = ⟨"<stdin>", "CREATE TABLE t (a int)"⟩ by rw [htext]]
    decide +kernel
  have hmappable : ∀ sourced ∈ options.tables [source], ∀ column ∈ sourced.table.columns.toList,
      column.Mappable := by
    intro sourced hs column hc
    have hrow := List.mem_map_of_mem (f := fun sourced : SourcedTable =>
      sourced.table.columns.toList.map (·.fieldType)) hs
    rw [htables, List.mem_singleton] at hrow
    have htype := List.mem_map_of_mem (f := Column.fieldType) hc
    rw [hrow, List.mem_singleton] at htype
    exact ⟨.integer, htype⟩
  have htable : source.IsTable options.dialect := by
    by_contra hn
    rw [Options.tables_eq_nil_iff.mpr fun _ h => List.mem_singleton.mp h ▸ hn] at htables
    cases htables
  have hdocumented : ¬options.Undocumented [source] := by
    rintro (hnone | ⟨-, sourced, hs, column, hc, hn⟩)
    · exact hnone source (List.mem_singleton_self _) htable
    · exact hn (hmappable sourced hs column hc)
  obtain ⟨document, hrendering, hdelivers⟩ := hdocument hdocumented nofun
  obtain ⟨hstdout, rfl, ⟨-, hcode⟩ | ⟨⟨_, h, hn⟩, -⟩⟩ := hdelivers
  · exact ⟨outcome, document, hrun, hcode, hstdout, hrendering⟩
  · exact absurd (List.mem_singleton.mp h ▸ htable) hn

example :
    ((run (FileSystem.host "CREATE TABLE t (a int)".toUTF8) ["-fddl", "-", "-"]).run
      (.ofFiles [])).1 =
      { code := 0
        stdout := "#standardSQL\nCREATE TABLE `project.dataset.t`\n(\n  a INT64\n)\n" } := by
  decide +kernel

/-- A table whose only column has a long name is not summarized: the run is aborted. -/
theorem run_of_long_name {name : String} (hquote : '"' ∉ name.toList) (hlong : 65535 < name.length)
    (files : FileSystem) :
    ∃ stderr, (run (FileSystem.host (" CREATE TABLE \"t\" ( \"" ++ name ++ "\" int )").toUTF8)
      []).run files = ({ code := 101, stderr }, files) := by
  generalize htext : " CREATE TABLE \"t\" ( \"" ++ name ++ "\" int )" = text
  obtain ⟨table, hparse, column, hcolumn, hname⟩ := Table.parse_ofName hquote
  have hmark : withoutMark text = text := by
    have hlist : text.toList = ' ' :: text.toList.tail := by rw [← htext]; simp
    rw [withoutMark, hlist]
    rfl
  have hsources : List.Forall₂ ((FileSystem.host text.toUTF8).Reads files) (Origin.ofFiles [])
      [⟨"<stdin>", text⟩] :=
    .cons ⟨text, rfl, by rw [hmark]; rfl⟩ .nil
  have hr := readAll_of_reads (FileSystem.faithful_hostWithin none text.toUTF8) hsources
  rw [htext] at hparse
  have htables : Options.tables {} [⟨"<stdin>", text⟩] = [⟨"<stdin>", table⟩] := by
    simp [Options.tables, hparse, Except.toOption]
  have hwide : Options.Overwide {} [⟨"<stdin>", text⟩] := by
    refine ⟨rfl, ⟨"<stdin>", table⟩, htables ▸ List.mem_singleton_self _, fun hfits => ?_⟩
    have hle := (hfits column hcolumn).1
    have hdeclared : column.nameIn NameCase.declared = name := hname
    rw [hdeclared] at hle
    omega
  exact runConvert_overwide hr hwide

/-- A folder with one file. -/
def FileSystem.kept : FileSystem := .ofFiles [("out", "kept".toUTF8)]

/-- A write that fails has emptied the file and put a part of the document into it, and a run with a
column that is too wide ends without a document. -/
theorem run_of_failures :
    (∃ outcome after,
      (run (FileSystem.hostWithin (some 5) "CREATE TABLE t (a int)".toUTF8) ["-fddl", "-oout"]).run
        .kept = (outcome, after) ∧ outcome.code = 66 ∧
      FileSystem.kept.readFile "out" = .ok "kept".toUTF8 ∧
      after.readFile "out" = .ok "#stan".toUTF8) ∧
    ∃ stderr, (run (FileSystem.host
        (" CREATE TABLE \"t\" ( \"" ++ String.ofList (List.replicate 65536 'a') ++
          "\" int )").toUTF8) []).run (.ofFiles []) =
      ({ code := 101, stdout := "", stderr }, .ofFiles []) := by
  refine ⟨⟨_, _, rfl, by decide +kernel⟩, run_of_long_name ?_ ?_ _⟩
  · rw [String.toList_ofList]
    exact fun h => absurd (List.eq_of_mem_replicate h) (by decide)
  · rw [String.length_ofList, List.length_replicate]
    omega

end

end CommandLine

end TableSchema
