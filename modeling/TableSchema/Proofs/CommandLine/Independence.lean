import TableSchema.Proofs.CommandLine

/-!
# What a run does not depend on

The document of a run is made of the sources that are tables. Names of other sources may be left out
of the arguments, and the document may go to the output or into a file: neither bears on what the
document says. `run_independent` says both of whole runs.
-/

namespace TableSchema

namespace CommandLine

-- ---------------------------------------------------------------------------
-- Sources that are tables
-- ---------------------------------------------------------------------------

def Source.isTable (source : Source) (dialect : Option Dialect) : Bool :=
  (Table.parse source.content dialect).isOk

namespace Origin

/-- No text can be read from the source. -/
def Unreadable (files : FileSystem) (stdin : ByteArray) (origin : Origin) : Prop :=
  (FileSystem.host stdin).Unreadable files origin

/-- A text can be read from the source. -/
def Reads (files : FileSystem) (stdin : ByteArray) : Origin → Source → Prop :=
  (FileSystem.host stdin).Reads files

/-- Whether the source can be read and is a table. -/
def isTable (files : FileSystem) (stdin : ByteArray) (dialect : Option Dialect)
    (origin : Origin) : Bool :=
  match Source.ofBytes origin.name ((FileSystem.host stdin).answer files origin) with
  | .ok source => source.isTable dialect
  | .error _ => false

theorem Reads.isTable_eq (h : Reads files stdin origin source) (dialect : Option Dialect) :
    origin.isTable files stdin dialect = source.isTable dialect := by
  obtain ⟨text, hb, rfl⟩ := h
  rw [isTable, hb, Source.ofBytes_text]

section

variable {keep : Origin → Bool}

/-- Where the input is not kept it makes no difference which hyphen stands for it. -/
theorem filter_inOrder_of_input (h : keep input = false) (names : List String) :
    (inOrder names).filter keep = ((names.filter (· ≠ "-")).map file).filter keep := by
  induction names with
  | nil => rfl
  | cons name names ih =>
    by_cases hn : name = "-"
    · simp [inOrder, hn, h]
    · simp only [inOrder, hn, if_false, ne_eq, not_false_eq_true, decide_true,
        List.filter_cons_of_pos, List.map_cons, List.filter_cons, ih]

theorem inOrder_filter (names : List String) :
    inOrder (names.filter fun name => keep (ofName name)) = (inOrder names).filter keep := by
  induction names with
  | nil => rfl
  | cons name names ih =>
    by_cases hn : name = "-"
    · subst hn
      have hinput : ofName "-" = input := rfl
      rw [List.filter_cons, hinput]
      cases hk : keep input with
      | false =>
        have hrest := filter_inOrder_of_input hk ("-" :: names)
        rw [if_neg Bool.false_ne_true, ih, hrest, filter_inOrder_of_input hk names]
        rfl
      | true =>
        have hfile : ∀ other ∈ names, (decide (other ≠ "-") && keep (ofName other)) =
            (keep (file other) && decide (other ≠ "-")) := by
          intro other _
          by_cases ho : other = "-" <;> simp [ofName, ho]
        simp only [if_true, inOrder, List.filter_cons, hk, List.filter_map, List.filter_filter,
          Function.comp_apply, List.filter_congr hfile]
    · have hfile : ofName name = file name := if_neg hn
      rw [List.filter_cons, hfile]
      cases hk : keep (file name) <;> simp [inOrder, hn, hk, ih]

/-- Leaving out names leaves out their sources, if some source is kept. -/
theorem named_filter {names : List String} (h : ∃ origin ∈ named names, keep origin = true) :
    named (names.filter fun name => keep (ofName name)) = (named names).filter keep := by
  obtain ⟨origin, hmem, hk⟩ := h
  by_cases hn : names = []
  · subst hn
    have hnamed : named [] = [input] := rfl
    rw [hnamed] at hmem ⊢
    obtain rfl := List.mem_singleton.mp hmem
    simp [hk, hnamed]
  · have hnamed : named names = inOrder names := if_neg hn
    rw [hnamed] at hmem ⊢
    have hkept : origin ∈ inOrder (names.filter fun name => keep (ofName name)) := by
      rw [inOrder_filter]
      exact List.mem_filter.mpr ⟨hmem, hk⟩
    have hne : names.filter (fun name => keep (ofName name)) ≠ [] := by
      intro he
      rw [he] at hkept
      cases hkept
    rw [named, if_neg hne, inOrder_filter]

end

theorem reads_filter {files : FileSystem} {stdin : ByteArray} {origins : List Origin}
    {sources : List Source} (h : List.Forall₂ (Reads files stdin) origins sources)
    (dialect : Option Dialect) :
    List.Forall₂ (Reads files stdin) (origins.filter (·.isTable files stdin dialect))
      (sources.filter (·.isTable dialect)) := by
  induction h with
  | nil => exact .nil
  | cons h _ ih =>
    rw [List.filter_cons, List.filter_cons, h.isTable_eq]
    split
    · exact .cons h ih
    · exact ih

end Origin

-- ---------------------------------------------------------------------------
-- Documents
-- ---------------------------------------------------------------------------

section

variable {options : Options} {sources : List Source} {files : FileSystem} {stdin : ByteArray}

theorem Options.tables_filter (options : Options) (sources : List Source) :
    options.tables (sources.filter (·.isTable options.dialect)) = options.tables sources := by
  rw [tables, List.filterMap_filter]
  refine List.filterMap_congr fun source _ => ?_
  unfold Source.isTable
  cases Table.parse source.content options.dialect <;> rfl

theorem product_eq (options : Options) (sources : List Source) :
    (convert options sources).product =
      if options.tables sources = [] then .nothing
      else
        match options.render (options.tables sources) with
        | .ok document => .document document
        | .error (.unmapped _) => .nothing
        | .error (.tooWide e) => .abort e.message := by
  rw [convert_eq_of_tables]
  split
  · rfl
  · cases options.render (options.tables sources) with
    | ok document => rfl
    | error e => cases e <;> rfl

/-- What is on the output, and the files, once a document has been put where it belongs. -/
def deliver (output : Option String) (files : FileSystem) : Product → String × FileSystem
  | .nothing | .abort _ => ("", files)
  | .document document =>
    match output with
    | none => (endLine document, files)
    | some path => ("", (files.writeFile none path document.toUTF8).2)

theorem stdout_of_sources
    (hr : (readAll (FileSystem.host stdin) (Origin.ofFiles options.files)).run files =
      (.ok sources, files)) :
    (((runConvert (FileSystem.host stdin) options).run files).1.stdout,
      ((runConvert (FileSystem.host stdin) options).run files).2) =
      deliver options.output files (convert options sources).product := by
  rw [runConvert_of_sources hr]
  dsimp only
  cases (convert options sources).product with
  | nothing => rfl
  | abort message => rfl
  | document document =>
    cases options.output with
    | none => rfl
    | some path =>
      have hw := FileSystem.writeFile_run files none stdin path document
      dsimp only [deliver]
      rw [← hw, FileSystem.host]
      cases ((FileSystem.hostWithin none stdin).writeFile path document).run files with
      | mk result after => cases result <;> rfl

/-- A run that writes a file does what the one that writes the output does, and the output differs
from the file in the end of its last line at most. -/
theorem runConvert_output {path : String} (ho : options.output = none) (hw : files.Writable path)
    (hr : (readAll (FileSystem.host stdin) (Origin.ofFiles options.files)).run files =
      (.ok sources, files)) :
    ∃ outcome other after,
      (runConvert (FileSystem.host stdin) options).run files = (outcome, files) ∧
      (runConvert (FileSystem.host stdin) { options with output := some path }).run files =
        (other, after) ∧
      other.code = outcome.code ∧ other.stderr = outcome.stderr ∧ other.stdout = "" ∧
      (outcome.stdout = "" ∧ after = files ∨
        ∃ document : String, after.readFile path = .ok document.toUTF8 ∧
          outcome.stdout = endLine document) := by
  have hr' : (readAll (FileSystem.host stdin)
      (Origin.ofFiles { options with output := some path }.files)).run files =
      (.ok sources, files) := hr
  have hfirst := runConvert_of_sources hr
  have hsecond := runConvert_of_sources hr'
  have hconvert : convert { options with output := some path } sources = convert options sources :=
    rfl
  rw [hconvert] at hsecond
  cases hp : (convert options sources).product with
  | nothing =>
    simp only [hp] at hfirst hsecond
    exact ⟨_, _, _, hfirst, hsecond, rfl, rfl, rfl, .inl ⟨rfl, rfl⟩⟩
  | abort message =>
    simp only [hp] at hfirst hsecond
    exact ⟨_, _, _, hfirst, hsecond, rfl, rfl, rfl, .inl ⟨rfl, rfl⟩⟩
  | document document =>
    obtain ⟨target, htarget⟩ := hw.exists_openAt
    obtain ⟨-, -, hread⟩ := FileSystem.changedAt_putFile htarget document.toUTF8
    have hwrite : ((FileSystem.host stdin).writeFile path document).run files =
        (.ok (), files.putFile target document.toUTF8) :=
      FileSystem.writeFile_of_openAt htarget document.toUTF8
    simp only [hp, ho] at hfirst
    simp only [hp, hwrite] at hsecond
    exact ⟨_, _, _, hfirst, hsecond, rfl, rfl, rfl, .inr ⟨document, hread, rfl⟩⟩

theorem run_of_arguments {arguments : List String}
    (h : Invocation.ofArguments arguments = .ok (.convert options)) :
    (run (FileSystem.host stdin) arguments).run files =
      (runConvert (FileSystem.host stdin) options).run files := by
  rw [run, h]

/-- The options without the names whose sources are no tables. -/
def Options.onlyTables (options : Options) (files : FileSystem) (stdin : ByteArray) : Options :=
  { options with
    files := options.files.filter fun name =>
      (Origin.ofName name).isTable files stdin options.dialect }

/-- What is made is made of the sources that are tables. -/
theorem product_onlyTables (options : Options) (sources : List Source) :
    (convert (options.onlyTables files stdin)
      (sources.filter (·.isTable options.dialect))).product =
      (convert options sources).product := by
  rw [product_eq, product_eq, ← options.tables_filter sources]
  rfl

theorem readAll_run (hs : List.Forall₂ (Origin.Reads files stdin) (Origin.named options.files)
    sources) :
    (readAll (FileSystem.host stdin) (Origin.ofFiles options.files)).run files =
      (.ok sources, files) := by
  rw [Origin.ofFiles_eq_named]
  exact readAll_of_reads (FileSystem.faithful_hostWithin none stdin) hs

theorem runConvert_onlyTables (hs : List.Forall₂ (Origin.Reads files stdin)
      (Origin.named options.files) sources)
    (htable : ∃ origin ∈ Origin.named options.files,
      origin.isTable files stdin options.dialect = true) :
    ∃ outcome other after,
      (runConvert (FileSystem.host stdin) options).run files = (outcome, after) ∧
      (runConvert (FileSystem.host stdin) (options.onlyTables files stdin)).run files =
        (other, after) ∧
      other.stdout = outcome.stdout := by
  have hfiltered := Origin.reads_filter hs options.dialect
  rw [← Origin.named_filter htable] at hfiltered
  have hfirst := stdout_of_sources (readAll_run hs)
  have htables : (readAll (FileSystem.host stdin)
      (Origin.ofFiles (options.onlyTables files stdin).files)).run files = (.ok _, files) :=
    readAll_run hfiltered
  have hsecond := stdout_of_sources htables
  rw [product_onlyTables] at hsecond
  generalize (runConvert (FileSystem.host stdin) options).run files = first at hfirst ⊢
  generalize (runConvert (FileSystem.host stdin) (options.onlyTables files stdin)).run files =
    second at hsecond ⊢
  obtain ⟨hstdout, hfiles⟩ := Prod.mk.inj (hsecond.trans hfirst.symm)
  exact ⟨_, _, _, rfl, Prod.ext rfl hfiles, hstdout⟩

/-- Where all sources can be read and one of them is a table, what a run puts on the output and into
the files is the same without the names whose sources are no tables. And a file that is named for
the output gets what would be printed, but for the line feed that ends a printed document. -/
theorem run_independent {arguments : List String}
    (h : Invocation.ofArguments arguments = .ok (.convert options)) (files : FileSystem)
    (stdin : ByteArray)
    (hread : ∀ origin ∈ Origin.named options.files, ¬origin.Unreadable files stdin)
    (htable : ∃ origin ∈ Origin.named options.files,
      origin.isTable files stdin options.dialect = true) :
    ∃ outcome after, (run (FileSystem.host stdin) arguments).run files = (outcome, after) ∧
      (∀ others,
        Invocation.ofArguments others = .ok (.convert (options.onlyTables files stdin)) →
        ∃ other, (run (FileSystem.host stdin) others).run files = (other, after) ∧
          other.stdout = outcome.stdout) ∧
      (options.output = none → ∀ path others, files.Writable path →
        Invocation.ofArguments others = .ok (.convert { options with output := some path }) →
        ∃ other after', (run (FileSystem.host stdin) others).run files = (other, after') ∧
          other.code = outcome.code ∧ other.stderr = outcome.stderr ∧
          (outcome.stdout = "" ∧ after' = files ∨
            ∃ document : String, after'.readFile path = .ok document.toUTF8 ∧
              outcome.stdout = if document.toList.getLast? = some '\n' then document
                else document ++ "\n")) := by
  obtain ⟨sources, hs⟩ := exists_reads hread
  obtain ⟨outcome, other, after, hrun, honly, hstdout⟩ := runConvert_onlyTables hs htable
  refine ⟨outcome, after, (run_of_arguments h).trans hrun, fun others hothers => ?_,
    fun ho path others hw hothers => ?_⟩
  · exact ⟨other, (run_of_arguments hothers).trans honly, hstdout⟩
  · obtain ⟨outcome', other, after', hrun', hfile, hcode, hstderr, -, hdocument⟩ :=
      runConvert_output ho hw (readAll_run hs)
    obtain ⟨rfl, -⟩ := Prod.mk.inj (hrun.symm.trans hrun')
    exact ⟨other, after', (run_of_arguments hothers).trans hfile, hcode, hstderr, hdocument⟩

/-- A folder with a table and with a text that is none. -/
def FileSystem.sample : FileSystem :=
  .ofFiles [("a.sql", "CREATE TABLE t (a int)".toUTF8), ("b.sql", "CREATE".toUTF8)]

theorem run_independent_of_others :
    ∃ outcome after,
      (run (FileSystem.host "none".toUTF8) ["-fjson", "-c", "-", "b.sql", "a.sql", "-"]).run
        .sample = (outcome, after) ∧
      (∃ other,
        (run (FileSystem.host "none".toUTF8) ["-fjson", "-c", "a.sql"]).run .sample =
          (other, after) ∧ other.stdout = outcome.stdout) ∧
      ∃ other after',
        (run (FileSystem.host "none".toUTF8)
            ["-fjson", "-c", "-oout", "-", "b.sql", "a.sql", "-"]).run .sample = (other, after') ∧
          other.code = outcome.code ∧ other.stderr = outcome.stderr ∧
          (outcome.stdout = "" ∧ after' = .sample ∨
            ∃ document : String, after'.readFile "out" = .ok document.toUTF8 ∧
              outcome.stdout = if document.toList.getLast? = some '\n' then document
                else document ++ "\n") := by
  let options : Options := {
    files := ["-", "b.sql", "a.sql", "-"], format := .json, compact := true }
  have harguments : Invocation.ofArguments ["-fjson", "-c", "-", "b.sql", "a.sql", "-"] =
      .ok (.convert options) := by decide +kernel
  have honly : Invocation.ofArguments ["-fjson", "-c", "a.sql"] =
      .ok (.convert (options.onlyTables .sample "none".toUTF8)) := by decide +kernel
  have houtput : Invocation.ofArguments ["-fjson", "-c", "-oout", "-", "b.sql", "a.sql", "-"] =
      .ok (.convert { options with output := some "out" }) := by decide +kernel
  have hsources : Origin.named options.files = [.input, .file "b.sql", .file "a.sql"] := rfl
  have hread : ∀ origin ∈ Origin.named options.files,
      ¬origin.Unreadable .sample "none".toUTF8 := by
    have hb : FileSystem.sample.readFile "b.sql" = .ok "CREATE".toUTF8 := by decide +kernel
    have ha : FileSystem.sample.readFile "a.sql" = .ok "CREATE TABLE t (a int)".toUTF8 := by
      decide +kernel
    rw [hsources]
    simp only [List.forall_mem_cons, List.not_mem_nil, false_imp_iff, implies_true, and_true]
    exact ⟨fun h => h _ rfl, fun h => h _ hb, fun h => h _ ha⟩
  have htable : (Origin.file "a.sql").isTable .sample "none".toUTF8 none = true := by
    decide +kernel
  have hwritable : FileSystem.sample.Writable "out" := by
    have hok : (FileSystem.sample.openAt "out").isOk = true := by decide +kernel
    cases h : FileSystem.sample.openAt "out" with
    | error e => rw [h] at hok; cases hok
    | ok target => exact ⟨.empty, _, FileSystem.writeFile_of_openAt h .empty⟩
  obtain ⟨outcome, after, hrun, hfirst, hsecond⟩ :=
    run_independent harguments .sample "none".toUTF8 hread
      ⟨.file "a.sql", by rw [hsources]; simp, htable⟩
  exact ⟨outcome, after, hrun, hfirst _ honly, hsecond rfl _ _ hwritable houtput⟩

end

end CommandLine

end TableSchema
