import TableSchema.CommandLine.Files

/-!
# Writing a file

A file system is seen place by place: nothing is there, or a folder, or a file with its content.
Writing a file changes what is seen at one place, where the path then leads, whether there is room
for all of the content or not; what has been written is read back from it.
-/

namespace TableSchema.CommandLine

/-- What is seen of a node without going into it. -/
inductive Entry where
  | file (content : ByteArray)
  | folder

namespace Node

def entry : Node → Entry
  | file content => .file content
  | folder _ => .folder

def entryAt? (node : Node) (place : List String) : Option Entry := (node.at? place).map entry

variable {node : Node} {name : String}

theorem lookup_putEntry {entries : List (String × Node)} (other : String) :
    (putEntry name node entries).lookup other =
      if other = name then some node else entries.lookup other := by
  induction entries with
  | nil => simp [putEntry, List.lookup_cons]; grind
  | cons first rest ih => simp only [putEntry]; grind

theorem entryAt?_cons (node : Node) (name : String) (names : List String) :
    node.entryAt? (name :: names) = (node.child? name).bind (·.entryAt? names) := by
  simp only [entryAt?, at?, Option.map_bind]
  rfl

theorem exists_of_entryAt?_cons {names : List String} {e : Entry}
    (h : node.entryAt? (name :: names) = some e) :
    ∃ entries child, node = folder entries ∧ entries.lookup name = some child ∧
      child.entryAt? names = some e := by
  rw [entryAt?_cons, Option.bind_eq_some_iff] at h
  obtain ⟨child, hc, he⟩ := h
  cases node with
  | file content => cases hc
  | folder entries => exact ⟨entries, child, rfl, hc, he⟩

theorem exists_of_entryAt?_nil (h : node.entryAt? [] = some .folder) :
    ∃ entries, node = folder entries := by
  cases node with
  | file content => cases h
  | folder entries => exact ⟨entries, rfl⟩

/-- Nothing is below what is no folder. -/
theorem entryAt?_cons_of_not_folder (h : node.entryAt? [name] ≠ some .folder) (next : String)
    (names : List String) : node.entryAt? (name :: next :: names) = none := by
  rw [entryAt?_cons] at h ⊢
  cases hc : node.child? name with
  | none => rfl
  | some child =>
    cases child with
    | file content => rfl
    | folder entries => simp [hc, entryAt?, at?, entry] at h

/-- A file that is put into a folder is seen there, and everything else is seen as before. -/
theorem entryAt?_put {content : ByteArray} {place : List String}
    (hf : node.entryAt? place = some .folder)
    (hn : node.entryAt? (place ++ [name]) ≠ some .folder) (other : List String) :
    (node.put (place ++ [name]) (file content)).entryAt? other =
      if other = place ++ [name] then some (.file content) else node.entryAt? other := by
  induction place generalizing node other with
  | nil =>
    obtain ⟨entries, rfl⟩ := exists_of_entryAt?_nil hf
    match other with
    | [] => rfl
    | x :: other =>
      simp only [List.nil_append, put, entryAt?_cons _ x, child?, lookup_putEntry, List.cons.injEq]
      by_cases hx : x = name
      · subst hx
        cases other with
        | nil => simp [entryAt?, at?, entry]
        | cons next names =>
          have hbelow := entryAt?_cons_of_not_folder hn next names
          rw [entryAt?_cons] at hbelow
          simpa [entryAt?_cons, child?] using hbelow.symm
      · simp [hx]
  | cons first place ih =>
    obtain ⟨entries, child, rfl, hc, hf⟩ := exists_of_entryAt?_cons hf
    have hn' : child.entryAt? (place ++ [name]) ≠ some .folder := by
      simpa [entryAt?_cons, child?, hc] using hn
    cases other with
    | nil => rfl
    | cons x other =>
      have hput := ih hf hn' other
      simp only [List.cons_append, put, child?, hc, Option.getD_some, entryAt?_cons, lookup_putEntry,
        List.cons.injEq]
      by_cases hx : x = first
      · simp [hx, hc, hput]
      · simp [hx]

end Node

namespace FileSystem

def entryAt? (files : FileSystem) (place : List String) : Option Entry := files.root.entryAt? place

/-- Where a path leads. -/
def placeOf (files : FileSystem) (path : String) : Except SystemError (List String) :=
  files.walk (files.startOf path) (namesOf path)

/-- Some content is at a place where no folder was, and nothing differs anywhere else. -/
structure ChangedAt (before after : FileSystem) (target : List String) (content : ByteArray) :
    Prop where
  here : after.here = before.here
  not_folder : before.entryAt? target ≠ some .folder
  entries : ∀ place, after.entryAt? place =
    if place = target then some (.file content) else before.entryAt? place

variable {files after : FileSystem} {path name : String} {place : List String}

-- ---------------------------------------------------------------------------
-- Following a path
-- ---------------------------------------------------------------------------

theorem isFolderAt_iff : files.isFolderAt place = true ↔ files.entryAt? place = some .folder := by
  unfold isFolderAt entryAt? Node.entryAt?
  cases files.root.at? place with
  | none => simp
  | some node => cases node <;> simp [Node.isFolder, Node.entry]

theorem isSome_at? : (files.root.at? place).isSome = (files.entryAt? place).isSome := by
  simp [entryAt?, Node.entryAt?]

/-- Follows one name. -/
def step (files : FileSystem) (place : List String) (name : String) :
    Except SystemError (List String) :=
  if !files.isFolderAt place then .error .notDirectory
  else if name = "" ∨ name = "." then .ok place
  else if name = ".." then .ok place.dropLast
  else if name.utf8ByteSize > maxName then .error .nameTooLong
  else if (files.root.at? (place ++ [name])).isSome then .ok (place ++ [name])
  else .error .notFound

theorem walk_eq_foldlM (names : List String) :
    files.walk place names = names.foldlM files.step place := by
  induction names generalizing place with
  | nil => rfl
  | cons name names ih =>
    rw [walk, List.foldlM_cons, ih, ih, ih, step]
    split
    · rfl
    split
    · rfl
    split
    · rfl
    split
    · rfl
    split <;> rfl

theorem walk_concat (names : List String) (name : String) :
    files.walk place (names ++ [name]) = files.walk place names >>= (files.step · name) := by
  simp [walk_eq_foldlM, List.foldlM_append]

theorem step_eq_ok_iff {next : List String} :
    files.step place name = .ok next ↔
      files.entryAt? place = some .folder ∧
        ((name = "" ∨ name = ".") ∧ next = place ∨
          name = ".." ∧ next = place.dropLast ∨
          (name ≠ "" ∧ name ≠ "." ∧ name ≠ "..") ∧ name.utf8ByteSize ≤ maxName ∧
            (files.entryAt? (place ++ [name])).isSome ∧ next = place ++ [name]) := by
  rw [← isFolderAt_iff, ← isSome_at?]
  unfold step
  grind

namespace ChangedAt

variable {target : List String} {content : ByteArray} (h : files.ChangedAt after target content)

include h

theorem folder (hp : files.entryAt? place = some .folder) : after.entryAt? place = some .folder := by
  have hne : place ≠ target := by
    rintro rfl
    exact h.not_folder hp
  rw [h.entries, if_neg hne, hp]

theorem isSome (hp : (files.entryAt? place).isSome) : (after.entryAt? place).isSome := by
  rw [h.entries]
  split
  · rfl
  · exact hp

theorem step {next : List String} (hs : files.step place name = .ok next) :
    after.step place name = .ok next := by
  rw [step_eq_ok_iff] at hs ⊢
  obtain ⟨hf, hstay | hup | ⟨hn, hl, hsome, he⟩⟩ := hs
  · exact ⟨h.folder hf, .inl hstay⟩
  · exact ⟨h.folder hf, .inr (.inl hup)⟩
  · exact ⟨h.folder hf, .inr (.inr ⟨hn, hl, h.isSome hsome, he⟩)⟩

/-- A path that led somewhere leads there still. -/
theorem walk {names next : List String} (hw : files.walk place names = .ok next) :
    after.walk place names = .ok next := by
  rw [walk_eq_foldlM] at hw ⊢
  induction names generalizing place with
  | nil => exact hw
  | cons name names ih =>
    rw [List.foldlM_cons] at hw ⊢
    cases hs : files.step place name with
    | error e => rw [hs] at hw; cases hw
    | ok between =>
      rw [hs] at hw
      rw [h.step hs]
      exact ih hw

end ChangedAt

-- ---------------------------------------------------------------------------
-- Writing and reading
-- ---------------------------------------------------------------------------

/-- The names of a path whose last name is not cut off end in that name. -/
theorem namesOf_eq_concat {before : List String}
    (hb : before = ((namesOf path).reverse.dropWhile (· = "")).reverse)
    (hl : ¬before.length < (namesOf path).length) :
    namesOf path = before.dropLast ++ [before.getLastD ""] := by
  have hsuffix : before <+: namesOf path := by
    rw [hb, ← List.reverse_suffix, List.reverse_reverse]
    exact List.dropWhile_suffix _
  have hnames : before = namesOf path := hsuffix.eq_of_length_le (by omega)
  have hne : before ≠ [] := by
    rw [hnames, namesOf, ne_eq, List.map_eq_nil_iff]
    exact Text.splitAt_ne_nil _ _
  rw [List.getLastD_eq_getLast?, List.getLast?_eq_some_getLast hne, Option.getD_some,
    List.dropLast_concat_getLast hne, hnames]

theorem openAt_eq_ok {target : List String} (h : files.openAt path = .ok target) :
    path.utf8ByteSize ≤ maxPath ∧
      ∃ names name place, namesOf path = names ++ [name] ∧
        files.walk (files.startOf path) names = .ok place ∧
        files.entryAt? place = some .folder ∧ files.entryAt? (place ++ [name]) ≠ some .folder ∧
        (name ≠ "" ∧ name ≠ "." ∧ name ≠ "..") ∧ name.utf8ByteSize ≤ maxName ∧
        target = place ++ [name] := by
  simp only [openAt, bind, Except.bind, pure, Except.pure, throw, throwThe,
    MonadExceptOf.throw] at h
  generalize hb : ((namesOf path).reverse.dropWhile (· = "")).reverse = before at h
  split at h
  · cases h
  next hpath =>
    cases hw : files.walk (files.startOf path) before.dropLast with
    | error e => simp [hw] at h
    | ok place =>
      simp only [hw] at h
      split at h
      · cases h
      next hf =>
        split at h
        · cases h
        next hn =>
          split at h
          · cases h
          next hl =>
            split at h
            · cases h
            next ht =>
              simp only [not_or] at hn
              rw [isFolderAt_iff] at ht
              refine ⟨by omega, _, _, place, namesOf_eq_concat hb.symm hn.1, hw, ?_, ht, hn.2,
                by omega, (Except.ok.inj h).symm⟩
              exact isFolderAt_iff.mp (by simpa using hf)

theorem readFile_of_entryAt? {content : ByteArray} (hl : path.utf8ByteSize ≤ maxPath)
    (hp : files.placeOf path = .ok place) (he : files.entryAt? place = some (.file content)) :
    files.readFile path = .ok content := by
  unfold placeOf at hp
  obtain ⟨node, hnode, hentry⟩ := Option.map_eq_some_iff.mp he
  cases node with
  | folder entries => cases hentry
  | file bytes =>
    cases hentry
    simp only [readFile, if_neg (Nat.not_lt.mpr hl), hp, hnode, bind, Except.bind, pure,
      Except.pure]

section

variable {target : List String} (h : files.openAt path = .ok target) (content : ByteArray)

include h

/-- A file that is opened and filled changes the file system where the path leads and nowhere else,
and is read back. -/
theorem changedAt_putFile :
    (files.putFile target content).placeOf path = .ok target ∧
      files.ChangedAt (files.putFile target content) target content ∧
      (files.putFile target content).readFile path = .ok content := by
  obtain ⟨hpath, names, name, place, hnames, hw, hf, ht, hn, hl, rfl⟩ := openAt_eq_ok h
  have hchanged : files.ChangedAt (files.putFile (place ++ [name]) content) (place ++ [name])
      content :=
    ⟨rfl, ht, Node.entryAt?_put hf ht⟩
  generalize files.putFile (place ++ [name]) content = after at hchanged ⊢
  have htarget : after.entryAt? (place ++ [name]) = some (.file content) := by
    rw [hchanged.entries, if_pos rfl]
  have hstep : after.step place name = .ok (place ++ [name]) :=
    step_eq_ok_iff.mpr ⟨hchanged.folder hf, .inr (.inr ⟨hn, hl, by rw [htarget]; rfl, rfl⟩)⟩
  have hplace : after.placeOf path = .ok (place ++ [name]) := by
    have hstart : after.startOf path = files.startOf path := by
      rw [startOf, startOf, hchanged.here]
    rw [placeOf, hstart, hnames, walk_concat, hchanged.walk hw]
    exact hstep
  exact ⟨hplace, hchanged, readFile_of_entryAt? hpath hplace htarget⟩

theorem writeFile_of_openAt :
    files.writeFile none path content = (.ok (), files.putFile target content) := by
  rw [writeFile, h]

end

/-- What writing a file does: nothing if it cannot be opened, and otherwise the content is in it, or
a part of the content if the write fails. -/
theorem writeFile_cases (files : FileSystem) (room : Option Nat) (path : String)
    (content : ByteArray) :
    (∃ e, files.writeFile room path content = (.error e, files)) ∨
      ∃ target, files.openAt path = .ok target ∧
        (files.writeFile room path content = (.ok (), files.putFile target content) ∨
          ∃ e part, files.writeFile room path content =
            (.error e, files.putFile target part)) := by
  unfold writeFile
  cases files.openAt path with
  | error e => exact .inl ⟨e, rfl⟩
  | ok target =>
    refine .inr ⟨target, rfl, ?_⟩
    cases room with
    | none => exact .inl rfl
    | some room =>
      by_cases hroom : content.size ≤ room
      · exact .inl (if_pos hroom)
      · exact .inr ⟨_, _, if_neg hroom⟩

/-- A file can be written at the path. -/
def Writable (files : FileSystem) (path : String) : Prop :=
  ∃ content after, files.writeFile none path content = (.ok (), after)

/-- Whether a file can be written does not depend on what is written. -/
theorem Writable.exists_openAt (h : files.Writable path) :
    ∃ target, files.openAt path = .ok target := by
  obtain ⟨content, after, h⟩ := h
  rw [writeFile] at h
  cases ho : files.openAt path with
  | error e => rw [ho] at h; cases h
  | ok target => exact ⟨target, rfl⟩

end FileSystem

end TableSchema.CommandLine
