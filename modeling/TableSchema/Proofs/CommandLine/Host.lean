import TableSchema.CommandLine.Run
import TableSchema.Proofs.CommandLine.Files

/-!
# Hosts of plain files

What a run relies on where it reads and writes. The files of a state are seen place by place, and a
path leads to one of the places. Reading leaves the files as they are. Writing leaves all places as
they are but the one where the path leads; what is there after a write that fails is left open,
since a file is emptied when it is opened and filled bit by bit.
-/

namespace TableSchema.CommandLine

/-- The files of a state, seen place by place. -/
structure View (σ : Type) where
  Place : Type
  entryAt? : σ → Place → Option Entry
  placeOf? : σ → String → Option Place

/-- A host of plain files: what it reads and where it writes. -/
structure Host.Faithful (host : Host (StateM σ)) (view : View σ) : Prop where
  readFile (path : String) (s : σ) : ((host.readFile path).run s).2 = s
  readInput (s : σ) : (host.readInput.run s).2 = s
  /-- Nothing changes but the place where the path leads, whether the write succeeds or not. -/
  frame {path content : String} {s after : σ} {result : Except SystemError Unit} :
    (host.writeFile path content).run s = (result, after) →
      ∀ place, view.placeOf? after path ≠ some place →
        view.entryAt? after place = view.entryAt? s place
  written {path content : String} {s after : σ} :
    (host.writeFile path content).run s = (.ok (), after) →
      ∃ place, view.placeOf? after path = some place ∧
        view.entryAt? after place = some (.file content.toUTF8)

-- ---------------------------------------------------------------------------
-- Sources
-- ---------------------------------------------------------------------------

namespace Host

variable (host : Host (StateM σ)) (s : σ)

/-- What reading a source gives. -/
def answer : Origin → Except SystemError ByteArray
  | .file name => ((host.readFile name).run s).1
  | .input => (host.readInput.run s).1

/-- No text can be read from the source. -/
def Unreadable (origin : Origin) : Prop := ∀ text : String, host.answer s origin ≠ .ok text.toUTF8

/-- A text can be read from the source. -/
def Reads (origin : Origin) (source : Source) : Prop :=
  ∃ text : String, host.answer s origin = .ok text.toUTF8 ∧
    source = ⟨origin.name, withoutMark text⟩

end Host

-- ---------------------------------------------------------------------------
-- File systems
-- ---------------------------------------------------------------------------

namespace FileSystem

def view : View FileSystem where
  Place := List String
  entryAt? := entryAt?
  placeOf? files path := (files.placeOf path).toOption

theorem writeFile_run (files : FileSystem) (room : Option Nat) (input : ByteArray)
    (path content : String) :
    ((hostWithin room input).writeFile path content).run files =
      files.writeFile room path content.toUTF8 := rfl

/-- A file system is a host of plain files, whatever room there is on its device. -/
theorem faithful_hostWithin (room : Option Nat) (input : ByteArray) :
    (hostWithin room input).Faithful view where
  readFile _ _ := rfl
  readInput _ := rfl
  frame {path content files after result} h place hplace := by
    rw [writeFile_run] at h
    have hput {target : List String} (ho : files.openAt path = .ok target) (part : ByteArray)
        (hafter : files.putFile target part = after) :
        view.entryAt? after place = view.entryAt? files place := by
      obtain ⟨htarget, hchanged, -⟩ := changedAt_putFile ho part
      rw [hafter] at htarget hchanged
      have hne : place ≠ target := by
        rintro rfl
        exact hplace (by simp only [view, htarget, Except.toOption])
      exact (hchanged.entries place).trans (if_neg hne)
    obtain ⟨e, hw⟩ | ⟨target, ho, hw | ⟨e, part, hw⟩⟩ :=
      writeFile_cases files room path content.toUTF8
    · rw [hw] at h
      cases h
      rfl
    · rw [hw] at h
      exact hput ho _ (congrArg Prod.snd h)
    · rw [hw] at h
      exact hput ho _ (congrArg Prod.snd h)
  written {path content files after} h := by
    rw [writeFile_run] at h
    obtain ⟨e, hw⟩ | ⟨target, ho, hw | ⟨e, part, hw⟩⟩ :=
      writeFile_cases files room path content.toUTF8
    · rw [hw] at h
      cases h
    · rw [hw] at h
      cases h
      obtain ⟨htarget, hchanged, -⟩ := changedAt_putFile ho content.toUTF8
      refine ⟨target, by simp only [view, htarget, Except.toOption], ?_⟩
      exact (hchanged.entries target).trans (if_pos rfl)
    · rw [hw] at h
      cases h

end FileSystem

end TableSchema.CommandLine
