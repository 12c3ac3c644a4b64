import LineScript.Directory
import LineScript.Proofs.Meaning
import LineScript.World

/-!
What the files of a host hold. A shelf reads it off the state of the host and relies on one promise:
a file that was written with success holds what was written. Nothing is said of other files, so two
paths may well mean the same file. A host that reads back what it has written has a shelf, and so
have worlds of plain names and worlds of paths in a directory.
-/

namespace LineScript

structure Shelf (σ : Type) [Host σ] where
  files : σ → String → Option Bytes
  files_read : ∀ (path : String) (bytes : Bytes) (host : σ),
    (Host.answer (.readFile path) host).1 = .ok bytes → files host path = some bytes
  files_saved : ∀ (path : String) (bytes : Bytes) (host : σ),
    (Host.answer (.writeFile path bytes) host).1 = .ok () →
    files (Host.answer (.writeFile path bytes) host).2 path = some bytes

/-- Where a path reads back what was written to it, what it reads is what the file holds. -/
def Shelf.ofReading {σ : Type} [Host σ]
    (readsBack : ∀ (path : String) (bytes : Bytes) (host : σ),
      (Host.answer (.writeFile path bytes) host).1 = .ok () →
      (Host.answer (.readFile path) (Host.answer (.writeFile path bytes) host).2).1 = .ok bytes) :
    Shelf σ where
  files host path := (Host.answer (.readFile path) host).1.toOption
  files_read path bytes host read := by
    rw [read]
    rfl
  files_saved path bytes host wrote := by
    rw [readsBack path bytes host wrote]
    rfl

namespace FileTable

theorem of_load_ok {table : FileTable} {path : String} {bytes : Bytes}
    (loaded : table.load path = .ok bytes) : table.files[path]? = some bytes := by
  rw [load] at loaded
  split at loaded
  · cases loaded
  · split at loaded
    · next found =>
        cases loaded
        exact found
    · cases loaded

theorem of_save_ok {table saved : FileTable} {path : String} {bytes : Bytes}
    (wrote : table.save path bytes = .ok saved) : saved.files[path]? = some bytes := by
  rw [save] at wrote
  split at wrote
  · cases wrote
  · cases wrote
    exact Std.TreeMap.getElem?_insert_self

/-- A file of a table can hold something and refuse to be read. -/
def shelf : Shelf (World FileTable) where
  files world path := world.files.files[path]?
  files_read path bytes world loaded := of_load_ok loaded
  files_saved path bytes world succeeds := by
    simp only [Host.answer, World.answer] at succeeds ⊢
    split at succeeds
    · next saved wrote => exact of_save_ok wrote
    · cases succeeds

end FileTable

namespace Directory

variable {directory other : Directory}

/-- The way to a folder leads through folders alone. -/
theorem enter_of_folders_eq (same : other.folders = directory.folders) {place inner : Place}
    {name : String} (entered : directory.enter place name = .ok inner) :
    other.enter place name = .ok inner := by
  simp only [enter, isFolder, same] at entered ⊢
  by_cases here : name = "."
  · rwa [if_pos here] at entered ⊢
  by_cases up : name = ".."
  · rwa [if_neg here, if_pos up] at entered ⊢
  rw [if_neg here, if_neg up] at entered ⊢
  obtain ⟨_, short, entered⟩ := Except.of_bind_eq_ok entered
  rw [Except.bind_of_eq_ok short]
  split at entered
  · next folder => rwa [if_pos folder]
  · split at entered <;> cases entered

theorem foldlM_enter_of_folders_eq (same : other.folders = directory.folders)
    {names : List String} {start place : Place}
    (entered : names.foldlM directory.enter start = .ok place) :
    names.foldlM other.enter start = .ok place := by
  induction names generalizing start with
  | nil => exact entered
  | cons name names ih =>
      rw [List.foldlM_cons] at entered ⊢
      obtain ⟨inner, first, later⟩ := Except.of_bind_eq_ok entered
      rw [Except.bind_of_eq_ok (enter_of_folders_eq same first)]
      exact ih later

theorem locate_of_folders_eq (same : other.folders = directory.folders) {path : String}
    {location : Location} (located : directory.locate path = .ok location) :
    other.locate path = .ok location := by
  simp only [locate] at located ⊢
  by_cases nul : path.contains '\x00' = true
  · rw [if_pos nul] at located
    cases located
  by_cases empty : path = ""
  · rw [if_neg nul, if_pos empty] at located
    cases located
  by_cases long : 4096 ≤ path.utf8ByteSize
  · rw [if_neg nul, if_neg empty, if_pos long] at located
    cases located
  rw [if_neg nul, if_neg empty, if_neg long] at located ⊢
  split at located
  · exact located
  · obtain ⟨place, entered, located⟩ := Except.of_bind_eq_ok located
    rw [Except.bind_of_eq_ok (foldlM_enter_of_folders_eq same entered)]
    exact located

/-- What was put at a path is found there, by whatever way the path leads to its place. -/
theorem find_of_put {path : String} {bytes : Bytes} (wrote : directory.put path bytes = .ok other) :
    other.find path = .ok bytes := by
  obtain ⟨location, located, wrote⟩ := Except.of_bind_eq_ok wrote
  cases location with
  | folder place name => cases wrote
  | file place =>
      dsimp only at wrote
      by_cases folder : directory.isFolder place = true
      · rw [if_pos folder] at wrote
        cases wrote
      rw [if_neg folder] at wrote
      cases wrote
      let saved : Directory := { directory with files := directory.files.insert place bytes }
      have same : saved.folders = directory.folders := rfl
      have plain : ¬ saved.isFolder place = true := folder
      change saved.find path = .ok bytes
      rw [find, Except.bind_of_eq_ok (locate_of_folders_eq same located)]
      dsimp only
      rw [if_neg plain, Std.TreeMap.getElem?_insert_self]
      rfl

/-- What a directory takes it gives back. -/
theorem load_of_save {path : String} {bytes : Bytes}
    (saved : FileStore.save directory path bytes = .ok other) :
    FileStore.load other path = .ok bytes := by
  change (directory.put path bytes).mapError PathError.message = .ok other at saved
  cases wrote : directory.put path bytes with
  | error error =>
      rw [wrote] at saved
      cases saved
  | ok found =>
      rw [wrote] at saved
      cases saved
      change (other.find path).mapError PathError.message = .ok bytes
      rw [find_of_put wrote]
      rfl

def shelf : Shelf (World Directory) :=
  .ofReading fun path bytes world wrote => by
    simp only [Host.answer, World.answer] at wrote ⊢
    split at wrote
    · next saved => exact load_of_save saved
    · cases wrote

end Directory
end LineScript
