import LineScript.Byte
import Std.Data.TreeMap

/-!
Modelled files. Reading changes nothing, and neither does a write that fails, because neither
answers with a new state.
-/

namespace LineScript

class FileStore (φ : Type) where
  load : φ → String → Except String Bytes
  save : φ → String → Bytes → Except String φ

/-- Files under plain names, some of which refuse to be read or written. -/
structure FileTable where
  files : Std.TreeMap String Bytes
  readErrors : Std.TreeMap String String
  writeErrors : Std.TreeMap String String

namespace FileTable

def empty : FileTable := ⟨∅, ∅, ∅⟩

def load (table : FileTable) (path : String) : Except String Bytes :=
  match table.readErrors[path]? with
  | some reason => .error reason
  | none =>
      match table.files[path]? with
      | some bytes => .ok bytes
      | none => .error s!"{path} not found"

def save (table : FileTable) (path : String) (bytes : Bytes) : Except String FileTable :=
  match table.writeErrors[path]? with
  | some reason => .error reason
  | none => .ok { table with files := table.files.insert path bytes }

instance : FileStore FileTable := ⟨load, save⟩

end FileTable
end LineScript
