import LineScript.FileStore

/-!
A working directory with folders, addressed by slash-separated paths. Folders are those that the
first files stood in; a write adds files but no folders.
-/

namespace LineScript

/-- The names on the way to a file or folder, innermost first. A leading `..` leads out of the
working directory, and `/` is the root. -/
abbrev Place := List String

inductive PathError
  | notFound
  | notDirectory
  | isDirectory
  | nameTooLong
  | nulByte
deriving DecidableEq, Repr

def PathError.message : PathError → String
  | .notFound => "No such file or directory (os error 2)"
  | .notDirectory => "Not a directory (os error 20)"
  | .isDirectory => "Is a directory (os error 21)"
  | .nameTooLong => "File name too long (os error 36)"
  | .nulByte => "file name contained an unexpected NUL byte"

structure Directory where
  files : Std.TreeMap (List String) Bytes
  folders : List Place

namespace Directory

def names (path : String) : List String :=
  (path.splitOn "/").filter (· ≠ "")

/-- The folders that a file at a place stands in. -/
def foldersAround : Place → List Place
  | [] => []
  | _ :: outer => outer :: foldersAround outer

/-- The directory that holds the given files, with the folders they stand in. -/
def ofFiles (files : List (String × Bytes)) : Directory :=
  let placed := files.map fun file => ((names file.1).reverse, file.2)
  ⟨.ofList placed, placed.flatMap fun file => foldersAround file.1⟩

def isFolder (directory : Directory) (place : Place) : Bool :=
  place.all (· = "..") || place = ["/"] || directory.folders.contains place

def parent : Place → Place
  | [] => [".."]
  | ".." :: outer => ".." :: ".." :: outer
  | ["/"] => ["/"]
  | _ :: outer => outer

def checkName (name : String) : Except PathError Unit :=
  if 255 < name.utf8ByteSize then .error .nameTooLong else .ok ()

/-- Goes from a folder to the folder that one name leads to. -/
def enter (directory : Directory) (place : Place) (name : String) : Except PathError Place := do
  if name = "." then return place
  if name = ".." then return parent place
  checkName name
  let inner := name :: place
  if directory.isFolder inner then return inner
  if directory.files.contains inner then throw .notDirectory
  throw .notFound

/-- A path that ends in a slash or a dot name can only mean a folder. -/
inductive Location
  | file (place : Place)
  | folder (place : Place) (name : String)

def locate (directory : Directory) (path : String) : Except PathError Location := do
  if path.contains '\x00' then throw .nulByte
  if path = "" then throw .notFound
  if 4096 ≤ path.utf8ByteSize then throw .nameTooLong
  let start := if path.startsWith "/" then ["/"] else []
  match (names path).reverse with
  | [] => return .folder start "."
  | last :: front =>
      let place ← front.reverse.foldlM directory.enter start
      if last = "." ∨ last = ".." ∨ path.endsWith "/" then return .folder place last
      checkName last
      return .file (last :: place)

def find (directory : Directory) (path : String) : Except PathError Bytes := do
  match ← directory.locate path with
  | .folder place name =>
      let _ ← directory.enter place name
      throw .isDirectory
  | .file place =>
      if directory.isFolder place then throw .isDirectory
      match directory.files[place]? with
      | some bytes => return bytes
      | none => throw .notFound

def put (directory : Directory) (path : String) (bytes : Bytes) :
    Except PathError Directory := do
  match ← directory.locate path with
  | .folder _ _ => throw .isDirectory
  | .file place =>
      if directory.isFolder place then throw .isDirectory
      return { directory with files := directory.files.insert place bytes }

instance : FileStore Directory where
  load directory path := (directory.find path).mapError PathError.message
  save directory path bytes := (directory.put path bytes).mapError PathError.message

def isInside (place : Place) : Bool :=
  place.getLast?.all fun outermost => outermost ≠ ".." && outermost ≠ "/"

/-- The files in the working directory and its folders, by relative path. -/
def listing (directory : Directory) : List (String × Bytes) :=
  (directory.files.toList.filter fun file => isInside file.1).map fun file =>
    ("/".intercalate file.1.reverse, file.2)

end Directory
end LineScript
