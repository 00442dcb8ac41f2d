import ColumnLint.Text.Search

/-
  Files and directories as a value, the paths that lead through them, and what a walk through a
  directory comes to.
-/

namespace ColumnLint.Command

open Text

/-- Why a file cannot be read or written, or a directory not be listed. -/
inductive FileError where
  | missing
  | isDirectory
  | notDirectory
  /-- The bytes are no UTF-8 text. -/
  | notText
  | other (text : String)
deriving DecidableEq, Repr

def FileError.message : FileError → String
  | missing => "No such file or directory (os error 2)"
  | isDirectory => "Is a directory (os error 21)"
  | notDirectory => "Not a directory (os error 20)"
  | notText => "stream did not contain valid UTF-8"
  | other text => text

/-- A file with its bytes, or a directory with its entries. -/
inductive Tree where
  | file (content : ByteArray)
  | directory (entries : List (String × Tree))
  /-- A directory whose entries cannot be listed. -/
  | closed (e : FileError)

/-- The text that bytes encode. -/
def decodeText (content : ByteArray) : Except FileError String :=
  match String.fromUTF8? content with
  | some s => .ok s
  | none => .error .notText

namespace Tree

/-! Paths. -/

/-- What stands below a directory at the end of a way of names. -/
def below? : List String → Tree → Option Tree
  | [], t => some t
  | name :: names, .directory entries =>
    match entries.lookup name with
    | some t => t.below? names
    | none => none
  | _ :: _, _ => none

/-- The way of names after one more part of a path. Above the root there is only the root. -/
def stepFrom (root : Tree) (way : List String) (part : String) :
    Except FileError (List String) :=
  match root.below? way with
  | some (.directory entries) =>
    if part = "" ∨ part = "." then .ok way
    else if part = ".." then .ok way.dropLast
    else if (entries.lookup part).isSome then .ok (way ++ [part])
    else .error .missing
  | some (.closed e) => if part = "" then .ok way else .error e
  | _ => .error .notDirectory

/-- Sets an entry: in its place if it is there, else behind the others. -/
def setEntry (name : String) (t : Tree) : List (String × Tree) → List (String × Tree)
  | [] => [(name, t)]
  | (n, old) :: entries =>
    if n = name then (n, t) :: entries else (n, old) :: setEntry name t entries

/-- Puts a tree at the end of a way of names, whose directories are made where they are missing. -/
def put (t : Tree) : List String → Tree → Tree
  | [], _ => t
  | name :: names, .directory entries =>
    let old := (entries.lookup name).getD (.directory [])
    .directory (setEntry name (put t names old) entries)
  | name :: names, _ => .directory [(name, put t names (.directory []))]

/-! Walks. -/

/-- The name of a file of SQL: `sql` behind its last period, and something before that. -/
def isSqlName (name : String) : Bool :=
  match (cutAt '.' name.toList).reverse with
  | ['s', 'q', 'l'] :: before => 1 < before.length || before.any fun piece => !piece.isEmpty
  | _ => false

mutual
/-- What a walk through a directory comes to, each with its way of names: the files of SQL, and the
directories that cannot be listed. Each directory is gone through by the names of its entries. -/
def walk : Tree → List (List String × Except FileError ByteArray)
  | .file _ => []
  | .directory entries =>
    ((entryWalks entries).mergeSort fun a b => decide (a.1 ≤ b.1)).flatMap Prod.snd
  | .closed e => [([], .error e)]

/-- What the walk comes to in each entry. -/
def entryWalks :
    List (String × Tree) → List (String × List (List String × Except FileError ByteArray))
  | [] => []
  | (name, .file content) :: entries =>
    (name, if isSqlName name then [([name], .ok content)] else []) :: entryWalks entries
  | (name, .directory below) :: entries =>
    (name, ((Tree.directory below).walk).map fun f => (name :: f.1, f.2)) :: entryWalks entries
  | (name, .closed e) :: entries => (name, [([name], .error e)]) :: entryWalks entries
end

/-- A file that the walk comes to. A directory that cannot be listed is none. -/
def fileMet : List String × Except FileError ByteArray →
    Except (List String × FileError) (List String × ByteArray)
  | (way, .ok content) => .ok (way, content)
  | (way, .error e) => .error (way, e)

/-- The files of SQL below a directory, or the first directory that cannot be listed. -/
def sqlFiles (t : Tree) : Except (List String × FileError) (List (List String × ByteArray)) :=
  t.walk.mapM fileMet

/-- The path of a way of names below a directory. -/
def joined (directory : String) : List String → String
  | [] => directory
  | name :: names =>
    (if directory.endsWith "/" then directory else directory ++ "/")
      ++ "/".intercalate (name :: names)

end Tree

/-- All files there are, and the way to the directory where a run works. -/
structure Files where
  root : Tree
  here : List String := []

namespace Files

/-- The parts of a path. The empty path has none. -/
def parts (path : String) : Except FileError (List String) :=
  match pieces '/' path with
  | [""] => .error .missing
  | parts => .ok parts

/-- Where a path starts: at the root if a slash leads, else where the run works. -/
def start (files : Files) (parts : List String) : List String :=
  if parts.head? = some "" then [] else files.here

/-- The way of names that the parts of a path take. -/
def way (files : Files) (parts : List String) : Except FileError (List String) :=
  parts.foldlM files.root.stepFrom (files.start parts)

/-- What a path leads to. -/
def find (files : Files) (path : String) : Except FileError Tree := do
  match files.root.below? (← files.way (← parts path)) with
  | some t => return t
  | none => throw .missing

/-- The text of the file that a path leads to. -/
def readText (files : Files) (path : String) : Except FileError String := do
  match ← files.find path with
  | .file content => decodeText content
  | _ => throw .isDirectory

/-- Writes a file. Its directory must be there, and no directory may stand in its place. -/
def write (files : Files) (path : String) (content : ByteArray) : Except FileError Files := do
  let all ← parts path
  let named := all.reverse.dropWhile (· = "")
  let slashed := all.getLast? == some ""
  match named with
  | [] => throw .isDirectory
  | name :: above =>
    let above ← files.way above.reverse
    match files.root.below? above with
    | some (.directory entries) =>
      if slashed || name == "." || name == ".." then throw .isDirectory
      match entries.lookup name with
      | none | some (.file _) =>
        return { files with root := .put (.file content) (above ++ [name]) files.root }
      | _ => throw .isDirectory
    | some (.closed e) => throw e
    | _ => throw .notDirectory

end Files

end ColumnLint.Command
