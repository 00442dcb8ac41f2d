import ColumnLint.Command.Run

/-
  The command line: loads what the arguments name, examines it, and writes the report.
-/

namespace ColumnLint.Main

open Command

/-- The number of a system error, which may be given as its negative. -/
def systemError (code : UInt32) : Nat :=
  if code.toNat < Nat.pow 2 31 then code.toNat else Nat.pow 2 32 - code.toNat

/-- Why the system refuses a file. -/
def fileError : IO.Error → FileError
  | .noFileOrDirectory .. => .missing
  | .inappropriateType _ code details =>
    match systemError code with
    | 20 => .notDirectory
    | 21 => .isDirectory
    | n => .other (details ++ " (os error " ++ toString n ++ ")")
  | .permissionDenied _ code _ =>
    .other ("Permission denied (os error " ++ toString (systemError code) ++ ")")
  | e => .other (toString e)

/-- The files of SQL and the directories in a directory. Links are not followed. -/
partial def loadDirectory (directory : IO.FS.DirEntry) : IO Tree := do
  match ← directory.path.readDir.toBaseIO with
  | .error e => return .closed (fileError e)
  | .ok found =>
    let mut entries := []
    for e in found do
      match (← e.path.symlinkMetadata).type with
      | .dir => entries := (e.fileName, ← loadDirectory e) :: entries
      | .file =>
        if Tree.isSqlName e.fileName then
          entries := (e.fileName, .file (← IO.FS.readBinFile e.path)) :: entries
      | _ => pure ()
    return .directory entries

/-- What a path leads to. -/
def load (path : String) : IO (Except FileError Tree) := do
  let directory : IO.FS.DirEntry := ⟨path, ""⟩
  try
    if ← directory.path.isDir then return .ok (← loadDirectory directory)
    else return .ok (.file (← IO.FS.readBinFile path))
  catch e => return .error (fileError e)

/-- All that a stream holds. -/
partial def readAll (stream : IO.FS.Stream) (found : ByteArray) : IO ByteArray := do
  let chunk ← stream.read 65536
  if chunk.isEmpty then return found else readAll stream (found ++ chunk)

/-- Writes a text to a file. -/
def save (path text : String) : IO (Except FileError Unit) := do
  try
    IO.FS.writeFile path text
    return .ok ()
  catch e => return .error (fileError e)

/-- Runs the command. -/
def execute (o : Options) : IO Answer := do
  let started ← IO.monoNanosNow
  let loaded ← o.paths.mapM fun path => do return (path, ← load path)
  let input ← if o.paths.isEmpty then readAll (← IO.getStdin) ByteArray.empty
    else pure ByteArray.empty
  let examined := examine o (fun path => (loaded.lookup path).getD (.error .missing)) input
  let colored := o.output.isNone && (← (← IO.getStdout).isTty)
  let finished ← IO.monoNanosNow
  finish save o colored (finished - started) examined

end ColumnLint.Main

def main (arguments : List String) : IO UInt32 := do
  let answer ← match ColumnLint.Command.Options.ofArguments arguments with
    | .ok o => ColumnLint.Main.execute o
    | .error r => pure r.answer
  IO.eprint answer.stderr
  IO.print answer.stdout
  return answer.exit.toUInt32
