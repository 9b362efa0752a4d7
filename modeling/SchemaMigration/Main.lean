import SchemaMigration.CommandLine.Run

/-!
# The program

`main` runs the program on the files of the system.
-/

open SchemaMigration

/-- The fault that an error of the system stands for. -/
def faultOfError : IO.Error → FileFault
  | .noFileOrDirectory .. => .missing
  | .inappropriateType _ code _ => if code = 21 then .isDirectory else .notDirectory
  | other => .other (toString other)

/-- Runs an operation of the system. -/
def attempt {α : Type} (operation : IO α) : IO (Except FileFault α) := do
  match ← operation.toBaseIO with
  | .ok value => return .ok value
  | .error error => return .error (faultOfError error)

/-- The text of a file of the system. -/
def readFile (path : String) : IO (Except FileFault String) := do
  match ← attempt (IO.FS.readBinFile path) with
  | .error fault => return .error fault
  | .ok bytes => return (String.fromUTF8? bytes).elim (.error .notText) .ok

/-- The files below a directory of the system. -/
def filesBelow? (path : String) : IO (Option (List (List String))) := do
  let directory := (← IO.currentDir) / path
  if path.isEmpty || !(← directory.isDir) then return none
  let start := directory.components.length
  let mut found := []
  for entry in ← directory.walkDir do
    if !(← entry.isDir) then found := entry.components.drop start :: found
  return some found

/-- The operations on the files of the system. -/
def systemFiles : FileAccess IO where
  read := readFile
  below? := filesBelow?
  write path text := attempt (IO.FS.writeFile path text)

/-- Runs the program. -/
def main (arguments : List String) : IO UInt32 := do
  let report ← CommandLine.run systemFiles arguments
  (← IO.getStdout).putStr report.output
  (← IO.getStderr).putStr report.errors
  return report.exitCode.toUInt32
