import HardcodedText.CommandLine.Execution
import HardcodedText.Report.Timestamp
import HardcodedText.Workspace.Sidecar

/-!
# The program

Reads the current directory, executes the command line on it, writes what has changed, and shows
what came out.
-/

namespace HardcodedText.Program

/-- Everything below a place, given what its directory holds.  The trees are added later. -/
partial def readBelow (place : List String) (held : Array IO.FS.DirEntry) :
    IO (List (List String × Entry)) := do
  let mut entries := []
  for e in held do
    let here := place ++ [e.fileName]
    if ← e.path.isDir then
      entries := entries ++ (here, .directory) :: (← readBelow here (← e.path.readDir))
    else
      entries := entries ++ [(here, .file (← IO.FS.readBinFile e.path).toList .blank)]
  return entries

/-- The current directory, and of the others only those that lead to it. -/
def readWorkspace : IO Workspace := do
  let dir ← IO.currentDir
  let here := (Path.ofText dir.toString).names
  let entries ← readBelow here (← dir.readDir)
  let workspace : Workspace :=
    entries.foldl (fun ws (place, entry) ↦ ws.put place entry) (.empty here)
  return workspace.withKeptTrees

/-- The time of day, which a new file bears. -/
def readClock : IO String :=
  IO.FS.withTempFile fun _ path ↦ do
    let time := (← path.metadata).modified
    return Timestamp.text time.sec.toNat (time.nsec.toNat / 1000)

/-- Writes what a workspace has that it had not before. -/
def writeChanges (old new : Workspace) : IO Unit := do
  for (place, entry) in new.entries do
    let path := "/" ++ "/".intercalate place
    match entry, old.entry? place with
    | .directory, none => IO.FS.createDirAll path
    | .file bytes _, some (.file known _) =>
      if bytes != known then IO.FS.writeBinFile path ⟨bytes.toArray⟩
    | .file bytes _, _ => IO.FS.writeBinFile path ⟨bytes.toArray⟩
    | _, _ => pure ()

/-- Executes a command line in the current directory.  The time that it takes to read the files is
taken for the duration of the run; and there is no list of the characters that have a name. -/
def run (args : List String) : IO UInt32 := do
  let started ← IO.monoNanosNow
  let workspace ← readWorkspace
  let finished ← IO.monoNanosNow
  let elapsed := Binary64.ofRatio false (finished - started) 1000000000
  let setting := { workspace, characters := .none, elapsed, now := ← readClock }
  let outcome := CommandLine.execute setting args
  writeChanges workspace outcome.workspace
  (← IO.getStdout).putStr outcome.stdout
  (← IO.getStderr).putStr outcome.stderr
  match outcome.exit with
  | .ok code => return code.toUInt32
  | .error e =>
    IO.eprintln e.message
    return 1

end HardcodedText.Program

/-- The program. -/
def main (args : List String) : IO UInt32 :=
  HardcodedText.Program.run args
