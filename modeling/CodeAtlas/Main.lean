import CodeAtlas.CommandLine.Run
import CodeAtlas.Json.Reader
import CodeAtlas.Snapshot

/-!
The program.  Its standard input is one line with a snapshot of the working directory, an object with
a list of `files`; the files that the command makes are written to the real one.  There is no
connection to the network.
-/

open CodeAtlas

/-- The nesting that a snapshot may have. -/
def snapshotDepth : Nat := 1000

/-- The snapshot in a line; an empty line is an empty directory. -/
def snapshotOfLine (working : List String) (line : String) : Snapshot :=
  let files := ((Json.read snapshotDepth line).map (Json.itemsAt "files")).getD []
  (Snapshot.empty working).insertAll files

def writeOut (path : String) (bytes : List UInt8) : IO Unit := do
  match PathName.parent? path with
  | some around => if !around.isEmpty then IO.FS.createDirAll around
  | none => pure ()
  IO.FS.writeBinFile path (ByteArray.mk bytes.toArray)

/-- The directory for the user's options. -/
def userOptions : IO (Option String) := do
  match ← IO.getEnv "XDG_CONFIG_HOME", ← IO.getEnv "HOME" with
  | some directory, _ => return some directory
  | none, some home => return some (PathName.joined home ".config")
  | none, none => return none

def main (args : List String) : IO UInt32 := do
  match CommandLine.read args with
  | .error f =>
    if f.isShown then
      IO.println f.message
      return CommandLine.exitSuccess.toUInt32
    else
      IO.eprintln f.message
      return CommandLine.exitError.toUInt32
  | .ok invocation =>
    let working := (PathName.parts (← IO.currentDir).toString).filter (!·.isEmpty)
    let s := snapshotOfLine working (← (← IO.getStdin).getLine)
    let surroundings : CommandLine.Surroundings :=
      ⟨s.disk, s.parser, fun _ _ => .error .network, none, ← userOptions⟩
    let outcome := CommandLine.run surroundings invocation
    for (path, bytes) in Snapshot.newFiles s.disk outcome.disk do
      writeOut path bytes
    for line in outcome.output do
      IO.println line
    for line in outcome.errors do
      IO.eprintln line
    return outcome.exit.toUInt32
