import ImagePipeline.CommandLine.Run
import Std.Time.Zoned

/-! The program: it reads the files of the project, runs a command line on them, and
writes what has changed. -/
namespace ImagePipeline.Program

/-- Reads a directory entry and what lies below it. A file is taken for executable if it
names its interpreter. -/
partial def load (here : Location) (t : FileTree) (entry : IO.FS.DirEntry) : IO FileTree := do
  let place := here ++ [entry.fileName]
  if ← entry.path.isDir then
    let mut t := t.put place .directory
    for inner in ← entry.path.readDir do
      t ← load place t inner
    return t
  else
    let content ← IO.FS.readBinFile entry.path
    return t.put place (.file content ((String.fromUTF8? (content.extract 0 2)) == some "#!"))

/-- Writes an entry unless it was there before. -/
def store (before : FileTree) (entry : Location × Entry) : IO Unit := do
  let path := "/" ++ "/".intercalate entry.1
  match entry.2, before.lookup entry.1 with
  | .directory, some .directory => return ()
  | .directory, _ => IO.FS.createDirAll path
  | .file content _, some (.file old _) =>
    unless content == old do IO.FS.writeBinFile path content
  | .file content _, _ => IO.FS.writeBinFile path content

/-- The number of this process. -/
def processNumber : IO Nat := do
  try
    let line ← IO.FS.readFile "/proc/self/stat"
    return ((line.takeWhile Char.isDigit).toNat?).getD 1
  catch _ => return 1

def now : IO Timestamp := do
  let t ← Std.Time.Timestamp.now
  let nanos := t.toNanosecondsSinceUnixEpoch.val
  return ⟨nanos / 1000000000, (nanos % 1000000000).toNat⟩

/-- Adds a directory, what lies below it, and the directories on the way to it. -/
def loadBelow (t : FileTree) (dir : String) : IO FileTree := do
  let place := FileTree.stepsOf ⟨dir⟩
  let mut t := (List.range place.length).foldl (fun t n => t.put (place.take (n + 1)) .directory) t
  let entry : IO.FS.DirEntry := ⟨dir, "."⟩
  for inner in ← entry.path.readDir do
    t ← load place t inner
  return t

/-- The files that a command line can be about: those below the current directory, and
below the directory of the project. -/
def filesFor (current : String) (words : List String) : IO FileTree := do
  let t ← loadBelow .empty current
  match CommandLine.parse words with
  | .ok ({ projectDir := some dir, .. }, _) =>
    try loadBelow t (Path.join ⟨current⟩ dir).text catch _ => return t
  | _ => return t

end ImagePipeline.Program

open ImagePipeline in
def main (words : List String) : IO UInt32 := do
  let current := (← IO.currentDir).toString
  let around : CommandLine.Surroundings := {
    current := ⟨current⟩, time := ← Program.now, process := ← Program.processNumber
    searchPath := (← IO.getEnv "PATH").getD "" }
  let files ← Program.filesFor current words
  let ending := CommandLine.run around files words
  for entry in ending.session.files.entries do
    Program.store files entry
  IO.print ending.session.printed
  IO.eprint ending.session.logged
  if let some failure := ending.failure then
    IO.eprintln ("Error: " ++ failure)
  if ending.code == 2 then
    IO.eprint CommandLine.helpText
  return ending.code.toUInt32
