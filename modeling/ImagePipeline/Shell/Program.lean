import ImagePipeline.Files.Basic
import ImagePipeline.Text.Lines
import ImagePipeline.Text.Utf8

/-! Finding programs. A program in the file tree is a script that names the shell in its
first line. -/
namespace ImagePipeline.Shell

/-- The places of the shell itself. -/
def shellPaths : List String := ["/bin/sh", "/usr/bin/sh"]

/-- The program that the first line of a file names, if any. -/
def interpreter? (content : String) : Option String :=
  match (Text.lines content.toList).headD [] with
  | '#' :: '!' :: rest => (Text.words rest).head?.map String.ofList
  | _ => none

/-- The text of an executable file. -/
def executable? (t : FileTree) (p : Path) : Except OsError String := do
  match ← t.find p with
  | (_, .directory) => throw .permissionDenied
  | (_, .file _ false) => throw .permissionDenied
  | (_, .file content true) => return Text.decodeLenient content

/-- The script that starting the file means; another interpreter is not there. -/
def script? (t : FileTree) (p : Path) : Except OsError String := do
  let content ← executable? t p
  match interpreter? content with
  | none => throw .notExecutableFormat
  | some path => if shellPaths.contains path then return content else throw .notFound

/-- Tries directories in turn. The first program that is found counts; one without
permission is passed and remembered. -/
def search (load : Path → Except OsError String) (denied : Bool) (name : String) :
    List Path → Except OsError (Path × String)
  | [] => .error (if denied then .permissionDenied else .notFound)
  | dir :: dirs =>
    let path := dir.join ⟨name⟩
    match load path with
    | .ok content => .ok (path, content)
    | .error .notFound | .error .notDirectory => search load denied name dirs
    | .error .permissionDenied => search load true name dirs
    | .error e => .error e

/-- Finds a program by its name in the search path, or by its path from a directory. -/
def locate (load : Path → Except OsError String) (searchPath : List Path) (here : Path)
    (name : String) : Except OsError (Path × String) :=
  if name.isEmpty then .error .notFound
  else if name.toList.contains '/' then
    (load (here.join ⟨name⟩)).map fun content => (⟨name⟩, content)
  else search load false name searchPath

/-- The directories of a search path. -/
def searchPathOf (text : String) : List Path :=
  (Text.splitAt ':' text.toList).map Path.ofChars

end ImagePipeline.Shell
