import ImagePipeline.Path

/-! A tree of files. Places are reached by paths, whose every step must lead through
a directory. A relative path starts at the top of the tree. -/
namespace ImagePipeline

inductive OsError where
  | notFound
  | notDirectory
  | isDirectory
  | alreadyExists
  | permissionDenied
  | notExecutableFormat
  | invalidText
  /-- A path holds the character that ends paths. -/
  | zeroInPath
  deriving DecidableEq, Repr

def OsError.message : OsError → String
  | notFound => "No such file or directory (os error 2)"
  | notDirectory => "Not a directory (os error 20)"
  | isDirectory => "Is a directory (os error 21)"
  | alreadyExists => "File exists (os error 17)"
  | permissionDenied => "Permission denied (os error 13)"
  | notExecutableFormat => "Exec format error (os error 8)"
  | invalidText => "stream did not contain valid UTF-8"
  | zeroInPath => "file name contained an unexpected NUL byte"

/-- The names of the directories on the way from the top, and of the place itself. -/
abbrev Location := List String

inductive Entry where
  | directory
  | file (content : ByteArray) (executable : Bool)

structure FileTree where
  /-- Of two entries for a place the first counts. The top is always a directory. -/
  entries : List (Location × Entry)

namespace FileTree

def empty : FileTree := ⟨[]⟩

def lookup (t : FileTree) (l : Location) : Option Entry :=
  if l.isEmpty then some .directory else t.entries.lookup l

def replaceEntry (l : Location) (e : Entry) : List (Location × Entry) → List (Location × Entry)
  | [] => [(l, e)]
  | (other, kept) :: rest =>
    if other == l then (l, e) :: rest else (other, kept) :: replaceEntry l e rest

def put (t : FileTree) (l : Location) (e : Entry) : FileTree :=
  ⟨replaceEntry l e t.entries⟩

/-- The steps of a path. -/
def stepsOf (p : Path) : List String :=
  ((Text.splitAt '/' p.chars).filter fun s => !(s.isEmpty || s == ['.'])).map String.ofList

/-- A path that ends in a slash or a single dot leads to a directory only. -/
def wantsDirectory (p : Path) : Bool :=
  match p.chars.reverse with
  | '/' :: _ => true
  | '.' :: '/' :: _ => true
  | ['.'] => true
  | _ => false

/-- Goes on from a place. Every place that a step leaves must be a directory. -/
def walk (t : FileTree) : Location → List String → Except OsError Location
  | here, [] => .ok here
  | here, step :: steps =>
    match t.lookup here with
    | none => .error .notFound
    | some (.file _ _) => .error .notDirectory
    | some .directory => walk t (if step == ".." then here.dropLast else here ++ [step]) steps

/-- The place that a path leads to, where there may be nothing yet. -/
def locate (t : FileTree) (p : Path) : Except OsError Location :=
  if p.isEmpty then .error .notFound
  else if p.chars.contains '\x00' then .error .zeroInPath
  else t.walk [] (stepsOf p)

/-- What a path leads to. -/
def find (t : FileTree) (p : Path) : Except OsError (Location × Entry) := do
  let l ← t.locate p
  match t.lookup l with
  | none => throw .notFound
  | some .directory => return (l, .directory)
  | some (.file content executable) =>
    if wantsDirectory p then throw .notDirectory
    return (l, .file content executable)

def pathExists (t : FileTree) (p : Path) : Bool :=
  match t.find p with
  | .ok _ => true
  | .error _ => false

def isFile (t : FileTree) (p : Path) : Bool :=
  match t.find p with
  | .ok (_, .file _ _) => true
  | _ => false

def isDirectory (t : FileTree) (p : Path) : Bool :=
  match t.find p with
  | .ok (_, .directory) => true
  | _ => false

def read (t : FileTree) (p : Path) : Except OsError ByteArray := do
  match ← t.find p with
  | (_, .file content _) => return content
  | (_, .directory) => throw .isDirectory

/-- Reads a file that must hold text. -/
def readText (t : FileTree) (p : Path) : Except OsError String := do
  match String.fromUTF8? (← t.read p) with
  | some s => return s
  | none => throw .invalidText

/-- Gives a file a new content, or makes it; the directory must exist. -/
def write (t : FileTree) (p : Path) (content : ByteArray) : Except OsError FileTree := do
  let l ← t.locate p
  match t.lookup l with
  | none => if wantsDirectory p then throw .isDirectory else return t.put l (.file content false)
  | some .directory => throw .isDirectory
  | some (.file _ executable) =>
    if wantsDirectory p then throw .notDirectory
    return t.put l (.file content executable)

/-- Makes one directory. -/
def createDir (t : FileTree) (p : Path) : Except OsError FileTree := do
  let l ← t.locate p
  match t.lookup l with
  | none => return t.put l .directory
  | some _ => throw .alreadyExists

/-- Makes a directory and those on the way to it that are missing. Those made before
a failure stay. -/
def createDirsFrom : Nat → FileTree → Path → Except OsError Unit × FileTree
  | 0, t, _ => (.error .notFound, t)
  | fuel + 1, t, p =>
    if p.isEmpty then (.ok (), t)
    else match t.createDir p with
      | .ok t => (.ok (), t)
      | .error .notFound =>
        match p.parent? with
        | none => (.error .notFound, t)
        | some parent =>
          match createDirsFrom fuel t parent with
          | (.error e, t) => (.error e, t)
          | (.ok (), t) =>
            match t.createDir p with
            | .ok t => (.ok (), t)
            | .error e => (if t.isDirectory p then .ok () else .error e, t)
      | .error e => (if t.isDirectory p then .ok () else .error e, t)

def createDirs (t : FileTree) (p : Path) : Except OsError Unit × FileTree :=
  createDirsFrom (p.components.length + 2) t p

/-- Removes a place and all below it. -/
def remove (t : FileTree) (p : Path) : FileTree :=
  match t.find p with
  | .ok (l, _) => ⟨t.entries.filter fun e => !l.isPrefixOf e.1⟩
  | .error _ => t

/-- Everything below a place, as paths from there with a slash behind a directory, in
the order of their characters. -/
def listing (t : FileTree) (l : Location) : List String :=
  let below := t.entries.filterMap fun (place, e) =>
    if l.isPrefixOf place && place != l then
      let path := "/".intercalate (place.drop l.length)
      some <| match e with
        | .directory => path ++ "/"
        | .file _ _ => path
    else none
  below.mergeSort fun a b => decide (a ≤ b)

end FileTree

end ImagePipeline
