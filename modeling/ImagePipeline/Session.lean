import ImagePipeline.Command.Exchange
import ImagePipeline.Failure
import ImagePipeline.Metrics.Basic

/-! A session: the files that a run works on, and the record of what it does. Work
that fails keeps the session too. -/
namespace ImagePipeline

/-- What a run itself has done to the files at a path, or has tried to do. -/
structure FileAction where
  path : Path
  result : Except OsError Unit

structure Session where
  files : FileTree := .empty
  /-- What the runner was asked and has replied, in order. -/
  exchanges : List Exchange := []
  /-- The changes of files that the run itself makes; commands may make more. -/
  actions : List FileAction := []
  metrics : Metrics := {}
  printed : String := ""
  logged : String := ""

/-- The commands given to the runner, in order. -/
def Session.issued (s : Session) : List Command := s.exchanges.map Exchange.command

abbrev Work := ExceptT Failure (StateM Session)

inductive LogLevel where
  | info
  | warning
  | error
  deriving DecidableEq, Repr

def LogLevel.label : LogLevel → String
  | info => "INFO"
  | warning => "WARN"
  | error => "ERROR"

structure LogEvent where
  level : LogLevel
  target : String
  message : String
  fields : List (String × String) := []

/-- One line: the level, who reports, the message and the fields. -/
def LogEvent.line (e : LogEvent) : String :=
  e.level.label ++ " " ++ e.target ++ ": " ++ e.message ++
    String.join (e.fields.map fun (name, value) => " " ++ name ++ "=" ++ value) ++ "\n"

namespace Work

def fail {α : Type} (cause : Cause) : Work α := throw { cause }

/-- Says what was being done in case the work fails. -/
def within {α : Type} (context : String) (t : Work α) : Work α :=
  ExceptT.mk do
    match ← t.run with
    | .ok a => return .ok a
    | .error f => return .error (f.within context)

def files : Work FileTree := return (← get).files

def log (e : LogEvent) : Work Unit := modify fun s => { s with logged := s.logged ++ e.line }

def print (text : String) : Work Unit := modify fun s => { s with printed := s.printed ++ text }

def printLine (text : String) : Work Unit := print (text ++ "\n")

/-- The result of a file operation, whose failure is that of the work. -/
def ofOs {α : Type} : Except OsError α → Work α
  | .ok a => return a
  | .error e => fail (.os e)

def readText (p : Path) : Work String := do ofOs ((← files).readText p)

def readBytes (p : Path) : Work ByteArray := do ofOs ((← files).read p)

/-- Changes the files at a path, and notes how that went. -/
def alter (p : Path) (change : FileTree → Except OsError Unit × FileTree) : Work Unit := do
  let (result, changed) := change (← files)
  modify fun s => { s with files := changed, actions := s.actions ++ [⟨p, result⟩] }
  ofOs result

def writeFile (p : Path) (content : ByteArray) : Work Unit :=
  alter p fun t =>
    match t.write p content with
    | .ok written => (.ok (), written)
    | .error e => (.error e, t)

def writeText (p : Path) (content : String) : Work Unit := writeFile p content.toUTF8

def createDirs (p : Path) : Work Unit := alter p fun t => t.createDirs p

/-- Makes the directory that a path lies in. -/
def createParent (context : String) (p : Path) : Work Unit := do
  match p.parent? with
  | some parent =>
    unless parent.isEmpty do
      within (context ++ parent.text) (createDirs parent)
  | none => return ()

/-- Counts a step that has ended. -/
def count (step : String) (failed : Bool) : Work Unit :=
  modify fun s => { s with metrics := s.metrics.stop { step, failed } 0 }

end Work

end ImagePipeline
