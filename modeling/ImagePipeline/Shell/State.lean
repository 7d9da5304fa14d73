import ImagePipeline.Shell.Script
import ImagePipeline.Files.Basic

/-! What a running script reads and changes, and where its text goes. Time passes only
where a script sleeps. -/
namespace ImagePipeline.Shell

structure State where
  files : FileTree
  scope : Scope
  /-- The current directory. -/
  here : Path
  output : String := ""
  complaints : String := ""
  elapsedNanos : Nat := 0
  /-- When the script is stopped. -/
  deadline : Option Nat := none

/-- The current directory without detours. -/
def State.hereText (s : State) : String :=
  match s.files.locate s.here with
  | .ok place => "/" ++ "/".intercalate place
  | .error _ => s.here.text

/-- Why a shell ends before its script does. -/
inductive Stop where
  | exited (code : Nat)
  | killed
  /-- The deadline has passed, or there are too many steps. -/
  | expired
  deriving DecidableEq, Repr

abbrev Run := ExceptT Stop (StateM State)

/-- Where text goes. -/
inductive Sink where
  | output
  | complaints
  | file (place : Location)
  | nowhere
  deriving DecidableEq, Repr

structure Streams where
  output : Sink := .output
  complaints : Sink := .complaints

def emit (sink : Sink) (text : String) : Run Unit :=
  modify fun s =>
    match sink with
    | .output => { s with output := s.output ++ text }
    | .complaints => { s with complaints := s.complaints ++ text }
    | .nowhere => s
    | .file l =>
      match s.files.lookup l with
      | some (.file content executable) =>
        { s with files := s.files.put l (.file (content ++ text.toUTF8) executable) }
      | _ => s

def inScope (f : Scope → Scope) : Run Unit := modify fun s => { s with scope := f s.scope }

def setStatus (code : Nat) : Run Unit := inScope fun scope => { scope with status := code }

def status : Run Nat := return (← get).scope.status

/-- Gives the current directory its variable. -/
def bindHere : Run Unit := do
  let text := (← get).hereText
  inScope fun scope => scope.assign "PWD" text

/-- Says what is wrong with the command in a line. -/
def complain (streams : Streams) (line : Nat) (message : String) : Run Unit := do
  emit streams.complaints ((← get).scope.name ++ ": " ++ toString line ++ ": " ++ message ++ "\n")

/-- Lets time pass. -/
def passTime (nanos : Nat) : Run Unit := do
  let s ← get
  let now := s.elapsedNanos + nanos
  set { s with elapsedNanos := now }
  if s.deadline.any fun d => d < now then throw .expired

/-! ### Redirections -/

def nullDevice : String := "/dev/null"

def openProblem (creates : Bool) : OsError → String
  | .notFound => if creates then "Directory nonexistent" else "No such file"
  | .notDirectory => "Not a directory"
  | .isDirectory => "Is a directory"
  | _ => "Permission denied"

/-- Opens a file for writing, empty or as it is. -/
def openSink (append : Bool) (target : String) : Run (Except OsError Sink) := do
  if target == nullDevice then return .ok .nowhere
  let s ← get
  let path := s.here.join ⟨target⟩
  let kept := if append then (s.files.read path).toOption.getD .empty else .empty
  match s.files.write path kept, s.files.locate path with
  | .ok files, .ok place =>
    set { s with files }
    return .ok (.file place)
  | .error e, _ | _, .error e => return .error e

/-- Applies one redirection; none after a complaint. -/
def redirect (line : Nat) (streams : Streams) (r : Redirect) : Run (Option Streams) := do
  let target := (← get).scope.text r.target
  let direct (sink : Sink) : Streams :=
    if r.descriptor == 1 then { streams with output := sink }
    else if r.descriptor == 2 then { streams with complaints := sink }
    else streams
  match r.kind with
  | .duplicate =>
    if target == "1" then return some (direct streams.output)
    else if target == "2" then return some (direct streams.complaints)
    else return some (direct .nowhere)
  | .read =>
    let s ← get
    if target == nullDevice then return some streams
    match s.files.read (s.here.join ⟨target⟩) with
    | .ok _ | .error .isDirectory => return some streams
    | .error e =>
      complain streams line ("cannot open " ++ target ++ ": " ++ openProblem false e)
      return none
  | .write | .append =>
    match ← openSink (r.kind == .append) target with
    | .ok sink => return some (direct sink)
    | .error e =>
      complain streams line ("cannot create " ++ target ++ ": " ++ openProblem true e)
      return none

def redirectAll (line : Nat) (streams : Streams) : List Redirect → Run (Option Streams)
  | [] => return some streams
  | r :: rest => do
    match ← redirect line streams r with
    | some streams => redirectAll line streams rest
    | none => return none

end ImagePipeline.Shell
