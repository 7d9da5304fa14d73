import ImagePipeline.Runner.Basic
import ImagePipeline.Shell.Run

/-! The runner that executes commands, on programs that are scripts in the file tree. -/
namespace ImagePipeline

/-- Where commands are started. -/
structure Machine where
  searchPath : String
  here : Path
  /-- The number of the process that starts them. -/
  process : Nat

namespace Machine

def zeroInWord : String := "nul byte found in provided data"

/-- Words and directories cannot hold the character that ends them. -/
def holdsZero (c : Command) : Bool :=
  (c.program :: c.args ++ (c.workingDir.map Path.text).toList).any fun w => w.toList.contains '\x00'

def startError (c : Command) : OsError → CommandError
  | .notFound => .notFound c.program
  | .permissionDenied => .permissionDenied c.program
  | e => .io c.line e.message

/-- A command that is stopped after a time limit is looked at in steps of this length. -/
def pollNanos : Nat := 100000000

/-- The first look that finds the time limit passed. -/
def stopTime (limit : Duration) : Nat := (limit.nanos + pollNanos - 1) / pollNanos * pollNanos

/-- Points in time have a signed 64-bit number of seconds. -/
def clockBound : Nat := Nat.pow 2 63

/-- A time limit that starts at a point in time may end behind the last one. -/
def overflowsClock (now limit : Duration) : Bool := clockBound ≤ (now + limit).seconds

/-- The directory that a command runs in. -/
def directory (m : Machine) (c : Command) : Path :=
  match c.workingDir with
  | some dir => m.here.join dir
  | none => m.here

/-- What starting a command runs. -/
def program (m : Machine) (c : Command) (t : FileTree) :
    Except OsError (Shell.Run Shell.Ending) := do
  let here := m.directory c
  match ← t.find here with
  | (_, .file _ _) => throw .notDirectory
  | (_, .directory) =>
    let scope := Shell.Scope.ofEnvironment [("PATH", m.searchPath)] (m.process + 1)
    match Shell.standardProgram? c.program c.args with
    | some body => return body
    | none =>
      if Shell.shellPaths.contains c.program then
        return Shell.runShell Shell.stepLimit {} scope c.program c.args
      let (path, text) ←
        Shell.locate (Shell.script? t) (Shell.searchPathOf m.searchPath) here c.program
      return Shell.inNewShell { scope with name := path.text, args := c.args }
        (Shell.runText Shell.stepLimit {} text)

/-- The outcome for a result; what did not end in time was stopped. -/
def outcome (c : Command) (limit : Option Duration) (output : String) :
    Except Shell.Stop Shell.Ending → Outcome
  | .ok (.exited 0) | .error (.exited 0) => .finished output
  | .ok (.exited code) | .error (.exited code) => .failed (.nonZeroExit c.line code)
  | .ok .killed | .error .killed => .failed (.terminated c.line)
  | .error .expired =>
    match limit with
    | some limit => .failed (.timedOut c.line limit)
    | none => .failed (.terminated c.line)

def execute (m : Machine) (mode : OutputMode) (c : Command) (limit : Option Duration)
    (t : FileTree) (body : Shell.Run Shell.Ending) : Reply :=
  let (result, s) := body.run.run {
    files := t, scope := {}, here := m.directory c, deadline := limit.map stopTime }
  { outcome := outcome c limit s.output result
    files := s.files
    printed := if mode == .shared then s.output else ""
    logged := s.complaints }

/-- Runs a command. Only one that shares its output has a time limit, which starts at `now`;
a limit of zero stops it before it does anything. -/
def reply (m : Machine) (now : Duration) (mode : OutputMode) (c : Command) (t : FileTree) :
    Reply :=
  let limit := if mode == .shared then c.timeLimit else none
  if holdsZero c then { outcome := .failed (.io c.line zeroInWord), files := t }
  else match m.program c t with
    | .error e => { outcome := .failed (startError c e), files := t }
    | .ok body =>
      match limit with
      | some d =>
        if overflowsClock now d then { outcome := .clockOverflow, files := t }
        else if d.nanos == 0 then { outcome := .failed (.timedOut c.line d), files := t }
        else m.execute mode c limit t body
      | none => m.execute mode c limit t body

/-- Runs commands by a clock that shows how long the machine has been up when a command is
issued behind others. -/
def runnerBy (m : Machine) (clock : List Command → Duration) : Runner where
  executes := true
  reply before mode c files := m.reply (clock before) mode c files

end Machine

/-- What the clock shows where nothing else is said about it. -/
def uptime : Duration := .ofSeconds 1

def systemRunner (m : Machine) : Runner := m.runnerBy fun _ => uptime

end ImagePipeline
