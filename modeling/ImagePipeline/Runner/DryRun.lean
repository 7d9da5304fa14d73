import ImagePipeline.Runner.Basic

/-! A dry run: commands are noted and not executed. For a rehearsal, programs can be
given an output, an exit code or a time-out. -/
namespace ImagePipeline

structure DryRun where
  outputs : List (String × String) := []
  failures : List (String × Int) := []
  timeouts : List String := []
  /-- Writes no line per command. -/
  quiet : Bool := false

namespace DryRun

/-- A time-out concerns commands with a time limit only. -/
def outcome (d : DryRun) (c : Command) : Outcome :=
  match c.timeLimit, d.timeouts.contains c.program, d.failures.lookup c.program with
  | some limit, true, _ => .failed (.timedOut c.line limit)
  | _, _, some code => .failed (.nonZeroExit c.line code)
  | _, _, none => .finished ((d.outputs.lookup c.program).getD "")

def logLine (c : Command) : String :=
  LogEvent.line { level := .info, target := "image_foundry::process", message := "dry run",
                  fields := [("command", c.line)] }

def runner (d : DryRun) : Runner where
  executes := false
  reply _ _ c files := {
    outcome := d.outcome c
    files
    logged := if d.quiet then "" else logLine c }

end DryRun

end ImagePipeline
