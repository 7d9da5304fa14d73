import ImagePipeline.Session

/-! Runners: what happens when a command is issued. -/
namespace ImagePipeline

structure Runner where
  /-- Whether commands take effect; only then is there anything to read afterwards. -/
  executes : Bool
  /-- The reply to a command after those issued before. -/
  reply : List Command → OutputMode → Command → FileTree → Reply

/-- A command that is counted as a step, and what is said where it fails. -/
structure Step where
  metric : String
  command : Command
  context : String
  deriving DecidableEq, Repr

namespace Runner

def issue (r : Runner) (mode : OutputMode) (c : Command) :
    Work (Except CommandError String) := do
  let s ← get
  let reply := r.reply s.issued mode c s.files
  set { s with
    exchanges := s.exchanges ++ [Exchange.mk mode c s.files reply]
    files := reply.files
    printed := s.printed ++ reply.printed
    logged := s.logged ++ reply.logged }
  match reply.outcome with
  | .finished output => return .ok output
  | .failed error => return .error error
  | .clockOverflow => Work.fail .clockOverflow

def run (r : Runner) (c : Command) : Work (Except CommandError Unit) := do
  match ← r.issue .shared c with
  | .ok _ => return .ok ()
  | .error e => return .error e

/-- Runs a command for its output. -/
def capture (r : Runner) (c : Command) : Work String := do
  match ← r.issue .captured c with
  | .ok output => return output
  | .error e => Work.fail (.command e)

/-- Runs and counts a step; whether it failed is the answer. -/
def attempt (r : Runner) (metric : String) (c : Command) : Work (Except CommandError Unit) := do
  let result ← r.run c
  Work.count metric (match result with
    | .ok _ => false
    | .error _ => true)
  return result

/-- Runs and counts a step that must succeed. -/
def perform (r : Runner) (s : Step) : Work Unit := do
  match ← r.attempt s.metric s.command with
  | .ok _ => return ()
  | .error e => Work.within s.context (Work.fail (.command e))

/-- Performs steps up to the first that fails. -/
def performAll (r : Runner) : List Step → Work Unit
  | [] => return ()
  | s :: steps => do
    r.perform s
    r.performAll steps

end Runner

end ImagePipeline
