import ImagePipeline.Command.Error
import ImagePipeline.Files.Basic

/-! What passes between a run and the runner of its commands. -/
namespace ImagePipeline

/-- A command either shares the output of the program that issues it, or its output is
taken as the answer. -/
inductive OutputMode where
  | shared
  | captured
  deriving DecidableEq, Repr

inductive Outcome where
  | finished (output : String)
  | failed (error : CommandError)
  | clockOverflow
  deriving DecidableEq, Repr

/-- The outcome of a command, the files after it, and what it has written to the
shared output and to the log. -/
structure Reply where
  outcome : Outcome
  files : FileTree
  printed : String := ""
  logged : String := ""

/-- A command that was issued, the files that it found, and the reply to it. -/
structure Exchange where
  mode : OutputMode
  command : Command
  found : FileTree
  reply : Reply

end ImagePipeline
