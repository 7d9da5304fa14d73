import ImagePipeline.BaseImage
import ImagePipeline.Command.Error
import ImagePipeline.Files.Basic
import ImagePipeline.Template.Action

/-! Why work fails: a cause, and what was being done, from the outside in. -/
namespace ImagePipeline

inductive Cause where
  | template (fault : Template.Fault)
  | command (error : CommandError)
  | os (error : OsError)
  /-- The text of a document is malformed, or its content does not fit. -/
  | malformedDocument
  | configMissing (path : Path)
  | configExists (path : Path)
  | unknownBase (name : String)
  | architectureNotConfigured (arch : String) (configured : List String)
  | unknownStandard (name : String)
  | unknownAnalyzer (name : String)
  | unknownBenchmark (name : String)
  | invalidTimeout (text : String)
  | probesFailed (labels : List String)
  | invalidConfig (action : String) (count : Nat)
  | validationFailed (count : Nat)
  /-- A time limit ends after the last point in time that a clock can show. -/
  | clockOverflow
  deriving DecidableEq, Repr

namespace Cause

/-- The message and the messages of what lies behind it. -/
def messages : Cause → List String
  | template fault => [fault.message]
  | command (.io line source) => [(CommandError.io line source).message, source]
  | command error => [error.message]
  | os error => [error.message]
  | malformedDocument => []
  | configMissing path => ["config file not found: " ++ path.text]
  | configExists path => [path.text ++ " already exists; pass --force to overwrite"]
  | unknownBase name =>
    ["Unknown base image '" ++ name ++ "'. Supported bases: " ++
      Text.commaSeparated (BaseImage.all.map BaseImage.name)]
  | architectureNotConfigured arch configured =>
    ["architecture '" ++ arch ++ "' is not configured (configured: " ++
      Text.commaSeparated configured ++ ")"]
  | unknownStandard name => ["unknown compliance standard '" ++ name ++ "'"]
  | unknownAnalyzer name => ["unknown SAST tool '" ++ name ++ "'"]
  | unknownBenchmark name => ["unknown benchmark tool '" ++ name ++ "'"]
  | invalidTimeout text => ["invalid integration test timeout '" ++ text ++ "'"]
  | probesFailed labels =>
    [toString labels.length ++ " probe(s) failed: " ++ Text.commaSeparated labels]
  | invalidConfig action count =>
    ["Cannot " ++ action ++ " due to " ++ toString count ++ " validation error(s)"]
  | validationFailed count =>
    ["Configuration validation failed with " ++ toString count ++ " error(s)"]
  | clockOverflow => []

end Cause

structure Failure where
  contexts : List String := []
  cause : Cause
  deriving DecidableEq, Repr

namespace Failure

def within (context : String) (f : Failure) : Failure :=
  { f with contexts := context :: f.contexts }

/-- All messages, the outermost first. -/
def chain (f : Failure) : List String := f.contexts ++ f.cause.messages

def message (f : Failure) : String := ": ".intercalate f.chain

/-- A text whose lines behind the first are moved to the right. -/
def hanging (margin text : String) : String := ("\n" ++ margin).intercalate (text.splitOn "\n")

def numbered : Nat → List String → List String
  | _, [] => []
  | n, text :: rest =>
    let number := toString n
    let blanks := String.ofList (List.replicate (5 - number.length) ' ')
    (blanks ++ number ++ ": " ++ hanging "       " text) :: numbered (n + 1) rest

/-- The messages in lines: the outermost one, and those behind it as its causes, which are
numbered if there are several. -/
def report (f : Failure) : String :=
  match f.chain with
  | [] => ""
  | [text] => text
  | [text, cause] => text ++ "\n\nCaused by:\n    " ++ hanging "    " cause
  | text :: causes => text ++ "\n\nCaused by:\n" ++ "\n".intercalate (numbered 0 causes)

end Failure

end ImagePipeline
