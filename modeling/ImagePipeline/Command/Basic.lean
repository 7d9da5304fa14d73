import ImagePipeline.Duration
import ImagePipeline.Path

/-! Commands of other programs, and how a command is shown: as a line that a POSIX
shell splits into the same words. -/
namespace ImagePipeline

structure Command where
  program : String
  args : List String := []
  workingDir : Option Path := none
  timeLimit : Option Duration := none
  deriving DecidableEq, Repr

namespace Command

/-- Runs a script of the user. -/
def shell (script : String) : Command := { program := "sh", args := ["-c", script] }

def addArgs (c : Command) (args : List String) : Command := { c with args := c.args ++ args }

def inDir (c : Command) (dir : Path) : Command := { c with workingDir := some dir }

def within (c : Command) (limit : Duration) : Command := { c with timeLimit := some limit }

/-- Characters that mean themselves to a shell. -/
def isPlainChar (c : Char) : Bool :=
  c.isAlphanum || ['-', '_', '.', '/', ':', '=', ',', '@', '+'].contains c

/-- Inside single quotes every character but the quote means itself. -/
def quotedChars : List Char → List Char
  | [] => []
  | c :: cs => (if c == '\'' then ['\'', '\\', '\'', '\''] else [c]) ++ quotedChars cs

def quoteChars (word : List Char) : List Char :=
  if !word.isEmpty && word.all isPlainChar then word
  else '\'' :: quotedChars word ++ ['\'']

def words (c : Command) : List (List Char) := c.program.toList :: c.args.map String.toList

/-- The quoted words with a space between any two. -/
def lineChars (c : Command) : List Char :=
  List.intercalate [' '] (c.words.map quoteChars)

def line (c : Command) : String := String.ofList c.lineChars

end Command

end ImagePipeline
