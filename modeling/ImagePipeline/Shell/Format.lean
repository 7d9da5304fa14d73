import ImagePipeline.Text.Blank
import ImagePipeline.Text.Digits

/-! Formats of the shell's `printf`: texts with places for arguments. A format is used
again as long as arguments are left. -/
namespace ImagePipeline.Shell

/-- The character for a letter behind a backslash. -/
def escape? : Char → Option Char
  | 'n' => some '\n'
  | 't' => some '\t'
  | 'r' => some '\r'
  | 'a' => some '\x07'
  | 'b' => some '\x08'
  | 'f' => some '\x0c'
  | 'v' => some '\x0b'
  | '\\' => some '\\'
  | _ => none

/-- A number, with blanks or a sign in front. -/
def integer? (s : String) : Option Int :=
  match Text.trim s.toList with
  | '-' :: digits => (Text.decimal? digits).map fun n => -(n : Int)
  | '+' :: digits => (Text.decimal? digits).map fun n => (n : Int)
  | digits => (Text.decimal? digits).map fun n => (n : Int)

inductive Piece where
  | literal (c : Char)
  | text
  | number
  /-- Nothing is written from here on. -/
  | unknown (directive : String)
  deriving DecidableEq, Repr

def pieces : List Char → List Piece
  | [] => []
  | '%' :: c :: cs =>
    match c with
    | '%' => .literal '%' :: pieces cs
    | 's' => .text :: pieces cs
    | 'd' | 'i' => .number :: pieces cs
    | c => [.unknown (String.ofList ['%', c])]
  | '\\' :: c :: cs =>
    match escape? c with
    | some e => .literal e :: pieces cs
    | none => .literal '\\' :: .literal c :: pieces cs
  | c :: cs => .literal c :: pieces cs

/-- What a format gives. -/
structure Formatted where
  text : String := ""
  problems : List String := []
  /-- The exit code. -/
  status : Nat := 0

namespace Formatted

def write (f : Formatted) (s : String) : Formatted := { f with text := f.text ++ s }

def fail (f : Formatted) (status : Nat) (problem : String) : Formatted :=
  { f with problems := f.problems ++ [problem], status }

/-- Uses a format once, and returns what is left of the arguments unless it stopped. -/
def once : Formatted → List Piece → List String → Formatted × Option (List String)
  | f, [], args => (f, some args)
  | f, .literal c :: rest, args => (f.write (String.singleton c)).once rest args
  | f, .text :: rest, args => (f.write (args.headD "")).once rest args.tail
  | f, .number :: rest, args =>
    let arg := args.headD "0"
    match integer? arg with
    | some n => (f.write (toString n)).once rest args.tail
    | none => ((f.fail 1 (arg ++ ": expected numeric value")).write "0").once rest args.tail
  | f, .unknown directive :: _, _ => (f.fail 2 (directive ++ ": invalid directive"), none)

/-- Uses a format until no argument is left, or once if it takes none. -/
def repeated : Nat → Formatted → List Piece → List String → Formatted
  | 0, f, _, _ => f
  | fuel + 1, f, format, args =>
    match f.once format args with
    | (f, some rest) =>
      if rest.isEmpty || rest.length == args.length then f else repeated fuel f format rest
    | (f, none) => f

end Formatted

/-- Fills a format with arguments. -/
def format (text : String) (args : List String) : Formatted :=
  Formatted.repeated (args.length + 1) {} (pieces text.toList) args

end ImagePipeline.Shell
