import ImagePipeline.Text.Blank
import ImagePipeline.Text.Pieces

/-! The lines of a template. A line that consists of one action opens, divides or
closes a block; every other line is text, in which actions stand for values. -/
namespace ImagePipeline.Template

/-- What is wrong with a template, and in which line, counted from one. -/
inductive Fault where
  | unterminated (line : Nat)
  | strayEnd (line : Nat)
  | strayElse (line : Nat)
  | unsupported (line : Nat) (action : String)
  | unknownVariable (line : Nat) (name : String)
  | unknownFlag (line : Nat) (name : String)
  | dotOutsideRange (line : Nat)
  | unclosedAction (line : Nat)
  deriving DecidableEq, Repr

namespace Fault

def line : Fault → Nat
  | unterminated n | strayEnd n | strayElse n | unsupported n _ | unknownVariable n _
  | unknownFlag n _ | dotOutsideRange n | unclosedAction n => n

def problem : Fault → String
  | unterminated _ => "block opened here is never closed with `\x7b\x7b- end \x7d\x7d`"
  | strayEnd _ => "`end` without a matching `if` or `range`"
  | strayElse _ => "`else` outside of an `if` block"
  | unsupported _ action => "unsupported template action `" ++ action ++ "`"
  | unknownVariable _ name => "unknown variable `." ++ name ++ "`"
  | unknownFlag _ name => "unknown flag `." ++ name ++ "`"
  | dotOutsideRange _ => "`\x7b\x7b . \x7d\x7d` used outside of a `range` block"
  | unclosedAction _ => "unclosed `\x7b\x7b`"

def message (f : Fault) : String := "line " ++ toString f.line ++ ": " ++ f.problem

end Fault

def openMark : List Char := ['{', '{']

def closeMark : List Char := ['}', '}']

/-- The inside of an action without the blanks and the `-` at each end. -/
def actionText (inner : List Char) : List Char :=
  let s := Text.trim inner
  let s := (Text.afterPrefix? ['-'] s).getD s
  let s := (Text.beforeSuffix? ['-'] s).getD s
  Text.trim s

def isNameChar (c : Char) : Bool := c.isAlphanum || c == '_'

/-- The name in `.Name` or `$.Name`. -/
def fieldName? (word : List Char) : Option (List Char) :=
  let name? := match word with
    | '$' :: '.' :: name => some name
    | '.' :: name => some name
    | _ => none
  name?.filter fun name => !name.isEmpty && name.all isNameChar

inductive Guard where
  | flag (name : String) (negated : Bool)
  | baseIn (names : List String)
  deriving DecidableEq, Repr

inductive LineKind where
  | text
  | opening (guard : Guard)
  | repeating
  | otherwise
  | closing
  deriving DecidableEq, Repr

/-- The text between the double quotes that a word starts and ends with. -/
def quoted? (word : List Char) : Option String :=
  ((Text.afterPrefix? ['"'] word).bind (Text.beforeSuffix? ['"'])).map String.ofList

/-- The condition behind an `if`. -/
def guardOf? : List (List Char) → Option Guard
  | [flag] => (fieldName? flag).map fun name => .flag (String.ofList name) false
  | first :: second :: rest =>
    if rest.isEmpty && first == "not".toList then
      (fieldName? second).map fun name => .flag (String.ofList name) true
    else if !rest.isEmpty && first == "eq".toList then
      if fieldName? second == some "Base".toList then (rest.mapM quoted?).map .baseIn else none
    else none
  | [] => none

/-- Words that make a line an action, also where the rest of it is not understood. -/
def reserved : List (List Char) :=
  ["else", "end", "with", "define", "template", "block"].map String.toList

def packageList : List (List (List Char)) :=
  [[".AdditionalPackages".toList], ["$.AdditionalPackages".toList]]

/-- What the words of an action make of its line, or none where the action is not
supported. -/
def kindOfWords? : List (List Char) → Option LineKind
  | [] => some .text
  | word :: rest =>
    if word == "if".toList then (guardOf? rest).map .opening
    else if word == "range".toList then
      if packageList.contains rest then some .repeating else none
    else if word == "else".toList && rest.isEmpty then some .otherwise
    else if word == "end".toList && rest.isEmpty then some .closing
    else if reserved.contains word then none
    else some .text

/-- The inside of the action that a line consists of. -/
def soleAction? (line : List Char) : Option (List Char) :=
  ((Text.afterPrefix? openMark (Text.trim line)).bind (Text.beforeSuffix? closeMark)).filter
    fun inner => !Text.contains openMark inner && !Text.contains closeMark inner

/-- The kind of the line with number `n`. -/
def kindOf (n : Nat) (line : List Char) : Except Fault LineKind :=
  match soleAction? line with
  | none => .ok .text
  | some inner =>
    match kindOfWords? (Text.words (actionText inner)) with
    | some kind => .ok kind
    | none => .error (.unsupported n (String.ofList (actionText inner)))

end ImagePipeline.Template
