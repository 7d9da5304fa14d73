import ImagePipeline.Text.Lines
import ImagePipeline.Text.Pieces

/-! Structural problems of a Dockerfile. -/
namespace ImagePipeline.Dockerfile

inductive Issue where
  | missingFrom
  | missingFinalStage
  | singleStage
  deriving DecidableEq, Repr

def Issue.message : Issue → String
  | missingFrom => "Missing FROM instruction"
  | missingFinalStage => "Missing final layer"
  | singleStage => "Expected multiple FROM instructions for multi-stage build"

def sameKeyword (keyword : String) (word : List Char) : Bool :=
  Text.sameIgnoringAsciiCase keyword (String.ofList word)

/-- The words of each line that starts a stage. -/
def stageLines (content : List Char) : List (List (List Char)) :=
  ((Text.lines content).map Text.words).filter fun words =>
    words.head?.any (sameKeyword "FROM")

/-- A stage line that ends by naming the stage `final`. -/
def namesFinal (words : List (List Char)) : Bool :=
  match words.reverse with
  | name :: keyword :: _ :: _ => sameKeyword "AS" keyword && name == "final".toList
  | _ => false

def lint (content : String) : List Issue :=
  let stages := stageLines content.toList
  (if stages.isEmpty then [.missingFrom] else []) ++
  (if stages.any namesFinal then [] else [.missingFinalStage]) ++
  (if stages.length < 2 then [.singleStage] else [])

end ImagePipeline.Dockerfile
