import ImagePipeline.Matrix.Basic

/-! Planning a build matrix. -/
namespace ImagePipeline

inductive MatrixMode where
  /-- The images that are affected by changes against the main branch. -/
  | changed
  /-- Every image, if the configuration makes them worth building. -/
  | configured
  | all
  | selected (bases : List BaseImage)
  deriving DecidableEq, Repr

namespace MatrixMode

def ofName? (s : String) (bases : List BaseImage) : Option MatrixMode :=
  if s == "changed" then some .changed
  else if s == "config" then some .configured
  else if s == "all" then some .all
  else if s == "select" then some (.selected bases)
  else none

end MatrixMode

def defaultMaxParallel : Nat := 2

inductive EmptyReason where
  | noChanges
  | noImages
  deriving DecidableEq, Repr

def EmptyReason.name : EmptyReason → String
  | noChanges => "no_changes"
  | noImages => "no_images"

inductive MatrixPlan where
  | empty (reason : EmptyReason)
  | build (bases : List BaseImage) (matrix : BuildMatrix)
  deriving DecidableEq, Repr

def diffRange : String := "origin/main...HEAD"

def diffCommand (p : Project) : Command where
  program := "git"
  args := ["diff", "--name-only", diffRange]
  workingDir := some p.root

/-- The lines of the output that are not blank, trimmed. -/
def listedFiles (output : String) : List String :=
  ((Text.linesOf output).map Text.trimmed).filter fun l => !l.isEmpty

def changedFiles (p : Project) (r : Runner) : Work (List String) := do
  let output ← Work.within "failed to list changed files" (r.capture (diffCommand p))
  return listedFiles output

/-- No image at all if the configuration makes none worth building. -/
def worthBuilding (c : Config) (bases : List BaseImage) : List BaseImage :=
  if c.skipsBuild then [] else bases

def planFor (c : Config) (bases : List BaseImage) (maxParallel : Nat) : MatrixPlan :=
  if bases.isEmpty then .empty .noImages
  else .build bases (buildMatrix c bases maxParallel)

/-- What is printed in place of a matrix. -/
def EmptyReason.json (r : EmptyReason) : Json.Value :=
  .object [("images", .array []), ("reason", .string r.name)]

def planMatrix (c : Config) (p : Project) (r : Runner) (mode : MatrixMode) (maxParallel : Nat) :
    Work MatrixPlan := do
  match mode with
  | .changed =>
    let files ← changedFiles p r
    if files.isEmpty then return .empty .noChanges
    return planFor c (worthBuilding c (affectedBases files)) maxParallel
  | .configured => return planFor c (worthBuilding c BaseImage.all) maxParallel
  | .all => return planFor c BaseImage.all maxParallel
  | .selected bases => return planFor c bases maxParallel

end ImagePipeline
