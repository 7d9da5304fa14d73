import ImagePipeline.Dockerfile.Lint
import ImagePipeline.Project
import ImagePipeline.Template.Render

/-! The Dockerfile of each base image, rendered from one skeleton. -/
namespace ImagePipeline.Dockerfile

structure Generated where
  base : BaseImage
  path : Path
  issues : List Issue
  deriving DecidableEq, Repr

def reportIssues (base : BaseImage) : List Issue → Work Unit
  | [] => return ()
  | issue :: issues => do
    Work.log {
      level := .warning
      target := "image_foundry::template"
      message := issue.message
      fields := [("base", base.name)] }
    reportIssues base issues

/-- Renders the template for a base and writes the result to its place. -/
def generateFor (c : Config) (p : Project) (skeleton : Path) (time : Timestamp)
    (template : String) (base : BaseImage) : Work Generated := do
  let content ←
    match Template.render template (Template.Context.ofConfig c base time) with
    | .ok content => pure content
    | .error fault =>
      Work.within ("Failed to render " ++ skeleton.text ++ " for " ++ base.name)
        (Work.fail (.template fault))
  let path := p.templatePath base.name
  match path.parent? with
  | some dir => Work.within ("Failed to create directory: " ++ dir.text) (Work.createDirs dir)
  | none => pure ()
  Work.within ("Failed to write Dockerfile: " ++ path.text) (Work.writeText path content)
  let issues := lint content
  reportIssues base issues
  return { base, path, issues }

/-- Generates for each base up to one that fails. -/
def generateEach (c : Config) (p : Project) (skeleton : Path) (time : Timestamp)
    (template : String) : List BaseImage → Work (List Generated)
  | [] => return []
  | base :: bases => do
    let first ← generateFor c p skeleton time template base
    let rest ← generateEach c p skeleton time template bases
    return first :: rest

/-- Generates for the given bases, or for all if none is given. The skeleton is read once,
before anything is written. -/
def generate (c : Config) (p : Project) (skeleton : Path) (bases : List BaseImage)
    (time : Timestamp) : Work (List Generated) := do
  let template ← Work.within ("Failed to read template: " ++ skeleton.text)
    (Work.readText skeleton)
  generateEach c p skeleton time template (if bases.isEmpty then BaseImage.all else bases)

end ImagePipeline.Dockerfile
