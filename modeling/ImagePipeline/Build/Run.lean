import ImagePipeline.Json.Reading
import ImagePipeline.Publication.Steps

/-! A whole build: the hooks, an image for each architecture, and what is done with the
images. -/
namespace ImagePipeline

namespace Project

/-- The digest that a build has left in its record. A missing record has none, and a
malformed one is reported and has none. -/
def readDigest (p : Project) (arch : String) : Work (Option String) := do
  let path := p.path (metadataRelative arch)
  match (← Work.files).readText path with
  | .error _ => return none
  | .ok content =>
    match Json.readRecord "MetadataFile" "containerimage.digest" content.toList with
    | .ok digest => return digest
    | .error fault =>
      Work.log {
        level := .warning
        target := "image_foundry::build"
        message := "Unreadable buildx metadata: " ++ fault.message content.toList
        fields := [("path", path.text)] }
      return none

end Project

/-- Builds for one architecture. Only a build that pushes and takes effect leaves a
record with a digest. -/
def buildImage (c : Config) (p : Project) (r : Runner) (push : Bool) (arch : String) :
    Work BuiltImage := do
  r.perform (c.buildStep p arch push)
  let digest ← if push && r.executes then p.readDigest arch else pure none
  return { arch, image := c.imageReference arch, digest }

/-- Builds up to the first architecture that fails. -/
def buildEach (c : Config) (p : Project) (r : Runner) (push : Bool) :
    List String → Work (List BuiltImage)
  | [] => return []
  | arch :: rest => do
    let image ← buildImage c p r push arch
    let images ← buildEach c p r push rest
    return image :: images

def buildImages (c : Config) (p : Project) (r : Runner) (o : BuildOptions) :
    Work (List BuiltImage) := do
  match c.selectArchitectures o.architectures with
  | .error cause => Work.fail cause
  | .ok architectures =>
    if o.push && r.executes then
      let _ ← p.ensureStateDir ""
    buildEach c p r o.push architectures

/-- The step of a hook, if there is a script. -/
def hookSteps (p : Project) (label script : String) : List Step :=
  if Text.isBlankText script then []
  else [⟨"hook:" ++ label, (Command.shell (Text.trimmed script)).inDir p.root,
    label ++ " hook failed"⟩]

/-- The hook before, the images, their publication if they are pushed, the hook behind. -/
def runBuild (c : Config) (p : Project) (r : Runner) (o : BuildOptions) :
    Work (List BuiltImage) := do
  r.performAll (hookSteps p "pre-build" c.custom.preBuild)
  let images ← buildImages c p r o
  if o.push then
    publish c p r images
  else if c.hasReleaseSteps then
    Work.log {
      level := .warning
      target := "image_foundry::build"
      message := "Images were loaded locally, not pushed; " ++
        "skipping SBOM, signing and attestation" }
  r.performAll (hookSteps p "post-build" c.custom.postBuild)
  return images

end ImagePipeline
