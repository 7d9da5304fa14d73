import ImagePipeline.Failure
import ImagePipeline.Runner.Basic
import ImagePipeline.Project

/-! Building an image for each architecture: the images that result, and the commands
that build them. -/
namespace ImagePipeline

structure BuildOptions where
  /-- Pushes the images to their registry; else they are loaded into the local daemon. -/
  push : Bool := true
  /-- Some of the configured architectures; none for all of them. -/
  architectures : List String := []
  deriving DecidableEq, Repr

structure BuiltImage where
  arch : String
  image : String
  digest : Option String
  deriving DecidableEq, Repr

namespace BuiltImage

/-- An image reference without its tag. What follows the last colon is no tag if it has
a slash; the colon then precedes the port of a registry. -/
def repositoryOf (image : String) : String :=
  match Text.cutLast ':' image.toList with
  | some (before, after) =>
    if before.isEmpty || after.contains '/' then image else String.ofList before
  | none => image

/-- The reference that names this very build if its digest is known. -/
def pinnedReference (b : BuiltImage) : String :=
  match b.digest with
  | some digest => repositoryOf b.image ++ "@" ++ digest
  | none => b.image

end BuiltImage

namespace Config

/-- The Dockerfile that the images are built from, below the root. -/
def dockerfile (c : Config) : String := templateRelative (Text.trimmed c.base.template)

/-- The configured architectures, or those of them that are asked for. -/
def selectArchitectures (c : Config) (wanted : List String) : Except Cause (List String) :=
  let configured := c.base.architectures
  if wanted.isEmpty then .ok configured
  else match wanted.find? fun a => !configured.contains a with
    | some a => .error (.architectureNotConfigured a configured)
    | none => .ok (configured.filter fun a => wanted.contains a)

/-- The labels of the image; blank ones are left out. -/
def labelArgs (c : Config) : List String :=
  [("title", c.name), ("version", c.version), ("description", c.description),
    ("authors", c.author), ("licenses", c.license)].flatMap fun (key, value) =>
    if Text.isBlankText value then []
    else ["--label", "org.opencontainers.image." ++ key ++ "=" ++ Text.trimmed value]

def cacheArgs (c : Config) (arch : String) : List String :=
  if c.optimization.cacheLayers then
    ["--cache-from", "type=local,src=" ++ cacheRelative arch,
      "--cache-to", "type=local,dest=" ++ cacheRelative arch ++ ",mode=max"]
  else []

/-- Attestations that the build itself attaches to an image it pushes. -/
def attestationArgs (c : Config) (push : Bool) : List String :=
  let attestation := c.output.attestation
  if push && attestation.enabled then
    (if attestation.provenance then ["--provenance=mode=max"] else []) ++
    (if attestation.sbomAttestation then ["--sbom=true"] else [])
  else []

def buildCommand (c : Config) (p : Project) (arch : String) (push : Bool) : Command :=
  let args := ["buildx", "build", "--platform", platform arch, "--file", c.dockerfile,
      "--tag", c.imageReference arch] ++
    c.toolBuildArgs.flatMap (fun arg => ["--build-arg", arg]) ++
    c.labelArgs ++ c.cacheArgs arch ++ c.attestationArgs push ++
    (if push then ["--metadata-file", metadataRelative arch, "--push"] else ["--load"]) ++ ["."]
  { program := "docker", args, workingDir := some p.root }

def buildStep (c : Config) (p : Project) (arch : String) (push : Bool) : Step where
  metric := "build:" ++ arch
  command := c.buildCommand p arch push
  context := "failed to build for " ++ arch

end Config

end ImagePipeline
