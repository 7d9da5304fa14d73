import ImagePipeline.BaseImage
import ImagePipeline.Build.Basic
import ImagePipeline.Json.Basic
import ImagePipeline.Path.Pattern
import ImagePipeline.Text.Lines

/-! Build matrices: which base images a change affects, and the jobs that build them. -/
namespace ImagePipeline

inductive Priority where
  | high
  | medium
  | low
  deriving DecidableEq, Repr

def Priority.name : Priority → String
  | high => "high"
  | medium => "medium"
  | low => "low"

/-- A job that builds an image for one architecture. -/
structure MatrixJob where
  base : BaseImage
  arch : String
  priority : Priority
  deriving DecidableEq, Repr

namespace MatrixJob

def platform (j : MatrixJob) : String := Config.platform j.arch

def json (j : MatrixJob) : Json.Value :=
  .object [("base", .string j.base.name), ("arch", .string j.arch),
    ("platform", .string j.platform), ("priority", .string j.priority.name)]

end MatrixJob

structure BuildMatrix where
  jobs : List MatrixJob
  maxParallel : Nat
  deriving DecidableEq, Repr

namespace BuildMatrix

/-- The jobs in the form that a workflow's strategy takes. -/
def json (m : BuildMatrix) : Json.Value :=
  .object [("include", .array (m.jobs.map MatrixJob.json)),
    ("max-parallel", Json.nat m.maxParallel)]

end BuildMatrix

/-- Files that every image depends on. -/
def sharedFiles : List String := [defaultConfigFile, skeletonFile]

/-- Directories in which every image depends on every file. -/
def sharedDirs : List String := ["configs/", complianceDir ++ "/", ".github/workflows/"]

/-- Patterns of the files that every image depends on. -/
def sharedPatterns : List String := sharedFiles ++ sharedDirs.map fun dir => dir ++ "**/*"

/-- Whether a change of the file affects every image. -/
def isShared (file : String) : Bool :=
  (sharedPatterns.filterMap PathPattern.ofText?).any fun p => p.accepts file.toList

/-- Gathers the bases whose Dockerfiles are among the files, in the usual order. The first file
that every image depends on makes an end of it. -/
def affectedFrom (found : List BaseImage) : List String → List BaseImage
  | [] => BaseImage.all.filter found.contains
  | file :: files =>
    if isShared file then BaseImage.all
    else
      let own := BaseImage.all.filter fun b => file == templateRelative b.name
      affectedFrom (found ++ own) files

/-- The base images whose images a change of these files affects. -/
def affectedBases (files : List String) : List BaseImage := affectedFrom [] files

namespace Config

def installsGo (c : Config) : Bool := c.toolInstalled .languages "go"

def installsTrivy (c : Config) : Bool := c.toolInstalled .security "trivy"

def installsDocker (c : Config) : Bool := c.toolInstalled .devops "docker"

/-- None of the tools that make an image worth building is there. -/
def skipsBuild (c : Config) : Bool :=
  !(c.installsGo || c.installsTrivy || c.installsDocker || c.security.compliance.enabled)

/-- How early the image of a base is to be built. -/
def score (c : Config) (b : BaseImage) : Nat :=
  let ofBase := match b with
    | .ubuntu2404 => 10
    | .ubuntu2204 => 8
    | .alpine320 => 6
  ofBase + (if c.installsGo then 5 else 0) + (if c.installsTrivy then 4 else 0) +
    (if c.installsDocker then 3 else 0)

/-- The highest scores first; those of one score stay in their order. -/
def prioritize (c : Config) (bases : List BaseImage) : List BaseImage :=
  bases.mergeSort fun a b => decide (c.score b ≤ c.score a)

end Config

/-- The first image is built for two architectures, every other one for one. -/
def jobsInOrder : List BaseImage → List MatrixJob
  | [] => []
  | [first] => [⟨first, "amd64", .high⟩, ⟨first, "arm64", .high⟩]
  | first :: second :: rest =>
    [⟨first, "amd64", .high⟩, ⟨first, "arm64", .high⟩, ⟨second, "amd64", .medium⟩] ++
      rest.map fun b => ⟨b, "amd64", .low⟩

def buildMatrix (c : Config) (bases : List BaseImage) (maxParallel : Nat) : BuildMatrix :=
  ⟨jobsInOrder (c.prioritize bases), max maxParallel 1⟩

end ImagePipeline
