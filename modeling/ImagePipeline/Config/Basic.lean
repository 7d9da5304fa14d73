import ImagePipeline.OrderedMap
import ImagePipeline.Text.Blank
import ImagePipeline.Text.Pieces

/-! The configuration of a project: what image is built, from which base, with
which tools, and how it is scanned, tested and published. Every field has a
default, so a project states only what differs. -/
namespace ImagePipeline

structure ImageName where
  name : String := ""
  tag : String := ""
  registry : String := ""
  owner : String := ""
  deriving DecidableEq, Repr

structure BaseChoice where
  template : String := ""
  architectures : List String := []
  deriving DecidableEq, Repr

structure Tool where
  install : Bool := false
  version : String := ""
  deriving DecidableEq, Repr

inductive ToolCategory where
  | languages
  | security
  | devops
  deriving DecidableEq, Repr

structure ToolSelection where
  languages : OrderedMap Tool := .empty
  security : OrderedMap Tool := .empty
  devops : OrderedMap Tool := .empty
  packages : List String := []
  deriving DecidableEq, Repr

structure VulnerabilityScan where
  enabled : Bool := false
  severity : String := ""
  exitCode : Int32 := 1
  ignoreUnfixed : Bool := false
  deriving DecidableEq, Repr

structure CodeAnalysis where
  enabled : Bool := false
  languages : List String := []
  deriving DecidableEq, Repr

structure Compliance where
  enabled : Bool := false
  standards : List String := []
  deriving DecidableEq, Repr

structure SourceAnalysis where
  enabled : Bool := false
  tools : List String := []
  deriving DecidableEq, Repr

structure Security where
  trivy : VulnerabilityScan := {}
  codeql : CodeAnalysis := {}
  compliance : Compliance := {}
  sast : SourceAnalysis := {}
  deriving DecidableEq, Repr

structure Optimization where
  multiStage : Bool := false
  cacheLayers : Bool := false
  minify : Bool := false
  stripDebug : Bool := false
  deriving DecidableEq, Repr

structure StructureTests where
  enabled : Bool := false
  config : String := ""
  deriving DecidableEq, Repr

structure IntegrationTests where
  enabled : Bool := false
  timeout : String := ""
  deriving DecidableEq, Repr

structure PerformanceTests where
  enabled : Bool := false
  benchmarkTool : String := ""
  deriving DecidableEq, Repr

structure Testing where
  structureTests : StructureTests := {}
  integrationTests : IntegrationTests := {}
  performanceTests : PerformanceTests := {}
  deriving DecidableEq, Repr

structure WorkflowMatrix where
  os : List String := []
  arch : List String := []
  deriving DecidableEq, Repr

structure Workflows where
  matrix : WorkflowMatrix := {}
  parallel : List String := []
  deriving DecidableEq, Repr

structure Artifacts where
  retentionDays : UInt32 := 0
  deriving DecidableEq, Repr

structure Slack where
  enabled : Bool := false
  webhook : String := ""
  deriving DecidableEq, Repr

structure Notifications where
  slack : Slack := {}
  deriving DecidableEq, Repr

structure Automation where
  githubActions : Workflows := {}
  artifacts : Artifacts := {}
  notifications : Notifications := {}
  deriving DecidableEq, Repr

structure Sbom where
  enabled : Bool := false
  formats : List String := []
  deriving DecidableEq, Repr

structure Cosign where
  enabled : Bool := false
  keyless : Bool := false
  deriving DecidableEq, Repr

structure Signing where
  enabled : Bool := false
  cosign : Cosign := {}
  deriving DecidableEq, Repr

structure Attestation where
  enabled : Bool := false
  provenance : Bool := false
  sbomAttestation : Bool := false
  deriving DecidableEq, Repr

structure Publication where
  sbom : Sbom := {}
  signing : Signing := {}
  attestation : Attestation := {}
  deriving DecidableEq, Repr

structure Hooks where
  preBuild : String := ""
  postBuild : String := ""
  deriving DecidableEq, Repr

structure Config where
  name : String := ""
  version : String := ""
  description : String := ""
  author : String := ""
  license : String := ""
  image : ImageName := {}
  base : BaseChoice := {}
  tools : ToolSelection := {}
  security : Security := {}
  optimization : Optimization := {}
  testing : Testing := {}
  pipeline : Automation := {}
  output : Publication := {}
  custom : Hooks := {}
  deriving DecidableEq, Repr

namespace ToolSelection

def category (t : ToolSelection) : ToolCategory → OrderedMap Tool
  | .languages => t.languages
  | .security => t.security
  | .devops => t.devops

/-- Every tool, languages first, each category in the order of the names. -/
def all (t : ToolSelection) : List (ToolCategory × String × Tool) :=
  [ToolCategory.languages, .security, .devops].flatMap fun c =>
    (t.category c).entries.map fun (name, tool) => (c, name, tool)

end ToolSelection

/-- An architecture as it stands in a tag or file name: `arm/v7` becomes `arm-v7`. -/
def archSlug (arch : String) : String := Text.replaceChar '/' '-' (Text.trimmed arch)

/-- The name of a tool inside a build argument: upper case, with underscores. -/
def buildArgName (tool : String) : String :=
  String.ofList <| (Text.trim tool.toList).map fun c =>
    if c == '-' || c == '.' || c == ' ' then '_' else c.toUpper

namespace Config

/-- Registry, owner and name of the image, as far as they are given. -/
def repository (c : Config) : String :=
  let name := if c.image.name.isEmpty then c.name else c.image.name
  "/".intercalate ([c.image.registry, c.image.owner, name].filter fun s => !s.isEmpty)

def tag (c : Config) : String := if c.image.tag.isEmpty then "latest" else c.image.tag

/-- The tag of the image for one architecture. -/
def imageReference (c : Config) (arch : String) : String :=
  c.repository ++ ":" ++ c.tag ++ "-" ++ archSlug arch

def platform (arch : String) : String := "linux/" ++ arch

def tool? (c : Config) (category : ToolCategory) (name : String) : Option Tool :=
  (c.tools.category category).get? name

def toolInstalled (c : Config) (category : ToolCategory) (name : String) : Bool :=
  (c.tool? category name).any Tool.install

/-- A build argument for every installed tool with a pinned version. -/
def toolBuildArgs (c : Config) : List String :=
  (c.tools.all.filter fun (_, _, tool) => tool.install && !Text.isBlankText tool.version).map
    fun (_, name, tool) => buildArgName name ++ "_VERSION=" ++ Text.trimmed tool.version

/-- The architecture that tests and scans use unless another is named. -/
def defaultArch (c : Config) : String := c.base.architectures.headD "amd64"

end Config

end ImagePipeline
