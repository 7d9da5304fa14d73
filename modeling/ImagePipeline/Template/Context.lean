import ImagePipeline.BaseImage
import ImagePipeline.Config.Basic
import ImagePipeline.Timestamp

/-! What a template can refer to. -/
namespace ImagePipeline.Template

/-- Of two entries for a name the first counts. -/
structure Context where
  base : BaseImage
  values : List (String × String)
  flags : List (String × Bool)
  packages : List String

namespace Context

def ofBase (base : BaseImage) : Context where
  base
  values := [("BaseImage", base.image), ("Base", base.name)]
  flags := []
  packages := []

def withValue (c : Context) (name value : String) : Context :=
  { c with values := (name, value) :: c.values }

def withFlag (c : Context) (name : String) (on : Bool) : Context :=
  { c with flags := (name, on) :: c.flags }

/-- Packages are trimmed, and empty ones left out. -/
def withPackages (c : Context) (packages : List String) : Context :=
  { c with packages := (packages.map Text.trimmed).filter fun p => !p.isEmpty }

def flag? (c : Context) (name : String) : Option Bool := c.flags.lookup name

/-- A flag has the value `true` or `false` unless there is a value of its name. -/
def value? (c : Context) (name : String) : Option String :=
  c.values.lookup name <|> (c.flag? name).map fun on => if on then "true" else "false"

end Context

/-- How the choice of a tool appears in a context: the flag that tells whether it is
installed, and the variable with its version and the version used unless one is given. -/
structure ToolBinding where
  category : ToolCategory
  tool : String
  flag : String
  version : Option (String × String)

def toolBindings : List ToolBinding := [
  ⟨.languages, "go", "InstallGo", some ("GoVersion", "1.22.0")⟩,
  ⟨.languages, "nodejs", "InstallNodeJS", some ("NodeVersion", "20")⟩,
  ⟨.languages, "python", "InstallPython", some ("PythonVersion", "3.12")⟩,
  ⟨.security, "trivy", "InstallTrivy", none⟩,
  ⟨.security, "cosign", "InstallCosign", none⟩,
  ⟨.security, "syft", "InstallSyft", none⟩,
  ⟨.devops, "docker", "InstallDocker", none⟩,
  ⟨.devops, "kubectl", "InstallKubectl", some ("KubectlVersion", "1.29.0")⟩,
  ⟨.devops, "helm", "InstallHelm", some ("HelmVersion", "3.14.0")⟩,
  ⟨.devops, "terraform", "InstallTerraform", some ("TerraformVersion", "1.7.0")⟩]

namespace ToolBinding

/-- The pinned version of the tool, or else the usual one. -/
def versionIn (config : Config) (b : ToolBinding) (usual : String) : String :=
  match config.tool? b.category b.tool with
  | some tool => if Text.isBlankText tool.version then usual else Text.trimmed tool.version
  | none => usual

def bind (config : Config) (c : Context) (b : ToolBinding) : Context :=
  let c := c.withFlag b.flag (config.toolInstalled b.category b.tool)
  match b.version with
  | some (name, usual) => c.withValue name (b.versionIn config usual)
  | none => c

end ToolBinding

/-- The context that a configuration gives at a point in time. -/
def Context.ofConfig (config : Config) (base : BaseImage) (time : Timestamp) : Context :=
  let c := ((((Context.ofBase base).withValue "Arch" config.defaultArch).withValue
    "ProjectName" config.name).withValue "ProjectVersion" config.version).withValue
    "Timestamp" time.secondsText
  let c := toolBindings.foldl (ToolBinding.bind config) c
  let o := config.optimization
  (((((c.withFlag "InstallCompliance" config.security.compliance.enabled).withFlag
    "MultiStage" o.multiStage).withFlag "CacheLayers" o.cacheLayers).withFlag
    "Minify" o.minify).withFlag "StripDebug" o.stripDebug).withPackages config.tools.packages

end ImagePipeline.Template
