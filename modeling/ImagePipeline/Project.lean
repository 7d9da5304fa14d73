import ImagePipeline.Config.Basic
import ImagePipeline.Config.Document
import ImagePipeline.Session

/-! A project: a directory, its configuration, and where everything else lies. -/
namespace ImagePipeline

structure Project where
  root : Path
  configPath : Path
  deriving DecidableEq, Repr

def defaultConfigFile : String := "image-foundry.yaml"

def skeletonFile : String := "templates/dockerfile-template.tmpl"

def baseTemplateDir : String := "templates/base"

def complianceDir : String := "compliance"

def stateDirName : String := ".foundry"

/-- The Dockerfile of a base, below the root. -/
def templateRelative (stem : String) : String := baseTemplateDir ++ "/" ++ stem ++ ".Dockerfile"

def policyRelative (standard : String) : String := complianceDir ++ "/" ++ standard ++ ".rego"

/-- Where the build of an architecture leaves its record. -/
def metadataRelative (arch : String) : String :=
  stateDirName ++ "/metadata-" ++ archSlug arch ++ ".json"

def cacheRelative (arch : String) : String := stateDirName ++ "/cache/" ++ archSlug arch

namespace Project

/-- The configuration lies below the root unless its path is absolute. -/
def ofRoot (root config : Path) : Project :=
  ⟨root, if config.isAbsolute then config else root.join config⟩

/-- The root is the given directory, seen from the current one, or else that. -/
def discover (current : Path) (dir config : Option Path) : Project :=
  let root := match dir with
    | some dir => current.join dir
    | none => current
  ofRoot root (config.getD ⟨defaultConfigFile⟩)

def path (p : Project) (relative : String) : Path := p.root.join ⟨relative⟩

def skeletonPath (p : Project) : Path := p.path skeletonFile

def templatePath (p : Project) (stem : String) : Path := p.path (templateRelative stem)

def policyPath (p : Project) (standard : String) : Path := p.path (policyRelative standard)

def stateDir (p : Project) : Path := p.path stateDirName

/-- A path as it is seen from the root; one that does not lie below is left alone. -/
def relative (p : Project) (q : Path) : Path := (p.root.below? q).getD q

/-- Makes the directory for the files that runs leave behind, or one below it. -/
def ensureStateDir (p : Project) (sub : String) : Work Path := do
  let dir := if sub.isEmpty then p.stateDir else p.stateDir.join ⟨sub⟩
  Work.within ("Failed to create state directory: " ++ dir.text) (Work.createDirs dir)
  return dir

end Project

namespace Config

/-- Reads the configuration file. -/
def load (p : Path) : Work Config := do
  unless (← Work.files).pathExists p do
    Work.fail (.configMissing p)
  let content ← Work.within ("Failed to read config file: " ++ p.text) (Work.readText p)
  match ofYaml? content with
  | some c => return c
  | none => Work.within ("Failed to parse config YAML: " ++ p.text) (Work.fail .malformedDocument)

end Config

end ImagePipeline
