import ImagePipeline.Preset
import ImagePipeline.Project
import ImagePipeline.Scan.Policy
import ImagePipeline.Template.Skeleton
import ImagePipeline.Trial.StructureFile

/-! Laying out a new project: its directories, its configuration, and the files that the
other commands expect. -/
namespace ImagePipeline.NewProject

def directories : List String :=
  ["templates/base", "templates/agents", "configs", "tests", ".github/workflows", "scripts",
    complianceDir]

structure Report where
  created : List Path := []
  skipped : List Path := []
  deriving DecidableEq, Repr

def configText (preset : Preset) : String :=
  "# ImageFoundry configuration\n" ++ preset.config.toYaml

/-- The files besides the configuration. -/
def assets (p : Project) : List (Path × String) :=
  (p.skeletonPath, Template.skeleton) :: (p.path defaultStructureFile, structureFileText) ::
    ComplianceStandard.all.map fun s => (p.policyPath s.name, s.policy)

def nextSteps : List String :=
  ["Edit image-foundry.yaml to configure your image",
    "Run 'foundry generate' to render Dockerfiles from the template",
    "Run 'foundry validate' to validate configuration",
    "Run 'foundry build' to build your image"]

def createDirectory (path : Path) : Work Unit :=
  Work.within ("failed to create directory " ++ path.text) (Work.createDirs path)

def createDirectories (p : Project) : List String → Work Unit
  | [] => return ()
  | dir :: dirs => do
    createDirectory (p.path dir)
    createDirectories p dirs

/-- Writes a file unless it is there and may not be overwritten. -/
def create (overwrite : Bool) (path : Path) (content : String) (report : Report) : Work Report := do
  if (← Work.files).pathExists path && !overwrite then
    Work.log {
      level := .warning
      target := "image_foundry::scaffold"
      message := "File exists, skipping"
      fields := [("path", path.text)] }
    return { report with skipped := report.skipped ++ [path] }
  else
    Work.createParent "failed to create directory " path
    Work.within ("failed to write " ++ path.text) (Work.writeText path content)
    return { report with created := report.created ++ [path] }

def createEach (overwrite : Bool) : List (Path × String) → Report → Work Report
  | [], report => return report
  | (path, content) :: rest, report => do
    createEach overwrite rest (← create overwrite path content report)

/-- An existing configuration forbids it unless overwriting is asked for; other existing
files are then left alone. -/
def init (p : Project) (preset : Preset) (overwrite : Bool) : Work Report := do
  if (← Work.files).pathExists p.configPath && !overwrite then
    Work.fail (.configExists p.configPath)
  else
    createDirectories p directories
    let report ← create true p.configPath (configText preset) {}
    createEach overwrite (assets p) report

end ImagePipeline.NewProject
