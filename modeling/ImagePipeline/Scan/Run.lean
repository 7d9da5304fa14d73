import ImagePipeline.Scan.Basic

/-! The scans of an image, in order: its vulnerabilities, its compliance, the source
analyzers and the code queries. The first failure ends them. -/
namespace ImagePipeline

namespace Config

def vulnerabilitySteps (c : Config) (p : Project) (image : String) : List Step :=
  if c.security.trivy.enabled then
    [⟨"scan:trivy", c.vulnerabilityCommand p image, "Trivy scan failed"⟩]
  else []

def codeSteps (c : Config) (p : Project) : List Step :=
  if c.security.codeql.enabled then
    c.security.codeql.languages.flatMap fun language =>
      (p.codeCommands (Text.trimmed language)).map fun command =>
        ⟨"codeql:" ++ language, command, "CodeQL failed for " ++ language⟩
  else []

end Config

def complianceStep (p : Project) (standard : ComplianceStandard) : Step where
  metric := "compliance:" ++ standard.name
  command := p.complianceCommand standard
  context := standard.name ++ " policy reported violations"

/-- Judges by each standard up to one that is unknown or reports a violation. -/
def judgeEach (p : Project) (r : Runner) : List String → Work Unit
  | [] => return ()
  | name :: names => do
    match ComplianceStandard.ofName? name with
    | none => Work.fail (.unknownStandard name)
    | some standard =>
      r.perform (complianceStep p standard)
      judgeEach p r names

/-- Describes the image for the policies. -/
def describeImage (p : Project) (r : Runner) (image : String) : Work Unit := do
  let description ← Work.within ("failed to inspect " ++ image) <|
    r.capture (p.inspectCommand image)
  if r.executes then
    let _ ← p.ensureStateDir ""
    let path := p.path complianceInputFile
    Work.within ("Failed to write compliance input: " ++ path.text) <|
      Work.writeText path description

def checkCompliance (c : Config) (p : Project) (r : Runner) (image : String) : Work Unit := do
  if c.security.compliance.enabled then
    Work.within "compliance check failed" do
      describeImage p r image
      judgeEach p r c.security.compliance.standards

def analyzerStep (c : Config) (p : Project) (a : Analyzer) : Step where
  metric := "sast:" ++ a.name
  command := p.analyzerCommand c a
  context := "SAST failed: " ++ a.name

/-- Runs the analyzers up to one that is unknown or fails. -/
def analyzeEach (c : Config) (p : Project) (r : Runner) : List String → Work Unit
  | [] => return ()
  | name :: names => do
    match Analyzer.ofName? name with
    | none => Work.fail (.unknownAnalyzer name)
    | some a =>
      r.perform (analyzerStep c p a)
      analyzeEach c p r names

def analyzeSources (c : Config) (p : Project) (r : Runner) : Work Unit := do
  if c.security.sast.enabled then
    analyzeEach c p r c.security.sast.tools

def runScans (c : Config) (p : Project) (r : Runner) (arch : String) : Work Unit := do
  let image := c.imageReference arch
  r.performAll (c.vulnerabilitySteps p image)
  checkCompliance c p r image
  analyzeSources c p r
  r.performAll (c.codeSteps p)

end ImagePipeline
