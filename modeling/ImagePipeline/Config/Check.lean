import ImagePipeline.Duration
import ImagePipeline.Scan.Basic
import ImagePipeline.Trial.Basic

/-! What is wrong with a configuration. Errors forbid a build, a test, a scan and a
lock; warnings do not. -/
namespace ImagePipeline

inductive ConfigError where
  | nameRequired
  | templateRequired
  | architectureRequired
  | templateMissing (template : String) (path : Path)
  | emptyArchitecture (position : Nat)
  | architectureWithBlank (arch : String)
  | emptyPackage
  | unknownStandard (name : String)
  | unknownAnalyzer (name : String)
  | invalidTimeout (text : String)
  | unknownBenchmark (name : String)
  | attestationWithoutSbom
  deriving DecidableEq, Repr

inductive ConfigWarning where
  | repeatedArchitecture (arch : String)
  | unpinnedTool (name : String)
  | noStandards
  | noCodeLanguages
  | signingWithoutCosign
  | slackWithoutWebhook
  | retentionUnset
  deriving DecidableEq, Repr

def expectedNames (names : List String) : String :=
  " (expected one of: " ++ Text.commaSeparated names ++ ")"

def ConfigError.message : ConfigError → String
  | nameRequired => "project name is required"
  | templateRequired => "base template is required"
  | architectureRequired => "at least one architecture is required"
  | templateMissing template path => "template '" ++ template ++ "' not found at " ++ path.text
  | emptyArchitecture position => "architecture " ++ toString position ++ " is empty"
  | architectureWithBlank arch => "architecture '" ++ arch ++ "' must not contain whitespace"
  | emptyPackage => "package names cannot be empty"
  | unknownStandard name =>
    "unknown compliance standard '" ++ name ++ "'" ++
      expectedNames (ComplianceStandard.all.map ComplianceStandard.name)
  | unknownAnalyzer name =>
    "unknown SAST tool '" ++ name ++ "'" ++ expectedNames (Analyzer.all.map Analyzer.name)
  | invalidTimeout text =>
    "integration test timeout '" ++ text ++ "' is not a duration like 30s, 10m or 1h"
  | unknownBenchmark name =>
    "unknown benchmark tool '" ++ name ++ "'" ++ expectedNames (Benchmark.all.map Benchmark.name)
  | attestationWithoutSbom => "SBOM attestation requires output.sbom.enabled"

def ConfigWarning.message : ConfigWarning → String
  | repeatedArchitecture arch => "architecture '" ++ arch ++ "' is listed more than once"
  | unpinnedTool name =>
    "tool '" ++ name ++ "' is installed without a version; the template default applies"
  | noStandards => "compliance is enabled but no standards are listed"
  | noCodeLanguages => "CodeQL is enabled but no languages are listed"
  | signingWithoutCosign => "signing is enabled but cosign is not; images will not be signed"
  | slackWithoutWebhook => "slack notifications are enabled without a webhook"
  | retentionUnset =>
    "pipeline.artifacts.retention_days is 0; artifacts will use the CI default"

structure Findings where
  errors : List ConfigError := []
  warnings : List ConfigWarning := []
  deriving DecidableEq, Repr

/-- A value if a condition holds. -/
def presentIf {α : Type} (condition : Bool) (a : α) : List α := if condition then [a] else []

namespace Config

def requiredErrors (c : Config) (p : Project) (t : FileTree) : List ConfigError :=
  let template := Text.trimmed c.base.template
  let path := p.templatePath template
  presentIf (Text.isBlankText c.name) .nameRequired ++
  presentIf template.isEmpty .templateRequired ++
  presentIf c.base.architectures.isEmpty .architectureRequired ++
  presentIf (!template.isEmpty && !t.isFile path)
    (.templateMissing c.base.template (p.relative path))

/-- What is wrong with one architecture; positions count from one. -/
def architectureError? (position : Nat) (arch : String) : Option ConfigError :=
  if Text.isBlankText arch then some (.emptyArchitecture position)
  else if arch.toList.any Text.isBlank then some (.architectureWithBlank arch)
  else none

def architectureErrors : Nat → List String → List ConfigError
  | _, [] => []
  | position, arch :: rest =>
    (architectureError? position arch).toList ++ architectureErrors (position + 1) rest

/-- The architectures that stand behind an equal one. -/
def repeated : List String → List String → List String
  | _, [] => []
  | before, arch :: rest => presentIf (before.contains arch) arch ++ repeated (arch :: before) rest

def architectureWarnings (c : Config) : List ConfigWarning :=
  let sound := c.base.architectures.filter fun a => (architectureError? 1 a).isNone
  (repeated [] sound).map .repeatedArchitecture

def packageErrors (c : Config) : List ConfigError :=
  (c.tools.packages.filter Text.isBlankText).map fun _ => .emptyPackage

def toolWarnings (c : Config) : List ConfigWarning :=
  (c.tools.all.filter fun (_, _, tool) => tool.install && Text.isBlankText tool.version).map
    fun (_, name, _) => .unpinnedTool name

def scanErrors (c : Config) : List ConfigError :=
  let s := c.security
  (if s.compliance.enabled then
    (s.compliance.standards.filter fun n => (ComplianceStandard.ofName? n).isNone).map
      .unknownStandard
  else []) ++
  (if s.sast.enabled then
    (s.sast.tools.filter fun n => (Analyzer.ofName? n).isNone).map .unknownAnalyzer
  else [])

def scanWarnings (c : Config) : List ConfigWarning :=
  let s := c.security
  presentIf (s.compliance.enabled && s.compliance.standards.isEmpty) .noStandards ++
  presentIf (s.codeql.enabled && s.codeql.languages.isEmpty) .noCodeLanguages

def trialErrors (c : Config) : List ConfigError :=
  let timeout := Text.trimmed c.testing.integrationTests.timeout
  let benchmark := Text.trimmed c.testing.performanceTests.benchmarkTool
  presentIf (!timeout.isEmpty && (Duration.parse? timeout).isNone) (.invalidTimeout timeout) ++
  presentIf (Benchmark.ofName? benchmark).isNone (.unknownBenchmark benchmark)

def publicationErrors (c : Config) : List ConfigError :=
  let o := c.output
  presentIf (o.attestation.enabled && o.attestation.sbomAttestation && !o.sbom.enabled)
    .attestationWithoutSbom

def publicationWarnings (c : Config) : List ConfigWarning :=
  presentIf (c.output.signing.enabled && !c.output.signing.cosign.enabled) .signingWithoutCosign

def automationWarnings (c : Config) : List ConfigWarning :=
  let slack := c.pipeline.notifications.slack
  let matrix := c.pipeline.githubActions.matrix
  presentIf (slack.enabled && Text.isBlankText slack.webhook) .slackWithoutWebhook ++
  presentIf ((!matrix.os.isEmpty || !matrix.arch.isEmpty) &&
    c.pipeline.artifacts.retentionDays == 0) .retentionUnset

/-- Everything that is wrong, in the order of the sections. -/
def check (c : Config) (p : Project) (t : FileTree) : Findings where
  errors := c.requiredErrors p t ++ architectureErrors 1 c.base.architectures ++
    c.packageErrors ++ c.scanErrors ++ c.trialErrors ++ c.publicationErrors
  warnings := c.architectureWarnings ++ c.toolWarnings ++ c.scanWarnings ++
    c.publicationWarnings ++ c.automationWarnings

end Config

end ImagePipeline
