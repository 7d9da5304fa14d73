import ImagePipeline.Proofs.OrderedMap
import ImagePipeline.Proofs.Yaml.Revision

/-! The keys of each section, and a configuration without some of them: each field whose key is gone
has the value that it has in a section without entries, and each tool whose name is gone is not
there. -/
namespace ImagePipeline

namespace ImageName

def schema : Schema := .fields [
  ("name", .value), ("tag", .value), ("registry", .value), ("namespace", .value)]

def without (gone : Removal) (i : ImageName) : ImageName :=
  let absent : ImageName := {}
  { name := gone.field "name" absent.name i.name
    tag := gone.field "tag" absent.tag i.tag
    registry := gone.field "registry" absent.registry i.registry
    owner := gone.field "namespace" absent.owner i.owner }

end ImageName

namespace BaseChoice

def schema : Schema := .fields [("template", .value), ("architecture", .value)]

def without (gone : Removal) (b : BaseChoice) : BaseChoice :=
  let absent : BaseChoice := {}
  { template := gone.field "template" absent.template b.template
    architectures := gone.field "architecture" absent.architectures b.architectures }

end BaseChoice

namespace Tool

def schema : Schema := .fields [("install", .value), ("version", .value)]

def without (gone : Removal) (t : Tool) : Tool :=
  let absent : Tool := {}
  { install := gone.field "install" absent.install t.install
    version := gone.field "version" absent.version t.version }

end Tool

namespace ToolSelection

def schema : Schema := .fields [
  ("languages", .table Tool.schema), ("security", .table Tool.schema),
  ("devops", .table Tool.schema), ("packages", .value)]

def toolsWithout (gone : Removal) : OrderedMap Tool → OrderedMap Tool :=
  OrderedMap.restrict (fun name => !gone [name]) fun name => Tool.without (gone.below name)

def without (gone : Removal) (t : ToolSelection) : ToolSelection :=
  let absent : ToolSelection := {}
  { languages := gone.field "languages" absent.languages
      (toolsWithout (gone.below "languages") t.languages)
    security := gone.field "security" absent.security
      (toolsWithout (gone.below "security") t.security)
    devops := gone.field "devops" absent.devops (toolsWithout (gone.below "devops") t.devops)
    packages := gone.field "packages" absent.packages t.packages }

end ToolSelection

namespace VulnerabilityScan

def schema : Schema := .fields [
  ("enabled", .value), ("severity", .value), ("exit_code", .value), ("ignore_unfixed", .value)]

def without (gone : Removal) (s : VulnerabilityScan) : VulnerabilityScan :=
  let absent : VulnerabilityScan := {}
  { enabled := gone.field "enabled" absent.enabled s.enabled
    severity := gone.field "severity" absent.severity s.severity
    exitCode := gone.field "exit_code" absent.exitCode s.exitCode
    ignoreUnfixed := gone.field "ignore_unfixed" absent.ignoreUnfixed s.ignoreUnfixed }

end VulnerabilityScan

/-- A section with a switch and one more value. -/
def switchSchema (key : String) : Schema := .fields [("enabled", .value), (key, .value)]

def CodeAnalysis.without (gone : Removal) (a : CodeAnalysis) : CodeAnalysis :=
  let absent : CodeAnalysis := {}
  { enabled := gone.field "enabled" absent.enabled a.enabled
    languages := gone.field "languages" absent.languages a.languages }

def Compliance.without (gone : Removal) (c : Compliance) : Compliance :=
  let absent : Compliance := {}
  { enabled := gone.field "enabled" absent.enabled c.enabled
    standards := gone.field "standards" absent.standards c.standards }

def SourceAnalysis.without (gone : Removal) (a : SourceAnalysis) : SourceAnalysis :=
  let absent : SourceAnalysis := {}
  { enabled := gone.field "enabled" absent.enabled a.enabled
    tools := gone.field "tools" absent.tools a.tools }

namespace Security

def schema : Schema := .fields [
  ("trivy", VulnerabilityScan.schema), ("codeql", switchSchema "languages"),
  ("compliance", switchSchema "standards"), ("sast", switchSchema "tools")]

def without (gone : Removal) (s : Security) : Security :=
  let absent : Security := {}
  { trivy := gone.field "trivy" absent.trivy (s.trivy.without (gone.below "trivy"))
    codeql := gone.field "codeql" absent.codeql (s.codeql.without (gone.below "codeql"))
    compliance := gone.field "compliance" absent.compliance
      (s.compliance.without (gone.below "compliance"))
    sast := gone.field "sast" absent.sast (s.sast.without (gone.below "sast")) }

end Security

namespace Optimization

def schema : Schema := .fields [
  ("multi_stage", .value), ("cache_layers", .value), ("minify", .value), ("strip_debug", .value)]

def without (gone : Removal) (o : Optimization) : Optimization :=
  let absent : Optimization := {}
  { multiStage := gone.field "multi_stage" absent.multiStage o.multiStage
    cacheLayers := gone.field "cache_layers" absent.cacheLayers o.cacheLayers
    minify := gone.field "minify" absent.minify o.minify
    stripDebug := gone.field "strip_debug" absent.stripDebug o.stripDebug }

end Optimization

def StructureTests.without (gone : Removal) (t : StructureTests) : StructureTests :=
  let absent : StructureTests := {}
  { enabled := gone.field "enabled" absent.enabled t.enabled
    config := gone.field "config" absent.config t.config }

def IntegrationTests.without (gone : Removal) (t : IntegrationTests) : IntegrationTests :=
  let absent : IntegrationTests := {}
  { enabled := gone.field "enabled" absent.enabled t.enabled
    timeout := gone.field "timeout" absent.timeout t.timeout }

def PerformanceTests.without (gone : Removal) (t : PerformanceTests) : PerformanceTests :=
  let absent : PerformanceTests := {}
  { enabled := gone.field "enabled" absent.enabled t.enabled
    benchmarkTool := gone.field "benchmark_tool" absent.benchmarkTool t.benchmarkTool }

namespace Testing

def schema : Schema := .fields [
  ("structure_tests", switchSchema "config"), ("integration_tests", switchSchema "timeout"),
  ("performance_tests", switchSchema "benchmark_tool")]

def without (gone : Removal) (t : Testing) : Testing :=
  let absent : Testing := {}
  { structureTests := gone.field "structure_tests" absent.structureTests
      (t.structureTests.without (gone.below "structure_tests"))
    integrationTests := gone.field "integration_tests" absent.integrationTests
      (t.integrationTests.without (gone.below "integration_tests"))
    performanceTests := gone.field "performance_tests" absent.performanceTests
      (t.performanceTests.without (gone.below "performance_tests")) }

end Testing

namespace WorkflowMatrix

def schema : Schema := .fields [("os", .value), ("arch", .value)]

def without (gone : Removal) (m : WorkflowMatrix) : WorkflowMatrix :=
  let absent : WorkflowMatrix := {}
  { os := gone.field "os" absent.os m.os
    arch := gone.field "arch" absent.arch m.arch }

end WorkflowMatrix

namespace Workflows

def schema : Schema := .fields [("matrix", WorkflowMatrix.schema), ("parallel", .value)]

def without (gone : Removal) (w : Workflows) : Workflows :=
  let absent : Workflows := {}
  { matrix := gone.field "matrix" absent.matrix (w.matrix.without (gone.below "matrix"))
    parallel := gone.field "parallel" absent.parallel w.parallel }

end Workflows

namespace Artifacts

def schema : Schema := .fields [("retention_days", .value)]

def without (gone : Removal) (a : Artifacts) : Artifacts :=
  let absent : Artifacts := {}
  { retentionDays := gone.field "retention_days" absent.retentionDays a.retentionDays }

end Artifacts

namespace Slack

def schema : Schema := .fields [("enabled", .value), ("webhook", .value)]

def without (gone : Removal) (s : Slack) : Slack :=
  let absent : Slack := {}
  { enabled := gone.field "enabled" absent.enabled s.enabled
    webhook := gone.field "webhook" absent.webhook s.webhook }

end Slack

namespace Notifications

def schema : Schema := .fields [("slack", Slack.schema)]

def without (gone : Removal) (x : Notifications) : Notifications :=
  let absent : Notifications := {}
  { slack := gone.field "slack" absent.slack (x.slack.without (gone.below "slack")) }

end Notifications

namespace Automation

def schema : Schema := .fields [
  ("github_actions", Workflows.schema), ("artifacts", Artifacts.schema),
  ("notifications", Notifications.schema)]

def without (gone : Removal) (a : Automation) : Automation :=
  let absent : Automation := {}
  { githubActions := gone.field "github_actions" absent.githubActions
      (a.githubActions.without (gone.below "github_actions"))
    artifacts := gone.field "artifacts" absent.artifacts
      (a.artifacts.without (gone.below "artifacts"))
    notifications := gone.field "notifications" absent.notifications
      (a.notifications.without (gone.below "notifications")) }

end Automation

def Sbom.without (gone : Removal) (s : Sbom) : Sbom :=
  let absent : Sbom := {}
  { enabled := gone.field "enabled" absent.enabled s.enabled
    formats := gone.field "formats" absent.formats s.formats }

namespace Cosign

def schema : Schema := .fields [("enabled", .value), ("keyless", .value)]

def without (gone : Removal) (c : Cosign) : Cosign :=
  let absent : Cosign := {}
  { enabled := gone.field "enabled" absent.enabled c.enabled
    keyless := gone.field "keyless" absent.keyless c.keyless }

end Cosign

namespace Signing

def schema : Schema := .fields [("enabled", .value), ("cosign", Cosign.schema)]

def without (gone : Removal) (s : Signing) : Signing :=
  let absent : Signing := {}
  { enabled := gone.field "enabled" absent.enabled s.enabled
    cosign := gone.field "cosign" absent.cosign (s.cosign.without (gone.below "cosign")) }

end Signing

namespace Attestation

def schema : Schema := .fields [
  ("enabled", .value), ("provenance", .value), ("sbom_attestation", .value)]

def without (gone : Removal) (a : Attestation) : Attestation :=
  let absent : Attestation := {}
  { enabled := gone.field "enabled" absent.enabled a.enabled
    provenance := gone.field "provenance" absent.provenance a.provenance
    sbomAttestation := gone.field "sbom_attestation" absent.sbomAttestation a.sbomAttestation }

end Attestation

namespace Publication

def schema : Schema := .fields [
  ("sbom", switchSchema "formats"), ("signing", Signing.schema),
  ("attestation", Attestation.schema)]

def without (gone : Removal) (p : Publication) : Publication :=
  let absent : Publication := {}
  { sbom := gone.field "sbom" absent.sbom (p.sbom.without (gone.below "sbom"))
    signing := gone.field "signing" absent.signing (p.signing.without (gone.below "signing"))
    attestation := gone.field "attestation" absent.attestation
      (p.attestation.without (gone.below "attestation")) }

end Publication

namespace Hooks

def schema : Schema := .fields [("pre_build", .value), ("post_build", .value)]

def without (gone : Removal) (h : Hooks) : Hooks :=
  let absent : Hooks := {}
  { preBuild := gone.field "pre_build" absent.preBuild h.preBuild
    postBuild := gone.field "post_build" absent.postBuild h.postBuild }

end Hooks

namespace Config

def schema : Schema := .fields [
  ("name", .value), ("version", .value), ("description", .value), ("author", .value),
  ("license", .value), ("image", ImageName.schema), ("base", BaseChoice.schema),
  ("tools", ToolSelection.schema), ("security", Security.schema),
  ("optimization", Optimization.schema), ("testing", Testing.schema),
  ("pipeline", Automation.schema), ("output", Publication.schema), ("custom", Hooks.schema)]

def without (gone : Removal) (c : Config) : Config :=
  let absent : Config := {}
  { name := gone.field "name" absent.name c.name
    version := gone.field "version" absent.version c.version
    description := gone.field "description" absent.description c.description
    author := gone.field "author" absent.author c.author
    license := gone.field "license" absent.license c.license
    image := gone.field "image" absent.image (c.image.without (gone.below "image"))
    base := gone.field "base" absent.base (c.base.without (gone.below "base"))
    tools := gone.field "tools" absent.tools (c.tools.without (gone.below "tools"))
    security := gone.field "security" absent.security
      (c.security.without (gone.below "security"))
    optimization := gone.field "optimization" absent.optimization
      (c.optimization.without (gone.below "optimization"))
    testing := gone.field "testing" absent.testing (c.testing.without (gone.below "testing"))
    pipeline := gone.field "pipeline" absent.pipeline
      (c.pipeline.without (gone.below "pipeline"))
    output := gone.field "output" absent.output (c.output.without (gone.below "output"))
    custom := gone.field "custom" absent.custom (c.custom.without (gone.below "custom")) }

end Config

end ImagePipeline
