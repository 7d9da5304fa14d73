import ImagePipeline.Config.Basic
import ImagePipeline.Yaml.Node.Reading
import ImagePipeline.Yaml.Scalar
import ImagePipeline.Yaml.Value.Writing

/-! The configuration as a document. Reading takes a missing key as the default of
its field and passes over keys that it does not know. Writing leaves out what is
empty or equal to its default, so that reading gives the same configuration. -/
namespace ImagePipeline

open Yaml (Document Node Value)

/-! ### Reading values -/

namespace Yaml.Document

def text? (d : Document) (n : Node) : Option String :=
  match d.resolve n with
  | some (.scalar text _ _) => some text
  | _ => none

/-- The text of a scalar that is read for its meaning: an unquoted one, or a literal
block with the given tag. -/
def meaningful? (d : Document) (tag : String) (n : Node) : Option String :=
  match d.resolve n with
  | some (.scalar text .plain _) => some text
  | some (.scalar text .literal (some t)) => if t == tag then some text else none
  | _ => none

def bool? (d : Document) (n : Node) : Option Bool :=
  (d.meaningful? "tag:yaml.org,2002:bool" n).bind Scalar.bool?

def int32? (d : Document) (n : Node) : Option Int32 := do
  let i ← Scalar.int? (← d.meaningful? "tag:yaml.org,2002:int" n).toList
  if -2147483648 ≤ i ∧ i < 2147483648 then some (Int32.ofInt i) else none

def uint32? (d : Document) (n : Node) : Option UInt32 := do
  let i ← Scalar.unsigned? (← d.meaningful? "tag:yaml.org,2002:int" n).toList
  if i < Nat.pow 2 32 then some (UInt32.ofNat i) else none

/-- A sequence; an empty value is one without items. -/
def items? (d : Document) (n : Node) : Option (List Node) :=
  match d.resolve n with
  | some (.sequence items) => some items
  | some node => if node.isEmptyValue then some [] else none
  | none => none

def texts? (d : Document) (n : Node) : Option (List String) := do
  (← d.items? n).mapM d.text?

/-- The entries of a mapping; an empty value is one without entries. -/
def fields? (d : Document) (n : Node) : Option (List (String × Node)) :=
  match d.resolve n with
  | some (.mapping entries) =>
    entries.mapM fun (key, value) => (d.text? key).map fun k => (k, value)
  | some node => if node.isEmptyValue then some [] else none
  | none => none

end Yaml.Document

/-- The value of a field. A key that is missing leaves the default, one that is
repeated is refused. -/
def readField {α : Type} (fields : List (String × Node)) (key : String)
    (read : Node → Option α) (absent : α) : Option α :=
  match fields.filter fun f => f.1 == key with
  | [] => some absent
  | [(_, node)] => read node
  | _ => none

/-! ### Writing values -/

def entry (key : String) (value : Value) : List (String × Value) := [(key, value)]

def entryUnless (skip : Bool) (key : String) (value : Value) : List (String × Value) :=
  if skip then [] else [(key, value)]

/-! ### Sections -/

namespace ImageName

def ofNode? (d : Document) (n : Node) : Option ImageName := do
  let f ← d.fields? n
  return {
    name := ← readField f "name" d.text? ""
    tag := ← readField f "tag" d.text? ""
    registry := ← readField f "registry" d.text? ""
    owner := ← readField f "namespace" d.text? "" }

def toValue (i : ImageName) : Value := .mapping [
  ("name", .string i.name), ("tag", .string i.tag), ("registry", .string i.registry),
  ("namespace", .string i.owner)]

end ImageName

namespace BaseChoice

def ofNode? (d : Document) (n : Node) : Option BaseChoice := do
  let f ← d.fields? n
  return {
    template := ← readField f "template" d.text? ""
    architectures := ← readField f "architecture" d.texts? [] }

def toValue (b : BaseChoice) : Value := .mapping [
  ("template", .string b.template), ("architecture", .strings b.architectures)]

end BaseChoice

namespace Tool

def ofNode? (d : Document) (n : Node) : Option Tool := do
  let f ← d.fields? n
  return {
    install := ← readField f "install" d.bool? false
    version := ← readField f "version" d.text? "" }

def toValue (t : Tool) : Value := .mapping (
  entry "install" (.bool t.install) ++
  entryUnless t.version.isEmpty "version" (.string t.version))

end Tool

namespace ToolSelection

def toolsOfNode? (d : Document) (n : Node) : Option (OrderedMap Tool) := do
  let f ← d.fields? n
  let tools ← f.mapM fun (name, node) => (Tool.ofNode? d node).map fun t => (name, t)
  return .ofList tools

def toolsToValue (m : OrderedMap Tool) : Value :=
  .mapping (m.entries.map fun (name, tool) => (name, tool.toValue))

def ofNode? (d : Document) (n : Node) : Option ToolSelection := do
  let f ← d.fields? n
  return {
    languages := ← readField f "languages" (toolsOfNode? d) .empty
    security := ← readField f "security" (toolsOfNode? d) .empty
    devops := ← readField f "devops" (toolsOfNode? d) .empty
    packages := ← readField f "packages" d.texts? [] }

def toValue (t : ToolSelection) : Value := .mapping (
  entryUnless t.languages.isEmpty "languages" (toolsToValue t.languages) ++
  entryUnless t.security.isEmpty "security" (toolsToValue t.security) ++
  entryUnless t.devops.isEmpty "devops" (toolsToValue t.devops) ++
  entryUnless t.packages.isEmpty "packages" (.strings t.packages))

end ToolSelection

namespace VulnerabilityScan

def ofNode? (d : Document) (n : Node) : Option VulnerabilityScan := do
  let f ← d.fields? n
  return {
    enabled := ← readField f "enabled" d.bool? false
    severity := ← readField f "severity" d.text? ""
    exitCode := ← readField f "exit_code" d.int32? 1
    ignoreUnfixed := ← readField f "ignore_unfixed" d.bool? false }

def toValue (s : VulnerabilityScan) : Value := .mapping (
  entry "enabled" (.bool s.enabled) ++
  entryUnless s.severity.isEmpty "severity" (.string s.severity) ++
  entry "exit_code" (.int s.exitCode.toInt) ++
  entry "ignore_unfixed" (.bool s.ignoreUnfixed))

end VulnerabilityScan

/-- A section with a switch and a list of names. -/
def switchAndNames (d : Document) (n : Node) (listKey : String) : Option (Bool × List String) := do
  let f ← d.fields? n
  return (← readField f "enabled" d.bool? false, ← readField f listKey d.texts? [])

def switchAndNamesValue (enabled : Bool) (listKey : String) (names : List String) : Value :=
  .mapping [("enabled", .bool enabled), (listKey, .strings names)]

/-- A section with a switch and one text. -/
def switchAndText (d : Document) (n : Node) (textKey : String) : Option (Bool × String) := do
  let f ← d.fields? n
  return (← readField f "enabled" d.bool? false, ← readField f textKey d.text? "")

def switchAndTextValue (enabled : Bool) (textKey text : String) : Value :=
  .mapping (entry "enabled" (.bool enabled) ++ entryUnless text.isEmpty textKey (.string text))

namespace Security

def ofNode? (d : Document) (n : Node) : Option Security := do
  let f ← d.fields? n
  return {
    trivy := ← readField f "trivy" (VulnerabilityScan.ofNode? d) {}
    codeql := ← readField f "codeql"
      (fun n => (switchAndNames d n "languages").map fun (e, l) => ⟨e, l⟩) {}
    compliance := ← readField f "compliance"
      (fun n => (switchAndNames d n "standards").map fun (e, l) => ⟨e, l⟩) {}
    sast := ← readField f "sast"
      (fun n => (switchAndNames d n "tools").map fun (e, l) => ⟨e, l⟩) {} }

def toValue (s : Security) : Value := .mapping (
  entryUnless (s.trivy == {}) "trivy" s.trivy.toValue ++
  entryUnless (s.codeql == {}) "codeql"
    (switchAndNamesValue s.codeql.enabled "languages" s.codeql.languages) ++
  entryUnless (s.compliance == {}) "compliance"
    (switchAndNamesValue s.compliance.enabled "standards" s.compliance.standards) ++
  entryUnless (s.sast == {}) "sast"
    (switchAndNamesValue s.sast.enabled "tools" s.sast.tools))

end Security

namespace Optimization

def ofNode? (d : Document) (n : Node) : Option Optimization := do
  let f ← d.fields? n
  return {
    multiStage := ← readField f "multi_stage" d.bool? false
    cacheLayers := ← readField f "cache_layers" d.bool? false
    minify := ← readField f "minify" d.bool? false
    stripDebug := ← readField f "strip_debug" d.bool? false }

def toValue (o : Optimization) : Value := .mapping [
  ("multi_stage", .bool o.multiStage), ("cache_layers", .bool o.cacheLayers),
  ("minify", .bool o.minify), ("strip_debug", .bool o.stripDebug)]

end Optimization

namespace Testing

def ofNode? (d : Document) (n : Node) : Option Testing := do
  let f ← d.fields? n
  return {
    structureTests := ← readField f "structure_tests"
      (fun n => (switchAndText d n "config").map fun (e, t) => ⟨e, t⟩) {}
    integrationTests := ← readField f "integration_tests"
      (fun n => (switchAndText d n "timeout").map fun (e, t) => ⟨e, t⟩) {}
    performanceTests := ← readField f "performance_tests"
      (fun n => (switchAndText d n "benchmark_tool").map fun (e, t) => ⟨e, t⟩) {} }

def toValue (t : Testing) : Value := .mapping (
  entryUnless (t.structureTests == {}) "structure_tests"
    (switchAndTextValue t.structureTests.enabled "config" t.structureTests.config) ++
  entryUnless (t.integrationTests == {}) "integration_tests"
    (switchAndTextValue t.integrationTests.enabled "timeout" t.integrationTests.timeout) ++
  entryUnless (t.performanceTests == {}) "performance_tests"
    (switchAndTextValue t.performanceTests.enabled "benchmark_tool"
      t.performanceTests.benchmarkTool))

end Testing

namespace WorkflowMatrix

def ofNode? (d : Document) (n : Node) : Option WorkflowMatrix := do
  let f ← d.fields? n
  return {
    os := ← readField f "os" d.texts? []
    arch := ← readField f "arch" d.texts? [] }

def toValue (m : WorkflowMatrix) : Value :=
  .mapping [("os", .strings m.os), ("arch", .strings m.arch)]

end WorkflowMatrix

namespace Workflows

def ofNode? (d : Document) (n : Node) : Option Workflows := do
  let f ← d.fields? n
  return {
    matrix := ← readField f "matrix" (WorkflowMatrix.ofNode? d) {}
    parallel := ← readField f "parallel" d.texts? [] }

def toValue (w : Workflows) : Value :=
  .mapping [("matrix", w.matrix.toValue), ("parallel", .strings w.parallel)]

end Workflows

namespace Artifacts

def ofNode? (d : Document) (n : Node) : Option Artifacts := do
  let f ← d.fields? n
  return { retentionDays := ← readField f "retention_days" d.uint32? 0 }

def toValue (a : Artifacts) : Value :=
  .mapping [("retention_days", .int a.retentionDays.toNat)]

end Artifacts

namespace Slack

def ofNode? (d : Document) (n : Node) : Option Slack := do
  let f ← d.fields? n
  return {
    enabled := ← readField f "enabled" d.bool? false
    webhook := ← readField f "webhook" d.text? "" }

def toValue (s : Slack) : Value :=
  .mapping [("enabled", .bool s.enabled), ("webhook", .string s.webhook)]

end Slack

namespace Notifications

def ofNode? (d : Document) (n : Node) : Option Notifications := do
  let f ← d.fields? n
  return { slack := ← readField f "slack" (Slack.ofNode? d) {} }

def toValue (x : Notifications) : Value := .mapping [("slack", x.slack.toValue)]

end Notifications

namespace Automation

def ofNode? (d : Document) (n : Node) : Option Automation := do
  let f ← d.fields? n
  return {
    githubActions := ← readField f "github_actions" (Workflows.ofNode? d) {}
    artifacts := ← readField f "artifacts" (Artifacts.ofNode? d) {}
    notifications := ← readField f "notifications" (Notifications.ofNode? d) {} }

def toValue (a : Automation) : Value := .mapping (
  entryUnless (a.githubActions == {}) "github_actions" a.githubActions.toValue ++
  entryUnless (a.artifacts == {}) "artifacts" a.artifacts.toValue ++
  entryUnless (a.notifications == {}) "notifications" a.notifications.toValue)

end Automation

namespace Cosign

def ofNode? (d : Document) (n : Node) : Option Cosign := do
  let f ← d.fields? n
  return {
    enabled := ← readField f "enabled" d.bool? false
    keyless := ← readField f "keyless" d.bool? false }

def toValue (c : Cosign) : Value :=
  .mapping [("enabled", .bool c.enabled), ("keyless", .bool c.keyless)]

end Cosign

namespace Signing

def ofNode? (d : Document) (n : Node) : Option Signing := do
  let f ← d.fields? n
  return {
    enabled := ← readField f "enabled" d.bool? false
    cosign := ← readField f "cosign" (Cosign.ofNode? d) {} }

def toValue (s : Signing) : Value :=
  .mapping [("enabled", .bool s.enabled), ("cosign", s.cosign.toValue)]

end Signing

namespace Attestation

def ofNode? (d : Document) (n : Node) : Option Attestation := do
  let f ← d.fields? n
  return {
    enabled := ← readField f "enabled" d.bool? false
    provenance := ← readField f "provenance" d.bool? false
    sbomAttestation := ← readField f "sbom_attestation" d.bool? false }

def toValue (a : Attestation) : Value := .mapping [
  ("enabled", .bool a.enabled), ("provenance", .bool a.provenance),
  ("sbom_attestation", .bool a.sbomAttestation)]

end Attestation

namespace Publication

def ofNode? (d : Document) (n : Node) : Option Publication := do
  let f ← d.fields? n
  return {
    sbom := ← readField f "sbom"
      (fun n => (switchAndNames d n "formats").map fun (e, l) => ⟨e, l⟩) {}
    signing := ← readField f "signing" (Signing.ofNode? d) {}
    attestation := ← readField f "attestation" (Attestation.ofNode? d) {} }

def toValue (p : Publication) : Value := .mapping (
  entryUnless (p.sbom == {}) "sbom"
    (switchAndNamesValue p.sbom.enabled "formats" p.sbom.formats) ++
  entryUnless (p.signing == {}) "signing" p.signing.toValue ++
  entryUnless (p.attestation == {}) "attestation" p.attestation.toValue)

end Publication

namespace Hooks

def ofNode? (d : Document) (n : Node) : Option Hooks := do
  let f ← d.fields? n
  return {
    preBuild := ← readField f "pre_build" d.text? ""
    postBuild := ← readField f "post_build" d.text? "" }

def toValue (h : Hooks) : Value := .mapping (
  entryUnless h.preBuild.isEmpty "pre_build" (.string h.preBuild) ++
  entryUnless h.postBuild.isEmpty "post_build" (.string h.postBuild))

end Hooks

namespace Config

def ofNode? (d : Document) (n : Node) : Option Config := do
  let f ← d.fields? n
  return {
    name := ← readField f "name" d.text? ""
    version := ← readField f "version" d.text? ""
    description := ← readField f "description" d.text? ""
    author := ← readField f "author" d.text? ""
    license := ← readField f "license" d.text? ""
    image := ← readField f "image" (ImageName.ofNode? d) {}
    base := ← readField f "base" (BaseChoice.ofNode? d) {}
    tools := ← readField f "tools" (ToolSelection.ofNode? d) {}
    security := ← readField f "security" (Security.ofNode? d) {}
    optimization := ← readField f "optimization" (Optimization.ofNode? d) {}
    testing := ← readField f "testing" (Testing.ofNode? d) {}
    pipeline := ← readField f "pipeline" (Automation.ofNode? d) {}
    output := ← readField f "output" (Publication.ofNode? d) {}
    custom := ← readField f "custom" (Hooks.ofNode? d) {} }

def toValue (c : Config) : Value := .mapping (
  entry "name" (.string c.name) ++
  entryUnless c.version.isEmpty "version" (.string c.version) ++
  entryUnless c.description.isEmpty "description" (.string c.description) ++
  entryUnless c.author.isEmpty "author" (.string c.author) ++
  entryUnless c.license.isEmpty "license" (.string c.license) ++
  entryUnless (c.image == {}) "image" c.image.toValue ++
  entry "base" c.base.toValue ++
  entryUnless (c.tools == {}) "tools" c.tools.toValue ++
  entryUnless (c.security == {}) "security" c.security.toValue ++
  entryUnless (c.optimization == {}) "optimization" c.optimization.toValue ++
  entryUnless (c.testing == {}) "testing" c.testing.toValue ++
  entryUnless (c.pipeline == {}) "pipeline" c.pipeline.toValue ++
  entryUnless (c.output == {}) "output" c.output.toValue ++
  entryUnless (c.custom == {}) "custom" c.custom.toValue)

/-- A document without content is a configuration of defaults. -/
def ofDocument? (d : Document) : Option Config :=
  match d.root with
  | none => some {}
  | some n => ofNode? d n

/-- Reads a configuration; a blank text is one of defaults. -/
def ofYaml? (s : String) : Option Config :=
  if Text.isBlankText s then some {}
  else match Yaml.Document.ofText s with
    | .ok d => ofDocument? d
    | .error _ => none

def toYaml (c : Config) : String := c.toValue.write

end Config

end ImagePipeline
