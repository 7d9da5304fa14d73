import ImagePipeline.Proofs.Yaml.Tree

/-! Each section of a configuration is read from the value that it is written as: what is
left out is what the reader takes a missing key for. So a configuration is read from its own
text wherever that text holds the value that it was written from. -/
namespace ImagePipeline

open Yaml (Document Node Value FieldsHold)

variable (d : Document)

theorem ImageName.reads (i : ImageName) : Reads (ofNode? d) i.toValue i := by
  refine reads_mapping d fun f held => ?_
  have name : readField f "name" d.text? "" = some i.name :=
    held.present (by simp) (reads_text d _)
  have tag : readField f "tag" d.text? "" = some i.tag :=
    held.present (by simp) (reads_text d _)
  have registry : readField f "registry" d.text? "" = some i.registry :=
    held.present (by simp) (reads_text d _)
  have owner : readField f "namespace" d.text? "" = some i.owner :=
    held.present (by simp) (reads_text d _)
  simp [name, tag, registry, owner]

theorem BaseChoice.reads (b : BaseChoice) : Reads (ofNode? d) b.toValue b := by
  refine reads_mapping d fun f held => ?_
  have template : readField f "template" d.text? "" = some b.template :=
    held.present (by simp) (reads_text d _)
  have architectures : readField f "architecture" d.texts? [] = some b.architectures :=
    held.present (by simp) (reads_texts d _)
  simp [template, architectures]

theorem Tool.reads (t : Tool) : Reads (ofNode? d) t.toValue t := by
  refine reads_mapping d fun f held => ?_
  have install : readField f "install" d.bool? false = some t.install :=
    held.present (by simp) (reads_bool d _)
  have version : readField f "version" d.text? "" = some t.version :=
    held.optional t.version.isEmpty (by simp) (reads_text d _) (by simp)
  simp [install, version]

namespace ToolSelection

theorem mapM_tools {fields : List (String × Node)} {tools : List (String × Tool)}
    (held : FieldsHold fields (tools.map fun (name, tool) => (name, tool.toValue))) :
    (fields.mapM fun (name, node) => (Tool.ofNode? d node).map fun t => (name, t)) =
      some tools := by
  induction tools generalizing fields with
  | nil =>
    rw [List.forall₂_nil_right_iff.1 held]
    rfl
  | cons entry tools ih =>
    obtain ⟨name, tool⟩ := entry
    obtain ⟨⟨key, node⟩, rest, ⟨same, hold⟩, others, rfl⟩ := List.forall₂_cons_right_iff.1 held
    simp [Tool.reads d tool node hold, ih others, show key = name from same]

theorem reads_tools (m : OrderedMap Tool) : Reads (toolsOfNode? d) (toolsToValue m) m := by
  refine reads_mapping d fun f held => ?_
  simp [mapM_tools d held, OrderedMap.ofList_entries]

theorem empty_of_isEmpty {m : OrderedMap Tool} (nothing : m.isEmpty = true) : .empty = m :=
  OrderedMap.eq_of_entries (List.isEmpty_iff.1 nothing).symm

theorem reads (t : ToolSelection) : Reads (ofNode? d) t.toValue t := by
  refine reads_mapping d fun f held => ?_
  have languages : readField f "languages" (toolsOfNode? d) .empty = some t.languages :=
    held.optional t.languages.isEmpty (by simp) (reads_tools d _) empty_of_isEmpty
  have security : readField f "security" (toolsOfNode? d) .empty = some t.security :=
    held.optional t.security.isEmpty (by simp) (reads_tools d _) empty_of_isEmpty
  have devops : readField f "devops" (toolsOfNode? d) .empty = some t.devops :=
    held.optional t.devops.isEmpty (by simp) (reads_tools d _) empty_of_isEmpty
  have packages : readField f "packages" d.texts? [] = some t.packages :=
    held.optional t.packages.isEmpty (by simp) (reads_texts d _) (by simp)
  simp [languages, security, devops, packages]

end ToolSelection

theorem VulnerabilityScan.reads (s : VulnerabilityScan) : Reads (ofNode? d) s.toValue s := by
  refine reads_mapping d fun f held => ?_
  have enabled : readField f "enabled" d.bool? false = some s.enabled :=
    held.present (by simp) (reads_bool d _)
  have severity : readField f "severity" d.text? "" = some s.severity :=
    held.optional s.severity.isEmpty (by simp) (reads_text d _) (by simp)
  have exitCode : readField f "exit_code" d.int32? 1 = some s.exitCode :=
    held.present (by simp) (reads_int32 d _)
  have ignoreUnfixed : readField f "ignore_unfixed" d.bool? false = some s.ignoreUnfixed :=
    held.present (by simp) (reads_bool d _)
  simp [enabled, severity, exitCode, ignoreUnfixed]

theorem reads_switchAndNames {listKey : String} (other : "enabled" ≠ listKey) (enabled : Bool)
    (names : List String) :
    Reads (fun n => switchAndNames d n listKey) (switchAndNamesValue enabled listKey names)
      (enabled, names) := by
  refine reads_mapping d fun f held => ?_
  have switch : readField f "enabled" d.bool? false = some enabled :=
    held.present (by simp [other.symm]) (reads_bool d _)
  have list : readField f listKey d.texts? [] = some names :=
    held.present (by simp [other]) (reads_texts d _)
  simp [switch, list]

theorem reads_switchAndText {textKey : String} (other : "enabled" ≠ textKey) (enabled : Bool)
    (text : String) :
    Reads (fun n => switchAndText d n textKey) (switchAndTextValue enabled textKey text)
      (enabled, text) := by
  refine reads_mapping d fun f held => ?_
  have switch : readField f "enabled" d.bool? false = some enabled :=
    held.present (by simp [other.symm]) (reads_bool d _)
  have said : readField f textKey d.text? "" = some text :=
    held.optional text.isEmpty (by simp [other]) (reads_text d _) (by simp)
  simp [switch, said]

theorem Security.reads (s : Security) : Reads (ofNode? d) s.toValue s := by
  refine reads_mapping d fun f held => ?_
  have trivy : readField f "trivy" (VulnerabilityScan.ofNode? d) {} = some s.trivy :=
    held.unlessDefault (by simp) (s.trivy.reads d)
  have codeql build (same : build (s.codeql.enabled, s.codeql.languages) = s.codeql) :
      readField f "codeql" (fun n => (switchAndNames d n "languages").map build) {} =
        some s.codeql :=
    held.unlessDefault (by simp) (same ▸ (reads_switchAndNames d (by decide) _ _).map build)
  have compliance build
      (same : build (s.compliance.enabled, s.compliance.standards) = s.compliance) :
      readField f "compliance" (fun n => (switchAndNames d n "standards").map build) {} =
        some s.compliance :=
    held.unlessDefault (by simp) (same ▸ (reads_switchAndNames d (by decide) _ _).map build)
  have sast build (same : build (s.sast.enabled, s.sast.tools) = s.sast) :
      readField f "sast" (fun n => (switchAndNames d n "tools").map build) {} = some s.sast :=
    held.unlessDefault (by simp) (same ▸ (reads_switchAndNames d (by decide) _ _).map build)
  simp [trivy, codeql, compliance, sast]

theorem Optimization.reads (o : Optimization) : Reads (ofNode? d) o.toValue o := by
  refine reads_mapping d fun f held => ?_
  have multiStage : readField f "multi_stage" d.bool? false = some o.multiStage :=
    held.present (by simp) (reads_bool d _)
  have cacheLayers : readField f "cache_layers" d.bool? false = some o.cacheLayers :=
    held.present (by simp) (reads_bool d _)
  have minify : readField f "minify" d.bool? false = some o.minify :=
    held.present (by simp) (reads_bool d _)
  have stripDebug : readField f "strip_debug" d.bool? false = some o.stripDebug :=
    held.present (by simp) (reads_bool d _)
  simp [multiStage, cacheLayers, minify, stripDebug]

theorem Testing.reads (t : Testing) : Reads (ofNode? d) t.toValue t := by
  refine reads_mapping d fun f held => ?_
  have structureTests build
      (same : build (t.structureTests.enabled, t.structureTests.config) = t.structureTests) :
      readField f "structure_tests" (fun n => (switchAndText d n "config").map build) {} =
        some t.structureTests :=
    held.unlessDefault (by simp) (same ▸ (reads_switchAndText d (by decide) _ _).map build)
  have integrationTests build
      (same : build (t.integrationTests.enabled, t.integrationTests.timeout) =
        t.integrationTests) :
      readField f "integration_tests" (fun n => (switchAndText d n "timeout").map build) {} =
        some t.integrationTests :=
    held.unlessDefault (by simp) (same ▸ (reads_switchAndText d (by decide) _ _).map build)
  have performanceTests build
      (same : build (t.performanceTests.enabled, t.performanceTests.benchmarkTool) =
        t.performanceTests) :
      readField f "performance_tests"
          (fun n => (switchAndText d n "benchmark_tool").map build) {} =
        some t.performanceTests :=
    held.unlessDefault (by simp) (same ▸ (reads_switchAndText d (by decide) _ _).map build)
  simp [structureTests, integrationTests, performanceTests]

theorem WorkflowMatrix.reads (m : WorkflowMatrix) : Reads (ofNode? d) m.toValue m := by
  refine reads_mapping d fun f held => ?_
  have os : readField f "os" d.texts? [] = some m.os :=
    held.present (by simp) (reads_texts d _)
  have arch : readField f "arch" d.texts? [] = some m.arch :=
    held.present (by simp) (reads_texts d _)
  simp [os, arch]

theorem Workflows.reads (w : Workflows) : Reads (ofNode? d) w.toValue w := by
  refine reads_mapping d fun f held => ?_
  have matrix : readField f "matrix" (WorkflowMatrix.ofNode? d) {} = some w.matrix :=
    held.present (by simp) (w.matrix.reads d)
  have parallel : readField f "parallel" d.texts? [] = some w.parallel :=
    held.present (by simp) (reads_texts d _)
  simp [matrix, parallel]

theorem Artifacts.reads (a : Artifacts) : Reads (ofNode? d) a.toValue a := by
  refine reads_mapping d fun f held => ?_
  have retentionDays : readField f "retention_days" d.uint32? 0 = some a.retentionDays :=
    held.present (by simp) (reads_uint32 d _)
  simp [retentionDays]

theorem Slack.reads (s : Slack) : Reads (ofNode? d) s.toValue s := by
  refine reads_mapping d fun f held => ?_
  have enabled : readField f "enabled" d.bool? false = some s.enabled :=
    held.present (by simp) (reads_bool d _)
  have webhook : readField f "webhook" d.text? "" = some s.webhook :=
    held.present (by simp) (reads_text d _)
  simp [enabled, webhook]

theorem Notifications.reads (x : Notifications) : Reads (ofNode? d) x.toValue x := by
  refine reads_mapping d fun f held => ?_
  have slack : readField f "slack" (Slack.ofNode? d) {} = some x.slack :=
    held.present (by simp) (x.slack.reads d)
  simp [slack]

theorem Automation.reads (a : Automation) : Reads (ofNode? d) a.toValue a := by
  refine reads_mapping d fun f held => ?_
  have githubActions : readField f "github_actions" (Workflows.ofNode? d) {} =
      some a.githubActions := held.unlessDefault (by simp) (a.githubActions.reads d)
  have artifacts : readField f "artifacts" (Artifacts.ofNode? d) {} = some a.artifacts :=
    held.unlessDefault (by simp) (a.artifacts.reads d)
  have notifications : readField f "notifications" (Notifications.ofNode? d) {} =
      some a.notifications := held.unlessDefault (by simp) (a.notifications.reads d)
  simp [githubActions, artifacts, notifications]

theorem Cosign.reads (c : Cosign) : Reads (ofNode? d) c.toValue c := by
  refine reads_mapping d fun f held => ?_
  have enabled : readField f "enabled" d.bool? false = some c.enabled :=
    held.present (by simp) (reads_bool d _)
  have keyless : readField f "keyless" d.bool? false = some c.keyless :=
    held.present (by simp) (reads_bool d _)
  simp [enabled, keyless]

theorem Signing.reads (s : Signing) : Reads (ofNode? d) s.toValue s := by
  refine reads_mapping d fun f held => ?_
  have enabled : readField f "enabled" d.bool? false = some s.enabled :=
    held.present (by simp) (reads_bool d _)
  have cosign : readField f "cosign" (Cosign.ofNode? d) {} = some s.cosign :=
    held.present (by simp) (s.cosign.reads d)
  simp [enabled, cosign]

theorem Attestation.reads (a : Attestation) : Reads (ofNode? d) a.toValue a := by
  refine reads_mapping d fun f held => ?_
  have enabled : readField f "enabled" d.bool? false = some a.enabled :=
    held.present (by simp) (reads_bool d _)
  have provenance : readField f "provenance" d.bool? false = some a.provenance :=
    held.present (by simp) (reads_bool d _)
  have sbomAttestation : readField f "sbom_attestation" d.bool? false =
      some a.sbomAttestation := held.present (by simp) (reads_bool d _)
  simp [enabled, provenance, sbomAttestation]

theorem Publication.reads (p : Publication) : Reads (ofNode? d) p.toValue p := by
  refine reads_mapping d fun f held => ?_
  have sbom build (same : build (p.sbom.enabled, p.sbom.formats) = p.sbom) :
      readField f "sbom" (fun n => (switchAndNames d n "formats").map build) {} = some p.sbom :=
    held.unlessDefault (by simp) (same ▸ (reads_switchAndNames d (by decide) _ _).map build)
  have signing : readField f "signing" (Signing.ofNode? d) {} = some p.signing :=
    held.unlessDefault (by simp) (p.signing.reads d)
  have attestation : readField f "attestation" (Attestation.ofNode? d) {} =
      some p.attestation := held.unlessDefault (by simp) (p.attestation.reads d)
  simp [sbom, signing, attestation]

theorem Hooks.reads (h : Hooks) : Reads (ofNode? d) h.toValue h := by
  refine reads_mapping d fun f held => ?_
  have preBuild : readField f "pre_build" d.text? "" = some h.preBuild :=
    held.optional h.preBuild.isEmpty (by simp) (reads_text d _) (by simp)
  have postBuild : readField f "post_build" d.text? "" = some h.postBuild :=
    held.optional h.postBuild.isEmpty (by simp) (reads_text d _) (by simp)
  simp [preBuild, postBuild]

theorem Config.reads (c : Config) : Reads (ofNode? d) c.toValue c := by
  refine reads_mapping d fun f held => ?_
  have name : readField f "name" d.text? "" = some c.name :=
    held.present (by simp) (reads_text d _)
  have version : readField f "version" d.text? "" = some c.version :=
    held.optional c.version.isEmpty (by simp) (reads_text d _) (by simp)
  have description : readField f "description" d.text? "" = some c.description :=
    held.optional c.description.isEmpty (by simp) (reads_text d _) (by simp)
  have author : readField f "author" d.text? "" = some c.author :=
    held.optional c.author.isEmpty (by simp) (reads_text d _) (by simp)
  have license : readField f "license" d.text? "" = some c.license :=
    held.optional c.license.isEmpty (by simp) (reads_text d _) (by simp)
  have image : readField f "image" (ImageName.ofNode? d) {} = some c.image :=
    held.unlessDefault (by simp) (c.image.reads d)
  have base : readField f "base" (BaseChoice.ofNode? d) {} = some c.base :=
    held.present (by simp) (c.base.reads d)
  have tools : readField f "tools" (ToolSelection.ofNode? d) {} = some c.tools :=
    held.unlessDefault (by simp) (c.tools.reads d)
  have security : readField f "security" (Security.ofNode? d) {} = some c.security :=
    held.unlessDefault (by simp) (c.security.reads d)
  have optimization : readField f "optimization" (Optimization.ofNode? d) {} =
      some c.optimization := held.unlessDefault (by simp) (c.optimization.reads d)
  have testing : readField f "testing" (Testing.ofNode? d) {} = some c.testing :=
    held.unlessDefault (by simp) (c.testing.reads d)
  have pipeline : readField f "pipeline" (Automation.ofNode? d) {} = some c.pipeline :=
    held.unlessDefault (by simp) (c.pipeline.reads d)
  have output : readField f "output" (Publication.ofNode? d) {} = some c.output :=
    held.unlessDefault (by simp) (c.output.reads d)
  have custom : readField f "custom" (Hooks.ofNode? d) {} = some c.custom :=
    held.unlessDefault (by simp) (c.custom.reads d)
  simp [name, version, description, author, license, image, base, tools, security,
    optimization, testing, pipeline, output, custom]

theorem Yaml.colon_mem_entryChars (column : Nat) (key : String) (value : Value) :
    ':' ∈ entryChars column key value := by
  rw [entryChars.eq_def]
  split <;> simp

namespace Config

/-- A configuration is never written as a blank text, which would be read as the defaults. -/
theorem toYaml_not_blank (c : Config) : Text.isBlankText c.toYaml = false := by
  rw [Text.isBlankText, List.all_eq_false]
  refine ⟨':', ?_, by decide⟩
  have first : ':' ∈ Yaml.entryChars 0 "name" (.string c.name) :=
    Yaml.colon_mem_entryChars 0 "name" _
  rw [toYaml, Value.write, String.toList_ofList, toValue, entry, List.cons_append]
  simp [Yaml.inlineChars, first]

theorem ofYaml?_toYaml {c : Config} (faithful : c.toValue.isReadFrom c.toYaml = true) :
    ofYaml? c.toYaml = some c := by
  obtain ⟨d, n, parsed, root, held⟩ := Value.isReadFrom_iff.1 faithful
  simp [ofYaml?, c.toYaml_not_blank, parsed, ofDocument?, root, c.reads d n held]

end Config

end ImagePipeline
