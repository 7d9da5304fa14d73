import ImagePipeline.Proofs.Config.RoundTrip

/-! What a written configuration leaves out: each key that may be left out stands in a table
with its place and with what its field holds exactly when it is left out. -/
namespace ImagePipeline

open Yaml (Document Node Value)

/-! ### Tables of keys that may be left out -/

/-- Paths of keys, each with the condition under which nothing is written there. -/
abbrev Omissions := List (List String × Prop)

/-- The places of a section, seen from the mapping that has the section at a key. -/
def inside (key : String) (inner : Omissions) : Omissions :=
  inner.map fun o => (key :: o.1, o.2)

/-- A key that is left out under a condition, and the places of its section. -/
def leftOut (key : String) (empty : Prop) (inner : Omissions) : Omissions :=
  ([key], empty) :: inside key inner

def Yaml.Value.Omits (v : Value) (places : Omissions) : Prop :=
  ∀ o ∈ places, v.at? o.1 = none ↔ o.2

section Lookup

variable {entries : List (String × Value)} {key : String} {v : Value}

@[simp] theorem lookup_entry (name key : String) (v : Value) :
    (entry name v).lookup key = if key = name then some v else none := by
  rw [entry, List.lookup_cons, List.lookup_nil]
  by_cases same : key = name
  · simp [same]
  · simp [same, beq_eq_false_iff_ne.mpr same]

@[simp] theorem lookup_entryUnless (skip : Bool) (name key : String) (v : Value) :
    (entryUnless skip name v).lookup key =
      if key = name then (if skip then none else some v) else none := by
  cases skip with
  | true => simp [entryUnless]
  | false => exact lookup_entry name key v

theorem Yaml.Value.omits_append {a b : Omissions} : v.Omits (a ++ b) ↔ v.Omits a ∧ v.Omits b :=
  List.forall_mem_append

theorem omits_inside {inner : Omissions} (found : entries.lookup key = some v)
    (omits : v.Omits inner) : (Value.mapping entries).Omits (inside key inner) := by
  intro o member
  obtain ⟨below, place, rfl⟩ := List.mem_map.1 member
  simpa [Value.at?, found] using omits below place

/-- Where a section is left out, so is all that its table says of it. -/
theorem omits_leftOut (skip : Bool) {empty : Prop} {inner : Omissions}
    (found : entries.lookup key = if skip then none else some v) (same : skip = true ↔ empty)
    (omits : v.Omits inner) (thenEmpty : empty → ∀ o ∈ inner, o.2) :
    (Value.mapping entries).Omits (leftOut key empty inner) := by
  intro o member
  cases skip with
  | true =>
    have absent (path : List String) : (Value.mapping entries).at? (key :: path) = none := by
      simp [Value.at?, found]
    obtain rfl | member := List.mem_cons.1 member
    · simpa [absent] using same
    · obtain ⟨below, place, rfl⟩ := List.mem_map.1 member
      simpa [absent] using thenEmpty (same.1 rfl) below place
  | false =>
    obtain rfl | member := List.mem_cons.1 member
    · simpa [Value.at?, found] using same
    · exact omits_inside (by simpa using found) omits o member

theorem omits_section {α : Type} [DecidableEq α] (table : α → Omissions) {a absent : α}
    (found : entries.lookup key = if a == absent then none else some v)
    (omits : v.Omits (table a)) (allEmpty : ∀ o ∈ table absent, o.2) :
    (Value.mapping entries).Omits (leftOut key (a = absent) (table a)) :=
  omits_leftOut (a == absent) found beq_iff_eq omits fun same => same ▸ allEmpty

/-- A key that has no places below it. -/
theorem omits_field {empty : Prop} (same : entries.lookup key = none ↔ empty) :
    (Value.mapping entries).Omits (leftOut key empty []) := by
  intro o member
  obtain rfl := List.mem_singleton.1 member
  simpa [Value.at?] using same

end Lookup

/-! ### The sections -/

namespace Tool

def omissions (t : Tool) : Omissions := leftOut "version" (t.version = "") []

theorem omits (t : Tool) : t.toValue.Omits t.omissions :=
  omits_field (by simp [List.lookup_append])

end Tool

namespace ToolSelection

def toolsOmissions (m : OrderedMap Tool) : Omissions :=
  m.entries.flatMap fun (name, t) => inside name t.omissions

def omissions (t : ToolSelection) : Omissions :=
  leftOut "languages" (t.languages = .empty) (toolsOmissions t.languages) ++
  leftOut "security" (t.security = .empty) (toolsOmissions t.security) ++
  leftOut "devops" (t.devops = .empty) (toolsOmissions t.devops) ++
  leftOut "packages" (t.packages = []) []

theorem isEmpty_iff {m : OrderedMap Tool} : m.isEmpty = true ↔ m = .empty :=
  ⟨fun nothing => (empty_of_isEmpty nothing).symm, fun same => same ▸ rfl⟩

theorem lookup_tools {m : OrderedMap Tool} {name : String} {t : Tool}
    (member : (name, t) ∈ m.entries) :
    (m.entries.map fun (name, tool) => (name, tool.toValue)).lookup name = some t.toValue := by
  obtain ⟨before, after, split⟩ := List.append_of_mem member
  have first : ∀ e ∈ before, e.1 < name := fun e earlier =>
    (List.pairwise_append.1 (split ▸ m.ascending)).2.2 e earlier _ List.mem_cons_self
  refine List.lookup_eq_some_iff.2 ⟨_, _, by rw [split, List.map_append, List.map_cons], ?_⟩
  intro e written
  obtain ⟨kept, earlier, rfl⟩ := List.mem_map.1 written
  exact bne_iff_ne.2 fun same => String.lt_irrefl name (same ▸ first kept earlier)

theorem omits_tools (m : OrderedMap Tool) : (toolsToValue m).Omits (toolsOmissions m) := by
  intro o member
  obtain ⟨⟨name, t⟩, listed, place⟩ := List.mem_flatMap.1 member
  exact omits_inside (lookup_tools listed) t.omits o place

theorem omits_toolMap {entries : List (String × Value)} {key : String} {m : OrderedMap Tool}
    (found : entries.lookup key = if m.isEmpty then none else some (toolsToValue m)) :
    (Value.mapping entries).Omits (leftOut key (m = .empty) (toolsOmissions m)) :=
  omits_leftOut m.isEmpty found isEmpty_iff (omits_tools m) fun nothing => nothing ▸ nofun

theorem omits (t : ToolSelection) : t.toValue.Omits t.omissions := by
  simp only [omissions, Value.omits_append, and_assoc]
  exact ⟨omits_toolMap (by simp [List.lookup_append]),
    omits_toolMap (by simp [List.lookup_append]),
    omits_toolMap (by simp [List.lookup_append]),
    omits_field (by simp [List.lookup_append])⟩

end ToolSelection

namespace VulnerabilityScan

def omissions (s : VulnerabilityScan) : Omissions := leftOut "severity" (s.severity = "") []

theorem omits (s : VulnerabilityScan) : s.toValue.Omits s.omissions :=
  omits_field (by simp [List.lookup_append])

end VulnerabilityScan

namespace Security

def omissions (s : Security) : Omissions :=
  leftOut "trivy" (s.trivy = {}) s.trivy.omissions ++
  leftOut "codeql" (s.codeql = {}) [] ++
  leftOut "compliance" (s.compliance = {}) [] ++
  leftOut "sast" (s.sast = {}) []

theorem omits (s : Security) : s.toValue.Omits s.omissions := by
  simp only [omissions, Value.omits_append, and_assoc]
  exact ⟨omits_section VulnerabilityScan.omissions (by simp [List.lookup_append])
      s.trivy.omits (by simp [VulnerabilityScan.omissions, leftOut, inside]),
    omits_field (by simp [List.lookup_append]),
    omits_field (by simp [List.lookup_append]),
    omits_field (by simp [List.lookup_append])⟩

end Security

theorem omits_switchAndText {textKey : String} (other : "enabled" ≠ textKey) (enabled : Bool)
    (text : String) :
    (switchAndTextValue enabled textKey text).Omits (leftOut textKey (text = "") []) :=
  omits_field (by simp [List.lookup_append, other.symm])

namespace Testing

def omissions (t : Testing) : Omissions :=
  leftOut "structure_tests" (t.structureTests = {})
    (leftOut "config" (t.structureTests.config = "") []) ++
  leftOut "integration_tests" (t.integrationTests = {})
    (leftOut "timeout" (t.integrationTests.timeout = "") []) ++
  leftOut "performance_tests" (t.performanceTests = {})
    (leftOut "benchmark_tool" (t.performanceTests.benchmarkTool = "") [])

theorem omits (t : Testing) : t.toValue.Omits t.omissions := by
  simp only [omissions, Value.omits_append, and_assoc]
  exact ⟨omits_section (fun s : StructureTests => leftOut "config" (s.config = "") [])
      (by simp [List.lookup_append]) (omits_switchAndText (by decide) t.structureTests.enabled _)
      (by simp [leftOut, inside]),
    omits_section (fun i : IntegrationTests => leftOut "timeout" (i.timeout = "") [])
      (by simp [List.lookup_append]) (omits_switchAndText (by decide) t.integrationTests.enabled _)
      (by simp [leftOut, inside]),
    omits_section (fun p : PerformanceTests =>
        leftOut "benchmark_tool" (p.benchmarkTool = "") [])
      (by simp [List.lookup_append]) (omits_switchAndText (by decide) t.performanceTests.enabled _)
      (by simp [leftOut, inside])⟩

end Testing

namespace Automation

def omissions (a : Automation) : Omissions :=
  leftOut "github_actions" (a.githubActions = {}) [] ++
  leftOut "artifacts" (a.artifacts = {}) [] ++
  leftOut "notifications" (a.notifications = {}) []

theorem omits (a : Automation) : a.toValue.Omits a.omissions := by
  simp only [omissions, Value.omits_append, and_assoc]
  exact ⟨omits_field (by simp [List.lookup_append]), omits_field (by simp [List.lookup_append]),
    omits_field (by simp [List.lookup_append])⟩

end Automation

namespace Publication

def omissions (p : Publication) : Omissions :=
  leftOut "sbom" (p.sbom = {}) [] ++ leftOut "signing" (p.signing = {}) [] ++
  leftOut "attestation" (p.attestation = {}) []

theorem omits (p : Publication) : p.toValue.Omits p.omissions := by
  simp only [omissions, Value.omits_append, and_assoc]
  exact ⟨omits_field (by simp [List.lookup_append]), omits_field (by simp [List.lookup_append]),
    omits_field (by simp [List.lookup_append])⟩

end Publication

namespace Hooks

def omissions (h : Hooks) : Omissions :=
  leftOut "pre_build" (h.preBuild = "") [] ++ leftOut "post_build" (h.postBuild = "") []

theorem omits (h : Hooks) : h.toValue.Omits h.omissions :=
  Value.omits_append.2 ⟨omits_field (by simp [List.lookup_append]),
    omits_field (by simp [List.lookup_append])⟩

end Hooks

namespace Config

def omissions (c : Config) : Omissions :=
  leftOut "version" (c.version = "") [] ++
  leftOut "description" (c.description = "") [] ++
  leftOut "author" (c.author = "") [] ++
  leftOut "license" (c.license = "") [] ++
  leftOut "image" (c.image = {}) [] ++
  leftOut "tools" (c.tools = {}) c.tools.omissions ++
  leftOut "security" (c.security = {}) c.security.omissions ++
  leftOut "optimization" (c.optimization = {}) [] ++
  leftOut "testing" (c.testing = {}) c.testing.omissions ++
  leftOut "pipeline" (c.pipeline = {}) c.pipeline.omissions ++
  leftOut "output" (c.output = {}) c.output.omissions ++
  leftOut "custom" (c.custom = {}) c.custom.omissions

theorem omits (c : Config) : c.toValue.Omits c.omissions := by
  simp only [omissions, Value.omits_append, and_assoc]
  exact ⟨omits_field (by simp [List.lookup_append]),
    omits_field (by simp [List.lookup_append]),
    omits_field (by simp [List.lookup_append]),
    omits_field (by simp [List.lookup_append]),
    omits_field (by simp [List.lookup_append]),
    omits_section ToolSelection.omissions (by simp [List.lookup_append]) c.tools.omits
      (by simp [ToolSelection.omissions, ToolSelection.toolsOmissions, OrderedMap.empty,
        leftOut, inside]),
    omits_section Security.omissions (by simp [List.lookup_append]) c.security.omits
      (by simp [Security.omissions, VulnerabilityScan.omissions, leftOut, inside]),
    omits_field (by simp [List.lookup_append]),
    omits_section Testing.omissions (by simp [List.lookup_append]) c.testing.omits
      (by simp [Testing.omissions, leftOut, inside]),
    omits_section Automation.omissions (by simp [List.lookup_append]) c.pipeline.omits
      (by simp [Automation.omissions, leftOut, inside]),
    omits_section Publication.omissions (by simp [List.lookup_append]) c.output.omits
      (by simp [Publication.omissions, leftOut, inside]),
    omits_section Hooks.omissions (by simp [List.lookup_append]) c.custom.omits
      (by simp [Hooks.omissions, leftOut, inside])⟩

end Config

/-! ### The written document -/

/-- A configuration whose text holds the value that was written is read back from it, and the
document lacks exactly the keys that its table of omissions says. So a document that was read,
written and read again gives the same configuration. -/
theorem written_config_restored (c : Config) (faithful : c.toValue.isReadFrom c.toYaml = true) :
    Config.ofYaml? c.toYaml = some c ∧
    (∃ d n, Document.ofText c.toYaml = .ok d ∧ d.root = some n ∧
      ∀ o ∈ c.omissions, d.at? o.1 n = none ↔ o.2) ∧
    ∀ text, Config.ofYaml? text = some c → Config.ofYaml? c.toYaml = Config.ofYaml? text := by
  have restored : Config.ofYaml? c.toYaml = some c := Config.ofYaml?_toYaml faithful
  refine ⟨restored, ?_, fun text read => restored.trans read.symm⟩
  obtain ⟨d, n, parsed, root, held⟩ := Value.isReadFrom_iff.1 faithful
  refine ⟨d, n, parsed, root, fun o place => ?_⟩
  exact (at?_of_holds d held o.1).trans (c.omits o place)

/-- A section that differs from its default in one number only. -/
def lenientDemo : Config where
  name := "demo"
  security := { trivy := { exitCode := 0 } }

theorem lenientDemo_toYaml : lenientDemo.toYaml =
    "name: demo\nbase:\n  template: ''\n  architecture: []\nsecurity:\n  trivy:\n" ++
    "    enabled: false\n    exit_code: 0\n    ignore_unfixed: false\n" := by
  have value : lenientDemo.toValue = .mapping [("name", .string "demo"),
      ("base", .mapping [("template", .string ""), ("architecture", .sequence [])]),
      ("security", .mapping [("trivy", .mapping [("enabled", .bool false),
        ("exit_code", .int 0), ("ignore_unfixed", .bool false)])])] := rfl
  rw [Config.toYaml, value]
  simp only [Value.write, Yaml.inlineChars, Yaml.entryChars, Yaml.entriesChars]
  decide +kernel

theorem lenientDemo_restored : lenientDemo.toValue.isReadFrom lenientDemo.toYaml = true ∧
    Config.ofYaml? lenientDemo.toYaml = some lenientDemo := by
  have faithful : lenientDemo.toValue.isReadFrom lenientDemo.toYaml = true := by
    rw [lenientDemo_toYaml]
    decide +kernel
  exact ⟨faithful, (written_config_restored lenientDemo faithful).1⟩

end ImagePipeline
