import ImagePipeline.Config.Check

/-! What a configuration without errors is: the check finds an error just if one of these
conditions does not hold. -/
namespace ImagePipeline

@[simp] theorem presentIf_eq_nil {α : Type} {condition : Bool} {a : α} :
    presentIf condition a = [] ↔ condition = false := by
  cases condition <;> simp [presentIf]

namespace Config

variable {c : Config} {p : Project} {t : FileTree}

/-- The conditions on a configuration of a project whose files are given. -/
structure Valid (c : Config) (p : Project) (t : FileTree) : Prop where
  name : Text.isBlankText c.name = false
  template : (Text.trimmed c.base.template).isEmpty = false
  templateFile : t.isFile (p.templatePath (Text.trimmed c.base.template)) = true
  architectures : c.base.architectures ≠ []
  architecture : ∀ a ∈ c.base.architectures,
    Text.isBlankText a = false ∧ a.toList.any Text.isBlank = false
  packages : ∀ package ∈ c.tools.packages, Text.isBlankText package = false
  standards : c.security.compliance.enabled = true →
    ∀ name ∈ c.security.compliance.standards, (ComplianceStandard.ofName? name).isSome = true
  analyzers : c.security.sast.enabled = true →
    ∀ name ∈ c.security.sast.tools, (Analyzer.ofName? name).isSome = true
  timeout : (Text.trimmed c.testing.integrationTests.timeout).isEmpty = true ∨
    (Duration.parse? (Text.trimmed c.testing.integrationTests.timeout)).isSome = true
  benchmark :
    (Benchmark.ofName? (Text.trimmed c.testing.performanceTests.benchmarkTool)).isSome = true
  attestation : c.output.attestation.enabled = true →
    c.output.attestation.sbomAttestation = true → c.output.sbom.enabled = true

theorem requiredErrors_eq_nil :
    c.requiredErrors p t = [] ↔ Text.isBlankText c.name = false ∧
      (Text.trimmed c.base.template).isEmpty = false ∧ c.base.architectures ≠ [] ∧
      t.isFile (p.templatePath (Text.trimmed c.base.template)) = true := by
  unfold requiredErrors
  dsimp only
  generalize (Text.trimmed c.base.template).isEmpty = empty
  cases empty <;> simp

theorem architectureError?_eq_none {position : Nat} {arch : String} :
    architectureError? position arch = none ↔
      Text.isBlankText arch = false ∧ arch.toList.any Text.isBlank = false := by
  unfold architectureError?
  split
  · simp_all
  · split <;> simp_all

theorem architectureErrors_eq_nil {position : Nat} {archs : List String} :
    architectureErrors position archs = [] ↔
      ∀ a ∈ archs, Text.isBlankText a = false ∧ a.toList.any Text.isBlank = false := by
  induction archs generalizing position with
  | nil => simp [architectureErrors]
  | cons arch archs ih =>
    rw [architectureErrors, List.append_eq_nil_iff, ih, List.forall_mem_cons,
      Option.toList_eq_nil_iff, architectureError?_eq_none]

theorem packageErrors_eq_nil :
    c.packageErrors = [] ↔ ∀ package ∈ c.tools.packages, Text.isBlankText package = false := by
  simp [packageErrors]

theorem scanErrors_eq_nil :
    c.scanErrors = [] ↔
      (c.security.compliance.enabled = true →
        ∀ name ∈ c.security.compliance.standards,
          (ComplianceStandard.ofName? name).isSome = true) ∧
      (c.security.sast.enabled = true →
        ∀ name ∈ c.security.sast.tools, (Analyzer.ofName? name).isSome = true) := by
  unfold scanErrors
  dsimp only
  cases c.security.compliance.enabled <;> cases c.security.sast.enabled <;>
    simp [Option.isSome_iff_ne_none]

theorem trialErrors_eq_nil :
    c.trialErrors = [] ↔
      ((Text.trimmed c.testing.integrationTests.timeout).isEmpty = true ∨
        (Duration.parse? (Text.trimmed c.testing.integrationTests.timeout)).isSome = true) ∧
      (Benchmark.ofName? (Text.trimmed c.testing.performanceTests.benchmarkTool)).isSome =
        true := by
  unfold trialErrors
  dsimp only
  rw [List.append_eq_nil_iff, presentIf_eq_nil, presentIf_eq_nil, Bool.and_eq_false_iff]
  simp

theorem publicationErrors_eq_nil :
    c.publicationErrors = [] ↔ (c.output.attestation.enabled = true →
      c.output.attestation.sbomAttestation = true → c.output.sbom.enabled = true) := by
  unfold publicationErrors
  dsimp only
  cases c.output.attestation.enabled <;> cases c.output.attestation.sbomAttestation <;> simp

theorem check_clean_iff : (c.check p t).errors = [] ↔ c.Valid p t := by
  simp only [check, List.append_eq_nil_iff, requiredErrors_eq_nil, architectureErrors_eq_nil,
    packageErrors_eq_nil, scanErrors_eq_nil, trialErrors_eq_nil, publicationErrors_eq_nil]
  constructor
  · rintro ⟨⟨⟨⟨⟨⟨name, template, architectures, file⟩, architecture⟩, packages⟩, scans⟩, trials⟩,
      attestation⟩
    exact ⟨name, template, file, architectures, architecture, packages, scans.1, scans.2, trials.1,
      trials.2, attestation⟩
  · intro valid
    exact ⟨⟨⟨⟨⟨⟨valid.name, valid.template, valid.architectures, valid.templateFile⟩,
      valid.architecture⟩, valid.packages⟩, valid.standards, valid.analyzers⟩, valid.timeout,
      valid.benchmark⟩, valid.attestation⟩

end Config

end ImagePipeline
