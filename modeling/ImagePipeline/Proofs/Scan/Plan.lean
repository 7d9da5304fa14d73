import ImagePipeline.Proofs.Plan
import ImagePipeline.Scan.Run

/-! The plan of the scans of an image. Scans whose standards and analyzers are all known
issue a prefix of their plan, which ends with the first command that fails. -/
namespace ImagePipeline

variable {c : Config} {p : Project} {r : Runner} {s : Session}

namespace Project

/-- A command in the root of a project, by its words. -/
def rootCommand (p : Project) (program : String) (args : List String) : Command where
  program
  args
  workingDir := some p.root

/-- The description of an image. -/
def inspection (p : Project) (image : String) : Command :=
  p.rootCommand "docker" ["image", "inspect", image]

/-- The judgement of what was described, by the policy of a standard. -/
def judgement (p : Project) (standard : ComplianceStandard) : Command :=
  p.rootCommand "opa" ["eval", "--fail-defined", "--format", "pretty",
    "--input", ".foundry/compliance-input.json",
    "--data", "compliance/" ++ standard.name ++ ".rego",
    "data.foundry." ++ standard.package ++ ".deny[msg]"]

/-- The database of a language, and what is asked of it. -/
def queries (p : Project) (language : String) : List Command := [
  p.rootCommand "codeql" ["database", "create", ".foundry/codeql/" ++ language,
    "--language", language, "--overwrite"],
  p.rootCommand "codeql" ["database", "analyze", ".foundry/codeql/" ++ language,
    "--format", "sarif-latest", "--output", ".foundry/codeql/" ++ language ++ ".sarif"]]

end Project

namespace Config

/-- The search of an image for vulnerabilities, of which the worst ones count unless others are
asked for. -/
def vulnerabilitySearch (c : Config) (p : Project) (image : String) : Command :=
  p.rootCommand "trivy" (["image", "--severity",
    if Text.isBlankText c.security.trivy.severity then "HIGH,CRITICAL"
    else Text.trimmed c.security.trivy.severity,
    "--exit-code", toString c.security.trivy.exitCode] ++
    (if c.security.trivy.ignoreUnfixed then ["--ignore-unfixed"] else []) ++ [image])

/-- The run of an analyzer over all sources, or over the Dockerfile. -/
def analysis (c : Config) (p : Project) : Analyzer → Command
  | .semgrep => p.rootCommand "semgrep" ["scan", "--config", "auto", "--error", "."]
  | .gosec => p.rootCommand "gosec" ["./..."]
  | .bandit => p.rootCommand "bandit" ["-r", "."]
  | .hadolint => p.rootCommand "hadolint" [c.dockerfile]

/-- The search for vulnerabilities, the description of the image and a judgement by each
standard, the analyzers, and two queries for each language. -/
def scanPlan (c : Config) (p : Project) (arch : String) : List Command :=
  let image := c.imageReference arch
  (if c.security.trivy.enabled then [c.vulnerabilitySearch p image] else []) ++
  (if c.security.compliance.enabled then
    p.inspection image ::
      (c.security.compliance.standards.filterMap ComplianceStandard.ofName?).map p.judgement
  else []) ++
  (if c.security.sast.enabled then
    (c.security.sast.tools.filterMap Analyzer.ofName?).map (c.analysis p)
  else []) ++
  (if c.security.codeql.enabled then
    c.security.codeql.languages.flatMap fun language => p.queries (Text.trimmed language)
  else [])

/-! ### The commands of the scans are those of the plan -/

theorem codeCommands_eq : p.codeCommands = p.queries := rfl

theorem analyzerCommand_eq : p.analyzerCommand c = c.analysis p := by
  funext analyzer
  cases analyzer <;> rfl

/-- Every standard and every analyzer that is asked for is known. -/
structure ScansKnown (c : Config) : Prop where
  standards : c.security.compliance.enabled = true →
    ∀ name ∈ c.security.compliance.standards, (ComplianceStandard.ofName? name).isSome
  analyzers : c.security.sast.enabled = true →
    ∀ name ∈ c.security.sast.tools, (Analyzer.ofName? name).isSome

theorem vulnerabilitySteps_commands (image : String) :
    (c.vulnerabilitySteps p image).map Step.command =
      if c.security.trivy.enabled then [c.vulnerabilitySearch p image] else [] := by
  unfold vulnerabilitySteps
  split <;> rfl

theorem codeSteps_commands :
    (c.codeSteps p).map Step.command =
      if c.security.codeql.enabled then
        c.security.codeql.languages.flatMap fun language => p.queries (Text.trimmed language)
      else [] := by
  unfold codeSteps
  split
  · simp only [List.map_flatMap, List.map_map, Function.comp_def, List.map_id', codeCommands_eq]
  · rfl

end Config

/-- The files that the description of an image for the policies is written to. -/
def MadeByScan (p : Project) (r : Runner) (q : Path) : Prop :=
  r.executes = true ∧ (q = p.stateDirectory "" ∨ q = p.path complianceInputFile)

theorem judgeEach_pursues {touches : Path → Prop} {names : List String}
    (known : ∀ name ∈ names, (ComplianceStandard.ofName? name).isSome) :
    Pursues r touches ((names.filterMap ComplianceStandard.ofName?).map p.judgement)
      (judgeEach p r names) s := by
  induction names generalizing s with
  | nil => exact .pure ()
  | cons name names ih =>
    obtain ⟨first, others⟩ := List.forall_mem_cons.mp known
    obtain ⟨standard, found⟩ := Option.isSome_iff_exists.mp first
    rw [List.filterMap_cons_some found, judgeEach, found]
    exact (Pursues.perform (complianceStep p standard)).bind fun _ _ _ => ih others

theorem analyzeEach_pursues {touches : Path → Prop} {names : List String}
    (known : ∀ name ∈ names, (Analyzer.ofName? name).isSome) :
    Pursues r touches ((names.filterMap Analyzer.ofName?).map (c.analysis p))
      (analyzeEach c p r names) s := by
  rw [← Config.analyzerCommand_eq]
  induction names generalizing s with
  | nil => exact .pure ()
  | cons name names ih =>
    obtain ⟨first, others⟩ := List.forall_mem_cons.mp known
    obtain ⟨analyzer, found⟩ := Option.isSome_iff_exists.mp first
    rw [List.filterMap_cons_some found, analyzeEach, found]
    exact (Pursues.perform (analyzerStep c p analyzer)).bind fun _ _ _ => ih others

theorem describeImage_pursues (image : String) :
    Pursues r (MadeByScan p r) [p.inspection image] (describeImage p r image) s := by
  unfold describeImage
  refine ((Pursues.capture _).within _).bind_quiet fun description _ _ => ?_
  split
  · rename_i executing
    refine (Pursues.ensureStateDir p "" ⟨executing, .inl rfl⟩).bind_quiet fun _ _ _ => ?_
    exact (Pursues.alter _ ⟨executing, .inr rfl⟩).within _
  · exact .pure ()

theorem checkCompliance_pursues (known : c.ScansKnown) (image : String) :
    Pursues r (MadeByScan p r)
      (if c.security.compliance.enabled then
        p.inspection image ::
          (c.security.compliance.standards.filterMap ComplianceStandard.ofName?).map p.judgement
      else []) (checkCompliance c p r image) s := by
  unfold checkCompliance
  split
  · rename_i enabled
    refine Pursues.within _ ?_
    exact (describeImage_pursues image).bind fun _ _ _ =>
      judgeEach_pursues (known.standards enabled)
  · exact .pure ()

theorem analyzeSources_pursues {touches : Path → Prop} (known : c.ScansKnown) :
    Pursues r touches
      (if c.security.sast.enabled then
        (c.security.sast.tools.filterMap Analyzer.ofName?).map (c.analysis p)
      else []) (analyzeSources c p r) s := by
  unfold analyzeSources
  split
  · rename_i enabled
    exact analyzeEach_pursues (known.analyzers enabled)
  · exact .pure ()

theorem runScans_pursues (known : c.ScansKnown) (arch : String) :
    Pursues r (MadeByScan p r) (c.scanPlan p arch) (runScans c p r arch) s := by
  unfold runScans Config.scanPlan
  dsimp only
  rw [List.append_assoc, List.append_assoc, ← Config.vulnerabilitySteps_commands,
    ← Config.codeSteps_commands]
  refine (Pursues.performAll _).bind fun _ _ _ => ?_
  refine (checkCompliance_pursues known _).bind fun _ _ _ => ?_
  exact (analyzeSources_pursues known).bind fun _ _ _ => .performAll _

end ImagePipeline
