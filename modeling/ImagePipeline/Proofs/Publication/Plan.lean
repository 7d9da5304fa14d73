import ImagePipeline.Proofs.Plan
import ImagePipeline.Publication.Steps

/-! The plan of what is done with pushed images: for each its bills of materials, then a
signature, then a statement that binds the two, as far as they are configured. -/
namespace ImagePipeline

variable {c : Config} {p : Project} {r : Runner} {s : Session}

namespace Config

/-- Whether a signed statement is to bind an image to its bill of materials. -/
def bindsSbom (c : Config) : Bool :=
  c.output.attestation.enabled && c.output.attestation.sbomAttestation && c.output.sbom.enabled

/-- The formats that bills of materials are made in: those listed, and the one that is
attested if it is needed and not among them. -/
def plannedFormats (c : Config) : List String :=
  c.sbomFormats ++
    if c.bindsSbom && !c.sbomFormats.contains attestedFormat then [attestedFormat] else []

/-- What is done with one pushed image. -/
def releasePlan (c : Config) (p : Project) (b : BuiltImage) : List Command :=
  (if c.output.sbom.enabled then c.plannedFormats.map (b.sbomCommand p) else []) ++
  (if c.output.signing.enabled && c.output.signing.cosign.enabled then [b.signCommand c p]
    else []) ++
  (if c.bindsSbom then [b.attestCommand c p] else [])

end Config

theorem sbomSteps_commands (b : BuiltImage) :
    (b.sbomSteps c p).map Step.command =
      if c.output.sbom.enabled then c.plannedFormats.map (b.sbomCommand p) else [] := by
  have attests : c.attestsSbom = c.bindsSbom := rfl
  unfold BuiltImage.sbomSteps
  split
  · simp only [BuiltImage.sbomCommands, Config.plannedFormats, attests, List.map_map,
      Function.comp_def, List.map_append, List.map_id']
    congr 1
    split <;> rfl
  · rfl

theorem releaseSteps_commands (b : BuiltImage) :
    (b.releaseSteps c p).map Step.command = c.releasePlan p b := by
  simp only [BuiltImage.releaseSteps, Config.releasePlan, List.map_append, sbomSteps_commands]
  congr 1
  · congr 1
    unfold Config.signs
    split <;> rfl
  · change List.map _ (if c.bindsSbom then _ else _) = _
    split <;> rfl

theorem releasePlan_nil (b : BuiltImage) (idle : c.hasReleaseSteps = false) :
    c.releasePlan p b = [] := by
  simp only [Config.hasReleaseSteps, Bool.or_eq_false_iff] at idle
  obtain ⟨⟨sbom, signs⟩, attests⟩ := idle
  change c.bindsSbom = false at attests
  unfold Config.signs at signs
  simp only [Config.releasePlan, sbom, signs, attests, Bool.false_eq_true, if_false,
    List.append_nil]

/-- The directory that a publication that takes effect makes. -/
def MadeByPublication (p : Project) (r : Runner) (q : Path) : Prop :=
  r.executes = true ∧ q = p.stateDirectory "sbom"

theorem publish_pursues (images : List BuiltImage) :
    Pursues r (MadeByPublication p r) (images.flatMap (c.releasePlan p))
      (publish c p r images) s := by
  have commands : (images.flatMap fun b => b.releaseSteps c p).map Step.command =
      images.flatMap (c.releasePlan p) := by
    simp only [List.map_flatMap, releaseSteps_commands]
  unfold publish
  cases idle : c.hasReleaseSteps with
  | false =>
    have nothing : images.flatMap (c.releasePlan p) = [] :=
      List.flatMap_eq_nil_iff.mpr fun b _ => releasePlan_nil b idle
    rw [nothing]
    exact .pure ()
  | true =>
    rw [← commands]
    simp only [if_true]
    split
    · rename_i needed
      have made : MadeByPublication p r (p.stateDirectory "sbom") :=
        ⟨(Bool.and_eq_true_iff.mp needed).2, rfl⟩
      exact (Pursues.ensureStateDir p "sbom" made).quiet_bind fun _ _ _ => .performAll _
    · exact .performAll _

end ImagePipeline
