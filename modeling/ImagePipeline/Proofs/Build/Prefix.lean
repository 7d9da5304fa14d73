import ImagePipeline.Proofs.Build.Plan
import ImagePipeline.Runner.DryRun

/-! The commands of a build are a prefix of its plan, which ends with the first command that
fails, and no image is released before all have been built. -/
namespace ImagePipeline

variable {c : Config} {p : Project} {push : Bool}

/-- The programs that only the release of an image uses. -/
def releasePrograms : List String := ["syft", "cosign"]

theorem hookPlan_program {script : String} {x : Command} (member : x ∈ hookPlan p script) :
    x.program = "sh" := by
  unfold hookPlan at member
  split at member
  · cases member
  · rw [List.mem_singleton.mp member]

/-- What comes before the release of images in a plan uses other programs. -/
theorem program_before_release {archs : List String} {x : Command}
    (member : x ∈ hookPlan p c.custom.preBuild ++ archs.map fun a => c.buildCommand p a push) :
    x.program ∉ releasePrograms := by
  rcases List.mem_append.mp member with hook | build
  · rw [hookPlan_program hook]
    decide
  · obtain ⟨a, -, rfl⟩ := List.mem_map.mp build
    have docker : (c.buildCommand p a push).program = "docker" := rfl
    rw [docker]
    decide

theorem program_after_release {x : Command} (member : x ∈ hookPlan p c.custom.postBuild) :
    x.program ∉ releasePrograms := by
  rw [hookPlan_program member]
  decide

/-- Nothing is released unless the images are pushed and every one of them has been built. -/
theorem released_after_builds {archs : List String} {images : List BuiltImage}
    {trace : List Exchange} {x : Exchange} (well : c.ImagesOf archs images)
    (isPrefix : trace.map Exchange.command <+: c.buildPlan p push images)
    (succeeded : ∀ x ∈ trace.dropLast, x.failure? = none) (member : x ∈ trace)
    (release : x.command.program ∈ releasePrograms) :
    push = true ∧
      ∀ a ∈ archs, ∃ y ∈ trace, y.command = c.buildCommand p a push ∧ y.failure? = none := by
  rw [well.buildPlan] at isPrefix
  constructor
  · have planned := isPrefix.subset (List.mem_map_of_mem member)
    rcases List.mem_append.mp planned with front | back
    · exact absurd release (program_before_release front)
    · rcases List.mem_append.mp back with released | hook
      · by_contra unpushed
        simp [unpushed] at released
      · exact absurd release (program_after_release hook)
  · intro a inArchs
    refine succeeded_before isPrefix succeeded member ?_ _ ?_
    · exact fun front => program_before_release front release
    · exact List.mem_append_right _ (List.mem_map_of_mem inArchs)

/-- The commands of a build are a prefix of its plan. They stop with the first that fails,
which fails the build; if no directory is in the way, the build goes well just if the
whole plan is issued and succeeds. No image is released before all have been built. -/
theorem runBuild_issues_prefix (c : Config) (p : Project) (r : Runner) (o : BuildOptions)
    (s : Session) (configured : ∀ a ∈ o.architectures, a ∈ c.base.architectures) :
    ∃ archs images trace changes,
      c.selectArchitectures o.architectures = .ok archs ∧
      c.ImagesOf archs images ∧ (∀ built, Built c p r o s built → built = images) ∧
      Adds r s ((runBuild c p r o).exec s).2 trace changes ∧
      (∀ a ∈ changes, MadeByBuild p r a.path) ∧
      trace.map Exchange.command <+: c.buildPlan p o.push images ∧
      (∀ x ∈ trace.dropLast, x.failure? = none) ∧
      ((∃ x ∈ trace, x.failure? ≠ none) → ∃ f, ((runBuild c p r o).exec s).1 = .error f) ∧
      ((∀ a ∈ changes, a.failure? = none) →
        (((runBuild c p r o).exec s).1 = .ok images ↔
          trace.map Exchange.command = c.buildPlan p o.push images ∧
            ∀ x ∈ trace, x.failure? = none)) ∧
      (∀ built, ((runBuild c p r o).exec s).1 = .ok built → built = images) ∧
      (∀ x ∈ trace, x.command.program ∈ releasePrograms → o.push = true ∧
        ∀ a ∈ archs, ∃ y ∈ trace,
          y.command = c.buildCommand p a o.push ∧ y.failure? = none) := by
  obtain ⟨archs, selected⟩ := c.selectArchitectures_ok configured
  obtain ⟨images, well, made⟩ := imagesOf_unless_built r p s selected
  obtain ⟨trace, changes, added, follows, touched⟩ :=
    runBuild_pursues (r := r) (s := s) selected made well
  have returned : ∀ built, ((runBuild c p r o).exec s).1 = .ok built → built = images :=
    fun built run => made built (runBuild_built (Prod.ext run rfl))
  refine ⟨archs, images, trace, changes, selected, well, made, added, touched,
    follows.isPrefix, follows.succeeded_dropLast, ?_, ?_, returned, ?_⟩
  · rintro ⟨x, member, failure⟩
    cases result : ((runBuild c p r o).exec s).1 with
    | ok built =>
      rw [result] at follows
      exact absurd ((follows.complete rfl).2.1 x member) failure
    | error f => exact ⟨f, rfl⟩
  · intro changed
    rw [← follows.ended_iff changed]
    cases result : ((runBuild c p r o).exec s).1 with
    | ok built => simp [causeOf, returned built result]
    | error f => simp [causeOf]
  · intro x member release
    exact released_after_builds well follows.isPrefix follows.succeeded_dropLast member release

/-- A project with hooks, two architectures and everything that a release can have. -/
def demo : Config where
  name := "demo"
  base := { template := "debian", architectures := ["amd64", "arm64"] }
  output := {
    signing := { enabled := true, cosign := { enabled := true } }
    sbom := { enabled := true, formats := ["cyclonedx-json"] }
    attestation := { enabled := true, sbomAttestation := true } }
  custom := { preBuild := "make sources", postBuild := "make clean" }

def demoProject : Project := .ofRoot ⟨"/work"⟩ ⟨defaultConfigFile⟩

/-- A rehearsal in which one program fails. -/
def rehearsal (failing : String) : Runner :=
  DryRun.runner { failures := [(failing, 1)] }

theorem demo_issues_prefix :
    ∃ (images : List BuiltImage) (trace : List Exchange), demo.ImagesOf ["arm64"] images ∧
      ((runBuild demo demoProject (rehearsal "cosign") { architectures := ["arm64"] }).exec
        {}).2.issued = trace.map Exchange.command ∧
      trace.map Exchange.command <+: demo.buildPlan demoProject true images := by
  obtain ⟨archs, images, trace, changes, selected, well, -, added, -, isPrefix, -⟩ :=
    runBuild_issues_prefix demo demoProject (rehearsal "cosign") { architectures := ["arm64"] } {}
      (by decide)
  cases selected
  exact ⟨images, trace, well, added.issued, isPrefix⟩

/-- A build whose last command fails has issued its whole plan and fails all the same. -/
theorem whole_plan_of_failed_build :
    ((runBuild { demo with custom := {} } demoProject (rehearsal "docker")
        { push := false, architectures := ["amd64"] }).exec {}).2.issued =
      Config.buildPlan { demo with custom := {} } demoProject false
        [⟨"amd64", demo.imageReference "amd64", none⟩] ∧
    ∃ f, ((runBuild { demo with custom := {} } demoProject (rehearsal "docker")
        { push := false, architectures := ["amd64"] }).exec {}).1 = .error f :=
  ⟨by decide +kernel, _, rfl⟩

end ImagePipeline
