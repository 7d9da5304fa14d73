import ImagePipeline.Matrix.Plan
import ImagePipeline.Proofs.Build.Prefix
import ImagePipeline.Proofs.Matrix.Affected
import ImagePipeline.Proofs.Matrix.Jobs
import ImagePipeline.Proofs.Text.Blank

/-! Plans of build matrices. The changed files are asked for only where the mode needs them, and a
plan has exactly the images of its mode. -/
namespace ImagePipeline

variable {c : Config} {p : Project} {r : Runner} {s : Session}

namespace MatrixMode

/-- What is captured before a plan is made. -/
def queries (p : Project) : MatrixMode → List Command
  | .changed => [diffCommand p]
  | _ => []

theorem queries_eq_nil (mode : MatrixMode) (p : Project) (idle : mode ≠ .changed) :
    mode.queries p = [] := by
  cases mode with
  | changed => contradiction
  | configured | all | selected => rfl

/-- The images of a mode, where these are the changed files. -/
def images (c : Config) (files : List String) : MatrixMode → List BaseImage
  | .changed => worthBuilding c (affectedBases files)
  | .configured => worthBuilding c BaseImage.all
  | .all => BaseImage.all
  | .selected bases => bases

/-- The image are those that are selected, or differ from each other. -/
theorem images_nodup (files : List String) (mode : MatrixMode) :
    (mode.images c files).Nodup ↔ ∀ selected, mode = .selected selected → selected.Nodup := by
  have all : BaseImage.all.Nodup := by decide
  have affected : (affectedBases files).Nodup := by
    rw [affectedBases_eq]
    split
    · exact all
    · exact all.filter _
  have worth {bases : List BaseImage} (nodup : bases.Nodup) : (worthBuilding c bases).Nodup := by
    unfold worthBuilding
    split
    · exact .nil
    · exact nodup
  cases mode with
  | changed => exact ⟨nofun, fun _ => worth affected⟩
  | configured => exact ⟨nofun, fun _ => worth all⟩
  | all => exact ⟨nofun, fun _ => all⟩
  | selected bases =>
    exact ⟨fun nodup _ same => by cases same; exact nodup, fun nodup => nodup bases rfl⟩

end MatrixMode

theorem listedFiles_eq_nil_iff {output : String} :
    listedFiles output = [] ↔ ∀ line ∈ Text.linesOf output, Text.isBlankText line = true := by
  simp [listedFiles, Text.isBlankText_eq]

/-- A plan of these images. -/
structure MatrixPlan.Covers (limit : Nat) (images : List BaseImage) (plan : MatrixPlan) : Prop where
  empty_iff : plan = .empty .noImages ↔ images = []
  build_iff : (∃ matrix, plan = .build images matrix) ↔ images ≠ []
  build : ∀ bases matrix, plan = .build bases matrix →
    bases = images ∧ Schedules images limit matrix

theorem planFor_covers (c : Config) (images : List BaseImage) (limit : Nat) :
    (planFor c images limit).Covers limit images := by
  unfold planFor
  cases images with
  | nil => exact ⟨by simp, by simp, nofun⟩
  | cons first rest =>
    refine ⟨by simp, by simp, ?_⟩
    rintro _ _ ⟨⟩
    exact ⟨rfl, buildMatrix_schedules c limit (List.cons_ne_nil _ _)⟩

/-- How the listing of the changed files fails. -/
def listingFailure (cause : Cause) : Failure where
  contexts := ["failed to list changed files"]
  cause := cause

theorem exec_changedFiles (p : Project) (r : Runner) (s : Session) :
    (changedFiles p r).exec s =
      (match (r.exchange s .captured (diffCommand p)).reply.outcome with
        | .finished output => .ok (listedFiles output)
        | .failed error => .error (listingFailure (.command error))
        | .clockOverflow => .error (listingFailure .clockOverflow),
      s.behind (r.exchange s .captured (diffCommand p))) := by
  unfold changedFiles
  rw [Work.exec_bind, Work.exec_within, r.exec_capture]
  cases (r.exchange s .captured (diffCommand p)).reply.outcome with
  | finished | failed | clockOverflow => rfl

/-- What a plan is made of once the changed files are known, if the mode needs them. -/
structure Planned (c : Config) (limit : Nat) (mode : MatrixMode) (output : String)
    (plan : MatrixPlan) : Prop where
  unchanged_iff : plan = .empty .noChanges ↔
    mode = .changed ∧ ∀ line ∈ Text.linesOf output, Text.isBlankText line = true
  covers : plan ≠ .empty .noChanges → plan.Covers limit (mode.images c (listedFiles output))

theorem planFor_ne_noChanges (c : Config) (images : List BaseImage) (limit : Nat) :
    planFor c images limit ≠ .empty .noChanges := by
  unfold planFor
  split <;> simp

/-- The plan of a mode that asks for no changed files. -/
theorem planFor_planned {mode : MatrixMode} (c : Config) (limit : Nat)
    (idle : mode ≠ .changed) :
    Planned c limit mode "" (planFor c (mode.images c (listedFiles "")) limit) where
  unchanged_iff := by simp [planFor_ne_noChanges, idle]
  covers _ := planFor_covers ..

/-- The plan behind a listing of changed files. -/
def planChanged (c : Config) (limit : Nat) (files : List String) : MatrixPlan :=
  if files.isEmpty then .empty .noChanges
  else planFor c (worthBuilding c (affectedBases files)) limit

theorem planChanged_planned (c : Config) (limit : Nat) (output : String) :
    Planned c limit .changed output (planChanged c limit (listedFiles output)) := by
  unfold planChanged
  cases empty : (listedFiles output).isEmpty with
  | true =>
    have blank := listedFiles_eq_nil_iff.mp (List.isEmpty_iff.mp empty)
    exact ⟨iff_of_true rfl ⟨rfl, blank⟩, fun given => absurd rfl given⟩
  | false =>
    have listed : listedFiles output ≠ [] := by simpa using empty
    rw [if_neg Bool.false_ne_true]
    refine ⟨iff_of_false (planFor_ne_noChanges _ _ _) ?_, fun _ => planFor_covers ..⟩
    rintro ⟨-, blank⟩
    exact listed (listedFiles_eq_nil_iff.mpr blank)

theorem exec_planMatrix_unasked (c : Config) (p : Project) (r : Runner) {mode : MatrixMode}
    (limit : Nat) (s : Session) (idle : mode ≠ .changed) (files : List String) :
    (planMatrix c p r mode limit).exec s = (.ok (planFor c (mode.images c files) limit), s) := by
  cases mode with
  | changed => contradiction
  | configured | all | selected => rfl

theorem exec_planMatrix_changed (c : Config) (p : Project) (r : Runner) (limit : Nat)
    (s : Session) :
    (planMatrix c p r .changed limit).exec s =
      (((changedFiles p r).exec s).1.map (planChanged c limit), ((changedFiles p r).exec s).2) := by
  unfold planMatrix
  rw [Work.exec_bind]
  rcases (changedFiles p r).exec s with ⟨result, behind⟩
  cases result with
  | error e => rfl
  | ok files =>
    cases files with
    | nil | cons => rfl

theorem planFor_build {images bases : List BaseImage} {limit : Nat} {matrix : BuildMatrix}
    (built : planFor c images limit = .build bases matrix) :
    matrix = buildMatrix c images limit := by
  unfold planFor at built
  split at built
  · cases built
  · cases built
    rfl

theorem planMatrix_build {mode : MatrixMode} {limit : Nat} {bases : List BaseImage}
    {matrix : BuildMatrix}
    (planned : ((planMatrix c p r mode limit).exec s).1 = .ok (.build bases matrix)) :
    ∃ files, matrix = buildMatrix c (mode.images c files) limit := by
  by_cases idle : mode = .changed
  · subst idle
    rw [exec_planMatrix_changed] at planned
    dsimp only at planned
    cases listed : ((changedFiles p r).exec s).1 with
    | error e =>
      rw [listed] at planned
      cases planned
    | ok files =>
      rw [listed] at planned
      have built : planChanged c limit files = .build bases matrix := Except.ok.inj planned
      unfold planChanged at built
      split at built
      · cases built
      · exact ⟨files, planFor_build built⟩
  · rw [exec_planMatrix_unasked c p r limit s idle []] at planned
    exact ⟨[], planFor_build (Except.ok.inj planned)⟩

/-- Two jobs of a matrix are about the same base image and architecture only if images are
selected, and one of them twice. -/
theorem jobs_distinct_iff (c : Config) (p : Project) (r : Runner) (mode : MatrixMode) (limit : Nat)
    (s : Session) {images : List BaseImage} {matrix : BuildMatrix}
    (planned : ((planMatrix c p r mode limit).exec s).1 = .ok (.build images matrix)) :
    (matrix.jobs.map MatrixJob.tag).Nodup ↔
      ∀ selected, mode = .selected selected → selected.Nodup := by
  obtain ⟨files, rfl⟩ := planMatrix_build planned
  rw [buildMatrix_tags_nodup]
  exact mode.images_nodup files

/-- Every image of a project has jobs of its own. -/
theorem demo_jobs_distinct :
    ((planMatrix demo demoProject (rehearsal "git") .all 2).exec {}).1 =
        .ok (.build BaseImage.all (buildMatrix demo BaseImage.all 2)) ∧
      ((buildMatrix demo BaseImage.all 2).jobs.map MatrixJob.tag).Nodup :=
  ⟨rfl, (jobs_distinct_iff demo demoProject (rehearsal "git") .all 2 {} rfl).mpr nofun⟩

/-- An image that is selected twice has the same job twice. -/
theorem selected_twice_built_twice :
    ∃ images matrix,
      ((planMatrix demo demoProject (rehearsal "git")
        (.selected [.ubuntu2404, .ubuntu2404]) 2).exec {}).1 = .ok (.build images matrix) ∧
      ¬ (matrix.jobs.map MatrixJob.tag).Nodup := by
  refine ⟨_, _, rfl, ?_⟩
  rw [buildMatrix_tags_nodup]
  decide

end ImagePipeline
