import ImagePipeline.Proofs.Matrix.Plan
import ImagePipeline.Proofs.Text.Pieces

/-! What a change calls for. The places that every image depends on are fixed, and the file that a
project is configured with has no part in them. A change of that file calls for every image just
where the file lies in one of these places. -/
namespace ImagePipeline

variable {c : Config} {p : Project} {r : Runner} {limit : Nat} {s : Session} {files : List String}

theorem BaseImage.mem_all (b : BaseImage) : b ∈ BaseImage.all := by
  cases b <;> decide

/-- A file in one of the places that every image depends on. -/
def AffectsEvery (file : String) : Prop :=
  file ∈ sharedFiles ∨ ∃ dir ∈ sharedDirs, dir.toList <+: file.toList

theorem isShared_iff {file : String} : isShared file = true ↔ AffectsEvery file :=
  isShared_iff_listed

theorem AffectsEvery.ne_empty {file : String} (affects : AffectsEvery file) : file ≠ "" := by
  rintro rfl
  have nowhere : isShared "" = false := by decide
  rw [isShared_iff.mpr affects] at nowhere
  contradiction

/-! ### The affected bases -/

theorem any_isShared_iff (files : List String) :
    files.any isShared = true ↔ ∃ f ∈ files, AffectsEvery f := by
  simp only [List.any_eq_true, isShared_iff]

theorem affectedBases_of_shared (shared : ∃ f ∈ files, AffectsEvery f) :
    affectedBases files = BaseImage.all := by
  rw [affectedBases_eq, if_pos ((any_isShared_iff files).mpr shared)]

theorem affectedBases_of_unshared (unshared : ¬ ∃ f ∈ files, AffectsEvery f) :
    affectedBases files =
      BaseImage.all.filter fun b => files.contains (templateRelative b.name) := by
  rw [affectedBases_eq, if_neg (mt (any_isShared_iff files).mp unshared)]

/-- Every base is affected by a file in a shared place, and otherwise only if the Dockerfiles of
all of them have changed. -/
theorem affectedBases_eq_all_iff (files : List String) :
    affectedBases files = BaseImage.all ↔
      (∃ f ∈ files, AffectsEvery f) ∨ ∀ b : BaseImage, templateRelative b.name ∈ files := by
  by_cases shared : ∃ f ∈ files, AffectsEvery f
  · exact iff_of_true (affectedBases_of_shared shared) (.inl shared)
  · rw [or_iff_right shared, affectedBases_of_unshared shared, List.filter_eq_self]
    simp only [List.contains_iff_mem, BaseImage.mem_all, forall_const]

/-- A file that makes every image stale: the settings, the skeleton, or anything in the directories
that all images draw on. -/
def StalesAll (file : String) : Prop :=
  file ∈ ["image-foundry.yaml", "templates/dockerfile-template.tmpl"] ∨
    ∃ dir ∈ ["configs/", "compliance/", ".github/workflows/"], dir.toList <+: file.toList

instance : DecidablePred StalesAll := fun _ => inferInstanceAs (Decidable (_ ∨ _))

theorem affectsEvery_iff_stalesAll {file : String} : AffectsEvery file ↔ StalesAll file := Iff.rfl

/-- The Dockerfile that the image of a base is built from. -/
def BaseImage.ownFile (b : BaseImage) : String := "templates/base/" ++ b.name ++ ".Dockerfile"

theorem BaseImage.ownFile_eq (b : BaseImage) : b.ownFile = templateRelative b.name := by
  cases b <;> decide

theorem affectedBases_eq_filter (files : List String) :
    affectedBases files =
      BaseImage.all.filter fun b => (∃ f ∈ files, StalesAll f) ∨ b.ownFile ∈ files := by
  have same : (∃ f ∈ files, AffectsEvery f) ↔ ∃ f ∈ files, StalesAll f :=
    exists_congr fun _ => and_congr_right' affectsEvery_iff_stalesAll
  by_cases shared : ∃ f ∈ files, StalesAll f
  · rw [affectedBases_of_shared (same.mpr shared), List.filter_eq_self.mpr]
    intro b _
    exact decide_eq_true (.inl shared)
  · rw [affectedBases_of_unshared (mt same.mp shared)]
    refine List.filter_congr fun b _ => ?_
    rw [Bool.eq_iff_iff, List.contains_iff_mem, decide_eq_true_iff, or_iff_right shared,
      b.ownFile_eq]

theorem mem_affectedBases_iff (files : List String) (b : BaseImage) :
    b ∈ affectedBases files ↔ (∃ f ∈ files, StalesAll f) ∨ b.ownFile ∈ files := by
  rw [affectedBases_eq_filter, List.mem_filter, and_iff_right b.mem_all, decide_eq_true_iff]

/-- A list of files affects all bases or those whose Dockerfiles are in it, once each and in the
usual order. What more files affect comes on top, and neither the order of files nor their
repetition counts. -/
theorem affectedBases_describe_changes (files : List String) :
    affectedBases files =
      (if ∃ f ∈ files, StalesAll f then BaseImage.all
        else BaseImage.all.filter fun b => b.ownFile ∈ files) ∧
    (affectedBases files).Nodup ∧
    (∀ more, affectedBases (files ++ more) =
      BaseImage.all.filter fun b => b ∈ affectedBases files ∨ b ∈ affectedBases more) ∧
    ∀ others, (∀ f, f ∈ others ↔ f ∈ files) → affectedBases others = affectedBases files := by
  have once : BaseImage.all.Nodup := by decide
  refine ⟨?closed, ?once, fun more => ?union, fun others same => ?set⟩
  case closed =>
    rw [affectedBases_eq_filter]
    split
    case isTrue shared =>
      exact List.filter_eq_self.mpr fun b _ => decide_eq_true (.inl shared)
    case isFalse unshared => simp only [unshared, false_or]
  case once =>
    rw [affectedBases_eq_filter]
    exact once.filter _
  case union =>
    rw [affectedBases_eq_filter]
    refine List.filter_congr fun b _ => decide_eq_decide.mpr ?_
    simp only [mem_affectedBases_iff, List.mem_append, or_and_right, exists_or]
    exact or_or_or_comm
  case set =>
    simp only [affectedBases_eq_filter, same]

theorem affectedBases_of_repeated_file :
    let files := ["README.md", BaseImage.alpine320.ownFile]
    let others := [BaseImage.alpine320.ownFile, "README.md", BaseImage.alpine320.ownFile]
    (∀ f, f ∈ others ↔ f ∈ files) ∧
      affectedBases others = affectedBases files ∧ affectedBases files = [.alpine320] := by
  intro files others
  have same : ∀ f, f ∈ others ↔ f ∈ files := by
    intro f
    simp only [others, files, List.mem_cons, List.not_mem_nil, or_false]
    tauto
  obtain ⟨closed, -, -, set⟩ := affectedBases_describe_changes files
  exact ⟨same, set others same, closed.trans (by decide +kernel)⟩

/-! ### The plan -/

theorem planFor_build_all (c : Config) (limit : Nat) (bases : List BaseImage) :
    (∃ matrix, planFor c bases limit = .build BaseImage.all matrix) ↔ bases = BaseImage.all := by
  constructor
  · rintro ⟨matrix, planned⟩
    unfold planFor at planned
    split at planned
    · cases planned
    · exact (MatrixPlan.build.inj planned).1
  · rintro rfl
    exact ⟨_, rfl⟩

theorem planChanged_build_all (worth : c.skipsBuild = false) (limit : Nat) (files : List String) :
    (∃ matrix, planChanged c limit files = .build BaseImage.all matrix) ↔
      affectedBases files = BaseImage.all := by
  have kept (bases : List BaseImage) : worthBuilding c bases = bases := by
    rw [worthBuilding, worth, if_neg Bool.false_ne_true]
  cases files with
  | nil => exact iff_of_false nofun (by decide)
  | cons file files =>
    rw [planChanged, List.isEmpty_cons, if_neg Bool.false_ne_true, kept]
    exact planFor_build_all c limit _

theorem planMatrix_changed_build_all {output : String} (worth : c.skipsBuild = false)
    (answered : (r.exchange s .captured (diffCommand p)).reply.outcome = .finished output)
    (limit : Nat) :
    (∃ matrix,
        ((planMatrix c p r .changed limit).exec s).1 = .ok (.build BaseImage.all matrix)) ↔
      affectedBases (listedFiles output) = BaseImage.all := by
  have listing : ((changedFiles p r).exec s).1 = .ok (listedFiles output) := by
    rw [exec_changedFiles, answered]
  rw [exec_planMatrix_changed, listing, ← planChanged_build_all worth limit]
  exact exists_congr fun _ => ⟨Except.ok.inj, congrArg Except.ok⟩

/-- A line of a listing names a file, unless it is blank. -/
theorem mem_listedFiles {output line : String} (listed : line ∈ Text.linesOf output)
    (visible : Text.trimmed line ≠ "") : Text.trimmed line ∈ listedFiles output := by
  refine List.mem_filter.mpr ⟨List.mem_map_of_mem listed, ?_⟩
  simpa using visible

/-- The file that a project is configured with, as a listing of changed files names it. -/
def Project.listedConfig (p : Project) : String := Text.trimmed (p.relative p.configPath).text

/-- A change of the configuration calls for every image just where the configuration lies in one
of the places that every image depends on. Elsewhere it takes another file in such a place, or
the Dockerfiles of all bases. -/
theorem configuration_affects_every_image_iff (c : Config) (p : Project) (r : Runner)
    (limit : Nat) (s : Session) {output : String} (worth : c.skipsBuild = false)
    (answered : (r.exchange s .captured (diffCommand p)).reply.outcome = .finished output)
    (listed : (p.relative p.configPath).text ∈ Text.linesOf output) :
    (∃ matrix,
        ((planMatrix c p r .changed limit).exec s).1 = .ok (.build BaseImage.all matrix)) ↔
      AffectsEvery p.listedConfig ∨
      (∃ f ∈ listedFiles output, f ≠ p.listedConfig ∧ AffectsEvery f) ∨
      ∀ b : BaseImage, templateRelative b.name ∈ listedFiles output := by
  rw [planMatrix_changed_build_all worth answered, affectedBases_eq_all_iff, ← or_assoc]
  refine or_congr_left ?_
  constructor
  · rintro ⟨f, found, affects⟩
    by_cases own : f = p.listedConfig
    · exact .inl (own ▸ affects)
    · exact .inr ⟨f, found, own, affects⟩
  · rintro (own | ⟨f, found, -, affects⟩)
    · exact ⟨_, mem_listedFiles listed own.ne_empty, own⟩
    · exact ⟨f, found, affects⟩

def compliantDemo : Config := { demo with security := { compliance := { enabled := true } } }

/-- A run against a listing of changed files. -/
def listing (output : String) : Runner := DryRun.runner { outputs := [("git", output)] }

theorem shared_configuration_affects_every_image :
    let p := Project.ofRoot ⟨"/work"⟩ ⟨"configs/prod.yaml"⟩
    compliantDemo.skipsBuild = false ∧
      (p.relative p.configPath).text ∈ Text.linesOf "configs/prod.yaml\n" ∧
      ∃ matrix, ((planMatrix compliantDemo p (listing "configs/prod.yaml\n") .changed 2).exec
        {}).1 = .ok (.build BaseImage.all matrix) := by
  intro p
  have worth : compliantDemo.skipsBuild = false := by decide
  have listed : (p.relative p.configPath).text ∈ Text.linesOf "configs/prod.yaml\n" := by decide
  have shared : AffectsEvery p.listedConfig := isShared_iff.mp (by decide +kernel)
  exact ⟨worth, listed, (configuration_affects_every_image_iff compliantDemo p
    (listing "configs/prod.yaml\n") 2 {} worth rfl listed).mpr (.inl shared)⟩

/-- A project whose configuration lies elsewhere: a change of it calls for no image. -/
theorem configuration_not_affecting_every_image :
    ¬ ∀ (c : Config) (p : Project) (r : Runner) (limit : Nat) (s : Session) (output : String),
      (p.root.below? p.configPath).isSome → c.skipsBuild = false →
      (r.exchange s .captured (diffCommand p)).reply.outcome = .finished output →
      (p.relative p.configPath).text ∈ Text.linesOf output →
      ∃ matrix,
        ((planMatrix c p r .changed limit).exec s).1 = .ok (.build BaseImage.all matrix) := by
  intro affects
  let p := Project.ofRoot ⟨"/work"⟩ ⟨"foundry.yaml"⟩
  obtain ⟨matrix, planned⟩ := affects compliantDemo p (listing "foundry.yaml\n") 2 {}
    "foundry.yaml\n" (by decide) (by decide) rfl (by decide)
  have empty : ((planMatrix compliantDemo p (listing "foundry.yaml\n") .changed 2).exec {}).1 =
      .ok (.empty .noImages) := by decide +kernel
  rw [empty] at planned
  cases planned

end ImagePipeline
