import ImagePipeline.Build.Run
import ImagePipeline.Proofs.Publication.Plan
import ImagePipeline.Proofs.Text.Blank

/-! The plan of a build: the hook before, one command for each selected architecture,
everything that is done with images that are pushed, the hook behind. A build pursues its
plan for the images that it makes. -/
namespace ImagePipeline

variable {c : Config} {p : Project} {r : Runner} {s s' : Session} {push : Bool}

/-- The command of a hook, if anything is left of its script. -/
def hookPlan (p : Project) (script : String) : List Command :=
  if (Text.trimmed script).isEmpty then []
  else [{ program := "sh", args := ["-c", Text.trimmed script], workingDir := some p.root }]

namespace Config

def buildPlan (c : Config) (p : Project) (push : Bool) (images : List BuiltImage) :
    List Command :=
  hookPlan p c.custom.preBuild ++ images.map (fun b => c.buildCommand p b.arch push) ++
    (if push then images.flatMap (c.releasePlan p) else []) ++ hookPlan p c.custom.postBuild

/-- One image for each architecture, in order, with its tag and any digest. -/
def ImagesOf (c : Config) (archs : List String) (images : List BuiltImage) : Prop :=
  images.map (fun b => (b.arch, b.image)) = archs.map fun a => (a, c.imageReference a)

theorem ImagesOf.archs {archs : List String} {images : List BuiltImage}
    (built : c.ImagesOf archs images) : images.map BuiltImage.arch = archs := by
  have fronts := congrArg (List.map Prod.fst) built
  simpa only [List.map_map, Function.comp_def, List.map_id'] using fronts

/-- The part of a plan up to the last build, and the part behind it. -/
theorem ImagesOf.buildPlan {archs : List String} {images : List BuiltImage}
    (built : c.ImagesOf archs images) :
    c.buildPlan p push images =
      (hookPlan p c.custom.preBuild ++ archs.map fun a => c.buildCommand p a push) ++
        ((if push then images.flatMap (c.releasePlan p) else []) ++
          hookPlan p c.custom.postBuild) := by
  rw [Config.buildPlan, ← built.archs, List.map_map, List.append_assoc]
  rfl

/-- An image without a digest for each architecture. -/
theorem imagesOf_exists (c : Config) (archs : List String) :
    ∃ images, c.ImagesOf archs images :=
  ⟨archs.map fun a => ⟨a, c.imageReference a, none⟩, by simp [ImagesOf]⟩

theorem selectArchitectures_ok {wanted : List String}
    (configured : ∀ a ∈ wanted, a ∈ c.base.architectures) :
    ∃ archs, c.selectArchitectures wanted = .ok archs := by
  have found : (wanted.find? fun a => !c.base.architectures.contains a) = none := by
    simpa using configured
  simp only [selectArchitectures, found]
  split <;> exact ⟨_, rfl⟩

end Config

theorem hookSteps_commands (label script : String) :
    (hookSteps p label script).map Step.command = hookPlan p script := by
  simp only [hookSteps, hookPlan, Text.isBlankText_eq]
  split <;> rfl

/-- The directories that a build that takes effect makes. -/
def MadeByBuild (p : Project) (r : Runner) (q : Path) : Prop :=
  r.executes = true ∧ (q = p.stateDirectory "" ∨ q = p.stateDirectory "sbom")

theorem MadeByPublication.byBuild {q : Path} (made : MadeByPublication p r q) :
    MadeByBuild p r q :=
  ⟨made.1, .inr made.2⟩

/-- The digest in the record of an architecture, if there is a record that can be read and it
has one. It is irreducible since comparing results would else run the reader of records. -/
@[irreducible]
def Project.recordedDigest (p : Project) (arch : String) (t : FileTree) : Option String :=
  match t.readText (p.path (metadataRelative arch)) with
  | .error _ => none
  | .ok content =>
    match Json.readRecord "MetadataFile" "containerimage.digest" content.toList with
    | .ok digest => digest
    | .error _ => none

theorem exec_readDigest (p : Project) (arch : String) (s : Session) :
    ∃ logged, (p.readDigest arch).exec s =
      (.ok (p.recordedDigest arch s.files), { s with logged := logged }) := by
  unfold Project.readDigest Project.recordedDigest
  rw [Work.exec_bind_ok (Work.exec_files s)]
  generalize s.files.readText (p.path (metadataRelative arch)) = record
  cases record with
  | error e => exact ⟨s.logged, rfl⟩
  | ok content =>
    dsimp only
    generalize Json.readRecord "MetadataFile" "containerimage.digest" content.toList = found
    cases found with
    | ok digest => exact ⟨s.logged, rfl⟩
    | error fault => exact ⟨_, rfl⟩

theorem buildImage_pursues (arch : String) :
    Pursues r (MadeByBuild p r) [c.buildCommand p arch push] (buildImage c p r push arch) s := by
  unfold buildImage
  refine (Pursues.perform _).bind_quiet fun _ s _ => ?_
  dsimp only
  split
  · refine Pursues.bind_quiet ?_ fun _ _ _ => .pure _
    obtain ⟨logged, run⟩ := exec_readDigest p arch s
    exact .quiet run rfl rfl
  · exact (Pursues.pure _).bind_quiet fun _ _ _ => .pure _

theorem buildImage_result {arch : String} {b : BuiltImage}
    (run : (buildImage c p r push arch).exec s = (.ok b, s')) :
    b.arch = arch ∧ b.image = c.imageReference arch := by
  unfold buildImage at run
  obtain ⟨_, _, -, run⟩ := Work.ok_of_bind run
  dsimp only at run
  split at run <;>
  · obtain ⟨digest, _, -, run⟩ := Work.ok_of_bind run
    cases run
    exact ⟨rfl, rfl⟩

theorem buildEach_pursues (archs : List String) :
    Pursues r (MadeByBuild p r) (archs.map fun a => c.buildCommand p a push)
      (buildEach c p r push archs) s := by
  induction archs generalizing s with
  | nil => exact .pure []
  | cons arch archs ih =>
    exact (buildImage_pursues arch).bind fun _ _ _ => ih.bind_quiet fun _ _ _ => .pure _

theorem buildEach_result {archs : List String} {images : List BuiltImage}
    (run : (buildEach c p r push archs).exec s = (.ok images, s')) :
    c.ImagesOf archs images := by
  induction archs generalizing s images with
  | nil =>
    cases run
    rfl
  | cons arch archs ih =>
    obtain ⟨b, _, first, run⟩ := Work.ok_of_bind run
    obtain ⟨rest, _, following, run⟩ := Work.ok_of_bind run
    cases run
    obtain ⟨sameArch, sameImage⟩ := buildImage_result first
    simp only [Config.ImagesOf, List.map_cons, sameArch, sameImage]
    exact congrArg _ (ih following)

section Selected

variable {o : BuildOptions} {archs : List String}

theorem buildImages_pursues (selected : c.selectArchitectures o.architectures = .ok archs) :
    Pursues r (MadeByBuild p r) (archs.map fun a => c.buildCommand p a o.push)
      (buildImages c p r o) s := by
  unfold buildImages
  simp only [selected]
  split
  · rename_i executing
    have made : MadeByBuild p r (p.stateDirectory "") :=
      ⟨(Bool.and_eq_true_iff.mp executing).2, .inl rfl⟩
    exact (Pursues.ensureStateDir p "" made).quiet_bind fun _ _ _ => buildEach_pursues archs
  · exact buildEach_pursues archs

theorem buildImages_images {images : List BuiltImage}
    (selected : c.selectArchitectures o.architectures = .ok archs)
    (run : (buildImages c p r o).exec s = (.ok images, s')) : c.ImagesOf archs images := by
  unfold buildImages at run
  simp only [selected] at run
  split at run
  · obtain ⟨_, _, -, run⟩ := Work.ok_of_bind run
    exact buildEach_result run
  · exact buildEach_result run

/-- The images that a build has made once its hook before has succeeded, if it has made
all of them. -/
def Built (c : Config) (p : Project) (r : Runner) (o : BuildOptions) (s : Session)
    (images : List BuiltImage) : Prop :=
  ∃ before after, (r.performAll (hookSteps p "pre-build" c.custom.preBuild)).exec s =
    (.ok (), before) ∧ (buildImages c p r o).exec before = (.ok images, after)

theorem Built.unique {images others : List BuiltImage} (built : Built c p r o s images)
    (again : Built c p r o s others) : images = others := by
  obtain ⟨before, after, hook, run⟩ := built
  obtain ⟨before', after', hook', run'⟩ := again
  cases hook.symm.trans hook'
  cases run.symm.trans run'
  rfl

/-- There is only one choice of images once all are made, and any choice before that. -/
theorem imagesOf_unless_built (r : Runner) (p : Project) (s : Session)
    (selected : c.selectArchitectures o.architectures = .ok archs) :
    ∃ images, c.ImagesOf archs images ∧ ∀ built, Built c p r o s built → built = images := by
  by_cases made : ∃ images, Built c p r o s images
  · obtain ⟨images, built⟩ := made
    have built' := built
    obtain ⟨_, _, -, run⟩ := built'
    exact ⟨images, buildImages_images selected run, fun _ others => others.unique built⟩
  · obtain ⟨images, well⟩ := c.imagesOf_exists archs
    exact ⟨images, well, fun built others => absurd ⟨built, others⟩ made⟩

theorem runBuild_built {images : List BuiltImage}
    (run : (runBuild c p r o).exec s = (.ok images, s')) : Built c p r o s images := by
  unfold runBuild at run
  dsimp only at run
  obtain ⟨_, before, hook, run⟩ := Work.ok_of_bind run
  obtain ⟨built, after, images', run⟩ := Work.ok_of_bind run
  have same : built = images := by
    split at run
    · obtain ⟨_, _, -, run⟩ := Work.ok_of_bind run
      obtain ⟨_, _, -, run⟩ := Work.ok_of_bind run
      cases run
      rfl
    · split at run
      · obtain ⟨_, _, -, run⟩ := Work.ok_of_bind run
        obtain ⟨_, _, -, run⟩ := Work.ok_of_bind run
        cases run
        rfl
      · obtain ⟨_, _, -, run⟩ := Work.ok_of_bind run
        cases run
        rfl
  subst same
  exact ⟨before, after, hook, images'⟩

theorem runBuild_pursues {images : List BuiltImage}
    (selected : c.selectArchitectures o.architectures = .ok archs)
    (made : ∀ built, Built c p r o s built → built = images) (well : c.ImagesOf archs images) :
    Pursues r (MadeByBuild p r) (c.buildPlan p o.push images) (runBuild c p r o) s := by
  unfold runBuild
  rw [well.buildPlan, List.append_assoc, ← hookSteps_commands "pre-build",
    ← hookSteps_commands "post-build"]
  dsimp only
  refine (Pursues.performAll _).bind fun _ before hook => ?_
  -- the plan behind the builds names the images that they make, so these must be the same
  refine (buildImages_pursues selected).bind fun built after run => ?_
  obtain rfl := made built ⟨before, after, hook, run⟩
  have last {s : Session} : Pursues r (MadeByBuild p r)
      ((hookSteps p "post-build" c.custom.postBuild).map Step.command)
      (do r.performAll (hookSteps p "post-build" c.custom.postBuild); return built) s :=
    (Pursues.performAll _).bind_quiet fun _ _ _ => .pure _
  split
  · refine Pursues.bind ?_ fun _ _ _ => last
    exact (publish_pursues built).weaken fun _ made => made.byBuild
  · split
    · exact (Pursues.log _).bind fun _ _ _ => last
    · exact last

end Selected

end ImagePipeline
