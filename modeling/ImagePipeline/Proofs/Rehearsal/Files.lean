import ImagePipeline.Proofs.Build.Prefix
import ImagePipeline.Proofs.HandsOff
import ImagePipeline.Proofs.Trial.Probes
import ImagePipeline.Scan.Run

/-! A run whose commands do not take effect leaves the files to its runner, whatever the
runner answers, and reports no digest, whatever earlier runs have left behind. -/
namespace ImagePipeline

variable {c : Config} {p : Project} {r : Runner} {push : Bool}

section Build

theorem buildImage_handsOff (dry : r.executes = false) (arch : String) :
    HandsOff r (buildImage c p r push arch) := by
  unfold buildImage
  simp only [dry, Bool.and_false, Bool.false_eq_true, if_false]
  exact (HandsOff.perform _).bind fun _ => (HandsOff.pure _).bind fun _ => .pure _

theorem buildEach_handsOff (dry : r.executes = false) (archs : List String) :
    HandsOff r (buildEach c p r push archs) := by
  induction archs with
  | nil => exact .pure []
  | cons arch archs ih =>
    exact (buildImage_handsOff dry arch).bind fun _ => ih.bind fun _ => .pure _

theorem buildImages_handsOff (dry : r.executes = false) (o : BuildOptions) :
    HandsOff r (buildImages c p r o) := by
  unfold buildImages
  split
  · exact .fail _
  · simp only [dry, Bool.and_false, Bool.false_eq_true, if_false]
    exact buildEach_handsOff dry _

theorem publish_handsOff (dry : r.executes = false) (images : List BuiltImage) :
    HandsOff r (publish c p r images) := by
  unfold publish
  simp only [dry, Bool.and_false, Bool.false_eq_true, if_false]
  split
  · exact .performAll _
  · exact .pure ()

theorem runBuild_handsOff (dry : r.executes = false) (o : BuildOptions) :
    HandsOff r (runBuild c p r o) := by
  unfold runBuild
  refine (HandsOff.performAll _).bind fun _ => (buildImages_handsOff dry o).bind fun images => ?_
  have last : HandsOff r
      (do r.performAll (hookSteps p "post-build" c.custom.postBuild); return images) :=
    (HandsOff.performAll _).bind fun _ => .pure _
  dsimp only
  split
  · exact (publish_handsOff dry images).bind fun _ => last
  · split
    · exact (HandsOff.log _).bind fun _ => last
    · exact last

end Build

section Digests

variable {s s' : Session}

theorem buildImage_undigested {arch : String} {b : BuiltImage} (dry : r.executes = false)
    (run : (buildImage c p r push arch).exec s = (.ok b, s')) : b.digest = none := by
  unfold buildImage at run
  simp only [dry, Bool.and_false, Bool.false_eq_true, if_false] at run
  obtain ⟨_, _, -, run⟩ := Work.ok_of_bind run
  cases run
  rfl

theorem buildEach_undigested {archs : List String} {images : List BuiltImage}
    (dry : r.executes = false) (run : (buildEach c p r push archs).exec s = (.ok images, s')) :
    ∀ b ∈ images, b.digest = none := by
  induction archs generalizing s images with
  | nil =>
    cases run
    simp
  | cons arch archs ih =>
    obtain ⟨b, _, first, run⟩ := Work.ok_of_bind run
    obtain ⟨rest, _, following, run⟩ := Work.ok_of_bind run
    cases run
    exact List.forall_mem_cons.mpr ⟨buildImage_undigested dry first, ih following⟩

theorem buildImages_undigested {o : BuildOptions} {images : List BuiltImage}
    (dry : r.executes = false) (run : (buildImages c p r o).exec s = (.ok images, s')) :
    ∀ b ∈ images, b.digest = none := by
  unfold buildImages at run
  split at run
  · cases run
  · simp only [dry, Bool.and_false, Bool.false_eq_true, if_false] at run
    exact buildEach_undigested dry run

theorem runBuild_undigested {o : BuildOptions} {images : List BuiltImage}
    (dry : r.executes = false) (run : (runBuild c p r o).exec s = (.ok images, s')) :
    ∀ b ∈ images, b.digest = none := by
  obtain ⟨_, _, -, built⟩ := runBuild_built run
  exact buildImages_undigested dry built

end Digests

section Scans

theorem judgeEach_handsOff (names : List String) : HandsOff r (judgeEach p r names) := by
  induction names with
  | nil => exact .pure ()
  | cons name names ih =>
    unfold judgeEach
    split
    · exact .fail _
    · exact (HandsOff.perform _).bind fun _ => ih

theorem analyzeEach_handsOff (names : List String) : HandsOff r (analyzeEach c p r names) := by
  induction names with
  | nil => exact .pure ()
  | cons name names ih =>
    unfold analyzeEach
    split
    · exact .fail _
    · exact (HandsOff.perform _).bind fun _ => ih

theorem describeImage_handsOff (dry : r.executes = false) (image : String) :
    HandsOff r (describeImage p r image) := by
  unfold describeImage
  simp only [dry, Bool.false_eq_true, if_false]
  exact ((HandsOff.capture _).within _).bind fun _ => .pure _

theorem checkCompliance_handsOff (dry : r.executes = false) (image : String) :
    HandsOff r (checkCompliance c p r image) := by
  unfold checkCompliance
  split
  · exact HandsOff.within _ ((describeImage_handsOff dry image).bind fun _ => judgeEach_handsOff _)
  · exact .pure ()

theorem analyzeSources_handsOff : HandsOff r (analyzeSources c p r) := by
  unfold analyzeSources
  split
  · exact analyzeEach_handsOff _
  · exact .pure ()

theorem runScans_handsOff (dry : r.executes = false) (arch : String) :
    HandsOff r (runScans c p r arch) := by
  unfold runScans
  refine (HandsOff.performAll _).bind fun _ => ?_
  refine (checkCompliance_handsOff dry _).bind fun _ => ?_
  exact analyzeSources_handsOff.bind fun _ => .performAll _

end Scans

section Trials

variable {process : Nat} {image : String}

theorem removeContainer_handsOff (probe : Probe) :
    HandsOff r (removeContainer p r process probe) := by
  unfold removeContainer
  refine HandsOff.bind (fun s => ?_) fun answer => ?_
  · rw [r.exec_run _ s]
    exact ⟨_, .exchanged rfl rfl, rfl, rfl⟩
  · split
    · exact .pure ()
    · exact .log _

theorem runProbe_handsOff (limit : Duration) (probe : Probe) :
    HandsOff r (runProbe p r image process limit probe) := by
  unfold runProbe
  refine (HandsOff.attempt _ _).bind fun result => ?_
  split
  · exact .pure true
  · refine (HandsOff.log _).bind fun _ => ?_
    split
    · exact (removeContainer_handsOff probe).bind fun _ => .pure false
    · exact .pure false

theorem runProbes_handsOff (limit : Duration) (probes : List Probe) :
    HandsOff r (runProbes p r image process limit probes) := by
  induction probes with
  | nil => exact .pure []
  | cons probe probes ih =>
    exact (runProbe_handsOff limit probe).bind fun _ => ih.bind fun _ => .pure _

theorem probeImage_handsOff : HandsOff r (probeImage c p r process image) := by
  unfold probeImage
  split
  · exact .fail _
  · refine (runProbes_handsOff _ _).bind fun failed => ?_
    split
    · exact .pure ()
    · exact .fail _

theorem measureStart_handsOff (dry : r.executes = false) :
    HandsOff r (measureStart c p r image) := by
  unfold measureStart
  simp only [dry, Bool.false_eq_true, if_false]
  split
  · exact .fail _
  · exact (HandsOff.perform _).bind fun _ => .pure _
  · exact (HandsOff.performAll _).bind fun _ => .pure _

theorem runImageTests_handsOff (dry : r.executes = false) (arch : String) :
    HandsOff r (runImageTests c p r process arch) := by
  unfold runImageTests
  dsimp only
  refine HandsOff.optional (.perform _) (HandsOff.optional (probeImage_handsOff.within _) ?_)
  split
  · exact ((measureStart_handsOff dry).within _).bind fun _ => .pure _
  · exact (HandsOff.pure none).bind fun _ => .pure _

end Trials

/-- Whatever a runner answers whose commands do not take effect: neither a build nor a release,
nor scans nor tests change any file on their own, however they end, and a build reports no
digest, whatever files it finds. -/
theorem rehearsal_leaves_files (c : Config) (p : Project) (r : Runner)
    (dry : r.executes = false) :
    (∀ o, HandsOff r (runBuild c p r o)) ∧
    (∀ images, HandsOff r (publish c p r images)) ∧
    (∀ arch, HandsOff r (runScans c p r arch)) ∧
    (∀ process arch, HandsOff r (runImageTests c p r process arch)) ∧
    ∀ o s images, ((runBuild c p r o).exec s).1 = .ok images → ∀ b ∈ images, b.digest = none :=
  ⟨runBuild_handsOff dry, publish_handsOff dry, runScans_handsOff dry,
    fun _ => runImageTests_handsOff dry, fun _ _ _ run => runBuild_undigested dry (Prod.ext run rfl)⟩

/-- The files of a project with the record of an earlier build. -/
def recordedFiles : FileTree where
  entries := [(["work"], .directory), (["work", ".foundry"], .directory),
    (["work", ".foundry", "metadata-amd64.json"],
      .file "\x7b\"containerimage.digest\": \"sha256:12\"\x7d".toUTF8 false)]

theorem demo_rehearsal_leaves_files :
    (rehearsal "cosign").executes = false ∧
      ((runBuild demo demoProject (rehearsal "cosign") {}).exec
        { files := recordedFiles }).2.files = recordedFiles ∧
      ((runBuild demo demoProject (rehearsal "trivy") {}).exec { files := recordedFiles }).1 =
        .ok [⟨"amd64", "demo:latest-amd64", none⟩, ⟨"arm64", "demo:latest-arm64", none⟩] ∧
      ∀ images, ((runBuild demo demoProject (rehearsal "trivy") {}).exec
        { files := recordedFiles }).1 = .ok images → ∀ b ∈ images, b.digest = none := by
  obtain ⟨builds, -⟩ := rehearsal_leaves_files demo demoProject (rehearsal "cosign") rfl
  obtain ⟨-, -, -, -, undigested⟩ :=
    rehearsal_leaves_files demo demoProject (rehearsal "trivy") rfl
  exact ⟨rfl, (builds {}).files_unchanged _ fun _ _ _ _ => rfl, by decide +kernel,
    undigested {} { files := recordedFiles }⟩

end ImagePipeline
