import ImagePipeline.Proofs.Config.Names
import ImagePipeline.Proofs.Rehearsal.Mirror
import ImagePipeline.Runner.Scripted

/-! A rehearsal shows what a run will do: the same commands in the same order, and the same
ending. Only the release of an image may name it by the digest that its build has left. -/
namespace ImagePipeline

variable {c : Config} {p : Project} {r e : Runner} {push : Bool}

/-- The reference of an image with the digest of a build in place of its tag. -/
def pinnedTo (digest image : String) : String := BuiltImage.repositoryOf image ++ "@" ++ digest

namespace Config

/-- A command of a run restates that of its rehearsal: it is the same, but for the image that
`syft` takes first and `cosign` last, which may be pinned to a digest. -/
inductive Restates (c : Config) : Command → Command → Prop where
  | same (x : Command) : Restates c x x
  | described {x : Command} {arch digest : String} {rest : List String} : x.program = "syft" →
      arch ∈ c.base.architectures → x.args = c.imageReference arch :: rest →
      Restates c x { x with args := pinnedTo digest (c.imageReference arch) :: rest }
  | signed {x : Command} {arch digest : String} {front : List String} : x.program = "cosign" →
      arch ∈ c.base.architectures → x.args = front ++ [c.imageReference arch] →
      Restates c x { x with args := front ++ [pinnedTo digest (c.imageReference arch)] }

/-- An image as it was rehearsed, and the same image as it was built. -/
structure SameImage (c : Config) (rehearsed built : BuiltImage) : Prop where
  arch : built.arch = rehearsed.arch
  image : built.image = rehearsed.image
  configured : rehearsed.arch ∈ c.base.architectures
  reference : rehearsed.image = c.imageReference rehearsed.arch
  undigested : rehearsed.digest = none

theorem mem_of_selected {wanted archs : List String}
    (selected : c.selectArchitectures wanted = .ok archs) :
    ∀ a ∈ archs, a ∈ c.base.architectures := by
  unfold selectArchitectures at selected
  dsimp only at selected
  split at selected
  · cases selected
    exact fun _ member => member
  · split at selected
    · cases selected
    · cases selected
      exact fun _ member => (List.mem_filter.mp member).1

end Config

section Release

variable {b b' : BuiltImage}

theorem Config.SameImage.rehearsed (same : c.SameImage b b') :
    b.pinnedReference = c.imageReference b.arch := by
  unfold BuiltImage.pinnedReference
  rw [same.undigested]
  exact same.reference

theorem Config.SameImage.built (same : c.SameImage b b') :
    b'.pinnedReference = c.imageReference b.arch ∨
      ∃ digest, b'.pinnedReference = pinnedTo digest (c.imageReference b.arch) := by
  unfold BuiltImage.pinnedReference
  rw [same.image, same.reference]
  cases b'.digest with
  | none => exact .inl rfl
  | some digest => exact .inr ⟨digest, rfl⟩

theorem sbomCommand_restates (same : c.SameImage b b') (format : String) :
    c.Restates (b.sbomCommand p format) (b'.sbomCommand p format) := by
  unfold BuiltImage.sbomCommand
  rw [same.arch, same.rehearsed]
  rcases same.built with tag | ⟨digest, pinned⟩
  · rw [tag]
    exact .same _
  · rw [pinned]
    exact .described rfl same.configured rfl

theorem signed_restates (same : c.SameImage b b') (front : List String) (dir : Option Path) :
    c.Restates { program := "cosign", args := front ++ [b.pinnedReference], workingDir := dir }
      { program := "cosign", args := front ++ [b'.pinnedReference], workingDir := dir } := by
  rw [same.rehearsed]
  rcases same.built with tag | ⟨digest, pinned⟩
  · rw [tag]
    exact .same _
  · rw [pinned]
    exact .signed rfl same.configured rfl

theorem attestCommand_eq (b : BuiltImage) :
    b.attestCommand c p = {
      program := "cosign"
      args := (["attest", "--yes"] ++ BuiltImage.keyArgs c ++ ["--type", "spdxjson", "--predicate",
        sbomRelative b.arch attestedFormat]) ++ [b.pinnedReference]
      workingDir := some p.root } := by
  simp [BuiltImage.attestCommand]

theorem releasePlan_restates (same : c.SameImage b b') :
    List.Forall₂ c.Restates (c.releasePlan p b) (c.releasePlan p b') := by
  unfold Config.releasePlan
  refine List.rel_append (List.rel_append ?_ ?_) ?_
  · split
    · rw [List.forall₂_map_left_iff, List.forall₂_map_right_iff, List.forall₂_same]
      exact fun format _ => sbomCommand_restates same format
    · exact .nil
  · split
    · exact .cons (signed_restates same _ _) .nil
    · exact .nil
  · split
    · rw [attestCommand_eq, attestCommand_eq, same.arch]
      exact .cons (signed_restates same _ _) .nil
    · exact .nil

theorem publish_mirrors {images built : List BuiltImage} (all : r.Succeeds)
    (dry : r.executes = false) (same : List.Forall₂ c.SameImage images built) :
    Mirrors r e c.Restates Eq (publish c p r images) (publish c p e built) := by
  have commands (images : List BuiltImage) :
      (images.flatMap fun b => b.releaseSteps c p).map Step.command =
        images.flatMap (c.releasePlan p) := by
    simp only [List.map_flatMap, releaseSteps_commands]
  have released : Mirrors r e c.Restates Eq
      (r.performAll (images.flatMap fun b => b.releaseSteps c p))
      (e.performAll (built.flatMap fun b => b.releaseSteps c p)) := by
    refine .performAll all ?_
    rw [commands, commands]
    exact List.rel_flatMap same fun _ _ => releasePlan_restates
  unfold publish
  simp only [dry, Bool.and_false, Bool.false_eq_true, if_false]
  split
  · split
    · exact .behind_stateDir p _ released
    · exact released
  · exact .pure rfl

end Release

section Build

theorem buildImage_mirrors {arch : String} (all : r.Succeeds) (dry : r.executes = false)
    (configured : arch ∈ c.base.architectures) :
    Mirrors r e c.Restates c.SameImage (buildImage c p r push arch)
      (buildImage c p e push arch) := by
  unfold buildImage
  simp only [dry, Bool.and_false, Bool.false_eq_true, if_false]
  refine (Mirrors.perform all (.same _)).bind fun _ _ _ => ?_
  have image (digest : Option String) : Mirrors r e c.Restates c.SameImage
      (Pure.pure ⟨arch, c.imageReference arch, none⟩)
      (Pure.pure ⟨arch, c.imageReference arch, digest⟩) :=
    .pure ⟨rfl, rfl, configured, rfl, rfl⟩
  split
  · refine Mirrors.behind (fun s => ?_) image
    obtain ⟨logged, run⟩ := exec_readDigest p arch s
    exact .quiet run rfl rfl
  · exact image none

theorem buildEach_mirrors {archs : List String} (all : r.Succeeds) (dry : r.executes = false)
    (configured : ∀ a ∈ archs, a ∈ c.base.architectures) :
    Mirrors r e c.Restates (List.Forall₂ c.SameImage) (buildEach c p r push archs)
      (buildEach c p e push archs) := by
  induction archs with
  | nil => exact .pure .nil
  | cons arch archs ih =>
    obtain ⟨first, others⟩ := List.forall_mem_cons.mp configured
    refine (buildImage_mirrors all dry first).bind fun _ _ same => ?_
    exact (ih others).bind fun _ _ rest => .pure (.cons same rest)

theorem buildImages_mirrors (all : r.Succeeds) (dry : r.executes = false) (o : BuildOptions) :
    Mirrors r e c.Restates (List.Forall₂ c.SameImage) (buildImages c p r o)
      (buildImages c p e o) := by
  unfold buildImages
  cases selected : c.selectArchitectures o.architectures with
  | error cause => exact .fail cause
  | ok archs =>
    simp only [dry, Bool.and_false, Bool.false_eq_true, if_false]
    have built : Mirrors r e c.Restates (List.Forall₂ c.SameImage) (buildEach c p r o.push archs)
        (buildEach c p e o.push archs) :=
      buildEach_mirrors all dry (Config.mem_of_selected selected)
    split
    · exact .behind_stateDir p _ built
    · exact built

theorem sameSteps_mirror (all : r.Succeeds) (steps : List Step) :
    Mirrors r e c.Restates Eq (r.performAll steps) (e.performAll steps) :=
  .performAll all (List.forall₂_same.mpr fun x _ => .same x)

theorem runBuild_mirrors (all : r.Succeeds) (dry : r.executes = false) (o : BuildOptions) :
    Mirrors r e c.Restates (List.Forall₂ c.SameImage) (runBuild c p r o) (runBuild c p e o) := by
  unfold runBuild
  refine (sameSteps_mirror all _).bind fun _ _ _ => ?_
  refine (buildImages_mirrors all dry o).bind fun images built same => ?_
  have last : Mirrors r e c.Restates (List.Forall₂ c.SameImage)
      (do r.performAll (hookSteps p "post-build" c.custom.postBuild); return images)
      (do e.performAll (hookSteps p "post-build" c.custom.postBuild); return built) :=
    (sameSteps_mirror all _).bind fun _ _ _ => .pure same
  dsimp only
  split
  · exact (publish_mirrors all dry same).bind fun _ _ _ => last
  · split
    · exact (Mirrors.log _).bind fun _ _ _ => last
    · exact last

end Build

section Scans

theorem judgeEach_mirrors (all : r.Succeeds) (names : List String) :
    Mirrors r e c.Restates Eq (judgeEach p r names) (judgeEach p e names) := by
  induction names with
  | nil => exact .pure rfl
  | cons name names ih =>
    unfold judgeEach
    split
    · exact .fail _
    · exact (Mirrors.perform all (.same _)).bind fun _ _ _ => ih

theorem analyzeEach_mirrors (all : r.Succeeds) (names : List String) :
    Mirrors r e c.Restates Eq (analyzeEach c p r names) (analyzeEach c p e names) := by
  induction names with
  | nil => exact .pure rfl
  | cons name names ih =>
    unfold analyzeEach
    split
    · exact .fail _
    · exact (Mirrors.perform all (.same _)).bind fun _ _ _ => ih

theorem describeImage_mirrors (all : r.Succeeds) (dry : r.executes = false) (image : String) :
    Mirrors r e c.Restates Eq (describeImage p r image) (describeImage p e image) := by
  unfold describeImage
  simp only [dry, Bool.false_eq_true, if_false]
  refine ((Mirrors.capture all (.same _)).within _).bind fun _ description _ => ?_
  split
  · refine .aside (fun _ => ?_) fun _ => rfl
    exact (Pursues.ensureStateDir p _ trivial).quiet_bind fun _ _ _ =>
      (Pursues.alter _ trivial).within _
  · exact .pure rfl

theorem checkCompliance_mirrors (all : r.Succeeds) (dry : r.executes = false) (image : String) :
    Mirrors r e c.Restates Eq (checkCompliance c p r image) (checkCompliance c p e image) := by
  unfold checkCompliance
  split
  · refine Mirrors.within _ ?_
    exact (describeImage_mirrors all dry image).bind fun _ _ _ => judgeEach_mirrors all _
  · exact .pure rfl

theorem analyzeSources_mirrors (all : r.Succeeds) :
    Mirrors r e c.Restates Eq (analyzeSources c p r) (analyzeSources c p e) := by
  unfold analyzeSources
  split
  · exact analyzeEach_mirrors all _
  · exact .pure rfl

theorem runScans_mirrors (all : r.Succeeds) (dry : r.executes = false) (arch : String) :
    Mirrors r e c.Restates Eq (runScans c p r arch) (runScans c p e arch) := by
  unfold runScans
  refine (sameSteps_mirror all _).bind fun _ _ _ => ?_
  refine (checkCompliance_mirrors all dry _).bind fun _ _ _ => ?_
  exact (analyzeSources_mirrors all).bind fun _ _ _ => sameSteps_mirror all _

end Scans

section Trials

variable {process : Nat} {image : String}

/-- Probes that have all passed have been issued one by one, and none has failed. -/
theorem Probed.all_passed {command removal : Probe → Command} {probes : List Probe}
    {xs : List Exchange} {result : Except Cause (List Probe)}
    (run : Probed command removal probes xs result) (passed : result = .ok []) :
    xs.map Exchange.command = probes.map command := by
  induction run with
  | done => rfl
  | passed first _ ih =>
    cases first with
    | passed same => rw [List.map_append, List.map_cons, ih passed, List.map_cons, same]; rfl
  | @failed _ _ _ _ others => cases others <;> cases passed
  | stopped => cases passed

/-- Where every command succeeds, every probe passes. -/
theorem Probed.none_failed {command removal : Probe → Command} {probes : List Probe}
    {xs : List Exchange} {result : Except Cause (List Probe)}
    (run : Probed command removal probes xs result) (free : ∀ x ∈ xs, x.failure? = none) :
    result = .ok [] := by
  by_contra bad
  obtain ⟨x, member, failure⟩ := run.mishap bad
  exact failure (free x member)

theorem probeImage_mirrors (all : r.Succeeds) :
    Mirrors r e c.Restates Eq (probeImage c p r process image)
      (probeImage c p e process image) := by
  unfold probeImage
  cases c.probeTimeout with
  | error cause => exact .fail cause
  | ok limit =>
    intro s s'
    dsimp only
    obtain ⟨xs, added, probed⟩ := runProbes_run p r image process limit c.probes s
    obtain ⟨ys, added', probed'⟩ := runProbes_run p e image process limit c.probes s'
    have passed := probed.none_failed (all.unfailing added.faithful)
    rcases run : (runProbes p r image process limit c.probes).exec s with ⟨result, behind⟩
    rcases run' : (runProbes p e image process limit c.probes).exec s' with ⟨result', behind'⟩
    rw [run] at added probed passed
    rw [run'] at added' probed'
    cases result with
    | error f => cases passed
    | ok failed =>
      cases passed
      rw [Work.exec_bind_ok run]
      cases result' with
      | error f =>
        rw [Work.exec_bind_error run']
        exact ⟨ys, [], added', .inl ⟨.inl (probed'.mishap nofun), f, rfl⟩⟩
      | ok failed' =>
        rw [Work.exec_bind_ok run']
        cases failed' with
        | cons probe probes =>
          exact ⟨ys, [], added', .inl ⟨.inl (probed'.mishap nofun), _, rfl⟩⟩
        | nil =>
          refine ⟨ys, [], added', .inr ⟨xs, [], added, ?_, .ok rfl⟩⟩
          rw [probed.all_passed rfl, probed'.all_passed rfl]
          exact List.forall₂_same.mpr fun x _ => .same x

theorem measureStart_mirrors (all : r.Succeeds) (dry : r.executes = false) :
    Mirrors r e c.Restates Eq (measureStart c p r image) (measureStart c p e image) := by
  have hyperfine : Mirrors r e c.Restates Eq
      (do
        r.perform ⟨"performance:hyperfine", p.hyperfineCommand image,
          "hyperfine benchmark failed"⟩
        return none)
      (do
        e.perform ⟨"performance:hyperfine", p.hyperfineCommand image,
          "hyperfine benchmark failed"⟩
        return (none : Option Nat)) :=
    (Mirrors.perform all (.same _)).bind fun _ _ _ => .pure rfl
  unfold measureStart
  simp only [dry, Bool.false_eq_true, if_false]
  split
  · exact .fail _
  · split
    · exact .behind_stateDir p _ hyperfine
    · exact hyperfine
  · exact (sameSteps_mirror all _).bind fun _ _ _ => .pure rfl

theorem runImageTests_mirrors (all : r.Succeeds) (dry : r.executes = false) (arch : String) :
    Mirrors r e c.Restates Eq (runImageTests c p r process arch)
      (runImageTests c p e process arch) := by
  unfold runImageTests
  dsimp only
  refine Mirrors.optional (.perform all (.same _)) ?_
  refine Mirrors.optional ((probeImage_mirrors all).within _) ?_
  split
  · exact ((measureStart_mirrors all dry).within _).bind fun _ _ same => .pure (same ▸ rfl)
  · have unmeasured : Mirrors r e c.Restates Eq
        (Pure.pure none : Work (Option Nat)) (Pure.pure none) := .pure rfl
    exact unmeasured.bind fun _ _ same => .pure (same ▸ rfl)

end Trials

/-- What a rehearsal shows of a run: the commands, as the run restates them, and the ending. -/
def Config.Shows {α β : Type} (c : Config) (alike : α → β → Prop) (rehearsal : Work α)
    (s : Session) (run : Work β) (s' : Session) : Prop :=
  ∃ shown issued, (rehearsal.exec s).2.issued = s.issued ++ shown ∧
    (run.exec s').2.issued = s'.issued ++ issued ∧ List.Forall₂ c.Restates shown issued ∧
    SameEnding alike (rehearsal.exec s).1 (run.exec s').1

/-- A dry run without rehearsed failures shows what a build, the scans and the tests do, from
whatever sessions they start, where no command and no change of files fails. An image that
is pinned to a digest is named by its repository. -/
theorem rehearsal_shows_run (c : Config) (p : Project) (d : DryRun) (e : Runner)
    (s s' : Session) (failures : d.failures = []) (timeouts : d.timeouts = []) :
    (∀ o, (runBuild c p e o).Smooth s' →
      c.Shows (List.Forall₂ c.SameImage) (runBuild c p d.runner o) s (runBuild c p e o) s') ∧
    (∀ arch, (runScans c p e arch).Smooth s' →
      c.Shows Eq (runScans c p d.runner arch) s (runScans c p e arch) s') ∧
    (∀ process arch, (runImageTests c p e process arch).Smooth s' →
      c.Shows Eq (runImageTests c p d.runner process arch) s
        (runImageTests c p e process arch) s') ∧
    (c.repository ≠ "" → ':' ∉ c.tag.toList → '/' ∉ c.tag.toList →
      ∀ arch digest, ':' ∉ arch.toList →
        pinnedTo digest (c.imageReference arch) = c.repository ++ "@" ++ digest) := by
  have all := DryRun.succeeds failures timeouts
  refine ⟨fun o free => ?_, fun arch free => ?_, fun process arch free => ?_, ?_⟩
  · exact (runBuild_mirrors all rfl o).smooth free
  · exact (runScans_mirrors all rfl arch).smooth free
  · exact (runImageTests_mirrors all rfl arch).smooth free
  · intro named noColon noSlash arch digest noColon'
    rw [pinnedTo, repositoryOf_imageReference named noColon noSlash noColon']

/-- Every command succeeds, and a build leaves a record with a digest. -/
def recordingRunner : Runner where
  executes := true
  reply _ _ x files := {
    outcome := .finished ""
    files := if x.program == "docker" then
      files.put ["work", ".foundry", "metadata-arm64.json"]
        (.file "\x7b\"containerimage.digest\": \"sha256:12\"\x7d".toUTF8 false)
    else files }

def armOnlyDemo : Config :=
  { demo with base := { template := "debian", architectures := ["arm64"] } }

theorem armOnlyDemo_rehearsal_shows_run :
    armOnlyDemo.Shows (List.Forall₂ armOnlyDemo.SameImage)
        (runBuild armOnlyDemo demoProject (DryRun.runner {}) {}) {}
        (runBuild armOnlyDemo demoProject recordingRunner {}) { files := demoFiles } ∧
      "cosign sign --yes --key cosign.key demo@sha256:12" ∈
        ((runBuild armOnlyDemo demoProject recordingRunner {}).exec
          { files := demoFiles }).2.issued.map Command.line := by
  obtain ⟨builds, -⟩ := rehearsal_shows_run armOnlyDemo demoProject {} recordingRunner {}
    { files := demoFiles } rfl rfl
  refine ⟨builds {} ⟨by decide +kernel, ?_⟩, by decide +kernel⟩
  unfold Work.Unhindered
  decide +kernel

end ImagePipeline
