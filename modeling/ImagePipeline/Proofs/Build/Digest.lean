import ImagePipeline.Proofs.Publication.References
import ImagePipeline.Proofs.Rehearsal.Commands
import ImagePipeline.Proofs.Rehearsal.Files

/-! Which build a digest belongs to. A build reports the digest that stands in the record of an
architecture right behind its command, and images are released by such digests only. Nothing
removes a record before the command: one that the command does not write is that of an earlier
build. -/
namespace ImagePipeline

variable {c : Config} {p : Project} {r : Runner} {s : Session} {push : Bool}

/-- The exchange with the runner that has built an image. -/
structure BuiltBy (c : Config) (p : Project) (r : Runner) (push : Bool) (b : BuiltImage)
    (x : Exchange) : Prop where
  command : x.command = c.buildCommand p b.arch push
  succeeded : x.failure? = none
  image : b.image = c.imageReference b.arch
  digest : b.digest = if push && r.executes then p.recordedDigest b.arch x.reply.files else none

theorem buildImage_yields (arch : String) :
    Yields r (buildImage c p r push arch) s fun result xs =>
      ∃ x, xs = [x] ∧ x.command.program = "docker" ∧
        ∀ b, result = .ok b → BuiltBy c p r push b x := by
  unfold buildImage
  obtain ⟨x, after, added, same, ⟨e, run⟩ | ⟨run, succeeded, left⟩⟩ :=
    r.perform_ends (c.buildStep p arch push) s
  · exact .of_exec (Work.exec_bind_error run) added ⟨x, rfl, same ▸ rfl, fun _ => nofun⟩
  · rw [Yields, Work.exec_bind_ok run]
    split
    · rename_i reads
      obtain ⟨logged, digest⟩ := exec_readDigest p arch after
      rw [Work.exec_bind_ok digest, Work.exec_pure, left]
      refine ⟨[x], [], ⟨added.exchanges, added.actions, added.faithful⟩, x, rfl, same ▸ rfl, ?_⟩
      intro b built
      cases built
      exact ⟨same, succeeded, rfl, (if_pos reads).symm⟩
    · rename_i reads
      rw [Work.exec_bind_ok (Work.exec_pure none after), Work.exec_pure]
      refine ⟨[x], [], added, x, rfl, same ▸ rfl, ?_⟩
      intro b built
      cases built
      exact ⟨same, succeeded, rfl, (if_neg reads).symm⟩

theorem buildEach_yields (archs : List String) :
    Yields r (buildEach c p r push archs) s fun result xs =>
      (∀ x ∈ xs, x.command.program = "docker") ∧
        ∀ images, result = .ok images → List.Forall₂ (BuiltBy c p r push) images xs := by
  induction archs generalizing s with
  | nil =>
    refine .pure ⟨by simp, ?_⟩
    rintro images ⟨⟩
    exact .nil
  | cons arch archs ih =>
    refine (buildImage_yields arch).bind ?_ ?_
    · rintro e _ ⟨x, rfl, docker, -⟩
      exact ⟨by simpa using docker, nofun⟩
    · rintro b s' _ ⟨x, rfl, docker, built⟩
      refine ih.bind ?_ ?_
      · rintro e ys ⟨others, -⟩
        exact ⟨List.forall_mem_cons.mpr ⟨docker, others⟩, nofun⟩
      · rintro images s'' ys ⟨others, each⟩
        refine .pure ⟨?_, ?_⟩
        · rw [List.append_nil]
          exact List.forall_mem_cons.mpr ⟨docker, others⟩
        · rintro _ ⟨⟩
          rw [List.append_nil]
          exact .cons (built b rfl) (each images rfl)

theorem buildImages_yields (o : BuildOptions) :
    Yields r (buildImages c p r o) s fun result xs =>
      (∀ x ∈ xs, x.command.program = "docker") ∧
        ∀ images, result = .ok images → List.Forall₂ (BuiltBy c p r o.push) images xs := by
  unfold buildImages
  cases c.selectArchitectures o.architectures with
  | error cause =>
    exact .of_exec rfl (.nothing rfl rfl) ⟨by simp, nofun⟩
  | ok archs =>
    dsimp only
    split
    · have made : Pursues r (fun _ => True) [] (p.ensureStateDir "") s := .ensureStateDir p "" trivial
      refine (Yields.of_pursues made).bind ?_ ?_
      · intro e xs isPrefix
        rw [List.map_eq_nil_iff.mp (List.prefix_nil.mp isPrefix)]
        exact ⟨by simp, nofun⟩
      · intro _ s' xs isPrefix
        rw [List.map_eq_nil_iff.mp (List.prefix_nil.mp isPrefix)]
        exact buildEach_yields archs
    · exact buildEach_yields archs

theorem hook_yields (label script : String) :
    Yields r (r.performAll (hookSteps p label script)) s fun _ xs =>
      ∀ x ∈ xs, x.command.program ∉ releasePrograms := by
  have pursues : Pursues r (fun _ => True) _ (r.performAll (hookSteps p label script)) s :=
    .performAll _
  refine (Yields.of_pursues pursues).mono fun _ xs isPrefix x member => ?_
  rw [hookSteps_commands] at isPrefix
  rw [hookPlan_program (isPrefix.subset (List.mem_map_of_mem member))]
  decide

/-- The end of a build: images are released as it is planned for them, and they are what the
build reports. -/
structure Released (c : Config) (p : Project) (images : List BuiltImage)
    (result : Except Failure (List BuiltImage)) (xs : List Exchange) : Prop where
  planned : ∀ x ∈ xs, x.command.program ∈ releasePrograms →
    ∃ b ∈ images, x.command ∈ c.releasePlan p b
  reported : ∀ others, result = .ok others → others = images

theorem lastHook_yields (images : List BuiltImage) {released : List Exchange}
    (planned : ∀ x ∈ released, x.command.program ∈ releasePrograms →
      ∃ b ∈ images, x.command ∈ c.releasePlan p b) :
    Yields r (do r.performAll (hookSteps p "post-build" c.custom.postBuild); return images) s
      fun result xs => Released c p images result (released ++ xs) := by
  have all {xs : List Exchange} (unreleased : ∀ x ∈ xs, x.command.program ∉ releasePrograms) :
      ∀ x ∈ released ++ xs, x.command.program ∈ releasePrograms →
        ∃ b ∈ images, x.command ∈ c.releasePlan p b :=
    List.forall_mem_append.mpr
      ⟨planned, fun x member release => absurd release (unreleased x member)⟩
  refine (hook_yields "post-build" c.custom.postBuild).bind ?_ ?_
  · intro e xs unreleased
    exact ⟨all unreleased, nofun⟩
  · intro _ s' xs unreleased
    refine .pure ⟨?_, ?_⟩
    · rw [List.append_nil]
      exact all unreleased
    · rintro others ⟨⟩
      rfl

/-- A build is what comes before the images, one command for each image, and the release. -/
theorem runBuild_yields (o : BuildOptions) :
    Yields r (runBuild c p r o) s fun result xs => ∃ images before builds behind,
      xs = before ++ builds ++ behind ∧
      (∀ x ∈ before ++ builds, x.command.program ∉ releasePrograms) ∧
      List.Forall₂ (BuiltBy c p r o.push) images builds ∧
      Released c p images result behind := by
  unfold runBuild
  dsimp only
  refine (hook_yields "pre-build" c.custom.preBuild).bind ?_ ?_
  · intro e xs unreleased
    exact ⟨[], xs, [], [], by simp, by simpa using unreleased, .nil, by simp, nofun⟩
  intro _ s' front unreleased
  have others {xs : List Exchange} (docker : ∀ x ∈ xs, x.command.program = "docker") :
      ∀ x ∈ front ++ xs, x.command.program ∉ releasePrograms := by
    refine List.forall_mem_append.mpr ⟨unreleased, fun x member => ?_⟩
    rw [docker x member]
    decide
  refine (buildImages_yields o).bind ?_ ?_
  · rintro e xs ⟨docker, -⟩
    exact ⟨[], front ++ xs, [], [], by simp, by simpa using others docker, .nil, by simp, nofun⟩
  rintro images s'' builds ⟨docker, built⟩
  have whole (result : Except Failure (List BuiltImage)) (xs : List Exchange)
      (released : Released c p images result xs) :
      ∃ images before builds' behind, front ++ (builds ++ xs) = before ++ builds' ++ behind ∧
        (∀ x ∈ before ++ builds', x.command.program ∉ releasePrograms) ∧
        List.Forall₂ (BuiltBy c p r o.push) images builds' ∧ Released c p images result behind :=
    ⟨images, front, builds, xs, by simp, others docker, built images rfl, released⟩
  refine Yields.mono ?_ whole
  split
  · have planned {xs : List Exchange}
        (isPrefix : xs.map Exchange.command <+: images.flatMap (c.releasePlan p)) :
        ∀ x ∈ xs, x.command.program ∈ releasePrograms →
          ∃ b ∈ images, x.command ∈ c.releasePlan p b :=
      fun x member _ => List.mem_flatMap.mp (isPrefix.subset (List.mem_map_of_mem member))
    refine (Yields.of_pursues (publish_pursues images)).bind ?_ ?_
    · intro e xs isPrefix
      exact ⟨planned isPrefix, nofun⟩
    · intro _ s xs isPrefix
      exact lastHook_yields images (planned isPrefix)
  · have nothing : ∀ x ∈ ([] : List Exchange), x.command.program ∈ releasePrograms →
        ∃ b ∈ images, x.command ∈ c.releasePlan p b := by simp
    split
    · refine (Yields.log _).bind ?_ ?_
      · rintro e _ ⟨⟩
        exact ⟨nothing, nofun⟩
      · rintro _ s _ ⟨⟩
        exact lastHook_yields images nothing
    · exact lastHook_yields images nothing

/-! ### Digests and builds -/

/-- Whether a command leaves another text at a path than it has found there. -/
def Exchange.Rewrites (x : Exchange) (q : Path) : Prop :=
  x.reply.files.readText q ≠ x.found.readText q

instance (x : Exchange) (q : Path) : Decidable (x.Rewrites q) :=
  inferInstanceAs (Decidable (_ ≠ _))

theorem Project.recordedDigest_congr {arch : String} {t u : FileTree}
    (same : t.readText (p.path (metadataRelative arch)) =
      u.readText (p.path (metadataRelative arch))) :
    p.recordedDigest arch t = p.recordedDigest arch u := by
  unfold recordedDigest
  rw [same]

namespace BuiltBy

variable {b : BuiltImage} {x y : Exchange}

/-- The record behind the command of a build has the digest that the image has. -/
theorem recorded {digest : String} (built : BuiltBy c p r push b y)
    (known : b.digest = some digest) : p.recordedDigest b.arch y.reply.files = some digest := by
  have whole := built.digest.symm.trans known
  split at whole
  · exact whole
  · cases whole

theorem rewrites {digest : String} (built : BuiltBy c p r push b y)
    (known : b.digest = some digest) (fresh : p.recordedDigest b.arch y.found = none) :
    y.Rewrites (p.path (metadataRelative b.arch)) := by
  intro same
  have recorded := built.recorded known
  rw [Project.recordedDigest_congr same, fresh] at recorded
  cases recorded

theorem names (built : BuiltBy c p r push b y) {command : Command}
    (planned : command ∈ c.releasePlan p b) :
    command.image? = some (c.imageReference b.arch) ∨
      ∃ digest, b.digest = some digest ∧
        command.image? = some (pinnedTo digest (c.imageReference b.arch)) := by
  rw [releasePlan_image planned, BuiltImage.pinnedReference, built.image]
  cases b.digest with
  | none => exact .inl rfl
  | some digest => exact .inr ⟨digest, rfl, rfl⟩

end BuiltBy

theorem related_of_mem {α β : Type} {related : α → β → Prop} {as : List α} {bs : List β} {a : α}
    (all : List.Forall₂ related as bs) (member : a ∈ as) : ∃ b ∈ bs, related a b := by
  induction all with
  | nil => cases member
  | @cons first other _ _ holds _ ih =>
    rcases List.mem_cons.mp member with rfl | inside
    · exact ⟨other, List.mem_cons_self, holds⟩
    · obtain ⟨b, later, holds⟩ := ih inside
      exact ⟨b, List.mem_cons_of_mem other later, holds⟩

/-- What stands in front of a member that the front of a list does not have. -/
theorem front_of_not_mem {α : Type} {front back earlier later : List α} {x : α}
    (split : front ++ back = earlier ++ x :: later) (outside : x ∉ front) :
    ∃ t, earlier = front ++ t ∧ back = t ++ x :: later := by
  rcases List.append_eq_append_iff.mp split with ⟨t, rfl, rest⟩ | ⟨t, rfl, rest⟩
  · exact ⟨t, rfl, rest⟩
  · cases t with
    | nil => exact ⟨[], by simp, rest.symm⟩
    | cons y t =>
      obtain ⟨rfl, -⟩ := List.cons.inj rest
      exact absurd (List.mem_append_right _ List.mem_cons_self) outside

/-- A digest is that of the record behind a build of the same run. If a build finds no digest in
its record and leaves the record alone, the image has none; and every digest that an image is
released by stands in the record that a successful build of that image has left, which has
written it unless there was a digest before. -/
theorem digest_of_same_run (c : Config) (p : Project) (r : Runner) (o : BuildOptions)
    (s : Session) :
    ∃ trace changes, Adds r s ((runBuild c p r o).exec s).2 trace changes ∧
      (∀ images, ((runBuild c p r o).exec s).1 = .ok images →
        ∃ builds, builds.Sublist trace ∧
          List.Forall₂ (fun b x => x.command = c.buildCommand p b.arch o.push ∧
            x.failure? = none ∧ (p.recordedDigest b.arch x.found = none →
              ¬ x.Rewrites (p.path (metadataRelative b.arch)) → b.digest = none)) images builds) ∧
      ∀ earlier x later, trace = earlier ++ x :: later → x.command.program ∈ releasePrograms →
        ∃ a, x.command.image? = some (c.imageReference a) ∨
          ∃ digest, x.command.image? = some (pinnedTo digest (c.imageReference a)) ∧
            ∃ y ∈ earlier, y.command = c.buildCommand p a o.push ∧ y.failure? = none ∧
              p.recordedDigest a y.reply.files = some digest ∧
              (p.recordedDigest a y.found = none → y.Rewrites (p.path (metadataRelative a))) := by
  obtain ⟨trace, changes, added, images, before, builds, behind, rfl, unreleased, built, released⟩ :=
    runBuild_yields (c := c) (p := p) (r := r) (s := s) o
  refine ⟨_, changes, added, ?_, ?_⟩
  · intro others reported
    obtain rfl := released.reported others reported
    refine ⟨builds, ?_, built.imp fun b x built => ⟨built.command, built.succeeded, ?_⟩⟩
    · rw [List.append_assoc]
      exact (List.sublist_append_left builds behind).trans (List.sublist_append_right before _)
    · intro fresh unwritten
      cases known : b.digest with
      | none => rfl
      | some digest => exact absurd (built.rewrites known fresh) unwritten
  · intro earlier x later split release
    have outside : x ∉ before ++ builds := fun member => unreleased x member release
    obtain ⟨t, rfl, rfl⟩ := front_of_not_mem split outside
    obtain ⟨b, member, planned⟩ := released.planned x (by simp) release
    obtain ⟨y, build, built⟩ := related_of_mem built member
    refine ⟨b.arch, ?_⟩
    rcases built.names planned with tag | ⟨digest, known, pinned⟩
    · exact .inl tag
    · have inside : y ∈ before ++ builds ++ t :=
        List.mem_append_left t (List.mem_append_right before build)
      exact .inr ⟨digest, pinned, y, inside, built.command, built.succeeded,
        built.recorded known, built.rewrites known⟩

example :
    ((runBuild armOnlyDemo demoProject recordingRunner {}).exec { files := demoFiles }).1 =
      .ok [⟨"arm64", "demo:latest-arm64", some "sha256:12"⟩] := by
  decide +kernel

/-- A project that signs its one image. -/
def signedDemo : Config where
  name := "demo"
  base := { template := "debian", architectures := ["amd64"] }
  output := { signing := { enabled := true, cosign := { enabled := true, keyless := true } } }

def signedRecord : Path := demoProject.path (metadataRelative "amd64")

/-- A build whose commands succeed and leave every file alone reports the digest of an earlier
build, and signs that. -/
theorem signedDemo_keeps_old_digest :
    (scriptedRunner true []).executes = true ∧
      ((runBuild signedDemo demoProject (scriptedRunner true []) {}).exec
        { files := recordedFiles }).1 =
          .ok [⟨"amd64", "demo:latest-amd64", some "sha256:12"⟩] ∧
      (∀ x ∈ ((runBuild signedDemo demoProject (scriptedRunner true []) {}).exec
        { files := recordedFiles }).2.exchanges, x.failure? = none ∧
          ¬ x.Rewrites signedRecord) ∧
      ((runBuild signedDemo demoProject (scriptedRunner true []) {}).exec
        { files := recordedFiles }).2.issued.map Command.image? =
          [none, some "demo@sha256:12"] := by
  refine ⟨rfl, ?_, ?_, ?_⟩
  · decide +kernel
  · decide +kernel
  · decide +kernel

end ImagePipeline
