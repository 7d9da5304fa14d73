import ImagePipeline.Lock
import ImagePipeline.Proofs.Build.Prefix
import ImagePipeline.Proofs.Config.Check
import ImagePipeline.Proofs.Scan.Plan
import ImagePipeline.Proofs.Trial.Run

/-! What a configuration without errors is good for: its builds, scans and tests fail by a
mishap only, an attestation that it asks for is made, and the Dockerfile that was found is
the one that is locked. -/
namespace ImagePipeline

variable {c : Config} {p : Project} {t : FileTree} {r : Runner} {s : Session}

namespace Config.Valid

theorem scansKnown (valid : c.Valid p t) : c.ScansKnown := ⟨valid.standards, valid.analyzers⟩

theorem probeTimeout (valid : c.Valid p t) : ∃ limit, c.probeTimeout = .ok limit := by
  unfold Config.probeTimeout
  dsimp only
  split
  · exact ⟨_, rfl⟩
  · rename_i given
    obtain ⟨limit, parsed⟩ := Option.isSome_iff_exists.mp (valid.timeout.resolve_left given)
    exact ⟨limit, by rw [parsed]⟩

theorem trialsKnown (valid : c.Valid p t) : c.TrialsKnown where
  timeout _ := valid.probeTimeout
  benchmark _ := by
    have known := valid.benchmark
    unfold Benchmark.ofName? at known ⊢
    rw [Text.trimmed_trimmed] at known
    exact Option.isSome_iff_exists.mp known

theorem bindsSbom (valid : c.Valid p t) (enabled : c.output.attestation.enabled = true)
    (requested : c.output.attestation.sbomAttestation = true) : c.bindsSbom = true := by
  simp [Config.bindsSbom, enabled, requested, valid.attestation enabled requested]

end Config.Valid

theorem runBuild_excused (c : Config) (p : Project) (r : Runner) (push : Bool) (s : Session) :
    Excused r (runBuild c p r { push }) s := by
  have all : ∃ archs, c.selectArchitectures [] = .ok archs := c.selectArchitectures_ok (by simp)
  obtain ⟨archs, selected⟩ := all
  obtain ⟨images, well, made⟩ := imagesOf_unless_built (o := { push }) r p s selected
  exact .of_pursues (runBuild_pursues selected made well)

/-- Where images are published without a failure, each is attested if that is asked for. -/
theorem publish_attests {images : List BuiltImage} (binds : c.bindsSbom = true)
    (run : ((publish c p r images).exec s).1 = .ok ()) :
    ∃ trace changes, Adds r s ((publish c p r images).exec s).2 trace changes ∧
      ∀ b ∈ images, ∃ x ∈ trace, x.command = b.attestCommand c p := by
  obtain ⟨trace, changes, added, follows, -⟩ := publish_pursues (c := c) (p := p) images
  rw [run] at follows
  obtain ⟨whole, -, -⟩ := follows.complete rfl
  refine ⟨trace, changes, added, fun b member => ?_⟩
  have planned : b.attestCommand c p ∈ images.flatMap (c.releasePlan p) := by
    refine List.mem_flatMap.mpr ⟨b, member, ?_⟩
    simp [Config.releasePlan, binds]
  rw [← whole] at planned
  exact List.mem_map.mp planned

namespace FileTree

theorem read_of_isFile {q : Path} (file : t.isFile q = true) :
    ∃ content, t.read q = .ok content := by
  unfold isFile at file
  split at file
  · rename_i content _ found
    exact ⟨content, by rw [read, found]; rfl⟩
  · cases file

end FileTree

namespace BuildLock

theorem exec_hashFile (q : Path) (s : Session) :
    (hashFile q).exec s = match s.files.read q with
      | .ok content => (.ok (Sha256.hexDigest content.toList), s)
      | .error e => (.error {
          contexts := ["Failed to read " ++ q.text ++ " for hashing"]
          cause := .os e }, s) := by
  simp only [hashFile, Work.exec_bind, Work.exec_within, Work.readBytes, Work.exec_files]
  cases s.files.read q <;> rfl

/-- A lock is that of the two files, the Dockerfile being the one of the template. -/
theorem exec_compute {dockerfile : ByteArray} (time : Timestamp)
    (found : s.files.read (p.templatePath (Text.trimmed c.base.template)) = .ok dockerfile) :
    (compute c p time).exec s = match s.files.read p.configPath with
      | .ok config => (.ok {
          name := c.name
          version := c.version
          generatedAt := time
          config := ⟨(p.relative p.configPath).text, Sha256.hexDigest config.toList⟩
          dockerfile := ⟨templateRelative (Text.trimmed c.base.template),
            Sha256.hexDigest dockerfile.toList⟩
          architectures := c.base.architectures.map (archLock c) }, s)
      | .error e => (.error {
          contexts := ["Failed to read " ++ p.configPath.text ++ " for hashing"]
          cause := .os e }, s) := by
  have path : p.path c.dockerfile = p.templatePath (Text.trimmed c.base.template) := rfl
  simp only [compute, Work.exec_bind, exec_hashFile]
  cases s.files.read p.configPath with
  | error e => rfl
  | ok config =>
    simp only [path, found]
    rfl

end BuildLock

/-- The file that the check looks for is there, and it is the one whose hash is in the lock,
for which nothing else is needed than the file of the configuration. -/
def Config.LocksTemplate (c : Config) (p : Project) (t : FileTree) : Prop :=
  ∃ dockerfile, t.isFile (p.templatePath (Text.trimmed c.base.template)) = true ∧
    t.read (p.templatePath (Text.trimmed c.base.template)) = .ok dockerfile ∧
    ∀ (time : Timestamp) (s : Session), s.files = t →
      ((∃ lock, ((BuildLock.compute c p time).exec s).1 = .ok lock) ↔
        ∃ config, t.read p.configPath = .ok config) ∧
      ∀ lock, ((BuildLock.compute c p time).exec s).1 = .ok lock →
        lock.dockerfile = ⟨templateRelative (Text.trimmed c.base.template),
          Sha256.hexDigest dockerfile.toList⟩

/-- What can be relied on for a configuration, given the project and its files. -/
structure Config.Sound (c : Config) (p : Project) (t : FileTree) : Prop where
  builds : ∀ (r : Runner) (push : Bool) (s : Session), r.Succeeds →
    (runBuild c p r { push }).Unhindered s →
      ∃ images, ((runBuild c p r { push }).exec s).1 = .ok images
  scans : ∀ (r : Runner) (arch : String) (s : Session), r.Succeeds →
    (runScans c p r arch).Unhindered s → ((runScans c p r arch).exec s).1 = .ok ()
  trials : ∀ (r : Runner) (process : Nat) (arch : String) (s : Session), r.Succeeds →
    (runImageTests c p r process arch).Unhindered s →
      ∃ report, ((runImageTests c p r process arch).exec s).1 = .ok report
  /-- No failure, of whatever runner, is one of the configuration. -/
  buildFailures : ∀ (r : Runner) (push : Bool) (s : Session) (f : Failure),
    ((runBuild c p r { push }).exec s).1 = .error f → f.cause.ofConfiguration = false
  scanFailures : ∀ (r : Runner) (arch : String) (s : Session) (f : Failure),
    ((runScans c p r arch).exec s).1 = .error f → f.cause.ofConfiguration = false
  trialFailures : ∀ (r : Runner) (process : Nat) (arch : String) (s : Session) (f : Failure),
    ((runImageTests c p r process arch).exec s).1 = .error f → f.cause.ofConfiguration = false
  publishes : ∀ (r : Runner) (images : List BuiltImage) (s : Session), r.Succeeds →
    (publish c p r images).Unhindered s → ((publish c p r images).exec s).1 = .ok ()
  attests : c.output.attestation.enabled = true → c.output.attestation.sbomAttestation = true →
    ∀ (r : Runner) (images : List BuiltImage) (s : Session),
      ((publish c p r images).exec s).1 = .ok () →
        ∃ trace changes, Adds r s ((publish c p r images).exec s).2 trace changes ∧
          ∀ b ∈ images, ∃ x ∈ trace, x.command = b.attestCommand c p
  locks : c.LocksTemplate p t

theorem Config.Valid.locksTemplate (valid : c.Valid p t) : c.LocksTemplate p t := by
  obtain ⟨dockerfile, found⟩ := FileTree.read_of_isFile valid.templateFile
  refine ⟨dockerfile, valid.templateFile, found, fun time s files => ?_⟩
  subst files
  rw [BuildLock.exec_compute time found]
  cases s.files.read p.configPath with
  | error e => simp
  | ok config => simp

/-- A configuration without errors can be relied on. -/
theorem check_sound (c : Config) (p : Project) (t : FileTree)
    (clean : (c.check p t).errors = []) : c.Sound p t := by
  have valid := Config.check_clean_iff.mp clean
  have scans (r : Runner) (arch : String) (s : Session) : Excused r (runScans c p r arch) s :=
    .of_pursues (runScans_pursues valid.scansKnown arch)
  have trials (r : Runner) (process : Nat) (arch : String) (s : Session) :
      Excused r (runImageTests c p r process arch) s :=
    runImageTests_excused valid.trialsKnown process arch
  have publishes (r : Runner) (images : List BuiltImage) (s : Session) :
      Excused r (publish c p r images) s := .of_pursues (publish_pursues images)
  exact {
    builds := fun r push s all free => (runBuild_excused c p r push s).succeeds all free
    scans := fun r arch s all free => by
      obtain ⟨_, run⟩ := (scans r arch s).succeeds all free
      exact run
    trials := fun r process arch s all free => (trials r process arch s).succeeds all free
    buildFailures := fun r push s f failed => (runBuild_excused c p r push s).cause failed
    scanFailures := fun r arch s f failed => (scans r arch s).cause failed
    trialFailures := fun r process arch s f failed => (trials r process arch s).cause failed
    publishes := fun r images s all free => by
      obtain ⟨_, run⟩ := (publishes r images s).succeeds all free
      exact run
    attests := fun enabled requested r images s run =>
      publish_attests (valid.bindsSbom enabled requested) run
    locks := valid.locksTemplate }

/-- The project with scans and tests, whose names differ from the listed ones in case and in
blanks around them. -/
def checkedDemo : Config :=
  { demo with
    security := {
      compliance := { enabled := true, standards := [" CIS "] }
      sast := { enabled := true, tools := ["Semgrep "] } }
    testing := {
      integrationTests := { enabled := true, timeout := " 90s" }
      performanceTests := { enabled := true, benchmarkTool := "HyperFine" } } }

def demoFiles : FileTree where
  entries := [(["work"], .directory), (["work", "templates"], .directory),
    (["work", "templates", "base"], .directory),
    (["work", "templates", "base", "debian.Dockerfile"], .file "FROM debian".toUTF8 false)]

theorem checkedDemo_sound :
    (checkedDemo.check demoProject demoFiles).errors = [] ∧
      checkedDemo.Sound demoProject demoFiles ∧
      ∃ images, ((runBuild checkedDemo demoProject (DryRun.runner {}) { push := true }).exec
        {}).1 = .ok images := by
  have clean : (checkedDemo.check demoProject demoFiles).errors = [] := by decide +kernel
  have sound := check_sound checkedDemo demoProject demoFiles clean
  refine ⟨clean, sound, sound.builds _ true {} (DryRun.succeeds rfl rfl) ?_⟩
  unfold Work.Unhindered
  decide +kernel

end ImagePipeline
