import ImagePipeline.Proofs.Config.Soundness
import ImagePipeline.Proofs.Text.Utf8

/-! What a lock says of a build is what the command says that makes the build: its platform, its
tag, its Dockerfile and its build arguments are read off the words of the command. -/
namespace ImagePipeline

variable {c : Config} {p : Project} {option word : String}

/-! ### Words behind an option -/

/-- The words that stand right behind an option, in order. -/
def wordsBehind (option : String) : List String → List String
  | [] | [_] => []
  | word :: value :: rest =>
    (if word = option then [value] else []) ++ wordsBehind option (value :: rest)

theorem wordsBehind_cons_ne (other : word ≠ option) (words : List String) :
    wordsBehind option (word :: words) = wordsBehind option words := by
  cases words with
  | nil => rfl
  | cons value rest => rw [wordsBehind, if_neg other, List.nil_append]

theorem wordsBehind_append {front : List String} (absent : option ∉ front) (rest : List String) :
    wordsBehind option (front ++ rest) = wordsBehind option rest := by
  induction front with
  | nil => rfl
  | cons word front ih =>
    rw [List.mem_cons, not_or] at absent
    rw [List.cons_append, wordsBehind_cons_ne (Ne.symm absent.1), ih absent.2]

theorem wordsBehind_of_not_mem {words : List String} (absent : option ∉ words) :
    wordsBehind option words = [] := by
  rw [← List.append_nil words, wordsBehind_append absent]
  rfl

/-- Where options and values alternate, and no value is the option itself. -/
theorem wordsBehind_given {given : List (String × String)} (other : ∀ g ∈ given, g.2 ≠ option)
    (rest : List String) :
    wordsBehind option (given.flatMap (fun (name, value) => [name, value]) ++ rest) =
      (given.filter fun (name, _) => name == option).map Prod.snd ++ wordsBehind option rest := by
  induction given with
  | nil => rfl
  | cons first given ih =>
    obtain ⟨name, value⟩ := first
    obtain ⟨here, there⟩ := List.forall_mem_cons.mp other
    have behind := ih there
    rw [List.flatMap_cons, List.append_assoc, List.cons_append, List.singleton_append,
      List.filter_cons]
    by_cases same : name = option
    · rw [wordsBehind, if_pos same, wordsBehind_cons_ne here, behind, if_pos (beq_iff_eq.mpr same)]
      rfl
    · rw [wordsBehind_cons_ne same, wordsBehind_cons_ne here, behind,
        if_neg (by simpa using same)]

/-! ### The words of a build -/

/-- A word with a character that the options of a build do not have which take the next word. -/
def hasMark (word : String) : Bool := word.toList.any fun x => x == '/' || x == ':' || x == '='

theorem ne_of_hasMark (marked : hasMark word = true) (plain : hasMark option = false) :
    word ≠ option := by
  rintro rfl
  rw [marked] at plain
  contradiction

theorem hasMark_of_mem {x : Char} (member : x ∈ word.toList) (mark : x = '/' ∨ x = ':' ∨ x = '=') :
    hasMark word = true := by
  refine List.any_eq_true.mpr ⟨x, member, ?_⟩
  rcases mark with rfl | rfl | rfl <;> rfl

namespace Config

/-- The options of a build that take the next word, up to its build arguments. -/
def givenArgs (c : Config) (arch : String) : List (String × String) :=
  [("--platform", platform arch), ("--file", c.dockerfile), ("--tag", c.imageReference arch)] ++
    c.toolBuildArgs.map fun arg => ("--build-arg", arg)

/-- What a build is told behind its build arguments. -/
def furtherArgs (c : Config) (arch : String) (push : Bool) : List String :=
  c.labelArgs ++ (c.cacheArgs arch ++ (c.attestationArgs push ++
    ((if push then ["--metadata-file", metadataRelative arch, "--push"] else ["--load"]) ++ ["."])))

theorem buildCommand_args (c : Config) (p : Project) (arch : String) (push : Bool) :
    (c.buildCommand p arch push).args = ["buildx", "build"] ++
      ((c.givenArgs arch).flatMap (fun (name, value) => [name, value]) ++
        c.furtherArgs arch push) := by
  simp only [buildCommand, givenArgs, furtherArgs, List.append_assoc, List.cons_append,
    List.nil_append, List.flatMap_cons, List.flatMap_map]

theorem givenArgs_marked (c : Config) (arch : String) :
    ∀ g ∈ c.givenArgs arch, hasMark g.2 = true := by
  have platform : hasMark (platform arch) = true :=
    hasMark_of_mem (x := '/') (by simp [Config.platform]) (.inl rfl)
  have dockerfile : hasMark c.dockerfile = true :=
    hasMark_of_mem (x := '/') (by simp [Config.dockerfile, templateRelative]) (.inl rfl)
  have image : hasMark (c.imageReference arch) = true :=
    hasMark_of_mem (x := ':') (by simp [imageReference]) (.inr (.inl rfl))
  have buildArgs : ∀ arg ∈ c.toolBuildArgs, hasMark arg = true := by
    intro arg member
    obtain ⟨_, -, rfl⟩ := List.mem_map.mp member
    exact hasMark_of_mem (x := '=') (by simp) (.inr (.inr rfl))
  simpa [givenArgs, platform, dockerfile, image] using buildArgs

/-- The further words without a mark. -/
def furtherOptions : List String :=
  ["--label", "--cache-from", "--cache-to", "--metadata-file", "--push", "--load", "."]

theorem labelArgs_words : ∀ word ∈ c.labelArgs, hasMark word = true ∨ word ∈ furtherOptions := by
  intro word member
  obtain ⟨⟨key, value⟩, -, inside⟩ := List.mem_flatMap.mp member
  dsimp only at inside
  split at inside
  · cases inside
  · rcases List.mem_pair.mp inside with rfl | rfl
    · exact .inr (by decide)
    · exact .inl (hasMark_of_mem (x := '=') (by simp) (.inr (.inr rfl)))

theorem cacheArgs_words (arch : String) :
    ∀ word ∈ c.cacheArgs arch, hasMark word = true ∨ word ∈ furtherOptions := by
  intro word member
  unfold cacheArgs at member
  split at member
  · simp only [List.mem_cons, List.not_mem_nil, or_false] at member
    rcases member with rfl | rfl | rfl | rfl
    · exact .inr (by decide)
    · exact .inl (hasMark_of_mem (x := '=') (by simp) (.inr (.inr rfl)))
    · exact .inr (by decide)
    · exact .inl (hasMark_of_mem (x := '=') (by simp) (.inr (.inr rfl)))
  · cases member

theorem attestationArgs_marked (push : Bool) :
    ∀ word ∈ c.attestationArgs push, hasMark word = true := by
  unfold attestationArgs
  dsimp only
  cases push && c.output.attestation.enabled <;> cases c.output.attestation.provenance <;>
    cases c.output.attestation.sbomAttestation <;> decide

theorem furtherArgs_words (arch : String) (push : Bool) :
    ∀ word ∈ c.furtherArgs arch push, hasMark word = true ∨ word ∈ furtherOptions := by
  have metadata : hasMark (metadataRelative arch) = true :=
    hasMark_of_mem (x := '/') (by simp [metadataRelative]) (.inl rfl)
  intro word member
  simp only [furtherArgs, List.mem_append, List.mem_singleton] at member
  rcases member with label | cache | attestation | output | rfl
  · exact labelArgs_words word label
  · exact cacheArgs_words arch word cache
  · exact .inl (attestationArgs_marked push word attestation)
  · split at output
    · simp only [List.mem_cons, List.not_mem_nil, or_false] at output
      rcases output with rfl | rfl | rfl
      · exact .inr (by decide)
      · exact .inl metadata
      · exact .inr (by decide)
    · obtain rfl := List.mem_singleton.mp output
      exact .inr (by decide)
  · exact .inr (by decide)

/-- The words that stand in a build behind an option of those which take the next word. -/
theorem wordsBehind_buildCommand (c : Config) (p : Project) (arch : String) (push : Bool)
    (plain : hasMark option = false) (first : option ∉ ["buildx", "build"])
    (other : option ∉ furtherOptions) : wordsBehind option (c.buildCommand p arch push).args =
      ((c.givenArgs arch).filter fun (name, _) => name == option).map Prod.snd := by
  have further : option ∉ c.furtherArgs arch push := by
    intro member
    rcases furtherArgs_words arch push option member with marked | further
    · exact ne_of_hasMark marked plain rfl
    · exact other further
  rw [buildCommand_args, wordsBehind_append first,
    wordsBehind_given fun g member => ne_of_hasMark (c.givenArgs_marked arch g member) plain,
    wordsBehind_of_not_mem further, List.append_nil]

end Config

/-! ### Locks -/

namespace BuildLock

variable {time : Timestamp} {s : Session} {lock : BuildLock}

theorem hashFile_ok {q : Path} {digest : String} {s' : Session}
    (run : (hashFile q).exec s = (.ok digest, s')) : ∃ content,
      s.files.read q = .ok content ∧ digest = Sha256.hexDigest content.toList ∧ s' = s := by
  rw [exec_hashFile] at run
  cases found : s.files.read q with
  | ok content =>
    simp only [found, Prod.mk.injEq, Except.ok.injEq] at run
    exact ⟨content, rfl, run.1.symm, run.2.symm⟩
  | error e => simp [found] at run

/-- What a lock holds, once both of its files have been read. -/
theorem compute_ok {s' : Session} (run : (compute c p time).exec s = (.ok lock, s')) :
    lock.architectures = c.base.architectures.map (archLock c) ∧
    lock.dockerfile.path = c.dockerfile ∧
    ∃ content, s.files.read (p.path c.dockerfile) = .ok content ∧
      lock.dockerfile.sha256 = Sha256.hexDigest content.toList := by
  unfold compute at run
  obtain ⟨_, _, first, rest⟩ := Work.ok_of_bind run
  obtain ⟨_, -, -, rfl⟩ := hashFile_ok first
  obtain ⟨_, _, second, last⟩ := Work.ok_of_bind rest
  obtain ⟨content, found, digest, rfl⟩ := hashFile_ok second
  cases last
  exact ⟨rfl, rfl, content, found, digest⟩

end BuildLock

/-- An entry of a lock with this Dockerfile says of its architecture what a command says that
builds it. Hashed are the architecture and, each behind a zero byte, the build arguments. -/
structure ArchLock.Describes (e : ArchLock) (dockerfile : String) (x : Command) : Prop where
  platform : wordsBehind "--platform" x.args = [e.platform]
  file : wordsBehind "--file" x.args = [dockerfile]
  tag : wordsBehind "--tag" x.args = [e.image]
  buildArgs : e.buildArgsHash = Sha256.hexDigest (e.arch.toUTF8.toList ++
    (wordsBehind "--build-arg" x.args).flatMap fun arg => 0 :: arg.toUTF8.toList)

theorem archLock_describes (c : Config) (p : Project) (arch : String) (push : Bool) :
    (BuildLock.archLock c arch).Describes c.dockerfile (c.buildCommand p arch push) where
  platform := by
    rw [c.wordsBehind_buildCommand p arch push (by decide) (by decide) (by decide)]
    simp [Config.givenArgs, List.filter_map, BuildLock.archLock]
  file := by
    rw [c.wordsBehind_buildCommand p arch push (by decide) (by decide) (by decide)]
    simp [Config.givenArgs, List.filter_map]
  tag := by
    rw [c.wordsBehind_buildCommand p arch push (by decide) (by decide) (by decide)]
    simp [Config.givenArgs, List.filter_map, BuildLock.archLock]
  buildArgs := by
    rw [c.wordsBehind_buildCommand p arch push (by decide) (by decide) (by decide)]
    simp [Config.givenArgs, List.filter_map, BuildLock.archLock, BuildLock.buildArgsBytes,
      Function.comp_def]

/-- A lock has an entry for each architecture that is built without a choice, in the same order,
and each says what the command says that builds it, whether its image is pushed or not. The
Dockerfile that is built from is the one whose hash is in the lock. -/
theorem lock_describes_builds {c : Config} {p : Project} {time : Timestamp} {s : Session}
    {lock : BuildLock} (locked : ((BuildLock.compute c p time).exec s).1 = .ok lock) :
    c.selectArchitectures [] = .ok (lock.architectures.map ArchLock.arch) ∧
    (∀ e ∈ lock.architectures, ∀ push,
      e.Describes lock.dockerfile.path (c.buildCommand p e.arch push)) ∧
    ∃ content, s.files.read (p.path lock.dockerfile.path) = .ok content ∧
      lock.dockerfile.sha256 = Sha256.hexDigest content.toList := by
  obtain ⟨entries, dockerfile, hashed⟩ := BuildLock.compute_ok (Prod.ext locked rfl)
  rw [entries, dockerfile]
  refine ⟨?_, ?_, hashed⟩
  · rw [List.map_map]
    exact congrArg Except.ok (List.map_id _).symm
  · intro e member push
    obtain ⟨arch, -, rfl⟩ := List.mem_map.mp member
    exact archLock_describes c p arch push

/-- The files of a project with its configuration and its Dockerfile. -/
def configuredFiles : FileTree where
  entries := (["work", "image-foundry.yaml"], .file "name: demo".toUTF8 false) :: demoFiles.entries

/-- A project with a pinned tool, whose template is written between blanks. -/
def pinnedDemo : Config :=
  { demo with
    base := { demo.base with template := " debian\t" }
    tools := { languages := .ofList [("go", ⟨true, "1.22.0"⟩)] } }

def noon : Timestamp := ⟨1714564800, 0⟩

theorem pinnedDemo_described : ∃ lock,
    ((BuildLock.compute pinnedDemo demoProject noon).exec { files := configuredFiles }).1 =
      .ok lock ∧
    lock.architectures.map (fun e => (e.arch, e.buildArgsHash)) =
      [("amd64", "5b051ee1620093c0a2867b47a3c8799a9c4f76e9e12eb95e6c5ac1254fa7dd36"),
        ("arm64", "e7c1d65bff18ba30df018882b8f3ca09d06b6d3d9cd6343cfbd462504c083abc")] ∧
    ∀ e ∈ lock.architectures, e.Describes "templates/base/debian.Dockerfile"
      (pinnedDemo.buildCommand demoProject e.arch true) := by
  have config : configuredFiles.read demoProject.configPath = .ok "name: demo".toUTF8 := by
    decide +kernel
  have dockerfile : configuredFiles.read (demoProject.templatePath
      (Text.trimmed pinnedDemo.base.template)) = .ok "FROM debian".toUTF8 := by decide +kernel
  have locked := congrArg Prod.fst
    (BuildLock.exec_compute noon (s := { files := configuredFiles }) dockerfile)
  rw [config] at locked
  have path : pinnedDemo.dockerfile = "templates/base/debian.Dockerfile" := by decide +kernel
  obtain ⟨-, describes, -⟩ := lock_describes_builds locked
  refine ⟨_, locked, ?_, fun e member => path ▸ describes e member true⟩
  change pinnedDemo.base.architectures.map (fun arch =>
    (arch, (BuildLock.archLock pinnedDemo arch).buildArgsHash)) = _
  simp only [BuildLock.archLock, BuildLock.buildArgsBytes, Text.toUTF8_toList]
  decide +kernel

end ImagePipeline
