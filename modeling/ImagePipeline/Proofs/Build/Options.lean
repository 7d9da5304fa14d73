import ImagePipeline.Build.Basic

/-! How the words of a build are read. From left to right, an option that takes a value takes the
next word, whatever that is, and every other word stands for itself. No text of a configuration is
read as an option: each stands where a value is taken. -/
namespace ImagePipeline

/-- A word of a build, with the next one where that is its value. -/
inductive BuildWord where
  | option (name value : String)
  | switch (name : String)
  | positional (word : String)
  deriving DecidableEq

namespace BuildWord

/-- The options that take the next word. -/
def valued : List String :=
  ["--platform", "--file", "--tag", "--build-arg", "--label", "--cache-from", "--cache-to",
    "--metadata-file"]

/-- The options that stand alone. -/
def switches : List String := ["--provenance=mode=max", "--sbom=true", "--push", "--load"]

/-- Reads words from left to right. An option without its value is refused, and so is an option
that is not known. -/
def read? : List String → Option (List BuildWord)
  | [] => some []
  | word :: rest =>
    if valued.contains word then
      match rest with
      | [] => none
      | value :: rest => (read? rest).map (.option word value :: ·)
    else if switches.contains word then (read? rest).map (.switch word :: ·)
    else if Text.startsWith ['-'] word.toList then none
    else (read? rest).map (.positional word :: ·)

def value? (name : String) : BuildWord → Option String
  | option other value => if other = name then some value else none
  | switch _ | positional _ => none

def switch? : BuildWord → Option String
  | switch name => some name
  | option .. | positional _ => none

def positional? : BuildWord → Option String
  | positional word => some word
  | option .. | switch _ => none

/-- What a view shows of the words, in order. -/
def pick (view : BuildWord → Option String) (told : List BuildWord) : List String :=
  told.filterMap view

section Views

variable {view : BuildWord → Option String} {name other : String}

@[simp] theorem pick_nil : pick view [] = [] := rfl

@[simp] theorem pick_cons (word : BuildWord) (told : List BuildWord) :
    pick view (word :: told) = (view word).toList ++ pick view told := by
  unfold pick
  rw [List.filterMap_cons]
  cases view word <;> rfl

@[simp] theorem pick_append (front back : List BuildWord) :
    pick view (front ++ back) = pick view front ++ pick view back :=
  List.filterMap_append

@[simp] theorem pick_ite (condition : Prop) [Decidable condition] (told others : List BuildWord) :
    pick view (if condition then told else others) =
      if condition then pick view told else pick view others :=
  apply_ite (pick view) condition told others

@[simp] theorem pick_value (given : List String) :
    pick (value? name) (given.map (.option other)) = if other = name then given else [] := by
  induction given with
  | nil => simp
  | cons value given ih =>
    rw [List.map_cons, pick_cons, ih]
    by_cases same : other = name <;> simp [value?, same]

/-- Options are nothing to a view that shows no values. -/
theorem pick_option (blind : ∀ value, view (.option name value) = none) (given : List String) :
    pick view (given.map (.option name)) = [] := by
  induction given with
  | nil => rfl
  | cons value given ih => rw [List.map_cons, pick_cons, blind, ih]; rfl

@[simp] theorem pick_switch (given : List String) :
    pick switch? (given.map (.option name)) = [] :=
  pick_option (fun _ => rfl) given

@[simp] theorem pick_positional (given : List String) :
    pick positional? (given.map (.option name)) = [] :=
  pick_option (fun _ => rfl) given

end Views

/-! ### Words that are read alike whatever stands behind them -/

def ReadAs (words : List String) (told : List BuildWord) : Prop :=
  ∀ rest, read? (words ++ rest) = (read? rest).map (told ++ ·)

namespace ReadAs

variable {name value word : String} {words more : List String} {told others : List BuildWord}

theorem read (readAs : ReadAs words told) : read? words = some told := by
  have whole := readAs []
  rwa [List.append_nil, read?, Option.map_some, List.append_nil] at whole

theorem nil : ReadAs [] [] := by
  intro rest
  rw [List.nil_append]
  exact Option.map_id'.symm

theorem append (front : ReadAs words told) (back : ReadAs more others) :
    ReadAs (words ++ more) (told ++ others) := by
  intro rest
  rw [List.append_assoc, front, back, Option.map_map]
  apply congrArg (Option.map · (read? rest))
  funext behind
  exact (List.append_assoc told others behind).symm

/-- The value of an option may be any word, one that looks like an option too. -/
theorem option (known : valued.contains name = true) (value : String) :
    ReadAs [name, value] [.option name value] := by
  intro rest
  rw [List.cons_append, read?.eq_def]
  dsimp only
  rw [if_pos known]
  rfl

theorem switch (known : switches.contains name = true) (alone : valued.contains name = false) :
    ReadAs [name] [.switch name] := by
  intro rest
  rw [List.singleton_append, read?.eq_def]
  dsimp only
  rw [alone, known]
  rfl

theorem each (known : valued.contains name = true) (given : List String) :
    ReadAs (given.flatMap fun value => [name, value]) (given.map (.option name)) := by
  induction given with
  | nil => exact nil
  | cons value given ih => exact (option known value).append ih

end ReadAs

example : read? ["--tag", "--push", "--load", "."] =
    some [.option "--tag" "--push", .switch "--load", .positional "."] := by decide +kernel

end BuildWord

open BuildWord (ReadAs pick value? switch? positional?)

namespace Config

/-- The labels of the image, as far as they are not blank. -/
def labels (c : Config) : List String :=
  ([("title", c.name), ("version", c.version), ("description", c.description),
    ("authors", c.author), ("licenses", c.license)].filter fun label =>
      !Text.isBlankText label.2).map fun label =>
    "org.opencontainers.image." ++ label.1 ++ "=" ++ Text.trimmed label.2

def cacheWords (c : Config) (arch : String) : List BuildWord :=
  if c.optimization.cacheLayers then
    [.option "--cache-from" ("type=local,src=" ++ cacheRelative arch),
      .option "--cache-to" ("type=local,dest=" ++ cacheRelative arch ++ ",mode=max")]
  else []

def attestationWords (c : Config) (push : Bool) : List BuildWord :=
  if push && c.output.attestation.enabled then
    (if c.output.attestation.provenance then [.switch "--provenance=mode=max"] else []) ++
    (if c.output.attestation.sbomAttestation then [.switch "--sbom=true"] else [])
  else []

def outputWords (arch : String) (push : Bool) : List BuildWord :=
  if push then [.option "--metadata-file" (metadataRelative arch), .switch "--push"]
  else [.switch "--load"]

/-- What a build is told, word by word. -/
def buildWords (c : Config) (arch : String) (push : Bool) : List BuildWord :=
  [.option "--platform" (platform arch), .option "--file" c.dockerfile,
    .option "--tag" (c.imageReference arch)] ++
  c.toolBuildArgs.map (.option "--build-arg") ++ c.labels.map (.option "--label") ++
  c.cacheWords arch ++ c.attestationWords push ++ outputWords arch push ++ [.positional "."]

variable (c : Config) (arch : String) (push : Bool)

theorem labelArgs_eq : c.labelArgs = c.labels.flatMap fun label => ["--label", label] := by
  have each (given : List (String × String)) :
      (given.flatMap fun label => if Text.isBlankText label.2 then [] else
        ["--label", "org.opencontainers.image." ++ label.1 ++ "=" ++ Text.trimmed label.2]) =
      ((given.filter fun label => !Text.isBlankText label.2).map fun label =>
        "org.opencontainers.image." ++ label.1 ++ "=" ++ Text.trimmed label.2).flatMap
          fun label => ["--label", label] := by
    induction given with
    | nil => rfl
    | cons label given ih =>
      rw [List.flatMap_cons, ih, List.filter_cons]
      cases Text.isBlankText label.2 <;> rfl
  exact each _

theorem cacheArgs_read : ReadAs (c.cacheArgs arch) (c.cacheWords arch) := by
  unfold cacheArgs cacheWords
  split
  · exact (ReadAs.option (by decide) _).append (.option (by decide) _)
  · exact .nil

theorem attestationArgs_read : ReadAs (c.attestationArgs push) (c.attestationWords push) := by
  unfold attestationArgs attestationWords
  dsimp only
  split
  · apply ReadAs.append
    · split
      · exact .switch (by decide) (by decide)
      · exact .nil
    · split
      · exact .switch (by decide) (by decide)
      · exact .nil
  · exact .nil

theorem outputArgs_read :
    ReadAs (if push then ["--metadata-file", metadataRelative arch, "--push"] else ["--load"])
      (outputWords arch push) := by
  unfold outputWords
  split
  · exact (ReadAs.option (by decide) _).append (.switch (by decide) (by decide))
  · exact .switch (by decide) (by decide)

/-- The words behind `buildx build`. -/
theorem buildWords_read (p : Project) : ∃ words,
    (c.buildCommand p arch push).args = "buildx" :: "build" :: words ∧
      BuildWord.read? words = some (c.buildWords arch push) := by
  refine ⟨_, rfl, ?_⟩
  have image : ReadAs ["--platform", platform arch, "--file", c.dockerfile, "--tag",
      c.imageReference arch] [.option "--platform" (platform arch), .option "--file" c.dockerfile,
        .option "--tag" (c.imageReference arch)] :=
    ((ReadAs.option (by decide) _).append (.option (by decide) _)).append (.option (by decide) _)
  have buildArgs : ReadAs (c.toolBuildArgs.flatMap fun arg => ["--build-arg", arg])
      (c.toolBuildArgs.map (.option "--build-arg")) := .each (by decide) _
  have labels : ReadAs c.labelArgs (c.labels.map (.option "--label")) := by
    rw [labelArgs_eq]
    exact .each (by decide) _
  have place : ReadAs ["."] [.positional "."] := by
    intro rest
    rw [List.singleton_append, BuildWord.read?.eq_def]
    rfl
  exact ((((((image.append buildArgs).append labels).append (c.cacheArgs_read arch)).append
    (c.attestationArgs_read push)).append (outputArgs_read arch push)).append place).read

/-- What a build is told is what is configured, and nothing else. -/
structure Orders (told : List BuildWord) : Prop where
  positional : pick positional? told = ["."]
  platform : pick (value? "--platform") told = ["linux/" ++ arch]
  dockerfile : pick (value? "--file") told = [c.dockerfile]
  tag : pick (value? "--tag") told = [c.imageReference arch]
  buildArgs : pick (value? "--build-arg") told = c.toolBuildArgs
  labels : pick (value? "--label") told = c.labels
  cacheFrom : pick (value? "--cache-from") told =
    if c.optimization.cacheLayers then ["type=local,src=" ++ cacheRelative arch] else []
  cacheTo : pick (value? "--cache-to") told =
    if c.optimization.cacheLayers then ["type=local,dest=" ++ cacheRelative arch ++ ",mode=max"]
    else []
  metadata : pick (value? "--metadata-file") told = if push then [metadataRelative arch] else []
  output : (pick switch? told).filter (fun name => name == "--push" || name == "--load") =
    [if push then "--push" else "--load"]
  provenance : "--provenance=mode=max" ∈ pick switch? told ↔
    push = true ∧ c.output.attestation.enabled = true ∧ c.output.attestation.provenance = true
  sbom : "--sbom=true" ∈ pick switch? told ↔
    push = true ∧ c.output.attestation.enabled = true ∧
      c.output.attestation.sbomAttestation = true

/-- The options that a build has alone: the attestations, and then how it hands out its image. -/
theorem buildWords_switches : pick switch? (c.buildWords arch push) =
    pick switch? (c.attestationWords push) ++ [if push then "--push" else "--load"] := by
  cases push <;> simp [buildWords, cacheWords, attestationWords, outputWords, switch?]

theorem attestationWords_switches : pick switch? (c.attestationWords push) =
    if push && c.output.attestation.enabled then
      (if c.output.attestation.provenance then ["--provenance=mode=max"] else []) ++
      (if c.output.attestation.sbomAttestation then ["--sbom=true"] else [])
    else [] := by
  simp [attestationWords, switch?]

theorem buildWords_ordered : c.Orders arch push (c.buildWords arch push) := by
  constructor
  case output =>
    have attestations : (pick switch? (c.attestationWords push)).filter
        (fun name => name == "--push" || name == "--load") = [] := by
      rw [attestationWords_switches, List.filter_eq_nil_iff]
      intro name member
      split at member
      · rcases List.mem_append.mp member with provenance | sbom
        · split at provenance <;> simp_all
        · split at sbom <;> simp_all
      · cases member
    rw [buildWords_switches, List.filter_append, attestations]
    cases push <;> rfl
  case provenance =>
    rw [buildWords_switches, attestationWords_switches]
    cases push <;> simp
  case sbom =>
    rw [buildWords_switches, attestationWords_switches]
    cases push <;> simp
  case positional => simp [buildWords, cacheWords, attestationWords, outputWords, positional?]
  -- the other views each show the values of one option
  all_goals simp [buildWords, cacheWords, attestationWords, outputWords, value?, platform]

/-- No text of a configuration is read as an option. The words behind `buildx build` can be read
from left to right, and they say what is configured: the one place to build, the platform, the
file and the tag, every build argument and label in order, the caches if layers are cached, a
record and attestations only of an image that is pushed, and to push or to load, but not both. -/
theorem build_options_read (p : Project) : ∃ words told,
    (c.buildCommand p arch push).args = "buildx" :: "build" :: words ∧
      BuildWord.read? words = some told ∧ c.Orders arch push told := by
  obtain ⟨words, behind, read⟩ := c.buildWords_read arch push p
  exact ⟨words, _, behind, read, c.buildWords_ordered arch push⟩

end Config

end ImagePipeline
