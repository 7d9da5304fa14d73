import ImagePipeline.Proofs.Config.Names
import ImagePipeline.Proofs.Publication.Shares

/-! The reference by which the release of an image names it: the digest if there is one, and
then the tag, which may move, occurs nowhere; the tag otherwise. -/
namespace ImagePipeline

variable {c : Config} {p : Project} {a format digest : String} {b : BuiltImage} {x : Command}

/-- The image that a command of a release is about, which `syft` takes first and `cosign`
last. -/
def Command.image? (x : Command) : Option String :=
  if x.program == "syft" then x.args.head?
  else if x.program == "cosign" then x.args.getLast?
  else none

theorem releasePlan_image (planned : x ∈ c.releasePlan p b) :
    x.image? = some b.pinnedReference := by
  rcases mem_releasePlan planned with ⟨format, rfl⟩ | rfl | ⟨-, rfl⟩
  · rfl
  · have last : (b.signCommand c p).image? = (b.signCommand c p).args.getLast? := rfl
    exact last.trans List.getLast?_concat
  · have last : (b.attestCommand c p).image? = (b.attestCommand c p).args.getLast? := rfl
    rw [last, attestCommand_args, List.getLast?_append]
    rfl

/-! ### Words that are not tags -/

theorem ne_imageReference {word : String} (noColon : ':' ∉ word.toList) :
    word ≠ c.imageReference a := by
  rintro rfl
  rw [imageReference_toList] at noColon
  simp at noColon

theorem pinned_ne_imageReference : c.repository ++ "@" ++ digest ≠ c.imageReference a := by
  intro same
  have chars := congrArg String.toList same
  rw [imageReference_toList, String.toList_append, String.toList_append, List.append_assoc] at chars
  exact absurd (List.cons.inj (List.append_cancel_left chars)).1 (by decide)

theorem sbomRelative_toList (a format : String) :
    (sbomRelative a format).toList = ".foundry/sbom".toList ++
      '/' :: ((archSlug a).toList ++ '.' :: (sbomExtension format).toList) := by
  simp [sbomRelative, stateDirName]

theorem colon_not_mem_sbomRelative (noColon : ':' ∉ a.toList)
    (ending : ':' ∉ (sbomExtension format).toList) : ':' ∉ (sbomRelative a format).toList := by
  have front : ':' ∉ ".foundry/sbom".toList := by decide
  rw [sbomRelative_toList]
  simp only [List.mem_append, List.mem_cons, not_or]
  exact ⟨front, by decide, colon_not_mem_archSlug noColon, by decide, ending⟩

/-- The endings that are known have no colon, and the others no dash. -/
theorem dash_not_mem_sbomExtension (colon : ':' ∈ (sbomExtension format).toList) :
    '-' ∉ (sbomExtension format).toList := by
  unfold sbomExtension at colon ⊢
  split_ifs at colon ⊢
  rotate_right
  · rw [Text.replaceChar, String.toList_ofList, List.mem_map]
    rintro ⟨x, -, dash⟩
    split at dash
    · exact absurd dash (by decide)
    · simp_all
  all_goals exact absurd colon (by decide)

/-- The operand that gives a format and a file is no tag: behind its last colon there is a slash
or there is no dash. -/
theorem sbomOperand_ne_imageReference {arch : String} (noColon : ':' ∉ arch.toList)
    (noSlash : '/' ∉ c.tag.toList) :
    format ++ "=" ++ sbomRelative arch format ≠ c.imageReference a := by
  intro same
  have chars := congrArg String.toList same
  rw [imageReference_toList, String.toList_append, sbomRelative_toList, ← List.append_assoc] at chars
  rcases Text.append_cons_eq_split (by decide) chars with ⟨t, -, behind⟩ | ⟨t, behind, -⟩
  · have unslashed := slash_not_mem_tagged (a := a) noSlash
    rw [behind] at unslashed
    simp at unslashed
  · rcases Text.append_cons_eq_split (by decide) behind with ⟨u, slug, -⟩ | ⟨u, ending, -⟩
    · refine colon_not_mem_archSlug noColon ?_
      rw [slug]
      simp
    · have colon : ':' ∈ (sbomExtension format).toList := by simp [ending]
      refine dash_not_mem_sbomExtension colon ?_
      simp [ending]

theorem colon_not_mem_keyArgs (c : Config) :
    ∀ word ∈ BuiltImage.keyArgs c, ':' ∉ word.toList := by
  unfold BuiltImage.keyArgs
  split <;> decide

/-- The words of a command of a release: those with a colon are the image, and the operand of
`syft` that gives a format and a file. -/
theorem releasePlan_words (planned : x ∈ c.releasePlan p b) (noColon : ':' ∉ b.arch.toList) :
    ∀ word ∈ x.args, ':' ∉ word.toList ∨ word = b.pinnedReference ∨
      ∃ format, word = format ++ "=" ++ sbomRelative b.arch format := by
  have keys := colon_not_mem_keyArgs c
  intro word member
  rcases mem_releasePlan planned with ⟨format, rfl⟩ | rfl | ⟨-, rfl⟩
  · simp only [BuiltImage.sbomCommand, List.mem_cons, List.not_mem_nil, or_false] at member
    rcases member with image | rfl | operand
    · exact .inr (.inl image)
    · exact .inl (by decide)
    · exact .inr (.inr ⟨format, operand⟩)
  · simp only [BuiltImage.signCommand, List.mem_append, List.mem_cons, List.not_mem_nil,
      or_false] at member
    rcases member with ((rfl | rfl) | key) | image
    · exact .inl (by decide)
    · exact .inl (by decide)
    · exact .inl (keys word key)
    · exact .inr (.inl image)
  · have predicate : ':' ∉ (sbomRelative b.arch attestedFormat).toList :=
      colon_not_mem_sbomRelative noColon (by decide +kernel)
    simp only [BuiltImage.attestCommand, List.mem_append, List.mem_cons, List.not_mem_nil,
      or_false] at member
    rcases member with ((rfl | rfl) | key) | rfl | rfl | rfl | rfl | image
    · exact .inl (by decide)
    · exact .inl (by decide)
    · exact .inl (keys word key)
    · exact .inl (by decide)
    · exact .inl (by decide)
    · exact .inl (by decide)
    · exact .inl predicate
    · exact .inr (.inl image)

/-- No command for an image that is pinned to a digest holds a tag. -/
theorem imageReference_not_mem_args (planned : x ∈ c.releasePlan p b)
    (pinned : b.pinnedReference = c.repository ++ "@" ++ digest) (noColon : ':' ∉ b.arch.toList)
    (noSlash : '/' ∉ c.tag.toList) : c.imageReference a ∉ x.args := by
  intro member
  rcases releasePlan_words planned noColon _ member with unmarked | image | ⟨format, operand⟩
  · exact ne_imageReference unmarked rfl
  · exact pinned_ne_imageReference (image.trans pinned).symm
  · exact sbomOperand_ne_imageReference noColon noSlash operand.symm

/-- Whatever a repository is made of, an image with a digest is referred to by its repository
and the digest, and so it is in every command that is issued to release it, none of which holds
its tag. An image without a digest is referred to by its tag. -/
theorem release_pins_digest (c : Config) (p : Project) (r : Runner) (images : List BuiltImage)
    (s : Session) (a : String) (named : c.repository ≠ "") (noColon : ':' ∉ c.tag.toList)
    (noSlash : '/' ∉ c.tag.toList) (noColon' : ':' ∉ a.toList) :
    (∀ (b : BuiltImage) digest, b.image = c.imageReference a → b.digest = some digest →
      b.pinnedReference = c.repository ++ "@" ++ digest) ∧
    ∃ parts changes, Adds r s ((publish c p r images).exec s).2 parts.flatten changes ∧
      c.Shares p images parts ∧
      List.Forall₂ (fun b xs => b.image = c.imageReference a → ∀ x ∈ xs,
        (∀ digest, b.digest = some digest →
          x.command.image? = some (c.repository ++ "@" ++ digest) ∧
          (':' ∉ b.arch.toList → c.imageReference a ∉ x.command.args)) ∧
        (b.digest = none → x.command.image? = some (c.imageReference a))) images parts := by
  have pinned : ∀ (b : BuiltImage) digest, b.image = c.imageReference a → b.digest = some digest →
      b.pinnedReference = c.repository ++ "@" ++ digest := by
    intro b digest image known
    rw [BuiltImage.pinnedReference, known, image,
      repositoryOf_imageReference named noColon noSlash noColon']
  obtain ⟨parts, changes, added, shares⟩ := publish_shares c p r images s
  refine ⟨pinned, parts, changes, added, shares, shares.each.imp ?_⟩
  intro b xs share image x member
  have planned := share.isPrefix.subset (List.mem_map_of_mem member)
  have about := releasePlan_image planned
  constructor
  · intro digest known
    have reference := pinned b digest image known
    exact ⟨reference ▸ about,
      fun noColon => imageReference_not_mem_args planned reference noColon noSlash⟩
  · intro unknown
    rw [about, BuiltImage.pinnedReference, unknown, image]

/-- A project whose registry has a port. -/
def portDemo : Config := { demo with image := { registry := "localhost:5000", owner := "team" } }

def portImage : BuiltImage := ⟨"arm64", portDemo.imageReference "arm64", some "sha256:12"⟩

theorem portDemo_pins_digest :
    portImage.pinnedReference = "localhost:5000/team/demo@sha256:12" ∧
      ∃ xs changes, Adds (rehearsal "make") {}
        ((publish portDemo demoProject (rehearsal "make") [portImage]).exec {}).2 xs changes ∧
        ∀ x ∈ xs, x.command.image? = some "localhost:5000/team/demo@sha256:12" ∧
          "localhost:5000/team/demo:latest-arm64" ∉ x.command.args := by
  have repository : portDemo.repository = "localhost:5000/team/demo" := by decide +kernel
  have tag : portDemo.imageReference "arm64" = "localhost:5000/team/demo:latest-arm64" := by
    decide +kernel
  obtain ⟨pinned, parts, changes, added, -, each⟩ :=
    release_pins_digest portDemo demoProject (rehearsal "make") [portImage] {} "arm64"
      (by rw [repository]; decide) (by decide +kernel) (by decide +kernel) (by decide)
  rw [repository] at pinned each
  refine ⟨pinned portImage "sha256:12" rfl rfl, parts.flatten, changes, added, ?_⟩
  intro x member
  obtain ⟨xs, rest, first, nothing, rfl⟩ := List.forall₂_cons_left_iff.mp each
  obtain rfl := List.forall₂_nil_left_iff.mp nothing
  rw [List.flatten_cons, List.flatten_nil, List.append_nil] at member
  obtain ⟨image, words⟩ := (first rfl x member).1 "sha256:12" rfl
  exact ⟨image, tag ▸ words (by decide)⟩

end ImagePipeline
