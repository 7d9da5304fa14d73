import ImagePipeline.Proofs.Config.Soundness
import ImagePipeline.Proofs.Text.Pieces
import ImagePipeline.Publication.Steps

/-! The names that are made from an architecture: the reference of its image, and the files
and directories of its builds. All of them hold the architecture with dashes for slashes,
and nothing else of it. -/
namespace ImagePipeline

variable {c : Config} {a b : String}

/-! ### References -/

theorem mem_archSlug {x : Char} (member : x ∈ (archSlug a).toList) : x = '-' ∨ x ∈ a.toList := by
  unfold archSlug Text.replaceChar Text.trimmed at member
  rw [String.toList_ofList, String.toList_ofList] at member
  obtain ⟨y, inTrimmed, rfl⟩ := List.mem_map.mp member
  split
  · exact .inl rfl
  · exact .inr (Text.trim_subset _ inTrimmed)

theorem colon_not_mem_archSlug (noColon : ':' ∉ a.toList) : ':' ∉ (archSlug a).toList := by
  intro member
  rcases mem_archSlug member with dash | inArch
  · exact absurd dash (by decide)
  · exact noColon inArch

theorem slash_not_mem_archSlug : '/' ∉ (archSlug a).toList := by
  unfold archSlug Text.replaceChar
  rw [String.toList_ofList, List.mem_map]
  rintro ⟨y, -, slash⟩
  split at slash
  · contradiction
  · simp_all

theorem imageReference_toList (c : Config) (a : String) :
    (c.imageReference a).toList =
      c.repository.toList ++ ':' :: (c.tag.toList ++ '-' :: (archSlug a).toList) := by
  simp [Config.imageReference]

/-- What stands behind the last colon of a reference is not a path. -/
theorem slash_not_mem_tagged (noSlash : '/' ∉ c.tag.toList) :
    '/' ∉ c.tag.toList ++ '-' :: (archSlug a).toList := by
  simp only [List.mem_append, List.mem_cons, not_or]
  exact ⟨noSlash, by decide, slash_not_mem_archSlug⟩

/-- A reference without its tag is the repository, unless the tag could be taken for
something else. -/
theorem repositoryOf_imageReference (named : c.repository ≠ "") (noColon : ':' ∉ c.tag.toList)
    (noSlash : '/' ∉ c.tag.toList) (noColon' : ':' ∉ a.toList) :
    BuiltImage.repositoryOf (c.imageReference a) = c.repository := by
  have unmarked : ':' ∉ c.tag.toList ++ '-' :: (archSlug a).toList := by
    simp only [List.mem_append, List.mem_cons, not_or]
    exact ⟨noColon, by decide, colon_not_mem_archSlug noColon'⟩
  have unslashed : '/' ∉ c.tag.toList ++ '-' :: (archSlug a).toList := slash_not_mem_tagged noSlash
  unfold BuiltImage.repositoryOf
  rw [imageReference_toList, Text.cutLast_append unmarked]
  simp [unslashed, named]

/-! ### Keeping architectures apart -/

theorem imageReference_inj : c.imageReference a = c.imageReference b ↔ archSlug a = archSlug b :=
  String.append_right_inj _

theorem metadataRelative_inj : metadataRelative a = metadataRelative b ↔ archSlug a = archSlug b :=
  (String.append_left_inj _).trans (String.append_right_inj _)

theorem cacheRelative_inj : cacheRelative a = cacheRelative b ↔ archSlug a = archSlug b :=
  String.append_right_inj _

theorem sbomRelative_inj {format : String} :
    sbomRelative a format = sbomRelative b format ↔ archSlug a = archSlug b :=
  (String.append_left_inj _).trans <| (String.append_left_inj _).trans (String.append_right_inj _)

/-- Texts with a dot inside are equal just if their parts are, or if one text goes on in front of
its dot with what the other has behind its own. -/
theorem dotted_append_eq_iff {a b x y : String} : a ++ "." ++ x = b ++ "." ++ y ↔
    (a = b ∧ x = y) ∨ ∃ more,
      (b = a ++ "." ++ more ∧ x = more ++ "." ++ y) ∨
      (a = b ++ "." ++ more ∧ y = more ++ "." ++ x) := by
  have dot : ".".toList = ['.'] := rfl
  simp only [← String.toList_inj, String.toList_append, dot, List.append_assoc,
    List.singleton_append]
  refine Text.append_cons_eq_iff.trans (or_congr_right ⟨?_, ?_⟩)
  · rintro ⟨t, cut⟩
    refine ⟨String.ofList t, ?_⟩
    rwa [String.toList_ofList]
  · rintro ⟨more, cut⟩
    exact ⟨more.toList, cut⟩

/-- Two bills of materials have one file just if both their architectures and the endings of their
formats are the same, or if one architecture goes on with what the other ending begins with. -/
theorem sbomRelative_eq_iff {format other : String} :
    sbomRelative a format = sbomRelative b other ↔
      (archSlug a = archSlug b ∧ sbomExtension format = sbomExtension other) ∨ ∃ more,
        (archSlug b = archSlug a ++ "." ++ more ∧
          sbomExtension format = more ++ "." ++ sbomExtension other) ∨
        (archSlug a = archSlug b ++ "." ++ more ∧
          sbomExtension other = more ++ "." ++ sbomExtension format) := by
  rw [← dotted_append_eq_iff]
  simp only [sbomRelative, String.append_assoc, String.append_right_inj]

/-- Nothing is trimmed off an architecture that the check has passed. -/
theorem Config.Valid.archSlug_eq {p : Project} {t : FileTree} (valid : c.Valid p t)
    (member : a ∈ c.base.architectures) : archSlug a = Text.replaceChar '/' '-' a := by
  have visible : ∀ x ∈ a.toList, Text.isBlank x = false := by
    simpa using (valid.architecture a member).2
  rw [archSlug, Text.trimmed, Text.trim_of_visible visible, String.ofList_toList]

/-- Two architectures of a configuration without errors share a name just if they are equal
but for slashes in place of dashes, and then they share every name. In two formats their bills of
materials can share a file otherwise too: if one of them is the other with a dot and more behind it,
and the ending of a format has the same in front of that of the other format. -/
theorem checked_names_agree_iff (c : Config) (p : Project) (t : FileTree) (a b : String)
    (clean : (c.check p t).errors = []) (first : a ∈ c.base.architectures)
    (second : b ∈ c.base.architectures) :
    (c.imageReference a = c.imageReference b ↔
      Text.replaceChar '/' '-' a = Text.replaceChar '/' '-' b) ∧
    (metadataRelative a = metadataRelative b ↔
      Text.replaceChar '/' '-' a = Text.replaceChar '/' '-' b) ∧
    (cacheRelative a = cacheRelative b ↔
      Text.replaceChar '/' '-' a = Text.replaceChar '/' '-' b) ∧
    (∀ format, sbomRelative a format = sbomRelative b format ↔
      Text.replaceChar '/' '-' a = Text.replaceChar '/' '-' b) ∧
    ∀ format other, sbomRelative a format = sbomRelative b other ↔
      (Text.replaceChar '/' '-' a = Text.replaceChar '/' '-' b ∧
        sbomExtension format = sbomExtension other) ∨ ∃ more,
        (Text.replaceChar '/' '-' b = Text.replaceChar '/' '-' a ++ "." ++ more ∧
          sbomExtension format = more ++ "." ++ sbomExtension other) ∨
        (Text.replaceChar '/' '-' a = Text.replaceChar '/' '-' b ++ "." ++ more ∧
          sbomExtension other = more ++ "." ++ sbomExtension format) := by
  have valid := Config.check_clean_iff.mp clean
  rw [← valid.archSlug_eq first, ← valid.archSlug_eq second]
  exact ⟨imageReference_inj, metadataRelative_inj, cacheRelative_inj, fun _ => sbomRelative_inj,
    fun _ _ => sbomRelative_eq_iff⟩

/-- A project for four architectures: two of them have one name, and one goes on behind another. -/
def armDemo : Config where
  name := "demo"
  base := { template := "debian", architectures := ["arm/v7", "arm64", "arm-v7", "arm64.cdx"] }
  output := { sbom := { enabled := true, formats := ["cyclonedx-xml", "xml"] } }

theorem armDemo_kept_apart :
    (armDemo.check demoProject demoFiles).errors = [] ∧
      armDemo.imageReference "arm/v7" ≠ armDemo.imageReference "arm64" ∧
      (∀ format other, sbomRelative "arm/v7" format ≠ sbomRelative "arm64" other) ∧
      ∀ format, sbomRelative "arm64" format ≠ sbomRelative "arm64.cdx" format := by
  have clean : (armDemo.check demoProject demoFiles).errors = [] := by decide +kernel
  have dashed : Text.replaceChar '/' '-' "arm/v7" = "arm-v7" := by decide +kernel
  have plain : Text.replaceChar '/' '-' "arm64" = "arm64" := by decide +kernel
  have dotted : Text.replaceChar '/' '-' "arm64.cdx" = "arm64.cdx" := by decide +kernel
  obtain ⟨reference, -, -, -, across⟩ := checked_names_agree_iff armDemo demoProject demoFiles
    "arm/v7" "arm64" clean (by decide) (by decide)
  obtain ⟨-, -, -, sbom, -⟩ := checked_names_agree_iff armDemo demoProject demoFiles
    "arm64" "arm64.cdx" clean (by decide) (by decide)
  rw [dashed, plain] at reference
  rw [plain, dotted] at sbom
  refine ⟨clean, fun same => absurd (reference.mp same) (by decide), fun format other same => ?_,
    fun format same => absurd ((sbom format).mp same) (by decide)⟩
  have cuts := (across format other).mp same
  rw [dashed, plain] at cuts
  rcases cuts with ⟨equal, -⟩ | ⟨more, ⟨longer, -⟩ | ⟨longer, -⟩⟩
  · exact absurd equal (by decide)
  · have chars := congrArg String.toList longer
    simp at chars
  · have chars := congrArg String.toList longer
    simp at chars

/-- A slash and a dash are not told apart, nor is the ending of an architecture from that of a
format, and the check does not mind. -/
theorem armDemo_names_shared :
    (armDemo.check demoProject demoFiles).errors = [] ∧
    ("arm/v7" ∈ armDemo.base.architectures ∧ "arm-v7" ∈ armDemo.base.architectures ∧
      "arm/v7" ≠ "arm-v7" ∧
      armDemo.imageReference "arm/v7" = armDemo.imageReference "arm-v7" ∧
      metadataRelative "arm/v7" = metadataRelative "arm-v7" ∧
      cacheRelative "arm/v7" = cacheRelative "arm-v7" ∧
      ∀ format ∈ armDemo.sbomFormats,
        sbomRelative "arm/v7" format = sbomRelative "arm-v7" format) ∧
    ("arm64" ∈ armDemo.base.architectures ∧ "arm64.cdx" ∈ armDemo.base.architectures ∧
      "cyclonedx-xml" ∈ armDemo.sbomFormats ∧ "xml" ∈ armDemo.sbomFormats ∧
      sbomRelative "arm64" "cyclonedx-xml" = ".foundry/sbom/arm64.cdx.xml" ∧
      sbomRelative "arm64.cdx" "xml" = ".foundry/sbom/arm64.cdx.xml") := by
  decide +kernel

end ImagePipeline
