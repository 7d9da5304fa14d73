import ImagePipeline.Matrix.Basic
import ImagePipeline.Proofs.Path.Pattern

/-! What a list of changed files comes to. File after file adds the bases whose Dockerfile it is,
and a file that every image depends on makes an end of it. -/
namespace ImagePipeline

open PathPattern (Describes)

theorem isShared_iff_described {file : String} :
    isShared file = true ↔ ∃ pattern ∈ sharedPatterns, Describes pattern file := by
  simp only [isShared, List.any_eq_true, List.mem_filterMap, Describes]
  constructor
  · rintro ⟨p, ⟨pattern, listed, read⟩, accepted⟩
    exact ⟨pattern, listed, p, read, accepted⟩
  · rintro ⟨pattern, listed, p, read, accepted⟩
    exact ⟨p, ⟨pattern, listed, read⟩, accepted⟩

/-- The patterns describe the shared files and everything in the shared directories. -/
theorem isShared_iff_listed {file : String} :
    isShared file = true ↔
      file ∈ sharedFiles ∨ ∃ dir ∈ sharedDirs, dir.toList <+: file.toList := by
  have files : ∀ name ∈ sharedFiles, PathPattern.isPlain name.toList = true := by decide
  have dirs : ∀ dir ∈ sharedDirs, PathPattern.isPlain dir.toList = true := by decide
  have closed : ∀ dir ∈ sharedDirs, PathPattern.startsBehind true dir.toList = true := by decide
  rw [isShared_iff_described]
  constructor
  · rintro ⟨pattern, listed, described⟩
    rcases List.mem_append.mp listed with name | below
    · exact .inl ((PathPattern.describes_literal_iff (files _ name)).mp described ▸ name)
    · obtain ⟨dir, member, rfl⟩ := List.mem_map.mp below
      have front := (PathPattern.describes_below_iff (dirs dir member) (closed dir member)).mp
        described
      exact .inr ⟨dir, member, front⟩
  · rintro (name | ⟨dir, member, front⟩)
    · exact ⟨file, List.mem_append_left _ name,
        (PathPattern.describes_literal_iff (files file name)).mpr rfl⟩
    · exact ⟨_, List.mem_append_right _ (List.mem_map_of_mem member),
        (PathPattern.describes_below_iff (dirs dir member) (closed dir member)).mpr front⟩

/-- What has been found stays found. -/
theorem affectedFrom_eq (found : List BaseImage) (files : List String) :
    affectedFrom found files =
      if files.any isShared then BaseImage.all
      else BaseImage.all.filter fun b =>
        found.contains b || files.contains (templateRelative b.name) := by
  induction files generalizing found with
  | nil =>
    rw [affectedFrom]
    simp only [List.any_nil, Bool.false_eq_true, if_false, List.contains_nil, Bool.or_false]
  | cons file files ih =>
    rw [affectedFrom, List.any_cons]
    cases isShared file with
    | true => rfl
    | false =>
      rw [if_neg Bool.false_ne_true, ih, Bool.false_or]
      congr 1
      refine List.filter_congr fun b listed => ?_
      have own : (BaseImage.all.filter fun b => file == templateRelative b.name).contains b =
          (templateRelative b.name == file) := by
        rw [Bool.eq_iff_iff, List.contains_iff_mem, List.mem_filter, beq_iff_eq, beq_iff_eq,
          and_iff_right listed, eq_comm]
      rw [List.contains_append, own, List.contains_cons, Bool.or_assoc]

theorem affectedBases_eq (files : List String) :
    affectedBases files =
      if files.any isShared then BaseImage.all
      else BaseImage.all.filter fun b => files.contains (templateRelative b.name) :=
  affectedFrom_eq [] files

end ImagePipeline
