import ImagePipeline.Project
import ImagePipeline.Proofs.Path.Components

/-! Paths as they are seen from the root of a project. Seen from there a path is the path that it
was, however both are spelled, so that it leads to the same place in every tree of files. -/
namespace ImagePipeline

open FileTree (stepsOf)

/-! ### Spellings -/

/-- How a component is written behind a slash. -/
def Component.step : Component → String
  | root | here => ""
  | parent => ".."
  | name s => s

namespace FileTree

variable {p q : Path}

theorem stepsOf_eq_map (p : Path) : stepsOf p = (Path.inner p.chars).map Component.step := by
  unfold stepsOf Path.inner
  induction Text.splitAt '/' p.chars with
  | nil => rfl
  | cons piece pieces ih =>
    rw [List.filter_cons, List.filterMap_cons, Path.componentOf?]
    cases none : piece.isEmpty || piece == ['.'] with
    | true => simpa using ih
    | false =>
      by_cases dots : piece = ['.', '.'] <;> simpa [dots, Component.step] using ih

/-- A character that no slash and no dot is stands in a path just if it stands in a step. -/
theorem mem_chars_iff {c : Char} (slash : c ≠ '/') (dot : c ≠ '.') :
    c ∈ p.chars ↔ ∃ step ∈ stepsOf p, c ∈ step.toList := by
  rw [Text.mem_iff_mem_splitAt slash]
  constructor
  · rintro ⟨piece, among, inside⟩
    have given : (!(piece.isEmpty || piece == ['.'])) = true := by
      have some : piece ≠ [] := List.ne_nil_of_mem inside
      have other : piece ≠ ['.'] := by
        rintro rfl
        exact dot (List.mem_singleton.mp inside)
      simp [some, other]
    exact ⟨String.ofList piece, List.mem_map_of_mem (List.mem_filter.mpr ⟨among, given⟩),
      by rwa [String.toList_ofList]⟩
  · rintro ⟨step, member, inside⟩
    obtain ⟨piece, given, rfl⟩ := List.mem_map.mp member
    exact ⟨piece, (List.mem_filter.mp given).1, by rwa [String.toList_ofList] at inside⟩

/-- Absolute paths with the same components lead to the same place. -/
theorem locate_congr (t : FileTree) (first : p.isAbsolute = true) (second : q.isAbsolute = true)
    (same : p.components = q.components) : t.locate p = t.locate q := by
  rw [Path.components_of_absolute first, Path.components_of_absolute second] at same
  have steps : stepsOf p = stepsOf q := by
    rw [stepsOf_eq_map, stepsOf_eq_map, (List.cons.inj same).2]
  have given {r : Path} (absolute : r.isAbsolute = true) : r.isEmpty = false := by
    obtain ⟨cs, chars, -⟩ := Path.leading_of_absolute absolute
    rw [Path.isEmpty, ← Bool.not_eq_true, String.isEmpty_iff]
    intro empty
    rw [Path.chars, empty] at chars
    cases chars
  have zeros : p.chars.contains '\x00' = q.chars.contains '\x00' := by
    rw [Bool.eq_iff_iff, List.contains_iff_mem, List.contains_iff_mem,
      mem_chars_iff (by decide) (by decide), mem_chars_iff (by decide) (by decide), steps]
  rw [locate, locate, given first, given second, zeros, steps]

end FileTree

/-! ### Paths from the root -/

namespace Project

/-- A path is seen without the components of a root above it, or with all of its own. -/
theorem relative_cases (p : Project) {q : Path} (absolute : q.isAbsolute = true) :
    ((p.root.isAbsolute = true ∧ p.root.components <+: q.components) ∧
      (p.relative q).isAbsolute = false ∧
      Path.inner q.chars = Path.inner p.root.chars ++ Path.inner (p.relative q).chars) ∨
    (¬(p.root.isAbsolute = true ∧ p.root.components <+: q.components) ∧
      (p.relative q).isAbsolute = true ∧ Path.inner q.chars = Path.inner (p.relative q).chars) := by
  unfold relative
  by_cases above : p.root.components <+: q.components
  · cases root : p.root.isAbsolute with
    | true =>
      obtain ⟨rest, found, below, parts⟩ := Path.below?_of_absolute root above
      rw [found]
      exact .inl ⟨⟨rfl, above⟩, below, parts⟩
    | false =>
      obtain ⟨rest, found, whole, parts⟩ := Path.below?_of_relative root absolute above
      rw [found]
      exact .inr ⟨fun both => Bool.false_ne_true both.1, whole, parts.symm⟩
  · rw [Path.below?_eq_none above]
    exact .inr ⟨fun both => above both.2, absolute, rfl⟩

/-- A path seen from the root of a project and looked up there is the path that it was, by its
components and by the place where it leads in any tree of files. It is seen as a relative path just
if the root is absolute and lies above it. -/
theorem relative_names_same_place (p : Project) (q : Path) (absolute : q.isAbsolute = true) :
    (p.path (p.relative q).text).components = q.components ∧
    ((p.relative q).isAbsolute = false ↔
      p.root.isAbsolute = true ∧ p.root.components <+: q.components) ∧
    ∀ t : FileTree, t.locate (p.path (p.relative q).text) = t.locate q := by
  have looked : (p.path (p.relative q).text).isAbsolute = true ∧
      Path.inner (p.path (p.relative q).text).chars = Path.inner q.chars := by
    rcases p.relative_cases absolute with ⟨⟨root, -⟩, below, parts⟩ | ⟨-, whole, parts⟩
    · exact ⟨Path.isAbsolute_join root, (Path.inner_join below).trans parts.symm⟩
    · rw [path, Path.join, if_pos whole]
      exact ⟨whole, parts.symm⟩
  have same : (p.path (p.relative q).text).components = q.components := by
    rw [Path.components_of_absolute looked.1, Path.components_of_absolute absolute, looked.2]
  refine ⟨same, ?_, fun t => t.locate_congr looked.1 absolute same⟩
  rcases p.relative_cases absolute with ⟨above, below, -⟩ | ⟨apart, whole, -⟩
  · exact iff_of_true below above
  · exact iff_of_false (by simp [whole]) apart

/-- A project whose root is not spelled as plainly as it could be. -/
def dottedDemo : Project := .ofRoot ⟨"/work/./"⟩ ⟨defaultConfigFile⟩

/-- A path that leaves the root again is cut off behind it. -/
theorem dottedDemo_relative :
    Path.isAbsolute ⟨"//work/../etc//x/."⟩ = true ∧
    dottedDemo.relative ⟨"//work/../etc//x/."⟩ = ⟨"../etc//x"⟩ ∧
    (dottedDemo.path "../etc//x").components =
      [.root, .name "work", .parent, .name "etc", .name "x"] ∧
    ∀ t : FileTree, t.locate (dottedDemo.path "../etc//x") = t.locate ⟨"//work/../etc//x/."⟩ := by
  have absolute : Path.isAbsolute ⟨"//work/../etc//x/."⟩ = true := by decide +kernel
  have seen : dottedDemo.relative ⟨"//work/../etc//x/."⟩ = ⟨"../etc//x"⟩ := by decide +kernel
  obtain ⟨same, -, place⟩ := dottedDemo.relative_names_same_place ⟨"//work/../etc//x/."⟩ absolute
  rw [seen] at same place
  exact ⟨absolute, seen, same.trans (by decide +kernel), place⟩

/-- A directory whose name starts like that of the root does not lie below it. -/
example : dottedDemo.relative ⟨"/workshop/x"⟩ = ⟨"/workshop/x"⟩ := by decide +kernel

end Project

end ImagePipeline
