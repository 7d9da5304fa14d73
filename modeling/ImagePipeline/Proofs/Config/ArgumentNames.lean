import ImagePipeline.Proofs.Config.Soundness
import Mathlib.Data.List.Forall2

/-! The names of the build arguments. A build argument takes the name of its tool in capitals
and with underscores, so tools whose names differ in no more than that share an argument. -/
namespace ImagePipeline

/-! ### Characters that a build argument does not tell apart -/

/-- A character of a tool's name as it stands in a build argument. -/
def argumentChar (c : Char) : Char :=
  if c == '-' || c == '.' || c == ' ' then '_' else c.toUpper

/-- A mark between the parts of a name. -/
def IsSeparator (c : Char) : Prop := c = '-' ∨ c = '.' ∨ c = ' ' ∨ c = '_'

/-- The same letter in either case, or two marks. -/
def AlikeChar (a b : Char) : Prop := a.toLower = b.toLower ∨ IsSeparator a ∧ IsSeparator b

instance (c : Char) : Decidable (IsSeparator c) := inferInstanceAs (Decidable (_ ∨ _))

instance (a b : Char) : Decidable (AlikeChar a b) := inferInstanceAs (Decidable (_ ∨ _))

theorem toNat_toUpper (c : Char) :
    c.toUpper.toNat = if 97 ≤ c.toNat ∧ c.toNat ≤ 122 then c.toNat - 32 else c.toNat := by
  have small : 'a'.val ≤ c.val ∧ c.val ≤ 'z'.val ↔ 97 ≤ c.toNat ∧ c.toNat ≤ 122 := Iff.rfl
  unfold Char.toUpper
  split
  · rename_i letter
    have range : 97 ≤ c.val.toNat ∧ c.val.toNat ≤ 122 := small.mp letter
    have distance : ('A'.val - 'a'.val).toNat = 2 ^ 32 - 32 := by decide
    rw [if_pos (small.mp letter)]
    change (c.val + ('A'.val - 'a'.val)).toNat = c.val.toNat - 32
    rw [UInt32.toNat_add]
    omega
  · rename_i other
    rw [if_neg fun range => other (small.mpr range)]

theorem toNat_toLower (c : Char) :
    c.toLower.toNat = if 65 ≤ c.toNat ∧ c.toNat ≤ 90 then c.toNat + 32 else c.toNat := by
  have capital : c.val ≥ 'A'.val ∧ c.val ≤ 'Z'.val ↔ 65 ≤ c.toNat ∧ c.toNat ≤ 90 := Iff.rfl
  unfold Char.toLower
  split
  · rename_i letter
    have range : 65 ≤ c.val.toNat ∧ c.val.toNat ≤ 90 := capital.mp letter
    have distance : ('a'.val - 'A'.val).toNat = 32 := by decide
    rw [if_pos (capital.mp letter)]
    change (c.val + ('a'.val - 'A'.val)).toNat = c.val.toNat + 32
    rw [UInt32.toNat_add]
    omega
  · rename_i other
    rw [if_neg fun range => other (capital.mpr range)]

theorem toUpper_eq_iff {a b : Char} : a.toUpper = b.toUpper ↔ a.toLower = b.toLower := by
  simp only [← Char.toNat_inj, toNat_toUpper, toNat_toLower]
  split <;> split <;> split <;> split <;> omega

/-- Only a mark has the capital form of a mark. -/
theorem toUpper_eq_mark_iff {c mark : Char}
    (unlettered : mark.toNat < 65 ∨ 90 < mark.toNat ∧ mark.toNat < 97) :
    c.toUpper = mark ↔ c = mark := by
  rw [← Char.toNat_inj, ← Char.toNat_inj, toNat_toUpper]
  split <;> omega

theorem argumentChar_of_separator {c : Char} (separator : IsSeparator c) :
    argumentChar c = '_' := by
  obtain rfl | rfl | rfl | rfl := separator <;> rfl

theorem argumentChar_of_other {c : Char} (other : ¬ IsSeparator c) :
    argumentChar c = c.toUpper ∧ c.toUpper ≠ '_' := by
  simp only [IsSeparator, not_or] at other
  obtain ⟨dash, dot, space, underscore⟩ := other
  refine ⟨by simp [argumentChar, dash, dot, space], ?_⟩
  rwa [ne_eq, toUpper_eq_mark_iff (by decide)]

theorem isSeparator_of_toLower {a b : Char} (same : a.toLower = b.toLower)
    (separator : IsSeparator a) : IsSeparator b := by
  have upper : b.toUpper = a.toUpper := toUpper_eq_iff.mpr same.symm
  suffices b = a from this ▸ separator
  obtain rfl | rfl | rfl | rfl := separator <;>
    exact (toUpper_eq_mark_iff (by decide)).mp upper

theorem argumentChar_eq_iff {a b : Char} : argumentChar a = argumentChar b ↔ AlikeChar a b := by
  by_cases first : IsSeparator a
  · by_cases second : IsSeparator b
    · rw [argumentChar_of_separator first, argumentChar_of_separator second]
      exact ⟨fun _ => .inr ⟨first, second⟩, fun _ => rfl⟩
    · obtain ⟨upper, apart⟩ := argumentChar_of_other second
      rw [argumentChar_of_separator first, upper]
      refine ⟨fun same => absurd same.symm apart, ?_⟩
      rintro (same | ⟨-, separator⟩)
      · exact absurd (isSeparator_of_toLower same first) second
      · exact absurd separator second
  · obtain ⟨upper, apart⟩ := argumentChar_of_other first
    rw [upper]
    by_cases second : IsSeparator b
    · rw [argumentChar_of_separator second]
      refine ⟨fun same => absurd same apart, ?_⟩
      rintro (same | ⟨separator, -⟩)
      · exact absurd (isSeparator_of_toLower same.symm second) first
      · exact absurd separator first
    · rw [(argumentChar_of_other second).1, toUpper_eq_iff]
      refine ⟨.inl, ?_⟩
      rintro (same | ⟨separator, -⟩)
      · exact same
      · exact absurd separator first

/-- The sign behind the name of an argument stays as it is, and nothing else becomes one. -/
theorem argumentChar_eq_sign_iff {c : Char} : argumentChar c = '=' ↔ c = '=' := by
  by_cases separator : IsSeparator c
  · rw [argumentChar_of_separator separator]
    obtain rfl | rfl | rfl | rfl := separator <;> decide
  · rw [(argumentChar_of_other separator).1, toUpper_eq_mark_iff (by decide)]

/-! ### Names of arguments -/

/-- The name that an argument gives a value to: all in front of its first equals sign. -/
def argumentName (argument : String) : List Char := argument.toList.takeWhile (· != '=')

/-- The argument that counts for a name: of several ones the last. -/
def lastNamed? (arguments : List String) (name : List Char) : Option String :=
  (arguments.filter fun argument => argumentName argument == name).getLast?

/-- A tool's name as far as its build argument is named after it. -/
def argumentStem (tool : String) : List Char :=
  (Text.trim tool.toList ++ "_VERSION".toList).takeWhile (· != '=')

/-- Names of tools that a build argument does not tell apart. -/
def AlikeNames (a b : String) : Prop :=
  List.Forall₂ AlikeChar (argumentStem a) (argumentStem b)

instance (a b : String) : Decidable (AlikeNames a b) :=
  inferInstanceAs (Decidable (List.Forall₂ _ _ _))

/-- The build argument with the version of a tool. -/
def versionArgument (tool : String × Tool) : String :=
  buildArgName tool.1 ++ "_VERSION=" ++ Text.trimmed tool.2.version

theorem argumentName_versionArgument (tool : String × Tool) :
    argumentName (versionArgument tool) = (argumentStem tool.1).map argumentChar := by
  have written : (versionArgument tool).toList =
      (Text.trim tool.1.toList ++ "_VERSION".toList).map argumentChar ++
        '=' :: (Text.trimmed tool.2.version).toList := by
    rw [List.map_append, show "_VERSION".toList.map argumentChar = "_VERSION".toList by decide]
    simp [versionArgument, buildArgName, argumentChar]
  have marks : (fun c => c != '=') ∘ argumentChar = fun c => c != '=' := by
    funext c
    rw [Function.comp_apply, Bool.eq_iff_iff, bne_iff_ne, bne_iff_ne, ne_eq,
      argumentChar_eq_sign_iff]
  -- The name ends at the sign in front of the version, or at one in the tool's name.
  rw [argumentName, written, List.takeWhile_append, List.takeWhile_cons_of_neg (by decide),
    List.append_nil, argumentStem]
  split
  · rename_i whole
    rw [List.takeWhile_map, marks] at whole
    rw [(List.takeWhile_prefix _).eq_of_length (by simpa using whole)]
  · rw [List.takeWhile_map, marks]

theorem argumentName_eq_iff {a b : String × Tool} :
    argumentName (versionArgument a) = argumentName (versionArgument b) ↔
      AlikeNames a.1 b.1 := by
  simp only [argumentName_versionArgument, AlikeNames, ← List.forall₂_eq_eq_eq,
    List.forall₂_map_left_iff, List.forall₂_map_right_iff, argumentChar_eq_iff]

namespace Config

/-- The installed tools of all categories that have a version. -/
def pinnedTools (c : Config) : List (String × Tool) :=
  (c.tools.all.filter fun (_, _, tool) => tool.install && !Text.isBlankText tool.version).map
    Prod.snd

theorem toolBuildArgs_eq (c : Config) : c.toolBuildArgs = c.pinnedTools.map versionArgument := by
  rw [pinnedTools, List.map_map]
  rfl

/-- Two build arguments have one name just if their tools have names that are alike. So all names
are different just if no two installed tools with versions have such names, and the version of a
tool is the one that counts unless a tool behind it has a name that is alike. -/
theorem toolBuildArgs_names_agree_iff (c : Config) :
    c.toolBuildArgs = c.pinnedTools.map versionArgument ∧
    (∀ a b, argumentName (versionArgument a) = argumentName (versionArgument b) ↔
      AlikeNames a.1 b.1) ∧
    ((c.toolBuildArgs.map argumentName).Nodup ↔
      c.pinnedTools.Pairwise fun a b => ¬ AlikeNames a.1 b.1) ∧
    ∀ before tool after, c.pinnedTools = before ++ tool :: after →
      (∀ other ∈ after, ¬ AlikeNames tool.1 other.1) →
      lastNamed? c.toolBuildArgs (argumentName (versionArgument tool)) =
        some (versionArgument tool) := by
  refine ⟨c.toolBuildArgs_eq, fun a b => argumentName_eq_iff, ?_, ?_⟩
  · rw [c.toolBuildArgs_eq, List.nodup_iff_pairwise_ne, List.pairwise_map, List.pairwise_map]
    simp only [ne_eq, argumentName_eq_iff]
  · intro before tool after split apart
    have behind : (after.map versionArgument).filter (fun argument =>
        argumentName argument == argumentName (versionArgument tool)) = [] := by
      simp only [List.filter_eq_nil_iff, List.mem_map, beq_iff_eq]
      rintro _ ⟨other, member, rfl⟩ same
      exact apart other member (argumentName_eq_iff.mp same.symm)
    rw [lastNamed?, c.toolBuildArgs_eq, split, List.map_append, List.filter_append, List.map_cons,
      List.filter_cons, if_pos (beq_self_eq_true _), behind, List.getLast?_concat]

/-- Tools of two categories with names that are alike. -/
def capitalDemo : Config where
  name := "demo"
  base := { template := "debian", architectures := ["amd64"] }
  tools := {
    languages := .ofList [("go", ⟨true, "1.22.0"⟩)]
    devops := .ofList [("Go", ⟨true, "1.21.0"⟩), ("kubectl", ⟨true, "1.30.0"⟩)] }

theorem capitalDemo_pinned : capitalDemo.pinnedTools =
    [("go", ⟨true, "1.22.0"⟩), ("Go", ⟨true, "1.21.0"⟩), ("kubectl", ⟨true, "1.30.0"⟩)] := by
  decide +kernel

theorem capitalDemo_last_version :
    (∀ other ∈ [(("kubectl", ⟨true, "1.30.0"⟩) : String × Tool)], ¬ AlikeNames "Go" other.1) ∧
    lastNamed? capitalDemo.toolBuildArgs "GO_VERSION".toList = some "GO_VERSION=1.21.0" := by
  have apart : ∀ other ∈ [(("kubectl", ⟨true, "1.30.0"⟩) : String × Tool)],
      ¬ AlikeNames "Go" other.1 := by decide +kernel
  have name : argumentName (versionArgument ("Go", ⟨true, "1.21.0"⟩)) = "GO_VERSION".toList := by
    decide +kernel
  obtain ⟨-, -, -, counts⟩ := toolBuildArgs_names_agree_iff capitalDemo
  refine ⟨apart, ?_⟩
  rw [← name, counts [_] _ _ capitalDemo_pinned apart]
  decide +kernel

/-- The check does not mind tools that share an argument. -/
theorem argument_shared_unnoticed :
    ¬ ∀ (c : Config) (p : Project) (t : FileTree), (c.check p t).errors = [] →
      (c.toolBuildArgs.map argumentName).Nodup := by
  intro distinct
  have clean : (capitalDemo.check demoProject demoFiles).errors = [] := by decide +kernel
  have shared : ¬ (capitalDemo.toolBuildArgs.map argumentName).Nodup := by decide +kernel
  exact shared (distinct capitalDemo demoProject demoFiles clean)

end Config

end ImagePipeline
