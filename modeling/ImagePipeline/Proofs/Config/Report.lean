import ImagePipeline.Proofs.Config.Check
import ImagePipeline.Proofs.Text.Blank
import Mathlib.Data.List.Count

/-! What a check reports. Errors are listed in the order of what is required, and an architecture
that is listed again is a warning for each time that it is. -/
namespace ImagePipeline

/-- Where an error stands in a report: what is required comes first, field by field, then the single
architectures, then everything else. -/
def ConfigError.rank : ConfigError → Nat
  | .nameRequired => 0
  | .templateRequired => 1
  | .architectureRequired => 2
  | .templateMissing _ _ => 3
  | .emptyArchitecture _ | .architectureWithBlank _ => 4
  | .emptyPackage | .unknownStandard _ | .unknownAnalyzer _ | .invalidTimeout _
  | .unknownBenchmark _ | .attestationWithoutSbom => 5

/-- Errors in the order of their ranks. -/
def Ranked (errors : List ConfigError) : Prop := errors.Pairwise fun a b => a.rank ≤ b.rank

namespace Ranked

variable {front back : List ConfigError} {n : Nat}

theorem of_same (same : ∀ e ∈ front, e.rank = n) : Ranked front := by
  refine List.Pairwise.imp_of_mem ?_ (List.pairwise_of_forall fun _ _ => trivial)
  intro a b inside inside' _
  exact Nat.le_of_eq ((same a inside).trans (same b inside').symm)

theorem append (first : Ranked front) (second : Ranked back) (below : ∀ e ∈ front, e.rank ≤ n)
    (above : ∀ e ∈ back, n ≤ e.rank) : Ranked (front ++ back) := by
  refine List.pairwise_append.mpr ⟨first, second, fun a inFront b inBack => ?_⟩
  exact Nat.le_trans (below a inFront) (above b inBack)

end Ranked

@[simp] theorem mem_presentIf {α : Type} {condition : Bool} {a b : α} :
    b ∈ presentIf condition a ↔ condition = true ∧ b = a := by
  cases condition <;> simp [presentIf]

namespace Config

variable {c : Config} {p : Project} {t : FileTree}

/-- An architecture that is neither blank nor has a blank in it. -/
def soundArchitecture (arch : String) : Bool :=
  !Text.isBlankText arch && !arch.toList.any Text.isBlank

theorem soundArchitecture_iff {arch : String} {position : Nat} :
    soundArchitecture arch = (architectureError? position arch).isNone := by
  rw [Bool.eq_iff_iff, Option.isNone_iff_eq_none, architectureError?_eq_none, soundArchitecture]
  simp

/-! ### The order of the errors -/

theorem requiredErrors_ranked : Ranked (c.requiredErrors p t) ∧
    ∀ e ∈ c.requiredErrors p t, e.rank ≤ 3 := by
  unfold requiredErrors Ranked
  dsimp only
  generalize Text.isBlankText c.name = unnamed
  generalize (!(Text.trimmed c.base.template).isEmpty && !t.isFile _) = missing
  generalize (Text.trimmed c.base.template).isEmpty = untemplated
  generalize c.base.architectures.isEmpty = unbuilt
  cases unnamed <;> cases untemplated <;> cases unbuilt <;> cases missing <;>
    simp [presentIf, ConfigError.rank]

theorem mem_architectureErrors {e : ConfigError} {position : Nat} {archs : List String} :
    e ∈ architectureErrors position archs ↔
      ∃ i, ∃ arch, archs[i]? = some arch ∧ architectureError? (position + i) arch = some e := by
  induction archs generalizing position with
  | nil => simp [architectureErrors]
  | cons arch archs ih =>
    rw [architectureErrors, List.mem_append, Option.mem_toList, ih]
    constructor
    · rintro (here | ⟨i, other, listed, behind⟩)
      · exact ⟨0, arch, rfl, here⟩
      · exact ⟨i + 1, other, listed, by rwa [Nat.add_comm i, ← Nat.add_assoc]⟩
    · rintro ⟨i, other, listed, found⟩
      cases i with
      | zero =>
        cases listed
        exact .inl found
      | succ i => exact .inr ⟨i, other, listed, by rwa [Nat.add_assoc, Nat.add_comm 1]⟩

theorem architectureError?_rank {position : Nat} {arch : String} {e : ConfigError}
    (found : architectureError? position arch = some e) : e.rank = 4 := by
  unfold architectureError? at found
  split at found
  · cases found
    rfl
  · split at found <;> cases found
    rfl

theorem architectureErrors_rank {position : Nat} {archs : List String} :
    ∀ e ∈ architectureErrors position archs, e.rank = 4 := by
  intro e member
  obtain ⟨_, _, -, found⟩ := mem_architectureErrors.mp member
  exact architectureError?_rank found

/-- Errors of what is not required. -/
theorem otherErrors_rank :
    ∀ e ∈ c.packageErrors ++ c.scanErrors ++ c.trialErrors ++ c.publicationErrors, e.rank = 5 := by
  have packages : ∀ e ∈ c.packageErrors, e.rank = 5 := by
    intro e member
    obtain ⟨_, _, rfl⟩ := List.mem_map.mp member
    rfl
  have scans : ∀ e ∈ c.scanErrors, e.rank = 5 := by
    intro e member
    rcases List.mem_append.mp member with standard | analyzer
    · split at standard
      · obtain ⟨_, _, rfl⟩ := List.mem_map.mp standard
        rfl
      · cases standard
    · split at analyzer
      · obtain ⟨_, _, rfl⟩ := List.mem_map.mp analyzer
        rfl
      · cases analyzer
  have trials : ∀ e ∈ c.trialErrors, e.rank = 5 := by
    intro e member
    rcases List.mem_append.mp member with timeout | benchmark
    · obtain ⟨-, rfl⟩ := mem_presentIf.mp timeout
      rfl
    · obtain ⟨-, rfl⟩ := mem_presentIf.mp benchmark
      rfl
  have publication : ∀ e ∈ c.publicationErrors, e.rank = 5 := by
    intro e member
    obtain ⟨-, rfl⟩ := mem_presentIf.mp member
    rfl
  simp only [List.forall_mem_append]
  exact ⟨⟨⟨packages, scans⟩, trials⟩, publication⟩

theorem errors_split : (c.check p t).errors = c.requiredErrors p t ++
    (architectureErrors 1 c.base.architectures ++
      (c.packageErrors ++ c.scanErrors ++ c.trialErrors ++ c.publicationErrors)) := by
  simp only [check, List.append_assoc]

theorem errors_ranked : Ranked (c.check p t).errors := by
  obtain ⟨required, below⟩ := requiredErrors_ranked (c := c) (p := p) (t := t)
  have architectures : ∀ e ∈ architectureErrors 1 c.base.architectures, e.rank = 4 :=
    architectureErrors_rank
  have others := otherErrors_rank (c := c)
  have behind : Ranked (architectureErrors 1 c.base.architectures ++
      (c.packageErrors ++ c.scanErrors ++ c.trialErrors ++ c.publicationErrors)) := by
    refine (Ranked.of_same architectures).append (.of_same others) (n := 4) ?_ ?_
    · exact fun e member => Nat.le_of_eq (architectures e member)
    · intro e member
      rw [others e member]
      decide
  rw [errors_split]
  refine required.append behind below ?_
  rw [List.forall_mem_append]
  constructor
  · intro e member
    rw [architectures e member]
    decide
  · intro e member
    rw [others e member]
    decide

theorem mem_errors_of_rank {e : ConfigError} (rank : e.rank ≤ 4) :
    e ∈ (c.check p t).errors ↔
      e ∈ c.requiredErrors p t ∨ e ∈ architectureErrors 1 c.base.architectures := by
  have others : e ∉ c.packageErrors ++ c.scanErrors ++ c.trialErrors ++ c.publicationErrors := by
    intro member
    have other := otherErrors_rank e member
    omega
  rw [errors_split, List.mem_append, List.mem_append, or_iff_left others]

/-! ### What is required -/

theorem mem_errors_of_required {e : ConfigError} (rank : e.rank ≤ 3) :
    e ∈ (c.check p t).errors ↔ e ∈ c.requiredErrors p t := by
  rw [mem_errors_of_rank (by omega), or_iff_left]
  intro member
  have single := architectureErrors_rank e member
  omega

theorem nameRequired_mem :
    .nameRequired ∈ (c.check p t).errors ↔ Text.isBlankText c.name = true := by
  rw [mem_errors_of_required (by decide)]
  simp [requiredErrors]

theorem templateRequired_mem :
    .templateRequired ∈ (c.check p t).errors ↔ Text.isBlankText c.base.template = true := by
  rw [mem_errors_of_required (by decide), Text.isBlankText_eq]
  simp [requiredErrors]

theorem architectureRequired_mem :
    .architectureRequired ∈ (c.check p t).errors ↔ c.base.architectures = [] := by
  rw [mem_errors_of_required (by decide)]
  simp [requiredErrors]

theorem templateMissing_mem {template : String} {q : Path} :
    .templateMissing template q ∈ (c.check p t).errors ↔
      Text.isBlankText c.base.template = false ∧
      t.isFile (p.templatePath (Text.trimmed c.base.template)) = false ∧
      template = c.base.template ∧
      q = p.relative (p.templatePath (Text.trimmed c.base.template)) := by
  have rank : (ConfigError.templateMissing template q).rank ≤ 3 := Nat.le_refl 3
  rw [mem_errors_of_required rank, Text.isBlankText_eq]
  simp [requiredErrors, and_assoc]

/-! ### Architectures -/

theorem mem_errors_of_architecture {e : ConfigError} (rank : e.rank = 4) :
    e ∈ (c.check p t).errors ↔ ∃ i arch, c.base.architectures[i]? = some arch ∧
      architectureError? (i + 1) arch = some e := by
  rw [mem_errors_of_rank (by omega), or_iff_right, mem_architectureErrors]
  · simp only [Nat.add_comm 1]
  · intro member
    have below := requiredErrors_ranked.2 e member
    omega

theorem emptyArchitecture_mem {n : Nat} : .emptyArchitecture n ∈ (c.check p t).errors ↔
    ∃ i arch, n = i + 1 ∧ c.base.architectures[i]? = some arch ∧
      Text.isBlankText arch = true := by
  rw [mem_errors_of_architecture rfl]
  refine exists_congr fun i => exists_congr fun arch => ?_
  unfold architectureError?
  cases Text.isBlankText arch with
  | true => simp [eq_comm, and_comm]
  | false => cases arch.toList.any Text.isBlank <;> simp

theorem architectureWithBlank_mem {arch : String} :
    .architectureWithBlank arch ∈ (c.check p t).errors ↔ arch ∈ c.base.architectures ∧
      Text.isBlankText arch = false ∧ arch.toList.any Text.isBlank = true := by
  rw [mem_errors_of_architecture rfl, List.mem_iff_getElem?]
  have error {position : Nat} {other : String} :
      architectureError? position other = some (.architectureWithBlank arch) ↔
        other = arch ∧ Text.isBlankText arch = false ∧ arch.toList.any Text.isBlank = true := by
    unfold architectureError?
    by_cases same : other = arch
    · subst same
      cases Text.isBlankText other <;> cases other.toList.any Text.isBlank <;> simp
    · cases Text.isBlankText other <;> cases other.toList.any Text.isBlank <;> simp [same]
  simp only [error]
  constructor
  · rintro ⟨i, _, listed, rfl, blank⟩
    exact ⟨⟨i, listed⟩, blank⟩
  · rintro ⟨⟨i, listed⟩, blank⟩
    exact ⟨i, arch, listed, rfl, blank⟩

/-- An entry is repeated each time that an equal one stands before it. -/
theorem count_repeated {before archs : List String} {arch : String} :
    (repeated before archs).count arch =
      if arch ∈ before then archs.count arch else archs.count arch - 1 := by
  induction archs generalizing before with
  | nil => simp [repeated]
  | cons first archs ih =>
    rw [repeated, List.count_append, ih, List.count_cons]
    by_cases same : first = arch
    · subst same
      by_cases known : first ∈ before <;> simp [presentIf, known]
      omega
    · have other : arch ≠ first := Ne.symm same
      by_cases known : first ∈ before <;> by_cases given : arch ∈ before <;>
        simp [presentIf, known, given, same, other]

theorem count_repeatedArchitecture {arch : String} :
    (c.check p t).warnings.count (.repeatedArchitecture arch) =
      if soundArchitecture arch then c.base.architectures.count arch - 1 else 0 := by
  have others : ConfigWarning.repeatedArchitecture arch ∉
      c.toolWarnings ++ c.scanWarnings ++ c.publicationWarnings ++ c.automationWarnings := by
    simp [toolWarnings, scanWarnings, publicationWarnings, automationWarnings]
  have split : (c.check p t).warnings = c.architectureWarnings ++
      (c.toolWarnings ++ c.scanWarnings ++ c.publicationWarnings ++ c.automationWarnings) := by
    simp only [check, List.append_assoc]
  have sound : (fun a => (architectureError? 1 a).isNone) = soundArchitecture :=
    funext fun _ => soundArchitecture_iff.symm
  have distinct : Function.Injective ConfigWarning.repeatedArchitecture :=
    fun _ _ same => ConfigWarning.repeatedArchitecture.inj same
  rw [split, List.count_append, List.count_eq_zero_of_not_mem others, Nat.add_zero,
    architectureWarnings, List.count_map_of_injective _ _ distinct, sound, count_repeated]
  cases valid : soundArchitecture arch with
  | true => simp [List.count_filter valid]
  | false =>
    have absent : arch ∉ c.base.architectures.filter soundArchitecture := by simp [valid]
    simp [List.count_eq_zero_of_not_mem absent]

end Config

/-- Findings that say of a configuration what is wrong with it. -/
structure Findings.ReportOn (f : Findings) (c : Config) (p : Project) (t : FileTree) : Prop where
  clean : f.errors = [] ↔ c.Valid p t
  ordered : Ranked f.errors
  name : .nameRequired ∈ f.errors ↔ Text.isBlankText c.name = true
  template : .templateRequired ∈ f.errors ↔ Text.isBlankText c.base.template = true
  architectures : .architectureRequired ∈ f.errors ↔ c.base.architectures = []
  templateFile : ∀ template q, .templateMissing template q ∈ f.errors ↔
    Text.isBlankText c.base.template = false ∧
    t.isFile (p.templatePath (Text.trimmed c.base.template)) = false ∧
    template = c.base.template ∧
    q = p.relative (p.templatePath (Text.trimmed c.base.template))
  /-- A blank architecture is named by its place, counted from one. -/
  blank : ∀ n, .emptyArchitecture n ∈ f.errors ↔ ∃ i arch, n = i + 1 ∧
    c.base.architectures[i]? = some arch ∧ Text.isBlankText arch = true
  blankInside : ∀ arch, .architectureWithBlank arch ∈ f.errors ↔
    arch ∈ c.base.architectures ∧ Text.isBlankText arch = false ∧
      arch.toList.any Text.isBlank = true
  /-- Any other architecture is no error, but a warning for each time that it is listed again. -/
  repeated : ∀ arch, f.warnings.count (.repeatedArchitecture arch) =
    if Config.soundArchitecture arch then c.base.architectures.count arch - 1 else 0

/-- A check finds no error just if all its conditions hold. What is required is named first, and in
order. -/
theorem Config.check_reports (c : Config) (p : Project) (t : FileTree) :
    (c.check p t).ReportOn c p t where
  clean := check_clean_iff
  ordered := errors_ranked
  name := nameRequired_mem
  template := templateRequired_mem
  architectures := architectureRequired_mem
  templateFile _ _ := templateMissing_mem
  blank _ := emptyArchitecture_mem
  blankInside _ := architectureWithBlank_mem
  repeated _ := count_repeatedArchitecture

end ImagePipeline
