import ImagePipeline.Proofs.Build.Refusal
import Mathlib.Data.List.Perm.Basic

/-! The selection of architectures. What is asked for decides by its members alone which
architectures are left; their order and how often each is built are those of the
configuration. -/
namespace ImagePipeline.Config

variable {c : Config} {wanted selected : List String}

/-- The part of the configured architectures that is asked for: nothing is added or moved, and
each architecture is kept or dropped with all its repetitions. -/
structure Selects (c : Config) (wanted selected : List String) : Prop where
  ordered : selected.Sublist c.base.architectures
  counted : ∀ a, selected.count a = if a ∈ wanted then c.base.architectures.count a else 0

theorem selects_filter (c : Config) (wanted : List String) :
    c.Selects wanted (c.base.architectures.filter fun a => wanted.contains a) where
  ordered := List.filter_sublist
  counted := by
    intro a
    by_cases asked : a ∈ wanted
    · rw [if_pos asked]
      exact List.count_filter (by simpa using asked)
    · rw [if_neg asked, List.count_eq_zero]
      intro kept
      exact asked (by simpa using (List.mem_filter.mp kept).2)

theorem Selects.asked (selects : c.Selects wanted selected) {a : String} (member : a ∈ selected) :
    a ∈ wanted := by
  by_contra missing
  have counted := selects.counted a
  rw [if_neg missing, List.count_eq_zero] at counted
  exact counted member

/-- There is only one such part. -/
theorem Selects.eq_filter (selects : c.Selects wanted selected) :
    selected = c.base.architectures.filter fun a => wanted.contains a := by
  have inside : selected.Sublist (c.base.architectures.filter fun a => wanted.contains a) := by
    have filtered := selects.ordered.filter fun a => wanted.contains a
    rwa [List.filter_eq_self.mpr fun a member => by simpa using selects.asked member] at filtered
  have counts : selected.Perm (c.base.architectures.filter fun a => wanted.contains a) := by
    apply List.perm_iff_count.mpr
    intro a
    rw [selects.counted a, (c.selects_filter wanted).counted a]
  exact inside.eq_of_length counts.length_eq

/-- What is asked for matters only as a set. -/
theorem Selects.congr {other : List String} (selects : c.Selects wanted selected)
    (same : ∀ a, a ∈ other ↔ a ∈ wanted) : c.Selects other selected where
  ordered := selects.ordered
  counted := by simpa only [same] using selects.counted

/-- A part is all that is asked for of itself. -/
theorem Selects.again (selects : c.Selects wanted selected) :
    { c with base.architectures := selected }.Selects wanted selected where
  ordered := List.Sublist.refl _
  counted := by
    intro a
    by_cases asked : a ∈ wanted
    · rw [if_pos asked]
    · rw [selects.counted a, if_neg asked, if_neg asked]

theorem selectArchitectures_nothing (c : Config) :
    c.selectArchitectures [] = .ok c.base.architectures := rfl

/-- Where something is asked for, a selection that succeeds is the part that is asked for. -/
theorem selectArchitectures_ok_iff (given : wanted ≠ []) :
    c.selectArchitectures wanted = .ok selected ↔
      (∀ a ∈ wanted, a ∈ c.base.architectures) ∧ c.Selects wanted selected := by
  have inhabited : wanted.isEmpty = false := by simpa using given
  unfold selectArchitectures
  simp only [inhabited, Bool.false_eq_true, if_false]
  constructor
  · intro chosen
    split at chosen
    · cases chosen
    · rename_i none
      cases chosen
      exact ⟨by simpa using none, c.selects_filter wanted⟩
  · rintro ⟨configured, selects⟩
    have none : (wanted.find? fun a => !c.base.architectures.contains a) = none := by
      simpa using configured
    rw [none, selects.eq_filter]

theorem selectArchitectures_error_iff {cause : Cause} :
    c.selectArchitectures wanted = .error cause ↔ ∃ a, c.Unconfigured wanted a ∧
      cause = .architectureNotConfigured a c.base.architectures := by
  constructor
  · intro refused
    cases found : wanted.find? fun a => !c.base.architectures.contains a with
    | none =>
      have chosen : ∃ selected, c.selectArchitectures wanted = .ok selected :=
        c.selectArchitectures_ok (by simpa using found)
      obtain ⟨selected, chosen⟩ := chosen
      rw [chosen] at refused
      cases refused
    | some a =>
      have unconfigured := unconfigured_iff_find.mpr found
      refine ⟨a, unconfigured, ?_⟩
      rw [unconfigured.refused] at refused
      exact (Except.error.inj refused).symm
  · rintro ⟨a, unconfigured, rfl⟩
    exact unconfigured.refused

/-- A selection succeeds just if all that is asked for is configured, and else it names the first
that is not. Nothing asked for leaves every architecture, and anything else the part that is asked
for; so only the set that is asked for counts, and selecting from a selection changes nothing. -/
theorem selectArchitectures_selects (c : Config) (wanted : List String) :
    ((∃ selected, c.selectArchitectures wanted = .ok selected) ↔
      ∀ a ∈ wanted, a ∈ c.base.architectures) ∧
    (∀ cause, c.selectArchitectures wanted = .error cause ↔ ∃ a, c.Unconfigured wanted a ∧
      cause = .architectureNotConfigured a c.base.architectures) ∧
    c.selectArchitectures [] = .ok c.base.architectures ∧
    (wanted ≠ [] → ∀ selected, c.selectArchitectures wanted = .ok selected ↔
      (∀ a ∈ wanted, a ∈ c.base.architectures) ∧ c.Selects wanted selected) ∧
    ∀ selected, c.selectArchitectures wanted = .ok selected →
      (∀ other, (∀ a, a ∈ other ↔ a ∈ wanted) → c.selectArchitectures other = .ok selected) ∧
      { c with base.architectures := selected }.selectArchitectures wanted = .ok selected := by
  refine ⟨⟨?_, c.selectArchitectures_ok⟩, fun _ => selectArchitectures_error_iff,
    c.selectArchitectures_nothing, fun given _ => selectArchitectures_ok_iff given, ?_⟩
  · rintro ⟨selected, chosen⟩
    by_cases given : wanted = []
    · simp [given]
    · exact ((selectArchitectures_ok_iff given).mp chosen).1
  · intro selected chosen
    by_cases given : wanted = []
    · subst given
      cases chosen
      refine ⟨fun other same => ?_, rfl⟩
      have nothing : other = [] := List.eq_nil_iff_forall_not_mem.mpr fun a => by simp [same]
      rw [nothing, c.selectArchitectures_nothing]
    · obtain ⟨configured, selects⟩ := (selectArchitectures_ok_iff given).mp chosen
      constructor
      · intro other same
        have inhabited : other ≠ [] := by
          obtain ⟨a, asked⟩ := List.exists_mem_of_ne_nil _ given
          exact List.ne_nil_of_mem ((same a).mpr asked)
        apply (selectArchitectures_ok_iff inhabited).mpr
        exact ⟨fun a asked => configured a ((same a).mp asked), selects.congr same⟩
      · apply (selectArchitectures_ok_iff given).mpr
        refine ⟨fun a asked => ?_, selects.again⟩
        have counted := selects.counted a
        rw [if_pos asked] at counted
        exact List.count_pos_iff.mp (counted ▸ List.count_pos_iff.mpr (configured a asked))

/-- Two architectures, of which one is built twice. -/
def twiceDemo : Config where
  name := "demo"
  base := { template := "debian", architectures := ["arm64", "amd64", "arm64"] }

theorem twiceDemo_selection :
    twiceDemo.selectArchitectures ["arm64"] = .ok ["arm64", "arm64"] ∧
      twiceDemo.selectArchitectures ["arm64", "arm64"] = .ok ["arm64", "arm64"] := by
  have chosen : twiceDemo.selectArchitectures ["arm64"] = .ok ["arm64", "arm64"] := by rfl
  obtain ⟨-, -, -, -, further⟩ := selectArchitectures_selects twiceDemo ["arm64"]
  exact ⟨chosen, (further _ chosen).1 ["arm64", "arm64"] (by simp)⟩

end ImagePipeline.Config
