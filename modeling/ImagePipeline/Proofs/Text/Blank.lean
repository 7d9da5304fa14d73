import Mathlib.Data.List.DropRight
import ImagePipeline.Text.Blank

/-! Trimming. A text is blank if nothing is left of it, and a trimmed text stays as it is, also
in front of another one. -/
namespace ImagePipeline.Text

theorem trimEnd_eq_rdropWhile (s : List Char) : trimEnd s = s.rdropWhile isBlank := rfl

theorem trimStart_of_prefix {s t : List Char} (trimmed : trimStart t = t) (front : s <+: t) :
    trimStart s = s := by
  obtain ⟨rest, rfl⟩ := front
  cases s with
  | nil => rfl
  | cons c cs =>
    have visible := List.dropWhile_eq_self_iff.mp trimmed (by simp)
    exact List.dropWhile_eq_self_iff.mpr fun _ => visible

theorem trim_trim (s : List Char) : trim (trim s) = trim s := by
  have start : trimStart (trim s) = trim s :=
    trimStart_of_prefix (List.dropWhile_idempotent _ _) (List.rdropWhile_prefix _ _)
  rw [trim, start]
  exact List.rdropWhile_idempotent _ _

theorem trim_eq_nil_iff {s : List Char} : trim s = [] ↔ ∀ c ∈ s, isBlank c = true := by
  rw [trim, trimEnd_eq_rdropWhile, List.rdropWhile_eq_nil_iff]
  constructor
  · intro blank
    have start : trimStart s = [] :=
      (List.dropWhile_idempotent _ _).symm.trans (List.dropWhile_eq_nil_iff.mpr blank)
    exact List.dropWhile_eq_nil_iff.mp start
  · intro blank c member
    exact blank c ((List.dropWhile_sublist _).subset member)

theorem trim_subset (s : List Char) : trim s ⊆ s :=
  fun _ member => (List.dropWhile_sublist _).subset ((List.rdropWhile_prefix _ _).subset member)

/-- Where nothing is blank there is nothing to trim. -/
theorem trim_of_visible {s : List Char} (visible : ∀ c ∈ s, isBlank c = false) : trim s = s := by
  have start : trimStart s = s :=
    List.dropWhile_eq_self_iff.mpr fun nonempty => by simp [visible _ (List.getElem_mem nonempty)]
  rw [trim, start]
  exact List.rdropWhile_eq_self_iff.mpr fun nonempty => by
    simp [visible _ (List.getLast_mem nonempty)]

theorem trimmed_trimmed (s : String) : trimmed (trimmed s) = trimmed s := by
  simp only [trimmed, String.toList_ofList, trim_trim]

theorem isBlankText_eq (s : String) : isBlankText s = (trimmed s).isEmpty := by
  rw [Bool.eq_iff_iff, isBlankText, List.all_eq_true, ← trim_eq_nil_iff, String.isEmpty_iff,
    trimmed, ← String.toList_inj, String.toList_ofList]
  simp

/-- A text is what is left of it between blanks. -/
theorem trim_between (s : List Char) : ∃ before after, s = before ++ trim s ++ after ∧
    (∀ c ∈ before, isBlank c = true) ∧ ∀ c ∈ after, isBlank c = true := by
  refine ⟨s.takeWhile isBlank, (trimStart s).rtakeWhile isBlank, ?_,
    fun _ => List.mem_takeWhile_imp, fun _ => List.mem_rtakeWhile_imp⟩
  rw [trim, trimEnd_eq_rdropWhile, List.append_assoc, List.rdropWhile_append_rtakeWhile]
  exact List.takeWhile_append_dropWhile.symm

theorem trimEnd_prefix (s t : List Char) : trimEnd s <+: trimEnd (s ++ t) := by
  simp only [trimEnd_eq_rdropWhile]
  induction t using List.reverseRecOn with
  | nil => simp
  | append_singleton t c ih =>
    rw [← List.append_assoc]
    cases blank : isBlank c with
    | true => rwa [List.rdropWhile_concat_pos _ _ _ blank]
    | false =>
      rw [List.rdropWhile_concat_neg _ _ _ (by simp [blank]), List.append_assoc]
      exact (List.rdropWhile_prefix _ _).trans (List.prefix_append _ _)

/-- What is left of a text in front of others is left of it with them too. -/
theorem trim_prefix {s : List Char} (given : trim s ≠ []) (t : List Char) :
    trim s <+: trim (s ++ t) := by
  have start : trimStart s ≠ [] := by
    intro nothing
    exact given (by rw [trim, nothing]; rfl)
  have front : trimStart (s ++ t) = trimStart s ++ t := by
    rw [trimStart, List.dropWhile_append, if_neg (by simpa [trimStart] using start), trimStart]
  rw [trim, trim, front]
  exact trimEnd_prefix _ _

theorem trim_concat_blank {s : List Char} {c : Char} (blank : isBlank c = true) :
    trim (s ++ [c]) = trim s := by
  rw [trim, trim, trimStart, trimStart, List.dropWhile_append]
  split
  · rename_i nothing
    rw [List.isEmpty_iff.mp nothing, List.dropWhile_cons_of_pos blank, List.dropWhile_nil]
  · rw [trimEnd_eq_rdropWhile, List.rdropWhile_concat_pos _ _ _ blank, trimEnd_eq_rdropWhile]

/-- What is left of a text between blanks does not end with one. -/
theorem trim_concat_ne {s front : List Char} {c : Char} (trimmed : trim s = front ++ [c]) :
    isBlank c = false := by
  cases blank : isBlank c with
  | false => rfl
  | true =>
    have again : trim front = front ++ [c] := by
      rw [← trim_concat_blank blank, ← trimmed, trim_trim]
    have longer := congrArg List.length again
    have shorter : (trim front).length ≤ front.length :=
      (List.rdropWhile_prefix _ _).length_le.trans (List.dropWhile_sublist _).length_le
    rw [List.length_append, List.length_singleton] at longer
    omega

end ImagePipeline.Text
