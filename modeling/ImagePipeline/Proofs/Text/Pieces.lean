import ImagePipeline.Text.Pieces
import Mathlib.Data.List.Flatten

/-! Cutting a text at the last occurrence of a mark, at one that it starts with or that stands
in front of others, and at all of them. -/
namespace ImagePipeline.Text

variable {mark : Char}

theorem cutLast_eq_none {s : List Char} (unmarked : mark ∉ s) : cutLast mark s = none := by
  induction s with
  | nil => rfl
  | cons c cs ih =>
    rw [List.mem_cons, not_or] at unmarked
    rw [cutLast, ih unmarked.2]
    simp [Ne.symm unmarked.1]

theorem cutLast_append {before after : List Char} (unmarked : mark ∉ after) :
    cutLast mark (before ++ mark :: after) = some (before, after) := by
  induction before with
  | nil => simp [cutLast, cutLast_eq_none unmarked]
  | cons c cs ih => rw [List.cons_append, cutLast, ih]

/-- Of two cuts of one list at different marks, one lies in front of the other. -/
theorem append_cons_eq_split {α : Type} {a b : α} {front back before after : List α} (ne : a ≠ b)
    (same : front ++ a :: back = before ++ b :: after) :
    (∃ t, front = before ++ b :: t ∧ after = t ++ a :: back) ∨
      ∃ t, back = t ++ b :: after ∧ before = front ++ a :: t := by
  rcases List.append_eq_append_iff.mp same with ⟨t, rfl, rest⟩ | ⟨t, rfl, rest⟩
  · cases t with
    | nil => exact absurd (List.cons.inj rest).1 ne
    | cons x t =>
      obtain ⟨rfl, rfl⟩ := List.cons.inj rest
      exact .inr ⟨t, rfl, rfl⟩
  · cases t with
    | nil => exact absurd (List.cons.inj rest).1.symm ne
    | cons x t =>
      obtain ⟨rfl, rfl⟩ := List.cons.inj rest
      exact .inl ⟨t, rfl, rfl⟩

/-- Two ways to cut a list at an element are one, or one of them cuts a part of the other. -/
theorem append_cons_eq_iff {α : Type} {a : α} {front back before after : List α} :
    front ++ a :: back = before ++ a :: after ↔ (front = before ∧ back = after) ∨ ∃ t,
      (before = front ++ a :: t ∧ back = t ++ a :: after) ∨
      (front = before ++ a :: t ∧ after = t ++ a :: back) := by
  constructor
  · intro same
    rcases List.append_eq_append_iff.mp same with ⟨t, rfl, rest⟩ | ⟨t, rfl, rest⟩
    · cases t with
      | nil => exact .inl ⟨(List.append_nil front).symm, (List.cons.inj rest).2⟩
      | cons x t =>
        obtain ⟨rfl, rfl⟩ := List.cons.inj rest
        exact .inr ⟨t, .inl ⟨rfl, rfl⟩⟩
    · cases t with
      | nil => exact .inl ⟨List.append_nil before, (List.cons.inj rest).2.symm⟩
      | cons x t =>
        obtain ⟨rfl, rfl⟩ := List.cons.inj rest
        exact .inr ⟨t, .inr ⟨rfl, rfl⟩⟩
  · rintro (⟨rfl, rfl⟩ | ⟨t, ⟨rfl, rfl⟩ | ⟨rfl, rfl⟩⟩)
    · rfl
    · rw [List.append_assoc, List.cons_append]
    · rw [List.append_assoc, List.cons_append]

/-- Two cuts of one list at the first occurrence of a mark are the same. -/
theorem append_cons_inj {α : Type} {a : α} {front back before after : List α} (first : a ∉ front)
    (first' : a ∉ before) (same : front ++ a :: back = before ++ a :: after) :
    front = before ∧ back = after := by
  rcases append_cons_eq_iff.mp same with here | ⟨t, ⟨rfl, -⟩ | ⟨rfl, -⟩⟩
  · exact here
  · exact absurd (List.mem_append_right _ List.mem_cons_self) first'
  · exact absurd (List.mem_append_right _ List.mem_cons_self) first

/-- The two differ before either ends. -/
def clashes : List Char → List Char → Bool
  | m :: start, c :: cs => m != c || clashes start cs
  | _, _ => false

theorem afterPrefix_of_clash {start s : List Char} (clash : clashes start s = true)
    (t : List Char) : afterPrefix? start (s ++ t) = none := by
  fun_induction clashes start s with
  | case1 m start c cs ih =>
    rw [List.cons_append, afterPrefix?]
    split
    · rename_i same
      exact ih (by simpa [bne, same] using clash)
    · rfl
  | case2 => cases clash

theorem afterPrefix_append {start s rest : List Char} (found : afterPrefix? start s = some rest)
    (t : List Char) : afterPrefix? start (s ++ t) = some (rest ++ t) := by
  fun_induction afterPrefix? start s with
  | case1 s =>
    cases found
    rfl
  | case2 => cases found
  | case3 m start c cs same ih =>
    rw [List.cons_append, afterPrefix?, if_pos same]
    exact ih found
  | case4 => cases found

theorem startsWith_iff_prefix {start s : List Char} :
    startsWith start s = true ↔ start <+: s := by
  induction start generalizing s with
  | nil => simp [startsWith, afterPrefix?]
  | cons m start ih =>
    cases s with
    | nil => simp [startsWith, afterPrefix?]
    | cons c cs =>
      rw [List.cons_prefix_cons, ← ih, startsWith, afterPrefix?]
      by_cases same : m = c <;> simp [startsWith, same]

theorem afterPrefix_eq_some_iff {start s rest : List Char} :
    afterPrefix? start s = some rest ↔ s = start ++ rest := by
  fun_induction afterPrefix? start s with
  | case1 s => simp
  | case2 => simp
  | case3 m start c cs same ih => simpa [eq_comm, beq_iff_eq.mp same] using ih
  | case4 m start c cs apart =>
    constructor
    · intro found
      cases found
    · intro cut
      exact absurd (beq_iff_eq.mpr (List.cons.inj cut).1.symm) apart

theorem beforeSuffix_eq_some_iff {ending s front : List Char} :
    beforeSuffix? ending s = some front ↔ s = front ++ ending := by
  rw [beforeSuffix?, Option.map_eq_some_iff]
  constructor
  · rintro ⟨back, found, rfl⟩
    rw [← List.reverse_inj, afterPrefix_eq_some_iff.mp found]
    simp
  · rintro rfl
    exact ⟨front.reverse, afterPrefix_eq_some_iff.mpr (by simp), List.reverse_reverse front⟩

theorem contains_iff_isInfix {sought s : List Char} : contains sought s = true ↔ sought <:+: s := by
  unfold contains
  induction s with
  | nil =>
    rw [cut, List.infix_nil]
    cases sought <;> simp
  | cons c cs ih =>
    rw [List.infix_cons_iff, ← ih, ← startsWith_iff_prefix, cut, startsWith]
    cases afterPrefix? sought (c :: cs) with
    | some rest => simp
    | none => simp

theorem startsWith_append (start s : List Char) : startsWith start (start ++ s) = true :=
  startsWith_iff_prefix.mpr (List.prefix_append _ _)

theorem startsWith_of_clash {start s : List Char} (clash : clashes start s = true) (t : List Char) :
    startsWith start (s ++ t) = false := by
  rw [startsWith, afterPrefix_of_clash clash, Option.isSome_none]

/-- A character at the end of a text decides nothing about a start that does not have it. -/
theorem startsWith_concat {start : List Char} {c : Char} (other : c ∉ start) (s : List Char) :
    startsWith start (s ++ [c]) = startsWith start s := by
  induction start generalizing s with
  | nil => rfl
  | cons m start ih =>
    rw [List.mem_cons, not_or] at other
    cases s with
    | nil =>
      have apart : (m == c) = false := beq_eq_false_iff_ne.mpr (Ne.symm other.1)
      simp [startsWith, afterPrefix?, apart]
    | cons d s =>
      have rest := ih other.2 s
      simp only [startsWith, afterPrefix?, List.cons_append] at rest ⊢
      split
      · exact rest
      · rfl

theorem splitAt_ne_nil (mark : Char) (s : List Char) : splitAt mark s ≠ [] := by
  cases s with
  | nil => simp [splitAt]
  | cons c cs =>
    rw [splitAt]
    split
    · simp
    · split <;> simp

theorem splitAt_append (mark : Char) (before after : List Char) :
    splitAt mark (before ++ mark :: after) = splitAt mark before ++ splitAt mark after := by
  induction before with
  | nil => simp [splitAt]
  | cons c cs ih =>
    rw [List.cons_append, splitAt, splitAt]
    split
    · rw [ih, List.cons_append]
    · cases pieces : splitAt mark cs with
      | nil => exact absurd pieces (splitAt_ne_nil mark cs)
      | cons piece rest =>
        rw [ih, pieces]
        rfl

theorem splitAt_first (mark : Char) (s : List Char) :
    ∃ rest, splitAt mark s = (s.takeWhile fun c => c != mark) :: rest := by
  induction s with
  | nil => exact ⟨[], rfl⟩
  | cons c cs ih =>
    obtain ⟨rest, pieces⟩ := ih
    rw [splitAt, pieces]
    split
    · rename_i same
      exact ⟨_, by rw [List.takeWhile_cons_of_neg (by simpa using same)]⟩
    · rename_i apart
      exact ⟨rest, by rw [List.takeWhile_cons_of_pos (by simpa using apart)]⟩

/-- What ends at the first mark stands in front of every mark. -/
theorem takeWhile_prefix_of_mark (mark : Char) (before after : List Char) :
    ((before ++ mark :: after).takeWhile fun c => c != mark) <+: before := by
  rw [List.takeWhile_append]
  split
  · exact ⟨[], by rw [List.takeWhile_cons_of_neg (by simp), List.append_nil, List.append_nil]⟩
  · exact List.takeWhile_prefix _

/-- A text is put together again from its pieces. -/
theorem intercalate_splitAt (mark : Char) (s : List Char) :
    List.intercalate [mark] (splitAt mark s) = s := by
  induction s with
  | nil => rfl
  | cons c cs ih =>
    obtain ⟨piece, rest, pieces⟩ := List.exists_cons_of_ne_nil (splitAt_ne_nil mark cs)
    rw [pieces] at ih
    rw [splitAt, pieces]
    split
    · rename_i same
      rw [List.intercalate_cons_cons, ih, beq_iff_eq.mp same]
      rfl
    · cases rest with
      | nil => simpa using ih
      | cons next rest =>
        rw [List.intercalate_cons_cons] at ih ⊢
        exact congrArg (c :: ·) ih

theorem not_mem_of_mem_splitAt {s piece : List Char} (member : piece ∈ splitAt mark s) :
    mark ∉ piece := by
  induction s generalizing piece with
  | nil =>
    rw [List.mem_singleton.mp member]
    exact List.not_mem_nil
  | cons c cs ih =>
    rw [splitAt] at member
    split at member
    · rcases List.mem_cons.mp member with rfl | behind
      · exact List.not_mem_nil
      · exact ih behind
    · rename_i apart
      obtain ⟨head, rest, pieces⟩ := List.exists_cons_of_ne_nil (splitAt_ne_nil mark cs)
      rw [pieces] at member ih
      obtain ⟨first, others⟩ := List.forall_mem_cons.mp @ih
      rcases List.mem_cons.mp member with rfl | behind
      · rw [List.mem_cons, not_or]
        exact ⟨fun same => apart (beq_iff_eq.mpr same.symm), first⟩
      · exact others piece behind

/-- No character but the mark is lost. -/
theorem mem_iff_mem_splitAt {c : Char} (other : c ≠ mark) (s : List Char) :
    c ∈ s ↔ ∃ piece ∈ splitAt mark s, c ∈ piece := by
  induction s with
  | nil => simp [splitAt]
  | cons d s ih =>
    rw [splitAt, List.mem_cons, ih]
    split
    · rename_i same
      simp [other, beq_iff_eq.mp same]
    · obtain ⟨first, rest, pieces⟩ := List.exists_cons_of_ne_nil (splitAt_ne_nil mark s)
      rw [pieces]
      simp [or_assoc]

theorem splitAt_of_not_mem {s : List Char} (unmarked : mark ∉ s) : splitAt mark s = [s] := by
  induction s with
  | nil => rfl
  | cons c cs ih =>
    rw [List.mem_cons, not_or] at unmarked
    rw [splitAt, ih unmarked.2, if_neg (by simpa using Ne.symm unmarked.1)]

/-- The first piece ends at the first mark. -/
theorem headD_splitAt_append {s : List Char} (marked : mark ∈ s) (t : List Char) :
    (splitAt mark (s ++ t)).headD [] = (splitAt mark s).headD [] := by
  induction s with
  | nil => cases marked
  | cons c cs ih =>
    rw [List.cons_append, splitAt, splitAt]
    split
    · rfl
    · rename_i apart
      have inside : mark ∈ cs := by
        refine (List.mem_cons.mp marked).resolve_left fun same => apart ?_
        rw [same, beq_self_eq_true]
      have heads := ih inside
      split <;> split <;> simp_all

end ImagePipeline.Text
