import ImagePipeline.Proofs.Text.Blank
import ImagePipeline.Proofs.Text.Doubled
import ImagePipeline.Proofs.Text.Lines

/-! The words of a text. They are cut at every blank, so that it does not matter which blanks
stand between two words, and how many. -/
namespace ImagePipeline.Text

variable {c d : Char} {s t gap : List Char} {ws : List (List Char)}

/-- Characters that are blank and end no line. -/
structure Gap (gap : List Char) : Prop where
  blank : ∀ c ∈ gap, isBlank c = true
  unbroken : Unbroken gap

theorem Gap.nil : Gap [] := ⟨fun _ => nofun, List.not_mem_nil, List.not_mem_nil⟩

theorem Gap.append (front : Gap s) (back : Gap t) : Gap (s ++ t) := by
  refine ⟨fun c member => ?_, front.unbroken.append back.unbroken⟩
  exact (List.mem_append.mp member).elim (front.blank c) (back.blank c)

structure IsWord (w : List Char) : Prop where
  inhabited : w ≠ []
  visible : ∀ c ∈ w, isBlank c = false

/-- These words in order, with blanks between any two. -/
inductive Spaced : List (List Char) → List Char → Prop where
  | last {w : List Char} : IsWord w → Spaced [w] w
  | next {w gap s : List Char} {ws : List (List Char)} : IsWord w → Gap gap → gap ≠ [] →
      Spaced ws s → Spaced (w :: ws) (w ++ gap ++ s)

/-- A text that starts and ends with characters that are not blank. -/
structure Solid (s : List Char) : Prop where
  first : ∃ c ∈ s.head?, isBlank c = false
  last : ∃ c ∈ s.getLast?, isBlank c = false

/-! ### Trimming -/

theorem dropWhile_blanks (blank : ∀ c ∈ gap, isBlank c = true)
    (visible : ∃ c ∈ s.head?, isBlank c = false) : (gap ++ s).dropWhile isBlank = s := by
  rw [List.dropWhile_append_of_pos blank]
  obtain ⟨c, first, visible⟩ := visible
  obtain ⟨rest, rfl⟩ := List.head?_eq_some_iff.mp first
  exact List.dropWhile_cons_of_neg (by simp [visible])

theorem Solid.inhabited (solid : Solid s) : s ≠ [] := by
  rintro rfl
  obtain ⟨c, first, -⟩ := solid.first
  cases first

/-- Solid texts around anything. -/
theorem Solid.append (front : Solid s) (middle : List Char) (back : Solid t) :
    Solid (s ++ middle ++ t) := by
  constructor
  · rw [List.append_assoc, List.head?_append_of_ne_nil _ front.inhabited]
    exact front.first
  · rw [List.getLast?_append_of_ne_nil _ back.inhabited]
    exact back.last

theorem trim_gaps {before after : List Char} (front : ∀ c ∈ before, isBlank c = true)
    (back : ∀ c ∈ after, isBlank c = true) (solid : Solid s) :
    trim (before ++ s ++ after) = s := by
  have start : trimStart (before ++ s ++ after) = s ++ after := by
    rw [trimStart, List.append_assoc]
    apply dropWhile_blanks front
    rw [List.head?_append_of_ne_nil _ solid.inhabited]
    exact solid.first
  rw [trim, start, trimEnd, List.reverse_append, dropWhile_blanks, List.reverse_reverse]
  · intro c member
    exact back c (List.mem_reverse.mp member)
  · rw [List.head?_reverse]
    exact solid.last

theorem solid_trim (given : trim s ≠ []) : Solid (trim s) := by
  constructor
  · have start : trimStart (trim s) = trim s :=
      trimStart_of_prefix (List.dropWhile_idempotent _ _) (List.rdropWhile_prefix _ _)
    obtain ⟨c, rest, cut⟩ := List.exists_cons_of_ne_nil given
    rw [cut] at start ⊢
    have visible := List.dropWhile_eq_self_iff.mp start (by simp)
    exact ⟨c, rfl, by simpa using visible⟩
  · obtain ⟨front, c, cut⟩ := (List.eq_nil_or_concat' _).resolve_left given
    exact ⟨c, by rw [cut, List.getLast?_concat]; rfl, trim_concat_ne cut⟩

/-- A line is what is left of it between gaps. -/
theorem trim_between_gaps (unbroken : Unbroken s) :
    ∃ before after, s = before ++ trim s ++ after ∧ Gap before ∧ Gap after := by
  obtain ⟨before, after, cut, front, back⟩ := trim_between s
  have whole : Unbroken (before ++ trim s ++ after) := cut ▸ unbroken
  refine ⟨before, after, cut, ⟨front, whole.of_subset ?_⟩, ⟨back, whole.of_subset ?_⟩⟩
  · exact List.subset_append_of_subset_left _ (List.subset_append_left _ _)
  · exact List.subset_append_right _ _

theorem IsWord.solid (word : IsWord s) : Solid s := by
  constructor
  · obtain ⟨c, rest, rfl⟩ := List.exists_cons_of_ne_nil word.inhabited
    exact ⟨c, rfl, word.visible c List.mem_cons_self⟩
  · refine ⟨s.getLast word.inhabited, List.getLast?_eq_some_getLast word.inhabited, ?_⟩
    exact word.visible _ (List.getLast_mem word.inhabited)

theorem IsWord.unbroken (word : IsWord s) : Unbroken s := by
  constructor
  · intro member
    have visible := word.visible '\n' member
    contradiction
  · intro member
    have visible := word.visible '\r' member
    contradiction

/-! ### Words -/

theorem words_cons_blank (blank : isBlank c = true) (s : List Char) : words (c :: s) = words s := by
  cases s <;> simp [words, blank]

theorem words_cons_end (visible : isBlank c = false) (blank : isBlank d = true) (s : List Char) :
    words (c :: d :: s) = [c] :: words (d :: s) := by
  rw [words.eq_def]
  simp [visible, blank]

theorem words_cons_inside (visible : isBlank c = false) (inside : isBlank d = false)
    (s : List Char) : words (c :: d :: s) = consHead c (words (d :: s)) := by
  rw [words.eq_def]
  simp [visible, inside]

theorem words_ne_nil (visible : isBlank c = false) (s : List Char) : words (c :: s) ≠ [] := by
  rw [words.eq_def]
  dsimp only
  rw [visible]
  cases s with
  | nil => exact List.cons_ne_nil _ _
  | cons d s =>
    dsimp only
    unfold consHead
    split
    · contradiction
    · split
      · exact List.cons_ne_nil _ _
      · split <;> exact List.cons_ne_nil _ _

/-- A blank separates the words in front of it from those behind it. -/
theorem words_append_blank (blank : isBlank c = true) (s t : List Char) :
    words (s ++ c :: t) = words s ++ words t := by
  induction s with
  | nil => exact words_cons_blank blank t
  | cons d s ih =>
    cases front : isBlank d with
    | true =>
      rw [List.cons_append, words_cons_blank front, words_cons_blank front]
      exact ih
    | false =>
      cases s with
      | nil =>
        have single : words [d] = [[d]] := by simp [words, front]
        rw [List.singleton_append, words_cons_end front blank, words_cons_blank blank, single]
        rfl
      | cons e s =>
        simp only [List.cons_append] at ih ⊢
        cases inside : isBlank e with
        | true =>
          rw [words_cons_end front inside, words_cons_end front inside, ih]
          rfl
        | false =>
          rw [words_cons_inside front inside, words_cons_inside front inside, ih]
          exact consHead_append d (words_ne_nil inside s)

theorem words_word {w : List Char} (word : IsWord w) : words w = [w] := by
  obtain ⟨inhabited, visible⟩ := word
  induction w with
  | nil => exact absurd rfl inhabited
  | cons c w ih =>
    obtain ⟨first, others⟩ := List.forall_mem_cons.mp visible
    cases w with
    | nil => simp [words, first]
    | cons d w =>
      rw [words_cons_inside first (others d List.mem_cons_self),
        ih (List.cons_ne_nil _ _) others]
      rfl

theorem words_gap (blank : ∀ c ∈ gap, isBlank c = true) (s : List Char) :
    words (gap ++ s) = words s := by
  induction gap with
  | nil => rfl
  | cons c gap ih =>
    obtain ⟨first, others⟩ := List.forall_mem_cons.mp blank
    rw [List.cons_append, words_cons_blank first]
    exact ih others

theorem Spaced.words (spaced : Spaced ws s) : words s = ws := by
  induction spaced with
  | last word => exact words_word word
  | next word gap given _ ih =>
    obtain ⟨c, gap', rfl⟩ := List.exists_cons_of_ne_nil given
    obtain ⟨first, others⟩ := List.forall_mem_cons.mp gap.blank
    rw [List.append_assoc, List.cons_append, words_append_blank first, words_word word,
      words_gap others, ih]
    rfl

/-- What is left of a text behind the blanks at its start, unless nothing is. -/
theorem solid_dropWhile (last : ∃ c ∈ s.getLast?, isBlank c = false) :
    Solid (s.dropWhile isBlank) := by
  obtain ⟨d, last, visible⟩ := last
  have inside : d ∈ s := List.mem_of_getLast? last
  have given : s.dropWhile isBlank ≠ [] := by
    intro nothing
    have blank := List.dropWhile_eq_nil_iff.mp nothing d inside
    rw [blank] at visible
    contradiction
  constructor
  · obtain ⟨e, rest, behind⟩ := List.exists_cons_of_ne_nil given
    have stops := List.head?_dropWhile_not isBlank s
    rw [behind] at stops ⊢
    exact ⟨e, rfl, by simpa using stops⟩
  · refine ⟨d, ?_, visible⟩
    rw [← List.takeWhile_append_dropWhile (p := isBlank) (l := s),
      List.getLast?_append_of_ne_nil _ given] at last
    exact last

/-- The first word, the blanks behind it and the rest. -/
theorem Solid.cut (solid : Solid s) : IsWord s ∨ ∃ w gap t, s = w ++ gap ++ t ∧ IsWord w ∧
    (∀ c ∈ gap, isBlank c = true) ∧ gap ≠ [] ∧ Solid t := by
  obtain ⟨⟨c, first, visible⟩, last⟩ := solid
  have start : IsWord (s.takeWhile fun c => !isBlank c) := by
    constructor
    · obtain ⟨rest, rfl⟩ := List.head?_eq_some_iff.mp first
      rw [List.takeWhile_cons_of_pos (by simp [visible])]
      exact List.cons_ne_nil _ _
    · intro c member
      simpa using List.mem_takeWhile_imp member
  have whole := List.takeWhile_append_dropWhile (p := fun c => !isBlank c) (l := s)
  cases behind : s.dropWhile fun c => !isBlank c with
  | nil =>
    rw [behind, List.append_nil] at whole
    exact .inl (whole ▸ start)
  | cons e rest =>
    have blank : isBlank e = true := by
      have stops := List.head?_dropWhile_not (fun c => !isBlank c) s
      rw [behind] at stops
      simpa using stops
    rw [behind] at whole
    have ending : ∃ c ∈ (e :: rest).getLast?, isBlank c = false := by
      rwa [← whole, List.getLast?_append_of_ne_nil _ (List.cons_ne_nil _ _)] at last
    refine .inr ⟨_, (e :: rest).takeWhile isBlank, _, ?_, start, fun c => List.mem_takeWhile_imp,
      ?_, solid_dropWhile ending⟩
    · rw [List.append_assoc, List.takeWhile_append_dropWhile, whole]
    · rw [List.takeWhile_cons_of_pos blank]
      exact List.cons_ne_nil _ _

/-- A text without blanks at its ends consists of words with blanks between them. -/
theorem Solid.exists_spaced (solid : Solid s) (unbroken : Unbroken s) : ∃ ws, Spaced ws s := by
  induction size : s.length using Nat.strong_induction_on generalizing s with
  | _ n ih =>
    rcases solid.cut with word | ⟨w, gap, t, rfl, word, blank, given, behind⟩
    · exact ⟨[s], .last word⟩
    · have shorter : t.length < n := by
        have some := List.length_pos_of_ne_nil given
        simp only [List.length_append] at size
        omega
      have inner : Unbroken gap := unbroken.of_subset (by simp)
      obtain ⟨ws, spaced⟩ := ih _ shorter behind (unbroken.of_subset (by simp)) rfl
      exact ⟨w :: ws, .next word ⟨blank, inner⟩ given spaced⟩

theorem Solid.spaced (solid : Solid s) (unbroken : Unbroken s) : Spaced (words s) s := by
  obtain ⟨ws, spaced⟩ := solid.exists_spaced unbroken
  rwa [spaced.words]

/-! ### What a text of words is made of -/

namespace Spaced

theorem isWord (spaced : Spaced ws s) : ∀ w ∈ ws, IsWord w := by
  induction spaced with
  | last word => simpa using word
  | next word _ _ _ ih => exact List.forall_mem_cons.mpr ⟨word, ih⟩

theorem within (spaced : Spaced ws s) : ∀ w ∈ ws, w <:+: s := by
  induction spaced with
  | last word =>
    intro w member
    obtain rfl := List.mem_singleton.mp member
    exact List.infix_rfl
  | @next w gap s ws _ _ _ _ ih =>
    intro v member
    rcases List.mem_cons.mp member with rfl | behind
    · exact ⟨[], gap ++ s, by simp⟩
    · exact (ih v behind).trans (List.suffix_append _ _).isInfix

theorem unbroken (spaced : Spaced ws s) (words : ∀ w ∈ ws, Unbroken w) : Unbroken s := by
  induction spaced with
  | last word => exact words _ List.mem_cons_self
  | next word gap _ _ ih =>
    obtain ⟨first, others⟩ := List.forall_mem_cons.mp words
    exact (first.append gap.unbroken).append (ih others)

theorem single {x : Char} (spaced : Spaced ws s) (visible : isBlank x = false)
    (words : ∀ w ∈ ws, Single x w) : Single x s := by
  induction spaced with
  | last word => exact words _ List.mem_cons_self
  | @next w gap s ws _ blank given _ ih =>
    obtain ⟨first, others⟩ := List.forall_mem_cons.mp words
    have absent : x ∉ gap := by
      intro member
      rw [blank.blank x member] at visible
      contradiction
    refine (first.append (single_of_not_mem absent) ?_).append (ih others) ?_
    · exact fun _ start => absent (List.mem_of_head? start)
    · intro last
      rw [List.getLast?_append_of_ne_nil _ given] at last
      exact absurd (List.mem_of_getLast? last) absent

theorem solid (spaced : Spaced ws s) : Solid s := by
  induction spaced with
  | last word => exact word.solid
  | next word _ _ _ ih => exact word.solid.append _ ih

theorem head? (spaced : Spaced ws s) : s.head? = ws.head?.bind List.head? := by
  cases spaced with
  | last word => rfl
  | next word _ _ _ =>
    obtain ⟨c, rest, rfl⟩ := List.exists_cons_of_ne_nil word.inhabited
    rfl

theorem getLast? (spaced : Spaced ws s) : s.getLast? = ws.getLast?.bind List.getLast? := by
  induction spaced with
  | last word => rfl
  | next word gap _ spaced ih =>
    rw [List.getLast?_append_of_ne_nil _ spaced.solid.inhabited, ih]
    cases spaced <;> rfl

end Spaced

end ImagePipeline.Text
