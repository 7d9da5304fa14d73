import ImagePipeline.Proofs.Text.Doubled
import ImagePipeline.Proofs.Text.Pieces
import ImagePipeline.Proofs.Text.Words
import ImagePipeline.Template.Action

/-! Lines that consist of an action, as they may be laid out: with blanks around the action, a `-`
or none at each of its ends, and blanks between its words. Only the words of an action decide
whether its line opens, divides or closes a block. -/
namespace ImagePipeline.Template

variable {ws vs : List (List Char)} {line inner text w : List Char} {kind : LineKind} {n : Nat}

/-- The blanks at one end of an action, with the mark that trims there or without it. -/
inductive Margin : List Char → Prop where
  | plain {gap : List Char} : Text.Gap gap → Margin gap
  | trimming {outer inner : List Char} : Text.Gap outer → Text.Gap inner →
      Margin (outer ++ '-' :: inner)

/-- A text from which no mark that trims can be taken. -/
structure Undashed (text : List Char) : Prop where
  first : text.head? ≠ some '-'
  last : text.getLast? ≠ some '-'

/-- What may stand between the marks of an action of these words. -/
inductive Inside (ws : List (List Char)) : List Char → Prop where
  | mk {front text back : List Char} : Margin front → Text.Spaced ws text → Undashed text →
      Margin back → Inside ws (front ++ text ++ back)

/-- A line that consists of an action of these words. -/
inductive ActionLine (ws : List (List Char)) : List Char → Prop where
  | mk {before inner after : List Char} : Text.Gap before → Inside ws inner → Text.Gap after →
      ActionLine ws (before ++ (openMark ++ inner ++ closeMark) ++ after)

/-- The words of the action that a line consists of. -/
def actionWords? (line : List Char) : Option (List (List Char)) :=
  (soleAction? line).map fun inner => Text.words (actionText inner)

/-! ### Taking the marks that trim -/

theorem afterDash_of_first (first : text.head? ≠ some '-') :
    (Text.afterPrefix? ['-'] text).getD text = text := by
  cases found : Text.afterPrefix? ['-'] text with
  | none => rfl
  | some rest =>
    rw [Text.afterPrefix_eq_some_iff.mp found] at first
    exact absurd rfl first

theorem beforeDash_of_last (last : text.getLast? ≠ some '-') :
    (Text.beforeSuffix? ['-'] text).getD text = text := by
  cases found : Text.beforeSuffix? ['-'] text with
  | none => rfl
  | some front =>
    rw [Text.beforeSuffix_eq_some_iff.mp found, List.getLast?_concat] at last
    exact absurd rfl last

theorem afterDash_cut {s t : List Char} (taken : (Text.afterPrefix? ['-'] s).getD s = t) :
    ∃ dash, (dash = [] ∨ dash = ['-']) ∧ s = dash ++ t := by
  cases found : Text.afterPrefix? ['-'] s with
  | none =>
    rw [found] at taken
    exact ⟨[], .inl rfl, taken⟩
  | some rest =>
    rw [found] at taken
    exact ⟨['-'], .inr rfl, taken ▸ Text.afterPrefix_eq_some_iff.mp found⟩

theorem beforeDash_cut {s t : List Char} (taken : (Text.beforeSuffix? ['-'] s).getD s = t) :
    ∃ dash, (dash = [] ∨ dash = ['-']) ∧ s = t ++ dash := by
  cases found : Text.beforeSuffix? ['-'] s with
  | none =>
    rw [found] at taken
    exact ⟨[], .inl rfl, taken ▸ (List.append_nil s).symm⟩
  | some front =>
    rw [found] at taken
    exact ⟨['-'], .inr rfl, taken ▸ Text.beforeSuffix_eq_some_iff.mp found⟩

/-! ### Margins -/

namespace Margin

variable {margin : List Char}

theorem of_dash {outer dash inner : List Char} (front : Text.Gap outer)
    (dashed : dash = [] ∨ dash = ['-']) (back : Text.Gap inner) :
    Margin (outer ++ dash ++ inner) := by
  rcases dashed with rfl | rfl
  · rw [List.append_nil]
    exact .plain (front.append back)
  · rw [List.append_assoc]
    exact .trimming front back

theorem chars (edge : Margin margin) : ∀ c ∈ margin, Text.isBlank c = true ∨ c = '-' := by
  cases edge with
  | plain gap =>
    intro c member
    exact .inl (gap.blank c member)
  | trimming front back =>
    intro c member
    rcases List.mem_append.mp member with outside | inside
    · exact .inl (front.blank c outside)
    · rcases List.mem_cons.mp inside with rfl | inside
      · exact .inr rfl
      · exact .inl (back.blank c inside)

theorem unbroken (edge : Margin margin) : Text.Unbroken margin := by
  cases edge with
  | plain gap => exact gap.unbroken
  | trimming front back =>
    have dash : Text.Unbroken ['-'] := by decide
    exact front.unbroken.append (dash.append back.unbroken)

/-- The blanks in front of a margin, and what is left of it. -/
theorem front (edge : Margin margin) : ∃ gap rest, margin = gap ++ rest ∧ Text.Gap gap ∧
    (rest = [] ∨ ∃ inner, Text.Gap inner ∧ rest = '-' :: inner) := by
  cases edge with
  | plain gap => exact ⟨margin, [], (List.append_nil _).symm, gap, .inl rfl⟩
  | @trimming outer inner outside inside =>
    exact ⟨outer, '-' :: inner, rfl, outside, .inr ⟨inner, inside, rfl⟩⟩

/-- The blanks behind a margin, and what is left of it. -/
theorem back (edge : Margin margin) : ∃ rest gap, margin = rest ++ gap ∧ Text.Gap gap ∧
    (rest = [] ∨ ∃ outer, Text.Gap outer ∧ rest = outer ++ ['-']) := by
  cases edge with
  | plain gap => exact ⟨[], margin, rfl, gap, .inl rfl⟩
  | @trimming outer inner outside inside =>
    exact ⟨outer ++ ['-'], inner, by simp, inside, .inr ⟨outer, outside, rfl⟩⟩

end Margin

/-! ### The text of an action -/

theorem afterDash_margin {lead : List Char}
    (leading : lead = [] ∨ ∃ gap, Text.Gap gap ∧ lead = '-' :: gap)
    (first : text.head? ≠ some '-') : ∃ gap, Text.Gap gap ∧
      (Text.afterPrefix? ['-'] (lead ++ text)).getD (lead ++ text) = gap ++ text := by
  rcases leading with rfl | ⟨gap, blank, rfl⟩
  · exact ⟨[], .nil, afterDash_of_first first⟩
  · have cut : '-' :: gap ++ text = ['-'] ++ (gap ++ text) := rfl
    refine ⟨gap, blank, ?_⟩
    rw [Text.afterPrefix_eq_some_iff.mpr cut]
    rfl

theorem beforeDash_margin {trail : List Char}
    (trailing : trail = [] ∨ ∃ gap, Text.Gap gap ∧ trail = gap ++ ['-'])
    (last : text.getLast? ≠ some '-') : ∃ gap, Text.Gap gap ∧
      (Text.beforeSuffix? ['-'] (text ++ trail)).getD (text ++ trail) = text ++ gap := by
  rcases trailing with rfl | ⟨gap, blank, rfl⟩
  · rw [List.append_nil]
    exact ⟨[], .nil, (beforeDash_of_last last).trans (List.append_nil _).symm⟩
  · refine ⟨gap, blank, ?_⟩
    rw [Text.beforeSuffix_eq_some_iff.mpr (List.append_assoc _ _ _).symm]
    rfl

/-- Margins around a text are not a part of it. -/
theorem actionText_margins {front back : List Char} (before : Margin front)
    (solid : Text.Solid text) (undashed : Undashed text) (after : Margin back) :
    actionText (front ++ text ++ back) = text := by
  obtain ⟨outer, lead, rfl, outside, leading⟩ := before.front
  obtain ⟨trail, rest, rfl, behind, trailing⟩ := after.back
  have first : (text ++ trail).head? ≠ some '-' := by
    rw [List.head?_append_of_ne_nil _ solid.inhabited]
    exact undashed.first
  have dash : Text.Solid ['-'] := ⟨⟨'-', rfl, rfl⟩, '-', rfl, rfl⟩
  have core : Text.Solid (lead ++ (text ++ trail)) := by
    rcases leading with rfl | ⟨gap, -, rfl⟩ <;> rcases trailing with rfl | ⟨gap', -, rfl⟩
    · simpa using solid
    · simpa using solid.append gap' dash
    · simpa using dash.append gap solid
    · simpa using dash.append (gap ++ text ++ gap') dash
  have trimmed : Text.trim (outer ++ lead ++ text ++ (trail ++ rest)) =
      lead ++ (text ++ trail) := by
    rw [← Text.trim_gaps outside.blank behind.blank core]
    simp only [List.append_assoc]
  obtain ⟨gap, blank, started⟩ := afterDash_margin leading first
  have last : (gap ++ text).getLast? ≠ some '-' := by
    rw [List.getLast?_append_of_ne_nil _ solid.inhabited]
    exact undashed.last
  obtain ⟨gap', blank', ended⟩ := beforeDash_margin trailing last
  unfold actionText
  dsimp only
  rw [trimmed, started, ← List.append_assoc, ended]
  exact Text.trim_gaps blank.blank blank'.blank solid

/-- What stands around the text of an action are margins. -/
theorem actionText_between (unbroken : Text.Unbroken inner) :
    ∃ front back, inner = front ++ actionText inner ++ back ∧ Margin front ∧ Margin back := by
  obtain ⟨outer, rest, whole, outside, behind⟩ := Text.trim_between_gaps unbroken
  obtain ⟨s, started⟩ :
    ∃ s, (Text.afterPrefix? ['-'] (Text.trim inner)).getD (Text.trim inner) = s := ⟨_, rfl⟩
  obtain ⟨dash, dashed, front⟩ := afterDash_cut started
  obtain ⟨t, ended⟩ : ∃ t, (Text.beforeSuffix? ['-'] s).getD s = t := ⟨_, rfl⟩
  obtain ⟨dash', dashed', back⟩ := beforeDash_cut ended
  have action : actionText inner = Text.trim t := by
    unfold actionText
    dsimp only
    rw [started, ended]
  have part : Text.Unbroken t := by
    refine unbroken.of_subset (List.Subset.trans ?_ (Text.trim_subset inner))
    rw [front, back]
    exact List.subset_append_of_subset_right _ (List.subset_append_left _ _)
  obtain ⟨gap, gap', middle, within, within'⟩ := Text.trim_between_gaps part
  refine ⟨outer ++ dash ++ gap, gap' ++ dash' ++ rest, ?_, .of_dash outside dashed within,
    .of_dash within' dashed' behind⟩
  calc
    inner = outer ++ Text.trim inner ++ rest := whole
    _ = outer ++ (dash ++ (t ++ dash')) ++ rest := by rw [front, back]
    _ = outer ++ (dash ++ ((gap ++ actionText inner ++ gap') ++ dash')) ++ rest := by
      rw [action, ← middle]
    _ = (outer ++ dash ++ gap) ++ actionText inner ++ (gap' ++ dash' ++ rest) := by
      simp only [List.append_assoc]

namespace Inside

theorem words (inside : Inside ws inner) : Text.words (actionText inner) = ws := by
  cases inside with
  | mk before spaced undashed after =>
    rw [actionText_margins before spaced.solid undashed after]
    exact spaced.words

theorem single_iff {x : Char} (inside : Inside ws inner) (brace : x ∈ ['{', '}']) :
    Text.Single x inner ↔ ∀ w ∈ ws, Text.Single x w := by
  obtain ⟨visible, apart⟩ : Text.isBlank x = false ∧ x ≠ '-' := by
    rcases List.mem_pair.mp brace with rfl | rfl
    · exact ⟨rfl, by decide⟩
    · exact ⟨rfl, by decide⟩
  obtain @⟨front, text, back, before, spaced, -, after⟩ := inside
  have edge : ∀ {margin : List Char}, Margin margin → x ∉ margin := by
    intro margin edge member
    rcases edge.chars x member with blank | rfl
    · rw [blank] at visible
      contradiction
    · exact apart rfl
  constructor
  · intro single w member
    exact single.within ((spaced.within w member).trans ⟨front, back, rfl⟩)
  · intro single
    refine ((Text.single_of_not_mem (edge before)).append (spaced.single visible single) ?_).append
      (Text.single_of_not_mem (edge after)) ?_
    · exact fun last => absurd (List.mem_of_getLast? last) (edge before)
    · exact fun _ first => edge after (List.mem_of_head? first)

end Inside

/-! ### The line of an action -/

theorem soleAction?_eq_some_iff : soleAction? line = some inner ↔
    Text.trim line = openMark ++ inner ++ closeMark ∧ ∀ x ∈ ['{', '}'], Text.Single x inner := by
  have unmarked : (!Text.contains openMark inner && !Text.contains closeMark inner) = true ↔
      ∀ x ∈ ['{', '}'], Text.Single x inner := by
    simp [← Bool.not_eq_true, Text.contains_iff_isInfix, Text.single_iff_not_within, openMark,
      closeMark]
  have marked : (Text.afterPrefix? openMark (Text.trim line)).bind
      (Text.beforeSuffix? closeMark) = some inner ↔
        Text.trim line = openMark ++ inner ++ closeMark := by
    simp [Option.bind_eq_some_iff, Text.afterPrefix_eq_some_iff, Text.beforeSuffix_eq_some_iff]
  rw [soleAction?, Option.filter_eq_some_iff, unmarked, marked]

theorem kindOf_ok_iff (action : kind ≠ .text) : kindOf n line = .ok kind ↔
    ∃ ws, actionWords? line = some ws ∧ kindOfWords? ws = some kind := by
  unfold kindOf actionWords?
  cases soleAction? line with
  | none => simp [action.symm]
  | some inner =>
    cases found : kindOfWords? (Text.words (actionText inner)) with
    | none => simp [found]
    | some other => simp [found]

namespace ActionLine

/-- What an action stands between. -/
theorem cut (laid : ActionLine ws line) :
    ∃ inner, Text.trim line = openMark ++ inner ++ closeMark ∧ Inside ws inner := by
  cases laid with
  | @mk before inner after front inside back =>
    refine ⟨inner, Text.trim_gaps front.blank back.blank ?_, inside⟩
    have opening : Text.Solid openMark := ⟨⟨'{', rfl, rfl⟩, '{', rfl, rfl⟩
    have closing : Text.Solid closeMark := ⟨⟨'}', rfl, rfl⟩, '}', rfl, rfl⟩
    exact opening.append inner closing

/-- The words of a line are found again, unless a mark is hidden in one of them. -/
theorem actionWords?_eq_some_iff (laid : ActionLine ws line) : actionWords? line = some vs ↔
    vs = ws ∧ ∀ x ∈ ['{', '}'], ∀ w ∈ ws, Text.Single x w := by
  obtain ⟨inner, trimmed, inside⟩ := laid.cut
  rw [actionWords?, Option.map_eq_some_iff]
  constructor
  · rintro ⟨inner', sole, rfl⟩
    obtain ⟨trimmed', single⟩ := soleAction?_eq_some_iff.mp sole
    obtain rfl : inner = inner' :=
      List.append_cancel_left (List.append_cancel_right (trimmed.symm.trans trimmed'))
    exact ⟨inside.words, fun x brace => (inside.single_iff brace).mp (single x brace)⟩
  · rintro ⟨rfl, single⟩
    refine ⟨inner, soleAction?_eq_some_iff.mpr ⟨trimmed, fun x brace => ?_⟩, inside.words⟩
    exact (inside.single_iff brace).mpr (single x brace)

theorem kindOf_iff (laid : ActionLine ws line) (action : kind ≠ .text) :
    kindOf n line = .ok kind ↔
      kindOfWords? ws = some kind ∧ ∀ x ∈ ['{', '}'], ∀ w ∈ ws, Text.Single x w := by
  rw [kindOf_ok_iff action]
  constructor
  · rintro ⟨vs, words, found⟩
    obtain ⟨rfl, single⟩ := laid.actionWords?_eq_some_iff.mp words
    exact ⟨found, single⟩
  · rintro ⟨found, single⟩
    exact ⟨ws, laid.actionWords?_eq_some_iff.mpr ⟨rfl, single⟩, found⟩

theorem inhabited (laid : ActionLine ws line) : line ≠ [] := by
  cases laid with
  | mk => simp [openMark]

theorem unbroken (laid : ActionLine ws line) : Text.Unbroken line := by
  obtain @⟨before, _, after, front, ⟨start, spaced, -, ending⟩, back⟩ := laid
  have words : ∀ w ∈ ws, Text.Unbroken w := fun w member => (spaced.isWord w member).unbroken
  have inner := (start.unbroken.append (spaced.unbroken words)).append ending.unbroken
  have opening : Text.Unbroken openMark := by decide
  exact (front.unbroken.append ((opening.append inner).append (by decide))).append back.unbroken

end ActionLine

/-! ### The words that mark a block -/

theorem fieldName?_last {name : List Char} (found : fieldName? w = some name) :
    w.getLast? ≠ some '-' := by
  unfold fieldName? at found
  dsimp only at found
  obtain ⟨cut, named⟩ := Option.filter_eq_some_iff.mp found
  obtain ⟨given, chars⟩ := Bool.and_eq_true_iff.mp named
  have behind : name <:+ w := by
    split at cut
    · rw [← Option.some.inj cut]
      exact ⟨['$', '.'], rfl⟩
    · rw [← Option.some.inj cut]
      exact ⟨['.'], rfl⟩
    · contradiction
  obtain ⟨front, rfl⟩ := behind
  rw [List.getLast?_append_of_ne_nil _ (by simpa using given)]
  intro last
  have dash := List.all_eq_true.mp chars '-' (List.mem_of_getLast? last)
  contradiction

theorem quoted?_last {name : String} (found : quoted? w = some name) : w.getLast? ≠ some '-' := by
  obtain ⟨inner, cut, -⟩ := Option.map_eq_some_iff.mp found
  obtain ⟨rest, opened, closed⟩ := Option.bind_eq_some_iff.mp cut
  rw [Text.afterPrefix_eq_some_iff.mp opened, Text.beforeSuffix_eq_some_iff.mp closed,
    ← List.append_assoc, List.getLast?_concat]
  decide

theorem quoted_of_mapM {names : List String} (found : ws.mapM quoted? = some names) :
    ∀ w ∈ ws, ∃ name, quoted? w = some name := by
  induction ws generalizing names with
  | nil => exact fun _ => nofun
  | cons w ws ih =>
    rw [List.mapM_cons] at found
    obtain ⟨name, first, found⟩ := Option.bind_eq_some_iff.mp found
    obtain ⟨others, behind, -⟩ := Option.bind_eq_some_iff.mp found
    exact List.forall_mem_cons.mpr ⟨⟨name, first⟩, ih behind⟩

theorem guardOf?_last {guard : Guard} (found : guardOf? ws = some guard) :
    ∃ w ∈ ws.getLast?, w.getLast? ≠ some '-' := by
  unfold guardOf? at found
  split at found
  · rename_i flag
    obtain ⟨name, field, -⟩ := Option.map_eq_some_iff.mp found
    exact ⟨flag, rfl, fieldName?_last field⟩
  · rename_i first second rest
    split_ifs at found with negated eq base
    · obtain ⟨nothing, -⟩ := Bool.and_eq_true_iff.mp negated
      obtain rfl := List.isEmpty_iff.mp nothing
      obtain ⟨name, field, -⟩ := Option.map_eq_some_iff.mp found
      exact ⟨second, rfl, fieldName?_last field⟩
    · obtain ⟨given, -⟩ := Bool.and_eq_true_iff.mp eq
      obtain ⟨names, quoted, -⟩ := Option.map_eq_some_iff.mp found
      have some : rest ≠ [] := by simpa using given
      obtain ⟨name, last⟩ := quoted_of_mapM quoted _ (List.getLast_mem some)
      refine ⟨rest.getLast some, ?_, quoted?_last last⟩
      rw [List.getLast?_cons_cons, List.getLast?_cons_of_ne_nil some]
      exact List.getLast?_eq_some_getLast some
  · contradiction

/-- The words of an action that opens, divides or closes a block. -/
theorem kindOfWords?_cases (found : kindOfWords? ws = some kind) (action : kind ≠ .text) :
    (∃ guard rest, guardOf? rest = some guard ∧ ws = "if".toList :: rest) ∨
      (∃ rest ∈ packageList, ws = "range".toList :: rest) ∨
      ws = ["else".toList] ∨ ws = ["end".toList] := by
  unfold kindOfWords? at found
  split at found
  · exact absurd (Option.some.inj found).symm action
  · rename_i word rest
    split_ifs at found with opens repeats packages divides closes
    · obtain ⟨guard, condition, -⟩ := Option.map_eq_some_iff.mp found
      exact .inl ⟨guard, rest, condition, by rw [beq_iff_eq.mp opens]⟩
    · refine .inr (.inl ⟨rest, List.contains_iff_mem.mp packages, ?_⟩)
      rw [beq_iff_eq.mp repeats]
    · obtain ⟨first, nothing⟩ := Bool.and_eq_true_iff.mp divides
      rw [beq_iff_eq.mp first, List.isEmpty_iff.mp nothing]
      exact .inr (.inr (.inl rfl))
    · obtain ⟨first, nothing⟩ := Bool.and_eq_true_iff.mp closes
      rw [beq_iff_eq.mp first, List.isEmpty_iff.mp nothing]
      exact .inr (.inr (.inr rfl))
    · exact absurd (Option.some.inj found).symm action

theorem kindOfWords?_ends (found : kindOfWords? ws = some kind) (action : kind ≠ .text) :
    (∃ w ∈ ws.head?, w.head? ≠ some '-') ∧ ∃ w ∈ ws.getLast?, w.getLast? ≠ some '-' := by
  rcases kindOfWords?_cases found action with
    ⟨guard, rest, condition, rfl⟩ | ⟨rest, packages, rfl⟩ | rfl | rfl
  · obtain ⟨w, last, undashed⟩ := guardOf?_last condition
    refine ⟨⟨_, rfl, by decide⟩, w, ?_, undashed⟩
    rw [List.getLast?_cons, last]
    rfl
  · clear found
    revert rest
    decide
  · decide
  · decide

theorem undashed_of_kind (spaced : Text.Spaced ws text) (found : kindOfWords? ws = some kind)
    (action : kind ≠ .text) : Undashed text := by
  obtain ⟨⟨v, first, undashed⟩, w, last, undashed'⟩ := kindOfWords?_ends found action
  constructor
  · rw [spaced.head?, first]
    exact undashed
  · rw [spaced.getLast?, last]
    exact undashed'

/-- What stands between the marks of an action that opens, divides or closes a block. -/
theorem Inside.of_kind (unbroken : Text.Unbroken inner)
    (found : kindOfWords? (Text.words (actionText inner)) = some kind) (action : kind ≠ .text) :
    Inside (Text.words (actionText inner)) inner := by
  obtain ⟨front, back, cut, before, after⟩ := actionText_between unbroken
  have given : actionText inner ≠ [] := by
    intro nothing
    rw [nothing] at found
    exact action (Option.some.inj found).symm
  have part : Text.Unbroken (actionText inner) := by
    have sub : actionText inner ⊆ front ++ actionText inner ++ back :=
      List.subset_append_of_subset_left _ (List.subset_append_right _ _)
    rw [← cut] at sub
    exact unbroken.of_subset sub
  have solid : Text.Solid (actionText inner) := Text.solid_trim given
  have spaced := solid.spaced part
  have inside := Inside.mk before spaced (undashed_of_kind spaced found action) after
  rwa [← cut] at inside

/-- The line of an action that opens, divides or closes a block is laid out as an action. -/
theorem actionLine_of_kind (unbroken : Text.Unbroken line) (words : actionWords? line = some ws)
    (found : kindOfWords? ws = some kind) (action : kind ≠ .text) : ActionLine ws line := by
  obtain ⟨inner, sole, rfl⟩ := Option.map_eq_some_iff.mp words
  obtain ⟨trimmed, -⟩ := soleAction?_eq_some_iff.mp sole
  obtain ⟨before, after, cut, front, back⟩ := Text.trim_between_gaps unbroken
  rw [trimmed] at cut
  have within : Text.Unbroken inner := by
    refine unbroken.of_subset (List.Subset.trans ?_ (Text.trim_subset line))
    rw [trimmed, List.append_assoc]
    exact List.subset_append_of_subset_right _ (List.subset_append_left _ _)
  exact cut ▸ .mk front (.of_kind within found action) back

end ImagePipeline.Template
