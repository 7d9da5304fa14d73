import ImagePipeline.Proofs.Template.ActionLines
import ImagePipeline.Proofs.Template.Guards

/-! Templates without actions. Every line is text and is given as it is. What is rendered is the
template itself, with its blank lines and with or without a line feed at its end. The one exception
is a single line feed: what has no visible line is given no line feed either. -/
namespace ImagePipeline.Template

variable {c : Context} {item : Option String} {n : Nat} {line : List Char}

theorem soleAction?_marked {inner : List Char} (found : soleAction? line = some inner) :
    openMark <:+: line := by
  obtain ⟨trimmed, -⟩ := soleAction?_eq_some_iff.mp found
  obtain ⟨before, after, cut, -⟩ := Text.trim_between line
  have start : openMark <:+: Text.trim line := by
    rw [trimmed, List.append_assoc]
    exact (List.prefix_append _ _).isInfix
  exact start.trans ⟨before, after, cut.symm⟩

theorem kindOf_of_unmarked (unmarked : ¬openMark <:+: line) (n : Nat) :
    kindOf n line = .ok .text := by
  unfold kindOf
  split
  · rfl
  · rename_i found
    exact absurd (soleAction?_marked found) unmarked

theorem pieces_of_unmarked (unmarked : ¬openMark <:+: line) (started : List Char) :
    pieces false started line = [.literal (started.reverse ++ line)] := by
  induction line generalizing started with
  | nil => simp [pieces]
  | cons d line ih =>
    have behind : ¬openMark <:+: line := fun inside => unmarked (List.infix_cons inside)
    have apart : ∀ rest, d = '{' → line ≠ '{' :: rest := by
      rintro rest rfl rfl
      exact unmarked ⟨[], rest, rfl⟩
    rw [pieces]
    · rw [ih behind, List.reverse_cons, List.append_assoc]
      rfl
    · exact fun rest _ => apart rest
    · intro _ inside
      contradiction

theorem substitute_of_unmarked (unmarked : ¬openMark <:+: line) :
    substitute c item n line = .ok line := by
  rw [substitute, pieces_of_unmarked unmarked]
  exact congrArg Except.ok (List.append_nil line)

/-- Lines of text form a node each. -/
theorem Forms.texts {rs : List ReadLine} (kinds : ∀ x ∈ rs, x.kind = .text) :
    Forms rs (rs.map fun x => .text x.number x.content) := by
  induction rs with
  | nil => exact .empty
  | cons x rs ih =>
    obtain ⟨first, others⟩ := List.forall_mem_cons.mp kinds
    exact .text first (ih others)

theorem parse_of_unmarked {template : List Char}
    (unmarked : ∀ line ∈ Text.lines template, ¬openMark <:+: line) :
    ∃ rs : List ReadLine, rs.map ReadLine.content = Text.lines template ∧
      parse template = .ok (rs.map fun x => .text x.number x.content) := by
  have known : List.Forall₂ (fun line kind => ∀ n, kindOf n line = .ok kind)
      (Text.lines template) ((Text.lines template).map fun _ => .text) := by
    apply List.forall₂_map_right_iff.mpr
    apply List.forall₂_same.mpr
    intro line member
    exact kindOf_of_unmarked (unmarked line member)
  obtain ⟨rs, reads, kinds⟩ := reads_of_kinds known 1
  refine ⟨rs, reads.contents, parse_ok_iff.mpr ⟨rs, reads, Forms.texts ?_⟩⟩
  intro x member
  have inside := List.mem_map_of_mem (f := ReadLine.kind) member
  rw [kinds] at inside
  obtain ⟨_, -, same⟩ := List.mem_map.mp inside
  exact same.symm

theorem renderNodes_texts {rs : List ReadLine}
    (unmarked : ∀ line ∈ rs.map ReadLine.content, ¬openMark <:+: line) :
    renderNodes c none (rs.map fun x => .text x.number x.content) =
      .ok (rs.map ReadLine.content) := by
  induction rs with
  | nil => rfl
  | cons x rs ih =>
    obtain ⟨first, others⟩ := List.forall_mem_cons.mp unmarked
    apply renderNodes_cons_ok.mpr
    refine ⟨[x.content], rs.map ReadLine.content, ?_, ih others, rfl⟩
    rw [Node.render, substitute_of_unmarked first]
    rfl

/-- The lines of a template put together are the template, unless that is a single line feed. -/
theorem assemble_lines {template : List Char} (unreturned : '\r' ∉ template) :
    assemble template (Text.lines template) = if template = ['\n'] then [] else template := by
  have whole := Text.unlines_lines unreturned
  unfold assemble
  dsimp only
  cases ends : Text.endsWithLineFeed template with
  | false =>
    have other : template ≠ ['\n'] := by
      rintro rfl
      contradiction
    rw [ends, if_neg Bool.false_ne_true, List.append_nil] at whole
    rw [if_neg other, whole]
    rfl
  | true =>
    rw [ends, if_pos rfl] at whole
    by_cases nothing : Text.unlines (Text.lines template) = []
    · rw [nothing, List.nil_append] at whole
      rw [if_pos whole.symm, nothing]
      rfl
    · have other : template ≠ ['\n'] := by
        intro single
        rw [single] at nothing
        contradiction
      rw [if_neg other, if_pos (by simp [nothing]), whole]

/-- A text without actions is rendered as it is, whatever its blank lines and whether or not a
line feed ends it. A single line feed alone is rendered as nothing. -/
theorem plain_text_rendered (template : String) (c : Context)
    (unmarked : ¬openMark <:+: template.toList) (unreturned : '\r' ∉ template.toList) :
    render template c = .ok (if template = "\n" then "" else template) := by
  have within : ∀ line ∈ Text.lines template.toList, ¬openMark <:+: line := by
    intro line member inside
    exact unmarked (inside.trans (Text.infix_of_mem_lines unreturned member))
  obtain ⟨rs, contents, parsed⟩ := parse_of_unmarked within
  have rendered := renderNodes_texts (c := c) (contents.symm ▸ within)
  rw [render_ok parsed rendered, contents, assemble_lines unreturned]
  by_cases single : template = "\n"
  · subst single
    rfl
  · have other : template.toList ≠ ['\n'] := fun same => single (String.toList_inj.mp same)
    rw [if_neg single, if_neg other, String.ofList_toList]

/-- Braces that are no marks, a mark's half, and blank lines at the start and in the middle. -/
def shellText : String := "\nRUN ok() \x7b :; \x7d\n\n  # \x7b \x7b .Arch \x7d\x7d\n\n"

theorem shellText_rendered :
    (¬openMark <:+: shellText.toList ∧ '\r' ∉ shellText.toList) ∧
      render shellText (.ofBase .alpine320) = .ok shellText := by
  have unmarked : ¬openMark <:+: shellText.toList := by decide +kernel
  have unreturned : '\r' ∉ shellText.toList := by decide +kernel
  have other : shellText ≠ "\n" := by decide +kernel
  have rendered := plain_text_rendered shellText (.ofBase .alpine320) unmarked unreturned
  rw [if_neg other] at rendered
  exact ⟨⟨unmarked, unreturned⟩, rendered⟩

/-- The text of one line feed is not given as it is. -/
theorem line_feed_dropped :
    (¬openMark <:+: "\n".toList ∧ '\r' ∉ "\n".toList) ∧
      render "\n" (.ofBase .alpine320) = .ok "" ∧
      render "\n" (.ofBase .alpine320) ≠ .ok "\n" := by
  decide +kernel

end ImagePipeline.Template
