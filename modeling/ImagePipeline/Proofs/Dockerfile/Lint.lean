import ImagePipeline.Dockerfile.Lint

/-! A Dockerfile has no structural problem once some of its lines make up stages. -/
namespace ImagePipeline.Dockerfile

/-- The words of those lines that start a stage. -/
def stageWords (lines : List (List Char)) : List (List (List Char)) :=
  (lines.map Text.words).filter fun words => words.head?.any (sameKeyword "FROM")

theorem stageLines_eq (content : List Char) :
    stageLines content = stageWords (Text.lines content) := rfl

theorem stageWords_sublist {kept lines : List (List Char)} (sublist : kept.Sublist lines) :
    (stageWords kept).Sublist (stageWords lines) :=
  (sublist.map Text.words).filter _

theorem lint_of_sublist {kept : List (List Char)} {content : String}
    (sublist : kept.Sublist (Text.lines content.toList)) (two : 2 ≤ (stageWords kept).length)
    (named : (stageWords kept).any namesFinal = true) : lint content = [] := by
  have inside := stageWords_sublist sublist
  rw [← stageLines_eq] at inside
  have enough := Nat.le_trans two inside.length_le
  have some : (stageLines content.toList).isEmpty = false := by
    cases stages : stageLines content.toList with
    | nil => simp [stages] at enough
    | cons => rfl
  have final : (stageLines content.toList).any namesFinal = true := by
    obtain ⟨words, member, final⟩ := List.any_eq_true.mp named
    exact List.any_eq_true.mpr ⟨words, inside.subset member, final⟩
  simp only [lint, some, final, Nat.not_lt.mpr enough, Bool.false_eq_true, if_true, if_false,
    List.append_nil]

end ImagePipeline.Dockerfile
