import ImagePipeline.Proofs.Text.Blank
import Mathlib.Data.List.Chain

/-! Texts in which a character never stands twice in a row. Put together they are one again if no
two of these characters meet. -/
namespace ImagePipeline.Text

variable {x : Char} {s t : List Char}

def Single (x : Char) (s : List Char) : Prop := s.IsChain fun a b => a = x → b ≠ x

theorem single_iff_not_within : Single x s ↔ ¬[x, x] <:+: s := by
  rw [Single, List.isChain_iff_forall_rel_of_append_cons_cons]
  constructor
  · rintro apart ⟨front, back, rfl⟩
    have cut : front ++ [x, x] ++ back = front ++ x :: x :: back := by simp
    exact apart cut rfl rfl
  · rintro absent a b front back rfl rfl rfl
    exact absent ⟨front, back, by simp⟩

theorem single_of_not_mem (absent : x ∉ s) : Single x s := by
  apply single_iff_not_within.mpr
  intro inside
  exact absent (inside.subset List.mem_cons_self)

theorem Single.within (single : Single x t) (inside : s <:+: t) : Single x s :=
  List.IsChain.infix single inside

theorem Single.append (front : Single x s) (back : Single x t)
    (apart : s.getLast? = some x → t.head? ≠ some x) : Single x (s ++ t) := by
  refine List.isChain_append.mpr ⟨front, back, ?_⟩
  rintro a last b first rfl rfl
  exact apart last first

end ImagePipeline.Text
