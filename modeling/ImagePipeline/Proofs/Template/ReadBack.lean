import ImagePipeline.Proofs.Template.Blocks

/-! Reading a template back from its tree: every line stands in the tree once, unchanged and
with its number, but for an `else` with nothing behind it. -/
namespace ImagePipeline.Template

/-- What can be read back of a line from the tree of its template. -/
inductive Mark where
  | text (line : Nat) (content : List Char)
  | opening (line : Nat) (guard : Guard)
  | repeating
  | otherwise
  | closing
  deriving DecidableEq, Repr

def ReadLine.mark (x : ReadLine) : Mark :=
  match x.kind with
  | .text => .text x.number x.content
  | .opening g => .opening x.number g
  | .repeating => .repeating
  | .otherwise => .otherwise
  | .closing => .closing

mutual

/-- A node read back: the line that opens it, its branches, the line that closes it. -/
def Node.marks : Node → List Mark
  | .text n content => [.text n content]
  | .branch n guard chosen otherwise =>
    .opening n guard :: marksOf chosen ++
      (if otherwise.isEmpty then [] else .otherwise :: marksOf otherwise) ++ [.closing]
  | .loop body => .repeating :: marksOf body ++ [.closing]

def marksOf : List Node → List Mark
  | [] => []
  | n :: ns => n.marks ++ marksOf ns

end

/-- Leaves out every `else` with nothing between it and the end of its block. -/
def dropEmptyElse : List Mark → List Mark
  | [] => []
  | .otherwise :: .closing :: rest => .closing :: dropEmptyElse rest
  | m :: rest => m :: dropEmptyElse rest

theorem dropEmptyElse_cons {m : Mark} (rest : List Mark) (other : m ≠ .otherwise) :
    dropEmptyElse (m :: rest) = m :: dropEmptyElse rest := by
  cases m with
  | otherwise => contradiction
  | text | opening | repeating | closing => rw [dropEmptyElse]; simp

theorem dropEmptyElse_otherwise {m : Mark} (rest : List Mark) (other : m ≠ .closing) :
    dropEmptyElse (.otherwise :: m :: rest) = .otherwise :: dropEmptyElse (m :: rest) := by
  rw [dropEmptyElse]
  simpa using other

theorem mark_ne_closing {x : ReadLine} (other : x.kind ≠ .closing) : x.mark ≠ .closing := by
  unfold ReadLine.mark
  cases kind : x.kind with
  | closing => exact absurd kind other
  | text | opening | repeating | otherwise => exact Mark.noConfusion

/-- A block from its `else` on, given how the lines behind the `else` are read back. -/
theorem dropEmptyElse_branch {other : List ReadLine} {otherwise : List Node}
    (forms : Forms other otherwise)
    (read : ∀ rest, dropEmptyElse (other.map ReadLine.mark ++ rest) =
      marksOf otherwise ++ dropEmptyElse rest) (rest : List Mark) :
    dropEmptyElse (.otherwise :: (other.map ReadLine.mark ++ .closing :: rest)) =
      (if otherwise.isEmpty then [] else .otherwise :: marksOf otherwise) ++
        .closing :: dropEmptyElse rest := by
  cases other with
  | nil =>
    obtain rfl := forms.nil_iff.mp rfl
    rfl
  | cons first others =>
    have inhabited : otherwise.isEmpty = false := by
      cases otherwise with
      | nil => exact absurd (forms.nil_iff.mpr rfl) (List.cons_ne_nil _ _)
      | cons => rfl
    have inside := read (.closing :: rest)
    rw [dropEmptyElse_cons rest Mark.noConfusion] at inside
    rw [List.map_cons, List.cons_append,
      dropEmptyElse_otherwise _ (mark_ne_closing forms.head_kind), inhabited]
    exact congrArg (Mark.otherwise :: ·) inside

/-- The nodes that lines form are read back as these lines, whatever lines follow. -/
theorem Forms.marks {rs : List ReadLine} {nodes : List Node} (forms : Forms rs nodes)
    (rest : List Mark) :
    dropEmptyElse (rs.map ReadLine.mark ++ rest) = marksOf nodes ++ dropEmptyElse rest := by
  induction forms generalizing rest with
  | empty => simp [marksOf]
  | text kind _ ih =>
    simp [marksOf, Node.marks, ReadLine.mark, kind, dropEmptyElse_cons, ih]
  | branch opens closes _ _ inner behind =>
    simp [marksOf, Node.marks, ReadLine.mark, opens, closes, dropEmptyElse_cons, inner, behind]
  | loop opens closes _ _ inner behind =>
    simp [marksOf, Node.marks, ReadLine.mark, opens, closes, dropEmptyElse_cons, inner, behind]
  | @divided x y z _ _ _ _ _ _ _ opens divides closes _ other _ inner beside behind =>
    have dividing : y.mark = .otherwise := by rw [ReadLine.mark, divides]
    have closing : z.mark = .closing := by rw [ReadLine.mark, closes]
    simp only [List.map_append, List.map_cons, List.append_assoc, List.cons_append, dividing,
      closing]
    -- the `else` stays or goes with the lines behind it, so it is read together with them
    rw [dropEmptyElse_cons _ (by simp [ReadLine.mark, opens]), inner,
      dropEmptyElse_branch other beside, behind]
    simp [marksOf, Node.marks, ReadLine.mark, opens]

/-- A template has a tree just if all of its lines can be read and their kinds make up whole
blocks, and the tree is that of a derivation. Read back it gives the lines in order, but
for an `else` with nothing behind it. -/
theorem parse_reads_back (template : List Char) :
    ((∃ nodes, parse template = .ok nodes) ↔
      ∃ rs, Reads 1 (Text.lines template) rs ∧ Blocks (rs.map ReadLine.kind)) ∧
    ∀ nodes, parse template = .ok nodes ↔
      ∃ rs, Reads 1 (Text.lines template) rs ∧ Forms rs nodes ∧
        marksOf nodes = dropEmptyElse (rs.map ReadLine.mark) := by
  refine ⟨⟨?_, ?_⟩, fun nodes => ⟨?_, ?_⟩⟩
  · rintro ⟨nodes, parsed⟩
    obtain ⟨rs, reads, forms⟩ := parse_ok_iff.mp parsed
    exact ⟨rs, reads, forms.generated⟩
  · rintro ⟨rs, reads, generated⟩
    obtain ⟨nodes, forms⟩ := Forms.of_generated generated rfl
    exact ⟨nodes, parse_ok_iff.mpr ⟨rs, reads, forms⟩⟩
  · intro parsed
    obtain ⟨rs, reads, forms⟩ := parse_ok_iff.mp parsed
    have whole := forms.marks []
    simp only [List.append_nil, dropEmptyElse] at whole
    exact ⟨rs, reads, forms, whole.symm⟩
  · rintro ⟨rs, reads, forms, -⟩
    exact parse_ok_iff.mpr ⟨rs, reads, forms⟩

end ImagePipeline.Template
