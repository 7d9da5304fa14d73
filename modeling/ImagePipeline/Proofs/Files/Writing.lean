import ImagePipeline.Files.Basic

/-! What a path leads to behind a change of the tree. A file that has been written is found by
the same path, and holds what was written. -/
namespace ImagePipeline.FileTree

variable {t u : FileTree} {l other : Location} {e : Entry} {p : Path} {content : ByteArray}

theorem lookup_replaceEntry (entries : List (Location × Entry)) :
    (replaceEntry l e entries).lookup other =
      if other = l then some e else entries.lookup other := by
  induction entries with
  | nil =>
    by_cases same : other = l
    · simp [replaceEntry, same]
    · simp [replaceEntry, List.lookup_cons, beq_false_of_ne same, same]
  | cons entry entries ih =>
    obtain ⟨place, kept⟩ := entry
    by_cases here : place = l
    · by_cases same : other = l
      · simp [replaceEntry, here, same]
      · simp [replaceEntry, List.lookup_cons, here, beq_false_of_ne same, same]
    · by_cases same : other = place
      · simp [replaceEntry, here, same]
      · simp [replaceEntry, List.lookup_cons, here, beq_false_of_ne same, ih]

theorem lookup_put (below : l ≠ []) :
    (t.put l e).lookup other = if other = l then some e else t.lookup other := by
  unfold lookup put
  rw [lookup_replaceEntry]
  by_cases top : other = []
  · simp [top, below.symm]
  · simp [top]

theorem ne_top_of_lookup (noDirectory : t.lookup l ≠ some .directory) : l ≠ [] := by
  rintro rfl
  exact noDirectory rfl

/-- The way to a place that is no directory does not lead through that place, so it stays the
same whatever is put there. -/
theorem walk_put {here : Location} {steps : List String} (walked : t.walk here steps = .ok l)
    (noDirectory : t.lookup l ≠ some .directory) : (t.put l e).walk here steps = .ok l := by
  induction steps generalizing here with
  | nil => exact walked
  | cons step steps ih =>
    unfold walk at walked ⊢
    split at walked
    · cases walked
    · cases walked
    · rename_i directory
      have elsewhere : here ≠ l := by
        rintro rfl
        exact noDirectory directory
      rw [lookup_put (ne_top_of_lookup noDirectory), if_neg elsewhere, directory]
      exact ih walked

theorem locate_put (located : t.locate p = .ok l) (noDirectory : t.lookup l ≠ some .directory) :
    (t.put l e).locate p = .ok l := by
  unfold locate at located ⊢
  split at located
  · cases located
  · split at located
    · cases located
    · rw [if_neg ‹_›, if_neg ‹_›]
      exact walk_put located noDirectory

/-- What a write does that succeeds: the path leads to a place that is no directory, and the
content is put there. -/
theorem put_of_write (written : t.write p content = .ok u) :
    ∃ l executable, t.locate p = .ok l ∧ t.lookup l ≠ some .directory ∧
      wantsDirectory p = false ∧ u = t.put l (.file content executable) := by
  unfold write at written
  cases located : t.locate p with
  | error e =>
    rw [located] at written
    cases written
  | ok l =>
    simp only [located, bind, Except.bind] at written
    cases found : t.lookup l with
    | none =>
      cases file : wantsDirectory p with
      | true => simp [found, file, throw, throwThe, MonadExceptOf.throw] at written
      | false =>
        simp only [found, file, Bool.false_eq_true, if_false, pure, Except.pure] at written
        exact ⟨l, false, rfl, by simp [found], rfl, (Except.ok.inj written).symm⟩
    | some entry =>
      cases entry with
      | directory => simp [found, throw, throwThe, MonadExceptOf.throw] at written
      | file old executable =>
        cases file : wantsDirectory p with
        | true => simp [found, file, throw, throwThe, MonadExceptOf.throw] at written
        | false =>
          simp only [found, file, Bool.false_eq_true, if_false, pure, Except.pure] at written
          exact ⟨l, executable, rfl, by simp [found], rfl, (Except.ok.inj written).symm⟩

/-- A file that has been written holds what was written to it. -/
theorem read_of_write (written : t.write p content = .ok u) : u.read p = .ok content := by
  obtain ⟨l, executable, located, noDirectory, file, rfl⟩ := put_of_write written
  have there : (t.put l (.file content executable)).locate p = .ok l :=
    locate_put located noDirectory
  have holds : (t.put l (.file content executable)).lookup l = some (.file content executable) := by
    rw [lookup_put (ne_top_of_lookup noDirectory), if_pos rfl]
  simp [read, find, there, holds, file, bind, Except.bind, pure, Except.pure]

end ImagePipeline.FileTree
