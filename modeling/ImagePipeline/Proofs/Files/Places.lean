import Mathlib.Data.List.Induction
import ImagePipeline.Proofs.Files.Steps
import ImagePipeline.Proofs.Files.Writing

/-! The place that a path leads to. It is read off the steps of the path alone; the tree only
decides whether the way is open, and a way that is open stays so while no directory goes away. -/
namespace ImagePipeline.FileTree

variable {t u : FileTree} {here l : Location} {steps : List String} {p : Path} {e : Entry}

/-- Where steps lead from a place. -/
def resolve (here : Location) (steps : List String) : Location :=
  steps.foldl (fun here step => if step == ".." then here.dropLast else here ++ [step]) here

def placeOf (p : Path) : Location := resolve [] (stepsOf p)

theorem resolve_append (here : Location) (front back : List String) :
    resolve here (front ++ back) = resolve (resolve here front) back := List.foldl_append

/-- Where no step leads upwards, all of them are on the way. -/
theorem resolve_of_stays (here : Location) (stays : ".." ∉ steps) :
    resolve here steps = here ++ steps := by
  induction steps generalizing here with
  | nil => exact (List.append_nil here).symm
  | cons step steps ih =>
    rw [List.mem_cons, not_or] at stays
    have forward : (step == "..") = false := beq_false_of_ne (Ne.symm stays.1)
    rw [resolve, List.foldl_cons, forward, ← resolve, if_neg (by simp), ih _ stays.2,
      List.append_assoc, List.singleton_append]

theorem placeOf_of_stays (stays : ".." ∉ stepsOf p) : placeOf p = stepsOf p :=
  resolve_of_stays [] stays

theorem placeOf_join {q : Path} (below : q.isAbsolute = false) (stays : ".." ∉ stepsOf q) :
    placeOf (p.join q) = placeOf p ++ stepsOf q := by
  rw [placeOf, stepsOf_join below, resolve_append, resolve_of_stays _ stays, placeOf]

theorem walk_place (walked : t.walk here steps = .ok l) : l = resolve here steps := by
  induction steps generalizing here with
  | nil => exact (Except.ok.inj walked).symm
  | cons step steps ih =>
    unfold walk at walked
    split at walked
    · cases walked
    · cases walked
    · exact ih walked

theorem locate_place (located : t.locate p = .ok l) : l = placeOf p := by
  unfold locate at located
  split at located
  · cases located
  · split at located
    · cases located
    · exact walk_place located

/-! ### Finding -/

/-- What a path leads to is what is at its place, if it does not want a directory there. -/
theorem find_ok_iff : t.find p = .ok (l, e) ↔
    t.locate p = .ok l ∧ t.lookup l = some e ∧ (e = .directory ∨ wantsDirectory p = false) := by
  unfold find
  cases located : t.locate p with
  | error fault => simp [bind, Except.bind]
  | ok place =>
    simp only [bind, Except.bind, Except.ok.injEq]
    constructor
    · intro found
      split at found
      · cases found
      · cases found
        exact ⟨rfl, ‹_›, .inl rfl⟩
      · cases file : wantsDirectory p with
        | true => simp [file, throw, throwThe, MonadExceptOf.throw] at found
        | false =>
          simp only [file, Bool.false_eq_true, if_false] at found
          cases found
          exact ⟨rfl, ‹_›, .inr rfl⟩
    · rintro ⟨rfl, there, kind⟩
      rw [there]
      cases e with
      | directory => rfl
      | file content executable =>
        have file : wantsDirectory p = false := kind.resolve_left (by simp)
        rw [file]
        rfl

theorem pathExists_iff : t.pathExists p = true ↔ ∃ l e, t.find p = .ok (l, e) := by
  unfold pathExists
  cases t.find p with
  | error fault => simp
  | ok found => exact iff_of_true rfl ⟨found.1, found.2, rfl⟩

theorem isFile_iff :
    t.isFile p = true ↔ ∃ l content executable, t.find p = .ok (l, .file content executable) := by
  unfold isFile
  split <;> simp_all

theorem isDirectory_iff : t.isDirectory p = true ↔ ∃ l, t.find p = .ok (l, .directory) := by
  unfold isDirectory
  split <;> simp_all

theorem read_ok_iff {content : ByteArray} : t.read p = .ok content ↔
    ∃ l executable, t.find p = .ok (l, .file content executable) := by
  unfold read
  cases t.find p with
  | error fault => simp [bind, Except.bind]
  | ok found =>
    obtain ⟨place, entry⟩ := found
    cases entry <;>
      simp [bind, Except.bind, pure, Except.pure, throw, throwThe, MonadExceptOf.throw]

/-! ### Ways that stay open -/

/-- No directory of the first tree is missing in the second. -/
def KeepsDirectories (t u : FileTree) : Prop :=
  ∀ l, t.lookup l = some .directory → u.lookup l = some .directory

namespace KeepsDirectories

theorem walk (keeps : KeepsDirectories t u) (walked : t.walk here steps = .ok l) :
    u.walk here steps = .ok l := by
  induction steps generalizing here with
  | nil => exact walked
  | cons step steps ih =>
    unfold FileTree.walk at walked ⊢
    split at walked
    · cases walked
    · cases walked
    · rename_i directory
      rw [keeps here directory]
      exact ih walked

theorem locate (keeps : KeepsDirectories t u) (located : t.locate p = .ok l) :
    u.locate p = .ok l := by
  unfold FileTree.locate at located ⊢
  split at located
  · cases located
  · split at located
    · cases located
    · rw [if_neg ‹_›, if_neg ‹_›]
      exact keeps.walk located

/-- What a path leads to is found again while its place is left alone. -/
theorem find (keeps : KeepsDirectories t u) (same : u.lookup (placeOf p) = t.lookup (placeOf p))
    (found : t.find p = .ok (l, e)) : u.find p = .ok (l, e) := by
  obtain ⟨located, there, kind⟩ := find_ok_iff.mp found
  obtain rfl := locate_place located
  exact find_ok_iff.mpr ⟨keeps.locate located, same.trans there, kind⟩

theorem isDirectory (keeps : KeepsDirectories t u) (directory : t.isDirectory p = true) :
    u.isDirectory p = true := by
  obtain ⟨l, found⟩ := isDirectory_iff.mp directory
  obtain ⟨located, there, -⟩ := find_ok_iff.mp found
  exact isDirectory_iff.mpr
    ⟨l, find_ok_iff.mpr ⟨keeps.locate located, keeps l there, .inl rfl⟩⟩

end KeepsDirectories

/-! ### Trees in which everything is reached -/

/-- Everything but the top lies in a directory. -/
def Rooted (t : FileTree) : Prop :=
  ∀ l e, t.lookup l = some e → t.lookup l.dropLast = some .directory

namespace Rooted

variable {front : Location} {step : String}

theorem of_entries (inside : ∀ x ∈ t.entries, t.lookup x.1.dropLast = some .directory) :
    t.Rooted := by
  intro l e found
  cases l with
  | nil => rfl
  | cons step l =>
    obtain ⟨before, after, entries, -⟩ := List.lookup_eq_some_iff.mp found
    exact inside (step :: l, e) (by simp [entries])

theorem directory_above (rooted : t.Rooted) (found : t.lookup (front ++ step :: steps) = some e) :
    t.lookup front = some .directory := by
  induction steps using List.reverseRecOn generalizing e with
  | nil => simpa using rooted _ _ found
  | append_singleton steps last ih =>
    refine ih (e := .directory) ?_
    have above := rooted _ _ found
    rwa [← List.cons_append, ← List.append_assoc, List.dropLast_concat] at above

/-- Where no step leads upwards the way to what is there is open. -/
theorem walk_of_found (rooted : t.Rooted) (stays : ".." ∉ steps)
    (found : t.lookup (here ++ steps) = some e) : t.walk here steps = .ok (here ++ steps) := by
  induction steps generalizing here with
  | nil => simp [FileTree.walk]
  | cons step steps ih =>
    rw [List.mem_cons, not_or] at stays
    have forward : (step == "..") = false := beq_false_of_ne (Ne.symm stays.1)
    have again : t.lookup ((here ++ [step]) ++ steps) = some e := by
      rwa [List.append_assoc, List.singleton_append]
    rw [FileTree.walk, rooted.directory_above found]
    dsimp only
    rw [forward, if_neg (by simp), ih stays.2 again, List.append_assoc, List.singleton_append]

/-- A path that leads somewhere in any tree leads to what is there in this one. -/
theorem locate_of_found (rooted : t.Rooted) (stays : ".." ∉ stepsOf p)
    (located : u.locate p = .ok l) (found : t.lookup l = some e) : t.locate p = .ok l := by
  obtain rfl := (locate_place located).trans (placeOf_of_stays stays)
  unfold FileTree.locate at located ⊢
  split at located
  · cases located
  · split at located
    · cases located
    · rw [if_neg ‹_›, if_neg ‹_›]
      exact rooted.walk_of_found stays found

/-- A place that is reached and is no directory lies in one. -/
theorem directory_of_walk (rooted : t.Rooted) (walked : t.walk here steps = .ok l)
    (start : t.lookup here = some .directory ∨ t.lookup here.dropLast = some .directory)
    (noDirectory : t.lookup l ≠ some .directory) : t.lookup l.dropLast = some .directory := by
  induction steps generalizing here with
  | nil =>
    cases walked
    exact start.resolve_left noDirectory
  | cons step steps ih =>
    unfold FileTree.walk at walked
    split at walked
    · cases walked
    · cases walked
    · rename_i directory
      refine ih walked ?_
      split
      · exact .inl (rooted _ _ directory)
      · exact .inr (by rwa [List.dropLast_concat])

theorem directory_of_locate (rooted : t.Rooted) (located : t.locate p = .ok l)
    (noDirectory : t.lookup l ≠ some .directory) : t.lookup l.dropLast = some .directory := by
  unfold FileTree.locate at located
  split at located
  · cases located
  · split at located
    · cases located
    · exact rooted.directory_of_walk located (.inl rfl) noDirectory

/-- What is put into a directory in place of no other one lies there, and so does all else. -/
theorem put (rooted : t.Rooted) (noDirectory : t.lookup l ≠ some .directory)
    (inside : t.lookup l.dropLast = some .directory) : (t.put l e).Rooted := by
  have below := ne_top_of_lookup noDirectory
  intro place entry found
  rw [lookup_put below] at found ⊢
  have above : t.lookup place.dropLast = some .directory := by
    split at found
    · rename_i same
      rwa [same]
    · exact rooted place entry found
  rw [if_neg ?_, above]
  rintro same
  exact noDirectory (same ▸ above)

end Rooted

end ImagePipeline.FileTree
