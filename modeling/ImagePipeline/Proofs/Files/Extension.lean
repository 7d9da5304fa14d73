import ImagePipeline.Proofs.Files.Places

/-! What becomes of a tree in which directories are made and files are written. Directories are made
on the way of a path only, and never in place of anything; a file is written at the place of its
path, and every other one is found as it was. -/
namespace ImagePipeline.FileTree

variable {t u v : FileTree} {l : Location} {e : Entry} {p : Path} {content : ByteArray}

/-! ### Trees with more in them -/

/-- The second tree has all that the first has, and more only as `made` says. -/
structure Extends (made : Location → Entry → Prop) (t u : FileTree) : Prop where
  entries : ∀ l, u.lookup l = t.lookup l ∨
    t.lookup l = none ∧ ∃ e, u.lookup l = some e ∧ made l e
  rooted : t.Rooted → u.Rooted

namespace Extends

variable {made more : Location → Entry → Prop}

theorem refl (t : FileTree) : Extends made t t := ⟨fun _ => .inl rfl, id⟩

theorem kept (extended : Extends made t u) (there : t.lookup l = some e) :
    u.lookup l = some e := by
  rcases extended.entries l with same | ⟨nothing, -⟩
  · rw [same, there]
  · rw [there] at nothing
    cases nothing

theorem trans (first : Extends made t u) (second : Extends made u v) : Extends made t v where
  entries l := by
    rcases second.entries l with same | ⟨nothing, new⟩
    · rw [same]
      exact first.entries l
    · refine .inr ⟨?_, new⟩
      cases there : t.lookup l with
      | none => rfl
      | some e =>
        rw [first.kept there] at nothing
        cases nothing
  rooted := second.rooted ∘ first.rooted

theorem mono (extended : Extends made t u) (wider : ∀ l e, made l e → more l e) :
    Extends more t u where
  entries l := (extended.entries l).imp_right fun ⟨nothing, e, there, new⟩ =>
    ⟨nothing, e, there, wider l e new⟩
  rooted := extended.rooted

theorem keepsDirectories (extended : Extends made t u) : KeepsDirectories t u :=
  fun _ => extended.kept

theorem find (extended : Extends made t u) (found : t.find p = .ok (l, e)) :
    u.find p = .ok (l, e) := by
  obtain ⟨located, there, -⟩ := find_ok_iff.mp found
  obtain rfl := locate_place located
  exact extended.keepsDirectories.find ((extended.kept there).trans there.symm) found

theorem read (extended : Extends made t u) (found : t.read p = .ok content) :
    u.read p = .ok content := by
  obtain ⟨l, executable, found⟩ := read_ok_iff.mp found
  exact read_ok_iff.mpr ⟨l, executable, extended.find found⟩

theorem isDirectory (extended : Extends made t u) (directory : t.isDirectory p = true) :
    u.isDirectory p = true :=
  extended.keepsDirectories.isDirectory directory

/-- What is there and cannot have been made was there before. -/
theorem existed (extended : Extends made t u) (rooted : t.Rooted) (stays : ".." ∉ stepsOf p)
    (there : u.pathExists p = true) (old : ∀ e, ¬ made (stepsOf p) e) : t.pathExists p = true := by
  obtain ⟨l, e, found⟩ := pathExists_iff.mp there
  obtain ⟨located, entry, kind⟩ := find_ok_iff.mp found
  have place := (locate_place located).trans (placeOf_of_stays stays)
  have before : t.lookup l = some e := by
    rcases extended.entries l with same | ⟨-, new, -, allowed⟩
    · rw [← same, entry]
    · exact absurd (place ▸ allowed) (old new)
  have again := rooted.locate_of_found stays located before
  exact pathExists_iff.mpr ⟨l, e, find_ok_iff.mpr ⟨again, before, kind⟩⟩

end Extends

/-- Something is put where there was nothing. -/
theorem extends_put (nothing : t.lookup l = none)
    (inside : t.Rooted → t.lookup l.dropLast = some .directory) :
    Extends (fun place entry => place = l ∧ entry = e) t (t.put l e) where
  entries place := by
    have noDirectory : t.lookup l ≠ some .directory := by simp [nothing]
    rw [lookup_put (ne_top_of_lookup noDirectory)]
    by_cases same : place = l
    · exact .inr ⟨same ▸ nothing, e, if_pos same, same, rfl⟩
    · exact .inl (if_neg same)
  rooted rooted := rooted.put (by simp [nothing]) (inside rooted)

/-! ### Making directories -/

/-- A place on the way of a path, whose last place it may be. -/
def OnWay (p : Path) (l : Location) : Prop := ∃ steps, steps <+: stepsOf p ∧ l = resolve [] steps

theorem OnWay.end (p : Path) : OnWay p (placeOf p) := ⟨_, List.prefix_rfl, rfl⟩

theorem OnWay.of_parent {parent : Path} (found : p.parent? = some parent)
    (way : OnWay parent l) : OnWay p l := by
  obtain ⟨steps, front, place⟩ := way
  exact ⟨steps, front.trans (stepsOf_parent found), place⟩

theorem onWay_iff (stays : ".." ∉ stepsOf p) : OnWay p l ↔ l <+: stepsOf p := by
  have straight {steps : List String} (front : steps <+: stepsOf p) : resolve [] steps = steps :=
    resolve_of_stays [] fun member => stays (front.subset member)
  constructor
  · rintro ⟨steps, front, rfl⟩
    rwa [straight front]
  · intro front
    exact ⟨l, front, (straight front).symm⟩

/-- Directories on the way of a path. -/
def Directories (p : Path) (l : Location) (e : Entry) : Prop := e = .directory ∧ OnWay p l

theorem put_of_createDir (made : t.createDir p = .ok u) :
    ∃ l, t.locate p = .ok l ∧ t.lookup l = none ∧ u = t.put l .directory := by
  unfold createDir at made
  cases located : t.locate p with
  | error fault =>
    rw [located] at made
    cases made
  | ok l =>
    simp only [located, bind, Except.bind] at made
    cases found : t.lookup l with
    | none =>
      rw [found] at made
      exact ⟨l, rfl, found, (Except.ok.inj made).symm⟩
    | some e =>
      rw [found] at made
      cases made

theorem createDir_extends (made : t.createDir p = .ok u) : Extends (Directories p) t u := by
  obtain ⟨l, located, nothing, rfl⟩ := put_of_createDir made
  refine (extends_put nothing fun rooted => ?_).mono ?_
  · exact rooted.directory_of_locate located (by simp [nothing])
  · rintro place entry ⟨rfl, rfl⟩
    exact ⟨rfl, locate_place located ▸ .end p⟩

theorem isDirectory_of_createDir (made : t.createDir p = .ok u) : u.isDirectory p = true := by
  obtain ⟨l, located, nothing, rfl⟩ := put_of_createDir made
  have noDirectory : t.lookup l ≠ some .directory := by simp [nothing]
  have there : (t.put l .directory).lookup l = some .directory := by
    rw [lookup_put (ne_top_of_lookup noDirectory), if_pos rfl]
  have again := locate_put (e := .directory) located noDirectory
  exact isDirectory_iff.mpr ⟨l, find_ok_iff.mpr ⟨again, there, .inl rfl⟩⟩

theorem createDirsFrom_extends (fuel : Nat) (t : FileTree) (p : Path) :
    Extends (Directories p) t (createDirsFrom fuel t p).2 := by
  fun_induction createDirsFrom fuel t p with
  | case1 | case2 | case4 | case8 => exact .refl _
  | case3 fuel t p _ u made => exact createDir_extends made
  | case5 fuel t p _ _ parent found e u failed ih =>
    rw [failed] at ih
    exact ih.mono fun _ _ => .imp_right (.of_parent found)
  | case6 fuel t p _ _ parent found u went v made ih =>
    rw [went] at ih
    exact (ih.mono fun _ _ => .imp_right (.of_parent found)).trans (createDir_extends made)
  | case7 fuel t p _ _ parent found u went e failed ih =>
    rw [went] at ih
    exact ih.mono fun _ _ => .imp_right (.of_parent found)

theorem createDirs_extends (t : FileTree) (p : Path) :
    Extends (Directories p) t (t.createDirs p).2 :=
  createDirsFrom_extends _ t p

/-- Where a directory could not be made there may be one. -/
theorem isDirectory_of_answer {fault : OsError}
    (answer : (if t.isDirectory p then Except.ok () else .error fault, t) = (.ok (), u)) :
    u.isDirectory p = true := by
  obtain ⟨result, rfl⟩ := Prod.mk.inj answer
  split at result
  · assumption
  · cases result

theorem isDirectory_of_createDirsFrom {fuel : Nat} (given : p.isEmpty = false)
    (made : createDirsFrom fuel t p = (.ok (), u)) : u.isDirectory p = true := by
  cases fuel with
  | zero => cases made
  | succ fuel =>
    rw [createDirsFrom, if_neg (by simp [given])] at made
    split at made
    · rename_i created
      cases made
      exact isDirectory_of_createDir created
    · split at made
      · cases made
      · split at made
        · cases made
        · split at made
          · rename_i created
            cases made
            exact isDirectory_of_createDir created
          · exact isDirectory_of_answer made
    · exact isDirectory_of_answer made

theorem isDirectory_of_createDirs (given : p.isEmpty = false)
    (made : t.createDirs p = (.ok (), u)) : u.isDirectory p = true :=
  isDirectory_of_createDirsFrom given made

/-! ### Writing files -/

theorem write_of_nothing (located : t.locate p = .ok l) (nothing : t.lookup l = none)
    (written : t.write p content = .ok u) : u = t.put l (.file content false) := by
  obtain ⟨-, -, -, -, file, -⟩ := put_of_write written
  simpa [write, located, nothing, file, bind, Except.bind, pure, Except.pure, eq_comm] using written

/-- A file is new that is written where its path led to nothing, before directories were made. -/
theorem write_extends {w : FileTree} {made : Location → Entry → Prop} (rooted : t.Rooted)
    (stays : ".." ∉ stepsOf p) (absent : t.pathExists p = false) (between : Extends made t u)
    (only : ∀ l e, made l e → e = .directory) (written : u.write p content = .ok w) :
    Extends (fun l e => l = stepsOf p ∧ e = .file content false) u w := by
  obtain ⟨l, _, located, noDirectory, file, -⟩ := put_of_write written
  -- a file there would have been there before the directories, and the path would have led to it
  have nothing : u.lookup l = none := by
    cases found : u.lookup l with
    | none => rfl
    | some e =>
      have before : t.lookup l = some e := by
        rcases between.entries l with same | ⟨-, new, there, allowed⟩
        · rw [← same, found]
        · rw [there, only l new allowed] at noDirectory
          contradiction
      have again := rooted.locate_of_found stays located before
      have exist := pathExists_iff.mpr ⟨l, e, find_ok_iff.mpr ⟨again, before, .inr file⟩⟩
      rw [absent] at exist
      cases exist
  obtain rfl := write_of_nothing located nothing written
  rw [← (locate_place located).trans (placeOf_of_stays stays)]
  exact extends_put nothing fun rooted => rooted.directory_of_locate located noDirectory

/-- Every file is as it was, but for those that may have been written, and more are directories. -/
def Rewrites (written : Location → Prop) (t u : FileTree) : Prop :=
  ∀ l, u.lookup l = t.lookup l ∨ (t.lookup l = none ∧ u.lookup l = some .directory) ∨
    (written l ∧ t.lookup l ≠ some .directory ∧
      ∃ content executable, u.lookup l = some (.file content executable))

namespace Rewrites

variable {written more : Location → Prop}

theorem refl (t : FileTree) : Rewrites written t t := fun _ => .inl rfl

theorem mono (rewritten : Rewrites written t u) (wider : ∀ l, written l → more l) :
    Rewrites more t u :=
  fun l => (rewritten l).imp_right (.imp_right (.imp_left (wider l)))

theorem keepsDirectories (rewritten : Rewrites written t u) : KeepsDirectories t u := by
  intro l directory
  rcases rewritten l with same | ⟨nothing, -⟩ | ⟨-, noDirectory, -⟩
  · rw [same, directory]
  · rw [directory] at nothing
    cases nothing
  · exact absurd directory noDirectory

theorem trans (first : Rewrites written t u) (second : Rewrites written u v) :
    Rewrites written t v := by
  intro l
  rcases second l with same | ⟨nothing, made⟩ | ⟨place, noDirectory, file⟩
  · rw [same]
    exact first l
  · rcases first l with same | ⟨-, directory⟩ | ⟨-, -, content, executable, there⟩
    · exact .inr (.inl ⟨same ▸ nothing, made⟩)
    · rw [directory] at nothing
      cases nothing
    · rw [there] at nothing
      cases nothing
  · rcases first l with same | ⟨-, directory⟩ | ⟨-, before, -⟩
    · exact .inr (.inr ⟨place, same ▸ noDirectory, file⟩)
    · exact absurd directory noDirectory
    · exact .inr (.inr ⟨place, before, file⟩)

/-- A file that is not written is read as it was. -/
theorem read (rewritten : Rewrites written t u) (other : ¬ written (placeOf p))
    (found : t.read p = .ok content) : u.read p = .ok content := by
  obtain ⟨l, executable, there⟩ := read_ok_iff.mp found
  obtain ⟨located, entry, -⟩ := find_ok_iff.mp there
  obtain rfl := locate_place located
  refine read_ok_iff.mpr ⟨_, executable, rewritten.keepsDirectories.find ?_ there⟩
  rcases rewritten (placeOf p) with same | ⟨nothing, -⟩ | ⟨place, -⟩
  · exact same
  · rw [entry] at nothing
    cases nothing
  · exact absurd place other

/-- A file stays one, whether it is written or not. -/
theorem isFile (rewritten : Rewrites written t u) (file : t.isFile p = true) :
    u.isFile p = true := by
  obtain ⟨l, content, executable, found⟩ := isFile_iff.mp file
  obtain ⟨located, entry, kind⟩ := find_ok_iff.mp found
  have again := rewritten.keepsDirectories.locate located
  have kind : wantsDirectory p = false := kind.resolve_left (by simp)
  rcases rewritten l with same | ⟨nothing, -⟩ | ⟨-, -, content', executable', there⟩
  · exact isFile_iff.mpr ⟨l, _, _, find_ok_iff.mpr ⟨again, same.trans entry, .inr kind⟩⟩
  · rw [entry] at nothing
    cases nothing
  · exact isFile_iff.mpr ⟨l, _, _, find_ok_iff.mpr ⟨again, there, .inr kind⟩⟩

end Rewrites

theorem Extends.rewrites {made : Location → Entry → Prop} {written : Location → Prop}
    (extended : Extends made t u) (only : ∀ l e, made l e → e = .directory) :
    Rewrites written t u := by
  intro l
  rcases extended.entries l with same | ⟨nothing, e, there, allowed⟩
  · exact .inl same
  · exact .inr (.inl ⟨nothing, only l e allowed ▸ there⟩)

theorem createDirs_rewrites (written : Location → Prop) (t : FileTree) (p : Path) :
    Rewrites written t (t.createDirs p).2 :=
  (createDirs_extends t p).rewrites fun _ _ => And.left

theorem write_rewrites (written : t.write p content = .ok u) :
    Rewrites (· = placeOf p) t u := by
  obtain ⟨l, executable, located, noDirectory, -, rfl⟩ := put_of_write written
  intro place
  rw [lookup_put (ne_top_of_lookup noDirectory)]
  by_cases same : place = l
  · subst same
    exact .inr (.inr ⟨locate_place located, noDirectory, content, executable, if_pos rfl⟩)
  · exact .inl (if_neg same)

end ImagePipeline.FileTree
