import ImagePipeline.Proofs.Files.Contents

/-! Files laid out over others. Where files have been laid out, others with the same paths can be
laid out too, and what comes of it is what these alone would have made of the tree before. -/
namespace ImagePipeline.FileTree

variable {t u v m : FileTree} {l : Location} {e : Entry} {p : Path} {content old : ByteArray}
  {executable : Bool} {f g : Path × String} {fs gs : List (Path × String)}
  {written more : Location → Prop}

/-! ### What stays -/

/-- Whatever is in the first tree is in the second, but for the contents of written files. -/
def Retains (written : Location → Prop) (t u : FileTree) : Prop :=
  ∀ l e, t.lookup l = some e →
    ∃ e', u.lookup l = some e' ∧ e'.emptied = e.emptied ∧ (e' = e ∨ written l)

namespace Retains

theorem of_kept (kept : ∀ {l e}, t.lookup l = some e → u.lookup l = some e) :
    Retains written t u :=
  fun _ e there => ⟨e, kept there, rfl, .inl rfl⟩

theorem trans (first : Retains written t u) (second : Retains written u v) :
    Retains written t v := by
  intro l e there
  obtain ⟨e', there, kind, content⟩ := first l e there
  obtain ⟨e'', there, kind', content'⟩ := second l e' there
  refine ⟨e'', there, kind'.trans kind, ?_⟩
  rcases content' with rfl | place
  · exact content
  · exact .inr place

theorem mono (retains : Retains written t u) (wider : ∀ l, written l → more l) :
    Retains more t u := by
  intro l e there
  obtain ⟨e', there, kind, content⟩ := retains l e there
  exact ⟨e', there, kind, content.imp_right (wider l)⟩

/-- What is not written is as it was. -/
theorem kept (retains : Retains written t u) (there : t.lookup l = some e)
    (other : ¬ written l) : u.lookup l = some e := by
  obtain ⟨e', there, -, content⟩ := retains l e there
  rwa [content.resolve_right other] at there

theorem keepsDirectories (retains : Retains written t u) : KeepsDirectories t u := by
  intro l directory
  obtain ⟨e', there, kind, -⟩ := retains l _ directory
  cases e' with
  | directory => exact there
  | file => cases kind

/-- A file stays one, and as executable as it was. -/
theorem file (retains : Retains written t u)
    (there : t.lookup l = some (.file content executable)) :
    ∃ held, u.lookup l = some (.file held executable) := by
  obtain ⟨e', found, kind, -⟩ := retains l _ there
  cases e' with
  | directory => cases kind
  | file held flag =>
    obtain rfl : flag = executable := by simpa [Entry.emptied] using kind
    exact ⟨held, found⟩

end Retains

/-! ### One file -/

/-- The tree behind the making of a directory that goes well. -/
def made? (t : FileTree) (p : Path) : Option FileTree :=
  match t.createDirs p with
  | (.ok (), u) => some u
  | (.error _, _) => none

/-- The tree with the directory that a path lies in. -/
def withParent? (t : FileTree) (p : Path) : Option FileTree :=
  match p.parent? with
  | some parent => if parent.isEmpty then some t else t.made? parent
  | none => some t

/-- The tree with a file in its directory. -/
def laid? (t : FileTree) (f : Path × String) : Option FileTree :=
  (t.withParent? f.1).bind fun u => (u.write f.1 f.2.toUTF8).toOption

theorem made?_eq_some_iff : t.made? p = some u ↔ t.createDirs p = (.ok (), u) := by
  unfold made?
  rcases t.createDirs p with ⟨_ | _, made⟩ <;> simp

theorem made?_kept (made : t.made? p = some u) (there : t.lookup l = some e) :
    u.lookup l = some e := by
  have extended := createDirs_extends t p
  rw [made?_eq_some_iff.mp made] at extended
  exact extended.kept there

/-- A directory that is there need not be made. -/
theorem made?_of_isDirectory (there : t.isDirectory p = true) : t.made? p = some t := by
  obtain ⟨l, found⟩ := isDirectory_iff.mp there
  obtain ⟨located, directory, -⟩ := find_ok_iff.mp found
  have refused : t.createDir p = .error .alreadyExists := by
    simp [createDir, located, directory, bind, Except.bind, throw, throwThe, MonadExceptOf.throw]
  rw [made?_eq_some_iff, createDirs, createDirsFrom]
  split
  · rfl
  · simp only [refused]

/-- Where a directory has been made it need not be made again, while directories stay. -/
theorem made?_again (made : t.made? p = some u) (keeps : KeepsDirectories u v) :
    v.made? p = some v := by
  cases given : p.isEmpty with
  | true =>
    rw [made?_eq_some_iff, createDirs, createDirsFrom, if_pos given]
  | false =>
    have there := isDirectory_of_createDirs given (made?_eq_some_iff.mp made)
    exact made?_of_isDirectory (keeps.isDirectory there)

theorem withParent?_kept (made : t.withParent? p = some u) (there : t.lookup l = some e) :
    u.lookup l = some e := by
  unfold withParent? at made
  split at made
  · split at made
    · cases made
      exact there
    · exact made?_kept made there
  · cases made
    exact there

theorem withParent?_again (made : t.withParent? p = some u) (keeps : KeepsDirectories u v) :
    v.withParent? p = some v := by
  unfold withParent? at made ⊢
  split at made
  · split at made
    · rw [if_pos ‹_›]
    · rw [if_neg ‹_›]
      exact made?_again made keeps
  · rfl

/-- A file can be written. It will be executable where such a one is there. -/
structure Writable (t : FileTree) (p : Path) (executable : Bool) : Prop where
  located : t.locate p = .ok (placeOf p)
  ofFile : wantsDirectory p = false
  room : t.lookup (placeOf p) = none ∧ executable = false ∨
    ∃ old, t.lookup (placeOf p) = some (.file old executable)

namespace Writable

variable (writable : t.Writable p executable)
include writable

theorem write (content : ByteArray) :
    t.write p content = .ok (t.put (placeOf p) (.file content executable)) := by
  unfold FileTree.write
  rw [writable.located, writable.ofFile]
  rcases writable.room with ⟨nothing, rfl⟩ | ⟨old, file⟩
  · simp only [bind, Except.bind, nothing]
    rfl
  · simp only [bind, Except.bind, file]
    rfl

theorem noDirectory : t.lookup (placeOf p) ≠ some .directory := by
  rcases writable.room with ⟨nothing, -⟩ | ⟨old, file⟩
  · simp [nothing]
  · simp [file]

theorem lookup_put (content : ByteArray) :
    (t.put (placeOf p) (.file content executable)).lookup (placeOf p) =
      some (.file content executable) := by
  rw [FileTree.lookup_put (ne_top_of_lookup writable.noDirectory), if_pos rfl]

theorem retains (content : ByteArray) :
    Retains (· = placeOf p) t (t.put (placeOf p) (.file content executable)) := by
  intro l e there
  by_cases place : l = placeOf p
  · subst place
    refine ⟨_, writable.lookup_put content, ?_, .inr rfl⟩
    rcases writable.room with ⟨nothing, -⟩ | ⟨old, file⟩
    · rw [there] at nothing
      cases nothing
    · rw [there] at file
      cases file
      rfl
  · refine ⟨e, ?_, rfl, .inl rfl⟩
    rw [FileTree.lookup_put (ne_top_of_lookup writable.noDirectory), if_neg place, there]

end Writable

theorem writable_of_write (written : t.write p content = .ok u) :
    ∃ executable, t.Writable p executable := by
  obtain ⟨l, -, located, noDirectory, file, -⟩ := put_of_write written
  obtain rfl := locate_place located
  rcases found : t.lookup (placeOf p) with _ | _ | ⟨old, executable⟩
  · exact ⟨false, located, file, .inl ⟨found, rfl⟩⟩
  · exact absurd found noDirectory
  · exact ⟨executable, located, file, .inr ⟨old, found⟩⟩

/-- A file can be laid out: its directory can be made, and then it can be written. -/
structure Admits (t m : FileTree) (p : Path) (executable : Bool) : Prop where
  above : t.withParent? p = some m
  writable : m.Writable p executable

theorem Admits.laid? (admits : t.Admits m f.1 executable) :
    t.laid? f = some (m.put (placeOf f.1) (.file f.2.toUTF8 executable)) := by
  rw [FileTree.laid?, admits.above, Option.bind_some, admits.writable.write]
  rfl

theorem admits_of_laid? (laid : t.laid? f = some u) :
    ∃ m executable, t.Admits m f.1 executable := by
  obtain ⟨m, above, written⟩ := Option.bind_eq_some_iff.mp laid
  cases wrote : m.write f.1 f.2.toUTF8 with
  | error fault =>
    rw [wrote] at written
    cases written
  | ok u =>
    obtain ⟨executable, writable⟩ := writable_of_write wrote
    exact ⟨m, executable, above, writable⟩

/-- A file that has been laid out can be laid out again. -/
theorem Admits.again (admits : t.Admits m p executable)
    (retains : Retains written (m.put (placeOf p) (.file content executable)) u) :
    u.Admits u p executable := by
  have whole := (admits.writable.retains content).keepsDirectories
  have keeps : KeepsDirectories m u := fun l directory =>
    retains.keepsDirectories l (whole l directory)
  have file := retains.file (admits.writable.lookup_put content)
  exact ⟨withParent?_again admits.above keeps,
    ⟨keeps.locate admits.writable.located, admits.writable.ofFile, .inr file⟩⟩

theorem laid?_retains (laid : t.laid? f = some u) : Retains (· = placeOf f.1) t u := by
  obtain ⟨m, executable, admits⟩ := admits_of_laid? laid
  obtain rfl := Option.some.inj (admits.laid?.symm.trans laid)
  exact (Retains.of_kept (withParent?_kept admits.above)).trans (admits.writable.retains _)

section Content

variable (file : t.lookup l = some (.file old executable))
include file

theorem made?_put : (t.put l (.file content executable)).made? p =
    (t.made? p).map (·.put l (.file content executable)) := by
  simp only [made?, createDirs_put file]
  rcases t.createDirs p with ⟨_ | _, u⟩ <;> rfl

theorem withParent?_put : (t.put l (.file content executable)).withParent? p =
    (t.withParent? p).map (·.put l (.file content executable)) := by
  unfold withParent?
  split
  · split
    · rfl
    · exact made?_put file
  · rfl

theorem laid?_put_apart (apart : placeOf f.1 ≠ l) :
    (t.put l (.file content executable)).laid? f =
      (t.laid? f).map (·.put l (.file content executable)) := by
  unfold laid?
  rw [withParent?_put file]
  cases made : t.withParent? f.1 with
  | none => rfl
  | some m =>
    have there := withParent?_kept made file
    simp only [Option.map_some, Option.bind_some, write_put_apart there apart]
    cases m.write f.1 f.2.toUTF8 <;> rfl

theorem laid?_put_same (same : placeOf f.1 = l) :
    (t.put l (.file content executable)).laid? f = t.laid? f := by
  unfold laid?
  rw [withParent?_put file]
  cases made : t.withParent? f.1 with
  | none => rfl
  | some m =>
    have there := withParent?_kept made file
    simp only [Option.map_some, Option.bind_some, write_put_same there same]

end Content

/-! ### One after the other -/

/-- The tree with all of the directories, made one after the other. -/
def madeEach? (t : FileTree) (ps : List Path) : Option FileTree := ps.foldlM made? t

theorem madeEach?_cons (t : FileTree) (p : Path) (ps : List Path) :
    t.madeEach? (p :: ps) = (t.made? p).bind (·.madeEach? ps) := List.foldlM_cons

theorem madeEach?_kept {ps : List Path} (made : t.madeEach? ps = some u)
    (there : t.lookup l = some e) : u.lookup l = some e := by
  induction ps generalizing t with
  | nil =>
    cases made
    exact there
  | cons p ps ih =>
    obtain ⟨m, first, rest⟩ := Option.bind_eq_some_iff.mp (madeEach?_cons t p ps ▸ made)
    exact ih rest (made?_kept first there)

theorem madeEach?_again {ps : List Path} (made : t.madeEach? ps = some u)
    (keeps : KeepsDirectories u v) : v.madeEach? ps = some v := by
  induction ps generalizing t with
  | nil => rfl
  | cons p ps ih =>
    obtain ⟨m, first, rest⟩ := Option.bind_eq_some_iff.mp (madeEach?_cons t p ps ▸ made)
    have kept : KeepsDirectories m v := fun l directory => keeps l (madeEach?_kept rest directory)
    rw [madeEach?_cons, made?_again first kept]
    exact ih rest

/-- The tree with all of the files, laid out one after the other. -/
def laidEach? (t : FileTree) (fs : List (Path × String)) : Option FileTree := fs.foldlM laid? t

theorem laidEach?_cons (t : FileTree) (f : Path × String) (fs : List (Path × String)) :
    t.laidEach? (f :: fs) = (t.laid? f).bind (·.laidEach? fs) := List.foldlM_cons

/-- The places that files are laid out in. -/
def places (fs : List (Path × String)) : List Location := (fs.map Prod.fst).map placeOf

theorem mem_places_cons : l ∈ places (f :: fs) ↔ l = placeOf f.1 ∨ l ∈ places fs := List.mem_cons

theorem places_eq (paths : fs.map Prod.fst = gs.map Prod.fst) : places fs = places gs :=
  congrArg (List.map placeOf) paths

theorem laidEach?_retains (laid : t.laidEach? fs = some u) : Retains (· ∈ places fs) t u := by
  induction fs generalizing t with
  | nil =>
    cases laid
    exact .of_kept id
  | cons f fs ih =>
    rw [laidEach?_cons] at laid
    obtain ⟨m, first, rest⟩ := Option.bind_eq_some_iff.mp laid
    exact ((laid?_retains first).mono fun _ => mem_places_cons.mpr ∘ .inl).trans
      ((ih rest).mono fun _ => mem_places_cons.mpr ∘ .inr)

/-- A change of a content is lost where files are laid out over it, and otherwise may come last. -/
theorem laidEach?_put (file : t.lookup l = some (.file old executable)) (content : ByteArray)
    (fs : List (Path × String)) :
    (t.put l (.file content executable)).laidEach? fs =
      if l ∈ places fs then t.laidEach? fs
      else (t.laidEach? fs).map (·.put l (.file content executable)) := by
  induction fs generalizing t with
  | nil => rfl
  | cons f fs ih =>
    simp only [laidEach?_cons, mem_places_cons]
    by_cases same : l = placeOf f.1
    · rw [laid?_put_same file same.symm, if_pos (.inl same)]
    · simp only [laid?_put_apart file (Ne.symm same), same, false_or]
      cases laid : t.laid? f with
      | none => simp
      | some m => exact ih ((laid?_retains laid).kept file same)

/-- Where files have been laid out others can be laid out in their places, as if these had come
first. The induction is on the files that were there. The first of the others takes the place of the
first of these, and its content is either lost in what is laid out behind it or goes with that. -/
theorem laidEach?_over (paths : fs.map Prod.fst = gs.map Prod.fst)
    (laid : t.laidEach? fs = some u) :
    ∃ v, t.laidEach? gs = some v ∧ u.laidEach? gs = some v := by
  induction fs generalizing t u gs with
  | nil =>
    obtain rfl := List.map_eq_nil_iff.mp paths.symm
    cases laid
    exact ⟨t, rfl, rfl⟩
  | cons f fs ih =>
    obtain ⟨g, gs, rfl, path, paths⟩ := List.map_eq_cons_iff.mp paths.symm
    rw [laidEach?_cons] at laid
    obtain ⟨n, first, rest⟩ := Option.bind_eq_some_iff.mp laid
    obtain ⟨m, executable, admits⟩ := admits_of_laid? first
    obtain rfl := Option.some.inj (admits.laid?.symm.trans first)
    -- the first of the others as it is laid out first, and as it is laid out last
    have there := admits.writable.lookup_put f.2.toUTF8
    have before : t.laid? g = some _ := Admits.laid? (path ▸ admits)
    have behind : u.laid? g = some _ :=
      Admits.laid? (path ▸ admits.again (laidEach?_retains rest))
    have atop := laidEach?_put there g.2.toUTF8 fs
    rw [laidEach?_cons, laidEach?_cons, before, behind, Option.bind_some, Option.bind_some, path]
    rw [put_put, rest] at atop
    split at atop
    case isTrue covered =>
      obtain ⟨held, file⟩ := (laidEach?_retains rest).file there
      obtain ⟨v, alone, again⟩ := ih paths.symm atop
      refine ⟨v, alone, ?_⟩
      rwa [laidEach?_put file, if_pos (places_eq paths ▸ covered)]
    case isFalse => exact ih paths.symm atop

end ImagePipeline.FileTree
