import ImagePipeline.Proofs.Files.Extension

/-! Trees in which files differ in their contents. What can be done in a tree depends on the kinds
of its entries, not on the contents of its files. So it is the same whether a content is changed
before directories are made and other files are written, or behind that; and a content that is
written over never shows. -/
namespace ImagePipeline

/-- An entry without the content. -/
def Entry.emptied : Entry → Entry
  | .directory => .directory
  | .file _ executable => .file .empty executable

namespace FileTree

variable {t u : FileTree} {l k : Location} {d e e' : Entry} {p : Path}
  {content old new : ByteArray} {executable : Bool}

/-! ### One entry after another -/

theorem replaceEntry_replaceEntry (entries : List (Location × Entry)) :
    replaceEntry l e (replaceEntry l e' entries) = replaceEntry l e entries := by
  induction entries with
  | nil => simp [replaceEntry]
  | cons entry entries ih =>
    by_cases here : entry.1 = l <;> simp [replaceEntry, here, ih]

/-- Where the first place has an entry, it is the same which of two places is dealt with first. -/
theorem replaceEntry_comm {entries : List (Location × Entry)} (apart : k ≠ l)
    (there : (entries.lookup l).isSome) :
    replaceEntry k d (replaceEntry l e entries) = replaceEntry l e (replaceEntry k d entries) := by
  induction entries with
  | nil => cases there
  | cons entry entries ih =>
    obtain ⟨place, kept⟩ := entry
    by_cases here : place = l
    · subst here
      simp [replaceEntry, apart.symm]
    · have elsewhere : (l == place) = false := beq_false_of_ne (Ne.symm here)
      rw [List.lookup_cons, elsewhere] at there
      by_cases other : place = k
      · subst other
        simp [replaceEntry, here]
      · simp [replaceEntry, here, other, ih there]

theorem put_put : (t.put l e').put l e = t.put l e := by
  simp only [put, replaceEntry_replaceEntry]

theorem lookup_below (below : l ≠ []) : t.lookup l = t.entries.lookup l := by
  simp [lookup, below]

theorem put_comm (below : l ≠ []) (there : t.lookup l = some e') (apart : k ≠ l) :
    (t.put l e).put k d = (t.put k d).put l e := by
  rw [lookup_below below] at there
  simp only [put, replaceEntry_comm apart (Option.isSome_of_eq_some there)]

/-! ### Trees of one kind -/

/-- Trees that differ at most in the contents of their files. -/
def Alike (t u : FileTree) : Prop :=
  ∀ l, (t.lookup l).map Entry.emptied = (u.lookup l).map Entry.emptied

namespace Alike

variable (alike : Alike t u)
include alike

theorem walk (here : Location) (steps : List String) : t.walk here steps = u.walk here steps := by
  induction steps generalizing here with
  | nil => rfl
  | cons step steps ih =>
    have kinds := alike here
    unfold FileTree.walk
    revert kinds
    rcases t.lookup here with _ | _ | _ <;> rcases u.lookup here with _ | _ | _ <;> intro kinds <;>
      first | rfl | exact ih _ | cases kinds

theorem locate (p : Path) : t.locate p = u.locate p := by
  simp only [FileTree.locate, alike.walk]

theorem directory_iff (l : Location) :
    t.lookup l = some .directory ↔ u.lookup l = some .directory := by
  have shown (o : Option Entry) : o.map Entry.emptied = some .directory ↔ o = some .directory := by
    rcases o with _ | _ | _ <;> simp [Entry.emptied]
  rw [← shown, alike l, shown]

theorem isDirectory (p : Path) : t.isDirectory p = u.isDirectory p := by
  rw [Bool.eq_iff_iff]
  simp only [isDirectory_iff, find_ok_iff, alike.locate, alike.directory_iff]

end Alike

theorem below_of_file (file : t.lookup l = some (.file content executable)) : l ≠ [] := by
  refine ne_top_of_lookup (t := t) ?_
  simp [file]

theorem alike_put (file : t.lookup l = some (.file old executable)) :
    Alike (t.put l (.file new executable)) t := by
  intro place
  rw [lookup_put (below_of_file file)]
  split
  · rename_i same
    rw [same, file]
    rfl
  · rfl

/-! ### A content that does not matter -/

section Content

variable (file : t.lookup l = some (.file old executable))
include file

theorem createDir_put : (t.put l (.file new executable)).createDir p =
    (t.createDir p).map (·.put l (.file new executable)) := by
  have below := below_of_file file
  unfold createDir
  rw [(alike_put file).locate]
  rcases t.locate p with fault | place
  · rfl
  · simp only [bind, Except.bind, lookup_put below]
    by_cases same : place = l
    · rw [if_pos same, same, file]
      rfl
    · rw [if_neg same]
      cases t.lookup place with
      | none => exact congrArg Except.ok (put_comm below file same)
      | some entry => rfl

theorem createDirsFrom_put (fuel : Nat) :
    createDirsFrom fuel (t.put l (.file new executable)) p =
      ((createDirsFrom fuel t p).1,
        (createDirsFrom fuel t p).2.put l (.file new executable)) := by
  induction fuel generalizing t p with
  | zero => rfl
  | succ fuel ih =>
    simp only [createDirsFrom, createDir_put file, (alike_put file).isDirectory]
    by_cases empty : p.isEmpty = true
    · simp only [if_pos empty]
    simp only [if_neg empty]
    rcases t.createDir p with fault | made
    · cases fault
      case notFound =>
        simp only [Except.map]
        cases p.parent? with
        | none => rfl
        | some parent =>
          simp only [ih file]
          have kept := (createDirsFrom_extends fuel t parent).kept file
          revert kept
          rcases createDirsFrom fuel t parent with ⟨fault | done, between⟩ <;> intro kept
          · rfl
          · simp only [createDir_put kept, (alike_put kept).isDirectory]
            rcases between.createDir p with fault | made <;> rfl
      all_goals rfl
    · rfl

theorem createDirs_put : (t.put l (.file new executable)).createDirs p =
    ((t.createDirs p).1, (t.createDirs p).2.put l (.file new executable)) :=
  createDirsFrom_put file _

theorem write_put_apart (apart : placeOf p ≠ l) :
    (t.put l (.file new executable)).write p content =
      (t.write p content).map (·.put l (.file new executable)) := by
  have below := below_of_file file
  unfold write
  rw [(alike_put file).locate]
  rcases located : t.locate p with fault | place
  · rfl
  · obtain rfl := locate_place located
    simp only [bind, Except.bind, lookup_put below, if_neg apart]
    rcases t.lookup (placeOf p) with _ | _ | ⟨_, _⟩
    · cases wantsDirectory p
      case true => rfl
      case false => exact congrArg Except.ok (put_comm below file apart)
    · rfl
    · cases wantsDirectory p
      case true => rfl
      case false => exact congrArg Except.ok (put_comm below file apart)

/-- A content that is written over is as if it had never been. -/
theorem write_put_same (same : placeOf p = l) :
    (t.put l (.file new executable)).write p content = t.write p content := by
  unfold write
  rw [(alike_put file).locate]
  rcases located : t.locate p with fault | place
  · rfl
  · obtain rfl := (locate_place located).trans same
    simp only [bind, Except.bind, lookup_put (below_of_file file), if_pos, file, put_put]

end Content

end FileTree

end ImagePipeline
