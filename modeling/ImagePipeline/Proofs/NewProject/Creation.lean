import ImagePipeline.NewProject
import ImagePipeline.Proofs.Files.Changes

/-! Making one file after another. A file that is there is left alone, and one that is made is made
where there was nothing, so that whatever a tree holds stays in it. -/
namespace ImagePipeline.NewProject

open FileTree (Extends stepsOf)

variable {path : Path} {content : String} {overwrite : Bool} {report report' : Report}
  {s s' : Session} {t u v : FileTree} {l : Location} {e : Entry}

/-- What making a file may add: the directories above it, and the file. -/
def Added (f : Path × String) (l : Location) (e : Entry) : Prop :=
  (e = .directory ∧ ∃ dir, f.1.parent? = some dir ∧ l <+: stepsOf dir) ∨
    (l = stepsOf f.1 ∧ e = .file f.2.toUTF8 false)

theorem Added.on_way {f : Path × String} (added : Added f l e) : l <+: stepsOf f.1 := by
  rcases added with ⟨-, dir, parent, above⟩ | ⟨rfl, -⟩
  · exact above.trans (FileTree.stepsOf_parent parent)
  · exact List.prefix_rfl

/-! ### One file -/

/-- The directories above a file. -/
theorem createParent_alters (context : String) (stays : ".." ∉ stepsOf path) (s : Session) :
    Alters (Extends fun l e => e = .directory ∧ ∃ dir, path.parent? = some dir ∧ l <+: stepsOf dir)
      (Work.createParent context path) s := by
  refine .createParent fun dir parent => (FileTree.createDirs_extends s.files dir).mono ?_
  rintro l e ⟨directory, way⟩
  have above : ".." ∉ stepsOf dir := fun member =>
    stays ((FileTree.stepsOf_parent parent).subset member)
  exact ⟨directory, dir, parent, (FileTree.onWay_iff above).mp way⟩

/-- A file that may be written over must have been nowhere before any directory was made. -/
theorem create_alters (rooted : t.Rooted) (stays : ".." ∉ stepsOf path)
    (between : Extends (fun _ e => e = .directory) t s.files)
    (free : overwrite = true → t.pathExists path = false) :
    Alters (Extends (Added (path, content))) (create overwrite path content report) s := by
  unfold create
  refine (Alters.idle (Work.exec_files s) rfl rfl).bind fun found s' run _ => ?_
  cases run
  split
  · exact (Alters.log _).bind fun _ _ _ _ => .pure _
  · rename_i absent
    -- a tree in which the file is known to be missing: the present one, or the one before
    obtain ⟨t, rooted, between, free⟩ : ∃ t : FileTree, t.Rooted ∧
        Extends (fun _ e => e = .directory) t s.files ∧ t.pathExists path = false := by
      cases overwrite with
      | true => exact ⟨t, rooted, between, free rfl⟩
      | false => exact ⟨s.files, between.rooted rooted, .refl _, by simpa using absent⟩
    have above := createParent_alters "failed to create directory " stays s
    refine (above.mono fun u more => more.mono fun _ _ => .inl).bind fun _ m run _ => ?_
    have made := (above.files run).mono fun _ _ => And.left
    refine Alters.bind (.within _ (.writeText fun u written => ?_)) fun _ _ _ _ => .pure _
    have new :=
      FileTree.write_extends rooted stays free (between.trans made) (fun _ _ => id) written
    exact new.mono fun _ _ => .inr

theorem create_ok (run : (create overwrite path content report).exec s = (.ok report', s')) :
    (overwrite = false ∧ s.files.pathExists path = true ∧ s'.files = s.files ∧
      report' = { report with skipped := report.skipped ++ [path] }) ∨
    (s'.files.read path = .ok content.toUTF8 ∧
      report' = { report with created := report.created ++ [path] }) := by
  unfold create at run
  rw [Work.exec_bind_ok (Work.exec_files s)] at run
  split at run
  · rename_i there
    rw [Work.exec_bind_ok (Work.exec_log _ s)] at run
    cases run
    rw [Bool.and_eq_true, Bool.not_eq_true'] at there
    exact .inl ⟨there.2, there.1, rfl, rfl⟩
  · obtain ⟨_, _, -, written⟩ := Work.ok_of_bind run
    obtain ⟨_, m, wrote, last⟩ := Work.ok_of_bind written
    cases last
    obtain ⟨wrote, -, -⟩ := Work.ok_of_writeText (Work.ok_of_within wrote)
    exact .inr ⟨FileTree.read_of_write wrote, rfl⟩

/-! ### File after file -/

/-- Files have been laid out: some were made and hold their texts, the others had been there, and
nothing else has been added. -/
structure Settled (items : List (Path × String)) (t u : FileTree)
    (made kept : List (Path × String)) : Prop where
  each : (made ++ kept).Perm items
  existed : ∀ f ∈ kept, t.pathExists f.1 = true
  written : ∀ f ∈ made, u.read f.1 = .ok f.2.toUTF8
  only : Extends (fun l e => ∃ f ∈ made, Added f l e) t u

/-- A report that lists more files. -/
def Report.extend (report : Report) (made kept : List (Path × String)) : Report where
  created := report.created ++ made.map Prod.fst
  skipped := report.skipped ++ kept.map Prod.fst

namespace Settled

variable {items items' made made' kept kept' : List (Path × String)} {f : Path × String}

theorem nil (t : FileTree) : Settled [] t t [] [] :=
  ⟨.refl _, by simp, by simp, .refl t⟩

/-- What was found to be there has been there from the start, since nothing that was made meanwhile
stands in its place. -/
theorem append (first : Settled items t u made kept) (next : Settled items' u v made' kept')
    (rooted : t.Rooted) (stays : ∀ f ∈ items', ".." ∉ stepsOf f.1)
    (apart : ∀ f ∈ items, ∀ g ∈ items', ¬ stepsOf g.1 <+: stepsOf f.1) :
    Settled (items ++ items') t v (made ++ made') (kept ++ kept') where
  each := by
    have parts := first.each.append next.each
    rw [List.append_assoc] at parts ⊢
    refine List.Perm.trans (List.Perm.append_left made ?_) parts
    rw [← List.append_assoc, ← List.append_assoc]
    exact List.perm_append_comm.append_right kept'
  existed := by
    rw [List.forall_mem_append]
    refine ⟨first.existed, fun g member => ?_⟩
    have listed := next.each.subset (List.mem_append_right _ member)
    refine first.only.existed rooted (stays g listed) (next.existed g member) ?_
    rintro e ⟨f, inMade, added⟩
    exact apart f (first.each.subset (List.mem_append_left _ inMade)) g listed added.on_way
  written := by
    rw [List.forall_mem_append]
    exact ⟨fun f member => next.only.read (first.written f member), next.written⟩
  only := by
    refine (first.only.mono ?_).trans (next.only.mono ?_)
    · rintro l e ⟨f, member, added⟩
      exact ⟨f, List.mem_append_left _ member, added⟩
    · rintro l e ⟨f, member, added⟩
      exact ⟨f, List.mem_append_right _ member, added⟩

end Settled

/-- A file is made, or has been there and may not be written over. -/
theorem create_settles (rooted : t.Rooted) (stays : ".." ∉ stepsOf path)
    (between : Extends (fun _ e => e = .directory) t s.files)
    (free : overwrite = true → t.pathExists path = false)
    (run : (create overwrite path content report).exec s = (.ok report', s')) :
    ∃ made kept, Settled [(path, content)] s.files s'.files made kept ∧
      report' = report.extend made kept ∧ (overwrite = true → kept = []) := by
  have files := (create_alters rooted stays between free).files run
  rcases create_ok run with ⟨keep, there, same, rfl⟩ | ⟨written, rfl⟩
  · refine ⟨[], [(path, content)], ⟨.refl _, ?_, by simp, same ▸ .refl _⟩, ?_, ?_⟩
    · simpa using there
    · simp [Report.extend]
    · simp [keep]
  · refine ⟨[(path, content)], [], ⟨.refl _, by simp, ?_, ?_⟩, ?_, fun _ => rfl⟩
    · simpa using written
    · exact files.mono fun l e added => ⟨_, List.mem_singleton_self _, added⟩
    · simp [Report.extend]

theorem createEach_alters {items : List (Path × String)} (rooted : s.files.Rooted)
    (stays : ∀ f ∈ items, ".." ∉ stepsOf f.1) :
    Alters (Extends fun l e => ∃ f ∈ items, Added f l e) (createEach false items report) s := by
  induction items generalizing s report with
  | nil => exact .pure _
  | cons f items ih =>
    rw [List.forall_mem_cons] at stays
    have first : Alters (Extends (Added f)) (create false f.1 f.2 report) s :=
      create_alters rooted stays.1 (.refl _) nofun
    refine (first.mono fun u more => more.mono fun l e added => ?_).bind fun report' m _ made => ?_
    · exact ⟨f, List.mem_cons_self, added⟩
    refine (ih (made.rooted rooted) stays.2).mono fun u more => more.mono ?_
    rintro l e ⟨g, member, added⟩
    exact ⟨g, List.mem_cons_of_mem f member, added⟩

/-- No file may stand in the way of one that comes before it. -/
theorem createEach_settles {items : List (Path × String)} (rooted : s.files.Rooted)
    (stays : ∀ f ∈ items, ".." ∉ stepsOf f.1)
    (apart : items.Pairwise fun f g => ¬ stepsOf g.1 <+: stepsOf f.1)
    (run : (createEach false items report).exec s = (.ok report', s')) :
    ∃ made kept, Settled items s.files s'.files made kept ∧
      report' = report.extend made kept := by
  induction items generalizing s report with
  | nil =>
    cases run
    exact ⟨[], [], .nil _, by simp [Report.extend]⟩
  | cons f items ih =>
    rw [List.forall_mem_cons] at stays
    rw [List.pairwise_cons] at apart
    obtain ⟨between, m, first, rest⟩ := Work.ok_of_bind run
    obtain ⟨made, kept, settled, rfl, -⟩ :=
      create_settles rooted stays.1 (.refl _) (fun never : false = true => nomatch never) first
    obtain ⟨made', kept', settled', rfl⟩ :=
      ih (settled.only.rooted rooted) stays.2 apart.2 rest
    refine ⟨made ++ made', kept ++ kept', settled.append settled' rooted stays.2 ?_, ?_⟩
    · simpa using apart.1
    · simp [Report.extend]

end ImagePipeline.NewProject
