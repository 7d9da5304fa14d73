import ImagePipeline.Proofs.Files.Realization
import ImagePipeline.Proofs.NewProject.Layout

/-! A project laid out over another one. What comes of it does not depend on what was laid out
before, and laying it out again changes nothing. -/
namespace ImagePipeline.NewProject

open FileTree (Retains placeOf)

variable {p : Project} {first second preset : Preset} {t u : FileTree}

/-! ### What the work makes of the files -/

theorem create_realizes (path : Path) (content : String) (report : Report) :
    Realizes (·.laid? (path, content)) (create true path content report)
      (report.extend [(path, content)] []) := by
  have above := Realizes.createParent "failed to create directory " path
  have write := (Realizes.writeText path content).within ("failed to write " ++ path.text)
  have whole : Realizes (·.laid? (path, content))
      (do
        Work.createParent "failed to create directory " path
        Work.within ("failed to write " ++ path.text) (Work.writeText path content)
        return { report with created := report.created ++ [path] })
      (report.extend [(path, content)] []) := by
    have one : report.extend [(path, content)] [] =
        { report with created := report.created ++ [path] } := by simp [Report.extend]
    rw [one]
    exact above.bind (write.andReturn _)
  refine whole.congr fun s => ?_
  rw [create, Work.exec_bind_ok (Work.exec_files s), if_neg (by simp)]

theorem createEach_realizes (items : List (Path × String)) (report : Report) :
    Realizes (·.laidEach? items) (createEach true items report) (report.extend items []) := by
  induction items generalizing report with
  | nil =>
    have nothing : report.extend [] [] = report := by simp [Report.extend]
    rw [nothing]
    exact .pure report
  | cons f items ih =>
    have parts : report.extend (f :: items) [] = (report.extend [f] []).extend items [] := by
      simp [Report.extend]
    simp only [parts, FileTree.laidEach?_cons]
    exact (create_realizes f.1 f.2 report).bind (ih _)

theorem createDirectories_realizes (p : Project) (dirs : List String) :
    Realizes (·.madeEach? (dirs.map p.path)) (createDirectories p dirs) () := by
  induction dirs with
  | nil => exact .pure ()
  | cons dir dirs ih =>
    simp only [List.map_cons, FileTree.madeEach?_cons]
    exact ((Realizes.createDirs (p.path dir)).within _).bind ih

/-- The tree with a project in it, laid out over whatever had been there. -/
def overwritten? (p : Project) (preset : Preset) (t : FileTree) : Option FileTree :=
  (t.madeEach? (directories.map p.path)).bind (·.laidEach? (files p preset))

theorem init_realizes (p : Project) (preset : Preset) :
    Realizes (overwritten? p preset) (init p preset true)
      (Report.extend {} (files p preset) []) := by
  have whole : Realizes (overwritten? p preset)
      (do
        createDirectories p directories
        createEach true (files p preset) {})
      (Report.extend {} (files p preset) []) :=
    (createDirectories_realizes p directories).bind (createEach_realizes (files p preset) {})
  refine whole.congr fun s => ?_
  rw [init, Work.exec_bind_ok (Work.exec_files s), if_neg (by simp)]
  rfl

/-! ### One project over another -/

theorem files_paths (p : Project) (first second : Preset) :
    (files p first).map Prod.fst = (files p second).map Prod.fst := by
  simp only [files, List.map_cons]

theorem overwritten?_over (second : Preset) (laid : overwritten? p first t = some u) :
    ∃ v, overwritten? p second t = some v ∧ overwritten? p second u = some v := by
  obtain ⟨m, made, laid⟩ := Option.bind_eq_some_iff.mp laid
  obtain ⟨v, alone, atop⟩ := FileTree.laidEach?_over (files_paths p first second) laid
  have again := FileTree.madeEach?_again made (FileTree.laidEach?_retains laid).keepsDirectories
  refine ⟨v, ?_, ?_⟩
  · rw [overwritten?, made, Option.bind_some, alone]
  · rw [overwritten?, again, Option.bind_some, atop]

theorem overwritten?_retains (laid : overwritten? p preset t = some u) :
    Retains (· ∈ FileTree.places (files p preset)) t u := by
  obtain ⟨m, made, laid⟩ := Option.bind_eq_some_iff.mp laid
  exact (Retains.of_kept (FileTree.madeEach?_kept made)).trans (FileTree.laidEach?_retains laid)

/-- Where a project could be laid out over whatever was there, another one can be laid out over
that. The files are then what this one alone would have made of them, laying it out again leaves
them alone, it skips nothing, and whatever lies in other places than its files is as it was. -/
theorem init_overwrites (p : Project) (first second : Preset) {s s₁ : Session} {report : Report}
    (run : (init p first true).exec s = (.ok report, s₁)) :
    ∃ report₂ s₂, (init p second true).exec s₁ = (.ok report₂, s₂) ∧
      (∃ s₃, (init p second true).exec s = (.ok report₂, s₃) ∧ s₃.files = s₂.files) ∧
      (∃ s₃, (init p second true).exec s₂ = (.ok report₂, s₃) ∧ s₃.files = s₂.files) ∧
      report₂.skipped = [] ∧ report₂.created = (files p second).map Prod.fst ∧
      ∀ l e, s.files.lookup l = some e → (∀ f ∈ files p second, placeOf f.1 ≠ l) →
        s₂.files.lookup l = some e := by
  have realizes := init_realizes p second
  obtain ⟨-, laid⟩ := (init_realizes p first).of_run run
  obtain ⟨v, alone, atop⟩ := overwritten?_over second laid
  -- the second project is one that can be laid out over itself
  obtain ⟨v', alone', again⟩ := overwritten?_over second alone
  obtain rfl : v = v' := Option.some.inj (alone.symm.trans alone')
  obtain ⟨s₂, run₂, rfl⟩ := realizes.goes atop
  refine ⟨_, s₂, run₂, realizes.goes alone, realizes.goes again, rfl, rfl, ?_⟩
  intro l e there other
  refine (overwritten?_retains alone).kept there fun member => ?_
  obtain ⟨_, listed, rfl⟩ := List.mem_map.mp member
  obtain ⟨f, own, rfl⟩ := List.mem_map.mp listed
  exact other f own rfl

/-- A project whose configuration lies where the skeleton is to be. -/
def crossedProject : Project := .ofRoot ⟨"/work"⟩ ⟨"templates/dockerfile-template.tmpl"⟩

/-- A tree with a file that belongs to no project. -/
def notedFiles : FileTree := ⟨[
  (["work"], .directory),
  (["work", "configs"], .directory),
  (["work", "configs", "notes"], .file "mine".toUTF8 false)]⟩

theorem notedFiles_overwritten : ∃ report s₁ report₂ s₂,
    (init crossedProject .security true).exec { files := notedFiles } = (.ok report, s₁) ∧
    (init crossedProject .minimal true).exec s₁ = (.ok report₂, s₂) ∧ report₂.skipped = [] ∧
    s₂.files.lookup ["work", "configs", "notes"] = some (.file "mine".toUTF8 false) := by
  have goes : ((init crossedProject .security true).exec { files := notedFiles }).1.map
      Report.skipped = .ok [] := by decide +kernel
  have others : ∀ f ∈ files crossedProject .minimal,
      placeOf f.1 ≠ ["work", "configs", "notes"] := by decide +kernel
  rcases run : (init crossedProject .security true).exec { files := notedFiles } with
    ⟨fault | report, s₁⟩
  · rw [run] at goes
    cases goes
  · obtain ⟨report₂, s₂, run₂, -, -, skipped, -, kept⟩ :=
      init_overwrites crossedProject .security .minimal run
    exact ⟨report, s₁, report₂, s₂, rfl, run₂, skipped, kept _ _ rfl others⟩

end ImagePipeline.NewProject
