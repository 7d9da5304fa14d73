import ImagePipeline.Proofs.Config.Report
import ImagePipeline.Proofs.Dockerfile.Generation

/-! What generating does to what a check finds. A check asks the files for one Dockerfile and
nothing else, so that generating may mend a configuration and never spoils one. -/
namespace ImagePipeline

variable {c : Config} {p : Project} {t u : FileTree}

namespace Config

/-- The Dockerfile that a configuration builds from. -/
def builtFrom (c : Config) (p : Project) : Path := p.templatePath (Text.trimmed c.base.template)

theorem presentIf_sublist {α : Type} {a : α} {strong weak : Bool}
    (implies : strong = true → weak = true) : (presentIf strong a).Sublist (presentIf weak a) := by
  cases strong with
  | true => rw [implies rfl]
  | false => simp [presentIf]

/-- Where the Dockerfile of a configuration is not lost, a check finds nothing new. -/
theorem errors_sublist
    (stays : t.isFile (c.builtFrom p) = true → u.isFile (c.builtFrom p) = true) :
    (c.check p u).errors.Sublist (c.check p t).errors := by
  rw [errors_split, errors_split]
  refine List.Sublist.append (.append (.refl _) (presentIf_sublist ?_)) (.refl _)
  rw [← builtFrom, Bool.and_eq_true, Bool.and_eq_true]
  refine And.imp_right ?_
  cases there : t.isFile (c.builtFrom p) with
  | true => simp [stays there]
  | false => exact fun _ => rfl

/-- A Dockerfile that is there is not missing. -/
theorem errors_mended {template : String} {q : Path}
    (missing : (c.check p t).errors = [.templateMissing template q])
    (there : u.isFile (c.builtFrom p) = true) : (c.check p u).errors = [] := by
  have fewer : (c.check p u).errors.Sublist [.templateMissing template q] :=
    missing ▸ errors_sublist fun _ => there
  rcases List.sublist_singleton.mp fewer with none | still
  · exact none
  · have absent := (templateMissing_mem.mp (still ▸ List.mem_singleton_self _)).2.1
    rw [builtFrom] at there
    rw [there] at absent
    cases absent

end Config

open Dockerfile in
/-- Generating the Dockerfiles of all bases mends a configuration of which only the Dockerfile is
missing, if it names a base. Whatever is generated, and however that ends, a check of any
configuration finds nothing behind it that it would not have found before. -/
theorem generate_mends_configurations (c : Config) (p : Project) (skeleton : Path)
    (time : Timestamp) (s : Session) :
    (∀ template q, (c.check p s.files).errors = [.templateMissing template q] →
      ∀ b : BaseImage, Text.trimmed c.base.template = b.name →
      ∀ reports s', (generate c p skeleton [] time).exec s = (.ok reports, s') →
        (c.check p s'.files).errors = []) ∧
    ∀ (bases : List BaseImage) (checked : Config),
      (checked.check p ((generate c p skeleton bases time).exec s).2.files).errors.Sublist
        (checked.check p s.files).errors := by
  constructor
  · intro template q missing b named reports s' run
    obtain ⟨skeletonText, -, -, filled⟩ := generate_ok run
    obtain ⟨text, -, written⟩ := filled.holds b (by cases b <;> decide)
    obtain ⟨l, executable, found⟩ := FileTree.read_ok_iff.mp written
    refine Config.errors_mended missing ?_
    rw [Config.builtFrom, named]
    exact FileTree.isFile_iff.mpr ⟨l, _, executable, found⟩
  · intro bases checked
    exact Config.errors_sublist (generate_rewrites bases s).isFile

/-- A configuration that names a base, with blanks around it. -/
def alpineDemo : Config := { demo with base := { demo.base with template := " alpine-3.20\t" } }

def skeletonFiles : FileTree := ⟨[
  (["work"], .directory),
  (["work", "templates"], .directory),
  (["work", "templates", "dockerfile-template.tmpl"], .file "FROM {{ .BaseImage }}".toUTF8 false)]⟩

open Dockerfile in
theorem alpineDemo_mended : ∃ reports s',
    (alpineDemo.check demoProject skeletonFiles).errors =
      [.templateMissing " alpine-3.20\t" ⟨"templates/base/alpine-3.20.Dockerfile"⟩] ∧
    (generate alpineDemo demoProject demoProject.skeletonPath [] ⟨0, 0⟩).exec
      { files := skeletonFiles } = (.ok reports, s') ∧
    (alpineDemo.check demoProject s'.files).errors = [] := by
  have missing : (alpineDemo.check demoProject skeletonFiles).errors =
      [.templateMissing " alpine-3.20\t" ⟨"templates/base/alpine-3.20.Dockerfile"⟩] := by
    decide +kernel
  have goes : ((generate alpineDemo demoProject demoProject.skeletonPath [] ⟨0, 0⟩).exec
      { files := skeletonFiles }).1.isOk = true := by decide +kernel
  rcases run : (generate alpineDemo demoProject demoProject.skeletonPath [] ⟨0, 0⟩).exec
      { files := skeletonFiles } with ⟨f | reports, s'⟩
  · rw [run] at goes
    cases goes
  · have named : Text.trimmed alpineDemo.base.template = BaseImage.alpine320.name := by
      decide +kernel
    exact ⟨reports, s', missing, rfl, (generate_mends_configurations alpineDemo demoProject _ _
      { files := skeletonFiles }).1 _ _ missing .alpine320 named reports s' run⟩

end ImagePipeline
