import ImagePipeline.Dockerfile.Generate
import ImagePipeline.Proofs.Build.Prefix
import ImagePipeline.Proofs.Files.Changes

/-! What generating leaves behind. The Dockerfile of each base that was reached holds what the
skeleton gives for it, every other file is as it was, and a base for which the skeleton gives
nothing ends the run. -/
namespace ImagePipeline.Dockerfile

open FileTree (Rewrites placeOf)

variable {c : Config} {p : Project} {skeleton : Path} {time : Timestamp} {template text : String}
  {b b' : BaseImage} {s s' : Session}

/-- What a template gives for a base. -/
def renderedFor (c : Config) (time : Timestamp) (template : String) (b : BaseImage) :
    Except Template.Fault String :=
  Template.render template (.ofConfig c b time)

/-- The place of the Dockerfile of a base. -/
def placeFor (p : Project) (b : BaseImage) : Location := placeOf (p.templatePath b.name)

theorem placeFor_inj : placeFor p b = placeFor p b' ↔ b = b' := by
  have place (b : BaseImage) :
      placeFor p b = placeOf p.root ++ FileTree.stepsOf ⟨templateRelative b.name⟩ := by
    refine FileTree.placeOf_join ?_ ?_
    · cases b <;> decide +kernel
    · cases b <;> decide +kernel
  rw [place, place, List.append_cancel_left_eq]
  cases b <;> cases b' <;> decide +kernel

/-- How the run ends at a base for which the template gives nothing. -/
def renderFailure (skeleton : Path) (b : BaseImage) (fault : Template.Fault) : Failure where
  contexts := ["Failed to render " ++ skeleton.text ++ " for " ++ b.name]
  cause := .template fault

/-! ### One base -/

theorem exec_reportIssues (b : BaseImage) (issues : List Issue) (s : Session) :
    ∃ logged, (reportIssues b issues).exec s = (.ok (), { s with logged }) := by
  induction issues generalizing s with
  | nil => exact ⟨s.logged, rfl⟩
  | cons issue issues ih =>
    rw [reportIssues, Work.exec_bind, Work.exec_log]
    exact ih _

/-- Writes what a template has given for a base, and reports on it. -/
def writeFor (p : Project) (b : BaseImage) (text : String) : Work Generated := do
  let path := p.templatePath b.name
  Work.within ("Failed to write Dockerfile: " ++ path.text) (Work.writeText path text)
  reportIssues b (lint text)
  return { base := b, path, issues := lint text }

/-- Where the template gives something, the directory is made and the file is written. -/
theorem generateFor_eq (given : renderedFor c time template b = .ok text) :
    generateFor c p skeleton time template b =
      match (p.templatePath b.name).parent? with
      | some dir => do
        Work.within ("Failed to create directory: " ++ dir.text) (Work.createDirs dir)
        writeFor p b text
      | none => writeFor p b text := by
  unfold renderedFor at given
  unfold generateFor
  rw [given]
  dsimp only
  rw [pure_bind]
  rfl

theorem exec_generateFor_fault {fault : Template.Fault}
    (failed : renderedFor c time template b = .error fault) (s : Session) :
    (generateFor c p skeleton time template b).exec s =
      (.error (renderFailure skeleton b fault), s) := by
  unfold renderedFor at failed
  unfold generateFor
  rw [failed]
  rfl

theorem writeFor_alters (p : Project) (b : BaseImage) (text : String) (s : Session) :
    Alters (Rewrites (· = placeFor p b)) (writeFor p b text) s := by
  refine ((Alters.writeText fun u => FileTree.write_rewrites).within _).bind fun _ s' _ _ => ?_
  obtain ⟨logged, reported⟩ := exec_reportIssues b (lint text) s'
  exact (Alters.idle reported rfl rfl).bind fun _ _ _ _ => .pure _

theorem generateFor_alters (p : Project) (skeleton : Path) (s : Session)
    (given : renderedFor c time template b = .ok text) :
    Alters (Rewrites (· = placeFor p b)) (generateFor c p skeleton time template b) s := by
  rw [generateFor_eq given]
  split
  · rename_i dir _
    have made := FileTree.createDirs_rewrites (· = placeFor p b) s.files dir
    exact ((Alters.createDirs made).within _).bind fun _ s' _ _ => writeFor_alters p b text s'
  · exact writeFor_alters p b text s

theorem writeFor_ok {g : Generated} (run : (writeFor p b text).exec s = (.ok g, s')) :
    g = ⟨b, p.templatePath b.name, lint text⟩ ∧
      s'.files.read (p.templatePath b.name) = .ok text.toUTF8 := by
  unfold writeFor at run
  obtain ⟨_, m, written, rest⟩ := Work.ok_of_bind run
  obtain ⟨wrote, -, -⟩ := Work.ok_of_writeText (Work.ok_of_within written)
  obtain ⟨logged, reported⟩ := exec_reportIssues b (lint text) m
  rw [Work.exec_bind_ok reported] at rest
  cases rest
  exact ⟨rfl, FileTree.read_of_write wrote⟩

/-- A base for which the run goes on has its Dockerfile written. -/
theorem generateFor_ok {g : Generated}
    (run : (generateFor c p skeleton time template b).exec s = (.ok g, s')) :
    ∃ text, renderedFor c time template b = .ok text ∧
      g = ⟨b, p.templatePath b.name, lint text⟩ ∧
      s'.files.read (p.templatePath b.name) = .ok text.toUTF8 := by
  cases given : renderedFor c time template b with
  | error fault =>
    rw [exec_generateFor_fault given] at run
    cases run
  | ok text =>
    rw [generateFor_eq given] at run
    refine ⟨text, rfl, ?_⟩
    split at run
    · obtain ⟨_, _, -, rest⟩ := Work.ok_of_bind run
      exact writeFor_ok rest
    · exact writeFor_ok run

/-! ### Base after base -/

/-- The Dockerfiles of these bases hold what the template gives for them, and every other file is
as it was. -/
structure Filled (c : Config) (p : Project) (time : Timestamp) (template : String)
    (done : List BaseImage) (t u : FileTree) : Prop where
  holds : ∀ b ∈ done, ∃ text, renderedFor c time template b = .ok text ∧
    u.read (p.templatePath b.name) = .ok text.toUTF8
  others : Rewrites (fun l => ∃ b ∈ done, l = placeFor p b) t u

namespace Filled

variable {t u v : FileTree} {first second : List BaseImage}

theorem nil (t : FileTree) : Filled c p time template [] t t := ⟨by simp, .refl t⟩

/-- A base whose Dockerfile is written again has the same text in it. -/
theorem trans (filled : Filled c p time template first t u)
    (further : Filled c p time template second u v) :
    Filled c p time template (first ++ second) t v where
  holds b member := by
    by_cases again : b ∈ second
    · exact further.holds b again
    · obtain ⟨text, given, written⟩ :=
        filled.holds b ((List.mem_append.mp member).resolve_right again)
      refine ⟨text, given, further.others.read ?_ written⟩
      rintro ⟨b', inSecond, same⟩
      exact again (placeFor_inj.mp same ▸ inSecond)
  others := by
    refine (filled.others.mono ?_).trans (further.others.mono ?_)
    · rintro l ⟨b, member, place⟩
      exact ⟨b, List.mem_append_left _ member, place⟩
    · rintro l ⟨b, member, place⟩
      exact ⟨b, List.mem_append_right _ member, place⟩

end Filled

/-- What a run says of a base. -/
structure Reports (c : Config) (p : Project) (time : Timestamp) (template : String) (b : BaseImage)
    (g : Generated) : Prop where
  base : g.base = b
  path : g.path = p.templatePath b.name
  issues : ∃ text, renderedFor c time template b = .ok text ∧ g.issues = lint text

theorem generateFor_fills {g : Generated}
    (run : (generateFor c p skeleton time template b).exec s = (.ok g, s')) :
    Reports c p time template b g ∧ Filled c p time template [b] s.files s'.files := by
  obtain ⟨text, given, rfl, written⟩ := generateFor_ok run
  have files := (generateFor_alters p skeleton s given).files run
  refine ⟨⟨rfl, rfl, text, given, rfl⟩, ?_, files.mono fun l place => ⟨b, by simp, place⟩⟩
  simpa using ⟨text, given, written⟩

theorem generateEach_ok {bases : List BaseImage} {reports : List Generated}
    (run : (generateEach c p skeleton time template bases).exec s = (.ok reports, s')) :
    List.Forall₂ (Reports c p time template) bases reports ∧
      Filled c p time template bases s.files s'.files := by
  induction bases generalizing s reports with
  | nil =>
    cases run
    exact ⟨.nil, .nil _⟩
  | cons b bases ih =>
    obtain ⟨g, m, first, rest⟩ := Work.ok_of_bind run
    obtain ⟨gs, m', following, last⟩ := Work.ok_of_bind rest
    cases last
    obtain ⟨report, written⟩ := generateFor_fills first
    obtain ⟨reports, filled⟩ := ih following
    exact ⟨.cons report reports, written.trans filled⟩

/-- A run over bases for which the template gives something fails only where a change of files
does. -/
theorem generateEach_alters (p : Project) (skeleton : Path) (s : Session) {bases : List BaseImage}
    (given : ∀ b ∈ bases, ∃ text, renderedFor c time template b = .ok text) :
    Alters (Rewrites fun l => ∃ b ∈ bases, l = placeFor p b)
      (generateEach c p skeleton time template bases) s := by
  induction bases generalizing s with
  | nil => exact .pure []
  | cons b bases ih =>
    obtain ⟨⟨text, first⟩, rest⟩ := List.forall_mem_cons.mp given
    have here := generateFor_alters p skeleton s first
    refine (here.mono fun u written => written.mono fun l place => ?_).bind fun g m _ _ => ?_
    · exact ⟨b, List.mem_cons_self, place⟩
    · refine ((ih m rest).mono fun u written => written.mono ?_).bind fun _ _ _ _ => .pure _
      rintro l ⟨b', member, place⟩
      exact ⟨b', List.mem_cons_of_mem b member, place⟩

/-- The bases in front are dealt with before the others are looked at. -/
theorem generateEach_append (front back : List BaseImage) :
    generateEach c p skeleton time template (front ++ back) = do
      let first ← generateEach c p skeleton time template front
      let rest ← generateEach c p skeleton time template back
      return first ++ rest := by
  induction front with
  | nil => simp [generateEach]
  | cons b front ih => simp [generateEach, ih]

/-- A change of files that has failed since is what the run has failed by. -/
def Hindered (s s' : Session) (f : Failure) : Prop :=
  ∃ as, s'.actions = s.actions ++ as ∧ ∃ a ∈ as, a.failure? = some f.cause

namespace Hindered

variable {f : Failure}

theorem of_alters {α : Type} {R : FileTree → FileTree → Prop} {t : Work α} (alters : Alters R t s)
    (run : t.exec s = (.error f, s')) : Hindered s s' f := by
  obtain ⟨-, as, actions, fails⟩ := alters
  rw [run] at actions fails
  exact ⟨as, actions, fails _ rfl⟩

theorem os (hindered : Hindered s s' f) : ∃ e, f.cause = .os e := by
  obtain ⟨-, -, a, -, failure⟩ := hindered
  unfold FileAction.failure? at failure
  split at failure
  · cases failure
  · rename_i e _
    exact ⟨e, (Option.some.inj failure).symm⟩

theorem elim (hindered : Hindered s s' f)
    (unhindered : ∀ a ∈ s'.actions.drop s.actions.length, a.failure? = none) : False := by
  obtain ⟨as, actions, a, member, failure⟩ := hindered
  rw [actions, List.drop_left] at unhindered
  rw [unhindered a member] at failure
  cases failure

end Hindered

/-- The template gives nothing for this base, and something for each one before it. -/
structure Stuck (c : Config) (time : Timestamp) (template : String)
    (bases before : List BaseImage) (b : BaseImage) (fault : Template.Fault) : Prop where
  among : ∃ after, bases = before ++ b :: after
  given : ∀ earlier ∈ before, ∃ text, renderedFor c time template earlier = .ok text
  fails : renderedFor c time template b = .error fault

theorem given_or_stuck (c : Config) (time : Timestamp) (template : String)
    (bases : List BaseImage) :
    (∀ b ∈ bases, ∃ text, renderedFor c time template b = .ok text) ∨
      ∃ before b fault, Stuck c time template bases before b fault := by
  induction bases with
  | nil => exact .inl (by simp)
  | cons b bases ih =>
    cases here : renderedFor c time template b with
    | error fault => exact .inr ⟨[], b, fault, ⟨bases, rfl⟩, by simp, here⟩
    | ok text =>
      rcases ih with given | ⟨before, b', fault, ⟨after, rfl⟩, given, fails⟩
      · exact .inl (List.forall_mem_cons.mpr ⟨⟨text, here⟩, given⟩)
      · exact .inr ⟨b :: before, b', fault, ⟨after, rfl⟩,
          List.forall_mem_cons.mpr ⟨⟨text, here⟩, given⟩, fails⟩

/-- A run fails at the first base that the template gives nothing for, with the Dockerfiles of those
before it written, unless a change of files has failed by then. -/
theorem generateEach_stuck (p : Project) (skeleton : Path) (s : Session)
    {bases before : List BaseImage} {fault : Template.Fault}
    (stuck : Stuck c time template bases before b fault) :
    ∃ f s', (generateEach c p skeleton time template bases).exec s = (.error f, s') ∧
      Rewrites (fun l => ∃ b ∈ bases, l = placeFor p b) s.files s'.files ∧
      (f = renderFailure skeleton b fault ∧ Filled c p time template before s.files s'.files ∨
        Hindered s s' f) := by
  obtain ⟨⟨after, rfl⟩, given, fails⟩ := stuck
  have alters := generateEach_alters p skeleton s given
  have wider (l : Location) : (∃ b' ∈ before, l = placeFor p b') →
      ∃ b' ∈ before ++ b :: after, l = placeFor p b' :=
    fun ⟨b', member, place⟩ => ⟨b', List.mem_append_left _ member, place⟩
  -- the bases in front can fail by a change of files only, and behind them the fault is met
  rw [generateEach_append]
  rcases run : (generateEach c p skeleton time template before).exec s with ⟨f | reports, m⟩
  · exact ⟨f, m, Work.exec_bind_error run, (alters.files run).mono wider,
      .inr (.of_alters alters run)⟩
  · have filled := (generateEach_ok run).2
    refine ⟨renderFailure skeleton b fault, m, ?_, filled.others.mono wider, .inl ⟨rfl, filled⟩⟩
    rw [Work.exec_bind_ok run, generateEach]
    exact Work.exec_bind_error (Work.exec_bind_error (exec_generateFor_fault fails m))

/-- However a run over bases ends, no other files than their Dockerfiles have changed. -/
theorem generateEach_rewrites (bases : List BaseImage) (s : Session) :
    Rewrites (fun l => ∃ b ∈ bases, l = placeFor p b) s.files
      ((generateEach c p skeleton time template bases).exec s).2.files := by
  rcases given_or_stuck c time template bases with given | ⟨before, b, fault, stuck⟩
  · exact (generateEach_alters p skeleton s given).1
  · obtain ⟨f, s', run, written, -⟩ := generateEach_stuck p skeleton s stuck
    rw [run]
    exact written

theorem generateEach_error {bases : List BaseImage} {f : Failure}
    (run : (generateEach c p skeleton time template bases).exec s = (.error f, s')) :
    (∃ before b fault, Stuck c time template bases before b fault ∧
      f = renderFailure skeleton b fault ∧
      Filled c p time template before s.files s'.files) ∨ Hindered s s' f := by
  rcases given_or_stuck c time template bases with given | ⟨before, b, fault, stuck⟩
  · exact .inr (.of_alters (generateEach_alters p skeleton s given) run)
  · obtain ⟨g, m, ran, -, ending⟩ := generateEach_stuck p skeleton s stuck
    rw [ran] at run
    cases run
    exact ending.imp_left fun failed => ⟨before, b, fault, stuck, failed⟩

/-! ### The whole run -/

/-- The bases that a run is for. -/
def asked (bases : List BaseImage) : List BaseImage :=
  if bases.isEmpty then BaseImage.all else bases

theorem exec_generate_unread {bases : List BaseImage} {e : OsError}
    (unread : s.files.readText skeleton = .error e) :
    (generate c p skeleton bases time).exec s =
      (.error ⟨["Failed to read template: " ++ skeleton.text], .os e⟩, s) := by
  have read : (Work.readText skeleton).exec s = (.error ⟨[], .os e⟩, s) := by
    rw [Work.readText, Work.exec_bind, Work.exec_files]
    dsimp only
    rw [unread]
    rfl
  refine Work.exec_bind_error ?_
  rw [Work.exec_within, read]
  rfl

/-- The skeleton is read before anything is written. -/
theorem exec_generate_read {bases : List BaseImage}
    (read : s.files.readText skeleton = .ok template) :
    (generate c p skeleton bases time).exec s =
      (generateEach c p skeleton time template (asked bases)).exec s := by
  have read : (Work.readText skeleton).exec s = (.ok template, s) := by
    rw [Work.readText, Work.exec_bind, Work.exec_files]
    dsimp only
    rw [read]
    rfl
  refine Work.exec_bind_ok ?_
  rw [Work.exec_within, read]

theorem generate_rewrites (bases : List BaseImage) (s : Session) :
    Rewrites (fun l => ∃ b ∈ asked bases, l = placeFor p b) s.files
      ((generate c p skeleton bases time).exec s).2.files := by
  cases read : s.files.readText skeleton with
  | error e =>
    rw [exec_generate_unread read]
    exact .refl _
  | ok template =>
    rw [exec_generate_read read]
    exact generateEach_rewrites _ s

theorem generate_ok {bases : List BaseImage} {reports : List Generated}
    (run : (generate c p skeleton bases time).exec s = (.ok reports, s')) :
    ∃ template, s.files.readText skeleton = .ok template ∧
      List.Forall₂ (Reports c p time template) (asked bases) reports ∧
      Filled c p time template (asked bases) s.files s'.files := by
  cases read : s.files.readText skeleton with
  | error e =>
    rw [exec_generate_unread read] at run
    cases run
  | ok template =>
    rw [exec_generate_read read] at run
    exact ⟨template, rfl, generateEach_ok run⟩

/-- A run that fails because of a template fails at the first base that it gives nothing for. -/
theorem generate_error {bases : List BaseImage} {f : Failure}
    (run : (generate c p skeleton bases time).exec s = (.error f, s')) :
    (∃ e, f.cause = .os e) ∨ ∃ template before b fault,
      s.files.readText skeleton = .ok template ∧
      Stuck c time template (asked bases) before b fault ∧
      f = renderFailure skeleton b fault ∧
      Filled c p time template before s.files s'.files := by
  cases read : s.files.readText skeleton with
  | error e =>
    rw [exec_generate_unread read] at run
    cases run
    exact .inl ⟨e, rfl⟩
  | ok template =>
    rw [exec_generate_read read] at run
    rcases generateEach_error run with ⟨before, b, fault, stuck⟩ | hindered
    · exact .inr ⟨template, before, b, fault, rfl, stuck⟩
    · exact .inl hindered.os

/-- Where no change of files fails, the first base that the template gives nothing for is what the
run fails at. -/
theorem generate_stuck {bases before : List BaseImage} {fault : Template.Fault}
    (read : s.files.readText skeleton = .ok template)
    (stuck : Stuck c time template (asked bases) before b fault)
    (unhindered : (generate c p skeleton bases time).Unhindered s) :
    ∃ s', (generate c p skeleton bases time).exec s =
        (.error (renderFailure skeleton b fault), s') ∧
      Filled c p time template before s.files s'.files := by
  rw [Work.Unhindered] at unhindered
  rw [exec_generate_read read] at unhindered ⊢
  obtain ⟨f, s', run, -, ⟨rfl, filled⟩ | hindered⟩ := generateEach_stuck p skeleton s stuck
  · exact ⟨s', run, filled⟩
  · rw [run] at unhindered
    exact (hindered.elim unhindered).elim

/-- A run that goes well leaves in the Dockerfile of each base what the skeleton, as it was found,
gives for it, and reports on them in order. One that fails because of the skeleton has done so for
the bases before the one that it says. No other file changes, however it ends. -/
theorem generate_fills_dockerfiles (c : Config) (p : Project) (skeleton : Path)
    (bases : List BaseImage) (time : Timestamp) (s : Session) :
    (∀ reports s', (generate c p skeleton bases time).exec s = (.ok reports, s') →
      ∃ template, s.files.readText skeleton = .ok template ∧
        List.Forall₂ (Reports c p time template) (asked bases) reports ∧
        Filled c p time template (asked bases) s.files s'.files) ∧
    (∀ f s', (generate c p skeleton bases time).exec s = (.error f, s') →
      (∃ e, f.cause = .os e) ∨ ∃ template before b fault,
        s.files.readText skeleton = .ok template ∧
        Stuck c time template (asked bases) before b fault ∧
        f = renderFailure skeleton b fault ∧
        Filled c p time template before s.files s'.files) ∧
    (∀ template before b fault, s.files.readText skeleton = .ok template →
      Stuck c time template (asked bases) before b fault →
      (generate c p skeleton bases time).Unhindered s →
      ∃ s', (generate c p skeleton bases time).exec s =
          (.error (renderFailure skeleton b fault), s') ∧
        Filled c p time template before s.files s'.files) ∧
    Rewrites (fun l => ∃ b ∈ asked bases, l = placeFor p b) s.files
      ((generate c p skeleton bases time).exec s).2.files :=
  ⟨fun _ _ => generate_ok, fun _ _ => generate_error, fun _ _ _ _ => generate_stuck,
    generate_rewrites bases s⟩

/-- The Dockerfile of one base, which serves as the skeleton for all. -/
def ownSkeleton : Path := demoProject.templatePath "alpine-3.20"

def ownSkeletonFiles : FileTree := ⟨[
  (["work"], .directory),
  (["work", "templates"], .directory),
  (["work", "templates", "base"], .directory),
  (["work", "templates", "base", "alpine-3.20.Dockerfile"],
    .file "FROM {{ .BaseImage }}".toUTF8 false)]⟩

/-- The skeleton is written first here, and the second base still gets what it said before. -/
theorem ownSkeleton_filled : ∃ reports s',
    (generate demo demoProject ownSkeleton [.alpine320, .ubuntu2404] ⟨0, 0⟩).exec
      { files := ownSkeletonFiles } = (.ok reports, s') ∧
    s'.files.read ownSkeleton = .ok "FROM alpine:3.20".toUTF8 ∧
    s'.files.read (demoProject.templatePath "ubuntu-24.04") = .ok "FROM ubuntu:24.04".toUTF8 := by
  have goes : ((generate demo demoProject ownSkeleton [.alpine320, .ubuntu2404] ⟨0, 0⟩).exec
      { files := ownSkeletonFiles }).1.isOk = true := by decide +kernel
  rcases run : (generate demo demoProject ownSkeleton [.alpine320, .ubuntu2404] ⟨0, 0⟩).exec
      { files := ownSkeletonFiles } with ⟨f | reports, s'⟩
  · rw [run] at goes
    cases goes
  · obtain ⟨template, found, -, filled⟩ := (generate_fills_dockerfiles demo demoProject ownSkeleton
      [.alpine320, .ubuntu2404] ⟨0, 0⟩ { files := ownSkeletonFiles }).1 reports s' run
    have read : ownSkeletonFiles.readText ownSkeleton = .ok "FROM {{ .BaseImage }}" := by
      decide +kernel
    obtain rfl := Except.ok.inj (read.symm.trans found)
    have alpine : renderedFor demo ⟨0, 0⟩ "FROM {{ .BaseImage }}" .alpine320 =
        .ok "FROM alpine:3.20" := by decide +kernel
    have ubuntu : renderedFor demo ⟨0, 0⟩ "FROM {{ .BaseImage }}" .ubuntu2404 =
        .ok "FROM ubuntu:24.04" := by decide +kernel
    obtain ⟨text, given, first⟩ := filled.holds .alpine320 (by simp [asked])
    obtain rfl := Except.ok.inj (alpine.symm.trans given)
    obtain ⟨text, given, second⟩ := filled.holds .ubuntu2404 (by simp [asked])
    obtain rfl := Except.ok.inj (ubuntu.symm.trans given)
    exact ⟨reports, s', rfl, first, second⟩

end ImagePipeline.Dockerfile
