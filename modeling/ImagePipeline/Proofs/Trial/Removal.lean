import ImagePipeline.Proofs.Work
import ImagePipeline.Trial.Run

/-! What becomes of a removal does not matter. Two runs of the tests of an image whose runners
differ in the outcome of removals only end in the same way, having issued the same commands, and
leave the same behind but for a warning in the log. -/
namespace ImagePipeline

variable {α β : Type} {c : Config} {p : Project} {process : Nat} {r r' : Runner}

/-- Sessions that differ at most in what is logged and in the replies that were given. -/
structure Session.Alike (s s' : Session) : Prop where
  files : s'.files = s.files
  issued : s'.issued = s.issued
  actions : s'.actions = s.actions
  metrics : s'.metrics = s.metrics
  printed : s'.printed = s.printed

/-- The name of the container in which a process runs the probe with a label. -/
def probeContainer (process : Nat) (label : String) : String :=
  "foundry-test-" ++ label ++ "-" ++ toString process

/-- The removal of a container, by force and without a time limit. -/
def Project.removal (p : Project) (container : String) : Command where
  program := "docker"
  args := ["rm", "-f", container]
  workingDir := some p.root
  timeLimit := none

theorem Probe.removeCommand_eq (probe : Probe) :
    probe.removeCommand p process = p.removal (probeContainer process probe.label) := rfl

/-- Not the removal of a container of a probe. -/
def Command.RemovesNothing (p : Project) (process : Nat) (c : Command) : Prop :=
  ∀ label, c ≠ p.removal (probeContainer process label)

/-- The second runner replies like the first one, but may give removals another outcome. -/
structure Runner.SameButRemovals (p : Project) (process : Nat) (r r' : Runner) : Prop where
  executes : r'.executes = r.executes
  others : ∀ before mode files, ∀ c : Command, c.RemovesNothing p process →
    r'.reply before mode c files = r.reply before mode c files
  removals : ∀ before mode files label,
    (r'.reply before mode (p.removal (probeContainer process label)) files).files =
        (r.reply before mode (p.removal (probeContainer process label)) files).files ∧
      (r'.reply before mode (p.removal (probeContainer process label)) files).printed =
        (r.reply before mode (p.removal (probeContainer process label)) files).printed ∧
      (r.reply before mode (p.removal (probeContainer process label)) files).outcome ≠
        .clockOverflow ∧
      (r'.reply before mode (p.removal (probeContainer process label)) files).outcome ≠
        .clockOverflow

namespace Session.Alike

variable {s s' : Session}

theorem refl (s : Session) : Alike s s := ⟨rfl, rfl, rfl, rfl, rfl⟩

/-- Behind the same command with replies that leave the same files and print the same. -/
theorem behind (alike : Alike s s') {x y : Exchange} (command : y.command = x.command)
    (files : y.reply.files = x.reply.files) (printed : y.reply.printed = x.reply.printed) :
    Alike (s.behind x) (s'.behind y) where
  files := files
  issued := by
    have before := alike.issued
    unfold Session.issued at before ⊢
    simp only [Session.behind, List.map_append, before, List.map_cons, command]
  actions := alike.actions
  metrics := alike.metrics
  printed := by simp only [Session.behind, alike.printed, printed]

theorem counted (alike : Alike s s') (step : String) (failed : Bool) :
    Alike (s.counted step failed) (s'.counted step failed) where
  files := alike.files
  issued := alike.issued
  actions := alike.actions
  metrics := by simp only [Session.counted, alike.metrics]
  printed := alike.printed

theorem logged (alike : Alike s s') (e e' : LogEvent) :
    Alike ((Work.log e).exec s).2 ((Work.log e').exec s').2 :=
  ⟨alike.files, alike.issued, alike.actions, alike.metrics, alike.printed⟩

end Session.Alike

/-- What passes is the same for a command that is no removal. -/
theorem Runner.SameButRemovals.exchange (same : r.SameButRemovals p process r') {s s' : Session}
    (alike : s.Alike s') (mode : OutputMode) {command : Command}
    (other : command.RemovesNothing p process) :
    r'.exchange s' mode command = r.exchange s mode command := by
  unfold Runner.exchange
  rw [alike.files, alike.issued, same.others _ _ _ _ other]

/-- From sessions that are alike, both end in the same way and in sessions that are alike. -/
def Unaffected (t u : Work α) : Prop :=
  ∀ s s', s.Alike s' → (u.exec s').1 = (t.exec s).1 ∧ (t.exec s).2.Alike (u.exec s').2

namespace Unaffected

variable {t u : Work α} {f g : α → Work β}

theorem pure (a : α) : Unaffected (Pure.pure a : Work α) (Pure.pure a) :=
  fun _ _ alike => ⟨rfl, alike⟩

theorem fail (cause : Cause) : Unaffected (Work.fail cause : Work α) (Work.fail cause) :=
  fun _ _ alike => ⟨rfl, alike⟩

theorem log (e : LogEvent) : Unaffected (Work.log e) (Work.log e) :=
  fun _ _ alike => ⟨rfl, alike.logged e e⟩

theorem bind (first : Unaffected t u) (next : ∀ a, Unaffected (f a) (g a)) :
    Unaffected (t >>= f) (u >>= g) := by
  intro s s' alike
  obtain ⟨ending, middles⟩ := first s s' alike
  rcases run : t.exec s with ⟨result, middle⟩
  rcases run' : u.exec s' with ⟨result', middle'⟩
  rw [run, run'] at ending middles
  obtain rfl : result' = result := ending
  cases result' with
  | error e =>
    rw [Work.exec_bind_error run, Work.exec_bind_error run']
    exact ⟨rfl, middles⟩
  | ok a =>
    rw [Work.exec_bind_ok run, Work.exec_bind_ok run']
    exact next a middle middle' middles

theorem within (context : String) (inner : Unaffected t u) :
    Unaffected (Work.within context t) (Work.within context u) := by
  intro s s' alike
  obtain ⟨ending, behind⟩ := inner s s' alike
  rw [Work.exec_within, Work.exec_within]
  rcases run : t.exec s with ⟨result, after⟩
  rcases run' : u.exec s' with ⟨result', after'⟩
  rw [run, run'] at ending behind
  obtain rfl : result' = result := ending
  cases result' with
  | ok a => exact ⟨rfl, behind⟩
  | error e => exact ⟨rfl, behind⟩

/-- Work in front of which there is more only under a condition. -/
theorem optional {b : Bool} {rest rest' : Work β} (first : Unaffected t u)
    (last : Unaffected rest rest') :
    Unaffected (if b then t >>= fun _ => rest else rest)
      (if b then u >>= fun _ => rest' else rest') := by
  cases b with
  | true => exact first.bind fun _ => last
  | false => exact last

theorem alter (q : Path) (change : FileTree → Except OsError Unit × FileTree) :
    Unaffected (Work.alter q change) (Work.alter q change) := by
  intro s s' alike
  rw [Work.exec_alter, Work.exec_alter, alike.files, alike.actions]
  exact ⟨rfl, rfl, alike.issued, rfl, alike.metrics, alike.printed⟩

theorem ensureStateDir (p : Project) (sub : String) :
    Unaffected (p.ensureStateDir sub) (p.ensureStateDir sub) :=
  ((alter _ _).within _).bind fun _ => pure _

theorem attempt (same : r.SameButRemovals p process r') (metric : String) {command : Command}
    (other : command.RemovesNothing p process) :
    Unaffected (r.attempt metric command) (r'.attempt metric command) := by
  intro s s' alike
  rw [r.exec_attempt, r'.exec_attempt, same.exchange alike .shared other]
  have behind := alike.behind (x := r.exchange s .shared command) rfl rfl rfl
  cases (r.exchange s .shared command).reply.outcome with
  | finished => exact ⟨rfl, behind.counted metric false⟩
  | failed => exact ⟨rfl, behind.counted metric true⟩
  | clockOverflow => exact ⟨rfl, behind⟩

theorem perform (same : r.SameButRemovals p process r') {step : Step}
    (other : step.command.RemovesNothing p process) :
    Unaffected (r.perform step) (r'.perform step) := by
  refine (attempt same step.metric other).bind fun result => ?_
  cases result with
  | ok => exact pure ()
  | error e => exact (fail _).within _

theorem performAll (same : r.SameButRemovals p process r') {steps : List Step}
    (others : ∀ step ∈ steps, step.command.RemovesNothing p process) :
    Unaffected (r.performAll steps) (r'.performAll steps) := by
  induction steps with
  | nil => exact pure ()
  | cons step steps ih =>
    obtain ⟨here, there⟩ := List.forall_mem_cons.mp others
    exact (perform same here).bind fun _ => ih there

end Unaffected

/-! ### Which commands remove nothing -/

section Commands

variable {image : String}

theorem Command.removesNothing_of_program {command : Command} (other : command.program ≠ "docker") :
    command.RemovesNothing p process := by
  rintro label rfl
  exact other rfl

theorem Probe.command_removesNothing (probe : Probe) (limit : Duration) :
    (probe.command p image process limit).RemovesNothing p process :=
  fun label same => by simp [Probe.command, Project.removal] at same

theorem Project.startCommand_removesNothing :
    (p.startCommand image).RemovesNothing p process :=
  fun label same => by simp [Project.startCommand, Project.removal] at same

end Commands

/-! ### The tests of an image -/

section Trials

variable {image : String} {limit : Duration}

/-- A removal that is answered goes on, whatever the answer. -/
theorem removeContainer_unaffected (same : r.SameButRemovals p process r') (probe : Probe) :
    Unaffected (removeContainer p r process probe) (removeContainer p r' process probe) := by
  intro s s' alike
  have replies := same.removals s.issued .shared s.files probe.label
  rw [← probe.removeCommand_eq] at replies
  obtain ⟨files, printed, answered, answered'⟩ := replies
  have behind : (s.behind (r.exchange s .shared (probe.removeCommand p process))).Alike
      (s'.behind (r'.exchange s' .shared (probe.removeCommand p process))) := by
    refine alike.behind rfl ?_ ?_
    · simpa only [Runner.exchange, alike.issued, alike.files] using files
    · simpa only [Runner.exchange, alike.issued, alike.files] using printed
  have goesOn : (r.exchange s .shared (probe.removeCommand p process)).reply.outcome ≠
      .clockOverflow := answered
  have goesOn' : (r'.exchange s' .shared (probe.removeCommand p process)).reply.outcome ≠
      .clockOverflow := by
    simpa only [Runner.exchange, alike.issued, alike.files] using answered'
  simp only [removeContainer, Work.exec_bind, Runner.exec_run]
  cases outcome : (r.exchange s .shared (probe.removeCommand p process)).reply.outcome with
  | clockOverflow => exact absurd outcome goesOn
  | finished | failed =>
    cases outcome' : (r'.exchange s' .shared (probe.removeCommand p process)).reply.outcome with
    | clockOverflow => exact absurd outcome' goesOn'
    | finished | failed =>
      exact ⟨rfl, behind.files, behind.issued, behind.actions, behind.metrics, behind.printed⟩

theorem runProbe_unaffected (same : r.SameButRemovals p process r') (probe : Probe) :
    Unaffected (runProbe p r image process limit probe)
      (runProbe p r' image process limit probe) := by
  unfold runProbe
  refine (Unaffected.attempt same _ (probe.command_removesNothing limit)).bind fun result => ?_
  cases result with
  | ok => exact .pure true
  | error e =>
    exact (Unaffected.log _).bind fun _ =>
      .optional (removeContainer_unaffected same probe) (.pure false)

theorem runProbes_unaffected (same : r.SameButRemovals p process r') (probes : List Probe) :
    Unaffected (runProbes p r image process limit probes)
      (runProbes p r' image process limit probes) := by
  induction probes with
  | nil => exact .pure []
  | cons probe probes ih =>
    exact (runProbe_unaffected same probe).bind fun _ => ih.bind fun _ => .pure _

theorem probeImage_unaffected (same : r.SameButRemovals p process r') :
    Unaffected (probeImage c p r process image) (probeImage c p r' process image) := by
  unfold probeImage
  split
  · exact .fail _
  · refine (runProbes_unaffected same _).bind fun failed => ?_
    cases failed with
    | nil => exact .pure ()
    | cons => exact .fail _

theorem measureStart_unaffected (same : r.SameButRemovals p process r') :
    Unaffected (measureStart c p r image) (measureStart c p r' image) := by
  unfold measureStart
  dsimp only
  split
  · exact .fail _
  · rw [same.executes]
    refine Unaffected.optional (.ensureStateDir p "") ?_
    refine (Unaffected.perform same ?_).bind fun _ => .pure _
    exact Command.removesNothing_of_program (by simp [Project.hyperfineCommand])
  · refine (Unaffected.performAll same fun step member => ?_).bind fun _ => .pure _
    rw [List.eq_of_mem_replicate member]
    exact Project.startCommand_removesNothing

theorem runImageTests_unaffected (same : r.SameButRemovals p process r') (arch : String) :
    Unaffected (runImageTests c p r process arch) (runImageTests c p r' process arch) := by
  unfold runImageTests
  dsimp only
  refine Unaffected.optional (.perform same ?_) ?_
  · exact Command.removesNothing_of_program (by simp [Config.structureCommand])
  · refine Unaffected.optional ((probeImage_unaffected same).within _) ?_
    split
    · exact ((measureStart_unaffected same).within _).bind fun _ => .pure _
    · exact (Unaffected.pure none).bind fun _ => .pure _

end Trials

end ImagePipeline
