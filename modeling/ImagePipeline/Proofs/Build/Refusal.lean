import ImagePipeline.Proofs.Build.Prefix
import ImagePipeline.Proofs.HandsOff

/-! A build for an architecture that is not configured. It is refused where the architectures
are selected. That is behind the hook before, so the hook has run by then, and nothing else. -/
namespace ImagePipeline

variable {c : Config} {p : Project} {r : Runner} {o : BuildOptions} {s : Session}

/-- An architecture that is asked for, the first of them that is not configured. -/
structure Config.Unconfigured (c : Config) (wanted : List String) (a : String) : Prop where
  missing : a ∉ c.base.architectures
  first : ∃ front back, wanted = front ++ a :: back ∧ ∀ b ∈ front, b ∈ c.base.architectures

namespace Config

theorem unconfigured_iff_find {wanted : List String} {a : String} :
    c.Unconfigured wanted a ↔
      (wanted.find? fun b => !c.base.architectures.contains b) = some a := by
  rw [List.find?_eq_some_iff_append]
  constructor
  · rintro ⟨missing, front, back, cut, known⟩
    exact ⟨by simpa using missing, front, back, cut, by simpa using known⟩
  · rintro ⟨missing, front, back, cut, known⟩
    exact ⟨by simpa using missing, front, back, cut, by simpa using known⟩

theorem Unconfigured.refused {wanted : List String} {a : String}
    (unconfigured : c.Unconfigured wanted a) :
    c.selectArchitectures wanted =
      .error (.architectureNotConfigured a c.base.architectures) := by
  have given : wanted.isEmpty = false := by
    obtain ⟨front, back, rfl, -⟩ := unconfigured.first
    simp
  simp only [selectArchitectures, given, unconfigured_iff_find.mp unconfigured,
    Bool.false_eq_true, if_false]

end Config

namespace Follows

variable {plan : List Command} {x : Command} {xs : List Exchange} {cause : Option Cause}

/-- Without changes of files, what stops the work is the first command that fails. -/
theorem cause_eq_findSome (follows : Follows plan xs [] cause) :
    cause = xs.findSome? Exchange.failure? := by
  generalize none_changed : ([] : List FileAction) = as at follows
  induction follows with
  | completed => rfl
  | stopped failure => rw [List.findSome?_cons_of_isSome (by simp [failure]), failure]
  | hindered | changed => contradiction
  | issued succeeded _ ih => rw [ih none_changed, List.findSome?_cons, succeeded]

/-- The only command of a plan is issued, whether it succeeds or not. -/
theorem issued_single (follows : Follows [x] xs [] cause) : xs.map Exchange.command = [x] := by
  cases follows with
  | stopped => rfl
  | issued _ rest =>
    cases rest
    rfl

end Follows

/-- A hook issues its command if it has one, leaves the files to it, and fails with it. -/
theorem hook_handed (r : Runner) (s : Session) (p : Project) (label script : String) :
    ∃ trace, Adds r s ((r.performAll (hookSteps p label script)).exec s).2 trace [] ∧
      Handed s.files trace ((r.performAll (hookSteps p label script)).exec s).2.files ∧
      trace.map Exchange.command = hookPlan p script ∧
      causeOf ((r.performAll (hookSteps p label script)).exec s).1 =
        trace.findSome? Exchange.failure? := by
  obtain ⟨trace, added, handed⟩ := HandsOff.performAll (r := r) (hookSteps p label script) s
  have pursues : Pursues r (fun _ => True) ((hookSteps p label script).map Step.command)
      (r.performAll (hookSteps p label script)) s := .performAll _
  obtain ⟨xs, as, again, follows, -⟩ := pursues
  obtain ⟨rfl, rfl⟩ := added.unique again
  refine ⟨trace, added, handed, ?_, follows.cause_eq_findSome⟩
  rw [hookSteps_commands] at follows
  unfold hookPlan at follows ⊢
  split
  · rw [if_pos ‹_›] at follows
    exact List.prefix_nil.mp follows.isPrefix
  · rw [if_neg ‹_›] at follows
    exact follows.issued_single

/-- A build that selects no architectures ends behind its hook. -/
theorem exec_runBuild_refused {cause : Cause}
    (refused : c.selectArchitectures o.architectures = .error cause) :
    (runBuild c p r o).exec s =
      match (r.performAll (hookSteps p "pre-build" c.custom.preBuild)).exec s with
      | (.ok (), behind) => (.error { cause }, behind)
      | (.error e, behind) => (.error e, behind) := by
  have fails : buildImages c p r o = Work.fail cause := by
    simp only [buildImages, refused]
  unfold runBuild
  rw [Work.exec_bind]
  rcases (r.performAll (hookSteps p "pre-build" c.custom.preBuild)).exec s with
    ⟨result, behind⟩
  cases result with
  | error e => rfl
  | ok done =>
    dsimp only
    rw [fails]
    exact Work.exec_bind_error rfl

/-- A build that is asked for an architecture that is not configured fails, and names the first
of these unless its hook fails before. It issues the command of the hook and no other one, and
what becomes of the files is up to that command; without a hook it does nothing at all. -/
theorem unconfigured_architecture_refused (c : Config) (p : Project) (r : Runner)
    (o : BuildOptions) (s : Session)
    (given : ∃ a ∈ o.architectures, a ∉ c.base.architectures) :
    ∃ a trace, c.Unconfigured o.architectures a ∧
      Adds r s ((runBuild c p r o).exec s).2 trace [] ∧
      Handed s.files trace ((runBuild c p r o).exec s).2.files ∧
      trace.map Exchange.command = hookPlan p c.custom.preBuild ∧
      (trace.findSome? Exchange.failure? = none → ((runBuild c p r o).exec s).1 =
        .error { cause := .architectureNotConfigured a c.base.architectures }) ∧
      (∀ cause, trace.findSome? Exchange.failure? = some cause →
        causeOf ((runBuild c p r o).exec s).1 = some cause) ∧
      (Text.isBlankText c.custom.preBuild = true → (runBuild c p r o).exec s =
        (.error { cause := .architectureNotConfigured a c.base.architectures }, s)) := by
  obtain ⟨a, found⟩ : ∃ a, c.Unconfigured o.architectures a := by
    obtain ⟨a, wanted, missing⟩ := given
    have some : (o.architectures.find? fun b => !c.base.architectures.contains b).isSome :=
      List.find?_isSome.mpr ⟨a, wanted, by simpa using missing⟩
    obtain ⟨first, found⟩ := Option.isSome_iff_exists.mp some
    exact ⟨first, Config.unconfigured_iff_find.mpr found⟩
  have run := exec_runBuild_refused (p := p) (r := r) (s := s) found.refused
  obtain ⟨trace, added, handed, commands, ended⟩ :=
    hook_handed r s p "pre-build" c.custom.preBuild
  refine ⟨a, trace, found, ?_⟩
  rcases hook : (r.performAll (hookSteps p "pre-build" c.custom.preBuild)).exec s with
    ⟨result, behind⟩
  rw [hook] at run added handed ended
  cases result with
  | ok done =>
    rw [run]
    refine ⟨added, handed, commands, fun _ => rfl, fun cause failed => ?_, fun blank => ?_⟩
    · rw [failed] at ended
      contradiction
    · have nothing : hookSteps p "pre-build" c.custom.preBuild = [] := if_pos blank
      rw [nothing] at hook
      cases hook
      rfl
  | error e =>
    rw [run]
    refine ⟨added, handed, commands, fun none => ?_, fun cause failed => ?_, fun blank => ?_⟩
    · rw [none] at ended
      contradiction
    · exact ended.trans failed
    · have nothing : hookSteps p "pre-build" c.custom.preBuild = [] := if_pos blank
      rw [nothing] at hook
      cases hook

/-- The hook of a build has run by the time that the build is refused. -/
theorem demo_refused_behind_hook :
    (∃ a ∈ ["amd64", "s390x"], a ∉ demo.base.architectures) ∧
    ∃ (a : String) (trace : List Exchange), demo.Unconfigured ["amd64", "s390x"] a ∧
      trace.map Exchange.command = [(Command.shell "make sources").inDir demoProject.root] ∧
      ((runBuild demo demoProject (rehearsal "cosign")
        { architectures := ["amd64", "s390x"] }).exec {}).2.issued =
          trace.map Exchange.command := by
  have given : ∃ a ∈ ["amd64", "s390x"], a ∉ demo.base.architectures := by decide
  obtain ⟨a, trace, found, added, -, commands, -⟩ := unconfigured_architecture_refused demo
    demoProject (rehearsal "cosign") { architectures := ["amd64", "s390x"] } {} given
  exact ⟨given, a, trace, found, commands.trans (by decide +kernel), added.issued⟩

/-- A build that is refused for its architecture is not refused before it issues anything. -/
theorem not_refused_before_hook :
    ¬ ∀ (c : Config) (p : Project) (r : Runner) (o : BuildOptions) (s : Session) (a : String),
      c.Unconfigured o.architectures a →
        ((runBuild c p r o).exec s).1 =
          .error { cause := .architectureNotConfigured a c.base.architectures } ∧
        ((runBuild c p r o).exec s).2.issued = s.issued ∧
        ((runBuild c p r o).exec s).2.files = s.files := by
  intro refused
  have unconfigured : demo.Unconfigured ["s390x"] "s390x" :=
    ⟨by decide, [], [], rfl, by simp⟩
  obtain ⟨-, nothing, -⟩ := refused demo demoProject (rehearsal "cosign")
    { architectures := ["s390x"] } {} "s390x" unconfigured
  have hook : ((runBuild demo demoProject (rehearsal "cosign")
      { architectures := ["s390x"] }).exec {}).2.issued =
        [(Command.shell "make sources").inDir demoProject.root] := by decide +kernel
  rw [hook] at nothing
  contradiction

end ImagePipeline
