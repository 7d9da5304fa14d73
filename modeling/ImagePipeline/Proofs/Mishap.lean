import ImagePipeline.Proofs.Plan
import ImagePipeline.Runner.DryRun

/-! Work that fails only by a mishap, that is because a command or a change of files has
failed, and not because of what is configured. Where there is no mishap it goes well. -/
namespace ImagePipeline

variable {α β : Type} {r : Runner}

/-- Whether a configuration asks for something that there is not. -/
def Cause.ofConfiguration : Cause → Bool
  | .unknownStandard _ | .unknownAnalyzer _ | .unknownBenchmark _ | .invalidTimeout _ => true
  | _ => false

def Mishap (xs : List Exchange) (as : List FileAction) : Prop :=
  (∃ x ∈ xs, x.failure? ≠ none) ∨ ∃ a ∈ as, a.failure? ≠ none

/-- Every command succeeds, whatever it does to the files. -/
def Runner.Succeeds (r : Runner) : Prop :=
  ∀ before mode c files, ∃ output, (r.reply before mode c files).outcome = .finished output

/-- Every change of files that work makes from a session on succeeds. -/
def Work.Unhindered (t : Work α) (s : Session) : Prop :=
  ∀ a ∈ (t.exec s).2.actions.drop s.actions.length, a.failure? = none

/-- A dry run without rehearsed failures succeeds throughout. -/
theorem DryRun.succeeds {d : DryRun} (failures : d.failures = []) (timeouts : d.timeouts = []) :
    d.runner.Succeeds := by
  intro before mode c files
  have outcome : d.outcome c = .finished ((d.outputs.lookup c.program).getD "") := by
    unfold DryRun.outcome
    rw [failures, timeouts]
    cases c.timeLimit <;> rfl
  exact ⟨_, outcome⟩

namespace Mishap

variable {xs ys : List Exchange} {as bs : List FileAction}

theorem append_left (mishap : Mishap xs as) : Mishap (xs ++ ys) (as ++ bs) := by
  rcases mishap with ⟨x, member, failure⟩ | ⟨a, member, failure⟩
  · exact .inl ⟨x, List.mem_append_left _ member, failure⟩
  · exact .inr ⟨a, List.mem_append_left _ member, failure⟩

theorem append_right (mishap : Mishap ys bs) : Mishap (xs ++ ys) (as ++ bs) := by
  rcases mishap with ⟨x, member, failure⟩ | ⟨a, member, failure⟩
  · exact .inl ⟨x, List.mem_append_right _ member, failure⟩
  · exact .inr ⟨a, List.mem_append_right _ member, failure⟩

end Mishap

theorem Exchange.cause_of_failure {x : Exchange} {cause : Cause}
    (failure : x.failure? = some cause) : cause.ofConfiguration = false := by
  unfold failure? at failure
  split at failure <;> cases failure <;> rfl

theorem FileAction.cause_of_failure {a : FileAction} {cause : Cause}
    (failure : a.failure? = some cause) : cause.ofConfiguration = false := by
  unfold failure? at failure
  split at failure <;> cases failure
  rfl

/-- Work that fails from a session on only by a mishap. -/
def Excused (r : Runner) (t : Work α) (s : Session) : Prop :=
  ∃ xs as, Adds r s (t.exec s).2 xs as ∧
    ∀ cause, causeOf (t.exec s).1 = some cause → cause.ofConfiguration = false ∧ Mishap xs as

namespace Excused

variable {t : Work α} {f : α → Work β} {s s' : Session}

theorem of_exec {result : Except Failure α} {xs : List Exchange} {as : List FileAction}
    (run : t.exec s = (result, s')) (added : Adds r s s' xs as)
    (fails : ∀ cause, causeOf result = some cause →
      cause.ofConfiguration = false ∧ Mishap xs as) : Excused r t s := by
  rw [Excused, run]
  exact ⟨xs, as, added, fails⟩

theorem of_pursues {touches : Path → Prop} {plan : List Command}
    (pursues : Pursues r touches plan t s) : Excused r t s := by
  obtain ⟨xs, as, added, follows, -⟩ := pursues
  refine ⟨xs, as, added, fun cause ended => ?_⟩
  rcases follows.blame ended with ⟨x, member, failure⟩ | ⟨a, member, failure⟩
  · exact ⟨x.cause_of_failure failure, .inl ⟨x, member, by simp [failure]⟩⟩
  · exact ⟨a.cause_of_failure failure, .inr ⟨a, member, by simp [failure]⟩⟩

theorem pure (a : α) : Excused r (Pure.pure a : Work α) s :=
  of_exec (Work.exec_pure a s) (.nothing rfl rfl) (by simp [causeOf])

theorem bind (first : Excused r t s)
    (next : ∀ a s', t.exec s = (.ok a, s') → Excused r (f a) s') : Excused r (t >>= f) s := by
  obtain ⟨xs, as, added, fails⟩ := first
  rcases run : t.exec s with ⟨result, s'⟩
  rw [run] at added fails
  cases result with
  | error e => exact of_exec (Work.exec_bind_error run) added fails
  | ok a =>
    obtain ⟨ys, bs, more, following⟩ := next a s' run
    rw [Excused, Work.exec_bind_ok run]
    refine ⟨_, _, added.trans more, fun cause ended => ?_⟩
    obtain ⟨other, mishap⟩ := following cause ended
    exact ⟨other, mishap.append_right⟩

theorem within (context : String) (inner : Excused r t s) :
    Excused r (Work.within context t) s := by
  obtain ⟨xs, as, added, fails⟩ := inner
  have outer := Work.exec_within context t s
  rcases run : t.exec s with ⟨result, s'⟩
  rw [run] at added fails outer
  cases result with
  | ok a => exact of_exec outer added fails
  | error e => exact of_exec outer added fails

/-- Work in front of which there is more only under a condition. -/
theorem optional {b : Bool} {rest : Work β} (first : b = true → Excused r t s)
    (next : ∀ s, Excused r rest s) : Excused r (if b then t >>= fun _ => rest else rest) s := by
  cases b with
  | true => exact (first rfl).bind fun _ s _ => next s
  | false => exact next s

/-- Without a mishap, work that fails only by one goes well. -/
theorem succeeds (excused : Excused r t s) (all : r.Succeeds) (unhindered : t.Unhindered s) :
    ∃ a, (t.exec s).1 = .ok a := by
  obtain ⟨xs, as, added, fails⟩ := excused
  cases result : (t.exec s).1 with
  | ok a => exact ⟨a, rfl⟩
  | error e =>
    rw [result] at fails
    rcases (fails e.cause rfl).2 with ⟨x, member, failure⟩ | ⟨a, member, failure⟩
    · obtain ⟨earlier, reply⟩ := added.faithful.reply member
      obtain ⟨output, finished⟩ := all earlier x.mode x.command x.found
      simp [Exchange.failure?, reply, finished] at failure
    · rw [Work.Unhindered, added.actions, List.drop_left] at unhindered
      exact absurd (unhindered a member) failure

theorem cause {e : Failure} (excused : Excused r t s) (failed : (t.exec s).1 = .error e) :
    e.cause.ofConfiguration = false := by
  obtain ⟨xs, as, -, fails⟩ := excused
  rw [failed] at fails
  exact (fails e.cause rfl).1

end Excused

end ImagePipeline
