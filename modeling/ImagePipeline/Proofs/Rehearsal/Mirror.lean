import ImagePipeline.Proofs.Mishap
import Mathlib.Data.List.Forall2

/-! Two runs side by side: a rehearsal, in which every command succeeds, and a run whose
commands may do anything to the files. As long as no command and no change of files fails
in the second, its commands match those of the first and it ends in the same way. -/
namespace ImagePipeline

variable {α β γ δ : Type} {r e : Runner} {matching : Command → Command → Prop}

/-- Both have gone well with results that are alike, or have failed for the same reason. -/
inductive SameEnding (alike : α → β → Prop) : Except Failure α → Except Failure β → Prop where
  | ok {a : α} {b : β} : alike a b → SameEnding alike (.ok a) (.ok b)
  | error (f : Failure) : SameEnding alike (.error f) (.error f)

/-- Neither a command nor a change of files fails from a session on. -/
structure Work.Smooth (t : Work α) (s : Session) : Prop where
  commands : ∀ x ∈ (t.exec s).2.exchanges.drop s.exchanges.length, x.failure? = none
  changes : t.Unhindered s

/-- From any two sessions, the rehearsal issues commands that the run matches one by one,
and they end in the same way, unless a mishap makes the run fail. -/
def Mirrors (r e : Runner) (matching : Command → Command → Prop) (alike : α → β → Prop)
    (rehearsal : Work α) (run : Work β) : Prop :=
  ∀ s s', ∃ ys bs, Adds e s' (run.exec s').2 ys bs ∧
    ((Mishap ys bs ∧ ∃ f, (run.exec s').1 = .error f) ∨
      ∃ xs as, Adds r s (rehearsal.exec s).2 xs as ∧
        List.Forall₂ matching (xs.map Exchange.command) (ys.map Exchange.command) ∧
        SameEnding alike (rehearsal.exec s).1 (run.exec s').1)

theorem Runner.Succeeds.finished (all : r.Succeeds) (s : Session) (mode : OutputMode)
    (c : Command) : ∃ output, (r.exchange s mode c).reply.outcome = .finished output :=
  all s.issued mode c s.files

theorem Runner.Succeeds.unfailing {before : List Command} {xs : List Exchange}
    (all : r.Succeeds) (faithful : Faithful r before xs) : ∀ x ∈ xs, x.failure? = none := by
  intro x member
  obtain ⟨earlier, reply⟩ := faithful.reply member
  obtain ⟨output, finished⟩ := all earlier x.mode x.command x.found
  simp [Exchange.failure?, reply, finished]

theorem mishap_of_failed {x : Exchange} {error : CommandError}
    (failed : x.reply.outcome = .failed error) : Mishap [x] [] :=
  .inl ⟨x, List.mem_singleton_self x, by simp [Exchange.failure?, failed]⟩

theorem mishap_of_overflow {x : Exchange} (overflow : x.reply.outcome = .clockOverflow) :
    Mishap [x] [] :=
  .inl ⟨x, List.mem_singleton_self x, by simp [Exchange.failure?, overflow]⟩

namespace Mirrors

variable {alike : α → β → Prop} {similar : γ → δ → Prop} {t : Work α} {u : Work β}
  {f : α → Work γ} {g : β → Work δ}

/-- What the run adds if it has no mishap. -/
theorem smooth (mirrors : Mirrors r e matching alike t u) {s s' : Session} (free : u.Smooth s') :
    ∃ xs ys, (t.exec s).2.issued = s.issued ++ xs ∧ (u.exec s').2.issued = s'.issued ++ ys ∧
      List.Forall₂ matching xs ys ∧ SameEnding alike (t.exec s).1 (u.exec s').1 := by
  obtain ⟨ys, bs, run, ⟨mishap, -⟩ | ⟨xs, as, rehearsal, commands, ending⟩⟩ := mirrors s s'
  · have exchanges := free.commands
    have changes := free.changes
    rw [run.exchanges, List.drop_left] at exchanges
    rw [Work.Unhindered, run.actions, List.drop_left] at changes
    rcases mishap with ⟨x, member, failure⟩ | ⟨b, member, failure⟩
    · exact absurd (exchanges x member) failure
    · exact absurd (changes b member) failure
  · exact ⟨_, _, rehearsal.issued, run.issued, commands, ending⟩

/-- Work on both sides that issues nothing and changes no files. -/
theorem silent {a : Session → Except Failure α} {b : Session → Except Failure β}
    (rehearsal : ∀ s, ∃ behind, t.exec s = (a s, behind) ∧ Adds r s behind [] [])
    (run : ∀ s, ∃ behind, u.exec s = (b s, behind) ∧ Adds e s behind [] [])
    (ending : ∀ s s', SameEnding alike (a s) (b s')) : Mirrors r e matching alike t u := by
  intro s s'
  obtain ⟨behind, first, nothing⟩ := rehearsal s
  obtain ⟨behind', second, nothing'⟩ := run s'
  rw [first, second]
  exact ⟨[], [], nothing', .inr ⟨[], [], nothing, .nil, ending s s'⟩⟩

theorem pure {a : α} {b : β} (same : alike a b) :
    Mirrors r e matching alike (Pure.pure a) (Pure.pure b) :=
  silent (fun s => ⟨s, rfl, .nothing rfl rfl⟩) (fun s => ⟨s, rfl, .nothing rfl rfl⟩)
    fun _ _ => .ok same

theorem fail (cause : Cause) :
    Mirrors r e matching alike (Work.fail cause) (Work.fail cause) :=
  silent (fun s => ⟨s, rfl, .nothing rfl rfl⟩) (fun s => ⟨s, rfl, .nothing rfl rfl⟩)
    fun _ _ => .error { cause }

theorem log (event : LogEvent) : Mirrors r e matching Eq (Work.log event) (Work.log event) :=
  silent (fun s => ⟨_, Work.exec_log event s, .nothing rfl rfl⟩)
    (fun s => ⟨_, Work.exec_log event s, .nothing rfl rfl⟩) fun _ _ => .ok rfl

theorem bind (first : Mirrors r e matching alike t u)
    (next : ∀ a b, alike a b → Mirrors r e matching similar (f a) (g b)) :
    Mirrors r e matching similar (t >>= f) (u >>= g) := by
  intro s s'
  obtain ⟨ys, bs, added', compared⟩ := first s s'
  rcases run' : u.exec s' with ⟨result', middle'⟩
  rw [run'] at added' compared
  rcases compared with ⟨mishap, failure, failed⟩ | ⟨xs, as, added, commands, ending⟩
  · dsimp only at failed
    subst failed
    rw [Work.exec_bind_error run']
    exact ⟨ys, bs, added', .inl ⟨mishap, failure, rfl⟩⟩
  · rcases run : t.exec s with ⟨result, middle⟩
    rw [run] at added ending
    cases ending with
    | error failure =>
      rw [Work.exec_bind_error run, Work.exec_bind_error run']
      exact ⟨ys, bs, added', .inr ⟨xs, as, added, commands, .error failure⟩⟩
    | ok same =>
      rw [Work.exec_bind_ok run, Work.exec_bind_ok run']
      obtain ⟨zs, cs, more', compared⟩ := next _ _ same middle middle'
      refine ⟨ys ++ zs, bs ++ cs, added'.trans more', ?_⟩
      rcases compared with ⟨mishap, failed⟩ | ⟨ws, ds, more, rest, ending⟩
      · exact .inl ⟨mishap.append_right, failed⟩
      · refine .inr ⟨xs ++ ws, as ++ ds, added.trans more, ?_, ending⟩
        rw [List.map_append, List.map_append]
        exact List.rel_append commands rest

theorem within (context : String) (inner : Mirrors r e matching alike t u) :
    Mirrors r e matching alike (Work.within context t) (Work.within context u) := by
  intro s s'
  obtain ⟨ys, bs, added', compared⟩ := inner s s'
  have outer' := Work.exec_within context u s'
  rcases run' : u.exec s' with ⟨result', behind'⟩
  rw [run'] at added' compared outer'
  rcases compared with ⟨mishap, failure, failed⟩ | ⟨xs, as, added, commands, ending⟩
  · dsimp only at failed
    subst failed
    rw [outer']
    exact ⟨ys, bs, added', .inl ⟨mishap, _, rfl⟩⟩
  · have outer := Work.exec_within context t s
    rcases run : t.exec s with ⟨result, behind⟩
    rw [run] at added ending outer
    cases ending with
    | error failure =>
      rw [outer, outer']
      exact ⟨ys, bs, added', .inr ⟨xs, as, added, commands, .error _⟩⟩
    | ok same =>
      rw [outer, outer']
      exact ⟨ys, bs, added', .inr ⟨xs, as, added, commands, .ok same⟩⟩

/-- Work that only the run does, and that issues nothing. -/
theorem aside {a : α} (quiet : ∀ s', Pursues e (fun _ => True) [] u s')
    (same : ∀ b, alike a b) : Mirrors r e matching alike (Pure.pure a) u := by
  intro s s'
  obtain ⟨ys, bs, added, follows, -⟩ := quiet s'
  have issuedNothing : ys = [] := by simpa using follows.isPrefix
  subst issuedNothing
  rcases run : u.exec s' with ⟨result, behind⟩
  rw [run] at added follows
  refine ⟨[], bs, added, ?_⟩
  cases result with
  | ok b => exact .inr ⟨[], [], .nothing rfl rfl, .nil, .ok (same b)⟩
  | error failure =>
    refine .inl ⟨?_, failure, rfl⟩
    rcases follows.blame rfl with ⟨x, member, -⟩ | ⟨b, member, failed⟩
    · cases member
    · exact .inr ⟨b, member, by simp [failed]⟩

/-- Work in front of which the run does more, which issues nothing. -/
theorem behind {v : Work γ} {g : γ → Work β}
    (quiet : ∀ s', Pursues e (fun _ => True) [] v s')
    (next : ∀ b, Mirrors r e matching alike t (g b)) :
    Mirrors r e matching alike t (v >>= g) := by
  have beside : Mirrors r e matching (fun _ _ => True) (Pure.pure () : Work Unit) v :=
    aside quiet fun _ => trivial
  exact beside.bind (f := fun _ => t) fun _ b _ => next b

/-- A directory that only the run makes. -/
theorem behind_stateDir (p : Project) (sub : String) (next : Mirrors r e matching alike t u) :
    Mirrors r e matching alike t (p.ensureStateDir sub >>= fun _ => u) :=
  behind (fun _ => .ensureStateDir p sub trivial) fun _ => next

theorem capture (all : r.Succeeds) {x y : Command} (same : matching x y) :
    Mirrors r e matching (fun _ _ => True) (r.capture x) (e.capture y) := by
  intro s s'
  obtain ⟨output, finished⟩ := all.finished s .captured x
  rw [r.exec_capture x s, e.exec_capture y s', finished]
  refine ⟨_, _, .exchanged rfl rfl, ?_⟩
  cases ended : (e.exchange s' .captured y).reply.outcome with
  | finished =>
    exact .inr ⟨_, _, .exchanged rfl rfl, .cons same .nil, .ok trivial⟩
  | failed => exact .inl ⟨mishap_of_failed ended, _, rfl⟩
  | clockOverflow => exact .inl ⟨mishap_of_overflow ended, _, rfl⟩

theorem perform (all : r.Succeeds) {x y : Step} (same : matching x.command y.command) :
    Mirrors r e matching Eq (r.perform x) (e.perform y) := by
  intro s s'
  obtain ⟨output, finished⟩ := all.finished s .shared x.command
  rw [r.exec_perform x s, e.exec_perform y s', finished]
  cases ended : (e.exchange s' .shared y.command).reply.outcome with
  | finished =>
    exact ⟨_, _, .exchanged rfl rfl,
      .inr ⟨_, _, .exchanged rfl rfl, .cons same .nil, .ok rfl⟩⟩
  | failed => exact ⟨_, _, .exchanged rfl rfl, .inl ⟨mishap_of_failed ended, _, rfl⟩⟩
  | clockOverflow => exact ⟨_, _, .exchanged rfl rfl, .inl ⟨mishap_of_overflow ended, _, rfl⟩⟩

theorem performAll (all : r.Succeeds) {xs ys : List Step}
    (same : List.Forall₂ matching (xs.map Step.command) (ys.map Step.command)) :
    Mirrors r e matching Eq (r.performAll xs) (e.performAll ys) := by
  rw [List.forall₂_map_left_iff, List.forall₂_map_right_iff] at same
  induction same with
  | nil => exact pure rfl
  | cons first _ ih => exact (perform all first).bind fun _ _ _ => ih

/-- Work on both sides in front of which there is more under the same condition. -/
theorem optional {b : Bool} {rest : Work γ} {rest' : Work δ}
    (first : Mirrors r e matching alike t u) (last : Mirrors r e matching similar rest rest') :
    Mirrors r e matching similar (if b then t >>= fun _ => rest else rest)
      (if b then u >>= fun _ => rest' else rest') := by
  cases b with
  | true => exact first.bind fun _ _ _ => last
  | false => exact last

end Mirrors

end ImagePipeline
