import ImagePipeline.Proofs.Plan

/-! Work that leaves the files to its commands: every command finds them as the one before
it has left them, and so they are found behind the work. -/
namespace ImagePipeline

variable {α β : Type} {r : Runner}

/-- The files on both sides of exchanges between which nothing changes them. -/
def Handed : FileTree → List Exchange → FileTree → Prop
  | t, [], t' => t' = t
  | t, x :: xs, t' => x.found = t ∧ Handed x.reply.files xs t'

namespace Handed

variable {t t' t'' : FileTree} {xs ys : List Exchange}

theorem append (first : Handed t xs t') (second : Handed t' ys t'') :
    Handed t (xs ++ ys) t'' := by
  induction xs generalizing t with
  | nil => exact first ▸ second
  | cons x xs ih => exact ⟨first.1, ih first.2⟩

/-- Commands that leave the files alone leave them as they were. -/
theorem unchanged (handed : Handed t xs t') (idle : ∀ x ∈ xs, x.reply.files = x.found) :
    t' = t := by
  induction xs generalizing t with
  | nil => exact handed
  | cons x xs ih =>
    obtain ⟨here, there⟩ := List.forall_mem_cons.mp idle
    rw [ih handed.2 there, here, handed.1]

end Handed

/-- Work that makes no change of files and tries none, however it ends. -/
def HandsOff (r : Runner) (t : Work α) : Prop :=
  ∀ s, ∃ xs, Adds r s (t.exec s).2 xs [] ∧ Handed s.files xs (t.exec s).2.files

namespace HandsOff

variable {t : Work α} {f : α → Work β}

/-- Work that issues nothing. -/
theorem silent (exchanges : ∀ s, (t.exec s).2.exchanges = s.exchanges)
    (actions : ∀ s, (t.exec s).2.actions = s.actions)
    (files : ∀ s, (t.exec s).2.files = s.files) : HandsOff r t :=
  fun s => ⟨[], .nothing (exchanges s) (actions s), files s⟩

theorem pure (a : α) : HandsOff r (Pure.pure a : Work α) :=
  silent (fun _ => rfl) (fun _ => rfl) fun _ => rfl

theorem fail (cause : Cause) : HandsOff r (Work.fail cause : Work α) :=
  silent (fun _ => rfl) (fun _ => rfl) fun _ => rfl

theorem log (e : LogEvent) : HandsOff r (Work.log e) :=
  silent (fun _ => rfl) (fun _ => rfl) fun _ => rfl

/-- Work that issues one command. -/
theorem exchanged {mode : OutputMode} {c : Command}
    (exchanges : ∀ s, (t.exec s).2.exchanges = s.exchanges ++ [r.exchange s mode c])
    (actions : ∀ s, (t.exec s).2.actions = s.actions)
    (files : ∀ s, (t.exec s).2.files = (r.exchange s mode c).reply.files) : HandsOff r t :=
  fun s => ⟨_, .exchanged (exchanges s) (actions s), rfl, files s⟩

theorem bind (first : HandsOff r t) (next : ∀ a, HandsOff r (f a)) : HandsOff r (t >>= f) := by
  intro s
  obtain ⟨xs, added, handed⟩ := first s
  rcases run : t.exec s with ⟨result, middle⟩
  rw [run] at added handed
  cases result with
  | error e =>
    rw [Work.exec_bind_error run]
    exact ⟨xs, added, handed⟩
  | ok a =>
    obtain ⟨ys, more, handed'⟩ := next a middle
    rw [Work.exec_bind_ok run]
    exact ⟨xs ++ ys, added.trans more, handed.append handed'⟩

theorem within (context : String) (inner : HandsOff r t) :
    HandsOff r (Work.within context t) := by
  intro s
  obtain ⟨xs, added, handed⟩ := inner s
  have outer := Work.exec_within context t s
  rcases run : t.exec s with ⟨result, behind⟩
  rw [run] at added handed outer
  cases result with
  | ok a | error e =>
    rw [outer]
    exact ⟨xs, added, handed⟩

theorem capture (c : Command) : HandsOff r (r.capture c) := by
  have behind (s : Session) := congrArg Prod.snd (r.exec_capture c s)
  exact exchanged (fun s => by rw [behind]; rfl) (fun s => by rw [behind]; rfl)
    fun s => by rw [behind]; rfl

theorem attempt (metric : String) (c : Command) : HandsOff r (r.attempt metric c) := by
  intro s
  rw [r.exec_attempt metric c s]
  cases (r.exchange s .shared c).reply.outcome with
  | finished | failed | clockOverflow => exact ⟨_, .exchanged rfl rfl, rfl, rfl⟩

theorem perform (step : Step) : HandsOff r (r.perform step) := by
  intro s
  rw [r.exec_perform step s]
  cases (r.exchange s .shared step.command).reply.outcome with
  | finished | failed | clockOverflow => exact ⟨_, .exchanged rfl rfl, rfl, rfl⟩

theorem performAll (steps : List Step) : HandsOff r (r.performAll steps) := by
  induction steps with
  | nil => exact pure ()
  | cons step steps ih => exact (perform step).bind fun _ => ih

/-- Work in front of which there is more only under a condition. -/
theorem optional {b : Bool} {rest : Work β} (first : HandsOff r t) (last : HandsOff r rest) :
    HandsOff r (if b then t >>= fun _ => rest else rest) := by
  cases b with
  | true => exact first.bind fun _ => last
  | false => exact last

/-- Work with a runner that leaves the files alone leaves them as they were. -/
theorem files_unchanged (off : HandsOff r t) (s : Session)
    (idle : ∀ before mode c files, (r.reply before mode c files).files = files) :
    (t.exec s).2.files = s.files := by
  obtain ⟨xs, added, handed⟩ := off s
  refine handed.unchanged fun x member => ?_
  obtain ⟨earlier, reply⟩ := added.faithful.reply member
  rw [reply, idle]

end HandsOff

end ImagePipeline
