import ImagePipeline.Proofs.Work

/-! Following a plan. Work that follows a list of commands issues them in order up to the
first that fails, and fails for no other reason than a command or a change of files. -/
namespace ImagePipeline

variable {α β : Type} {r : Runner}

/-- Why a command has failed, if it has. -/
def Exchange.failure? (x : Exchange) : Option Cause :=
  match x.reply.outcome with
  | .finished _ => none
  | .failed error => some (.command error)
  | .clockOverflow => some .clockOverflow

def FileAction.failure? (a : FileAction) : Option Cause :=
  match a.result with
  | .ok _ => none
  | .error e => some (.os e)

/-- Why work has failed, if it has. -/
def causeOf : Except Failure α → Option Cause
  | .ok _ => none
  | .error f => some f.cause

/-- The exchanges and changes of files of work on a plan that ends with a failure, or
else with the plan completed. -/
inductive Follows :
    List Command → List Exchange → List FileAction → Option Cause → Prop where
  | completed : Follows [] [] [] none
  | stopped {x : Exchange} {plan : List Command} {cause : Cause} :
      x.failure? = some cause → Follows (x.command :: plan) [x] [] (some cause)
  | hindered {a : FileAction} {plan : List Command} {cause : Cause} :
      a.failure? = some cause → Follows plan [] [a] (some cause)
  | issued {x : Exchange} {plan : List Command} {xs : List Exchange} {as : List FileAction}
      {cause : Option Cause} : x.failure? = none → Follows plan xs as cause →
      Follows (x.command :: plan) (x :: xs) as cause
  | changed {a : FileAction} {plan : List Command} {xs : List Exchange} {as : List FileAction}
      {cause : Option Cause} : a.failure? = none → Follows plan xs as cause →
      Follows plan xs (a :: as) cause

namespace Follows

variable {plan rest : List Command} {xs ys : List Exchange} {as bs : List FileAction}
  {cause : Option Cause} {c : Cause}

/-- A plan of one command, which is issued. -/
theorem single (x : Exchange) : Follows [x.command] [x] [] x.failure? := by
  cases failure : x.failure? with
  | none => exact .issued failure .completed
  | some cause => exact .stopped failure

theorem append {ended : Option Cause} (first : Follows plan xs as ended) (done : ended = none)
    (second : Follows rest ys bs cause) : Follows (plan ++ rest) (xs ++ ys) (as ++ bs) cause := by
  induction first with
  | completed => exact second
  | stopped | hindered => contradiction
  | issued succeeded _ ih => exact .issued succeeded (ih done)
  | changed succeeded _ ih => exact .changed succeeded (ih done)

theorem extend (failed : Follows plan xs as cause) (ended : cause = some c)
    (rest : List Command) : Follows (plan ++ rest) xs as cause := by
  induction failed with
  | completed => contradiction
  | stopped failure => exact .stopped failure
  | hindered failure => exact .hindered failure
  | issued succeeded _ ih => exact .issued succeeded (ih ended)
  | changed succeeded _ ih => exact .changed succeeded (ih ended)

theorem isPrefix (follows : Follows plan xs as cause) :
    xs.map Exchange.command <+: plan := by
  induction follows with
  | completed => exact List.prefix_rfl
  | stopped => exact List.cons_prefix_cons.mpr ⟨rfl, List.nil_prefix⟩
  | hindered => exact List.nil_prefix
  | issued _ _ ih => exact List.cons_prefix_cons.mpr ⟨rfl, ih⟩
  | changed _ _ ih => exact ih

/-- Every command but the last one issued has succeeded. -/
theorem succeeded_dropLast (follows : Follows plan xs as cause) :
    ∀ x ∈ xs.dropLast, x.failure? = none := by
  induction follows with
  | completed | stopped | hindered => simp
  | issued succeeded following ih =>
    rename_i xs _ _
    cases xs with
    | nil => simp
    | cons y ys =>
      rw [List.dropLast_cons_cons]
      exact List.forall_mem_cons.mpr ⟨succeeded, ih⟩
  | changed _ _ ih => exact ih

theorem complete (follows : Follows plan xs as cause) (done : cause = none) :
    xs.map Exchange.command = plan ∧ (∀ x ∈ xs, x.failure? = none) ∧
      ∀ a ∈ as, a.failure? = none := by
  induction follows with
  | completed => simp
  | stopped | hindered => contradiction
  | issued succeeded _ ih =>
    obtain ⟨same, commands, actions⟩ := ih done
    exact ⟨by rw [List.map_cons, same], List.forall_mem_cons.mpr ⟨succeeded, commands⟩, actions⟩
  | changed succeeded _ ih =>
    obtain ⟨same, commands, actions⟩ := ih done
    exact ⟨same, commands, List.forall_mem_cons.mpr ⟨succeeded, actions⟩⟩

/-- What stops the work is the failure of its last command or of its last change. -/
theorem blame (follows : Follows plan xs as cause) (ended : cause = some c) :
    (∃ x ∈ xs, x.failure? = some c) ∨ ∃ a ∈ as, a.failure? = some c := by
  induction follows with
  | completed => contradiction
  | stopped failure => exact .inl ⟨_, List.mem_singleton_self _, ended ▸ failure⟩
  | hindered failure => exact .inr ⟨_, List.mem_singleton_self _, ended ▸ failure⟩
  | issued _ _ ih =>
    rcases ih ended with ⟨x, member, failure⟩ | found
    · exact .inl ⟨x, List.mem_cons_of_mem _ member, failure⟩
    · exact .inr found
  | changed _ _ ih =>
    rcases ih ended with found | ⟨a, member, failure⟩
    · exact .inl found
    · exact .inr ⟨a, List.mem_cons_of_mem _ member, failure⟩

/-- A command that fails is what stops the work. -/
theorem stopped_by (follows : Follows plan xs as cause) {x : Exchange} (member : x ∈ xs)
    (failure : x.failure? = some c) : cause = some c := by
  induction follows with
  | completed | hindered => cases member
  | stopped stops =>
    obtain rfl := List.mem_singleton.mp member
    exact stops.symm.trans failure
  | issued succeeded _ ih =>
    rcases List.mem_cons.mp member with rfl | later
    · rw [succeeded] at failure
      contradiction
    · exact ih later
  | changed _ _ ih => exact ih member

/-- Where no change of files fails, work goes well just if the whole plan succeeds. -/
theorem ended_iff (follows : Follows plan xs as cause) (changed : ∀ a ∈ as, a.failure? = none) :
    cause = none ↔ xs.map Exchange.command = plan ∧ ∀ x ∈ xs, x.failure? = none := by
  constructor
  · intro done
    obtain ⟨same, succeeded, -⟩ := follows.complete done
    exact ⟨same, succeeded⟩
  · rintro ⟨-, succeeded⟩
    cases ended : cause with
    | none => rfl
    | some c =>
      rcases follows.blame ended with ⟨x, member, failure⟩ | ⟨a, member, failure⟩
      · rw [succeeded x member] at failure
        contradiction
      · rw [changed a member] at failure
        contradiction

end Follows

/-- A command that the front of a plan does not have is issued only when all of the front
has been issued and has succeeded. -/
theorem succeeded_before {front back : List Command} {xs : List Exchange} {x : Exchange}
    (isPrefix : xs.map Exchange.command <+: front ++ back)
    (succeeded : ∀ x ∈ xs.dropLast, x.failure? = none) (member : x ∈ xs)
    (behind : x.command ∉ front) :
    ∀ c ∈ front, ∃ y ∈ xs, y.command = c ∧ y.failure? = none := by
  obtain ⟨earlier, later, rfl⟩ := List.append_of_mem member
  have reached : front <+: earlier.map Exchange.command := by
    have upTo : earlier.map Exchange.command ++ [x.command] <+: front ++ back := by
      refine List.IsPrefix.trans ?_ isPrefix
      exact ⟨later.map Exchange.command, by simp⟩
    rcases List.prefix_or_prefix_of_prefix upTo (List.prefix_append front back) with
      inside | outside
    · exact absurd (inside.subset (by simp)) behind
    · rcases List.prefix_concat_iff.mp outside with whole | before
      · exact absurd (whole ▸ by simp) behind
      · exact before
  intro c inFront
  obtain ⟨y, inEarlier, rfl⟩ := List.mem_map.mp (reached.subset inFront)
  refine ⟨y, List.mem_append_left _ inEarlier, rfl, succeeded y ?_⟩
  rw [List.dropLast_append_cons]
  exact List.mem_append_left _ inEarlier

/-- Work that follows a plan from a session on, fails exactly where following it does, and
changes files at the paths that it `touches` only. -/
def Pursues (r : Runner) (touches : Path → Prop) (plan : List Command) (t : Work α)
    (s : Session) : Prop :=
  ∃ xs as, Adds r s (t.exec s).2 xs as ∧ Follows plan xs as (causeOf (t.exec s).1) ∧
    ∀ a ∈ as, touches a.path

namespace Pursues

variable {touches wider : Path → Prop} {plan rest : List Command} {t : Work α}
  {f : α → Work β} {s s' : Session}

theorem of_exec {result : Except Failure α} {xs : List Exchange} {as : List FileAction}
    (run : t.exec s = (result, s')) (added : Adds r s s' xs as)
    (follows : Follows plan xs as (causeOf result)) (touched : ∀ a ∈ as, touches a.path) :
    Pursues r touches plan t s := by
  rw [Pursues, run]
  exact ⟨xs, as, added, follows, touched⟩

theorem weaken (pursues : Pursues r touches plan t s) (more : ∀ q, touches q → wider q) :
    Pursues r wider plan t s := by
  obtain ⟨xs, as, added, follows, touched⟩ := pursues
  exact ⟨xs, as, added, follows, fun a member => more _ (touched a member)⟩

/-- Work that neither issues commands nor changes files. -/
theorem quiet {a : α} (run : t.exec s = (.ok a, s')) (exchanges : s'.exchanges = s.exchanges)
    (actions : s'.actions = s.actions) : Pursues r touches [] t s :=
  of_exec run (.nothing exchanges actions) .completed (by simp)

theorem pure (a : α) : Pursues r touches [] (Pure.pure a : Work α) s :=
  quiet (Work.exec_pure a s) rfl rfl

theorem log (e : LogEvent) : Pursues r touches [] (Work.log e) s :=
  quiet (Work.exec_modify _ s) rfl rfl

theorem bind (first : Pursues r touches plan t s)
    (next : ∀ a s', t.exec s = (.ok a, s') → Pursues r touches rest (f a) s') :
    Pursues r touches (plan ++ rest) (t >>= f) s := by
  obtain ⟨xs, as, added, follows, touched⟩ := first
  rcases run : t.exec s with ⟨result, s'⟩
  rw [run] at added follows
  cases result with
  | error e =>
    exact of_exec (Work.exec_bind_error run) added (follows.extend rfl rest) touched
  | ok a =>
    obtain ⟨ys, bs, more, following, touching⟩ := next a s' run
    rw [Pursues, Work.exec_bind_ok run]
    refine ⟨_, _, added.trans more, follows.append rfl following, ?_⟩
    exact List.forall_mem_append.mpr ⟨touched, touching⟩

/-- Work after which nothing more is planned. -/
theorem bind_quiet (first : Pursues r touches plan t s)
    (next : ∀ a s', t.exec s = (.ok a, s') → Pursues r touches [] (f a) s') :
    Pursues r touches plan (t >>= f) s :=
  List.append_nil plan ▸ first.bind next

/-- Work before which nothing is planned. -/
theorem quiet_bind (first : Pursues r touches [] t s)
    (next : ∀ a s', t.exec s = (.ok a, s') → Pursues r touches plan (f a) s') :
    Pursues r touches plan (t >>= f) s :=
  List.nil_append plan ▸ first.bind next

theorem within (context : String) (inner : Pursues r touches plan t s) :
    Pursues r touches plan (Work.within context t) s := by
  obtain ⟨xs, as, added, follows, touched⟩ := inner
  have outer := Work.exec_within context t s
  rcases run : t.exec s with ⟨result, s'⟩
  rw [run] at added follows outer
  cases result with
  | ok a => exact of_exec outer added follows touched
  | error e => exact of_exec outer added follows touched

theorem alter {p : Path} (change : FileTree → Except OsError Unit × FileTree)
    (touched : touches p) : Pursues r touches [] (Work.alter p change) s := by
  have run := Work.exec_alter p change s
  have all : ∀ a ∈ [⟨p, (change s.files).1⟩], touches (FileAction.path a) := by
    simpa using touched
  cases changed : (change s.files).1 with
  | ok done =>
    rw [changed] at run all
    exact of_exec run (.altered rfl rfl) (.changed rfl .completed) all
  | error e =>
    rw [changed] at run all
    exact of_exec run (.altered rfl rfl) (.hindered rfl) all

theorem capture (c : Command) : Pursues r touches [c] (r.capture c) s := by
  have follows := Follows.single (r.exchange s .captured c)
  have run := r.exec_capture c s
  cases outcome : (r.exchange s .captured c).reply.outcome with
  | finished output | failed error | clockOverflow =>
    simp only [outcome, Exchange.failure?] at run follows
    exact of_exec run (.exchanged rfl rfl) follows (by simp)

theorem perform (step : Step) : Pursues r touches [step.command] (r.perform step) s := by
  have follows := Follows.single (r.exchange s .shared step.command)
  have run := r.exec_perform step s
  cases outcome : (r.exchange s .shared step.command).reply.outcome with
  | finished output | failed error | clockOverflow =>
    simp only [outcome, Exchange.failure?] at run follows
    exact of_exec run (.exchanged rfl rfl) follows (by simp)

theorem performAll (steps : List Step) :
    Pursues r touches (steps.map Step.command) (r.performAll steps) s := by
  induction steps generalizing s with
  | nil => exact pure ()
  | cons step steps ih => exact (perform step).bind fun _ _ _ => ih

end Pursues

/-- The directory for the files that runs leave behind, or one below it. -/
def Project.stateDirectory (p : Project) (sub : String) : Path :=
  if sub.isEmpty then p.stateDir else p.stateDir.join ⟨sub⟩

theorem Pursues.ensureStateDir {touches : Path → Prop} {s : Session} (p : Project)
    (sub : String) (touched : touches (p.stateDirectory sub)) :
    Pursues r touches [] (p.ensureStateDir sub) s :=
  ((alter _ touched).within _).bind_quiet fun _ _ _ => pure _

/-! ### Results and exchanges -/

/-- Work from a session on whose result and exchanges are as `post` says. -/
def Yields (r : Runner) (t : Work α) (s : Session)
    (post : Except Failure α → List Exchange → Prop) : Prop :=
  ∃ xs as, Adds r s (t.exec s).2 xs as ∧ post (t.exec s).1 xs

namespace Yields

variable {t : Work α} {f : α → Work β} {s s' : Session} {touches : Path → Prop}
  {plan : List Command} {mid : Except Failure α → List Exchange → Prop}
  {post : Except Failure β → List Exchange → Prop}

theorem of_exec {result : Except Failure α} {xs : List Exchange} {as : List FileAction}
    (run : t.exec s = (result, s')) (added : Adds r s s' xs as) (holds : mid result xs) :
    Yields r t s mid := by
  rw [Yields, run]
  exact ⟨xs, as, added, holds⟩

theorem of_pursues (pursues : Pursues r touches plan t s) :
    Yields r t s fun _ xs => xs.map Exchange.command <+: plan := by
  obtain ⟨xs, as, added, follows, -⟩ := pursues
  exact ⟨xs, as, added, follows.isPrefix⟩

theorem mono {wider : Except Failure α → List Exchange → Prop} (yields : Yields r t s mid)
    (more : ∀ result xs, mid result xs → wider result xs) : Yields r t s wider := by
  obtain ⟨xs, as, added, holds⟩ := yields
  exact ⟨xs, as, added, more _ _ holds⟩

theorem pure {a : α} (holds : mid (.ok a) []) : Yields r (Pure.pure a : Work α) s mid :=
  of_exec (Work.exec_pure a s) (.nothing rfl rfl) holds

theorem log (e : LogEvent) : Yields r (Work.log e) s fun _ xs => xs = [] :=
  of_exec (Work.exec_log e s) (.nothing rfl rfl) rfl

theorem bind (first : Yields r t s mid)
    (stopped : ∀ e xs, mid (.error e) xs → post (.error e) xs)
    (next : ∀ a s' xs, mid (.ok a) xs →
      Yields r (f a) s' fun result ys => post result (xs ++ ys)) :
    Yields r (t >>= f) s post := by
  obtain ⟨xs, as, added, holds⟩ := first
  rcases run : t.exec s with ⟨result, s'⟩
  rw [run] at added holds
  cases result with
  | error e => exact of_exec (Work.exec_bind_error run) added (stopped e xs holds)
  | ok a =>
    obtain ⟨ys, bs, more, holds⟩ := next a s' xs holds
    rw [Yields, Work.exec_bind_ok run]
    exact ⟨xs ++ ys, as ++ bs, added.trans more, holds⟩

theorem within {context : String} {post : Except Failure α → List Exchange → Prop}
    (inner : Yields r t s mid) (goes : ∀ a xs, mid (.ok a) xs → post (.ok a) xs)
    (stopped : ∀ e xs, mid (.error e) xs → post (.error (e.within context)) xs) :
    Yields r (Work.within context t) s post := by
  obtain ⟨xs, as, added, holds⟩ := inner
  have outer := Work.exec_within context t s
  rcases run : t.exec s with ⟨result, s'⟩
  rw [run] at added holds outer
  cases result with
  | ok a => exact of_exec outer added (goes a xs holds)
  | error e => exact of_exec outer added (stopped e xs holds)

end Yields

/-- One command is issued for a step, and what it leaves is found behind it. -/
theorem Runner.perform_ends (r : Runner) (step : Step) (s : Session) :
    ∃ x s', Adds r s s' [x] [] ∧ x.command = step.command ∧
      ((∃ e, (r.perform step).exec s = (.error e, s')) ∨
        ((r.perform step).exec s = (.ok (), s') ∧ x.failure? = none ∧
          s'.files = x.reply.files)) := by
  have run := r.exec_perform step s
  cases outcome : (r.exchange s .shared step.command).reply.outcome with
  | failed error | clockOverflow =>
    rw [outcome] at run
    refine ⟨r.exchange s .shared step.command, _, ?_, rfl, .inl ⟨_, run⟩⟩
    exact .exchanged rfl rfl
  | finished output =>
    rw [outcome] at run
    refine ⟨r.exchange s .shared step.command, _, ?_, rfl, .inr ⟨run, ?_, rfl⟩⟩
    · exact .exchanged rfl rfl
    · rw [Exchange.failure?, outcome]

end ImagePipeline
