import ImagePipeline.Project
import ImagePipeline.Runner.Basic

/-! What a piece of work adds to the record of its session. Work only appends to the
record, and what it appends for the runner is what the runner replied. -/
namespace ImagePipeline

variable {α β : Type} {r : Runner}

namespace Work

/-- The result of work that starts in a session, and the session behind it. -/
def exec (t : Work α) (s : Session) : Except Failure α × Session := t.run.run s

@[simp] theorem exec_pure (a : α) (s : Session) : exec (pure a) s = (.ok a, s) := rfl

@[simp] theorem exec_get (s : Session) : exec get s = (.ok s, s) := rfl

@[simp] theorem exec_set (s s' : Session) : exec (set s') s = (.ok ⟨⟩, s') := rfl

@[simp] theorem exec_modify (f : Session → Session) (s : Session) :
    exec (modify f) s = (.ok ⟨⟩, f s) := rfl

@[simp] theorem exec_files (s : Session) : exec files s = (.ok s.files, s) := rfl

theorem exec_bind (t : Work α) (f : α → Work β) (s : Session) :
    exec (t >>= f) s = match t.exec s with
      | (.ok a, s') => (f a).exec s'
      | (.error e, s') => (.error e, s') := by
  simp only [exec, ExceptT.run_bind, StateT.run_bind]
  rcases t.run.run s with ⟨result, s'⟩
  cases result <;> rfl

theorem exec_bind_ok {t : Work α} {f : α → Work β} {s s' : Session} {a : α}
    (h : t.exec s = (.ok a, s')) : exec (t >>= f) s = (f a).exec s' := by
  rw [exec_bind, h]

theorem exec_bind_error {t : Work α} {f : α → Work β} {s s' : Session} {e : Failure}
    (h : t.exec s = (.error e, s')) : exec (t >>= f) s = (.error e, s') := by
  rw [exec_bind, h]

/-- Work that goes well has gone well in both of its parts. -/
theorem ok_of_bind {t : Work α} {f : α → Work β} {s s' : Session} {b : β}
    (h : exec (t >>= f) s = (.ok b, s')) :
    ∃ a middle, t.exec s = (.ok a, middle) ∧ (f a).exec middle = (.ok b, s') := by
  rw [exec_bind] at h
  rcases run : t.exec s with ⟨result, middle⟩
  rw [run] at h
  cases result with
  | ok a => exact ⟨a, middle, rfl, h⟩
  | error e => cases h

theorem exec_within (context : String) (t : Work α) (s : Session) :
    exec (within context t) s = match t.exec s with
      | (.ok a, s') => (.ok a, s')
      | (.error e, s') => (.error (e.within context), s') := by
  simp only [exec, within, ExceptT.run_mk, StateT.run_bind]
  rcases t.run.run s with ⟨result, s'⟩
  cases result <;> rfl

theorem ok_of_within {context : String} {t : Work α} {s s' : Session} {a : α}
    (h : exec (within context t) s = (.ok a, s')) : t.exec s = (.ok a, s') := by
  rw [exec_within] at h
  rcases run : t.exec s with ⟨result, behind⟩
  rw [run] at h
  cases result with
  | ok b => exact h
  | error e => cases h

theorem exec_alter (p : Path) (change : FileTree → Except OsError Unit × FileTree)
    (s : Session) :
    exec (alter p change) s =
      ((change s.files).1.mapError fun e => { cause := .os e },
      { s with
        files := (change s.files).2
        actions := s.actions ++ [⟨p, (change s.files).1⟩] }) := by
  simp only [alter, exec_bind, exec_files, exec_modify]
  cases (change s.files).1 <;> rfl

theorem exec_fail (cause : Cause) (s : Session) :
    exec (fail cause : Work α) s = (.error { cause }, s) := rfl

theorem exec_readText (p : Path) (s : Session) :
    exec (readText p) s = ((s.files.readText p).mapError fun e => { cause := .os e }, s) := by
  unfold readText
  rw [exec_bind_ok (exec_files s)]
  cases s.files.readText p with
  | ok | error => rfl

/-- What writing a text has done that has gone well. -/
theorem ok_of_writeText {p : Path} {content : String} {s s' : Session} {a : Unit}
    (h : exec (writeText p content) s = (.ok a, s')) :
    s.files.write p content.toUTF8 = .ok s'.files ∧ s'.exchanges = s.exchanges ∧
      s'.actions = s.actions ++ [⟨p, .ok ()⟩] := by
  unfold writeText writeFile at h
  rw [exec_alter] at h
  cases written : s.files.write p content.toUTF8 with
  | ok t =>
    simp only [written] at h
    cases h
    exact ⟨rfl, rfl, rfl⟩
  | error e =>
    simp only [written] at h
    cases h

theorem exec_log (e : LogEvent) (s : Session) :
    exec (log e) s = (.ok (), { s with logged := s.logged ++ e.line }) := rfl

end Work

namespace Runner

/-- What passes when a command is issued in a session. -/
def exchange (r : Runner) (s : Session) (mode : OutputMode) (c : Command) : Exchange :=
  ⟨mode, c, s.files, r.reply s.issued mode c s.files⟩

end Runner

/-- The session behind an exchange. -/
def Session.behind (s : Session) (x : Exchange) : Session :=
  { s with
    files := x.reply.files
    exchanges := s.exchanges ++ [x]
    printed := s.printed ++ x.reply.printed
    logged := s.logged ++ x.reply.logged }

/-- The session behind a step that was counted. -/
def Session.counted (s : Session) (step : String) (failed : Bool) : Session :=
  { s with metrics := s.metrics.stop { step, failed } 0 }

namespace Runner

variable (r : Runner)

theorem exec_issue (mode : OutputMode) (c : Command) (s : Session) :
    (r.issue mode c).exec s =
      (match (r.exchange s mode c).reply.outcome with
        | .finished output => .ok (.ok output)
        | .failed error => .ok (.error error)
        | .clockOverflow => .error { cause := .clockOverflow },
      s.behind (r.exchange s mode c)) := by
  simp only [issue, Work.exec_bind, Work.exec_get, Work.exec_set, exchange, Session.behind]
  cases (r.reply s.issued mode c s.files).outcome <;> rfl

theorem exec_run (c : Command) (s : Session) :
    (r.run c).exec s =
      (match (r.exchange s .shared c).reply.outcome with
        | .finished _ => .ok (.ok ())
        | .failed error => .ok (.error error)
        | .clockOverflow => .error { cause := .clockOverflow },
      s.behind (r.exchange s .shared c)) := by
  simp only [run, Work.exec_bind, exec_issue]
  cases (r.exchange s .shared c).reply.outcome <;> rfl

theorem exec_capture (c : Command) (s : Session) :
    (r.capture c).exec s =
      (match (r.exchange s .captured c).reply.outcome with
        | .finished output => .ok output
        | .failed error => .error { cause := .command error }
        | .clockOverflow => .error { cause := .clockOverflow },
      s.behind (r.exchange s .captured c)) := by
  simp only [capture, Work.exec_bind, exec_issue]
  cases (r.exchange s .captured c).reply.outcome <;> rfl

theorem ok_of_capture {r : Runner} {c : Command} {s s' : Session} {output : String}
    (h : (r.capture c).exec s = (.ok output, s')) :
    (r.exchange s .captured c).reply.outcome = .finished output ∧
      s' = s.behind (r.exchange s .captured c) := by
  rw [exec_capture] at h
  cases outcome : (r.exchange s .captured c).reply.outcome with
  | finished found =>
    rw [outcome] at h
    cases h
    exact ⟨rfl, rfl⟩
  | failed error | clockOverflow =>
    rw [outcome] at h
    cases h

/-- A step whose outcome is the answer. A clock that overflows stops the work before the
step is counted. -/
theorem exec_attempt (metric : String) (c : Command) (s : Session) :
    (r.attempt metric c).exec s =
      match (r.exchange s .shared c).reply.outcome with
      | .finished _ => (.ok (.ok ()), (s.behind (r.exchange s .shared c)).counted metric false)
      | .failed error =>
        (.ok (.error error), (s.behind (r.exchange s .shared c)).counted metric true)
      | .clockOverflow =>
        (.error { cause := .clockOverflow }, s.behind (r.exchange s .shared c)) := by
  simp only [attempt, run, Work.exec_bind, exec_issue]
  cases (r.exchange s .shared c).reply.outcome <;> rfl

theorem exec_perform (step : Step) (s : Session) :
    (r.perform step).exec s =
      match (r.exchange s .shared step.command).reply.outcome with
      | .finished _ =>
        (.ok (), (s.behind (r.exchange s .shared step.command)).counted step.metric false)
      | .failed error =>
        (.error { contexts := [step.context], cause := .command error },
          (s.behind (r.exchange s .shared step.command)).counted step.metric true)
      | .clockOverflow =>
        (.error { cause := .clockOverflow }, s.behind (r.exchange s .shared step.command)) := by
  simp only [perform, Work.exec_bind, exec_attempt]
  cases (r.exchange s .shared step.command).reply.outcome <;> rfl

end Runner

/-- What a runner replies to commands that are issued behind those issued before. -/
def Faithful (r : Runner) : List Command → List Exchange → Prop
  | _, [] => True
  | before, x :: xs => x.reply = r.reply before x.mode x.command x.found ∧
      Faithful r (before ++ [x.command]) xs

theorem faithful_append {before : List Command} {xs ys : List Exchange} :
    Faithful r before (xs ++ ys) ↔
      Faithful r before xs ∧ Faithful r (before ++ xs.map Exchange.command) ys := by
  induction xs generalizing before with
  | nil => simp [Faithful]
  | cons x xs ih =>
    simp only [List.cons_append, Faithful, ih, List.map_cons, List.append_assoc, List.cons_append,
      List.nil_append, and_assoc]

theorem Faithful.reply {before : List Command} {xs : List Exchange} {x : Exchange}
    (faithful : Faithful r before xs) (member : x ∈ xs) :
    ∃ earlier, x.reply = r.reply earlier x.mode x.command x.found := by
  obtain ⟨front, rest, rfl⟩ := List.append_of_mem member
  exact ⟨_, (faithful_append.mp faithful).2.1⟩

/-- The exchanges and the changes of files that a session has more than another. -/
structure Adds (r : Runner) (s s' : Session) (xs : List Exchange) (as : List FileAction) :
    Prop where
  exchanges : s'.exchanges = s.exchanges ++ xs
  actions : s'.actions = s.actions ++ as
  faithful : Faithful r s.issued xs

namespace Adds

variable {s s' s'' : Session} {xs ys : List Exchange} {as bs : List FileAction}

theorem nothing (exchanges : s'.exchanges = s.exchanges) (actions : s'.actions = s.actions) :
    Adds r s s' [] [] :=
  ⟨by simpa using exchanges, by simpa using actions, trivial⟩

theorem issued (added : Adds r s s' xs as) :
    s'.issued = s.issued ++ xs.map Exchange.command := by
  simp only [Session.issued, added.exchanges, List.map_append]

/-- One command has been issued. -/
theorem exchanged {mode : OutputMode} {c : Command}
    (exchanges : s'.exchanges = s.exchanges ++ [r.exchange s mode c])
    (actions : s'.actions = s.actions) : Adds r s s' [r.exchange s mode c] [] :=
  ⟨exchanges, by rw [actions, List.append_nil], rfl, trivial⟩

/-- The files have been changed once. -/
theorem altered {a : FileAction} (exchanges : s'.exchanges = s.exchanges)
    (actions : s'.actions = s.actions ++ [a]) : Adds r s s' [] [a] :=
  ⟨by rw [exchanges, List.append_nil], actions, trivial⟩

theorem trans (first : Adds r s s' xs as) (second : Adds r s' s'' ys bs) :
    Adds r s s'' (xs ++ ys) (as ++ bs) where
  exchanges := by rw [second.exchanges, first.exchanges, List.append_assoc]
  actions := by rw [second.actions, first.actions, List.append_assoc]
  faithful := faithful_append.mpr ⟨first.faithful, first.issued ▸ second.faithful⟩

/-- What has been added to a session is determined. -/
theorem unique (added : Adds r s s' xs as) (again : Adds r s s' ys bs) : xs = ys ∧ as = bs :=
  ⟨List.append_cancel_left (added.exchanges.symm.trans again.exchanges),
    List.append_cancel_left (added.actions.symm.trans again.actions)⟩

end Adds

end ImagePipeline
