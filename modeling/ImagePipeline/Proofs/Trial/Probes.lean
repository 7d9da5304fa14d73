import ImagePipeline.Proofs.Mishap
import ImagePipeline.Trial.Run

/-! The probes of an image. Each is issued once, in order, whatever became of those before
it, and a removal follows each that was timed out and no other. -/
namespace ImagePipeline

variable {c : Config} {p : Project} {r : Runner} {s : Session}

/-- The exchanges of one probe, and whether it has passed. Only a clock that overflows
stops the work. -/
inductive ProbeRun (command removal : Command) : List Exchange → Except Cause Bool → Prop where
  | passed {x : Exchange} {output : String} : x.command = command →
      x.reply.outcome = .finished output → ProbeRun command removal [x] (.ok true)
  | failed {x : Exchange} {e : CommandError} : x.command = command →
      x.reply.outcome = .failed e → e.isTimeout = false → ProbeRun command removal [x] (.ok false)
  | removed {x y : Exchange} {e : CommandError} : x.command = command →
      x.reply.outcome = .failed e → e.isTimeout = true → y.command = removal →
      y.reply.outcome ≠ .clockOverflow → ProbeRun command removal [x, y] (.ok false)
  | overflow {x : Exchange} : x.command = command → x.reply.outcome = .clockOverflow →
      ProbeRun command removal [x] (.error .clockOverflow)
  | removalOverflow {x y : Exchange} {e : CommandError} : x.command = command →
      x.reply.outcome = .failed e → e.isTimeout = true → y.command = removal →
      y.reply.outcome = .clockOverflow → ProbeRun command removal [x, y] (.error .clockOverflow)

/-- The exchanges of probes in order, and those that have failed. -/
inductive Probed (command removal : Probe → Command) :
    List Probe → List Exchange → Except Cause (List Probe) → Prop where
  | done : Probed command removal [] [] (.ok [])
  | passed {probe : Probe} {probes : List Probe} {xs ys : List Exchange}
      {result : Except Cause (List Probe)} :
      ProbeRun (command probe) (removal probe) xs (.ok true) →
      Probed command removal probes ys result →
      Probed command removal (probe :: probes) (xs ++ ys) result
  | failed {probe : Probe} {probes : List Probe} {xs ys : List Exchange}
      {result : Except Cause (List Probe)} :
      ProbeRun (command probe) (removal probe) xs (.ok false) →
      Probed command removal probes ys result →
      Probed command removal (probe :: probes) (xs ++ ys) (result.map (probe :: ·))
  | stopped {probe : Probe} {probes : List Probe} {xs : List Exchange} {cause : Cause} :
      ProbeRun (command probe) (removal probe) xs (.error cause) →
      Probed command removal (probe :: probes) xs (.error cause)

theorem ProbeRun.mishap {command removal : Command} {xs : List Exchange}
    {result : Except Cause Bool} (run : ProbeRun command removal xs result)
    (bad : result ≠ .ok true) : ∃ x ∈ xs, x.failure? ≠ none := by
  cases run with
  | passed => exact absurd rfl bad
  | failed _ outcome | removed _ outcome | overflow _ outcome | removalOverflow _ outcome =>
    exact ⟨_, List.mem_cons_self, by simp [Exchange.failure?, outcome]⟩

theorem ProbeRun.cause {command removal : Command} {xs : List Exchange} {cause : Cause}
    (run : ProbeRun command removal xs (.error cause)) : cause = .clockOverflow := by
  cases run <;> rfl

section Probed

variable {command removal : Probe → Command} {probes : List Probe} {xs : List Exchange}
  {result : Except Cause (List Probe)}

theorem Probed.mishap (run : Probed command removal probes xs result) (bad : result ≠ .ok []) :
    ∃ x ∈ xs, x.failure? ≠ none := by
  induction run with
  | done => exact absurd rfl bad
  | passed _ _ ih =>
    obtain ⟨x, member, failure⟩ := ih bad
    exact ⟨x, List.mem_append_right _ member, failure⟩
  | failed first =>
    obtain ⟨x, member, failure⟩ := first.mishap (by simp)
    exact ⟨x, List.mem_append_left _ member, failure⟩
  | stopped first => exact first.mishap (by simp)

theorem Probed.cause {cause : Cause} (run : Probed command removal probes xs result)
    (ended : result = .error cause) : cause = .clockOverflow := by
  induction run with
  | done => cases ended
  | passed _ _ ih => exact ih ended
  | @failed _ _ _ _ others _ _ ih =>
    cases others with
    | ok => cases ended
    | error e => exact ih (by simpa [Except.map] using ended)
  | stopped first =>
    cases ended
    exact first.cause

end Probed

/-- A removal issues its command, and stops the work only by an overflow of the clock. -/
theorem exec_removeContainer (p : Project) (r : Runner) (process : Nat) (probe : Probe)
    (s : Session) :
    Adds r s ((removeContainer p r process probe).exec s).2
        [r.exchange s .shared (probe.removeCommand p process)] [] ∧
      ((removeContainer p r process probe).exec s).1 =
        match (r.exchange s .shared (probe.removeCommand p process)).reply.outcome with
        | .clockOverflow => .error { cause := .clockOverflow }
        | _ => .ok () := by
  simp only [removeContainer, Work.exec_bind, Runner.exec_run]
  cases (r.exchange s .shared (probe.removeCommand p process)).reply.outcome with
  | finished | failed | clockOverflow => exact ⟨.exchanged rfl rfl, rfl⟩

section Probes

variable (p : Project) (r : Runner) (image : String) (process : Nat) (limit : Duration)

theorem runProbe_runs (probe : Probe) (s : Session) :
    ∃ xs, Adds r s ((runProbe p r image process limit probe).exec s).2 xs [] ∧
      ProbeRun (probe.command p image process limit) (probe.removeCommand p process) xs
        (((runProbe p r image process limit probe).exec s).1.mapError Failure.cause) := by
  simp only [runProbe, Work.exec_bind, Runner.exec_attempt]
  cases outcome : (r.exchange s .shared (probe.command p image process limit)).reply.outcome with
  | finished output =>
    exact ⟨_, .exchanged rfl rfl, .passed rfl outcome⟩
  | clockOverflow =>
    exact ⟨_, .exchanged rfl rfl, .overflow rfl outcome⟩
  | failed e =>
    dsimp only
    rw [Work.exec_bind, Work.exec_log]
    dsimp only
    -- what is counted and logged changes neither exchanges nor files
    generalize later : Session.mk _ _ _ _ _ _ = after
    have added : Adds r s after
        [r.exchange s .shared (probe.command p image process limit)] [] := by
      rw [← later]
      exact .exchanged rfl rfl
    cases timeout : e.isTimeout with
    | false => exact ⟨_, added, .failed rfl outcome timeout⟩
    | true =>
      obtain ⟨removal, result⟩ := exec_removeContainer p r process probe after
      have both := added.trans removal
      rcases run : (removeContainer p r process probe).exec after with ⟨done, behind⟩
      rw [run] at both result
      rw [if_pos rfl]
      cases ended : (r.exchange after .shared (probe.removeCommand p process)).reply.outcome with
      | clockOverflow =>
        rw [ended] at result
        subst result
        rw [Work.exec_bind_error run]
        exact ⟨_, both, .removalOverflow rfl outcome timeout rfl ended⟩
      | finished | failed =>
        rw [ended] at result
        subst result
        rw [Work.exec_bind_ok run]
        exact ⟨_, both, .removed rfl outcome timeout rfl (by simp [ended])⟩

theorem runProbes_run (probes : List Probe) (s : Session) :
    ∃ xs, Adds r s ((runProbes p r image process limit probes).exec s).2 xs [] ∧
      Probed (fun probe => probe.command p image process limit)
        (fun probe => probe.removeCommand p process) probes xs
        (((runProbes p r image process limit probes).exec s).1.mapError Failure.cause) := by
  induction probes generalizing s with
  | nil => exact ⟨[], .nothing rfl rfl, .done⟩
  | cons probe probes ih =>
    obtain ⟨xs, added, first⟩ := runProbe_runs p r image process limit probe s
    rw [runProbes]
    rcases run : (runProbe p r image process limit probe).exec s with ⟨result, middle⟩
    rw [run] at added first
    cases result with
    | error e =>
      rw [Work.exec_bind_error run]
      exact ⟨xs, added, .stopped first⟩
    | ok passed =>
      obtain ⟨ys, more, rest⟩ := ih middle
      refine ⟨xs ++ ys, ?_⟩
      rw [Work.exec_bind_ok run]
      rcases run' : (runProbes p r image process limit probes).exec middle with ⟨result, behind⟩
      rw [run'] at more rest
      cases result with
      | error e =>
        rw [Work.exec_bind_error run']
        cases passed with
        | true => exact ⟨added.trans more, .passed first rest⟩
        | false => exact ⟨added.trans more, .failed first rest⟩
      | ok failed =>
        rw [Work.exec_bind_ok run']
        cases passed with
        | true => exact ⟨added.trans more, .passed first rest⟩
        | false => exact ⟨added.trans more, .failed first rest⟩

end Probes

end ImagePipeline
