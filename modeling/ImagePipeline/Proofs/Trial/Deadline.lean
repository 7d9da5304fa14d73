import ImagePipeline.Proofs.Config.Soundness
import ImagePipeline.Proofs.Duration
import ImagePipeline.Runner.System

/-! Time limits and the clock. A command with a time limit has a deadline, which is a point in
time, and the clock shows none from `2 ^ 63` seconds on. A limit may be twice as long. -/
namespace ImagePipeline

variable {α β : Type} {c : Config} {p : Project} {r : Runner}

namespace Machine

variable {m : Machine} {now : Duration} {mode : OutputMode} {c : Command} {t : FileTree}

/-- Whether there is a program for a command, so that its process starts. -/
def starts (m : Machine) (c : Command) (t : FileTree) : Bool :=
  !holdsZero c && (m.program c t).isOk

theorem outcome_ne_clockOverflow {limit : Option Duration} {output : String}
    {result : Except Shell.Stop Shell.Ending} : outcome c limit output result ≠ .clockOverflow := by
  unfold outcome
  split <;> try simp
  split <;> simp

theorem execute_ne_clockOverflow {limit : Option Duration} {body : Shell.Run Shell.Ending} :
    (m.execute mode c limit t body).outcome ≠ .clockOverflow :=
  outcome_ne_clockOverflow

theorem overflowsClock_iff {limit : Duration} :
    overflowsClock now limit = true ↔ clockBound ≤ (now + limit).seconds := by
  simp [overflowsClock]

/-- The clock overflows just for a process that has started and whose deadline it cannot
show. -/
theorem reply_overflows_iff :
    (m.reply now mode c t).outcome = .clockOverflow ↔
      mode = .shared ∧ m.starts c t = true ∧
        ∃ limit, c.timeLimit = some limit ∧ clockBound ≤ (now + limit).seconds := by
  simp only [← overflowsClock_iff]
  unfold reply starts
  cases zero : holdsZero c with
  | true => simp
  | false =>
    cases program : m.program c t with
    | error e => simp [Except.isOk, Except.toBool]
    | ok body =>
      cases mode with
      | captured => simp [execute_ne_clockOverflow]
      | shared =>
        cases limit : c.timeLimit with
        | none => simp [execute_ne_clockOverflow]
        | some d =>
          cases late : overflowsClock now d with
          | true => simp [late, Except.isOk, Except.toBool]
          | false =>
            by_cases instant : d.nanos = 0 <;> simp [late, instant, execute_ne_clockOverflow]

end Machine

/-- A command that no clock stops, wherever it is issued. -/
def Runner.Fits (r : Runner) (c : Command) : Prop :=
  ∀ before files, (r.reply before .shared c files).outcome ≠ .clockOverflow

/-- Work that no clock stops, whatever session it starts in. -/
def Timely (t : Work α) : Prop := ∀ s, causeOf (t.exec s).1 ≠ some .clockOverflow

namespace Timely

variable {t : Work α} {f : α → Work β}

theorem pure (a : α) : Timely (Pure.pure a : Work α) := by
  intro s
  simp [causeOf]

theorem fail {cause : Cause} (other : cause ≠ .clockOverflow) :
    Timely (Work.fail cause : Work α) :=
  fun _ overflow => other (Option.some.inj overflow)

theorem log (e : LogEvent) : Timely (Work.log e) := by
  intro s
  simp [Work.exec_log, causeOf]

theorem bind (first : Timely t) (next : ∀ a, Timely (f a)) : Timely (t >>= f) := by
  intro s
  have start := first s
  rcases run : t.exec s with ⟨result, middle⟩
  rw [run] at start
  cases result with
  | error e => rwa [Work.exec_bind_error run]
  | ok a =>
    rw [Work.exec_bind_ok run]
    exact next a middle

theorem within (context : String) (inner : Timely t) : Timely (Work.within context t) := by
  intro s
  have start := inner s
  rw [Work.exec_within]
  rcases run : t.exec s with ⟨result, behind⟩
  rw [run] at start
  cases result with
  | error e => exact start
  | ok a => exact start

/-- Work in front of which there is more only under a condition. -/
theorem optional {b : Bool} {rest : Work β} (first : Timely t) (last : Timely rest) :
    Timely (if b then t >>= fun _ => rest else rest) := by
  cases b with
  | true => exact first.bind fun _ => last
  | false => exact last

theorem alter (q : Path) (change : FileTree → Except OsError Unit × FileTree) :
    Timely (Work.alter q change) := by
  intro s
  rw [Work.exec_alter]
  cases (change s.files).1 <;> simp [causeOf, Except.mapError]

theorem ensureStateDir (p : Project) (sub : String) : Timely (p.ensureStateDir sub) :=
  ((alter _ _).within _).bind fun _ => pure _

theorem run {command : Command} (fits : r.Fits command) : Timely (r.run command) := by
  intro s
  rw [Runner.exec_run]
  have reply : (r.exchange s .shared command).reply.outcome ≠ .clockOverflow := fits _ _
  cases outcome : (r.exchange s .shared command).reply.outcome with
  | finished | failed => simp [causeOf]
  | clockOverflow => exact absurd outcome reply

theorem attempt (metric : String) {command : Command} (fits : r.Fits command) :
    Timely (r.attempt metric command) :=
  (run fits).bind fun _ => Timely.bind (fun s => by simp [Work.count, causeOf]) fun _ => pure _

theorem perform {step : Step} (fits : r.Fits step.command) : Timely (r.perform step) := by
  refine (attempt step.metric fits).bind fun result => ?_
  cases result with
  | ok => exact pure ()
  | error e => exact (fail (by simp)).within _

theorem performAll {steps : List Step} (fit : ∀ step ∈ steps, r.Fits step.command) :
    Timely (r.performAll steps) := by
  induction steps with
  | nil => exact pure ()
  | cons step steps ih =>
    obtain ⟨here, there⟩ := List.forall_mem_cons.mp fit
    exact (perform here).bind fun _ => ih there

end Timely

section Trials

variable {image : String} {process : Nat} {limit : Duration}

theorem runProbe_timely {probe : Probe} (probed : r.Fits (probe.command p image process limit))
    (removed : r.Fits (probe.removeCommand p process)) :
    Timely (runProbe p r image process limit probe) := by
  unfold runProbe
  refine (Timely.attempt _ probed).bind fun result => ?_
  cases result with
  | ok => exact .pure true
  | error e =>
    refine (Timely.log _).bind fun _ => Timely.optional ?_ (.pure false)
    refine (Timely.run removed).bind fun result => ?_
    cases result with
    | ok => exact .pure ()
    | error e => exact .log _

theorem runProbes_timely {probes : List Probe}
    (fit : ∀ probe ∈ probes, r.Fits (probe.command p image process limit) ∧
      r.Fits (probe.removeCommand p process)) :
    Timely (runProbes p r image process limit probes) := by
  induction probes with
  | nil => exact .pure []
  | cons probe probes ih =>
    obtain ⟨⟨probed, removed⟩, rest⟩ := List.forall_mem_cons.mp fit
    exact (runProbe_timely probed removed).bind fun _ => (ih rest).bind fun _ => .pure _

theorem measureStart_timely (unlimited : ∀ command : Command, command.timeLimit = none →
    r.Fits command) : Timely (measureStart c p r image) := by
  unfold measureStart
  dsimp only
  split
  · exact .fail (by simp)
  · refine Timely.optional (.ensureStateDir p "") ?_
    exact (Timely.perform (unlimited _ rfl)).bind fun _ => .pure _
  · refine (Timely.performAll fun step member => ?_).bind fun _ => .pure _
    rw [List.eq_of_mem_replicate member]
    exact unlimited _ rfl

/-- The tests of an image are timely if probes are, and every command without a limit. -/
theorem runImageTests_timely {arch : String} (known : c.probeTimeout = .ok limit)
    (unlimited : ∀ command : Command, command.timeLimit = none → r.Fits command)
    (limited : ∀ command : Command, command.timeLimit = some limit → r.Fits command) :
    Timely (runImageTests c p r process arch) := by
  have probes : Timely (probeImage c p r process (c.imageReference arch)) := by
    unfold probeImage
    rw [known]
    refine (runProbes_timely fun probe _ => ⟨limited _ rfl, unlimited _ rfl⟩).bind fun failed => ?_
    cases failed with
    | nil => exact .pure ()
    | cons => exact .fail (by simp)
  unfold runImageTests
  dsimp only
  refine Timely.optional (.perform (unlimited _ rfl)) ?_
  refine Timely.optional (probes.within _) ?_
  split
  · exact ((measureStart_timely unlimited).within _).bind fun _ => .pure _
  · exact (Timely.pure none).bind fun _ => .pure _

/-- The smoke probe is the first, so its overflow ends the tests. -/
theorem runImageTests_overflow {arch : String} {s : Session} (known : c.probeTimeout = .ok limit)
    (unstructured : c.testing.structureTests.enabled = false)
    (probed : c.testing.integrationTests.enabled = true)
    (overflow : (r.exchange s .shared
      (smokeProbe.command p (c.imageReference arch) process limit)).reply.outcome =
        .clockOverflow) :
    ((runImageTests c p r process arch).exec s).1 =
      .error { contexts := ["integration tests failed"], cause := .clockOverflow } := by
  have smoke := r.exec_attempt ("integration:" ++ smokeProbe.label)
    (smokeProbe.command p (c.imageReference arch) process limit) s
  rw [overflow] at smoke
  have probes : (probeImage c p r process (c.imageReference arch)).exec s =
      (.error { cause := .clockOverflow }, s.behind (r.exchange s .shared
        (smokeProbe.command p (c.imageReference arch) process limit))) := by
    unfold probeImage
    rw [known]
    exact Work.exec_bind_error (Work.exec_bind_error (Work.exec_bind_error smoke))
  have stopped := Work.exec_within "integration tests failed"
    (probeImage c p r process (c.imageReference arch)) s
  rw [probes] at stopped
  unfold runImageTests
  simp only [unstructured, probed, if_true, Bool.false_eq_true, if_false]
  rw [Work.exec_bind_error stopped]
  rfl

end Trials

namespace Machine

variable {m : Machine} {clock : List Command → Duration} {command : Command}

theorem unlimited_fits (unlimited : command.timeLimit = none) :
    (m.runnerBy clock).Fits command := by
  intro before files overflow
  obtain ⟨-, -, limit, limited, -⟩ := reply_overflows_iff.mp overflow
  rw [unlimited] at limited
  contradiction

theorem early_fits {limit : Duration} (limited : command.timeLimit = some limit)
    (early : ∀ before, (clock before + limit).seconds < Machine.clockBound) :
    (m.runnerBy clock).Fits command := by
  intro before files overflow
  obtain ⟨-, -, d, limited', late⟩ := reply_overflows_iff.mp overflow
  rw [limited] at limited'
  cases limited'
  exact absurd late (Nat.not_le.mpr (early before))

end Machine

namespace Config

theorem probeTimeout_bounded {limit : Duration} (known : c.probeTimeout = .ok limit) :
    ∃ n < Text.word64Bound, limit = .ofSeconds n := by
  unfold probeTimeout at known
  dsimp only at known
  split at known
  · cases known
    exact ⟨600, by decide, rfl⟩
  · split at known
    · cases known
      exact Duration.parse?_bounded ‹_›
    · cases known

/-- The same project with another time limit for its probes. -/
def withTimeout (c : Config) (text : String) : Config :=
  { c with testing := { c.testing with
      integrationTests := { c.testing.integrationTests with timeout := text } } }

/-- Every time limit that can be written passes the check, and is the one that is used. -/
theorem Valid.withTimeout {t : FileTree} {n : Nat} (valid : c.Valid p t)
    (below : n < Text.word64Bound) : (c.withTimeout (toString n)).Valid p t ∧
      (c.withTimeout (toString n)).probeTimeout = .ok (.ofSeconds n) := by
  have read : Duration.parse? (Text.trimmed (toString n)) = some (.ofSeconds n) := by
    rw [Duration.trimmed_toString, Duration.parse?_toString below]
  have given : (Text.trimmed (toString n)).isEmpty = false := by
    cases empty : (Text.trimmed (toString n)).isEmpty with
    | false => rfl
    | true =>
      rw [String.isEmpty_iff.mp empty] at read
      contradiction
  constructor
  · exact { valid with timeout := .inr (by rw [Config.withTimeout, read]; rfl) }
  · unfold Config.probeTimeout Config.withTimeout
    simp only [given, read, Bool.false_eq_true, if_false]

end Config

/-- A configuration without errors has a time limit for its probes. A probe that is started
overflows the clock just if its deadline is behind the last point in time. Tests whose deadlines
are all before that end in another way; the smoke probe ends them if its deadline is not. -/
theorem probes_overflow_iff (c : Config) (p : Project) (t : FileTree)
    (clean : (c.check p t).errors = []) :
    ∃ n < Text.word64Bound, c.probeTimeout = .ok (.ofSeconds n) ∧
      (∀ m clock before image process files, ∀ probe : Probe,
        (((Machine.runnerBy m clock).reply before .shared
            (probe.command p image process (.ofSeconds n)) files).outcome = .clockOverflow ↔
          m.starts (probe.command p image process (.ofSeconds n)) files = true ∧
            Machine.clockBound ≤ (clock before + .ofSeconds n).seconds)) ∧
      (∀ m clock, (∀ before, (clock before + .ofSeconds n).seconds < Machine.clockBound) →
        ∀ process arch s f,
          ((runImageTests c p (Machine.runnerBy m clock) process arch).exec s).1 = .error f →
            f.cause ≠ .clockOverflow) ∧
      ∀ m clock process arch s, c.testing.structureTests.enabled = false →
        c.testing.integrationTests.enabled = true →
        m.starts (smokeProbe.command p (c.imageReference arch) process (.ofSeconds n)) s.files =
          true →
        Machine.clockBound ≤ (clock s.issued + .ofSeconds n).seconds →
        ((runImageTests c p (Machine.runnerBy m clock) process arch).exec s).1 =
          .error { contexts := ["integration tests failed"], cause := .clockOverflow } := by
  obtain ⟨limit, known⟩ := (Config.check_clean_iff.mp clean).probeTimeout
  obtain ⟨n, below, rfl⟩ := Config.probeTimeout_bounded known
  refine ⟨n, below, known, ?_, ?_, ?_⟩
  · intro m clock before image process files probe
    refine Machine.reply_overflows_iff.trans ?_
    simp [Probe.command]
  · intro m clock early process arch s f failed overflow
    have timely : Timely (runImageTests c p (Machine.runnerBy m clock) process arch) :=
      runImageTests_timely known (fun _ => Machine.unlimited_fits)
        fun _ limited => Machine.early_fits limited early
    refine timely s ?_
    rw [failed, ← overflow]
    rfl
  · intro m clock process arch s unstructured probed starts late
    exact runImageTests_overflow known unstructured probed
      (Machine.reply_overflows_iff.mpr ⟨rfl, starts, _, rfl, late⟩)

/-- A machine whose programs are those of the project. -/
def demoMachine : Machine := ⟨"/work/bin", ⟨"/work"⟩, 7⟩

def dockerFiles : FileTree where
  entries := demoFiles.entries ++ [(["work", "bin"], .directory),
    (["work", "bin", "docker"], .file "#!/bin/sh\nexit 0\n".toUTF8 true)]

/-- A project whose probes have a time limit. -/
def patientDemo (timeout : String) : Config :=
  { demo with testing := { integrationTests := { enabled := true, timeout } } }

/-- Probes of ninety seconds never overflow a clock that has been up for a second. -/
theorem patientDemo_in_time :
    ((patientDemo "90s").check demoProject dockerFiles).errors = [] ∧
      ∀ arch s f, ((runImageTests (patientDemo "90s") demoProject (systemRunner demoMachine) 7
        arch).exec s).1 = .error f → f.cause ≠ .clockOverflow := by
  have clean : ((patientDemo "90s").check demoProject dockerFiles).errors = [] := by
    decide +kernel
  obtain ⟨n, -, known, -, timely, -⟩ :=
    probes_overflow_iff (patientDemo "90s") demoProject dockerFiles clean
  have limit : (patientDemo "90s").probeTimeout = .ok (.ofSeconds 90) := by decide +kernel
  rw [known] at limit
  have early : (uptime + Duration.ofSeconds n).seconds < Machine.clockBound := by
    rw [Except.ok.inj limit]
    decide +kernel
  exact ⟨clean, timely demoMachine (fun _ => uptime) (fun _ => early) 7⟩

/-- A limit that the check accepts and that no clock can show ends the tests. -/
theorem patientDemo_overflows :
    ((patientDemo "18446744073709551615").check demoProject dockerFiles).errors = [] ∧
      ((runImageTests (patientDemo "18446744073709551615") demoProject (systemRunner demoMachine)
        7 "amd64").exec { files := dockerFiles }).1 =
          .error { contexts := ["integration tests failed"], cause := .clockOverflow } := by
  constructor
  · decide +kernel
  · decide +kernel

end ImagePipeline
