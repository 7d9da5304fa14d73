import ImagePipeline.Proofs.Build.Prefix
import ImagePipeline.Proofs.Trial.Removal
import ImagePipeline.Proofs.Trial.Run
import ImagePipeline.Runner.Scripted

/-! The probes of an image in rounds. Every probe has one round, in which it is issued and, if it
was timed out, its container removed. The tests fail with the probes that have failed, and the
start of the image is measured only if there is none. -/
namespace ImagePipeline

variable {c : Config} {p : Project} {r : Runner} {s : Session}

/-- A probe with the exchange in which it was issued, and that of its removal if there is one. -/
structure Round where
  probe : Probe
  trial : Exchange
  removal : Option Exchange

namespace Round

def exchanges (x : Round) : List Exchange := x.trial :: x.removal.toList

def failed (x : Round) : Bool := x.trial.failure?.isSome

def timedOut (x : Round) : Bool :=
  match x.trial.reply.outcome with
  | .failed (.timedOut _ _) => true
  | _ => false

theorem timedOut_of_failed {x : Round} {e : CommandError}
    (outcome : x.trial.reply.outcome = .failed e) : x.timedOut = e.isTimeout := by
  rw [timedOut, outcome]
  cases e <;> rfl

/-- The probe was issued by the one command, and removed by the other just if it was timed out. -/
structure Runs (command removal : Probe → Command) (x : Round) : Prop where
  issued : x.trial.command = command x.probe
  removed_iff : x.removal.isSome = x.timedOut
  removes : ∀ y ∈ x.removal, y.command = removal x.probe

/-- The script of the probe was run in a container of its own, with a time limit. The container was
removed just if the limit was reached, and for the removal there is none. -/
structure Sound (p : Project) (image : String) (process : Nat) (limit : Duration) (x : Round) :
    Prop where
  issued : x.trial.command = {
    program := "docker"
    args := ["run", "--rm", "--name", probeContainer process x.probe.label, "--entrypoint", "sh",
      image, "-c", x.probe.script]
    workingDir := some p.root
    timeLimit := some limit }
  removed_iff : x.removal.isSome = x.timedOut
  removes : ∀ y ∈ x.removal, y.command = {
    program := "docker"
    args := ["rm", "-f", probeContainer process x.probe.label]
    workingDir := some p.root
    timeLimit := none }

theorem Runs.sound {p : Project} {image : String} {process : Nat} {limit : Duration} {x : Round}
    (runs : x.Runs (fun probe => probe.command p image process limit)
      (fun probe => probe.removeCommand p process)) : x.Sound p image process limit :=
  ⟨runs.issued, runs.removed_iff, runs.removes⟩

end Round

/-- The clock has overflowed, so that the runner has not answered. -/
def Exchange.Unanswered (x : Exchange) : Prop := x.reply.outcome = .clockOverflow

theorem Exchange.Unanswered.failure {x : Exchange} (unanswered : x.Unanswered) :
    x.failure? = some .clockOverflow := by
  unfold Exchange.Unanswered at unanswered
  simp only [failure?, unanswered]

section Probed

variable {command removal : Probe → Command} {probe : Probe} {probes : List Probe}
  {xs : List Exchange} {passed : Bool} {result : Except Cause (List Probe)}

theorem ProbeRun.answered {x y : Command} (run : ProbeRun x y xs (.ok passed)) :
    ∀ x ∈ xs, ¬ x.Unanswered := by
  cases run with
  | passed _ outcome | failed _ outcome => simp [Exchange.Unanswered, outcome]
  | removed _ outcome _ _ goesOn => simpa [Exchange.Unanswered, outcome] using goesOn

theorem ProbeRun.round (run : ProbeRun (command probe) (removal probe) xs (.ok passed)) :
    ∃ x : Round, x.probe = probe ∧ x.exchanges = xs ∧ x.Runs command removal ∧
      x.failed = !passed := by
  cases run with
  | @passed x _ issued outcome =>
    refine ⟨⟨probe, x, none⟩, rfl, rfl, ⟨issued, ?_, by simp⟩, ?_⟩
    · simp [Round.timedOut, outcome]
    · simp [Round.failed, Exchange.failure?, outcome]
  | @failed x _ issued outcome timeout =>
    refine ⟨⟨probe, x, none⟩, rfl, rfl, ⟨issued, ?_, by simp⟩, ?_⟩
    · rw [Round.timedOut_of_failed outcome, timeout, Option.isSome_none]
    · simp [Round.failed, Exchange.failure?, outcome]
  | @removed x y _ issued outcome timeout removes =>
    refine ⟨⟨probe, x, some y⟩, rfl, rfl, ⟨issued, ?_, by simpa using removes⟩, ?_⟩
    · rw [Round.timedOut_of_failed outcome, timeout, Option.isSome_some]
    · simp [Round.failed, Exchange.failure?, outcome]

/-- Probes that are all answered have one round each, and the failed ones are reported. -/
theorem Probed.rounds (run : Probed command removal probes xs result)
    (answered : ∀ x ∈ xs, ¬ x.Unanswered) :
    ∃ rounds : List Round, rounds.map Round.probe = probes ∧
      rounds.flatMap Round.exchanges = xs ∧ (∀ x ∈ rounds, x.Runs command removal) ∧
      result = .ok ((rounds.filter Round.failed).map Round.probe) := by
  induction run with
  | done => exact ⟨[], rfl, rfl, by simp, rfl⟩
  | passed first _ ih =>
    obtain ⟨rounds, rfl, rfl, runs, rfl⟩ :=
      ih fun x member => answered x (List.mem_append_right _ member)
    obtain ⟨x, rfl, rfl, here, outcome⟩ := first.round
    exact ⟨x :: rounds, rfl, rfl, List.forall_mem_cons.mpr ⟨here, runs⟩, by simp [outcome]⟩
  | failed first _ ih =>
    obtain ⟨rounds, rfl, rfl, runs, rfl⟩ :=
      ih fun x member => answered x (List.mem_append_right _ member)
    obtain ⟨x, rfl, rfl, here, outcome⟩ := first.round
    refine ⟨x :: rounds, rfl, rfl, List.forall_mem_cons.mpr ⟨here, runs⟩, ?_⟩
    simp [outcome, Except.map]
  | stopped first =>
    cases first with
    | overflow _ outcome => exact absurd outcome (answered _ (by simp))
    | removalOverflow _ _ _ _ outcome => exact absurd outcome (answered _ (by simp))

/-- A clock that overflows ends the probes. -/
theorem Probed.overflowed (run : Probed command removal probes xs result)
    (overflow : ∃ x ∈ xs, x.Unanswered) : result = .error .clockOverflow := by
  induction run with
  | done => simp at overflow
  | passed first _ ih =>
    obtain ⟨x, member, unanswered⟩ := overflow
    rcases List.mem_append.mp member with here | later
    · exact absurd unanswered (first.answered x here)
    · exact ih ⟨x, later, unanswered⟩
  | failed first _ ih =>
    obtain ⟨x, member, unanswered⟩ := overflow
    rcases List.mem_append.mp member with here | later
    · exact absurd unanswered (first.answered x here)
    · rw [ih ⟨x, later, unanswered⟩]
      rfl
  | stopped first => rw [first.cause]

end Probed

/-! ### The tests around the probes -/

namespace Config

def structurePlan (c : Config) (p : Project) (image : String) : List Command :=
  if c.testing.structureTests.enabled then [c.structureCommand p image] else []

/-- The commands of the way to measure the start of an image that is named, if it is known. -/
def benchmarkPlan (c : Config) (p : Project) (image : String) : List Command :=
  match Benchmark.ofName? c.testing.performanceTests.benchmarkTool with
  | some b => b.plan p image
  | none => []

def startPlan (c : Config) (p : Project) (image : String) : List Command :=
  if c.testing.performanceTests.enabled then c.benchmarkPlan p image else []

end Config

/-- The last part of the tests: the start is measured if that is asked for, and what was tested
is reported. -/
def measureAndReport (c : Config) (p : Project) (r : Runner) (image : String) : Work TrialReport := do
  let startupRuns ←
    if c.testing.performanceTests.enabled then
      Work.within "performance tests failed" (measureStart c p r image)
    else pure none
  return { structureTested := c.testing.structureTests.enabled, probed := true, startupRuns }

/-- The tests behind that of the structure, if the tools of the image are probed. -/
def probeAndMeasure (c : Config) (p : Project) (r : Runner) (process : Nat) (image : String) :
    Work TrialReport := do
  Work.within "integration tests failed" (probeImage c p r process image)
  measureAndReport c p r image

theorem runImageTests_eq (process : Nat) (arch : String)
    (probed : c.testing.integrationTests.enabled = true) :
    runImageTests c p r process arch =
      (if c.testing.structureTests.enabled then do
        r.perform ⟨"test:structure", c.structureCommand p (c.imageReference arch),
          "structure tests failed"⟩
        probeAndMeasure c p r process (c.imageReference arch)
      else probeAndMeasure c p r process (c.imageReference arch)) := by
  simp only [runImageTests, probeAndMeasure, measureAndReport, probed, if_true]

/-- How the tests go on behind the probes. -/
structure Measured (c : Config) (p : Project) (image : String)
    (result : Except Failure TrialReport) (xs : List Exchange) : Prop where
  planned : xs.map Exchange.command <+: c.startPlan p image
  fails : ∀ f, result = .error f → f.contexts.head? = some "performance tests failed"
  reports : ∀ report, result = .ok report → report.probed = true
  overflow : (∃ x ∈ xs, x.Unanswered) → causeOf result = some .clockOverflow

theorem measureStart_yields (image : String) :
    Yields r (measureStart c p r image) s fun result xs =>
      xs.map Exchange.command <+: c.benchmarkPlan p image ∧
        ((∃ x ∈ xs, x.Unanswered) → causeOf result = some .clockOverflow) := by
  unfold Config.benchmarkPlan
  cases known : Benchmark.ofName? c.testing.performanceTests.benchmarkTool with
  | none =>
    unfold measureStart
    simp only [known]
    exact .of_exec rfl (.nothing rfl rfl) ⟨List.nil_prefix, by simp⟩
  | some b =>
    obtain ⟨xs, as, added, follows, -⟩ :=
      measureStart_pursues (p := p) (r := r) (s := s) image known
    refine ⟨xs, as, added, follows.isPrefix, ?_⟩
    rintro ⟨x, member, unanswered⟩
    exact follows.stopped_by member unanswered.failure

theorem measureAndReport_yields (image : String) :
    Yields r (measureAndReport c p r image) s (Measured c p image) := by
  unfold measureAndReport
  cases enabled : c.testing.performanceTests.enabled with
  | false =>
    rw [if_neg (by simp)]
    exact .of_exec rfl (.nothing rfl rfl) ⟨List.nil_prefix, nofun, by rintro _ ⟨⟩; rfl, by simp⟩
  | true =>
    rw [if_pos rfl]
    have measured : Yields r (Work.within "performance tests failed" (measureStart c p r image)) s
        fun result xs => xs.map Exchange.command <+: c.startPlan p image ∧
          (∀ f, result = .error f → f.contexts.head? = some "performance tests failed") ∧
          ((∃ x ∈ xs, x.Unanswered) → causeOf result = some .clockOverflow) := by
      unfold Config.startPlan
      rw [enabled, if_pos rfl]
      refine (measureStart_yields image).within ?_ ?_
      · rintro a xs ⟨planned, overflow⟩
        exact ⟨planned, nofun, overflow⟩
      · rintro e xs ⟨planned, overflow⟩
        exact ⟨planned, by rintro _ ⟨⟩; rfl, overflow⟩
    refine measured.bind ?_ ?_
    · rintro e xs ⟨planned, fails, overflow⟩
      exact ⟨planned, by rintro _ ⟨⟩; exact fails e rfl, nofun, overflow⟩
    · rintro runs s' xs ⟨planned, -, overflow⟩
      refine .of_exec rfl (.nothing rfl rfl) ?_
      rw [List.append_nil]
      exact ⟨planned, nofun, by rintro _ ⟨⟩; rfl, overflow⟩

/-- The failure of the tests for probes with these labels. -/
def probesFailure (labels : List String) : Failure where
  contexts := ["integration tests failed"]
  cause := .probesFailed labels

theorem probesFailure_message (labels : List String) :
    (probesFailure labels).message = "integration tests failed: " ++
      (toString labels.length ++ " probe(s) failed: " ++ ", ".intercalate labels) := by
  simp [probesFailure, Failure.message, Failure.chain, Cause.messages, Text.commaSeparated]

/-- What the probes come to: an overflow of the clock ends the tests, and so does a probe that has
failed; else they go on. -/
def Concluded (c : Config) (p : Project) (image : String) (probed : Except Cause (List Probe))
    (result : Except Failure TrialReport) (xs : List Exchange) (as : List FileAction) : Prop :=
  match probed with
  | .error cause => xs = [] ∧ as = [] ∧ causeOf result = some cause
  | .ok [] => Measured c p image result xs
  | .ok failed =>
    xs = [] ∧ as = [] ∧ result = .error (probesFailure (failed.map Probe.label))

namespace Concluded

variable {image : String} {probed : Except Cause (List Probe)} {probes : List Probe}
  {result : Except Failure TrialReport} {xs ys : List Exchange} {as : List FileAction}

theorem failed (concluded : Concluded c p image (.ok probes) result ys as)
    (nonempty : probes ≠ []) :
    ys = [] ∧ as = [] ∧ result = .error (probesFailure (probes.map Probe.label)) := by
  cases probes with
  | nil => contradiction
  | cons => exact concluded

theorem overflowed {command removal : Probe → Command}
    (concluded : Concluded c p image probed result ys as)
    (trials : Probed command removal probes xs probed) (overflow : ∃ x ∈ xs ++ ys, x.Unanswered) :
    causeOf result = some .clockOverflow := by
  obtain ⟨x, member, unanswered⟩ := overflow
  rcases List.mem_append.mp member with trial | behind
  · obtain rfl := trials.overflowed ⟨x, trial, unanswered⟩
    exact concluded.2.2
  · cases probed with
    | error =>
      obtain ⟨rfl, -⟩ := concluded
      cases behind
    | ok failed =>
      cases failed with
      | nil => exact Measured.overflow concluded ⟨x, behind, unanswered⟩
      | cons =>
        obtain ⟨rfl, -⟩ := concluded
        cases behind

end Concluded

theorem exec_probeImage {limit : Duration} (known : c.probeTimeout = .ok limit) (process : Nat)
    (image : String) :
    (probeImage c p r process image).exec s =
      match (runProbes p r image process limit c.probes).exec s with
      | (.ok [], behind) => (.ok (), behind)
      | (.ok failed, behind) =>
        (.error { cause := .probesFailed (failed.map Probe.label) }, behind)
      | (.error e, behind) => (.error e, behind) := by
  unfold probeImage
  simp only [known, Work.exec_bind]
  rcases (runProbes p r image process limit c.probes).exec s with ⟨result, behind⟩
  cases result with
  | error e => rfl
  | ok failed => cases failed <;> rfl

theorem probeAndMeasure_concluded {limit : Duration} (known : c.probeTimeout = .ok limit)
    (process : Nat) (image : String) :
    ∃ xs ys as probed,
      Adds r s ((probeAndMeasure c p r process image).exec s).2 (xs ++ ys) as ∧
      Probed (fun probe => probe.command p image process limit)
        (fun probe => probe.removeCommand p process) c.probes xs probed ∧
      Concluded c p image probed ((probeAndMeasure c p r process image).exec s).1 ys as := by
  obtain ⟨xs, added, probed⟩ := runProbes_run p r image process limit c.probes s
  have inner := exec_probeImage (p := p) (r := r) (s := s) known process image
  have outer := Work.exec_within "integration tests failed" (probeImage c p r process image) s
  rw [inner] at outer
  rcases run : (runProbes p r image process limit c.probes).exec s with ⟨result, behind⟩
  rw [run] at added probed outer
  unfold probeAndMeasure
  cases result with
  | error e =>
    rw [Work.exec_bind_error outer]
    exact ⟨xs, [], [], _, by rwa [List.append_nil], probed, rfl, rfl, rfl⟩
  | ok failed =>
    cases failed with
    | nil =>
      obtain ⟨ys, as, more, measured⟩ :=
        measureAndReport_yields (c := c) (p := p) (r := r) (s := behind) image
      rw [Work.exec_bind_ok outer]
      exact ⟨xs, ys, as, _, added.trans more, probed, measured⟩
    | cons probe probes =>
      rw [Work.exec_bind_error outer]
      exact ⟨xs, [], [], _, by rwa [List.append_nil], probed, rfl, rfl, rfl⟩

/-- The structure of an image is tested first, and the probes follow if that succeeds. -/
theorem runImageTests_behind_structure (process : Nat) {arch : String}
    (probed : c.testing.integrationTests.enabled = true)
    (structured : c.testing.structureTests.enabled = true →
      (r.exchange s .shared (c.structureCommand p (c.imageReference arch))).failure? = none) :
    ∃ front middle, Adds r s middle front [] ∧
      front.map Exchange.command = c.structurePlan p (c.imageReference arch) ∧
      (∀ x ∈ front, x.failure? = none) ∧
      (runImageTests c p r process arch).exec s =
        (probeAndMeasure c p r process (c.imageReference arch)).exec middle := by
  rw [runImageTests_eq process arch probed]
  unfold Config.structurePlan
  cases enabled : c.testing.structureTests.enabled with
  | false => exact ⟨[], s, .nothing rfl rfl, rfl, by simp, rfl⟩
  | true =>
    have succeeded := structured enabled
    unfold Exchange.failure? at succeeded
    split at succeeded
    · rename_i finished
      have run := r.exec_perform ⟨"test:structure", c.structureCommand p (c.imageReference arch),
        "structure tests failed"⟩ s
      dsimp only at run
      rw [finished] at run
      refine ⟨[r.exchange s .shared (c.structureCommand p (c.imageReference arch))], _, ?_, rfl, ?_,
        Work.exec_bind_ok run⟩
      · exact .exchanged rfl rfl
      · simp [Exchange.failure?, finished]
    · cases succeeded
    · cases succeeded

/-- The tests of an image when every command is answered: what is issued for the structure, a round
for each probe, and what is issued behind them. -/
structure InRounds (c : Config) (p : Project) (image : String) (process : Nat) (limit : Duration)
    (result : Except Failure TrialReport) (front : List Exchange) (rounds : List Round)
    (back : List Exchange) (changes : List FileAction) : Prop where
  structured : front.map Exchange.command = c.structurePlan p image
  probes : rounds.map Round.probe = c.probes
  sound : ∀ x ∈ rounds, x.Sound p image process limit
  passed : (∀ x ∈ rounds, x.failed = false) → Measured c p image result back
  failed : (∃ x ∈ rounds, x.failed = true) → back = [] ∧ changes = [] ∧ ∃ f,
    result = .error f ∧
      f.cause = .probesFailed ((rounds.filter Round.failed).map fun x => x.probe.label) ∧
      f.message = "integration tests failed: " ++
        (toString (rounds.filter Round.failed).length ++ " probe(s) failed: " ++
          ", ".intercalate ((rounds.filter Round.failed).map fun x => x.probe.label))

theorem Concluded.inRounds {process : Nat} {image : String} {limit : Duration}
    {result : Except Failure TrialReport} {front ys : List Exchange} {rounds : List Round}
    {as : List FileAction}
    (concluded : Concluded c p image (.ok ((rounds.filter Round.failed).map Round.probe)) result ys
      as)
    (structured : front.map Exchange.command = c.structurePlan p image)
    (probes : rounds.map Round.probe = c.probes)
    (sound : ∀ x ∈ rounds, x.Sound p image process limit) :
    InRounds c p image process limit result front rounds ys as where
  structured := structured
  probes := probes
  sound := sound
  passed none := by
    have passed : rounds.filter Round.failed = [] :=
      List.filter_eq_nil_iff.mpr fun x member => by simp [none x member]
    rwa [passed] at concluded
  failed := by
    rintro ⟨x, member, failed⟩
    have reported : rounds.filter Round.failed ≠ [] :=
      List.ne_nil_of_mem (List.mem_filter.mpr ⟨member, failed⟩)
    obtain ⟨nothing, unchanged, ending⟩ := concluded.failed (by simpa using reported)
    refine ⟨nothing, unchanged, _, ending, ?_, ?_⟩
    · simp only [probesFailure, List.map_map, Function.comp_def]
    · rw [probesFailure_message]
      simp only [List.map_map, List.length_map, Function.comp_def]

/-- Tests that come to the probes of an image, with a time limit for them. A clock that overflows
in place of an answer ends the tests. If every command is answered, each probe is issued once, in
order and with the limit, whatever became of those before it, and a removal follows each that was
timed out and no other. The tests fail with the labels of the probes that have failed if there are
any, and else go on to measure the start of the image. Another outcome of the removals would change
neither the ending, nor what is issued, nor what is left behind. -/
theorem probes_issued_in_rounds (c : Config) (p : Project) (r : Runner) (process : Nat)
    (arch : String) (s : Session) {limit : Duration}
    (probed : c.testing.integrationTests.enabled = true) (known : c.probeTimeout = .ok limit)
    (structured : c.testing.structureTests.enabled = true →
      (r.exchange s .shared (c.structureCommand p (c.imageReference arch))).failure? = none) :
    (∃ trace changes,
      Adds r s ((runImageTests c p r process arch).exec s).2 trace changes ∧
      ((∃ x ∈ trace, x.Unanswered) →
        causeOf ((runImageTests c p r process arch).exec s).1 = some .clockOverflow) ∧
      ((∀ x ∈ trace, ¬ x.Unanswered) → ∃ front rounds back,
        trace = front ++ rounds.flatMap Round.exchanges ++ back ∧
        InRounds c p (c.imageReference arch) process limit
          ((runImageTests c p r process arch).exec s).1 front rounds back changes)) ∧
    ∀ r', r.SameButRemovals p process r' →
      ((runImageTests c p r' process arch).exec s).1 =
          ((runImageTests c p r process arch).exec s).1 ∧
        ((runImageTests c p r process arch).exec s).2.Alike
          ((runImageTests c p r' process arch).exec s).2 := by
  refine ⟨?_, fun r' same => runImageTests_unaffected same arch s s (.refl s)⟩
  obtain ⟨front, middle, first, commands, succeeded, run⟩ :=
    runImageTests_behind_structure process probed structured
  obtain ⟨xs, ys, changes, outcome, rest, trials, concluded⟩ :=
    probeAndMeasure_concluded (p := p) (r := r) (s := middle) known process (c.imageReference arch)
  rw [run]
  refine ⟨front ++ (xs ++ ys), changes, first.trans rest, ?_, fun answered => ?_⟩
  · rintro ⟨x, member, unanswered⟩
    rcases List.mem_append.mp member with inFront | behind
    · have failure := unanswered.failure
      rw [succeeded x inFront] at failure
      cases failure
    · exact concluded.overflowed trials ⟨x, behind, unanswered⟩
  · have trialsAnswered : ∀ x ∈ xs, ¬ x.Unanswered := fun x member =>
      answered x (List.mem_append_right _ (List.mem_append_left _ member))
    obtain ⟨rounds, probes, rfl, runs, rfl⟩ := trials.rounds trialsAnswered
    exact ⟨front, rounds, ys, (List.append_assoc ..).symm,
      concluded.inRounds commands probes fun x member => (runs x member).sound⟩

/-- A project whose images are tested in every way. -/
def trialDemo : Config :=
  { demo with
    tools := {
      languages := .ofList [("python", { install := true, version := "3.12" })]
      devops := .ofList [("helm", { install := true, version := "3.14.0" })] }
    testing := {
      structureTests := { enabled := true }
      integrationTests := { enabled := true, timeout := "2m" }
      performanceTests := { enabled := true } } }

/-- Python does not answer in time, and its container cannot be removed. -/
def slowPythonRunner : Runner :=
  scriptedRunner true
    [{ fragment := "python3", failure := some .timeout },
      { fragment := "docker rm", failure := some (.exit 1) }]

theorem trialDemo_in_rounds :
    trialDemo.probeTimeout = .ok (.ofSeconds 120) ∧
    (slowPythonRunner.exchange {} .shared (trialDemo.structureCommand demoProject
      (trialDemo.imageReference "amd64"))).failure? = none ∧
    ((runImageTests trialDemo demoProject slowPythonRunner 7 "amd64").exec {}).2.issued.map
      Command.line = [
        "container-structure-test test --image demo:latest-amd64 --config " ++
          "tests/structure-tests.yaml",
        "docker run --rm --name foundry-test-smoke-7 --entrypoint sh demo:latest-amd64 -c true",
        "docker run --rm --name foundry-test-python-7 --entrypoint sh demo:latest-amd64 -c " ++
          "'python3 --version'",
        "docker rm -f foundry-test-python-7",
        "docker run --rm --name foundry-test-helm-7 --entrypoint sh demo:latest-amd64 -c " ++
          "'helm version'"] ∧
    causeOf ((runImageTests trialDemo demoProject slowPythonRunner 7 "amd64").exec {}).1 =
      some (.probesFailed ["python"]) ∧
    ∃ front rounds back changes,
      InRounds trialDemo demoProject (trialDemo.imageReference "amd64") 7 (.ofSeconds 120)
        ((runImageTests trialDemo demoProject slowPythonRunner 7 "amd64").exec {}).1 front rounds
        back changes := by
  have limit : trialDemo.probeTimeout = .ok (.ofSeconds 120) := by decide +kernel
  have structured : (slowPythonRunner.exchange {} .shared (trialDemo.structureCommand demoProject
      (trialDemo.imageReference "amd64"))).failure? = none := by decide +kernel
  have failed : causeOf ((runImageTests trialDemo demoProject slowPythonRunner 7 "amd64").exec
      {}).1 = some (.probesFailed ["python"]) := by decide +kernel
  obtain ⟨⟨trace, changes, -, overflow, answered⟩, -⟩ :=
    probes_issued_in_rounds trialDemo demoProject slowPythonRunner 7 "amd64" {} rfl limit
      fun _ => structured
  have none : ∀ x ∈ trace, ¬ x.Unanswered := by
    intro x member unanswered
    have stopped := overflow ⟨x, member, unanswered⟩
    rw [failed] at stopped
    cases stopped
  obtain ⟨front, rounds, back, -, inRounds⟩ := answered none
  exact ⟨limit, structured, by decide +kernel, failed, front, rounds, back, changes, inRounds⟩

end ImagePipeline
