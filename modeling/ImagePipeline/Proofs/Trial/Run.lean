import ImagePipeline.Proofs.Trial.Probes

/-! The tests of an image fail only by a mishap once their time limit and their way to
measure the start are known. -/
namespace ImagePipeline

variable {c : Config} {p : Project} {r : Runner} {s : Session}

/-- The commands that measure the start of an image. -/
def Benchmark.plan (p : Project) (image : String) : Benchmark → List Command
  | .builtin => List.replicate benchmarkRuns (p.startCommand image)
  | .hyperfine => [p.hyperfineCommand image]

/-- The time limit and the way to measure the start are known where they are needed. -/
structure Config.TrialsKnown (c : Config) : Prop where
  timeout : c.testing.integrationTests.enabled = true → ∃ limit, c.probeTimeout = .ok limit
  benchmark : c.testing.performanceTests.enabled = true →
    ∃ b, Benchmark.ofName? c.testing.performanceTests.benchmarkTool = some b

/-- The directory that a measurement with an external tool makes. -/
def MadeByTrial (p : Project) (r : Runner) (q : Path) : Prop :=
  r.executes = true ∧ q = p.stateDirectory ""

theorem measureStart_pursues {b : Benchmark} (image : String)
    (known : Benchmark.ofName? c.testing.performanceTests.benchmarkTool = some b) :
    Pursues r (MadeByTrial p r) (b.plan p image) (measureStart c p r image) s := by
  unfold measureStart
  simp only [known]
  cases b with
  | builtin =>
    have commands : Pursues r (MadeByTrial p r) _ (r.performAll (List.replicate benchmarkRuns
        ⟨"performance:startup", p.startCommand image, "container startup failed"⟩)) s :=
      .performAll _
    rw [List.map_replicate] at commands
    exact commands.bind_quiet fun _ _ _ => .pure _
  | hyperfine =>
    dsimp only
    split
    · rename_i executing
      refine (Pursues.ensureStateDir p "" ⟨executing, rfl⟩).quiet_bind fun _ _ _ => ?_
      exact (Pursues.perform _).bind_quiet fun _ _ _ => .pure _
    · exact (Pursues.perform _).bind_quiet fun _ _ _ => .pure _

theorem probeImage_excused {limit : Duration} (process : Nat) (image : String)
    (known : c.probeTimeout = .ok limit) : Excused r (probeImage c p r process image) s := by
  unfold probeImage
  simp only [known]
  obtain ⟨xs, added, probed⟩ := runProbes_run p r image process limit c.probes s
  rcases run : (runProbes p r image process limit c.probes).exec s with ⟨result, behind⟩
  rw [run] at added probed
  cases result with
  | error e =>
    refine .of_exec (Work.exec_bind_error run) added fun cause ended => ?_
    obtain rfl := Option.some.inj ended
    have overflow : e.cause = .clockOverflow := probed.cause rfl
    refine ⟨by rw [overflow]; rfl, .inl (probed.mishap ?_)⟩
    intro none
    cases none
  | ok failed =>
    rw [Excused, Work.exec_bind_ok run]
    refine ⟨xs, [], ?_, ?_⟩
    · cases failed <;> exact added
    · intro cause ended
      cases failed with
      | nil => cases ended
      | cons probe probes =>
        cases ended
        refine ⟨rfl, .inl (probed.mishap ?_)⟩
        intro none
        cases none

theorem runImageTests_excused (known : c.TrialsKnown) (process : Nat) (arch : String) :
    Excused r (runImageTests c p r process arch) s := by
  unfold runImageTests
  dsimp only
  refine Excused.optional (fun _ => ?_) fun s => Excused.optional (fun enabled => ?_) fun s => ?_
  · have tested (step : Step) : Pursues r (MadeByTrial p r) [step.command] (r.perform step) s :=
      .perform step
    exact .of_pursues (tested _)
  · obtain ⟨limit, valid⟩ := known.timeout enabled
    exact (probeImage_excused process _ valid).within _
  · split
    · rename_i enabled
      obtain ⟨b, found⟩ := known.benchmark enabled
      have measured := measureStart_pursues (p := p) (r := r) (s := s) (c.imageReference arch) found
      exact ((Excused.of_pursues measured).within _).bind fun _ _ _ => .pure _
    · exact (Excused.pure none).bind fun _ _ _ => .pure _

end ImagePipeline
