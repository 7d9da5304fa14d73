import ImagePipeline.Trial.Basic

/-! Running the tests of an image. -/
namespace ImagePipeline

/-- Which tests have run, and how many times the start of the image was measured. -/
structure TrialReport where
  structureTested : Bool := false
  probed : Bool := false
  startupRuns : Option Nat := none
  deriving DecidableEq, Repr

namespace TrialReport

def isEmpty (r : TrialReport) : Bool :=
  !(r.structureTested || r.probed || r.startupRuns.isSome)

end TrialReport

def trialTarget : String := "image_foundry::image_tests"

/-- Removes what a stopped probe leaves; a failure is reported and ignored. -/
def removeContainer (p : Project) (r : Runner) (process : Nat) (probe : Probe) : Work Unit := do
  match ← r.run (probe.removeCommand p process) with
  | .ok _ => return ()
  | .error e =>
    Work.log {
      level := .warning
      target := trialTarget
      message := "Failed to remove timed out container: " ++ e.message
      fields := [("container", "\"" ++ probe.container process ++ "\"")] }

/-- Runs a probe; the answer is whether it has passed. -/
def runProbe (p : Project) (r : Runner) (image : String) (process : Nat) (limit : Duration)
    (probe : Probe) : Work Bool := do
  let result ← r.attempt ("integration:" ++ probe.label) (probe.command p image process limit)
  match result with
  | .ok _ => return true
  | .error e =>
    Work.log {
      level := .error
      target := trialTarget
      message := "Integration probe failed: " ++ e.message
      fields := [("probe", probe.label)] }
    if e.isTimeout then
      removeContainer p r process probe
    return false

/-- Runs every probe; the answer are those that have failed. -/
def runProbes (p : Project) (r : Runner) (image : String) (process : Nat) (limit : Duration) :
    List Probe → Work (List Probe)
  | [] => return []
  | probe :: probes => do
    let passed ← runProbe p r image process limit probe
    let failed ← runProbes p r image process limit probes
    return if passed then failed else probe :: failed

def probeImage (c : Config) (p : Project) (r : Runner) (process : Nat) (image : String) :
    Work Unit := do
  match c.probeTimeout with
  | .error cause => Work.fail cause
  | .ok limit =>
    let failed ← runProbes p r image process limit c.probes
    unless failed.isEmpty do
      Work.fail (.probesFailed (failed.map Probe.label))

/-- Measures the start of an image; only the builtin way knows how often. -/
def measureStart (c : Config) (p : Project) (r : Runner) (image : String) :
    Work (Option Nat) := do
  let name := c.testing.performanceTests.benchmarkTool
  match Benchmark.ofName? name with
  | none => Work.fail (.unknownBenchmark name)
  | some .hyperfine =>
    if r.executes then
      let _ ← p.ensureStateDir ""
    r.perform ⟨"performance:hyperfine", p.hyperfineCommand image, "hyperfine benchmark failed"⟩
    return none
  | some .builtin =>
    r.performAll <| List.replicate benchmarkRuns
      ⟨"performance:startup", p.startCommand image, "container startup failed"⟩
    return some benchmarkRuns

/-- The enabled tests, in order; `process` is the number that names the containers. -/
def runImageTests (c : Config) (p : Project) (r : Runner) (process : Nat) (arch : String) :
    Work TrialReport := do
  let image := c.imageReference arch
  let structureTested := c.testing.structureTests.enabled
  if structureTested then
    r.perform ⟨"test:structure", c.structureCommand p image, "structure tests failed"⟩
  let probed := c.testing.integrationTests.enabled
  if probed then
    Work.within "integration tests failed" (probeImage c p r process image)
  let startupRuns ←
    if c.testing.performanceTests.enabled then
      Work.within "performance tests failed" (measureStart c p r image)
    else pure none
  return { structureTested, probed, startupRuns }

end ImagePipeline
