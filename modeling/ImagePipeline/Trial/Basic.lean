import ImagePipeline.Build.Basic

/-! The tests of an image: its structure, that its tools start, and how fast it
starts. -/
namespace ImagePipeline

def defaultStructureFile : String := "tests/structure-tests.yaml"

def defaultProbeTimeout : Duration := .ofSeconds 600

def benchmarkRuns : Nat := 5

/-- A shell command that succeeds in an image that holds a tool. -/
structure Probe where
  label : String
  script : String
  deriving DecidableEq, Repr

/-- The probes of the tools that have one. -/
def toolProbes : List (ToolCategory × Probe) := [
  (.languages, ⟨"go", "go version"⟩),
  (.languages, ⟨"nodejs", "node --version"⟩),
  (.languages, ⟨"python", "python3 --version"⟩),
  (.security, ⟨"trivy", "trivy --version"⟩),
  (.security, ⟨"cosign", "cosign version"⟩),
  (.security, ⟨"syft", "syft version"⟩),
  (.devops, ⟨"docker", "docker --version"⟩),
  (.devops, ⟨"kubectl", "kubectl version --client"⟩),
  (.devops, ⟨"helm", "helm version"⟩),
  (.devops, ⟨"terraform", "terraform version"⟩)]

/-- The probe that every image passes that starts at all. -/
def smokeProbe : Probe := ⟨"smoke", "true"⟩

/-- How the start of an image is measured. -/
inductive Benchmark where
  | builtin
  | hyperfine
  deriving DecidableEq, Repr

namespace Benchmark

def all : List Benchmark := [builtin, hyperfine]

def name : Benchmark → String
  | builtin => "builtin"
  | hyperfine => "hyperfine"

/-- Case and surrounding blanks do not matter; a blank name means the builtin one. -/
def ofName? (s : String) : Option Benchmark :=
  let name := Text.trimmed s
  if name.isEmpty then some builtin
  else all.find? fun b => Text.sameIgnoringAsciiCase b.name name

end Benchmark

namespace Config

/-- The smoke probe and those of the installed tools. -/
def probes (c : Config) : List Probe :=
  smokeProbe :: (toolProbes.filter fun (k, probe) => c.toolInstalled k probe.label).map Prod.snd

/-- The time limit of each probe. -/
def probeTimeout (c : Config) : Except Cause Duration :=
  let text := Text.trimmed c.testing.integrationTests.timeout
  if text.isEmpty then .ok defaultProbeTimeout
  else match Duration.parse? text with
    | some limit => .ok limit
    | none => .error (.invalidTimeout text)

def structureCommand (c : Config) (p : Project) (image : String) : Command :=
  let file := Text.trimmed c.testing.structureTests.config
  { program := "container-structure-test"
    args := ["test", "--image", image, "--config",
      if file.isEmpty then defaultStructureFile else file]
    workingDir := some p.root }

end Config

namespace Probe

/-- The container of a probe, named after the process that starts it. -/
def container (probe : Probe) (process : Nat) : String :=
  "foundry-test-" ++ probe.label ++ "-" ++ toString process

def command (probe : Probe) (p : Project) (image : String) (process : Nat) (limit : Duration) :
    Command where
  program := "docker"
  args := ["run", "--rm", "--name", probe.container process, "--entrypoint", "sh", image, "-c",
    probe.script]
  workingDir := some p.root
  timeLimit := some limit

/-- Removes the container, which goes on after its command has been stopped. -/
def removeCommand (probe : Probe) (p : Project) (process : Nat) : Command where
  program := "docker"
  args := ["rm", "-f", probe.container process]
  workingDir := some p.root

end Probe

namespace Project

def startCommand (p : Project) (image : String) : Command where
  program := "docker"
  args := ["run", "--rm", image, "true"]
  workingDir := some p.root

def hyperfineCommand (p : Project) (image : String) : Command where
  program := "hyperfine"
  args := ["--warmup", "1", "--runs", toString benchmarkRuns, "--export-json",
    stateDirName ++ "/perf.json", (p.startCommand image).line]
  workingDir := some p.root

end Project

end ImagePipeline
