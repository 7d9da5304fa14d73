import ImagePipeline.Build.Run
import ImagePipeline.CommandLine.Request
import ImagePipeline.Config.Check
import ImagePipeline.Dockerfile.Generate
import ImagePipeline.Metrics.Exposition
import ImagePipeline.NewProject
import ImagePipeline.Runner.DryRun
import ImagePipeline.Runner.System
import ImagePipeline.Scan.Run
import ImagePipeline.Trial.Run

/-! Doing what a command line asks for. -/
namespace ImagePipeline.CommandLine

/-- What a command finds around it. -/
structure Surroundings where
  current : Path
  time : Timestamp
  process : Nat
  searchPath : String

/-- What the commands share. -/
structure Context where
  project : Project
  runner : Runner
  surroundings : Surroundings

namespace Context

def of (around : Surroundings) (s : Settings) : Context where
  project := Project.discover around.current s.projectDir (some s.config)
  runner :=
    if s.dryRun then DryRun.runner {}
    else systemRunner ⟨around.searchPath, around.current, around.process⟩
  surroundings := around

def configLabel (x : Context) : String := (x.project.relative x.project.configPath).text

/-- A path of the command line, seen from the project. -/
def resolve (x : Context) (p : Path) : Path := x.project.path p.text

def log (x : Context) (level : LogLevel) (message : String) : Work Unit :=
  Work.log { level, target := "foundry", message, fields := [("file", x.configLabel)] }

def logAll (x : Context) (level : LogLevel) : List String → Work Unit
  | [] => return ()
  | message :: rest => do
    x.log level message
    x.logAll level rest

def load (x : Context) : Work Config := Config.load x.project.configPath

/-- Logs everything that is wrong; the answer are the errors. -/
def review (x : Context) (c : Config) : Work (List ConfigError) := do
  let found := c.check x.project (← Work.files)
  x.logAll .warning (found.warnings.map ConfigWarning.message)
  x.logAll .error (found.errors.map ConfigError.message)
  return found.errors

/-- The configuration, which must be sound. -/
def loadSound (x : Context) (action : String) : Work Config := do
  let c ← x.load
  let errors ← x.review c
  unless errors.isEmpty do
    Work.fail (.invalidConfig action errors.length)
  return c

/-- A warning without a file. -/
def warn (message : String) (fields : List (String × String)) : Work Unit :=
  Work.log { level := .warning, target := "foundry", message, fields }

def init (x : Context) (preset : Preset) (force : Bool) : Work Unit := do
  let _ ← NewProject.init x.project preset force
  let steps := NewProject.nextSteps
  let numbered := (List.range steps.length).zip steps |>.map fun (i, step) =>
    toString (i + 1) ++ ". " ++ step
  Work.print <| Text.ofLines (["Project initialized!", "", "Next steps:"] ++ numbered)

def validate (x : Context) : Work Unit := do
  let c ← x.load
  let errors ← x.review c
  if errors.isEmpty then Work.printLine "Configuration is valid"
  else Work.fail (.validationFailed errors.length)

def generate (x : Context) (bases : List BaseImage) (template : Option Path) : Work Unit := do
  let c ← x.load
  let skeleton := match template with
    | some path => x.resolve path
    | none => x.project.skeletonPath
  let files ← Dockerfile.generate c x.project skeleton bases x.surroundings.time
  Work.print <| Text.ofLines (files.map fun g => (x.project.relative g.path).text)
  let flawed := files.countP fun g => !g.issues.isEmpty
  if 0 < flawed then
    warn "Generated Dockerfiles have structural warnings" [("files", toString flawed)]

/-- Writes a file that the command line names, with the directories on the way. -/
def writeNamed (x : Context) (kind failure : String) (path : Path) (content : String) :
    Work Unit := do
  let path := x.resolve path
  Work.createParent ("Failed to create " ++ kind ++ " directory: ") path
  Work.within (failure ++ ": " ++ path.text) (Work.writeText path content)

def build (x : Context) (r : BuildRequest) : Work Unit := do
  let c ← x.loadSound "build"
  let _ ← runBuild c x.project x.runner ⟨!r.noPush, r.architectures⟩
  let metrics := (← get).metrics
  if let some path := r.metricsJson then
    x.writeNamed "metrics" "Failed to create metrics file" path (Json.pretty metrics.json)
  if let some path := r.metricsExposition then
    x.writeNamed "metrics" "Failed to write Prometheus metrics" path metrics.exposition

/-- The architecture that is asked for, which must be configured, or the usual one. -/
def targetArch (c : Config) : Option String → Work String
  | some arch =>
    match c.selectArchitectures [arch] with
    | .ok _ => return arch
    | .error cause => Work.fail cause
  | none => return c.defaultArch

def test (x : Context) (arch : Option String) : Work Unit := do
  let c ← x.loadSound "test"
  let arch ← targetArch c arch
  let report ← runImageTests c x.project x.runner x.surroundings.process arch
  if report.isEmpty then
    warn "No test suites are enabled in the configuration" []

def scan (x : Context) (arch : Option String) : Work Unit := do
  let c ← x.loadSound "scan"
  let arch ← targetArch c arch
  runScans c x.project x.runner arch
  if (← get).metrics.steps.isEmpty then
    warn "No security scans are enabled in the configuration" []

/-- A missing configuration counts as one without tools. -/
def loadIfPresent (x : Context) : Work Config := do
  if (← Work.files).pathExists x.project.configPath then x.load
  else
    x.log .warning "Config file not found, assuming no tools"
    return {}

def matrix (x : Context) (r : MatrixRequest) : Work Unit := do
  let c ← x.loadIfPresent
  let mode := (MatrixMode.ofName? r.mode r.bases).getD .changed
  match ← planMatrix c x.project x.runner mode r.maxParallel with
  | .empty reason => Work.printLine (Json.compact reason.json)
  | .build bases m =>
    match r.output with
    | some path => x.writeNamed "matrix" "Failed to create matrix file" path (Json.pretty m.json)
    | none => Work.printLine (Json.compact m.json)
    if r.summary then
      Work.printLine ("Would build: " ++ Text.commaSeparated (bases.map BaseImage.name))
      Work.printLine ("Matrix: " ++ toString m.jobs.length ++ " jobs")

def lock (x : Context) (output : Path) : Work Unit := do
  let c ← x.loadSound "generate lockfile"
  let l ← BuildLock.compute c x.project x.surroundings.time
  l.write (x.resolve output)

end Context

def commandName : String := "foundry"

def versionNumber : String := "0.1.0"

def tagline : String := "A powerful container image builder with E2E CI/CD"

def commandNames : List String := Request.defaults.map Request.name

def helpText : String :=
  let usage := "Usage: " ++ commandName ++ " [OPTIONS] [COMMAND]"
  Text.ofLines ([tagline, "", usage, "", "Commands:"] ++ commandNames.map fun name => "  " ++ name)

/-- What makes a shell complete the names of the commands. -/
def completionText (shell : String) : String :=
  let names := " ".intercalate commandNames
  match shell with
  | "bash" => "complete -W '" ++ names ++ "' " ++ commandName ++ "\n"
  | "fish" => "complete -c " ++ commandName ++ " -f -a '" ++ names ++ "'\n"
  | "zsh" => "compctl -k '(" ++ names ++ ")' " ++ commandName ++ "\n"
  | _ => "# " ++ names ++ "\n"

def perform (x : Context) : Request → Work Unit
  | .init preset force => x.init preset force
  | .validate => x.validate
  | .generate bases template => x.generate bases template
  | .build r => x.build r
  | .test arch => x.test arch
  | .scan arch => x.scan arch
  | .matrix r => x.matrix r
  | .lock output => x.lock output
  | .completions shell => Work.print (completionText shell)
  | .version => Work.print (Text.ofLines ["ImageFoundry v" ++ versionNumber, tagline])

/-- How a command line ends: its exit code, what it says about a failure, and the
session. -/
structure Ending where
  code : Nat
  failure : Option String
  session : Session

/-- The request for traces that cannot be met. -/
def traceWarning (endpoint : String) : String :=
  "warning: --otlp-endpoint '" ++ endpoint ++ "' requested but OpenTelemetry support is " ++
    "not enabled. Rebuild with --features otel.\n"

def run (around : Surroundings) (files : FileTree) (words : List String) : Ending :=
  match parse words with
  | .error .misuse => ⟨2, none, { files }⟩
  | .error .help => ⟨0, none, { files, printed := helpText }⟩
  | .error .version => ⟨0, none, { files, printed := commandName ++ " " ++ versionNumber ++ "\n" }⟩
  | .ok (settings, request) =>
    let start : Session := {
      files, logged := (settings.traceEndpoint.map traceWarning).getD "" }
    match request with
    | none => ⟨0, none, { start with printed := helpText ++ "\n" }⟩
    | some request =>
      match (perform (Context.of around settings) request).run.run start with
      | (.ok _, session) => ⟨0, none, session⟩
      | (.error f, session) =>
        ⟨if f.cause == .clockOverflow then 101 else 1, some f.report, session⟩

end ImagePipeline.CommandLine
