import ImagePipeline.CommandLine.Option
import ImagePipeline.Lock
import ImagePipeline.Matrix.Plan
import ImagePipeline.Preset
import ImagePipeline.Text.Digits

/-! What the words of a command line ask for. -/
namespace ImagePipeline.CommandLine

/-- What holds for every command. -/
structure Settings where
  config : Path := ⟨defaultConfigFile⟩
  projectDir : Option Path := none
  dryRun : Bool := false
  traceEndpoint : Option String := none
  deriving DecidableEq, Repr

structure BuildRequest where
  architectures : List String := []
  noPush : Bool := false
  printMetrics : Bool := false
  metricsJson : Option Path := none
  metricsExposition : Option Path := none
  deriving DecidableEq, Repr

structure MatrixRequest where
  mode : String := "changed"
  bases : List BaseImage := []
  maxParallel : Nat := defaultMaxParallel
  output : Option Path := none
  summary : Bool := false
  deriving DecidableEq, Repr

def shells : List String := ["bash", "elvish", "fish", "powershell", "zsh"]

inductive Request where
  | init (preset : Preset) (force : Bool)
  | validate
  | generate (bases : List BaseImage) (template : Option Path)
  | build (r : BuildRequest)
  | test (arch : Option String)
  | scan (arch : Option String)
  | matrix (r : MatrixRequest)
  | lock (output : Path)
  | completions (shell : String)
  | version
  deriving DecidableEq, Repr

namespace Request

/-- The name that asks for it. -/
def name : Request → String
  | init _ _ => "init"
  | validate => "validate"
  | generate _ _ => "generate"
  | build _ => "build"
  | test _ => "test"
  | scan _ => "scan"
  | matrix _ => "matrix"
  | lock _ => "lock"
  | completions _ => "completions"
  | version => "version"

/-- The requests with nothing further said. -/
def defaults : List Request :=
  [init .standard false, validate, generate [] none, build {}, test none, scan none, matrix {},
    lock ⟨defaultLockFile⟩, completions "", version]

def ofName? (s : String) : Option Request := defaults.find? fun r => r.name == s

end Request

/-- A base image as it stands in a command line: its exact name. -/
def exactBase? (s : String) : Option BaseImage := BaseImage.all.find? fun b => b.name == s

/-- What reading a command changes. -/
structure Reading where
  settings : Settings := {}
  request : Request

/-- Switches that every command takes. -/
def sharedSwitches {α : Type} (change : (Settings → Settings) → α → α) : List (Switch α) := [
  { long := "config"
    effect := .single fun s a => some (change (fun c => { c with config := ⟨s⟩ }) a) },
  { long := "project-dir", short := some 'C'
    effect := .single fun s a => some (change (fun c => { c with projectDir := some ⟨s⟩ }) a) },
  { long := "dry-run"
    effect := .flag fun a => change (fun c => { c with dryRun := true }) a },
  { long := "otlp-endpoint"
    effect := .single fun s a => some (change (fun c => { c with traceEndpoint := some s }) a) }]

def Reading.onSettings (f : Settings → Settings) (r : Reading) : Reading :=
  { r with settings := f r.settings }

/-- An effect on the request alone. -/
def onRequest (f : String → Request → Option Request) (s : String) (r : Reading) : Option Reading :=
  (f s r.request).map fun request => { r with request }

def flagOn (f : Request → Request) (r : Reading) : Reading := { r with request := f r.request }

def initSwitches : List (Switch Reading) := [
  { long := "preset"
    effect := .single <| onRequest fun s r => match r with
      | .init _ force => (Preset.ofName? s).map fun preset => .init preset force
      | _ => none },
  { long := "force"
    effect := .flag <| flagOn fun r => match r with
      | .init preset _ => .init preset true
      | r => r }]

def generateSwitches : List (Switch Reading) := [
  { long := "template"
    effect := .single <| onRequest fun s r => match r with
      | .generate bases _ => some (.generate bases (some ⟨s⟩))
      | _ => none }]

def onBuild (f : BuildRequest → BuildRequest) : Request → Request
  | .build b => .build (f b)
  | r => r

def buildSwitches : List (Switch Reading) := [
  { long := "arch"
    effect := .repeated <| onRequest fun s r =>
      some (onBuild (fun b => { b with architectures := b.architectures ++ [s] }) r) },
  { long := "no-push", effect := .flag <| flagOn <| onBuild fun b => { b with noPush := true } },
  { long := "print-metrics"
    effect := .flag <| flagOn <| onBuild fun b => { b with printMetrics := true } },
  { long := "metrics-json"
    effect := .single <| onRequest fun s r =>
      some (onBuild (fun b => { b with metricsJson := some ⟨s⟩ }) r) },
  { long := "metrics-prometheus"
    effect := .single <| onRequest fun s r =>
      some (onBuild (fun b => { b with metricsExposition := some ⟨s⟩ }) r) }]

/-- Chooses one architecture. -/
def archSwitches : List (Switch Reading) := [
  { long := "arch"
    effect := .single <| onRequest fun s r => match r with
      | .test _ => some (.test (some s))
      | .scan _ => some (.scan (some s))
      | _ => none }]

def onMatrix (f : MatrixRequest → Option MatrixRequest) : Request → Option Request
  | .matrix m => (f m).map .matrix
  | _ => none

def matrixSwitches : List (Switch Reading) := [
  { long := "mode"
    effect := .single <| onRequest fun s => onMatrix fun m =>
      (MatrixMode.ofName? s []).map fun _ => { m with mode := s } },
  { long := "images"
    effect := .several <| onRequest fun s => onMatrix fun m =>
      (exactBase? s).map fun b => { m with bases := m.bases ++ [b] } },
  { long := "max-parallel"
    effect := .single <| onRequest fun s => onMatrix fun m =>
      (Text.word64? s.toList).map fun n => { m with maxParallel := n } },
  { long := "output"
    effect := .single <| onRequest fun s => onMatrix fun m => some { m with output := some ⟨s⟩ } },
  { long := "summary"
    effect := .flag <| flagOn fun r => match r with
      | .matrix m => .matrix { m with summary := true }
      | r => r }]

def lockSwitches : List (Switch Reading) := [
  { long := "output"
    effect := .single <| onRequest fun s r => match r with
      | .lock _ => some (.lock ⟨s⟩)
      | _ => none }]

def switchesOf : Request → List (Switch Reading)
  | .init _ _ => initSwitches
  | .generate _ _ => generateSwitches
  | .build _ => buildSwitches
  | .test _ | .scan _ => archSwitches
  | .matrix _ => matrixSwitches
  | .lock _ => lockSwitches
  | .validate | .completions _ | .version => []

/-- What an argument without a switch adds to a request. -/
def withArgument (s : String) : Request → Option Request
  | .generate bases template => (exactBase? s).map fun b => .generate (bases ++ [b]) template
  | .completions "" => if shells.contains s then some (.completions s) else none
  | _ => none

def formOf (r : Request) : Form Reading where
  switches := sharedSwitches Reading.onSettings ++ switchesOf r
  argument s reading := onRequest withArgument s reading

/-- The switches that can precede the command. -/
def mainForm : Form Settings where
  switches := sharedSwitches fun f s => f s
  halts := [("help", 'h', .help), ("version", 'V', .version)]

/-- Nothing that a request needs is missing. -/
def isComplete : Request → Bool
  | .completions "" => false
  | _ => true

/-- Reads the words; no request asks for help, too. A setting that is repeated behind the
command counts there. -/
def parse (words : List String) : Except Halt (Settings × Option Request) := do
  let (p, rest) ← mainForm.read (fun _ => true) { value := {} } words
  match rest with
  | [] => return (p.value, none)
  | "help" :: names =>
    match names with
    | [] => throw .help
    | name :: _ =>
      throw (if (Request.ofName? name).isSome || name == "help" then .help else .misuse)
  | name :: rest =>
    match Request.ofName? name with
    | none => throw .misuse
    | some request =>
      let (q, _) ← (formOf request).read (fun _ => false)
        { value := { settings := p.value, request } } rest
      if isComplete q.value.request then return (q.value.settings, some q.value.request)
      else throw .misuse

end ImagePipeline.CommandLine
