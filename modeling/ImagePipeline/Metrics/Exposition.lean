import ImagePipeline.Decimal.Fixed
import ImagePipeline.Decimal.Shortest
import ImagePipeline.Json.Basic
import ImagePipeline.Metrics.Basic

/-! The texts in which the counts of a run are written: one that a monitoring system
reads, and one in JSON. -/
namespace ImagePipeline.Metrics

/-- Describes a family of samples. -/
def family (name help kind : String) : String :=
  "# HELP " ++ name ++ " " ++ help ++ "\n# TYPE " ++ name ++ " " ++ kind ++ "\n"

def callsName : String := "foundry_step_calls_total"

def failuresName : String := "foundry_step_failures_total"

def secondsName : String := "foundry_step_duration_seconds_total"

def maxSecondsName : String := "foundry_step_duration_seconds_max"

def runSecondsName : String := "foundry_run_duration_seconds"

/-- A sample of a step. -/
def sample (name step value : String) : String :=
  name ++ "\x7bstep=\"" ++ step ++ "\"\x7d " ++ value ++ "\n"

/-- Milliseconds in seconds, to the microsecond. -/
def secondsText (millis : Float) : String := Decimal.fixed 6 (millis / 1000)

def stepText (step : String) (m : StepMetrics) : String :=
  sample callsName step (toString m.calls) ++
  sample failuresName step (toString m.failures) ++
  sample secondsName step (secondsText m.totalMillis) ++
  sample maxSecondsName step (secondsText m.maxMillis)

/-- The families of the steps, their samples in the order of the names, and the run. -/
def exposition (m : Metrics) : String :=
  family callsName "Step invocation count" "counter" ++
  family failuresName "Failed step invocations" "counter" ++
  family secondsName "Accumulated step duration in seconds" "counter" ++
  family maxSecondsName "Maximum step duration in seconds" "gauge" ++
  String.join (m.steps.entries.map fun (step, s) => stepText step s) ++
  family runSecondsName "Total command duration" "gauge" ++
  runSecondsName ++ " " ++ secondsText m.totalMillis ++ "\n"

/-- Nothing but finite numbers can be written. -/
def millisNumber (millis : Float) : Json.Value :=
  if millis.isFinite then .number (Decimal.shortest millis) else .null

def stepJson (s : StepMetrics) : Json.Value :=
  .object [("calls", Json.nat s.calls), ("failures", Json.nat s.failures),
    ("total_duration_ms", millisNumber s.totalMillis),
    ("max_duration_ms", millisNumber s.maxMillis)]

def json (m : Metrics) : Json.Value :=
  .object [("steps", .object (m.steps.entries.map fun (step, s) => (step, stepJson s))),
    ("total_duration_ms", millisNumber m.totalMillis)]

end ImagePipeline.Metrics
