import ImagePipeline.Duration
import ImagePipeline.OrderedMap

/-! Counts of the steps of a run. -/
namespace ImagePipeline

/-- How often a step ran and failed, and how many milliseconds it took. -/
structure StepMetrics where
  calls : Nat := 0
  failures : Nat := 0
  totalMillis : Float := 0
  maxMillis : Float := 0

structure Metrics where
  steps : OrderedMap StepMetrics := .empty
  totalMillis : Float := 0

/-- A step that has started; it counts once it has stopped. -/
structure Timer where
  step : String
  failed : Bool := false
  deriving DecidableEq, Repr

namespace Timer

def markFailed (t : Timer) : Timer := { t with failed := true }

end Timer

namespace Metrics

def step (m : Metrics) (name : String) : StepMetrics := (m.steps.get? name).getD {}

/-- Counts a timer that has stopped after some milliseconds. -/
def stop (m : Metrics) (t : Timer) (millis : Float) : Metrics :=
  let s := m.step t.step
  { m with steps := m.steps.insert t.step {
      calls := s.calls + 1
      failures := if t.failed then s.failures + 1 else s.failures
      totalMillis := s.totalMillis + millis
      maxMillis := if s.maxMillis < millis then millis else s.maxMillis } }

def recordTotal (m : Metrics) (d : Duration) : Metrics := { m with totalMillis := d.millis }

end Metrics

end ImagePipeline
