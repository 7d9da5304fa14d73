import ImagePipeline.Metrics.Basic

/-! Timers that are under way. Programs start them, mark those whose step has failed and drop them,
in any order and inside each other; a timer is counted when it is dropped. -/
namespace ImagePipeline

/-- A timer that a program has been given. -/
structure HeldTimer extends Timer where
  /-- Whether it has been counted. -/
  recorded : Bool := false
  deriving DecidableEq, Repr

/-- Metrics with the timers that have been started for them. A timer is known by its number, which
is that of the timers before it. -/
structure Collector where
  metrics : Metrics := {}
  timers : List HeldTimer := []

/-- What can be done with a collector. -/
inductive TimerAction where
  | start (step : String)
  | markFailed (timer : Nat)
  | drop (timer : Nat) (millis : Float)
  | recordTotal (d : Duration)

namespace Collector

def start (c : Collector) (step : String) : Collector := { c with timers := c.timers ++ [{ step }] }

def markFailed (c : Collector) (n : Nat) : Collector :=
  { c with timers := c.timers.modify n fun t => { t with toTimer := t.toTimer.markFailed } }

/-- Counts the timer, if that has not been done. -/
def drop (c : Collector) (n : Nat) (millis : Float) : Collector :=
  match c.timers[n]? with
  | none => c
  | some t =>
    if t.recorded then c
    else {
      metrics := c.metrics.stop t.toTimer millis
      timers := c.timers.modify n fun t => { t with recorded := true } }

def act (c : Collector) : TimerAction → Collector
  | .start step => c.start step
  | .markFailed n => c.markFailed n
  | .drop n millis => c.drop n millis
  | .recordTotal d => { c with metrics := c.metrics.recordTotal d }

/-- A new collector behind some actions. -/
def after (actions : List TimerAction) : Collector := actions.foldl act {}

end Collector

/-- A program that works with a collector. -/
inductive Timed (α : Type) where
  | done (result : α)
  /-- Goes on with how many timers had been started before, which is the number of one that is
  started now. -/
  | act (action : TimerAction) (next : Nat → Timed α)
  /-- Goes on with what the metrics are. -/
  | snapshot (next : Metrics → Timed α)

namespace Timed

variable {α β ε : Type}

def bind : Timed α → (α → Timed β) → Timed β
  | done a, f => f a
  | act action next, f => act action fun n => (next n).bind f
  | snapshot next, f => snapshot fun m => (next m).bind f

instance : Monad Timed where
  pure := done
  bind := bind

def start (step : String) : Timed Nat := act (.start step) done

def markFailed (timer : Nat) : Timed Unit := act (.markFailed timer) fun _ => done ()

def drop (timer : Nat) (millis : Float) : Timed Unit := act (.drop timer millis) fun _ => done ()

/-- Times a program as a step, which fails if the program does. -/
def time (step : String) (millis : Float) (program : Timed (Except ε α)) : Timed (Except ε α) := do
  let timer ← start step
  let result ← program
  unless result.isOk do markFailed timer
  drop timer millis
  return result

def run : Timed α → Collector → α × Collector
  | done a, c => (a, c)
  | act action next, c => (next c.timers.length).run (c.act action)
  | snapshot next, c => (next c.metrics).run c

/-- What a program does with a collector, in order. -/
def actions : Timed α → Collector → List TimerAction
  | done _, _ => []
  | act action next, c => action :: (next c.timers.length).actions (c.act action)
  | snapshot next, c => (next c.metrics).actions c

end Timed

end ImagePipeline
