import ImagePipeline.Metrics.Basic
import ImagePipeline.Proofs.OrderedMap
import Mathlib.Algebra.Ring.Nat

/-! What metrics say behind a step that has stopped: the step is counted under its own name, no
other one is, and the sums over all names grow by one. -/
namespace ImagePipeline

namespace OrderedMap

variable {α : Type}

/-- The sum of a measure over all values. -/
def sum (measure : α → Nat) (m : OrderedMap α) : Nat :=
  (m.entries.map fun e => measure e.2).sum

/-- A new value takes the place of the old one in a sum. -/
theorem sum_insertEntry (measure : α → Nat) (name : String) (value : α) {l : List (String × α)}
    (ascending : l.Pairwise fun a b => a.1 < b.1) :
    ((insertEntry name value l).map fun e => measure e.2).sum + ((l.lookup name).elim 0 measure) =
      (l.map fun e => measure e.2).sum + measure value := by
  induction l with
  | nil => simp [insertEntry]
  | cons head rest ih =>
    obtain ⟨first, kept⟩ := head
    obtain ⟨after, behind⟩ := List.pairwise_cons.mp ascending
    rw [insertEntry]
    split
    · rename_i before
      have missing : ((first, kept) :: rest).lookup name = none := by
        refine lookup_eq_none_of_before (List.forall_mem_cons.mpr ⟨before, fun e member => ?_⟩)
        exact String.lt_trans before (after e member)
      rw [missing]
      simp [Nat.add_comm]
    · split
      · rename_i replaced
        subst replaced
        simp
        omega
      · rename_i apart
        have further := ih behind
        simp only [List.lookup_cons, beq_eq_false_iff_ne.mpr apart, List.map_cons, List.sum_cons]
        omega

theorem sum_insert (measure : α → Nat) (m : OrderedMap α) (name : String) (value : α) :
    (m.insert name value).sum measure + (m.get? name).elim 0 measure =
      m.sum measure + measure value :=
  sum_insertEntry measure name value m.ascending

end OrderedMap

namespace Metrics

variable (m : Metrics) (t : Timer) (millis : Float)

/-- How often a step has been counted. -/
def calls (name : String) : Nat := (m.step name).calls

def failures (name : String) : Nat := (m.step name).failures

/-- How often any step has been counted. -/
def totalCalls : Nat := m.steps.sum StepMetrics.calls

def totalFailures : Nat := m.steps.sum StepMetrics.failures

/-- Nothing but the step itself is changed. -/
theorem steps_stop :
    (m.stop t millis).steps = m.steps.insert t.step ((m.stop t millis).step t.step) := by
  simp only [step, stop, OrderedMap.get?_insert, if_true, Option.getD_some]

theorem step_stop (name : String) (other : name ≠ t.step) :
    (m.stop t millis).step name = m.step name := by
  rw [step, steps_stop, OrderedMap.get?_insert, if_neg other, step]

theorem calls_stop (name : String) :
    (m.stop t millis).calls name = m.calls name + if name = t.step then 1 else 0 := by
  by_cases same : name = t.step
  · subst same
    simp [calls, step, stop, OrderedMap.get?_insert]
  · simp only [calls, step_stop m t millis name same, same, if_false, Nat.add_zero]

theorem failures_stop (name : String) :
    (m.stop t millis).failures name =
      m.failures name + if name = t.step ∧ t.failed = true then 1 else 0 := by
  by_cases same : name = t.step
  · subst same
    cases failed : t.failed <;> simp [failures, step, stop, OrderedMap.get?_insert, failed]
  · simp only [failures, step_stop m t millis name same, same, false_and, if_false, Nat.add_zero]

/-- What a step that has stopped adds to a sum over all steps. -/
theorem sum_stop (measure : StepMetrics → Nat) (none : measure {} = 0) :
    (m.stop t millis).steps.sum measure + measure (m.step t.step) =
      m.steps.sum measure + measure ((m.stop t millis).step t.step) := by
  have before : (m.steps.get? t.step).elim 0 measure = measure (m.step t.step) := by
    unfold step
    cases m.steps.get? t.step with
    | none => exact none.symm
    | some found => rfl
  rw [← before, steps_stop]
  exact m.steps.sum_insert measure t.step _

theorem totalCalls_stop : (m.stop t millis).totalCalls = m.totalCalls + 1 := by
  have total := m.sum_stop t millis StepMetrics.calls rfl
  have here := m.calls_stop t millis t.step
  rw [if_pos rfl] at here
  unfold totalCalls
  unfold calls at here
  omega

theorem totalFailures_stop :
    (m.stop t millis).totalFailures = m.totalFailures + if t.failed = true then 1 else 0 := by
  have total := m.sum_stop t millis StepMetrics.failures rfl
  have here := m.failures_stop t millis t.step
  simp only [true_and] at here
  unfold totalFailures
  unfold failures at here
  omega

end Metrics

end ImagePipeline
