import ImagePipeline.Metrics.Collector
import ImagePipeline.Proofs.Metrics.Counts
import Mathlib.Data.Finset.Card
import Mathlib.Data.List.Induction
import Mathlib.Data.List.TakeWhile

/-! Metrics of timers that overlap. What has been done to a timer is read off the actions behind its
start. After every action of every program, metrics count just the timers that have been dropped,
each once and under its own step, and as failures those that had been marked by then. -/
namespace ImagePipeline

namespace TimerAction

def startedStep? : TimerAction → Option String
  | start step => some step
  | _ => none

def marks (n : Nat) : TimerAction → Bool
  | markFailed timer => timer == n
  | _ => false

def drops (n : Nat) : TimerAction → Bool
  | drop timer _ => timer == n
  | _ => false

/-- The steps of the timers that have been started, in order. -/
def startedSteps (as : List TimerAction) : List String := as.filterMap startedStep?

/-- The actions behind the start of a timer. -/
def sinceStart (n : Nat) : List TimerAction → List TimerAction
  | [] => []
  | start _ :: as => match n with
    | 0 => as
    | n + 1 => sinceStart n as
  | _ :: as => sinceStart n as

def isMarked (n : Nat) (as : List TimerAction) : Bool := (sinceStart n as).any (marks n)

def isDropped (n : Nat) (as : List TimerAction) : Bool := (sinceStart n as).any (drops n)

/-- Whether a timer has been marked before it was dropped. -/
def isFailed (n : Nat) (as : List TimerAction) : Bool :=
  ((sinceStart n as).takeWhile fun a => !a.drops n).any (marks n)

variable {as : List TimerAction} {a : TimerAction} {n : Nat}

/-! ### One more action -/

theorem startedSteps_concat :
    startedSteps (as ++ [a]) = startedSteps as ++ a.startedStep?.toList := by
  rw [startedSteps, List.filterMap_append, startedSteps, List.filterMap_cons]
  cases a.startedStep? <;> rfl

theorem sinceStart_concat (n : Nat) (as : List TimerAction) (a : TimerAction) :
    sinceStart n (as ++ [a]) =
      if n < (startedSteps as).length then sinceStart n as ++ [a] else [] := by
  fun_induction sinceStart n as with
  | case1 n =>
    cases a with
    | start step => cases n <;> rfl
    | markFailed | drop | recordTotal => rfl
  | case2 step as => rfl
  | case3 step as n ih =>
    have steps : (startedSteps (start step :: as)).length = (startedSteps as).length + 1 := rfl
    simp only [List.cons_append, sinceStart, ih, steps, Nat.succ_eq_add_one,
      Nat.add_lt_add_iff_right]
  | case4 n b as other ih =>
    have steps : startedSteps (b :: as) = startedSteps as := by
      cases b with
      | start step => exact absurd rfl (other step)
      | markFailed | drop | recordTotal => rfl
    rw [List.cons_append, sinceStart, ih, steps]
    exact other

theorem sinceStart_of_unstarted (unstarted : (startedSteps as).length ≤ n) :
    sinceStart n as = [] := by
  induction as using List.reverseRecOn with
  | nil => rfl
  | append_singleton as a ih =>
    rw [startedSteps_concat, List.length_append] at unstarted
    rw [sinceStart_concat, if_neg (by omega)]

theorem any_sinceStart_concat (test : TimerAction → Bool) :
    (sinceStart n (as ++ [a])).any test =
      ((sinceStart n as).any test || decide (n < (startedSteps as).length) && test a) := by
  rw [sinceStart_concat]
  split
  · simp [*]
  · rename_i unstarted
    simp [sinceStart_of_unstarted (Nat.le_of_not_lt unstarted), unstarted]

theorem isMarked_concat : isMarked n (as ++ [a]) =
    (isMarked n as || decide (n < (startedSteps as).length) && a.marks n) :=
  any_sinceStart_concat (marks n)

theorem isDropped_concat : isDropped n (as ++ [a]) =
    (isDropped n as || decide (n < (startedSteps as).length) && a.drops n) :=
  any_sinceStart_concat (drops n)

theorem lt_of_isDropped (dropped : isDropped n as = true) : n < (startedSteps as).length := by
  refine Nat.lt_of_not_le fun unstarted => ?_
  rw [isDropped, sinceStart_of_unstarted unstarted] at dropped
  cases dropped

/-- What is marked while it has not been dropped has failed. -/
theorem isFailed_of_running (running : isDropped n as = false) : isFailed n as = isMarked n as := by
  have all : ((sinceStart n as).takeWhile fun a => !a.drops n) = sinceStart n as := by
    refine List.takeWhile_eq_self_iff.mpr fun a member => ?_
    simpa using List.any_eq_false.mp running a member
  rw [isFailed, all, isMarked]

/-- Whether a timer has failed is settled when it is dropped. -/
theorem isFailed_concat (settled : isDropped n as = true ∨ a.marks n = false) :
    isFailed n (as ++ [a]) = isFailed n as := by
  unfold isFailed
  rw [sinceStart_concat]
  split
  · rw [List.takeWhile_append]
    split
    · rename_i full
      -- the whole list is taken just where the timer is still running
      have whole := (List.takeWhile_prefix _).eq_of_length full
      rcases settled with dropped | unmarked
      · obtain ⟨b, member, drops⟩ := List.any_eq_true.mp dropped
        have kept := List.takeWhile_eq_self_iff.mp whole b member
        simp [drops] at kept
      · rw [whole, List.any_append, List.takeWhile_cons]
        split <;> simp [unmarked]
    · rfl
  · rename_i unstarted
    rw [sinceStart_of_unstarted (Nat.le_of_not_lt unstarted)]

/-! ### What comes after a start -/

theorem sinceStart_newest (as : List TimerAction) (step : String) (later : List TimerAction) :
    sinceStart (startedSteps as).length (as ++ start step :: later) = later := by
  induction as with
  | nil => rfl
  | cons b as ih => cases b <;> exact ih

theorem startedSteps_newest (as : List TimerAction) (step : String) (later : List TimerAction) :
    (startedSteps (as ++ start step :: later))[(startedSteps as).length]? = some step := by
  simp [startedSteps, startedStep?]

theorem any_sinceStart_newest {as later : List TimerAction} (step : String)
    {test : TimerAction → Bool} (apart : ∀ a ∈ later, test a = false) :
    (sinceStart (startedSteps as).length (as ++ start step :: later)).any test = false := by
  rw [sinceStart_newest]
  exact List.any_eq_false.mpr fun a member => ne_true_of_eq_false (apart a member)

/-! ### Timers that have been dropped -/

def droppedTimers (as : List TimerAction) : Finset Nat :=
  {n ∈ Finset.range (startedSteps as).length | isDropped n as = true}

def runningTimers (as : List TimerAction) : Finset Nat :=
  {n ∈ Finset.range (startedSteps as).length | ¬isDropped n as = true}

/-- The timers of a step that have been dropped. -/
def droppedOf (name : String) (as : List TimerAction) : Finset Nat :=
  {n ∈ droppedTimers as | (startedSteps as)[n]? = some name}

/-- Those that had been marked by then. -/
def failedOf (name : String) (as : List TimerAction) : Finset Nat :=
  {n ∈ droppedOf name as | isFailed n as = true}

theorem mem_droppedTimers : n ∈ droppedTimers as ↔ isDropped n as = true := by
  rw [droppedTimers, Finset.mem_filter, Finset.mem_range]
  exact and_iff_right_of_imp lt_of_isDropped

theorem mem_droppedTimers_concat : n ∈ droppedTimers (as ++ [a]) ↔
    n ∈ droppedTimers as ∨ n < (startedSteps as).length ∧ a.drops n = true := by
  rw [mem_droppedTimers, mem_droppedTimers, isDropped_concat, Bool.or_eq_true, Bool.and_eq_true,
    decide_eq_true_iff]

theorem droppedTimers_drop (started : n < (startedSteps as).length) (millis : Float) :
    droppedTimers (as ++ [drop n millis]) = insert n (droppedTimers as) := by
  ext m
  simp only [mem_droppedTimers_concat, drops, beq_iff_eq, Finset.mem_insert]
  constructor
  · rintro (before | ⟨-, same⟩)
    · exact .inr before
    · exact .inl same.symm
  · rintro (rfl | before)
    · exact .inr ⟨started, rfl⟩
    · exact .inl before

/-- The step of a timer is known when it is dropped, and so is whether it has failed. -/
theorem droppedOf_concat (name : String) : droppedOf name (as ++ [a]) =
    {n ∈ droppedTimers (as ++ [a]) | (startedSteps as)[n]? = some name} := by
  refine Finset.filter_congr fun n member => ?_
  have started : n < (startedSteps as).length := by
    rcases mem_droppedTimers_concat.mp member with before | ⟨started, -⟩
    · exact lt_of_isDropped (mem_droppedTimers.mp before)
    · exact started
  rw [startedSteps_concat, List.getElem?_append_left started]

theorem failedOf_concat (name : String) : failedOf name (as ++ [a]) =
    {n ∈ droppedOf name (as ++ [a]) | isFailed n as = true} := by
  refine Finset.filter_congr fun n member => ?_
  rw [isFailed_concat]
  rcases mem_droppedTimers_concat.mp (Finset.mem_filter.mp member).1 with before | ⟨-, drops⟩
  · exact .inl (mem_droppedTimers.mp before)
  · cases a with
    | drop => exact .inr rfl
    | start | markFailed | recordTotal => cases drops

end TimerAction

/-! ### What a collector knows -/

namespace Collector

open TimerAction

variable {as : List TimerAction} {a : TimerAction} {n : Nat}

theorem after_append (as later : List TimerAction) :
    after (as ++ later) = later.foldl act (after as) := by
  rw [after, List.foldl_append, ← after]

theorem after_concat (as : List TimerAction) (a : TimerAction) :
    after (as ++ [a]) = (after as).act a := after_append as [a]

theorem modify_mapIdx {α β : Type} (l : List α) (f : Nat → α → β) (g : β → β) (k : Nat) :
    (l.mapIdx f).modify k g = l.mapIdx fun n a => if k = n then g (f n a) else f n a := by
  refine List.ext_getElem? fun n => ?_
  rw [List.getElem?_modify, List.getElem?_mapIdx, List.getElem?_mapIdx]
  cases l[n]? <;> rfl

theorem timers_drop (c : Collector) (n : Nat) (millis : Float) :
    (c.drop n millis).timers = c.timers.modify n fun t => { t with recorded := true } := by
  unfold drop
  split
  · rename_i missing
    rw [List.modify_eq_self (List.getElem?_eq_none_iff.mp missing)]
  · rename_i t found
    split
    · rename_i recorded
      refine List.ext_getElem? fun m => ?_
      rw [List.getElem?_modify]
      by_cases same : n = m
      · subst same
        simp [found, ← recorded]
      · cases c.timers[m]? <;> simp [same]
    · rfl

/-- A timer knows its step, whether it has been marked and whether it has been dropped. -/
theorem timers_after (as : List TimerAction) : (after as).timers =
    (startedSteps as).mapIdx fun n step => ⟨⟨step, isMarked n as⟩, isDropped n as⟩ := by
  induction as using List.reverseRecOn with
  | nil => rfl
  | append_singleton as a ih =>
    rw [after_concat, startedSteps_concat]
    simp only [isMarked_concat, isDropped_concat]
    cases a with
    | start step =>
      have unstarted : sinceStart (startedSteps as).length as = [] :=
        sinceStart_of_unstarted le_rfl
      simp [act, start, ih, startedStep?, marks, drops, List.mapIdx_append, isMarked, isDropped,
        unstarted]
    | markFailed k =>
      simp only [act, markFailed, ih, startedStep?, Option.toList_none, List.append_nil,
        modify_mapIdx]
      refine List.mapIdx_eq_mapIdx_iff.mpr fun n started => ?_
      by_cases same : k = n <;> simp [started, marks, drops, same, Timer.markFailed]
    | drop k millis =>
      simp only [act, timers_drop, ih, startedStep?, Option.toList_none, List.append_nil,
        modify_mapIdx]
      refine List.mapIdx_eq_mapIdx_iff.mpr fun n started => ?_
      by_cases same : k = n <;> simp [started, marks, drops, same]
    | recordTotal d =>
      simp only [act, ih, startedStep?, Option.toList_none, List.append_nil, marks, drops,
        Bool.and_false, Bool.or_false]

theorem getElem?_timers_after (as : List TimerAction) (n : Nat) : (after as).timers[n]? =
    (startedSteps as)[n]?.map fun step => ⟨⟨step, isMarked n as⟩, isDropped n as⟩ := by
  rw [timers_after, List.getElem?_mapIdx]

theorem act_drop (as : List TimerAction) (n : Nat) (millis : Float) :
    ((after as).act (.drop n millis)).metrics =
      match (startedSteps as)[n]? with
      | none => (after as).metrics
      | some step =>
        if isDropped n as then (after as).metrics
        else (after as).metrics.stop ⟨step, isFailed n as⟩ millis := by
  rw [act, drop, getElem?_timers_after]
  cases (startedSteps as)[n]? with
  | none => rfl
  | some step =>
    cases dropped : isDropped n as with
    | true => simp
    | false => simp [isFailed_of_running dropped]

/-- A timer that is running is counted when it is dropped. -/
theorem act_drop_running {step : String} (named : (startedSteps as)[n]? = some step)
    (running : isDropped n as = false) (millis : Float) :
    ((after as).act (.drop n millis)).metrics =
      (after as).metrics.stop ⟨step, isMarked n as⟩ millis := by
  rw [act_drop, named, running, isFailed_of_running running]
  rfl

/-- Either no timer is dropped for the first time, and the counts stay, or one is, and it is
counted. -/
theorem act_cases (as : List TimerAction) (a : TimerAction) :
    (droppedTimers (as ++ [a]) = droppedTimers as ∧
      (after (as ++ [a])).metrics.steps = (after as).metrics.steps) ∨
    ∃ n step millis, n ∉ droppedTimers as ∧ (startedSteps as)[n]? = some step ∧
      droppedTimers (as ++ [a]) = insert n (droppedTimers as) ∧
      (after (as ++ [a])).metrics = (after as).metrics.stop ⟨step, isFailed n as⟩ millis := by
  rw [after_concat]
  cases a with
  | start | markFailed | recordTotal =>
    refine .inl ⟨Finset.ext fun m => ?_, rfl⟩
    simp [mem_droppedTimers_concat, drops]
  | drop n millis =>
    rw [act_drop]
    cases found : (startedSteps as)[n]? with
    | none =>
      -- a timer that has not been started cannot be dropped
      refine .inl ⟨Finset.ext fun m => ?_, rfl⟩
      have missing := List.getElem?_eq_none_iff.mp found
      simp only [mem_droppedTimers_concat, drops, beq_iff_eq, or_iff_left_iff_imp]
      rintro ⟨started, rfl⟩
      omega
    | some step =>
      have started := (List.getElem?_eq_some_iff.mp found).1
      have droppedNow := droppedTimers_drop started millis
      cases dropped : isDropped n as with
      | true =>
        refine .inl ⟨?_, rfl⟩
        rw [droppedNow, Finset.insert_eq_self.mpr (mem_droppedTimers.mpr dropped)]
      | false =>
        refine .inr ⟨n, step, millis, ?_, found, droppedNow, rfl⟩
        rw [mem_droppedTimers, dropped]
        exact Bool.false_ne_true

end Collector

/-- What metrics say of timers: a step has been called for each of its timers that has been dropped
and has failed for each that was marked by then, and every other timer is still running. -/
structure Metrics.CountTimers (m : Metrics) (as : List TimerAction) : Prop where
  calls (name : String) : m.calls name = (TimerAction.droppedOf name as).card
  failures (name : String) : m.failures name = (TimerAction.failedOf name as).card
  bounded (name : String) : m.failures name ≤ m.calls name
  balance : m.totalCalls + (TimerAction.runningTimers as).card =
    (TimerAction.startedSteps as).length

namespace Collector

open TimerAction

variable {as : List TimerAction} {a : TimerAction}

theorem calls_after (as : List TimerAction) (name : String) :
    (after as).metrics.calls name = (droppedOf name as).card := by
  induction as using List.reverseRecOn with
  | nil => rfl
  | append_singleton as a ih =>
    rw [droppedOf_concat]
    obtain ⟨same, steps⟩ | ⟨n, step, millis, new, found, dropped, metrics⟩ := act_cases as a
    · rw [same, ← droppedOf, ← ih, Metrics.calls, Metrics.step, steps]
      rfl
    · rw [metrics, Metrics.calls_stop, ih, dropped, Finset.filter_insert, ← droppedOf, found]
      by_cases here : name = step
      · have uncounted : n ∉ droppedOf name as := fun member => new (Finset.mem_filter.mp member).1
        rw [if_pos here, if_pos (congrArg some here.symm), Finset.card_insert_of_notMem uncounted]
      · rw [if_neg here, if_neg fun same => here (Option.some.inj same).symm, Nat.add_zero]

theorem failures_after (as : List TimerAction) (name : String) :
    (after as).metrics.failures name = (failedOf name as).card := by
  induction as using List.reverseRecOn with
  | nil => rfl
  | append_singleton as a ih =>
    rw [failedOf_concat, droppedOf_concat]
    obtain ⟨same, steps⟩ | ⟨n, step, millis, new, found, dropped, metrics⟩ := act_cases as a
    · rw [same, ← droppedOf, ← failedOf, ← ih, Metrics.failures, Metrics.step, steps]
      rfl
    · rw [metrics, Metrics.failures_stop, ih, dropped, Finset.filter_insert, ← droppedOf, found]
      by_cases here : name = step
      · rw [if_pos (congrArg some here.symm), Finset.filter_insert, ← failedOf]
        have uncounted : n ∉ failedOf name as := fun member =>
          new (Finset.mem_filter.mp (Finset.mem_filter.mp member).1).1
        by_cases failed : isFailed n as = true
        · rw [if_pos ⟨here, failed⟩, if_pos failed, Finset.card_insert_of_notMem uncounted]
        · rw [if_neg fun both => failed both.2, if_neg failed, Nat.add_zero]
      · rw [if_neg fun both => here both.1, if_neg fun same => here (Option.some.inj same).symm,
          ← failedOf, Nat.add_zero]

theorem totalCalls_after (as : List TimerAction) :
    (after as).metrics.totalCalls = (droppedTimers as).card := by
  induction as using List.reverseRecOn with
  | nil => rfl
  | append_singleton as a ih =>
    obtain ⟨same, steps⟩ | ⟨n, step, millis, new, -, dropped, metrics⟩ := act_cases as a
    · rw [same, ← ih, Metrics.totalCalls, steps]
      rfl
    · rw [metrics, Metrics.totalCalls_stop, ih, dropped, Finset.card_insert_of_notMem new]

theorem countTimers_after (as : List TimerAction) : (after as).metrics.CountTimers as where
  calls := calls_after as
  failures := failures_after as
  bounded name := by
    rw [calls_after, failures_after]
    exact Finset.card_filter_le _ _
  balance := by
    rw [totalCalls_after, droppedTimers, runningTimers,
      Finset.card_filter_add_card_filter_not, Finset.card_range]

end Collector

/-! ### Programs -/

namespace Timed

open TimerAction Collector

variable {α β ε : Type}

@[simp] theorem pure_eq_done (a : α) : (pure a : Timed α) = done a := rfl

@[simp] theorem run_bind (p : Timed α) (f : α → Timed β) (c : Collector) :
    (p >>= f).run c = (f (p.run c).1).run (p.run c).2 := by
  change (p.bind f).run c = _
  induction p generalizing c with
  | done a => rfl
  | act action next ih => exact ih _ _
  | snapshot next ih => exact ih _ _

@[simp] theorem actions_bind (p : Timed α) (f : α → Timed β) (c : Collector) :
    (p >>= f).actions c = p.actions c ++ (f (p.run c).1).actions (p.run c).2 := by
  change (p.bind f).actions c = _
  induction p generalizing c with
  | done a => rfl
  | act action next ih => exact congrArg (action :: ·) (ih _ _)
  | snapshot next ih => exact ih _ _

/-- What a program leaves behind is what its actions do. -/
theorem run_eq_foldl (p : Timed α) (c : Collector) :
    (p.run c).2 = (p.actions c).foldl Collector.act c := by
  induction p generalizing c with
  | done a => rfl
  | act action next ih => exact ih _ _
  | snapshot next ih => exact ih _ _

theorem run_after (p : Timed α) (as : List TimerAction) :
    (p.run (after as)).2 = after (as ++ p.actions (after as)) := by
  rw [run_eq_foldl, after_append]

/-- The timer is started before the program and dropped behind it. -/
theorem actions_time (step : String) (millis : Float) (program : Timed (Except ε α))
    (c : Collector) : (time step millis program).actions c =
      .start step :: program.actions (c.start step) ++
        (if (program.run (c.start step)).1.isOk then [] else [.markFailed c.timers.length]) ++
        [.drop c.timers.length millis] := by
  simp only [time, actions_bind, start, run, actions, Collector.act]
  split <;> simp [markFailed, drop, actions, run]

theorem run_time (step : String) (millis : Float) (program : Timed (Except ε α)) (c : Collector) :
    ((time step millis program).run c).1 = (program.run (c.start step)).1 := by
  simp only [time, run_bind, start, run, Collector.act]
  split <;> rfl

/-- A program neither marks nor drops a timer. -/
def LeavesAlone (n : Nat) (program : Timed α) (c : Collector) : Prop :=
  ∀ a ∈ program.actions c, a.marks n = false ∧ a.drops n = false

instance {n : Nat} {program : Timed α} {c : Collector} : Decidable (program.LeavesAlone n c) :=
  inferInstanceAs (Decidable (∀ a ∈ program.actions c, a.marks n = false ∧ a.drops n = false))

/-- A program that leaves its own timer alone is counted behind all that it counts itself, as
failed if it fails. -/
theorem metrics_time (as : List TimerAction) (step : String) (millis : Float)
    (program : Timed (Except ε α))
    (apart : program.LeavesAlone (startedSteps as).length ((after as).start step)) :
    ((time step millis program).run (after as)).2.metrics =
      (program.run ((after as).start step)).2.metrics.stop
        ⟨step, !(program.run ((after as).start step)).1.isOk⟩ millis := by
  have unmarked : isMarked _ _ = false :=
    any_sinceStart_newest step fun a member => (apart a member).1
  have running : isDropped _ _ = false :=
    any_sinceStart_newest step fun a member => (apart a member).2
  have named := startedSteps_newest as step (program.actions ((after as).start step))
  have started := (List.getElem?_eq_some_iff.mp named).1
  have reached : (program.run ((after as).start step)).2 =
      after (as ++ .start step :: program.actions ((after as).start step)) := by
    rw [run_eq_foldl, after_append]
    rfl
  have newest : (after as).timers.length = (startedSteps as).length := by
    rw [timers_after, List.length_mapIdx]
  rw [run_after, actions_time, newest, ← List.append_assoc, ← List.append_assoc, after_concat,
    reached]
  -- from here on only the number of the timer matters, and what was done while it was running
  unfold LeavesAlone at apart
  generalize (startedSteps as).length = n at *
  generalize as ++ .start step :: program.actions ((after as).start step) = later at *
  cases (program.run ((after as).start step)).1 with
  | ok a =>
    rw [Except.isOk, Except.toBool, if_pos rfl, List.append_nil, act_drop_running named running,
      unmarked]
    rfl
  | error e =>
    have marked : isMarked n (later ++ [.markFailed n]) = true := by
      simp [isMarked_concat, marks, started]
    have still : isDropped n (later ++ [.markFailed n]) = false := by
      simp [isDropped_concat, running, drops]
    have named' : (startedSteps (later ++ [.markFailed n]))[n]? = some step := by
      simpa [startedSteps_concat, startedStep?] using named
    rw [Except.isOk, Except.toBool, if_neg Bool.false_ne_true, act_drop_running named' still,
      marked, after_concat]
    rfl

/-- One call of the step is added to what the program counts itself, and one failure if it fails. -/
theorem counts_time {as : List TimerAction} {step : String} {program : Timed (Except ε α)}
    (millis : Float)
    (apart : program.LeavesAlone (startedSteps as).length ((after as).start step))
    (name : String) :
    ((time step millis program).run (after as)).2.metrics.calls name =
      (program.run ((after as).start step)).2.metrics.calls name + (if name = step then 1 else 0) ∧
    ((time step millis program).run (after as)).2.metrics.failures name =
      (program.run ((after as).start step)).2.metrics.failures name +
        (if name = step ∧ (program.run ((after as).start step)).1.isOk = false then 1 else 0) := by
  simp only [metrics_time as step millis program apart, Metrics.calls_stop, Metrics.failures_stop,
    Bool.not_eq_true', and_self]

/-- After every action of a program, behind any others, metrics count each timer that has been
dropped once and under its own step, and as a failure if it was marked by then. To time a program
does not change its result. It is one more call of the step, and one more failure if the program
fails, unless the program takes hold of the timer that it is timed with. -/
theorem timers_counted_once (as : List TimerAction) (program : Timed α) (step : String)
    (millis : Float) (timed : Timed (Except ε β)) :
    (∀ k, let seen := (as ++ program.actions (after as)).take k
      (after seen).metrics.CountTimers seen) ∧
    (program.run (after as)).2 = after (as ++ program.actions (after as)) ∧
    ((time step millis timed).run (after as)).1 = (timed.run ((after as).start step)).1 ∧
    (timed.LeavesAlone (startedSteps as).length ((after as).start step) → ∀ name,
      ((time step millis timed).run (after as)).2.metrics.calls name =
        (timed.run ((after as).start step)).2.metrics.calls name +
          (if name = step then 1 else 0) ∧
      ((time step millis timed).run (after as)).2.metrics.failures name =
        (timed.run ((after as).start step)).2.metrics.failures name +
          (if name = step ∧ (timed.run ((after as).start step)).1.isOk = false then 1 else 0)) :=
  ⟨fun _ => countTimers_after _, run_after program as, run_time step millis timed (after as),
    counts_time millis⟩

/-- A push that fails, in a step that goes well all the same. -/
def nestedDemo : Timed (Except String Unit) := do
  let _ ← time "push" 1 (done (Except.error "gone" : Except String Unit))
  return .ok ()

/-- The step in which the push has failed is counted behind it, and as a success. -/
theorem nestedDemo_counted :
    nestedDemo.LeavesAlone 0 (Collector.start {} "build") ∧
    ((time "build" 2 nestedDemo).run {}).2.metrics.calls "build" = 1 ∧
    ((time "build" 2 nestedDemo).run {}).2.metrics.failures "build" = 0 ∧
    ((time "build" 2 nestedDemo).run {}).2.metrics.calls "push" = 1 ∧
    ((time "build" 2 nestedDemo).run {}).2.metrics.failures "push" = 1 := by
  have apart : nestedDemo.LeavesAlone 0 (Collector.start {} "build") := by decide
  obtain ⟨-, -, -, counted⟩ := timers_counted_once [] nestedDemo "build" 2 nestedDemo
  obtain ⟨calls, failures⟩ := counted apart "build"
  obtain ⟨calls', failures'⟩ := counted apart "push"
  exact ⟨apart, calls.trans (by decide), failures.trans (by decide), calls'.trans (by decide),
    failures'.trans (by decide)⟩

end Timed

end ImagePipeline
