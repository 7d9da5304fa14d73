import ImagePipeline.Metrics.Exposition
import ImagePipeline.Proofs.Duration
import ImagePipeline.Proofs.Metrics.SampleText
import Mathlib.Algebra.Ring.Nat
import Mathlib.Data.List.Forall2

/-! Reading the exposition of metrics. The names of the steps stand between quotes as they are, so
the counts are read back just if no name holds a character that would have to be escaped. -/
namespace ImagePipeline

/-! ### Numbers -/

namespace Yaml.Scalar

theorem decimalParts?_whole {digits : List Char} (all : ∀ c ∈ digits, c.isDigit = true)
    (given : digits ≠ []) : (decimalParts? digits).isSome = true := by
  have whole : digits.takeWhile Char.isDigit = digits := List.takeWhile_eq_self_iff.mpr all
  have rest : digits.dropWhile Char.isDigit = [] := List.dropWhile_eq_nil_iff.mpr all
  simp [decimalParts?, whole, rest, given]

theorem decimalParts?_point {whole fraction : List Char} (left : ∀ c ∈ whole, c.isDigit = true)
    (right : ∀ c ∈ fraction, c.isDigit = true) (given : whole ≠ []) :
    (decimalParts? (whole ++ '.' :: fraction)).isSome = true := by
  have behind : fraction.takeWhile Char.isDigit = fraction := List.takeWhile_eq_self_iff.mpr right
  have rest : fraction.dropWhile Char.isDigit = [] := List.dropWhile_eq_nil_iff.mpr right
  simp [decimalParts?, List.takeWhile_append_of_pos left, List.dropWhile_append_of_pos left, behind,
    rest, given]

end Yaml.Scalar

namespace Metrics

theorem isValue_of_parts {s : List Char} (parts : (Yaml.Scalar.decimalParts? s).isSome = true)
    (written : ∀ c ∈ s, c.isDigit = true ∨ c = '.') : IsValue s ∧ IsValue ('-' :: s) := by
  have letters : ∀ c ∈ s, c.isAlphanum = true ∨ c = '.' ∨ c = '-' := by
    intro c member
    rcases written c member with digit | point
    · exact .inl (by simp [Char.isAlphanum, digit])
    · exact .inr (.inl point)
  refine ⟨⟨?_, letters⟩, ⟨by simp [isNumber, parts], ?_⟩⟩
  · unfold isNumber
    split
    · exact absurd (written '+' List.mem_cons_self) (by decide)
    · exact absurd (written '-' List.mem_cons_self) (by decide)
    · simp [parts]
  · intro c member
    rcases List.mem_cons.mp member with rfl | behind
    · exact .inr (.inr rfl)
    · exact letters c behind

theorem isValue_toString (n : Nat) : IsValue (toString n).toList := by
  rw [Nat.toString_eq_ofList_toDigits, String.toList_ofList]
  have parts := Yaml.Scalar.decimalParts?_whole (Text.isDigit_of_mem_toDigits (n := n))
    Nat.toDigits_ne_nil
  exact (isValue_of_parts parts fun c member => .inl (Text.isDigit_of_mem_toDigits c member)).1

theorem isDigit_of_mem_padded {width n : Nat} :
    ∀ c ∈ (Text.padded 10 width n).toList, c.isDigit = true := by
  intro c member
  rw [Text.padded, String.toList_ofList, List.mem_append, List.mem_replicate] at member
  rcases member with ⟨-, rfl⟩ | digit
  · rfl
  · exact Text.isDigit_of_mem_toDigits c digit

theorem isValue_unitsText (places units : Nat) :
    IsValue (Decimal.unitsText places units).toList ∧
      IsValue ('-' :: (Decimal.unitsText places units).toList) := by
  have text : (Decimal.unitsText places units).toList =
      Nat.toDigits 10 (units / Nat.pow 10 places) ++
        '.' :: (Text.padded 10 places (units % Nat.pow 10 places)).toList := by
    simp [Decimal.unitsText]
  rw [text]
  apply isValue_of_parts
  · exact Yaml.Scalar.decimalParts?_point Text.isDigit_of_mem_toDigits isDigit_of_mem_padded
      Nat.toDigits_ne_nil
  · intro c member
    rcases List.mem_append.mp member with whole | behind
    · exact .inl (Text.isDigit_of_mem_toDigits c whole)
    · rcases List.mem_cons.mp behind with point | fraction
      · exact .inr point
      · exact .inl (isDigit_of_mem_padded c fraction)

theorem isValue_word {word : String} (known : word ∈ ["NaN", "inf", "-inf"]) :
    IsValue word.toList := by
  simp only [List.mem_cons, List.not_mem_nil, or_false] at known
  obtain rfl | rfl | rfl := known
  all_goals
    refine ⟨by decide +kernel, ?_⟩
    simp only [String.reduceToList, List.mem_cons, List.not_mem_nil, or_false, forall_eq_or_imp,
      forall_eq]
    decide

/-- Every number of seconds is written as one. -/
theorem isValue_fixed (places : Nat) (x : Float) : IsValue (Decimal.fixed places x).toList := by
  obtain ⟨positive, negative⟩ :=
    isValue_unitsText places ((Decimal.Magnitude.ofBits x.toBits.toNat).units places)
  unfold Decimal.fixed
  dsimp only
  split
  · exact isValue_word (by simp)
  · split <;> split
    · exact isValue_word (by simp)
    · rwa [String.toList_append]
    · exact isValue_word (by simp)
    · rwa [String.empty_append]

/-! ### Single steps -/

theorem isName_stepLabel : isName "step".toList = true := by decide

theorem isName_metrics :
    ∀ metric ∈ [callsName, failuresName, secondsName, maxSecondsName, runSecondsName],
      isName metric.toList = true := by
  simp only [callsName, failuresName, secondsName, maxSecondsName, runSecondsName,
    List.forall_mem_cons, String.reduceToList]
  decide

theorem feed_not_mem_name {name : List Char} (named : isName name = true) : '\n' ∉ name := by
  cases name with
  | nil => exact List.not_mem_nil
  | cons c cs =>
    rw [isName, Bool.and_eq_true, List.all_eq_true] at named
    intro member
    rcases List.mem_cons.mp member with rfl | behind
    · exact absurd named.1 (by decide)
    · exact absurd (named.2 _ behind) (by decide)

def stepSample (metric step value : String) : Sample where
  metric := metric.toList
  labels := [("step".toList, step.toList)]
  value := value.toList

theorem sample_toList (metric step value : String) :
    (sample metric step value).toList = metric.toList ++ '\x7b' :: ("step".toList ++ '=' :: '"' ::
      (step.toList ++ '"' :: '\x7d' :: ' ' :: (value.toList ++ ['\n']))) := by
  unfold sample
  simp

theorem whole_of_feed (s : String) : Text.Whole (s ++ "\n").toList :=
  .inr (Text.endsWithLineFeed_iff.mpr ⟨s.toList, String.toList_append⟩)

theorem whole_sample (metric step value : String) : Text.Whole (sample metric step value).toList :=
  whole_of_feed _

/-- A name that needs no escape leaves its sample as it is. -/
theorem readLines?_sample {metric step value : String} (named : isName metric.toList = true)
    (valued : IsValue value.toList) (plain : Unescaped step.toList) :
    readLines? (sample metric step value).toList = some [stepSample metric step value] := by
  have line : (sample metric step value).toList =
      (metric.toList ++ '\x7b' :: ("step".toList ++ '=' :: '"' ::
        (escaped step.toList ++ '"' :: '\x7d' :: ' ' :: value.toList))) ++ ['\n'] := by
    rw [sample_toList, escaped_of_unescaped plain]
    simp
  rw [line, readLines?_line, readLine?_sample named isName_stepLabel valued]
  · rfl
  · rw [escaped_of_unescaped plain]
    simp only [List.mem_append, List.mem_cons, not_or]
    exact ⟨feed_not_mem_name named, by decide, by decide, by decide, by decide,
      fun member => (plain _ member).2.2 rfl, by decide, by decide, by decide,
      valued.apart (by decide)⟩

def stepSamples (step : String) (m : StepMetrics) : List Sample := [
  stepSample callsName step (toString m.calls),
  stepSample failuresName step (toString m.failures),
  stepSample secondsName step (secondsText m.totalMillis),
  stepSample maxSecondsName step (secondsText m.maxMillis)]

theorem whole_stepText (step : String) (m : StepMetrics) :
    Text.Whole (stepText step m).toList := by
  simp only [stepText, String.toList_append]
  exact ((((whole_sample _ _ _).append (whole_sample _ _ _)).append (whole_sample _ _ _)).append
    (whole_sample _ _ _))

theorem readLines?_stepText {step : String} (plain : Unescaped step.toList) (m : StepMetrics) :
    readLines? (stepText step m).toList = some (stepSamples step m) := by
  have calls := readLines?_sample (isName_metrics callsName (by decide))
    (isValue_toString m.calls) plain
  have failures := readLines?_sample (isName_metrics failuresName (by decide))
    (isValue_toString m.failures) plain
  have seconds := readLines?_sample (isName_metrics secondsName (by decide))
    (isValue_fixed 6 (m.totalMillis / 1000)) plain
  have most := readLines?_sample (isName_metrics maxSecondsName (by decide))
    (isValue_fixed 6 (m.maxMillis / 1000)) plain
  simp only [stepText, String.toList_append, List.append_assoc]
  exact readLines?_together (whole_sample _ _ _) calls <|
    readLines?_together (whole_sample _ _ _) failures <|
    readLines?_together (whole_sample _ _ _) seconds most

/-- The first line of a step goes on behind the opening quote with its name, as far as the name
holds no line feed. -/
theorem stepText_first_line (step : String) (m : StepMetrics) :
    ∃ quoted, ((stepText step m).toList.takeWhile fun c => c != '\n') =
        callsName.toList ++ '\x7b' :: ("step".toList ++ '=' :: '"' :: quoted) ∧
      quoted <+: step.toList ++ '"' :: '\x7d' :: ' ' :: (toString m.calls).toList := by
  obtain ⟨rest, written⟩ : ∃ rest, (stepText step m).toList =
      (callsName.toList ++ '\x7b' :: ("step".toList ++ ['=', '"'])) ++
        ((step.toList ++ '"' :: '\x7d' :: ' ' :: (toString m.calls).toList) ++ '\n' :: rest) := by
    refine ⟨(sample failuresName step (toString m.failures) ++
      (sample secondsName step (secondsText m.totalMillis) ++
        sample maxSecondsName step (secondsText m.maxMillis))).toList, ?_⟩
    rw [stepText, String.append_assoc, String.append_assoc, String.toList_append, sample_toList]
    simp
  have unfed : ∀ c ∈ callsName.toList ++ '\x7b' :: ("step".toList ++ ['=', '"']),
      (c != '\n') = true := by
    simp [callsName]
  rw [written, List.takeWhile_append_of_pos unfed]
  refine ⟨_, ?_, Text.takeWhile_prefix_of_mark '\n' _ rest⟩
  simp only [List.append_assoc, List.cons_append, List.nil_append]

/-- Where a step is read at all, its first sample is one of its calls, and its name there is no
longer than the step's. -/
theorem readLines?_stepText_first {step : String} {m : StepMetrics} {samples : List Sample}
    (read : readLines? (stepText step m).toList = some samples) :
    ∃ first more value labels, samples = first :: more ∧ first.metric = callsName.toList ∧
      first.labels = ("step".toList, value) :: labels ∧ value.length ≤ step.length ∧
      (value.length = step.length → Unescaped step.toList) := by
  have named := isName_metrics callsName (by decide)
  obtain ⟨quoted, line, inFront⟩ := stepText_first_line step m
  obtain ⟨front, back, here, rfl⟩ := readLines?_first read
  rw [line, readLine?_named named] at here
  obtain ⟨first, found, rfl⟩ := Option.map_eq_some_iff.mp here
  obtain ⟨value, behind, labels, rfl, metric, labelled⟩ := first_label named isName_stepLabel found
  have unquoted : '"' ∉ '\x7d' :: ' ' :: (toString m.calls).toList := by
    simp only [List.mem_cons, not_or]
    exact ⟨by decide, by decide, (isValue_toString m.calls).apart (by decide)⟩
  obtain ⟨bound, plain⟩ := length_value_of_prefix unquoted inFront
  rw [String.length_toList] at bound plain
  exact ⟨first, back, value, labels, rfl, metric, labelled, bound, plain⟩

/-! ### The whole text -/

theorem readLines?_flatMap {α : Type} {l : List α} {g : α → List Char}
    (whole : ∀ e ∈ l, Text.Whole (g e)) {rest : List Char} {samples : List Sample} :
    readLines? (l.flatMap g ++ rest) = some samples ↔
      ∃ parts back, List.Forall₂ (fun e part => readLines? (g e) = some part) l parts ∧
        readLines? rest = some back ∧ samples = parts.flatten ++ back := by
  induction l generalizing samples with
  | nil =>
    rw [List.flatMap_nil, List.nil_append]
    constructor
    · intro read
      exact ⟨[], samples, .nil, read, rfl⟩
    · rintro ⟨parts, back, each, read, rfl⟩
      cases each
      exact read
  | cons e l ih =>
    obtain ⟨first, others⟩ := List.forall_mem_cons.mp whole
    rw [List.flatMap_cons, List.append_assoc, readLines?_whole first]
    constructor
    · intro read
      obtain ⟨front, here, read⟩ := Option.bind_eq_some_iff.mp read
      obtain ⟨middle, behind, rfl⟩ := Option.map_eq_some_iff.mp read
      obtain ⟨parts, back, each, ending, rfl⟩ := (ih others).mp behind
      exact ⟨front :: parts, back, .cons here each, ending, by simp⟩
    · rintro ⟨parts, back, each, ending, rfl⟩
      cases each with
      | cons here each =>
        rw [here, Option.bind_some, (ih others).mpr ⟨_, back, each, ending, rfl⟩]
        simp

theorem readLines?_family {name help kind : String} (named : '\n' ∉ name.toList)
    (helped : '\n' ∉ help.toList) (kinded : '\n' ∉ kind.toList) (rest : List Char) :
    readLines? ((family name help kind).toList ++ rest) = readLines? rest := by
  have lines : (family name help kind).toList ++ rest =
      ('#' :: (" HELP ".toList ++ (name.toList ++ ' ' :: help.toList))) ++ '\n' ::
        (('#' :: (" TYPE ".toList ++ (name.toList ++ ' ' :: kind.toList))) ++ '\n' :: rest) := by
    unfold family
    simp
  have comment : ∀ s : List Char, '\n' ∉ s → readLines? ('#' :: s) = some [] := by
    intro s unfed
    rw [readLines?, Text.splitAt_of_not_mem (by simp [unfed])]
    simp [readLine?_comment]
  rw [lines, readLines?_append, readLines?_append, comment _ (by simp [named, helped]),
    comment _ (by simp [named, kinded])]
  simp

def runSample (m : Metrics) : Sample where
  metric := runSecondsName.toList
  labels := []
  value := (secondsText m.totalMillis).toList

theorem readLines?_run (m : Metrics) :
    readLines? (runSecondsName.toList ++ (' ' :: (secondsText m.totalMillis).toList ++ ['\n'])) =
      some [runSample m] := by
  have named := isName_metrics runSecondsName (by decide)
  have valued : IsValue (secondsText m.totalMillis).toList := isValue_fixed 6 (m.totalMillis / 1000)
  rw [← List.append_assoc, readLines?_line, readLine?_unlabelled named valued]
  · rfl
  · simp only [List.mem_append, List.mem_cons, not_or]
    exact ⟨feed_not_mem_name named, by decide, valued.apart (by decide)⟩

/-- The samples of the steps come first, each step read on its own, and the run is the last. -/
theorem readLines?_exposition (m : Metrics) {samples : List Sample} :
    readLines? m.exposition.toList = some samples ↔
      ∃ parts, List.Forall₂ (fun e part => readLines? (stepText e.1 e.2).toList = some part)
          m.steps.entries parts ∧
        samples = parts.flatten ++ [runSample m] := by
  have whole : ∀ e ∈ m.steps.entries, Text.Whole (stepText e.1 e.2).toList :=
    fun e _ => whole_stepText e.1 e.2
  have last : readLines? ((family runSecondsName "Total command duration" "gauge").toList ++
      (runSecondsName.toList ++ (" ".toList ++ ((secondsText m.totalMillis).toList ++
        "\n".toList)))) = some [runSample m] := by
    rw [readLines?_family (by decide) (by decide) (by decide)]
    exact readLines?_run m
  unfold exposition
  simp only [String.toList_append, List.append_assoc, String.toList_join, List.flatMap_map]
  rw [readLines?_family (by decide) (by decide) (by decide),
    readLines?_family (by decide) (by decide) (by decide),
    readLines?_family (by decide) (by decide) (by decide),
    readLines?_family (by decide) (by decide) (by decide), readLines?_flatMap whole, last]
  constructor
  · rintro ⟨parts, back, each, run, rfl⟩
    cases run
    exact ⟨parts, each, rfl⟩
  · rintro ⟨parts, each, rfl⟩
    exact ⟨parts, [runSample m], each, rfl, rfl⟩

/-! ### Counts -/

/-- The labels and the numbers of the samples of a counter. -/
def counts (metric : String) (samples : List Sample) :
    List (List (List Char × List Char) × Option Nat) :=
  (samples.filter fun s => s.metric == metric.toList).map fun s => (s.labels, Text.decimal? s.value)

/-- Samples that count what the metrics count: each step under its own name, and nothing else. -/
structure Counted (m : Metrics) (samples : List Sample) : Prop where
  calls : (counts callsName samples).Perm
    (m.steps.entries.map fun (step, s) => ([("step".toList, step.toList)], some s.calls))
  failures : (counts failuresName samples).Perm
    (m.steps.entries.map fun (step, s) => ([("step".toList, step.toList)], some s.failures))

/-- A reader of the exposition gets the counts. -/
def ReadsBack (m : Metrics) : Prop :=
  ∃ samples, readSamples? m.exposition = some samples ∧ m.Counted samples

theorem counts_append (metric : String) (a b : List Sample) :
    counts metric (a ++ b) = counts metric a ++ counts metric b := by
  simp [counts]

theorem counts_flatten (metric : String) (parts : List (List Sample)) :
    counts metric parts.flatten = (parts.map (counts metric)).flatten := by
  induction parts with
  | nil => rfl
  | cons part rest ih => rw [List.flatten_cons, counts_append, ih]; rfl

theorem counts_singles {α : Type} {metric : String} {g : α → List Sample}
    {count : α → List (List Char × List Char) × Option Nat}
    (single : ∀ e, counts metric (g e) = [count e]) (l : List α) :
    counts metric (l.map g).flatten = l.map count := by
  induction l with
  | nil => rfl
  | cons e rest ih =>
    rw [List.map_cons, List.flatten_cons, counts_append, single, ih, List.map_cons,
      List.singleton_append]

theorem counts_run (m : Metrics) :
    counts callsName [runSample m] = [] ∧ counts failuresName [runSample m] = [] := by
  have apart : (runSecondsName.toList == callsName.toList) = false ∧
      (runSecondsName.toList == failuresName.toList) = false := by decide
  simp [counts, runSample, apart]

theorem counts_steps (step : String) (m : StepMetrics) :
    counts callsName (stepSamples step m) =
        [([("step".toList, step.toList)], some m.calls)] ∧
      counts failuresName (stepSamples step m) =
        [([("step".toList, step.toList)], some m.failures)] := by
  have apart : [callsName, failuresName, secondsName, maxSecondsName].Pairwise
      fun a b => (a.toList == b.toList) = false ∧ (b.toList == a.toList) = false := by
    decide +kernel
  simp only [List.pairwise_cons, List.mem_cons, List.not_mem_nil, or_false, forall_eq_or_imp,
    forall_eq] at apart
  simp [counts, stepSamples, stepSample, Text.decimal?_toDigits, apart]

theorem readSamples?_exposition (m : Metrics) :
    readSamples? m.exposition = readLines? m.exposition.toList := by
  rw [readSamples?, if_pos]
  unfold exposition
  rw [String.toList_append]
  exact Text.endsWithLineFeed_iff.mpr ⟨_, rfl⟩

/-- Lists of one member or more each, as many members as lists, are of one member each. What bounds
the weight of every first member is then met by each of them, if it is met by all together. -/
theorem all_of_weights {α β : Type} {weight : β → Nat} {bound : α → Nat} {P : α → Prop}
    {l : List α} {parts : List (List β)}
    (each : List.Forall₂ (fun a part => ∃ b more, part = b :: more ∧ weight b ≤ bound a ∧
      (weight b = bound a → P a)) l parts) :
    l.length ≤ parts.flatten.length ∧
      (parts.flatten.length = l.length → (parts.flatten.map weight).sum ≤ (l.map bound).sum ∧
        ((parts.flatten.map weight).sum = (l.map bound).sum → ∀ a ∈ l, P a)) := by
  induction each with
  | nil => simp
  | cons first _ ih =>
    obtain ⟨b, more, rfl, light, met⟩ := first
    obtain ⟨longer, behind⟩ := ih
    simp only [List.flatten_cons, List.length_append, List.length_cons, List.map_append,
      List.map_cons, List.sum_append, List.sum_cons]
    refine ⟨by omega, fun count => ?_⟩
    have single : more = [] := List.eq_nil_of_length_eq_zero (by omega)
    subst single
    rw [List.length_nil] at count
    obtain ⟨lighter, others⟩ := behind (by omega)
    rw [List.map_nil, List.sum_nil]
    refine ⟨by omega, fun same => ?_⟩
    exact List.forall_mem_cons.mpr ⟨met (by omega), others (by omega)⟩

/-- The length of the value of the first label. -/
def firstLength (labels : List (List Char × List Char)) : Nat :=
  labels.head?.elim 0 fun label => label.2.length

/-- A reader who gets the counts finds no name in which a character had to be escaped. -/
theorem ReadsBack.unescaped {m : Metrics} (back : m.ReadsBack) :
    ∀ e ∈ m.steps.entries, Unescaped e.1.toList := by
  obtain ⟨samples, read, counted⟩ := back
  rw [readSamples?_exposition, readLines?_exposition] at read
  obtain ⟨parts, each, rfl⟩ := read
  have calls := counted.calls
  rw [counts_append, (counts_run m).1, List.append_nil, counts_flatten] at calls
  -- Every step has a first sample of its calls, so as many samples as steps leave none over. Their
  -- names are together as long as those of the steps, and none is longer than its step's.
  have firsts : List.Forall₂ (fun (e : String × StepMetrics) part => ∃ b more, part = b :: more ∧
      firstLength b.1 ≤ e.1.length ∧ (firstLength b.1 = e.1.length → Unescaped e.1.toList))
      m.steps.entries (parts.map (counts callsName)) := by
    refine List.forall₂_map_right_iff.mpr (each.imp fun e part read => ?_)
    obtain ⟨first, more, value, labels, rfl, metric, labelled, bound, plain⟩ :=
      readLines?_stepText_first read
    have here : firstLength first.labels = value.length := by
      rw [labelled]
      rfl
    refine ⟨(first.labels, Text.decimal? first.value), counts callsName more, ?_, ?_⟩
    · simp [counts, metric]
    · rw [here]
      exact ⟨bound, plain⟩
  have count := calls.length_eq
  have weight := (calls.map fun c => firstLength c.1).sum_nat
  rw [List.length_map] at count
  refine ((all_of_weights firsts).2 count).2 ?_
  rw [weight]
  simp [firstLength, Function.comp_def, String.length_toList]

theorem readsBack_of_unescaped {m : Metrics} (plain : ∀ e ∈ m.steps.entries, Unescaped e.1.toList) :
    m.ReadsBack := by
  have each : List.Forall₂ (fun e part => readLines? (stepText e.1 e.2).toList = some part)
      m.steps.entries (m.steps.entries.map fun e => stepSamples e.1 e.2) := by
    refine List.forall₂_map_right_iff.mpr (List.forall₂_same.mpr fun e member => ?_)
    exact readLines?_stepText (plain e member) e.2
  refine ⟨(m.steps.entries.map fun e => stepSamples e.1 e.2).flatten ++ [runSample m], ?_, ?_, ?_⟩
  · rw [readSamples?_exposition, readLines?_exposition]
    exact ⟨_, each, rfl⟩
  · rw [counts_append, (counts_run m).1, List.append_nil,
      counts_singles fun e : String × StepMetrics => (counts_steps e.1 e.2).1]
  · rw [counts_append, (counts_run m).2, List.append_nil,
      counts_singles fun e : String × StepMetrics => (counts_steps e.1 e.2).2]

/-- The exposition tells the counts of each step under its name, and no others, just if no name of
a step holds a backslash, a double quote or a line feed. -/
theorem exposition_reads_back_iff (m : Metrics) :
    m.ReadsBack ↔ ∀ name ∈ m.steps.names, Unescaped name.toList := by
  rw [OrderedMap.names, List.forall_mem_map]
  exact ⟨ReadsBack.unescaped, readsBack_of_unescaped⟩

/-- The step of a build for an architecture that passes every check. -/
def quotedDemo : Metrics where
  steps := .ofList [("build:a\"b", { calls := 1 })]

theorem exposition_lost_quote : ¬∀ m : Metrics, m.ReadsBack := by
  intro all
  have member : ("build:a\"b", ({ calls := 1 } : StepMetrics)) ∈ quotedDemo.steps.entries :=
    List.mem_cons_self
  have plain : Unescaped "build:a\"b".toList := (all quotedDemo).unescaped _ member
  exact absurd plain (by decide)

end Metrics

end ImagePipeline
