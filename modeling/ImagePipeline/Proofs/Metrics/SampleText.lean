import ImagePipeline.Proofs.Text.Lines
import ImagePipeline.Proofs.Text.Pieces
import ImagePipeline.Yaml.Scalar
import Mathlib.Data.List.TakeWhile

/-! How a monitoring system reads a text of samples. Each line is blank, a comment, or a sample: a
metric, its labels in braces, a number, and maybe a time. The value of a label stands in double
quotes, where a backslash, a double quote and a line feed are written with a backslash in front. A
line that is none of these makes the text unreadable. -/
namespace ImagePipeline.Metrics

structure Sample where
  metric : List Char
  labels : List (List Char × List Char)
  value : List Char
  deriving DecidableEq, Repr

/-! ### Label values -/

/-- A character as it stands between quotes. -/
def escapedChar (c : Char) : List Char :=
  if c = '\\' then ['\\', '\\'] else if c = '"' then ['\\', '"']
  else if c = '\n' then ['\\', 'n'] else [c]

def escaped (s : List Char) : List Char := s.flatMap escapedChar

/-- A text that stands between quotes as it is. -/
def Unescaped (s : List Char) : Prop := ∀ c ∈ s, c ≠ '\\' ∧ c ≠ '"' ∧ c ≠ '\n'

instance (s : List Char) : Decidable (Unescaped s) := List.decidableBAll _ s

/-- The value up to the closing quote, and what stands behind that. -/
def readQuoted? : List Char → Option (List Char × List Char)
  | [] => none
  | '"' :: rest => some ([], rest)
  | '\n' :: _ => none
  | '\\' :: '\\' :: rest => (readQuoted? rest).map fun (value, rest) => ('\\' :: value, rest)
  | '\\' :: '"' :: rest => (readQuoted? rest).map fun (value, rest) => ('"' :: value, rest)
  | '\\' :: 'n' :: rest => (readQuoted? rest).map fun (value, rest) => ('\n' :: value, rest)
  | '\\' :: _ => none
  | c :: rest => (readQuoted? rest).map fun (value, rest) => (c :: value, rest)

theorem readQuoted?_escaped (s rest : List Char) :
    readQuoted? (escaped s ++ '"' :: rest) = some (s, rest) := by
  induction s with
  | nil => rfl
  | cons c cs ih =>
    have further : escaped (c :: cs) = escapedChar c ++ escaped cs := List.flatMap_cons
    rw [further, List.append_assoc]
    unfold escapedChar
    split
    · rename_i backslash
      simp [readQuoted?, ih, backslash]
    · split
      · rename_i quote
        simp [readQuoted?, ih, quote]
      · split
        · rename_i feed
          simp [readQuoted?, ih, feed]
        · simp_all [readQuoted?]

/-- A quoted value can be written in one way only. -/
theorem readQuoted?_eq_some_iff {s value rest : List Char} :
    readQuoted? s = some (value, rest) ↔ s = escaped value ++ '"' :: rest := by
  constructor
  · intro read
    fun_induction readQuoted? s generalizing value with
    | case1 | case3 | case7 => cases read
    | case2 =>
      cases read
      rfl
    | case4 s ih | case5 s ih | case6 s ih =>
      obtain ⟨⟨inner, behind⟩, inside, same⟩ := Option.map_eq_some_iff.mp read
      cases same
      rw [ih inside]
      rfl
    | case8 c s quote feed _ _ _ backslash ih =>
      obtain ⟨⟨inner, behind⟩, inside, same⟩ := Option.map_eq_some_iff.mp read
      cases same
      have plain : escaped (c :: inner) = c :: escaped inner := by
        rw [escaped, List.flatMap_cons, escapedChar, if_neg backslash, if_neg quote, if_neg feed]
        rfl
      rw [ih inside, plain]
      rfl
  · rintro rfl
    exact readQuoted?_escaped value rest

theorem length_escapedChar (c : Char) :
    1 ≤ (escapedChar c).length ∧ ((escapedChar c).length = 1 ↔ c ≠ '\\' ∧ c ≠ '"' ∧ c ≠ '\n') := by
  unfold escapedChar
  repeat' split
  all_goals simp_all

/-- A text grows where it is escaped, unless nothing in it needs to be. -/
theorem length_escaped (s : List Char) :
    s.length ≤ (escaped s).length ∧ ((escaped s).length = s.length → Unescaped s) := by
  induction s with
  | nil => exact ⟨Nat.le_refl _, fun _ => nofun⟩
  | cons c cs ih =>
    obtain ⟨first, single⟩ := length_escapedChar c
    obtain ⟨rest, same⟩ := ih
    have whole : (escaped (c :: cs)).length = (escapedChar c).length + (escaped cs).length := by
      rw [escaped, List.flatMap_cons, List.length_append]
      rfl
    rw [whole, List.length_cons]
    constructor
    · omega
    · intro together
      exact List.forall_mem_cons.mpr ⟨single.mp (by omega), same (by omega)⟩

theorem escaped_of_unescaped {s : List Char} (plain : Unescaped s) : escaped s = s := by
  induction s with
  | nil => rfl
  | cons c cs ih =>
    obtain ⟨⟨backslash, quote, feed⟩, rest⟩ := List.forall_mem_cons.mp plain
    rw [escaped, List.flatMap_cons, ← escaped, ih rest, escapedChar, if_neg backslash,
      if_neg quote, if_neg feed]
    rfl

/-- A name in front of the only other quote is as long as the value that is read for it just if
nothing in it is escaped. -/
theorem length_value_of_prefix {name tail value behind : List Char} (unquoted : '"' ∉ tail)
    (written : escaped value ++ '"' :: behind <+: name ++ '"' :: tail) :
    value.length ≤ name.length ∧ (value.length = name.length → Unescaped name) := by
  obtain ⟨longer, same⟩ := length_escaped value
  obtain ⟨more, joined⟩ := written
  rw [List.append_assoc, List.append_eq_append_iff] at joined
  have inside : ∃ t, name = escaped value ++ t := by
    rcases joined with ⟨t, rfl, -⟩ | ⟨t, front, back⟩
    · exact ⟨t, rfl⟩
    · cases t with
      | nil => exact ⟨[], by simpa using front.symm⟩
      | cons c cs =>
        obtain ⟨rfl, inTail⟩ := List.cons.inj back
        exact absurd (inTail ▸ by simp) unquoted
  obtain ⟨t, rfl⟩ := inside
  rw [List.length_append]
  constructor
  · omega
  · intro whole
    have nothing : t = [] := List.eq_nil_of_length_eq_zero (by omega)
    have plain : Unescaped value := same (by omega)
    rwa [nothing, List.append_nil, escaped_of_unescaped plain]

/-! ### Lines -/

/-- A blank between the words of a line. -/
def isGap (c : Char) : Bool := c == ' ' || c == '\t'

def skipGaps (s : List Char) : List Char := s.dropWhile isGap

def isNameStart (c : Char) : Bool := c.isAlpha || c == '_' || c == ':'

def isNameChar (c : Char) : Bool := isNameStart c || c.isDigit

def readName? : List Char → Option (List Char × List Char)
  | [] => none
  | c :: cs =>
    if isNameStart c then some (c :: cs.takeWhile isNameChar, cs.dropWhile isNameChar) else none

/-- A label with its value, and what stands behind them. -/
def readLabel? (s : List Char) : Option ((List Char × List Char) × List Char) := do
  let (name, rest) ← readName? s
  match skipGaps rest with
  | '=' :: rest =>
    match skipGaps rest with
    | '"' :: rest => (readQuoted? rest).map fun (value, rest) => ((name, value), rest)
    | _ => none
  | _ => none

theorem length_skipGaps (s : List Char) : (skipGaps s).length ≤ s.length :=
  (List.dropWhile_suffix _).length_le

theorem length_readName? {s name rest : List Char} (read : readName? s = some (name, rest)) :
    rest.length < s.length := by
  unfold readName? at read
  split at read
  · cases read
  · split at read
    · cases read
      exact Nat.lt_succ_of_le (List.dropWhile_suffix _).length_le
    · cases read

theorem length_readQuoted? {s value rest : List Char} (read : readQuoted? s = some (value, rest)) :
    rest.length < s.length := by
  rw [readQuoted?_eq_some_iff.mp read, List.length_append, List.length_cons]
  omega

theorem length_readLabel? {s rest : List Char} {label : List Char × List Char}
    (read : readLabel? s = some (label, rest)) : rest.length < s.length := by
  simp only [readLabel?, Option.bind_eq_bind, Option.bind_eq_some_iff] at read
  obtain ⟨⟨name, behind⟩, named, read⟩ := read
  dsimp only at read
  split at read
  · rename_i behindSign sign
    split at read
    · rename_i behindQuote quote
      obtain ⟨⟨value, last⟩, quoted, same⟩ := Option.map_eq_some_iff.mp read
      cases same
      have first := length_readName? named
      have second := length_skipGaps behind
      have third := length_skipGaps behindSign
      have fourth := length_readQuoted? quoted
      rw [sign, List.length_cons] at second
      rw [quote, List.length_cons] at third
      change last.length < s.length
      omega
    · cases read
  · cases read

/-- The labels up to the closing brace, and what stands behind that. -/
def readLabels? (s : List Char) : Option (List (List Char × List Char) × List Char) :=
  match skipGaps s with
  | '\x7d' :: rest => some ([], rest)
  | _ =>
    match _read : readLabel? (skipGaps s) with
    | none => none
    | some (label, behind) =>
      match _divided : skipGaps behind with
      | '\x7d' :: rest => some ([label], rest)
      | ',' :: rest => (readLabels? rest).map fun (labels, rest) => (label :: labels, rest)
      | _ => none
termination_by s.length
decreasing_by
  have first := length_skipGaps s
  have second := length_readLabel? _read
  have third := length_skipGaps behind
  rw [_divided, List.length_cons] at third
  omega

/-- A number in decimal digits, with a sign, a point and an exponent, or one of the words for
what is no finite number. -/
def isNumber (s : List Char) : Bool :=
  let unsigned := match s with
    | '+' :: cs | '-' :: cs => cs
    | cs => cs
  (Yaml.Scalar.decimalParts? unsigned).isSome ||
    ["inf", "infinity"].contains (Text.lowerAscii (String.ofList unsigned)) ||
    Text.lowerAscii (String.ofList s) == "nan"

/-- A time in whole milliseconds. -/
def isTime (s : List Char) : Bool :=
  let digits := match s with
    | '-' :: cs => cs
    | cs => cs
  (Text.decimal? digits).isSome

/-- The words of a line. -/
def readWord (s : List Char) : List Char × List Char :=
  ((skipGaps s).takeWhile fun c => !isGap c,
    skipGaps ((skipGaps s).dropWhile fun c => !isGap c))

/-- The number of a sample, with a time behind it or nothing. -/
def readValue? (s : List Char) : Option (List Char) :=
  let (value, rest) := readWord s
  let (time, rest) := readWord rest
  if isNumber value && (time.isEmpty || isTime time) && rest.isEmpty then some value else none

/-- The labels of a sample that has any, and what stands behind them. -/
def readBraces? (s : List Char) : Option (List (List Char × List Char) × List Char) :=
  match skipGaps s with
  | '\x7b' :: rest => readLabels? rest
  | rest => some ([], rest)

def readSample? (line : List Char) : Option Sample := do
  let (metric, rest) ← readName? line
  let (labels, rest) ← readBraces? rest
  let value ← readValue? rest
  return { metric, labels, value }

/-- The samples of one line: one or none. -/
def readLine? (line : List Char) : Option (List Sample) :=
  match skipGaps line with
  | [] | '#' :: _ => some []
  | line => (readSample? line).map fun s => [s]

def readLines? (s : List Char) : Option (List Sample) :=
  ((Text.splitAt '\n' s).mapM readLine?).map List.flatten

/-- The samples of a text. Its last line has to end as the others do. -/
def readSamples? (text : String) : Option (List Sample) :=
  if Text.endsWithLineFeed text.toList then readLines? text.toList else none

/-! ### Reading what is written in front of other text -/

def isName : List Char → Bool
  | [] => false
  | c :: cs => isNameStart c && cs.all isNameChar

theorem skipGaps_of_visible {c : Char} {cs : List Char} (visible : isGap c = false) :
    skipGaps (c :: cs) = c :: cs := by
  rw [skipGaps, List.dropWhile_cons_of_neg (by simp [visible])]

theorem readName?_append {name : List Char} (named : isName name = true) {c : Char}
    (ends : isNameChar c = false) (rest : List Char) :
    readName? (name ++ c :: rest) = some (name, c :: rest) := by
  cases name with
  | nil => cases named
  | cons d ds =>
    rw [isName, Bool.and_eq_true, List.all_eq_true] at named
    rw [List.cons_append, readName?, if_pos named.1, List.takeWhile_append_of_pos named.2,
      List.dropWhile_append_of_pos named.2, List.takeWhile_cons_of_neg (by simp [ends]),
      List.dropWhile_cons_of_neg (by simp [ends]), List.append_nil]

theorem readLabel?_append {name : List Char} (named : isName name = true) (rest : List Char) :
    readLabel? (name ++ '=' :: '"' :: rest) =
      (readQuoted? rest).map fun (value, rest) => ((name, value), rest) := by
  rw [readLabel?, readName?_append named (by decide), Option.bind_eq_bind, Option.bind_some]
  rfl

theorem start_of_name {name : List Char} (named : isName name = true) (rest : List Char) :
    ∃ c cs, name ++ rest = c :: cs ∧ isNameStart c = true ∧ skipGaps (c :: cs) = c :: cs := by
  cases name with
  | nil => cases named
  | cons c cs =>
    have letter : isNameStart c = true := (Bool.and_eq_true _ _ ▸ named).1
    have apart : c ≠ ' ' ∧ c ≠ '\t' := by
      constructor <;> rintro rfl <;> cases letter
    exact ⟨c, cs ++ rest, rfl, letter, skipGaps_of_visible (by simp [isGap, apart])⟩

/-- The first label is read on its own, and decides how the labels go on. -/
theorem readLabels?_append {name : List Char} (named : isName name = true) (rest : List Char) :
    readLabels? (name ++ '=' :: '"' :: rest) =
      (readQuoted? rest).bind fun (value, behind) =>
        match skipGaps behind with
        | '\x7d' :: rest => some ([(name, value)], rest)
        | ',' :: rest =>
          (readLabels? rest).map fun (labels, rest) => ((name, value) :: labels, rest)
        | _ => none := by
  obtain ⟨c, cs, same, letter, start⟩ := start_of_name named ('=' :: '"' :: rest)
  have label := readLabel?_append named rest
  rw [same] at label ⊢
  rw [readLabels?]
  split
  · rename_i opened
    rw [start] at opened
    cases opened
    cases letter
  · rw [start, label]
    cases readQuoted? rest with
    | none => rfl
    | some quoted =>
      obtain ⟨value, behind⟩ := quoted
      simp only [Option.map_some, Option.bind_some]
      split <;> simp_all

theorem readLabels?_single {name : List Char} (named : isName name = true) (s rest : List Char) :
    readLabels? (name ++ '=' :: '"' :: (escaped s ++ '"' :: '\x7d' :: rest)) =
      some ([(name, s)], rest) := by
  rw [readLabels?_append named, readQuoted?_escaped]
  rfl

/-- A number that is written without blanks and marks. -/
structure IsValue (value : List Char) : Prop where
  number : isNumber value = true
  written : ∀ c ∈ value, c.isAlphanum = true ∨ c = '.' ∨ c = '-'

theorem IsValue.apart {value : List Char} (valued : IsValue value) {c : Char}
    (mark : (c.isAlphanum || c == '.' || c == '-') = false) : c ∉ value := by
  intro member
  have written := valued.written c member
  simp_all

theorem IsValue.joined {value : List Char} (valued : IsValue value) :
    ∀ c ∈ value, isGap c = false := by
  intro c member
  have apart : c ≠ ' ' ∧ c ≠ '\t' := by
    constructor <;> rintro rfl <;> exact valued.apart (by decide) member
  simp [isGap, apart]

theorem IsValue.skipGaps_eq {value : List Char} (valued : IsValue value) :
    skipGaps value = value := by
  cases value with
  | nil => rfl
  | cons c cs => exact skipGaps_of_visible (valued.joined c List.mem_cons_self)

theorem readValue?_of_skipGaps {s value : List Char} (valued : IsValue value)
    (start : skipGaps s = value) : readValue? s = some value := by
  have all : ∀ c ∈ value, (!isGap c) = true := fun c member => by simp [valued.joined c member]
  have word : readWord s = (value, []) := by
    rw [readWord, start, List.takeWhile_eq_self_iff.mpr all, List.dropWhile_eq_nil_iff.mpr all]
    rfl
  rw [readValue?, word]
  simp [valued.number, readWord, skipGaps]

theorem readValue?_number {value : List Char} (valued : IsValue value) :
    readValue? (' ' :: value) = some value := by
  apply readValue?_of_skipGaps valued
  rw [skipGaps, List.dropWhile_cons_of_pos (by decide)]
  exact valued.skipGaps_eq

theorem readSample?_append {metric : List Char} (named : isName metric = true) (rest : List Char) :
    readSample? (metric ++ '\x7b' :: rest) = (readLabels? rest).bind fun (labels, rest) =>
      (readValue? rest).map fun value => { metric, labels, value } := by
  have braces : readBraces? ('\x7b' :: rest) = readLabels? rest := by
    rw [readBraces?, skipGaps_of_visible (by decide)]
    rfl
  rw [readSample?, readName?_append named (by decide), Option.bind_eq_bind, Option.bind_some]
  dsimp only
  rw [braces]
  cases readLabels? rest with
  | none => rfl
  | some read => cases number : readValue? read.2 <;> simp [number]

/-- The first label of a sample is what is quoted behind its name. -/
theorem first_label {metric label rest : List Char} {sample : Sample}
    (named : isName metric = true) (labelled : isName label = true)
    (read : readSample? (metric ++ '\x7b' :: (label ++ '=' :: '"' :: rest)) = some sample) :
    ∃ value behind labels, rest = escaped value ++ '"' :: behind ∧
      sample.metric = metric ∧ sample.labels = (label, value) :: labels := by
  rw [readSample?_append named, readLabels?_append labelled] at read
  obtain ⟨⟨labels, afterLabels⟩, found, read⟩ := Option.bind_eq_some_iff.mp read
  obtain ⟨number, -, rfl⟩ := Option.map_eq_some_iff.mp read
  obtain ⟨⟨value, behind⟩, quoted, found⟩ := Option.bind_eq_some_iff.mp found
  have written := readQuoted?_eq_some_iff.mp quoted
  dsimp only at found
  split at found
  · cases found
    exact ⟨value, behind, [], written, rfl, rfl⟩
  · obtain ⟨⟨further, last⟩, -, same⟩ := Option.map_eq_some_iff.mp found
    cases same
    exact ⟨value, behind, further, written, rfl, rfl⟩
  · cases found

theorem readLine?_named {metric : List Char} (named : isName metric = true) (rest : List Char) :
    readLine? (metric ++ rest) = (readSample? (metric ++ rest)).map fun s => [s] := by
  obtain ⟨c, cs, same, letter, start⟩ := start_of_name named rest
  rw [same, readLine?, start]
  split
  · contradiction
  · rename_i opened
    cases opened
    cases letter
  · rfl

theorem readLine?_sample {metric label value : List Char} (named : isName metric = true)
    (labelled : isName label = true) (valued : IsValue value) (s : List Char) :
    readLine? (metric ++ '\x7b' ::
        (label ++ '=' :: '"' :: (escaped s ++ '"' :: '\x7d' :: ' ' :: value))) =
      some [{ metric, labels := [(label, s)], value }] := by
  rw [readLine?_named named, readSample?_append named, readLabels?_single labelled,
    Option.bind_some]
  dsimp only
  rw [readValue?_number valued]
  rfl

theorem readLine?_unlabelled {metric value : List Char} (named : isName metric = true)
    (valued : IsValue value) :
    readLine? (metric ++ ' ' :: value) = some [{ metric, labels := [], value }] := by
  have start : skipGaps (' ' :: value) = value := by
    rw [skipGaps, List.dropWhile_cons_of_pos (by decide)]
    exact valued.skipGaps_eq
  have braces : readBraces? (' ' :: value) = some ([], value) := by
    rw [readBraces?, start]
    split
    · exact absurd List.mem_cons_self (valued.apart (by decide))
    · rfl
  rw [readLine?_named named, readSample?, readName?_append named (by decide), Option.bind_eq_bind,
    Option.bind_some]
  dsimp only
  rw [braces, Option.bind_eq_bind, Option.bind_some]
  dsimp only
  rw [readValue?_of_skipGaps valued valued.skipGaps_eq]
  rfl

theorem readLine?_comment (s : List Char) : readLine? ('#' :: s) = some [] := by
  rw [readLine?, skipGaps_of_visible (by decide)]
  rfl

/-! ### Texts of several lines -/

theorem readLines?_append (a b : List Char) :
    readLines? (a ++ '\n' :: b) =
      (readLines? a).bind fun front => (readLines? b).map fun back => front ++ back := by
  rw [readLines?, readLines?, readLines?, Text.splitAt_append, List.mapM_append]
  cases (Text.splitAt '\n' a).mapM readLine? with
  | none => rfl
  | some front =>
    cases (Text.splitAt '\n' b).mapM readLine? with
    | none => rfl
    | some back => simp

theorem readLines?_nil : readLines? [] = some [] := rfl

/-- Whole lines are read on their own. -/
theorem readLines?_whole {a : List Char} (whole : Text.Whole a) (b : List Char) :
    readLines? (a ++ b) =
      (readLines? a).bind fun front => (readLines? b).map fun back => front ++ back := by
  rcases whole with rfl | ends
  · rw [List.nil_append, readLines?_nil]
    simp
  · obtain ⟨front, rfl⟩ := Text.endsWithLineFeed_iff.mp ends
    rw [List.append_assoc, List.singleton_append, readLines?_append, readLines?_append,
      readLines?_nil]
    cases readLines? front <;> simp

theorem readLines?_together {a b : List Char} {front back : List Sample} (whole : Text.Whole a)
    (first : readLines? a = some front) (second : readLines? b = some back) :
    readLines? (a ++ b) = some (front ++ back) := by
  rw [readLines?_whole whole, first, second]
  rfl

theorem readLines?_line {line : List Char} (feeds : '\n' ∉ line) :
    readLines? (line ++ ['\n']) = readLine? line := by
  rw [readLines?_append, readLines?_nil, readLines?, Text.splitAt_of_not_mem feeds]
  cases read : readLine? line <;> simp [read]

/-- The samples of the first line come first. -/
theorem readLines?_first {s : List Char} {samples : List Sample}
    (read : readLines? s = some samples) :
    ∃ front back, readLine? (s.takeWhile fun c => c != '\n') = some front ∧
      samples = front ++ back := by
  obtain ⟨lines, pieces⟩ := Text.splitAt_first '\n' s
  rw [readLines?, pieces, List.mapM_cons] at read
  obtain ⟨parts, found, rfl⟩ := Option.map_eq_some_iff.mp read
  simp only [Option.bind_eq_bind, Option.bind_eq_some_iff, Option.pure_def] at found
  obtain ⟨front, first, back, -, same⟩ := found
  cases same
  exact ⟨front, back.flatten, first, rfl⟩

end ImagePipeline.Metrics
