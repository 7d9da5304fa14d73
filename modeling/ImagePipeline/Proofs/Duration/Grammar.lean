import Mathlib.Algebra.Ring.Nat
import ImagePipeline.Proofs.Duration

/-! Which texts are lengths of time. A text is either a number of seconds or a row of groups, each a
number in front of a unit. What it stands for is the exact sum, and it is read just where that sum
is below `2 ^ 64`: then no number, product or sum on the way reaches the bound either. -/
namespace ImagePipeline

namespace Text

/-- One or more digits. -/
def IsNumber (digits : List Char) : Prop := digits ≠ [] ∧ ∀ c ∈ digits, c.isDigit = true

theorem isDigit_of_digitValue? {c : Char} {d : Nat} (value : digitValue? c = some d)
    (below : d < 10) : c.isDigit = true := by
  unfold digitValue? at value
  split at value
  · rename_i range
    have range : 48 ≤ c.val ∧ c.val ≤ 57 := range
    simpa [Char.isDigit] using range
  · have ten (m : Nat) (same : some (m + 10) = some d) : False := by
      have := Option.some.inj same
      omega
    split at value
    · exact (ten _ value).elim
    · split at value
      · exact (ten _ value).elim
      · cases value

theorem digitsValue?_eq_some_iff {cs : List Char} {acc n : Nat} :
    digitsValue? 10 acc cs = some n ↔
      (∀ c ∈ cs, c.isDigit = true) ∧ Nat.ofDigitChars 10 cs acc = n := by
  constructor
  · intro read
    have digits : ∀ c ∈ cs, c.isDigit = true := by
      induction cs generalizing acc with
      | nil => exact List.forall_mem_nil _
      | cons c cs ih =>
        rw [digitsValue?] at read
        split at read
        · rename_i d value
          split at read
          · exact List.forall_mem_cons.mpr ⟨isDigit_of_digitValue? value ‹_›, ih read⟩
          · cases read
        · cases read
    rw [digitsValue?_of_digits digits] at read
    exact ⟨digits, Option.some.inj read⟩
  · rintro ⟨digits, rfl⟩
    exact digitsValue?_of_digits digits acc

theorem decimal?_eq_some_iff {cs : List Char} {n : Nat} :
    decimal? cs = some n ↔ IsNumber cs ∧ Nat.ofDigitChars 10 cs 0 = n := by
  cases cs with
  | nil => simp [decimal?, natural?, IsNumber]
  | cons c cs =>
    rw [decimal?, natural?, digitsValue?_eq_some_iff, IsNumber]
    · simp
    · nofun

theorem ne_plus_of_isDigit {c : Char} (digit : c.isDigit = true) : c ≠ '+' := by
  rintro rfl
  contradiction

theorem word64?_eq_some_iff {s : List Char} {n : Nat} :
    word64? s = some n ↔ n < word64Bound ∧ ∃ digits, IsNumber digits ∧
      (s = digits ∨ s = '+' :: digits) ∧ Nat.ofDigitChars 10 digits 0 = n := by
  unfold word64?
  rw [Option.filter_eq_some_iff, decimal?_eq_some_iff, decide_eq_true_iff, and_comm]
  refine and_congr_right fun _ => ?_
  split
  · rename_i rest
    constructor
    · rintro ⟨number, value⟩
      exact ⟨rest, number, .inr rfl, value⟩
    · rintro ⟨digits, number, rfl | same, value⟩
      · exact absurd rfl (ne_plus_of_isDigit (number.2 '+' List.mem_cons_self))
      · obtain rfl := (List.cons.inj same).2
        exact ⟨number, value⟩
  · rename_i unsigned
    constructor
    · rintro ⟨number, value⟩
      exact ⟨s, number, .inl rfl, value⟩
    · rintro ⟨digits, number, rfl | signed, value⟩
      · exact ⟨number, value⟩
      · exact absurd signed (unsigned digits)

end Text

namespace Duration

inductive TimeUnit where
  | second
  | minute
  | hour
  deriving DecidableEq, Repr

namespace TimeUnit

def letter : TimeUnit → Char
  | second => 's'
  | minute => 'm'
  | hour => 'h'

def seconds : TimeUnit → Nat
  | second => 1
  | minute => 60
  | hour => 3600

theorem unitSeconds?_eq_some_iff {c : Char} {n : Nat} :
    unitSeconds? c = some n ↔ ∃ unit : TimeUnit, unit.letter = c ∧ unit.seconds = n := by
  constructor
  · intro known
    unfold unitSeconds? at known
    split at known
    · exact ⟨second, rfl, Option.some.inj known⟩
    · exact ⟨minute, rfl, Option.some.inj known⟩
    · exact ⟨hour, rfl, Option.some.inj known⟩
    · cases known
  · rintro ⟨unit, rfl, rfl⟩
    cases unit <;> rfl

theorem letter_not_digit (unit : TimeUnit) : unit.letter.isDigit = false := by
  cases unit <;> rfl

theorem seconds_pos (unit : TimeUnit) : 0 < unit.seconds := by
  cases unit <;> decide

end TimeUnit

/-- A number in front of a unit. -/
structure Group where
  digits : List Char
  unit : TimeUnit
  number : Text.IsNumber digits

namespace Group

def text (g : Group) : List Char := g.digits ++ [g.unit.letter]

def seconds (g : Group) : Nat := Nat.ofDigitChars 10 g.digits 0 * g.unit.seconds

end Group

/-- A whole number of seconds, which may have a plus sign. -/
def CountsSeconds (text : List Char) (n : Nat) : Prop :=
  ∃ digits, Text.IsNumber digits ∧ (text = digits ∨ text = '+' :: digits) ∧
    Nat.ofDigitChars 10 digits 0 = n

/-- One or more groups, whose seconds are added up. -/
def SumsGroups (text : List Char) (n : Nat) : Prop :=
  ∃ groups : List Group, groups ≠ [] ∧ text = groups.flatMap Group.text ∧
    (groups.map Group.seconds).sum = n

/-- Every group ends in a letter. -/
theorem exists_letter_mem {groups : List Group} (given : groups ≠ []) :
    ∃ unit : TimeUnit, unit.letter ∈ groups.flatMap Group.text := by
  cases groups with
  | nil => contradiction
  | cons g groups => exact ⟨g.unit, by simp [Group.text]⟩

theorem eq_nil_of_digits {groups : List Group}
    (digits : ∀ c ∈ groups.flatMap Group.text, c.isDigit = true) : groups = [] := by
  by_contra given
  obtain ⟨unit, letter⟩ := exists_letter_mem given
  have digit := digits unit.letter letter
  rw [unit.letter_not_digit] at digit
  contradiction

theorem takeWhile_digits {front back : List Char} {c : Char}
    (digits : ∀ x ∈ front, x.isDigit = true) (other : c.isDigit = false) :
    (front ++ c :: back).takeWhile Char.isDigit = front := by
  rw [List.takeWhile_append_of_pos digits, List.takeWhile_cons_of_neg (by simp [other]),
    List.append_nil]

/-- Digits in front of another character are the number of a group that starts there. -/
theorem eq_flatMap_text_iff {pending rest : List Char} {c : Char} {groups : List Group}
    (digits : ∀ x ∈ pending, x.isDigit = true) (other : c.isDigit = false) :
    pending ++ c :: rest = groups.flatMap Group.text ↔
      ∃ g following, groups = g :: following ∧ g.digits = pending ∧ g.unit.letter = c ∧
        rest = following.flatMap Group.text := by
  constructor
  · intro same
    cases groups with
    | nil => simp at same
    | cons g following =>
      rw [List.flatMap_cons, Group.text, List.append_assoc, List.singleton_append] at same
      have front : pending = g.digits := by
        have numbers := congrArg (List.takeWhile Char.isDigit) same
        rwa [takeWhile_digits digits other,
          takeWhile_digits g.number.2 g.unit.letter_not_digit] at numbers
      subst front
      obtain ⟨letter, back⟩ := List.cons.inj (List.append_cancel_left same)
      exact ⟨g, following, rfl, rfl, letter.symm, back⟩
  · rintro ⟨g, following, rfl, rfl, rfl, rfl⟩
    simp [Group.text]

theorem bounded?_eq_some_iff {m n : Nat} :
    bounded? m = some n ↔ m < Text.word64Bound ∧ m = n := by
  unfold bounded?
  split
  · rename_i below
    simp [below]
  · rename_i above
    simp [above]

/-- The digits that have been read belong to the first group. Where the whole sum is below the
bound, so is all that is reckoned on the way. -/
theorem groups?_eq_some_iff {total n : Nat} {pending text : List Char}
    (digits : ∀ c ∈ pending, c.isDigit = true) (below : total < Text.word64Bound) :
    groups? total pending text = some n ↔ n < Text.word64Bound ∧ ∃ groups : List Group,
      pending ++ text = groups.flatMap Group.text ∧
        total + (groups.map Group.seconds).sum = n := by
  induction text generalizing total pending n with
  | nil =>
    rw [groups?, List.append_nil]
    constructor
    · intro read
      split at read
      · rename_i empty
        cases read
        exact ⟨below, [], by simpa using empty, rfl⟩
      · cases read
    · rintro ⟨-, groups, rfl, rfl⟩
      rw [eq_nil_of_digits digits]
      rfl
  | cons c cs ih =>
    rw [groups?]
    cases digit : c.isDigit with
    | true =>
      have longer : ∀ x ∈ pending ++ [c], x.isDigit = true := by
        rw [List.forall_mem_append, List.forall_mem_singleton]
        exact ⟨digits, digit⟩
      rw [if_pos rfl, ih longer below, List.append_assoc, List.singleton_append]
    | false =>
      rw [if_neg Bool.false_ne_true]
      simp only [eq_flatMap_text_iff digits digit, Option.bind_eq_bind, Option.bind_eq_some_iff,
        bounded?_eq_some_iff, Text.decimal?_eq_some_iff, TimeUnit.unitSeconds?_eq_some_iff]
      constructor
      · rintro ⟨_, ⟨number, rfl⟩, _, ⟨-, rfl⟩, _, ⟨unit, rfl, rfl⟩, _, ⟨-, rfl⟩, _, ⟨room, rfl⟩,
          read⟩
        obtain ⟨fits, groups, rfl, rfl⟩ := (ih (List.forall_mem_nil _) room).mp read
        refine ⟨fits, ⟨pending, unit, number⟩ :: groups, ⟨_, _, rfl, rfl, rfl, rfl⟩, ?_⟩
        rw [List.map_cons, List.sum_cons, Group.seconds, Nat.add_assoc]
      · rintro ⟨fits, _, ⟨g, following, rfl, rfl, rfl, rfl⟩, rfl⟩
        simp only [List.map_cons, List.sum_cons, ← Nat.add_assoc] at fits
        have room : total + g.seconds < Text.word64Bound := by omega
        have product : g.seconds < Text.word64Bound := by omega
        have value : Nat.ofDigitChars 10 g.digits 0 ≤ g.seconds :=
          Nat.le_mul_of_pos_right _ g.unit.seconds_pos
        refine ⟨_, ⟨g.number, rfl⟩, _, ⟨by omega, rfl⟩, _, ⟨g.unit, rfl, rfl⟩, _, ⟨product, rfl⟩, _,
          ⟨room, rfl⟩, ?_⟩
        rw [List.map_cons, List.sum_cons, ← Nat.add_assoc]
        exact (ih (List.forall_mem_nil _) room).mpr ⟨fits, following, rfl, rfl⟩

/-- A sum of groups is no number, since it ends in a letter. -/
theorem not_countsSeconds_of_sumsGroups {text : List Char} {m n : Nat}
    (sums : SumsGroups text m) : ¬ CountsSeconds text n := by
  obtain ⟨groups, given, rfl, -⟩ := sums
  obtain ⟨unit, letter⟩ := exists_letter_mem given
  rintro ⟨digits, number, written, -⟩
  have signed : unit.letter ∈ '+' :: digits := by
    rcases written with same | same
    · exact List.mem_cons_of_mem _ (same ▸ letter)
    · exact same ▸ letter
  rcases List.mem_cons.mp signed with plus | listed
  · cases unit <;> contradiction
  · have digit := number.2 unit.letter listed
    rw [unit.letter_not_digit] at digit
    contradiction

/-- What a text stands for, in seconds. -/
def Denotes (text : List Char) (n : Nat) : Prop := CountsSeconds text n ∨ SumsGroups text n

theorem Denotes.ne_nil {text : List Char} {n : Nat} (denotes : Denotes text n) : text ≠ [] := by
  rintro rfl
  rcases denotes with ⟨digits, number, rfl | same, -⟩ | ⟨groups, given, same, -⟩
  · exact number.1 rfl
  · cases same
  · obtain ⟨unit, letter⟩ := exists_letter_mem given
    rw [← same] at letter
    cases letter

/-- A text that is not read as a number is read as groups. -/
theorem read_eq_some_iff {text : List Char} {n : Nat} (given : text ≠ []) :
    (Text.word64? text <|> groups? 0 [] text) = some n ↔
      n < Text.word64Bound ∧ Denotes text n := by
  have number {m : Nat} : Text.word64? text = some m ↔
      m < Text.word64Bound ∧ CountsSeconds text m := Text.word64?_eq_some_iff
  cases whole : Text.word64? text with
  | some m =>
    have counts := number.mp whole
    constructor
    · rintro ⟨⟩
      exact ⟨counts.1, .inl counts.2⟩
    · rintro ⟨below, again | sums⟩
      · exact whole.symm.trans (number.mpr ⟨below, again⟩)
      · exact absurd counts.2 (not_countsSeconds_of_sumsGroups sums)
  | none =>
    have start : 0 < Text.word64Bound := by decide
    have groups : groups? 0 [] text = some n ↔ _ :=
      groups?_eq_some_iff (List.forall_mem_nil _) start
    refine groups.trans (and_congr_right fun below => ?_)
    simp only [List.nil_append, Nat.zero_add]
    constructor
    · rintro ⟨groups, same, sum⟩
      refine .inr ⟨groups, ?_, same, sum⟩
      rintro rfl
      exact given same
    · rintro (counts | ⟨groups, -, same, sum⟩)
      · rw [number.mpr ⟨below, counts⟩] at whole
        cases whole
      · exact ⟨groups, same, sum⟩

/-- A text is read as a length of time just where it denotes one below `2 ^ 64` seconds, and as that
one. A text that is not read denotes nothing, or what reaches the bound. -/
theorem parse?_reads_denotation (s : String) :
    (∀ d, parse? s = some d ↔
      ∃ n < 2 ^ 64, Denotes (Text.trim s.toList) n ∧ d = .ofSeconds n) ∧
    (parse? s = none ↔ ¬ ∃ n < 2 ^ 64, Denotes (Text.trim s.toList) n) := by
  have read (d : Duration) : parse? s = some d ↔
      ∃ n < Text.word64Bound, Denotes (Text.trim s.toList) n ∧ d = .ofSeconds n := by
    unfold parse?
    dsimp only
    cases empty : (Text.trim s.toList).isEmpty with
    | true =>
      rw [if_pos rfl]
      refine iff_of_false nofun ?_
      rintro ⟨n, -, denotes, -⟩
      exact denotes.ne_nil (List.isEmpty_iff.mp empty)
    | false =>
      rw [if_neg Bool.false_ne_true, Option.map_eq_some_iff]
      simp only [read_eq_some_iff (List.isEmpty_eq_false_iff.mp empty), and_assoc, eq_comm]
  refine ⟨read, ?_⟩
  rw [Option.eq_none_iff_forall_ne_some]
  constructor
  · rintro unread ⟨n, below, denotes⟩
    exact unread (.ofSeconds n) ((read _).mpr ⟨n, below, denotes, rfl⟩)
  · intro nothing d parsed
    obtain ⟨n, below, denotes, -⟩ := (read d).mp parsed
    exact nothing ⟨n, below, denotes⟩

example : parse? " 1h30m\n" = some (.ofSeconds 5400) := by decide +kernel

/-- Three groups whose sum is the bound. -/
example : parse? "5124095576030431h15s1s" = none := by decide +kernel

end Duration

end ImagePipeline
