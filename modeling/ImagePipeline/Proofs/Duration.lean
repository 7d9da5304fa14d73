import ImagePipeline.Duration
import ImagePipeline.Proofs.Text.Blank
import ImagePipeline.Proofs.Text.Digits

/-! Which lengths of time can be written: the whole seconds below `2 ^ 64`, and no others. -/
namespace ImagePipeline

namespace Text

theorem toNat_of_isDigit {c : Char} (digit : c.isDigit = true) :
    48 ≤ c.toNat ∧ c.toNat ≤ 57 := by
  have range : 48 ≤ c.val ∧ c.val ≤ 57 := by simpa [Char.isDigit] using digit
  exact range

theorem digitValue?_of_isDigit {c : Char} (digit : c.isDigit = true) :
    digitValue? c = some (c.toNat - '0'.toNat) ∧ c.toNat - '0'.toNat < 10 := by
  have range := toNat_of_isDigit digit
  have zero : '0'.toNat = 48 := rfl
  exact ⟨if_pos range, by omega⟩

theorem digitsValue?_of_digits {cs : List Char} (digits : ∀ c ∈ cs, c.isDigit = true)
    (acc : Nat) : digitsValue? 10 acc cs = some (Nat.ofDigitChars 10 cs acc) := by
  induction cs generalizing acc with
  | nil => rfl
  | cons c cs ih =>
    obtain ⟨digit, rest⟩ := List.forall_mem_cons.mp digits
    obtain ⟨value, below⟩ := digitValue?_of_isDigit digit
    rw [digitsValue?, value]
    dsimp only
    rw [if_pos below, ih rest, Nat.ofDigitChars_cons, Nat.mul_comm]

theorem isDigit_of_mem_toDigits {n : Nat} : ∀ c ∈ Nat.toDigits 10 n, c.isDigit = true :=
  fun _ => Nat.isDigit_of_mem_toDigits (by decide) (by decide)

theorem decimal?_toDigits (n : Nat) : decimal? (Nat.toDigits 10 n) = some n := by
  have value : digitsValue? 10 0 (Nat.toDigits 10 n) = some n :=
    digitsValue?_toDigits (by decide) (by decide) n
  cases digits : Nat.toDigits 10 n with
  | nil => exact absurd digits Nat.toDigits_ne_nil
  | cons c cs => rwa [digits] at value

/-- A number below the bound is read back from its digits, which have no sign. -/
theorem word64?_toDigits {n : Nat} (below : n < word64Bound) :
    word64? (Nat.toDigits 10 n) = some n := by
  have value := decimal?_toDigits n
  have digits := isDigit_of_mem_toDigits (n := n)
  unfold word64?
  generalize Nat.toDigits 10 n = written at value digits
  split
  · have plus := digits '+' List.mem_cons_self
    contradiction
  · dsimp only
    rw [value]
    simpa using below

theorem word64?_lt {s : List Char} {n : Nat} (read : word64? s = some n) : n < word64Bound := by
  unfold word64? at read
  simpa using (Option.filter_eq_some_iff.mp read).2

/-- No blank is a digit. -/
theorem isBlank_of_isDigit {c : Char} (digit : c.isDigit = true) : isBlank c = false := by
  have range := toNat_of_isDigit digit
  simp only [isBlank, Bool.or_eq_false_iff, Bool.and_eq_false_iff, decide_eq_false_iff_not,
    beq_eq_false_iff_ne, UInt32.le_iff_toNat_le, ne_eq, ← UInt32.toNat_inj]
  have same : c.val.toNat = c.toNat := rfl
  simp [same]
  omega

end Text

namespace Duration

theorem bounded?_lt {m n : Nat} (bounded : bounded? m = some n) : n < Text.word64Bound := by
  unfold bounded? at bounded
  split at bounded
  · cases bounded
    assumption
  · contradiction

/-- Sums of groups stay below the bound, since every sum on the way is checked. -/
theorem groups?_lt {total n : Nat} {digits text : List Char} (below : total < Text.word64Bound)
    (read : groups? total digits text = some n) : n < Text.word64Bound := by
  induction text generalizing total digits with
  | nil =>
    unfold groups? at read
    split at read
    · cases read
      exact below
    · contradiction
  | cons c cs ih =>
    unfold groups? at read
    split at read
    · exact ih below read
    · simp only [Option.bind_eq_bind, Option.bind_eq_some_iff] at read
      obtain ⟨_, -, _, -, _, -, _, -, sum, bounded, following⟩ := read
      exact ih (bounded?_lt bounded) following

theorem parse?_bounded {s : String} {d : Duration} (read : parse? s = some d) :
    ∃ n < Text.word64Bound, d = .ofSeconds n := by
  unfold parse? at read
  dsimp only at read
  split at read
  · contradiction
  · obtain ⟨n, found, rfl⟩ := Option.map_eq_some_iff.mp read
    refine ⟨n, ?_, rfl⟩
    cases whole : Text.word64? (Text.trim s.toList) with
    | some m =>
      rw [whole] at found
      cases found
      exact Text.word64?_lt whole
    | none =>
      rw [whole] at found
      exact groups?_lt (show 0 < Text.word64Bound by decide) found

theorem trimmed_toString (n : Nat) : Text.trimmed (toString n) = toString n := by
  rw [Text.trimmed, Nat.toString_eq_ofList_toDigits, String.toList_ofList]
  rw [Text.trim_of_visible fun c member =>
    Text.isBlank_of_isDigit (Text.isDigit_of_mem_toDigits c member)]

theorem parse?_toString {n : Nat} (below : n < Text.word64Bound) :
    parse? (toString n) = some (.ofSeconds n) := by
  have digits : Text.trim (toString n).toList = Nat.toDigits 10 n := by
    rw [← String.toList_ofList (l := Text.trim _), ← Text.trimmed, trimmed_toString,
      Nat.toString_eq_ofList_toDigits, String.toList_ofList]
  have given : (Nat.toDigits 10 n).isEmpty = false := by simp
  simp only [parse?, digits, given, Text.word64?_toDigits below, Bool.false_eq_true, if_false]
  rfl

/-- The lengths of time that can be written are the whole seconds below `2 ^ 64`. -/
theorem parse?_range {d : Duration} :
    (∃ s, parse? s = some d) ↔ ∃ n < Text.word64Bound, d = .ofSeconds n := by
  constructor
  · rintro ⟨s, read⟩
    exact parse?_bounded read
  · rintro ⟨n, below, rfl⟩
    exact ⟨toString n, parse?_toString below⟩

end Duration

end ImagePipeline
