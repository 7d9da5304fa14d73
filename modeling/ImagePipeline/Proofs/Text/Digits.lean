import ImagePipeline.Text.Digits

/-! Numbers read back from their digits, in any base up to sixteen. Zeros in front make digits
longer and do not change the number. -/
namespace ImagePipeline.Text

variable {base width n : Nat}

theorem digitValue?_digitChar : ∀ d < 16, digitValue? d.digitChar = some d := by
  decide

theorem digitsValue?_append (base acc : Nat) (front back : List Char) :
    digitsValue? base acc (front ++ back) =
      (digitsValue? base acc front).bind fun value => digitsValue? base value back := by
  induction front generalizing acc with
  | nil => rfl
  | cons c front ih =>
    rw [List.cons_append, digitsValue?, digitsValue?]
    cases digitValue? c with
    | none => rfl
    | some d =>
      dsimp only
      split
      · exact ih _
      · rfl

theorem digitsValue?_digitChar (few : base ≤ 16) (acc : Nat) {d : Nat}
    (below : d < base) : digitsValue? base acc [d.digitChar] = some (acc * base + d) := by
  rw [digitsValue?, digitValue?_digitChar d (Nat.lt_of_lt_of_le below few)]
  exact if_pos below

theorem digitsValue?_toDigits (more : 1 < base) (few : base ≤ 16) (n : Nat) :
    digitsValue? base 0 (Nat.toDigits base n) = some n := by
  induction n using Nat.strongRecOn with
  | ind n ih =>
    by_cases last : n < base
    · rw [Nat.toDigits_of_lt_base last, digitsValue?_digitChar few 0 last, Nat.zero_mul,
        Nat.zero_add]
    · have positive : 0 < n := by omega
      rw [Nat.toDigits_of_base_le more (Nat.le_of_not_lt last), digitsValue?_append,
        ih (n / base) (Nat.div_lt_self positive more), Option.bind_some,
        digitsValue?_digitChar few _ (Nat.mod_lt n (by omega)), Nat.div_add_mod']

theorem digitsValue?_zeros (positive : 0 < base) (count : Nat) (digits : List Char) :
    digitsValue? base 0 (List.replicate count '0' ++ digits) = digitsValue? base 0 digits := by
  induction count with
  | zero => rfl
  | succ count ih =>
    rw [List.replicate_succ, List.cons_append, digitsValue?]
    have zero : digitValue? '0' = some 0 := by decide
    rw [zero]
    dsimp only
    rw [if_pos positive, Nat.zero_mul]
    exact ih

/-- A number is read back from its digits with zeros in front. -/
theorem digitsValue?_padded (more : 1 < base) (few : base ≤ 16) (width n : Nat) :
    digitsValue? base 0 (padded base width n).toList = some n := by
  rw [padded, String.toList_ofList, digitsValue?_zeros (Nat.zero_lt_of_lt more),
    digitsValue?_toDigits more few]

theorem padded_inj (more : 1 < base) (few : base ≤ 16) {m n : Nat}
    (same : padded base width m = padded base width n) : m = n := by
  have value := digitsValue?_padded more few width m
  rw [same, digitsValue?_padded more few] at value
  exact (Option.some.inj value).symm

theorem length_padded (more : 1 < base) (some : 0 < width) (below : n < Nat.pow base width) :
    (padded base width n).toList.length = width := by
  have short := (Nat.length_toDigits_le_iff more some).mpr below
  rw [padded, String.toList_ofList, List.length_append, List.length_replicate]
  omega

end ImagePipeline.Text
