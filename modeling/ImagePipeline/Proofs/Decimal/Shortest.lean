import ImagePipeline.Decimal.Shortest

/-! What the digits of a number stand for. They are read back as the number, no fewer digits are,
and of those with so few digits none is nearer. -/
namespace ImagePipeline.Decimal.Magnitude

variable {m : Magnitude} {x y unit digits other power : Nat}

theorem pow_le_halfStep (m : Magnitude) : Nat.pow 2 m.exponent ≤ m.halfStep := by
  have five (k : Nat) : 0 < Nat.pow 5 k := Nat.pow_pos (Nat.succ_pos 4)
  exact Nat.le_mul_of_pos_left _ (five grainPlaces)

theorem halfStepBelow_pos (m : Magnitude) : 0 < m.halfStepBelow := by
  have large := m.pow_le_halfStep
  unfold halfStepBelow
  split
  · rename_i changes
    have two : 2 ≤ Nat.pow 2 m.exponent :=
      Nat.pow_le_pow_right (n := 2) Nat.two_pos (Nat.le_of_lt changes.2)
    exact Nat.div_pos (Nat.le_trans two large) Nat.two_pos
  · have one : 0 < Nat.pow 2 m.exponent := Nat.pow_pos Nat.two_pos
    exact Nat.lt_of_lt_of_le one large

theorem halfStepBelow_le (m : Magnitude) : m.halfStepBelow ≤ m.halfStep := by
  unfold halfStepBelow
  split
  · exact Nat.div_le_self _ _
  · exact Nat.le_refl _

/-- What is between a number and something that is read as it is read as it too. -/
theorem Reads.between (reads : m.Reads x)
    (between : (x ≤ y ∧ y ≤ m.grains) ∨ (m.grains ≤ y ∧ y ≤ x)) : m.Reads y := by
  have below := m.halfStepBelow_pos
  have above := m.halfStepBelow_le
  have parity : m.significand % 2 < 2 := Nat.mod_lt _ (by decide)
  obtain ⟨lower, upper⟩ := reads
  rcases between with ⟨behind, before⟩ | ⟨behind, before⟩
  · exact ⟨by omega, by omega⟩
  · exact ⟨by omega, by omega⟩

theorem reads_grains (m : Magnitude) : m.Reads m.grains := by
  have below := m.halfStepBelow_pos
  have above := m.halfStepBelow_le
  have parity : m.significand % 2 < 2 := Nat.mod_lt _ (by decide)
  exact ⟨by omega, by omega⟩

/-! ### Multiples of a unit -/

theorem multiple_le (m : Magnitude) (unit : Nat) : m.grains / unit * unit ≤ m.grains :=
  Nat.div_mul_le_self _ _

theorem lt_next_multiple (m : Magnitude) (positive : 0 < unit) :
    m.grains < (m.grains / unit + 1) * unit := by
  rw [Nat.mul_comm]
  exact Nat.lt_mul_div_succ _ positive

/-- Between these two there is no other multiple. -/
theorem multiple_aside (m : Magnitude) (unit other : Nat) :
    other * unit ≤ m.grains / unit * unit ∨ (m.grains / unit + 1) * unit ≤ other * unit := by
  rcases Nat.lt_or_ge (m.grains / unit) other with behind | before
  · exact .inr (Nat.mul_le_mul_right unit behind)
  · exact .inl (Nat.mul_le_mul_right unit before)

theorem multiple?_reads (found : m.multiple? unit = some digits) : m.Reads (digits * unit) := by
  simpa using List.find?_some found

/-- The multiples on both sides of a number are tried. -/
theorem multiple?_eq_none (positive : 0 < unit) (none : m.multiple? unit = none) (digits : Nat) :
    ¬m.Reads (digits * unit) := by
  intro reads
  have tried := List.find?_eq_none.mp none
  rcases m.multiple_aside unit digits with before | behind
  · exact tried (m.grains / unit) (by simp)
      (decide_eq_true (reads.between (.inl ⟨before, m.multiple_le unit⟩)))
  · exact tried (m.grains / unit + 1) (by simp)
      (decide_eq_true (reads.between (.inr ⟨Nat.le_of_lt (m.lt_next_multiple positive), behind⟩)))

/-- How far something is from a number. -/
def distance (m : Magnitude) (grains : Nat) : Nat := (grains - m.grains) + (m.grains - grains)

theorem roundedQuotient_cases (a b : Nat) :
    roundedQuotient a b = a / b ∨ roundedQuotient a b = a / b + 1 := by
  unfold roundedQuotient
  dsimp only
  split
  · exact .inr rfl
  · exact .inl rfl

theorem distance_roundedQuotient (m : Magnitude) (positive : 0 < unit) (other : Nat) :
    m.distance (roundedQuotient m.grains unit * unit) ≤ m.distance (other * unit) := by
  have rest := Nat.mod_lt m.grains positive
  have whole := Nat.div_add_mod' m.grains unit
  have next := Nat.add_one_mul (m.grains / unit) unit
  have sides := m.multiple_aside unit other
  unfold roundedQuotient distance
  dsimp only
  split
  · rename_i up
    simp only [Bool.or_eq_true, decide_eq_true_eq, Bool.and_eq_true, beq_iff_eq] at up
    omega
  · rename_i down
    simp only [Bool.or_eq_true, decide_eq_true_eq, Bool.and_eq_true, beq_iff_eq, not_or,
      not_and] at down
    omega

/-- No multiple of the unit that is read back is nearer. -/
theorem multiple?_nearest (positive : 0 < unit) (found : m.multiple? unit = some digits)
    (reads : m.Reads (other * unit)) : m.distance (digits * unit) ≤ m.distance (other * unit) := by
  unfold multiple? at found
  rw [List.find?_cons] at found
  split at found
  · obtain rfl := Option.some.inj found
    exact m.distance_roundedQuotient positive other
  · rename_i unread
    have near := roundedQuotient_cases m.grains unit
    have lower := m.multiple_le unit
    have upper := m.lt_next_multiple positive
    unfold distance
    -- the nearest multiple is not read back, so that all that are lie on the other side
    rcases m.multiple_aside unit other with before | behind
    · have read : m.Reads (m.grains / unit * unit) := reads.between (.inl ⟨before, lower⟩)
      rcases near with same | same
      · rw [same, decide_eq_true read] at unread
        cases unread
      · rw [List.find?_cons, decide_eq_true read] at found
        obtain rfl := Option.some.inj found
        omega
    · have read : m.Reads ((m.grains / unit + 1) * unit) :=
        reads.between (.inr ⟨Nat.le_of_lt upper, behind⟩)
      rcases near with same | same
      · rw [same] at unread
        rw [List.find?_cons, unread, List.find?_cons, decide_eq_true read] at found
        obtain rfl := Option.some.inj found
        omega
      · rw [same, decide_eq_true read] at unread
        cases unread

/-- The digits are read back as the number. -/
theorem digitsFrom_reads (m : Magnitude) (top : Nat) :
    m.Reads ((m.digitsFrom top).1 * Nat.pow 10 (m.digitsFrom top).2) := by
  fun_induction digitsFrom m top with
  | case1 =>
    rw [Nat.pow_eq, Nat.pow_zero, Nat.mul_one]
    exact m.reads_grains
  | case2 top digits found => exact multiple?_reads found
  | case3 top none ih => exact ih

/-- No digits that count a larger power are. -/
theorem digitsFrom_fewest (m : Magnitude) (top : Nat) {power : Nat}
    (larger : (m.digitsFrom top).2 < power) (tried : power ≤ top) (digits : Nat) :
    ¬m.Reads (digits * Nat.pow 10 power) := by
  fun_induction digitsFrom m top with
  | case1 => omega
  | case2 => omega
  | case3 top none ih =>
    rcases Nat.lt_or_ge top power with last | before
    · obtain rfl : power = top + 1 := by omega
      exact multiple?_eq_none (Nat.pow_pos (by decide)) none digits
    · exact ih larger before

/-- No digits that count the same power and are read back are nearer. -/
theorem digitsFrom_nearest (m : Magnitude) (top : Nat) {other : Nat}
    (reads : m.Reads (other * Nat.pow 10 (m.digitsFrom top).2)) :
    m.distance ((m.digitsFrom top).1 * Nat.pow 10 (m.digitsFrom top).2) ≤
      m.distance (other * Nat.pow 10 (m.digitsFrom top).2) := by
  fun_induction digitsFrom m top with
  | case1 =>
    rw [Nat.pow_eq, Nat.pow_zero, Nat.mul_one, distance, Nat.sub_self]
    exact Nat.zero_le _
  | case2 top digits found => exact multiple?_nearest (Nat.pow_pos (by decide)) found reads
  | case3 top none ih => exact ih reads

/-- The digits of a number are read back as it. No digits that count a larger power are, nor any
that count the same power and stand for something nearer. -/
theorem shortest_spec (m : Magnitude) :
    m.Reads (m.shortest.1 * Nat.pow 10 m.shortest.2) ∧
    (∀ power, m.shortest.2 < power → power ≤ topPower → ∀ digits,
      ¬m.Reads (digits * Nat.pow 10 power)) ∧
    ∀ other, m.Reads (other * Nat.pow 10 m.shortest.2) →
      m.distance (m.shortest.1 * Nat.pow 10 m.shortest.2) ≤
        m.distance (other * Nat.pow 10 m.shortest.2) :=
  ⟨m.digitsFrom_reads topPower, fun _ => m.digitsFrom_fewest topPower,
    fun _ => m.digitsFrom_nearest topPower⟩

example : [0x4097700000000000, 0x3fb999999999999a, 0x3eb0c6f7a0b5ed8d, 0x4341c37937e08000].map
    (fun bits => (ofBits bits).shortestText) = ["1500.0", "0.1", "1e-6", "1e16"] := by
  decide +kernel

end ImagePipeline.Decimal.Magnitude
