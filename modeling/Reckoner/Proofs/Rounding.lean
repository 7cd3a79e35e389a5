import Reckoner.Proofs.Fraction

set_option autoImplicit false

namespace Reckoner

namespace Number

/-- Shifting the numerator down or the denominator up divides by a power of two. -/
theorem cast_shiftLeft_div (num den : Nat) (e : Int) :
    ((num <<< (-e).toNat : Nat) : ℚ) / ((den <<< e.toNat : Nat) : ℚ) = num / den / 2 ^ e := by
  rw [Nat.shiftLeft_eq, Nat.shiftLeft_eq]
  push_cast
  rcases Int.le_total 0 e with nonneg | nonpos
  · have up : (2 : ℚ) ^ e = 2 ^ e.toNat := by
      rw [← zpow_natCast, Int.toNat_of_nonneg nonneg]
    have none : (-e).toNat = 0 := by omega
    rw [up, none, pow_zero, mul_one, div_div]
  · have down : (2 : ℚ) ^ e = (2 ^ (-e).toNat)⁻¹ := by
      rw [← zpow_natCast, Int.toNat_of_nonneg (by omega), zpow_neg, inv_inv]
    have none : e.toNat = 0 := by omega
    rw [down, none, pow_zero, mul_one, div_inv_eq_mul, div_mul_eq_mul_div]

/-- A natural number that rounding may give for `q`: none is nearer, and in a tie it is even. -/
structure RoundsTo (q : ℚ) (n : Nat) : Prop where
  near : |q - n| ≤ 1 / 2
  even : |q - n| = 1 / 2 → n % 2 = 0

theorem RoundsTo.unique {q : ℚ} {n m : Nat} (first : RoundsTo q n) (second : RoundsTo q m) :
    n = m := by
  have nearN := abs_le.mp first.near
  have nearM := abs_le.mp second.near
  have below : n ≤ m + 1 := by
    have bound : (n : ℚ) ≤ m + 1 := by linarith
    exact_mod_cast bound
  have above : m ≤ n + 1 := by
    have bound : (m : ℚ) ≤ n + 1 := by linarith
    exact_mod_cast bound
  by_contra distinct
  -- Neighbours are both at distance one half, so both would be even.
  have tie : |q - n| = 1 / 2 ∧ |q - m| = 1 / 2 := by
    rcases (by omega : n = m + 1 ∨ m = n + 1) with rfl | rfl
    · push_cast at nearN
      have middle : q = m + 1 / 2 := by linarith
      subst middle
      push_cast
      norm_num
    · push_cast at nearM
      have middle : q = n + 1 / 2 := by linarith
      subst middle
      push_cast
      norm_num
  have evenN := first.even tie.1
  have evenM := second.even tie.2
  omega

namespace RoundsTo

theorem down (n : Nat) {part : ℚ} (nonneg : 0 ≤ part) (low : part < 1 / 2) :
    RoundsTo (n + part) n := by
  have distance : |(n : ℚ) + part - n| = part := by
    rw [add_sub_cancel_left, abs_of_nonneg nonneg]
  constructor
  · rw [distance]
    exact low.le
  · intro tie
    rw [distance] at tie
    exact absurd tie low.ne

theorem up (n : Nat) {part : ℚ} (high : 1 / 2 < part) (below : part < 1) :
    RoundsTo (n + part) (n + 1) := by
  have distance : |(n : ℚ) + part - (n + 1 : Nat)| = 1 - part := by
    push_cast
    rw [add_sub_add_left_eq_sub, abs_sub_comm, abs_of_pos (by linarith)]
  constructor
  · rw [distance]
    linarith
  · intro tie
    rw [distance] at tie
    linarith

theorem tie (n : Nat) : RoundsTo (n + 1 / 2) (n + n % 2) := by
  have distance : |(n : ℚ) + 1 / 2 - (n + n % 2 : Nat)| = 1 / 2 := by
    push_cast
    rw [add_sub_add_left_eq_sub]
    rcases Nat.mod_two_eq_zero_or_one n with even | odd
    · rw [even]
      norm_num
    · rw [odd]
      norm_num
  exact ⟨distance.le, fun _ => by omega⟩

end RoundsTo

theorem nearestQuotient_roundsTo (num : Nat) {den : Nat} (positive : 0 < den) :
    RoundsTo (num / den) (nearestQuotient num den) := by
  have scale : (0 : ℚ) < den := by exact_mod_cast positive
  have parts : (num : ℚ) / den = (num / den : Nat) + ((num % den : Nat) : ℚ) / den := by
    field_simp
    exact_mod_cast (Nat.div_add_mod num den).symm
  rw [parts]
  simp only [nearestQuotient]
  split
  · rename_i below
    rw [Nat.compare_eq_lt] at below
    have low : (2 * (num % den : Nat) : ℚ) < den := by exact_mod_cast below
    refine RoundsTo.down _ (by positivity) ?_
    rw [div_lt_iff₀ scale]
    linarith
  · rename_i middle
    rw [Nat.compare_eq_eq] at middle
    have half : (2 * (num % den : Nat) : ℚ) = den := by exact_mod_cast middle
    have part : ((num % den : Nat) : ℚ) / den = 1 / 2 := by
      rw [div_eq_iff scale.ne']
      linarith
    rw [part]
    exact RoundsTo.tie _
  · rename_i above
    rw [Nat.compare_eq_gt] at above
    have high : (den : ℚ) < 2 * (num % den : Nat) := by exact_mod_cast above
    refine RoundsTo.up _ ?_ ?_
    · rw [lt_div_iff₀ scale]
      linarith
    · rw [div_lt_one scale]
      exact_mod_cast Nat.mod_lt num positive

/-- Of all multiples of the unit, none is nearer to a number than the rounded one, and another is
as near only if the rounded one is even. -/
theorem RoundsTo.closest {q : ℚ} {n : Nat} (rounds : RoundsTo q n) (k : Nat) :
    |q - n| ≤ |q - k| ∧ (|q - n| = |q - k| → k ≠ n → n % 2 = 0) := by
  by_cases same : k = n
  · subst same
    exact ⟨le_rfl, fun _ distinct => absurd rfl distinct⟩
  · have apart : (1 : ℚ) ≤ |(k : ℚ) - n| := by
      have integers : 1 ≤ |(k : ℤ) - n| := Int.one_le_abs (by omega)
      exact_mod_cast integers
    have triangle : |(k : ℚ) - n| ≤ |q - n| + |q - k| := by
      have sum := abs_sub_le (k : ℚ) q n
      rw [abs_sub_comm (k : ℚ) q] at sum
      linarith
    have near := rounds.near
    refine ⟨by linarith, fun tie _ => rounds.even ?_⟩
    linarith

theorem zpow_log2_le {n : Nat} (positive : 0 < n) : (2 : ℚ) ^ (n.log2 : Int) ≤ n := by
  rw [zpow_natCast]
  exact_mod_cast Nat.log2_self_le positive.ne'

theorem lt_zpow_log2_add_one (n : Nat) : (n : ℚ) < 2 ^ ((n.log2 : Int) + 1) := by
  have bound : n < 2 ^ (n.log2 + 1) := Nat.lt_log2_self
  rw [← Nat.cast_succ, zpow_natCast]
  exact_mod_cast bound

theorem log_eq_of_le_of_lt {q : ℚ} {e : Int} (low : 2 ^ e ≤ q) (high : q < 2 ^ (e + 1)) :
    Int.log 2 q = e := by
  have positive : 0 < q := lt_of_lt_of_le (zpow_pos two_pos e) low
  have above := (Int.zpow_le_iff_le_log (b := 2) (by decide) positive).mp (by exact_mod_cast low)
  have below := (Int.lt_zpow_iff_log_lt (b := 2) (by decide) positive).mp (by exact_mod_cast high)
  omega

/-- The last mantissa bit is fifty-two below the leading bit of the fraction, but not below the
least. -/
theorem unitExponent_eq {num den : Nat} (numPos : 0 < num) (denPos : 0 < den) :
    unitExponent num den = max (Int.log 2 ((num : ℚ) / den) - 52) (-1074) := by
  have scale : (0 : ℚ) < den := by exact_mod_cast denPos
  have high : (num : ℚ) / den < 2 ^ ((num.log2 : Int) - den.log2 + 1) := by
    rw [div_lt_iff₀ scale]
    calc (num : ℚ) < 2 ^ ((num.log2 : Int) + 1) := lt_zpow_log2_add_one num
      _ = 2 ^ ((num.log2 : Int) - den.log2 + 1) * 2 ^ (den.log2 : Int) := by
        rw [← zpow_add₀ two_ne_zero]
        congr 1
        omega
      _ ≤ 2 ^ ((num.log2 : Int) - den.log2 + 1) * den := by
        gcongr
        exact zpow_log2_le denPos
  have low : 2 ^ ((num.log2 : Int) - den.log2 - 1) ≤ (num : ℚ) / den := by
    rw [le_div_iff₀ scale]
    calc (2 : ℚ) ^ ((num.log2 : Int) - den.log2 - 1) * den
        ≤ 2 ^ ((num.log2 : Int) - den.log2 - 1) * 2 ^ ((den.log2 : Int) + 1) := by
          gcongr
          exact (lt_zpow_log2_add_one den).le
      _ = 2 ^ (num.log2 : Int) := by
        rw [← zpow_add₀ two_ne_zero]
        congr 1
        omega
      _ ≤ num := zpow_log2_le numPos
  simp only [unitExponent]
  generalize (num.log2 : Int) - den.log2 = e at low high ⊢
  have test : num <<< (-e).toNat < den <<< e.toNat ↔ (num : ℚ) / den < 2 ^ e := by
    have shifted : (0 : ℚ) < (den <<< e.toNat : Nat) := by
      rw [Nat.shiftLeft_eq]
      positivity
    rw [← Nat.cast_lt (α := ℚ), ← div_lt_one shifted, cast_shiftLeft_div,
      div_lt_one (zpow_pos two_pos e)]
  by_cases less : num <<< (-e).toNat < den <<< e.toNat
  · have top : (num : ℚ) / den < 2 ^ (e - 1 + 1) := by
      rw [sub_add_cancel]
      exact test.mp less
    rw [if_pos less, log_eq_of_le_of_lt low top]
  · have bottom : 2 ^ e ≤ (num : ℚ) / den := not_lt.mp (mt test.mpr less)
    rw [if_neg less, log_eq_of_le_of_lt bottom high]

def mantissaAt (num den : Nat) (unit : Int) : Nat :=
  nearestQuotient (num <<< (-unit).toNat) (den <<< unit.toNat)

theorem mantissaAt_roundsTo (num : Nat) {den : Nat} (denPos : 0 < den) (unit : Int) :
    RoundsTo ((num : ℚ) / den / 2 ^ unit) (mantissaAt num den unit) := by
  have shifted : 0 < den <<< unit.toNat := by
    rw [Nat.shiftLeft_eq]
    positivity
  rw [← cast_shiftLeft_div]
  exact nearestQuotient_roundsTo _ shifted

theorem nearest_eq {num : Nat} (positive : 0 < num) (den : Nat) :
    nearest num den = Float.ofBits (min (mantissaAt num den (unitExponent num den) +
      (unitExponent num den + 1074).toNat <<< 52) infinityBits).toUInt64 := by
  simp only [nearest, mantissaAt]
  rw [if_neg positive.ne']

theorem nearest_zero (den : Nat) : nearest 0 den = Float.ofBits 0 :=
  if_pos rfl

theorem nearest_of_isInf {num den : Nat} (infinite : (nearest num den).isInf = true) :
    nearest num den = infinity := by
  rcases Nat.eq_zero_or_pos num with rfl | positive
  · rw [nearest_zero] at infinite
    exact absurd infinite (by decide +kernel)
  · rw [nearest_eq positive] at infinite ⊢
    rcases Nat.lt_or_ge (mantissaAt num den (unitExponent num den) +
        (unitExponent num den + 1074).toNat <<< 52) infinityBits with small | large
    · rw [Nat.min_eq_left small.le, isInf_ofBits small] at infinite
      cases infinite
    · rw [Nat.min_eq_right large, infinity]

/-- The nearest double depends on the value of the fraction alone. -/
theorem nearest_congr {num den num' den' : Nat} (denPos : 0 < den) (denPos' : 0 < den')
    (same : (num : ℚ) / den = num' / den') : nearest num den = nearest num' den' := by
  rcases Nat.eq_zero_or_pos num with rfl | numPos
  · have zero : (num' : ℚ) / den' = 0 := by rw [← same, Nat.cast_zero, zero_div]
    have denNe : (den' : ℚ) ≠ 0 := by exact_mod_cast denPos'.ne'
    have empty : num' = 0 := by exact_mod_cast (div_eq_zero_iff.mp zero).resolve_right denNe
    rw [empty, nearest_zero, nearest_zero]
  · have positive : (0 : ℚ) < num' / den' := by
      rw [← same]
      positivity
    have numPos' : 0 < num' := by
      rcases Nat.eq_zero_or_pos num' with rfl | found
      · simp at positive
      · exact found
    have units : unitExponent num den = unitExponent num' den' := by
      rw [unitExponent_eq numPos denPos, unitExponent_eq numPos' denPos', same]
    have mantissas : mantissaAt num den (unitExponent num den) =
        mantissaAt num' den' (unitExponent num den) := by
      have first := mantissaAt_roundsTo num denPos (unitExponent num den)
      rw [same] at first
      exact first.unique (mantissaAt_roundsTo num' denPos' _)
    rw [nearest_eq numPos, nearest_eq numPos', mantissas, units]

/-- The mantissa fills the width of a double, unless the unit is the least; rounding may carry it to
the next power of two. -/
theorem mantissaAt_bounds {num den : Nat} (numPos : 0 < num) (denPos : 0 < den) :
    mantissaAt num den (unitExponent num den) ≤ 2 * Binary.hiddenBit ∧
      (Binary.hiddenBit ≤ mantissaAt num den (unitExponent num den) ∨
        unitExponent num den = -1074) := by
  have q0 : (0 : ℚ) < (num : ℚ) / den := by positivity
  have rounds := mantissaAt_roundsTo num denPos (unitExponent num den)
  have unit := unitExponent_eq numPos denPos
  have near := abs_le.mp rounds.near
  have low := Int.zpow_log_le_self (b := 2) (by decide) q0
  have high := Int.lt_zpow_succ_log_self (b := 2) (by decide) ((num : ℚ) / den)
  push_cast at low high
  generalize unitExponent num den = u at *
  generalize (num : ℚ) / den = q at *
  generalize mantissaAt num den u = m at *
  have step : (0 : ℚ) < 2 ^ u := zpow_pos two_pos u
  have top : q / 2 ^ u < 2 ^ (53 : Int) := by
    rw [div_lt_iff₀ step, ← zpow_add₀ two_ne_zero]
    refine lt_of_lt_of_le high (zpow_le_zpow_right₀ one_le_two ?_)
    omega
  constructor
  · have bound : (m : ℚ) < 9007199254740992 + 1 := by
      norm_num at top
      linarith
    have small : m < 9007199254740992 + 1 := by exact_mod_cast bound
    exact Nat.le_of_lt_succ small
  · by_cases clamped : u = -1074
    · exact Or.inr clamped
    · have exact : u = Int.log 2 q - 52 := by omega
      have bottom : (2 : ℚ) ^ (52 : Int) ≤ q / 2 ^ u := by
        rw [le_div_iff₀ step, ← zpow_add₀ two_ne_zero, exact]
        simpa using low
      have bound : (4503599627370496 : ℚ) < m + 1 := by
        norm_num at bottom
        linarith
      have large : 4503599627370496 < m + 1 := by exact_mod_cast bound
      exact Or.inl (Nat.le_of_lt_succ large)

end Number

namespace Binary

/-- The rational number that a fraction is. -/
def value (b : Binary) : ℚ :=
  b.signedNumerator / b.denominator

theorem numerator_div_denominator (b : Binary) :
    (b.numerator : ℚ) / b.denominator = b.mantissa * 2 ^ b.exponent := by
  have quotient := Number.cast_shiftLeft_div b.mantissa 1 (-b.exponent)
  rw [Int.neg_neg] at quotient
  rw [numerator, denominator, quotient, Nat.cast_one, div_one, zpow_neg, div_inv_eq_mul]

theorem value_eq (b : Binary) :
    b.value = if b.negative then -((b.mantissa : ℚ) * 2 ^ b.exponent)
      else (b.mantissa : ℚ) * 2 ^ b.exponent := by
  rw [value, signedNumerator, ← numerator_div_denominator]
  split <;> push_cast <;> ring

/-- A mantissa in some unit as a fraction; a carry moves into the exponent. -/
def carried (mantissa : Nat) (unit : Int) : Binary :=
  if mantissa = 2 * hiddenBit then ⟨false, hiddenBit, unit + 1⟩ else ⟨false, mantissa, unit⟩

theorem magnitudeBits_carried (mantissa : Nat) {unit : Int} (least : -1074 ≤ unit) :
    (carried mantissa unit).magnitudeBits = mantissa + (unit + 1074).toNat <<< 52 := by
  have shifted := Nat.shiftLeft_eq (unit + 1074).toNat 52
  unfold carried
  split
  · rename_i carry
    rw [magnitudeBits_eq, shifted, carry]
    simp only [hiddenBit]
    omega
  · rfl

theorem value_carried (mantissa : Nat) (unit : Int) :
    (carried mantissa unit).value = mantissa * 2 ^ unit := by
  unfold carried
  split
  · rename_i carry
    rw [value_eq, if_neg Bool.false_ne_true, carry, zpow_add_one₀ two_ne_zero]
    push_cast
    ring
  · rw [value_eq, if_neg Bool.false_ne_true]

theorem carried_even {mantissa : Nat} (even : mantissa % 2 = 0) (unit : Int) :
    (carried mantissa unit).mantissa % 2 = 0 := by
  unfold carried
  split
  · exact show hiddenBit % 2 = 0 by decide
  · exact even

theorem fits_carried {mantissa : Nat} {unit : Int} (width : mantissa ≤ 2 * hiddenBit)
    (full : hiddenBit ≤ mantissa ∨ unit = -1074) (least : -1074 ≤ unit)
    (small : mantissa + (unit + 1074).toNat <<< 52 < Number.infinityBits) :
    (carried mantissa unit).Fits := by
  have infinity : Number.infinityBits = 2047 * 4503599627370496 := by decide
  have shifted := Nat.shiftLeft_eq (unit + 1074).toNat 52
  rw [infinity, shifted] at small
  unfold carried
  split
  · rename_i carry
    constructor <;> simp only [hiddenBit] at * <;> omega
  · constructor <;> simp only [hiddenBit] at * <;> omega

end Binary

namespace Number

/-- A finite nearest double is its mantissa in its unit. -/
theorem ofFloat?_nearest {num den : Nat} (numPos : 0 < num) (denPos : 0 < den)
    (finite : (nearest num den).isInf = false) :
    Binary.ofFloat? (nearest num den) =
      some (.carried (mantissaAt num den (unitExponent num den)) (unitExponent num den)) := by
  obtain ⟨width, full⟩ := mantissaAt_bounds numPos denPos
  have least : -1074 ≤ unitExponent num den := by
    rw [unitExponent_eq numPos denPos]
    exact le_max_right _ _
  have small : mantissaAt num den (unitExponent num den) +
      (unitExponent num den + 1074).toNat <<< 52 < infinityBits := by
    by_contra large
    rw [nearest_eq numPos, Nat.min_eq_right (Nat.le_of_not_lt large)] at finite
    exact absurd finite (by decide +kernel)
  have fits := Binary.fits_carried width full least small
  have exact := fits.ofFloat?_magnitudeBits
  rw [Binary.magnitudeBits_carried _ least] at exact
  rw [nearest_eq numPos, Nat.min_eq_left (Nat.le_of_lt small), exact]
  unfold Binary.carried
  split <;> rfl

end Number

namespace Binary

/-- In a unit that is not coarser than its own a fraction has a natural mantissa. -/
theorem exists_mul_zpow {b : Binary} {unit : Int} (coarse : unit ≤ b.exponent) :
    ∃ k : Nat, (b.mantissa : ℚ) * 2 ^ b.exponent = k * 2 ^ unit := by
  have exponents : (2 : ℚ) ^ b.exponent = 2 ^ (b.exponent - unit).toNat * 2 ^ unit := by
    rw [← zpow_natCast, Int.toNat_of_nonneg (by omega), ← zpow_add₀ two_ne_zero]
    congr 1
    omega
  refine ⟨b.mantissa * 2 ^ (b.exponent - unit).toNat, ?_⟩
  rw [exponents]
  push_cast
  ring

/-- A fraction with a finer unit is below the power of two at which the coarser unit starts. -/
theorem lt_of_exponent_lt {b : Binary} {unit : Int} (width : b.mantissa < 2 * hiddenBit)
    (fine : b.exponent < unit) :
    (b.mantissa : ℚ) * 2 ^ b.exponent < 2 ^ (52 : Int) * 2 ^ unit := by
  have narrow : (b.mantissa : ℚ) < 2 ^ (53 : Int) := by
    norm_num
    exact_mod_cast width
  calc (b.mantissa : ℚ) * 2 ^ b.exponent < 2 ^ (53 : Int) * 2 ^ b.exponent := by gcongr
    _ = 2 ^ (52 : Int) * 2 ^ (b.exponent + 1) := by
      rw [zpow_add_one₀ two_ne_zero]
      norm_num
      ring
    _ ≤ 2 ^ (52 : Int) * 2 ^ unit := by
      gcongr
      · exact one_le_two
      · omega

end Binary

namespace Number

/-- Every double is a multiple of the unit of a fraction, or one such multiple is nearer to the
fraction. -/
theorem exists_multiple {num den : Nat} (numPos : 0 < num) (denPos : 0 < den) {x : Float}
    {b : Binary} (exact : Binary.ofFloat? x = some b) :
    ∃ k : Nat, b.value = k * 2 ^ unitExponent num den ∨
      |(num : ℚ) / den - k * 2 ^ unitExponent num den| < |(num : ℚ) / den - b.value| := by
  have q0 : (0 : ℚ) < (num : ℚ) / den := by positivity
  have unit := unitExponent_eq numPos denPos
  have low := Int.zpow_log_le_self (b := 2) (by decide) q0
  push_cast at low
  obtain ⟨width, least, -, -⟩ := Binary.fits_of_ofFloat? exact
  have value := b.value_eq
  generalize unitExponent num den = u at *
  generalize (num : ℚ) / den = q at *
  have magnitude : (0 : ℚ) ≤ (b.mantissa : ℚ) * 2 ^ b.exponent := by positivity
  by_cases negative : b.negative = true
  · -- Zero is between a negative double and the fraction.
    rw [if_pos negative] at value
    refine ⟨0, ?_⟩
    rcases magnitude.eq_or_lt with zero | positive
    · left
      rw [value, ← zero]
      simp
    · right
      rw [value, Nat.cast_zero, zero_mul, sub_zero, abs_of_pos q0, abs_of_pos (by linarith)]
      linarith
  · rw [if_neg negative] at value
    rcases le_or_gt u b.exponent with coarse | fine
    · obtain ⟨k, multiple⟩ := b.exists_mul_zpow coarse
      exact ⟨k, Or.inl (value.trans multiple)⟩
    · -- The unit of the fraction is not the least, so the fraction is not below its start.
      have start : (2 : ℚ) ^ (52 : Int) * 2 ^ u ≤ q := by
        rw [← zpow_add₀ two_ne_zero]
        refine le_trans (zpow_le_zpow_right₀ one_le_two ?_) low
        omega
      have below := Binary.lt_of_exponent_lt width fine
      have hidden : ((Binary.hiddenBit : Nat) : ℚ) = 2 ^ (52 : Int) := by
        norm_num [Binary.hiddenBit]
      refine ⟨Binary.hiddenBit, Or.inr ?_⟩
      rw [value, hidden, abs_of_nonneg (by linarith), abs_of_pos (by linarith)]
      linarith

/-- No double is nearer to `q`, and another is as near only if the mantissa is even. -/
structure IsNearest (q : ℚ) (b : Binary) : Prop where
  closest : ∀ x c, Binary.ofFloat? x = some c → |q - b.value| ≤ |q - c.value|
  even : ∀ x c, Binary.ofFloat? x = some c → c.value ≠ b.value →
    |q - b.value| = |q - c.value| → b.mantissa % 2 = 0

/-- Rounding to the nearest double is correct. -/
theorem nearest_isNearest (num : Nat) {den : Nat} (denPos : 0 < den)
    (finite : (nearest num den).isInf = false) :
    ∃ b, Binary.ofFloat? (nearest num den) = some b ∧ b.negative = false ∧
      IsNearest ((num : ℚ) / den) b := by
  rcases Nat.eq_zero_or_pos num with rfl | numPos
  · have zero : (⟨false, 0, -1074⟩ : Binary).value = 0 := by simp [Binary.value_eq]
    refine ⟨⟨false, 0, -1074⟩, ?_, rfl, ?_⟩
    · rw [nearest_zero]
      rfl
    · constructor
      · intro x c _
        rw [zero]
        simp
      · intros
        rfl
  · refine ⟨_, ofFloat?_nearest numPos denPos finite, ?_, ?_⟩
    · unfold Binary.carried
      split <;> rfl
    · have rounds := mantissaAt_roundsTo num denPos (unitExponent num den)
      generalize mantissaAt num den (unitExponent num den) = m at rounds ⊢
      have step : (0 : ℚ) < 2 ^ unitExponent num den := zpow_pos two_pos _
      have scaled (k : Nat) : |(num : ℚ) / den - k * 2 ^ unitExponent num den| =
          |(num : ℚ) / den / 2 ^ unitExponent num den - k| * 2 ^ unitExponent num den := by
        rw [← abs_of_pos step, ← abs_mul, abs_of_pos step, sub_mul, div_mul_cancel₀ _ step.ne']
      have closest (k : Nat) : |(num : ℚ) / den - m * 2 ^ unitExponent num den| ≤
          |(num : ℚ) / den - k * 2 ^ unitExponent num den| := by
        rw [scaled, scaled]
        exact mul_le_mul_of_nonneg_right (rounds.closest k).1 step.le
      constructor
      · intro x c exact
        rw [Binary.value_carried]
        obtain ⟨k, same | nearer⟩ := exists_multiple numPos denPos exact
        · rw [same]
          exact closest k
        · exact (closest k).trans nearer.le
      · intro x c exact distinct tie
        rw [Binary.value_carried] at distinct tie
        obtain ⟨k, same | nearer⟩ := exists_multiple numPos denPos exact
        · rw [same, scaled, scaled] at tie
          refine Binary.carried_even ((rounds.closest k).2 (mul_right_cancel₀ step.ne' tie) ?_) _
          rintro rfl
          exact distinct same
        · exact absurd (closest k) (not_le.mpr (tie ▸ nearer))

end Number

namespace Binary

theorem numerator_pos {b : Binary} (positive : 0 < b.mantissa) : 0 < b.numerator := by
  rw [numerator, Nat.shiftLeft_eq]
  positivity

/-- The unit of a fraction goes by the length of its mantissa. -/
theorem unitExponent_eq_log2 {b : Binary} (positive : 0 < b.mantissa) :
    Number.unitExponent b.numerator b.denominator =
      max ((b.mantissa.log2 : Int) + b.exponent - 52) (-1074) := by
  have value := b.numerator_div_denominator
  have low : 2 ^ ((b.mantissa.log2 : Int) + b.exponent) ≤ (b.numerator : ℚ) / b.denominator := by
    rw [value, zpow_add₀ two_ne_zero]
    gcongr
    exact Number.zpow_log2_le positive
  have high : (b.numerator : ℚ) / b.denominator <
      2 ^ ((b.mantissa.log2 : Int) + b.exponent + 1) := by
    rw [value, add_right_comm, zpow_add₀ two_ne_zero]
    gcongr
    exact Number.lt_zpow_log2_add_one b.mantissa
  rw [Number.unitExponent_eq (numerator_pos positive) b.denominator_pos,
    Number.log_eq_of_le_of_lt low high]

theorem unitExponent_of_fits {b : Binary} (fits : b.Fits) (positive : 0 < b.mantissa) :
    Number.unitExponent b.numerator b.denominator = b.exponent := by
  obtain ⟨width, least, -, full⟩ := fits
  have short : b.mantissa.log2 < 53 := (Nat.log2_lt positive.ne').mpr width
  rw [unitExponent_eq_log2 positive]
  rcases full with normal | subnormal
  · have long : 52 ≤ b.mantissa.log2 := (Nat.le_log2 positive.ne').mpr normal
    omega
  · omega

/-- The double nearest to the magnitude of a double is that magnitude. -/
theorem nearest_eq_abs {x : Float} {b : Binary} (exact : ofFloat? x = some b) :
    Number.nearest b.numerator b.denominator = x.abs := by
  have fits := fits_of_ofFloat? exact
  have magnitude := ofFloat?_magnitude exact
  refine eq_of_ofFloat? ?_ magnitude
  rcases Nat.eq_zero_or_pos b.mantissa with zero | positive
  · have empty : b.numerator = 0 := by rw [numerator, zero, Nat.zero_shiftLeft]
    have least : b.exponent = -1074 := by
      refine fits.full.resolve_left ?_
      rw [zero]
      decide
    have positive : ofFloat? (Float.ofBits 0) = some ⟨false, 0, -1074⟩ := rfl
    rw [empty, Number.nearest_zero, positive, zero, least]
  · have numPos := numerator_pos positive
    have rounds := Number.mantissaAt_roundsTo b.numerator b.denominator_pos b.exponent
    have step : (2 : ℚ) ^ b.exponent ≠ 0 := zpow_ne_zero _ two_ne_zero
    rw [numerator_div_denominator, mul_div_cancel_right₀ _ step] at rounds
    have mantissa : Number.mantissaAt b.numerator b.denominator b.exponent = b.mantissa :=
      rounds.unique ⟨by simp, by simp⟩
    have bits : b.magnitudeBits = b.mantissa + (b.exponent + 1074).toNat <<< 52 := by
      unfold magnitudeBits
      exact Eq.refl _
    rw [Number.nearest_eq numPos, unitExponent_of_fits fits positive, mantissa, ← bits,
      Nat.min_eq_left fits.magnitudeBits_lt.le, fits.ofFloat?_magnitudeBits]

/-- A fraction goes back to the double it came from. -/
theorem toFloat_eq {x : Float} {b : Binary} (exact : ofFloat? x = some b) : b.toFloat = x := by
  rw [toFloat, nearest_eq_abs exact]
  exact eq_of_ofFloat? (ofFloat?_signed (ofFloat?_magnitude exact) rfl b.negative) exact

end Binary
end Reckoner
