import Reckoner.Proofs.Contract
import Reckoner.Proofs.ReadBack
import Reckoner.Proofs.RoundedOnce

set_option autoImplicit false

namespace Reckoner

namespace Number

variable {x y : Float} {b c : Binary}

theorem ofFloat?_half : Binary.ofFloat? 0.5 = some ⟨false, Binary.hiddenBit, -53⟩ := rfl

theorem value_half : (⟨false, Binary.hiddenBit, -53⟩ : Binary).value = 1 / 2 := by
  norm_num [Binary.value_eq, Binary.hiddenBit]

/-- A difference of at least one half is not rounded to below it. -/
theorem half_le_sub (exactX : Binary.ofFloat? x = some b) (exactY : Binary.ofFloat? y = some c)
    (far : 1 / 2 ≤ b.value - c.value) : 0.5 ≤ x - y := by
  have distinct : b.value ≠ c.value := by
    intro same
    norm_num [same] at far
  have above : (⟨false, Binary.hiddenBit, -53⟩ : Binary).value ≤ (b.difference c).value := by
    rw [value_half, b.value_difference]
    exact far
  rw [sub_eq_toFloat exactX exactY distinct]
  rcases le_value_toFloat ofFloat?_half (value_half ▸ one_half_pos) above with
    infinite | ⟨d, exact, least⟩
  · rw [infinite]
    decide
  · exact (le_iff_value ofFloat?_half exact).mpr least

/-- A difference from an integer that is below one half is not rounded at all. -/
theorem sub_lt_half (exactX : Binary.ofFloat? x = some b) {n : Int} (below : n ≤ b.value)
    (near : b.value - n < 1 / 2) : ¬ 0.5 ≤ x - ofInt n := by
  have distance : |b.value - n| < 1 / 2 := by
    rw [abs_of_nonneg (sub_nonneg.mpr below)]
    exact near
  have integer := isExact_of_near exactX (distance.trans one_half_lt_one)
  obtain ⟨c, exactY, value⟩ := integer.ofFloat?_ofInt
  obtain ⟨z, d, exactZ, difference⟩ := Binary.exists_float_sub_int exactX distance.le
  rw [← value] at difference near
  obtain ⟨e, exactE, same⟩ := ofFloat?_sub exactX exactY exactZ difference
  rw [le_iff_value ofFloat?_half exactE, value_half, same, not_le]
  exact near

/-- The rounded distance to the integer below decides as the exact one does. -/
theorem half_le_sub_floor_iff (exact : Binary.ofFloat? x = some b) :
    0.5 ≤ x - ofInt b.floor ↔ 1 / 2 ≤ Int.fract b.value := by
  have fract : b.value - b.floor = Int.fract b.value := by rw [b.floor_eq, Int.self_sub_floor]
  constructor
  · intro counts
    by_contra small
    rw [not_le, ← fract] at small
    refine sub_lt_half exact ?_ small counts
    rw [b.floor_eq]
    exact Int.floor_le b.value
  · intro large
    have near : |b.value - b.floor| < 1 := by
      rw [fract, Int.abs_fract]
      exact Int.fract_lt_one b.value
    obtain ⟨c, exactY, value⟩ := (isExact_of_near exact near).ofFloat?_ofInt
    apply half_le_sub exact exactY
    rw [value, fract]
    exact large

end Number

theorem floor_add_half (q : ℚ) :
    ⌊q + 1 / 2⌋ = if 1 / 2 ≤ Int.fract q then ⌊q⌋ + 1 else ⌊q⌋ := by
  have parts := Int.floor_add_fract q
  have nonneg := Int.fract_nonneg q
  have small := Int.fract_lt_one q
  rw [Int.floor_eq_iff]
  split
  · push_cast
    constructor <;> linarith
  · constructor <;> linarith

namespace Builtin

variable {v : Value} {x : Float} {b : Binary}

theorem roundHalfUp_eq (exact : Binary.ofFloat? x = some b) :
    roundHalfUp x = Number.ofInt ⌊b.value + 1 / 2⌋ := by
  have decides := Number.half_le_sub_floor_iff exact
  rw [b.floor_eq] at decides
  simp only [roundHalfUp, ofExact, exact, b.floor_eq, decides, floor_add_half]

theorem apply_round (t : Tolerance) (real : v.real? t = some x) :
    apply t .round [v] = .ok (.number (roundHalfUp x)) := by
  simp only [apply, apply.real, realArgument, singleArgument, bind, Except.bind,
    Arith.toReal_of_real real]
  rfl

/-- Every finite number is rounded to the nearest integer in exact arithmetic, a half going up,
although a rounded distance decides; and the integer is a double. -/
theorem round_is_half_up (t : Tolerance) (real : v.real? t = some x) (finite : x.isFinite = true) :
    ∃ (b : Binary) (r : Int), Binary.ofFloat? x = some b ∧
      apply t .round [v] = .ok (.number (Number.ofInt r)) ∧
      (∃ c, Binary.ofFloat? (Number.ofInt r) = some c ∧ c.value = r) ∧
      r = ⌊b.value + 1 / 2⌋ ∧ (r : ℚ) - 1 / 2 ≤ b.value ∧ b.value < r + 1 / 2 := by
  obtain ⟨b, exact⟩ := Number.exists_ofFloat? finite
  have low := Int.floor_le (b.value + 1 / 2)
  have high := Int.lt_floor_add_one (b.value + 1 / 2)
  have near : |b.value - ⌊b.value + 1 / 2⌋| < 1 := by
    rw [abs_lt]
    constructor <;> linarith
  refine ⟨b, ⌊b.value + 1 / 2⌋, exact, ?_, (Number.isExact_of_near exact near).ofFloat?_ofInt, rfl,
    by linarith, by linarith⟩
  rw [apply_round t real, roundHalfUp_eq exact]

/-- A complex number that counts as real, so little below zero that its distance to the integer
below is rounded. -/
theorem round_is_half_up_rounded :
    Value.real? .standard (.complex ⟨-1e-20, 1e-10⟩) = some (-1e-20) ∧
    (-1e-20 : Float).isFinite = true ∧
    ∃ (b : Binary) (r : Int), Binary.ofFloat? (-1e-20) = some b ∧
      apply .standard .round [.complex ⟨-1e-20, 1e-10⟩] = .ok (.number (Number.ofInt r)) ∧
      (∃ c, Binary.ofFloat? (Number.ofInt r) = some c ∧ c.value = r) ∧
      r = ⌊b.value + 1 / 2⌋ ∧ (r : ℚ) - 1 / 2 ≤ b.value ∧ b.value < r + 1 / 2 := by
  have real : Value.real? .standard (.complex ⟨-1e-20, 1e-10⟩) = some (-1e-20) := by
    rw [Value.real?, if_pos (by decide +kernel)]
  have finite : (-1e-20 : Float).isFinite = true := rfl
  exact ⟨real, finite, round_is_half_up .standard real finite⟩

-- Neither the double before one half nor a distance that is rounded up to one is misled.
example : roundHalfUp 0.49999999999999994 = 0 ∧ (-1e-20 : Float) - (-1) = 1 ∧
    roundHalfUp (-1e-20) = 0 ∧ roundHalfUp (-2.5) = -2 := by
  decide +kernel

end Builtin

end Reckoner
