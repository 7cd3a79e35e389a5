import Mathlib.Data.Prod.Lex
import Reckoner.Proofs.Rounding

set_option autoImplicit false

namespace Reckoner

open Float.Model (UnpackedFloat)

namespace Number

/-- Where a double stands among the doubles: by its sign, and then by exponent and mantissa. Both
zeros stand at one place, and NaN at none. -/
def rank? : UnpackedFloat → Option (Int ×ₗ Int ×ₗ Int)
  | .notANumber => none
  | .infinity .negative => some (toLex (-2, toLex (0, 0)))
  | .finite .negative mantissa exponent _ => some (toLex (-1, toLex (-exponent, -(mantissa : Int))))
  | .zero _ => some (toLex (0, toLex (0, 0)))
  | .finite .positive mantissa exponent _ => some (toLex (1, toLex (exponent, (mantissa : Int))))
  | .infinity .positive => some (toLex (2, toLex (0, 0)))

theorem isLE_then_compare (e e' : Int) (m m' : Nat) :
    ((compare e e').then (compare m m')).isLE = true ↔ e < e' ∨ e = e' ∧ m ≤ m' := by
  rw [Ordering.isLE_then_iff_or, Ordering.isLE_iff_eq_lt_or_eq_eq]
  simp [compare_lt_iff_lt, Nat.le_iff_lt_or_eq]

theorem swap_then_compare (e e' : Int) (m m' : Nat) :
    ((compare e e').then (compare m m')).swap = (compare e' e).then (compare m' m) := by
  rw [Ordering.swap_then, ← Std.OrientedCmp.eq_swap, ← Std.OrientedCmp.eq_swap]

theorem le_iff_rank? (u v : UnpackedFloat) :
    UnpackedFloat.le u v = true ↔ ∃ a ∈ rank? u, ∃ b ∈ rank? v, a ≤ b := by
  -- By constructors and signs; only two numbers of one sign have their exponents compared.
  rcases u with s | _ | s | ⟨s, m, e, p⟩ <;> rcases v with s' | _ | s' | ⟨s', m', e', p'⟩ <;>
    (try cases s) <;> (try cases s') <;>
    simp [UnpackedFloat.le, UnpackedFloat.compare, rank?, Prod.Lex.toLex_le_toLex,
      isLE_then_compare, swap_then_compare]
  case finite.finite.negative.negative => omega
  all_goals rfl

theorem lt_then_compare (e e' : Int) (m m' : Nat) :
    (compare e e').then (compare m m') = .lt ↔ e < e' ∨ e = e' ∧ m < m' := by
  rw [Ordering.then_eq_lt]
  simp [compare_lt_iff_lt]

theorem lt_iff_rank? (u v : UnpackedFloat) :
    UnpackedFloat.lt u v = true ↔ ∃ a ∈ rank? u, ∃ b ∈ rank? v, a < b := by
  rcases u with s | _ | s | ⟨s, m, e, p⟩ <;> rcases v with s' | _ | s' | ⟨s', m', e', p'⟩ <;>
    (try cases s) <;> (try cases s') <;>
    simp [UnpackedFloat.lt, UnpackedFloat.compare, rank?, Prod.Lex.toLex_lt_toLex,
      lt_then_compare, swap_then_compare]
  case finite.finite.negative.negative => omega
  all_goals rfl

theorem le_trans {x y z : Float} (first : x ≤ y) (second : y ≤ z) : x ≤ z := by
  rw [le_iff, le_iff_rank?] at *
  obtain ⟨a, atX, b, atY, below⟩ := first
  obtain ⟨b', atY', c, atZ, above⟩ := second
  rw [Option.mem_def] at atY atY'
  cases atY.symm.trans atY'
  exact ⟨a, atX, c, atZ, Std.le_trans below above⟩

/-- The place of a number; that of NaN means nothing. -/
def rank (x : Float) : Int ×ₗ Int ×ₗ Int :=
  (rank? x.toModel.unpack).getD 0

theorem rank?_of_number {x : Float} (number : x.isNaN = false) :
    rank? x.toModel.unpack = some (rank x) := by
  unfold rank
  change x.toModel.unpack.isNaN = false at number
  generalize x.toModel.unpack = u at number ⊢
  cases u with
  | notANumber => cases number
  | infinity sign => cases sign <;> rfl
  | zero sign => rfl
  | finite sign mantissa exponent positive => cases sign <;> rfl

/-- Numbers are compared as their places are. -/
theorem lt_iff_rank {x y : Float} (numberX : x.isNaN = false) (numberY : y.isNaN = false) :
    x < y ↔ rank x < rank y := by
  rw [lt_iff, lt_iff_rank?, rank?_of_number numberX, rank?_of_number numberY]
  simp

/-- Numbers at one place are equal. -/
theorem beq_of_rank_eq {x y : Float} (numberX : x.isNaN = false) (numberY : y.isNaN = false)
    (same : rank x = rank y) : (x == y) = true := by
  have le : x ≤ y := by
    rw [le_iff, le_iff_rank?, rank?_of_number numberX, rank?_of_number numberY]
    exact ⟨rank x, rfl, rank y, rfl, same.le⟩
  refine ((le_iff_lt_or_eq x y).mp le).resolve_left ?_
  rw [lt_iff_rank numberX numberY]
  exact same.not_lt

end Number

namespace Binary

/-- Of two fractions that fit, the one with the greater exponent is the greater. -/
theorem Fits.mul_zpow_lt {b c : Binary} (fitsB : b.Fits) (fitsC : c.Fits)
    (finer : b.exponent < c.exponent) :
    (b.mantissa : ℚ) * 2 ^ b.exponent < c.mantissa * 2 ^ c.exponent := by
  have full : hiddenBit ≤ c.mantissa := by
    refine fitsC.full.resolve_right fun least => ?_
    have lowest := fitsB.least
    omega
  have start : (2 : ℚ) ^ (52 : Int) ≤ c.mantissa := by
    norm_num
    exact_mod_cast full
  calc (b.mantissa : ℚ) * 2 ^ b.exponent < 2 ^ (52 : Int) * 2 ^ c.exponent :=
        lt_of_exponent_lt fitsB.width finer
    _ ≤ c.mantissa * 2 ^ c.exponent := by gcongr

/-- Exponents decide before mantissas. -/
theorem Fits.compares {b c : Binary} (fitsB : b.Fits) (fitsC : c.Fits) :
    ((compare b.exponent c.exponent).then (compare b.mantissa c.mantissa)).Compares
      ((b.mantissa : ℚ) * 2 ^ b.exponent) (c.mantissa * 2 ^ c.exponent) := by
  rcases lt_trichotomy b.exponent c.exponent with finer | same | coarser
  · rw [Int.compare_eq_lt.mpr finer]
    exact fitsB.mul_zpow_lt fitsC finer
  · have step : (0 : ℚ) < 2 ^ c.exponent := zpow_pos two_pos _
    rw [same, Int.compare_eq_eq.mpr rfl]
    rcases lt_trichotomy b.mantissa c.mantissa with less | equal | greater
    · rw [Nat.compare_eq_lt.mpr less]
      exact mul_lt_mul_of_pos_right (by exact_mod_cast less) step
    · rw [equal, Nat.compare_eq_eq.mpr rfl]
      exact Eq.refl _
    · rw [Nat.compare_eq_gt.mpr greater]
      exact mul_lt_mul_of_pos_right (by exact_mod_cast greater) step
  · rw [Int.compare_eq_gt.mpr coarser]
    exact fitsC.mul_zpow_lt fitsB coarser

end Binary

namespace Number

theorem compares_neg {order : Ordering} {p q : ℚ} (compares : order.Compares p q) :
    order.Compares (-q) (-p) := by
  cases order with
  | lt => exact neg_lt_neg compares
  | eq => exact congrArg Neg.neg compares.symm
  | gt => exact neg_lt_neg compares

variable {x y : Float} {b c : Binary}

/-- Finite doubles are compared as fractions. -/
theorem compare_unpack (exactX : Binary.ofFloat? x = some b) (exactY : Binary.ofFloat? y = some c) :
    ∃ order, UnpackedFloat.compare x.toModel.unpack y.toModel.unpack = some order ∧
      order.Compares b.value c.value := by
  have order := (Binary.fits_of_ofFloat? exactX).compares (Binary.fits_of_ofFloat? exactY)
  rw [Binary.value_eq, Binary.value_eq]
  rw [Binary.ofFloat?_eq_ofUnpacked?] at exactX exactY
  generalize x.toModel.unpack = u at exactX ⊢
  generalize y.toModel.unpack = v at exactY ⊢
  have magnitude {m : Nat} (e : Int) (positive : 0 < m) : (0 : ℚ) < m * 2 ^ e := by positivity
  -- Only of two numbers of one sign the magnitudes are compared.
  cases u with
  | notANumber | infinity => cases exactX
  | zero sign =>
      cases exactX
      cases v with
      | notANumber | infinity => cases exactY
      | zero sign' =>
          cases exactY
          exact ⟨.eq, rfl, by simp [Ordering.Compares]⟩
      | finite sign' m' e' positive' =>
          cases exactY
          have above := magnitude e' positive'
          cases sign' with
          | negative => exact ⟨.gt, rfl, by simpa [Ordering.Compares] using above⟩
          | positive => exact ⟨.lt, rfl, by simpa [Ordering.Compares] using above⟩
  | finite sign m e positive =>
      cases exactX
      have above := magnitude e positive
      cases v with
      | notANumber | infinity => cases exactY
      | zero sign' =>
          cases exactY
          cases sign with
          | negative => exact ⟨.lt, rfl, by simpa [Ordering.Compares] using above⟩
          | positive => exact ⟨.gt, rfl, by simpa [Ordering.Compares] using above⟩
      | finite sign' m' e' positive' =>
          cases exactY
          have above' := magnitude e' positive'
          cases sign with
          | negative =>
              cases sign' with
              | negative => exact ⟨_, rfl, Ordering.compares_swap.mpr (compares_neg order)⟩
              | positive => exact ⟨.lt, rfl, (neg_neg_of_pos above).trans above'⟩
          | positive =>
              cases sign' with
              | negative => exact ⟨.gt, rfl, (neg_neg_of_pos above').trans above⟩
              | positive => exact ⟨_, rfl, order⟩

theorem lt_iff_value (exactX : Binary.ofFloat? x = some b) (exactY : Binary.ofFloat? y = some c) :
    x < y ↔ b.value < c.value := by
  obtain ⟨order, compared, compares⟩ := compare_unpack exactX exactY
  rw [lt_iff, UnpackedFloat.lt, compared, ← compares.eq_lt]
  cases order <;> decide

theorem le_iff_value (exactX : Binary.ofFloat? x = some b) (exactY : Binary.ofFloat? y = some c) :
    x ≤ y ↔ b.value ≤ c.value := by
  obtain ⟨order, compared, compares⟩ := compare_unpack exactX exactY
  rw [le_iff, UnpackedFloat.le, compared, ← compares.ne_gt]
  cases order <;> decide

theorem not_lt_iff_le (exactX : Binary.ofFloat? x = some b) (exactY : Binary.ofFloat? y = some c) :
    ¬ x < y ↔ y ≤ x := by
  rw [lt_iff_value exactX exactY, le_iff_value exactY exactX, not_lt]

/-- What is not below a double is not rounded to below it. -/
theorem IsNearest.le_value {q : ℚ} (nearest : IsNearest q b) (exact : Binary.ofFloat? x = some c)
    (below : c.value ≤ q) : c.value ≤ b.value := by
  by_contra less
  have closest := nearest.closest x c exact
  rw [abs_of_nonneg (by linarith), abs_of_nonneg (by linarith)] at closest
  linarith

/-- What is not above a double is not rounded to above it. -/
theorem IsNearest.value_le {q : ℚ} (nearest : IsNearest q b) (exact : Binary.ofFloat? x = some c)
    (above : q ≤ c.value) : b.value ≤ c.value := by
  by_contra greater
  have closest := nearest.closest x c exact
  rw [abs_of_nonpos (by linarith), abs_of_nonpos (by linarith)] at closest
  linarith

end Number

end Reckoner
