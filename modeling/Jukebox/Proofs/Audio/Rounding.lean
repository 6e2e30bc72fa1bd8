import Mathlib.Algebra.Order.Field.Power
import Mathlib.Data.Rat.Floor
import Mathlib.Tactic.Linarith
import Jukebox.Audio.Converter
/-!
# Rounding keeps the order

A number lies between two neighbouring powers of two, and what it is rounded to lies there, too.
Numbers between the same powers are rounded to multiples of the same bit. So rounding to double
precision keeps the order, and of two counts of frames the greater one never amounts to fewer frames
at the other rate.
-/
namespace Jukebox.Audio

namespace Precision

variable {x y : ℚ}

theorem nearest_intCast (n : ℤ) : nearest n = n := by
  simp [nearest]

/-- No whole number is more than a half off the nearest one. -/
theorem nearest_near (x : ℚ) : |(nearest x : ℚ) - x| ≤ 1 / 2 := by
  have below : (x.floor : ℚ) ≤ x := x.floor_le
  have above : x - 1 < x.floor := Rat.lt_floor
  unfold nearest
  simp only
  split
  next low =>
    have half : x - x.floor ≤ 1 / 2 := low.elim le_of_lt fun tie => le_of_eq tie.1
    rw [abs_le]
    constructor <;> linarith
  next high =>
    have half : 1 / 2 ≤ x - x.floor := le_of_not_gt fun less => high (Or.inl less)
    rw [Int.cast_add, Int.cast_one, abs_le]
    constructor <;> linarith

theorem nearest_mono (le : x ≤ y) : nearest x ≤ nearest y := by
  by_contra crossed
  have apart : nearest y + 1 ≤ nearest x := Int.lt_of_not_ge crossed
  have apart' : (nearest y : ℚ) + 1 ≤ nearest x := by exact_mod_cast apart
  have near_x := abs_le.mp (nearest_near x)
  have near_y := abs_le.mp (nearest_near y)
  obtain rfl : x = y := by linarith
  exact crossed le_rfl

theorem two_zpow_pos (e : ℤ) : (0 : ℚ) < 2 ^ e :=
  zpow_pos two_pos e

/-- A positive natural number lies between two powers of two. -/
theorem two_zpow_log2 {n : ℕ} (pos : 0 < n) :
    (2 : ℚ) ^ (n.log2 : ℤ) ≤ n ∧ (n : ℚ) < 2 ^ ((n.log2 : ℤ) + 1) := by
  have low : 2 ^ n.log2 ≤ n := Nat.log2_self_le (Nat.ne_of_gt pos)
  have high : n < 2 ^ (n.log2 + 1) := Nat.lt_log2_self
  exact ⟨by exact_mod_cast low, by exact_mod_cast high⟩

/-- The lengths of numerator and denominator leave two powers of two for a fraction. -/
theorem fraction_between {n d : ℕ} (n_pos : 0 < n) (d_pos : 0 < d) :
    (2 : ℚ) ^ ((n.log2 : ℤ) - d.log2 - 1) ≤ (n : ℚ) / d ∧
      (n : ℚ) / d < 2 ^ ((n.log2 : ℤ) - d.log2 + 1) := by
  obtain ⟨n_low, n_high⟩ := two_zpow_log2 n_pos
  obtain ⟨d_low, d_high⟩ := two_zpow_log2 d_pos
  have d_pos' : (0 : ℚ) < d := by exact_mod_cast d_pos
  constructor
  · rw [le_div_iff₀ d_pos']
    calc (2 : ℚ) ^ ((n.log2 : ℤ) - d.log2 - 1) * d
        ≤ 2 ^ ((n.log2 : ℤ) - d.log2 - 1) * 2 ^ ((d.log2 : ℤ) + 1) := by gcongr
      _ = 2 ^ (n.log2 : ℤ) := by
        rw [← zpow_add₀ two_ne_zero]
        congr 1
        ring
      _ ≤ n := n_low
  · rw [div_lt_iff₀ d_pos']
    calc (n : ℚ) < 2 ^ ((n.log2 : ℤ) + 1) := n_high
      _ = 2 ^ ((n.log2 : ℤ) - d.log2 + 1) * 2 ^ (d.log2 : ℤ) := by
        rw [← zpow_add₀ two_ne_zero]
        congr 1
        ring
      _ ≤ 2 ^ ((n.log2 : ℤ) - d.log2 + 1) * d := by gcongr

/-- A positive number lies between two neighbouring powers of two. -/
theorem leading_spec (pos : 0 < x) :
    (2 : ℚ) ^ leading x ≤ x ∧ x < 2 ^ (leading x + 1) := by
  have numerator : 0 < x.num := Rat.num_pos.mpr pos
  have numerator_eq : ((x.num.toNat : ℤ) : ℚ) = x.num := by rw [Int.toNat_of_nonneg numerator.le]
  have fraction : (x.num.toNat : ℚ) / x.den = x := by
    rw [← Int.cast_natCast, numerator_eq, Rat.num_div_den]
  obtain ⟨low, high⟩ := fraction_between (n := x.num.toNat) (by omega) x.den_pos
  rw [fraction] at low high
  unfold leading
  simp only
  split
  next less => exact ⟨low, by rwa [sub_add_cancel]⟩
  next more => exact ⟨le_of_not_gt more, high⟩

theorem lastBit_pos (x : ℚ) : 0 < lastBit x :=
  two_zpow_pos _

/-- The power of two below a number is so many of its last bits. -/
theorem two_zpow_leading (x : ℚ) : (2 : ℚ) ^ leading x = 2 ^ 52 * lastBit x := by
  rw [lastBit, ← zpow_natCast, ← zpow_add₀ two_ne_zero]
  congr 1
  push_cast
  ring

/-- A positive number is rounded to one between the same powers of two. -/
theorem round_bounds (pos : 0 < x) :
    (2 : ℚ) ^ leading x ≤ round x ∧ round x ≤ 2 ^ (leading x + 1) := by
  obtain ⟨low, high⟩ := leading_spec pos
  have bit := lastBit_pos x
  rw [zpow_add_one₀ two_ne_zero, two_zpow_leading, round, if_neg (not_le_of_gt pos)] at *
  have low' : ((2 ^ 52 : ℤ) : ℚ) ≤ x / lastBit x := by
    rw [le_div_iff₀ bit]
    exact_mod_cast low
  have high' : x / lastBit x ≤ ((2 ^ 53 : ℤ) : ℚ) := by
    rw [div_le_iff₀ bit]
    push_cast
    linarith
  have least := nearest_mono low'
  have most := nearest_mono high'
  rw [nearest_intCast] at least most
  have least' : (2 ^ 52 : ℚ) ≤ nearest (x / lastBit x) := by exact_mod_cast least
  have most' : (nearest (x / lastBit x) : ℚ) ≤ 2 ^ 53 := by exact_mod_cast most
  constructor
  · gcongr
  · calc (nearest (x / lastBit x) : ℚ) * lastBit x ≤ 2 ^ 53 * lastBit x := by gcongr
      _ = 2 ^ 52 * lastBit x * 2 := by ring

theorem round_nonneg (x : ℚ) : 0 ≤ round x := by
  rcases le_or_gt x 0 with nothing | pos
  · rw [round, if_pos nothing]
  · exact (two_zpow_pos _).le.trans (round_bounds pos).1

/-- Rounding keeps the order. -/
theorem round_mono (le : x ≤ y) : round x ≤ round y := by
  rcases le_or_gt x 0 with nothing | pos
  · rw [round, if_pos nothing]
    exact round_nonneg y
  obtain ⟨x_low, x_high⟩ := leading_spec pos
  obtain ⟨y_low, y_high⟩ := leading_spec (pos.trans_le le)
  have order : leading x ≤ leading y := by
    have between : (2 : ℚ) ^ leading x < 2 ^ (leading y + 1) := x_low.trans_lt (le.trans_lt y_high)
    exact Int.lt_add_one_iff.mp ((zpow_lt_zpow_iff_right₀ one_lt_two).mp between)
  rcases order.eq_or_lt with same | less
  · have bits : lastBit x = lastBit y := by rw [lastBit, lastBit, same]
    rw [round, round, if_neg (not_le_of_gt pos), if_neg (not_le_of_gt (pos.trans_le le)), bits]
    have bit := lastBit_pos y
    have nearer : nearest (x / lastBit y) ≤ nearest (y / lastBit y) :=
      nearest_mono (div_le_div_of_nonneg_right le bit.le)
    have nearer' : (nearest (x / lastBit y) : ℚ) ≤ nearest (y / lastBit y) := by
      exact_mod_cast nearer
    exact mul_le_mul_of_nonneg_right nearer' bit.le
  · -- The power of two that separates the numbers separates what they are rounded to.
    calc round x ≤ 2 ^ (leading x + 1) := (round_bounds pos).2
      _ ≤ 2 ^ leading y := zpow_le_zpow_right₀ one_le_two less
      _ ≤ round y := (round_bounds (pos.trans_le le)).1

end Precision

/-- More source frames never amount to fewer frames at the other rate. -/
theorem convertedLength_mono (input output : Nat) {count more : Nat} (le : count ≤ more) :
    convertedLength input output count ≤ convertedLength input output more := by
  unfold convertedLength
  split
  · split
    · exact Nat.zero_le _
    next some =>
      have some' : ¬(output = 0 ∨ more = 0) := by omega
      rw [if_neg some']
  · have count_le : (count : ℚ) ≤ more := by exact_mod_cast le
    have product : Precision.round count * Precision.round ((output : ℚ) / input) ≤
        Precision.round more * Precision.round ((output : ℚ) / input) :=
      mul_le_mul_of_nonneg_right (Precision.round_mono count_le) (Precision.round_nonneg _)
    have ceiling := Rat.ceil_le_iff.mpr ((Precision.round_mono product).trans Rat.le_ceil)
    simp only
    omega

end Jukebox.Audio
