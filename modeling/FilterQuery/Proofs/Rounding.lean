import FilterQuery.Binary64
import Mathlib.Algebra.Ring.Nat

/-!
# Rounding integers to doubles

An integer beside a double is rounded to fifty-three significant bits. Main statements: rounding
keeps the order of any two integers, though it may make them equal, and up to 2^53 it changes
nothing.

Where two numbers have equally many bits they are rounded on one grid. Where the larger has more,
the power of two at which its bits begin lies on both grids, so rounding cannot carry the two past
each other.
-/

namespace FilterQuery.Binary64

/-- The nearest multiple of a unit, of two equally near ones the even multiple. -/
def onMultiples (unit n : Nat) : Nat :=
  (if unit < 2 * (n % unit) || (2 * (n % unit) == unit && n / unit % 2 == 1) then n / unit + 1
    else n / unit) * unit

/-- Fifty-three digits of a number are the multiples of one power of two, fixed by its length. -/
theorem nearest53_eq_onMultiples (n : Nat) :
    nearest53 n = onMultiples (2 ^ (n.log2 - 52)) n := by
  rw [nearest53, Nat.one_shiftLeft]
  rfl

variable {unit m n bound : Nat}

theorem le_onMultiples (unit n : Nat) : n / unit * unit ≤ onMultiples unit n := by
  apply Nat.mul_le_mul_right
  split <;> omega

theorem onMultiples_le (unit n : Nat) : onMultiples unit n ≤ (n / unit + 1) * unit := by
  apply Nat.mul_le_mul_right
  split <;> omega

theorem onMultiples_of_dvd (h : unit ∣ n) : onMultiples unit n = n := by
  obtain ⟨k, rfl⟩ := h
  by_cases zero : unit = 0
  · simp [zero, onMultiples]
  · have rest : unit * k % unit = 0 := Nat.mul_mod_right unit k
    have down : unit * k / unit = k := Nat.mul_div_cancel_left k (by omega)
    simp [onMultiples, rest, down, Ne.symm zero, Nat.mul_comm]

/-- On one scale, rounding keeps the order. -/
theorem onMultiples_mono (unit : Nat) (h : m ≤ n) : onMultiples unit m ≤ onMultiples unit n := by
  rcases Nat.lt_or_eq_of_le (Nat.div_le_div_right (c := unit) h) with apart | same
  · calc
      onMultiples unit m ≤ (m / unit + 1) * unit := onMultiples_le unit m
      _ ≤ n / unit * unit := Nat.mul_le_mul_right unit apart
      _ ≤ onMultiples unit n := le_onMultiples unit n
  · -- Between the same two multiples, what moves the smaller number up moves the larger one too.
    have rest : m % unit ≤ n % unit := by
      have hm := Nat.div_add_mod m unit
      have hn := Nat.div_add_mod n unit
      rw [same] at hm
      omega
    simp only [onMultiples, same, Bool.or_eq_true, Bool.and_eq_true, decide_eq_true_eq, beq_iff_eq]
    apply Nat.mul_le_mul_right
    split <;> split <;> omega

/-- Rounding does not carry a number past a multiple of the unit. -/
theorem onMultiples_le_of_dvd (h : n ≤ bound) (multiple : unit ∣ bound) :
    onMultiples unit n ≤ bound := by
  have kept := onMultiples_mono unit h
  rwa [onMultiples_of_dvd multiple] at kept

theorem le_onMultiples_of_dvd (h : bound ≤ n) (multiple : unit ∣ bound) :
    bound ≤ onMultiples unit n := by
  have kept := onMultiples_mono unit h
  rwa [onMultiples_of_dvd multiple] at kept

theorem log2_le_log2 (h : m ≤ n) : m.log2 ≤ n.log2 := by
  by_cases zero : m = 0
  · simp [zero]
  · exact (Nat.le_log2 (by omega)).mpr (Nat.le_trans (Nat.log2_self_le zero) h)

/-- Rounding keeps the order, though a longer number is rounded on a coarser scale. -/
theorem nearest53_mono (h : m ≤ n) : nearest53 m ≤ nearest53 n := by
  rw [nearest53_eq_onMultiples, nearest53_eq_onMultiples]
  rcases Nat.lt_or_eq_of_le (log2_le_log2 h) with fewer | same
  · have begins : 2 ^ n.log2 ≤ n := by
      apply Nat.log2_self_le
      rintro rfl
      simp at fewer
    have below : m ≤ 2 ^ n.log2 := by
      have within : m < 2 ^ (m.log2 + 1) := Nat.lt_log2_self
      exact Nat.le_trans (Nat.le_of_lt within) (Nat.pow_le_pow_right (by decide) fewer)
    calc
      onMultiples (2 ^ (m.log2 - 52)) m ≤ 2 ^ n.log2 :=
        onMultiples_le_of_dvd below (Nat.pow_dvd_pow 2 (by omega))
      _ ≤ onMultiples (2 ^ (n.log2 - 52)) n :=
        le_onMultiples_of_dvd begins (Nat.pow_dvd_pow 2 (by omega))
  · rw [same]
    exact onMultiples_mono _ h

/-- Up to the fifty-third power of two every integer is a double. -/
theorem nearest53_of_le (h : n ≤ 2 ^ 53) : nearest53 n = n := by
  rcases Nat.lt_or_eq_of_le h with below | rfl
  · exact nearest53_of_lt (by simpa [Nat.one_shiftLeft] using below)
  · decide

/-! ## Integers among the doubles -/

/-- How many units of 2^-1074 make one. -/
def unitsOfOne : Nat := 1 <<< 1074

theorem unitsOfOne_pos : 0 < unitsOfOne := by
  rw [unitsOfOne, Nat.one_shiftLeft]
  exact Nat.two_pow_pos 1074

/-- An integer rounded as the double next to it is. -/
def roundedInt (i : Int) : Int := if i < 0 then -(nearest53 i.natAbs : Int) else nearest53 i.natAbs

theorem orderKeyOfInt_eq (i : Int) : orderKeyOfInt i = roundedInt i * unitsOfOne := rfl

theorem roundedInt_mono {i j : Int} (h : i ≤ j) : roundedInt i ≤ roundedInt j := by
  unfold roundedInt
  split <;> split
  · have sizes : nearest53 j.natAbs ≤ nearest53 i.natAbs := nearest53_mono (by omega)
    omega
  · omega
  · omega
  · have sizes : nearest53 i.natAbs ≤ nearest53 j.natAbs := nearest53_mono (by omega)
    omega

theorem roundedInt_of_le {i : Int} (h : i.natAbs ≤ 2 ^ 53) : roundedInt i = i := by
  rw [roundedInt, nearest53_of_le h]
  split <;> omega

/-- Rounded to doubles, integers keep their order or fall together. -/
theorem orderKeyOfInt_mono {i j : Int} (h : i ≤ j) : orderKeyOfInt i ≤ orderKeyOfInt j := by
  rw [orderKeyOfInt_eq, orderKeyOfInt_eq]
  exact Int.mul_le_mul_of_nonneg_right (roundedInt_mono h) (Int.natCast_nonneg unitsOfOne)

/-- Rounding keeps small integers apart. -/
theorem orderKeyOfInt_inj {i j : Int} (hi : i.natAbs ≤ 2 ^ 53) (hj : j.natAbs ≤ 2 ^ 53)
    (h : orderKeyOfInt i = orderKeyOfInt j) : i = j := by
  rw [orderKeyOfInt_eq, orderKeyOfInt_eq, roundedInt_of_le hi, roundedInt_of_le hj] at h
  have positive : (unitsOfOne : Int) ≠ 0 := by
    have := unitsOfOne_pos
    omega
  exact Int.eq_of_mul_eq_mul_right positive h

end FilterQuery.Binary64
