import WatchedContainers.Decimal.Basic

/-!
# Magnitudes of limited precision

Numbers with at most 53 significant bits, counted in units of `2 ^ -1074` and below `2 ^ 1024`.
Around `u` units the magnitudes are `gap u` units apart, and `nearest?` rounds an exact quotient to
the closest of them; of two equally close ones it takes the one whose significand is even.
-/

namespace WatchedContainers

namespace Magnitude

def unitsPerOne : Nat := Nat.pow 2 1074

def limit : Nat := Nat.pow 2 1024 * unitsPerOne

/-- The distance from `u` units to the next magnitude above. -/
def gap (u : Nat) : Nat := Nat.pow 2 (u.log2 - 52)

theorem div_gap_lt (u : Nat) : u / gap u < Nat.pow 2 53 := by
  rw [gap, Nat.pow_eq, Nat.pow_eq, Nat.div_lt_iff_lt_mul (Nat.two_pow_pos _), ← Nat.pow_add]
  exact Nat.lt_of_lt_of_le Nat.lt_log2_self (Nat.pow_le_pow_right (by omega) (by omega))

/-- A significand of at most 53 bits, or the next power of two, keeps to the grid when it is
shifted. -/
theorem gap_dvd_shift {k s : Nat} (h : k ≤ Nat.pow 2 53) :
    gap (k * Nat.pow 2 s) ∣ k * Nat.pow 2 s := by
  simp only [gap, Nat.pow_eq] at h ⊢
  rcases Nat.eq_zero_or_pos k with rfl | hk
  · simp
  have hpos : k * 2 ^ s ≠ 0 := Nat.ne_of_gt (Nat.mul_pos hk (Nat.two_pow_pos s))
  rcases Nat.lt_or_eq_of_le h with hlt | rfl
  · have hlog : (k * 2 ^ s).log2 < 53 + s := by
      rw [Nat.log2_lt hpos, Nat.pow_add]
      exact Nat.mul_lt_mul_of_pos_right hlt (Nat.two_pow_pos s)
    exact Nat.dvd_trans (Nat.pow_dvd_pow 2 (by omega)) (Nat.dvd_mul_left _ _)
  · rw [← Nat.pow_add, Nat.log2_two_pow]
    exact Nat.pow_dvd_pow 2 (by omega)

end Magnitude

structure Magnitude where
  units : Nat
  units_lt : units < Magnitude.limit
  gap_dvd : Magnitude.gap units ∣ units

namespace Magnitude

instance : DecidableEq Magnitude := fun a b =>
  if h : a.units = b.units then .isTrue (by cases a; cases b; cases h; rfl)
  else .isFalse fun e => h (congrArg units e)

def zero : Magnitude := ⟨0, by decide +kernel, by simp⟩

/-! ### Rounding -/

/-- The whole number nearest to a quotient; of two equally near ones the even one. -/
def roundQuotient (num den : Nat) : Nat :=
  let q := num / den
  let r := num % den
  if 2 * r < den ∨ (2 * r = den ∧ q % 2 = 0) then q else q + 1

theorem roundQuotient_le (num den : Nat) : roundQuotient num den ≤ num / den + 1 := by
  simp only [roundQuotient]
  split <;> omega

/-- The magnitude nearest to `num / den` units, if there is one below the limit. -/
def nearest? (num den : Nat) : Option Magnitude :=
  let g := gap (num / den)
  let significand := roundQuotient num (den * g)
  if h : significand * g < limit then
    some ⟨significand * g, h, gap_dvd_shift (Nat.le_trans (roundQuotient_le ..)
      (by rw [← Nat.div_div_eq_div_mul]; exact div_gap_lt _))⟩
  else none

/-- A power of ten beyond the limit whose reciprocal is less than half a unit. -/
def span : Nat := 400

/-- The magnitude nearest to a decimal number.  Numbers of `span` places or more on either side of
the point are decided by their leading digit alone. -/
def ofDecimal? (d : Decimal) : Option Magnitude :=
  if d.digits = 0 ∨ d.leading < -span then some zero
  else if span ≤ d.leading then none
  else
    nearest? (d.digits * Nat.pow 10 d.exponent.toNat * unitsPerOne)
      (Nat.pow 10 (-d.exponent).toNat)

end Magnitude

end WatchedContainers
