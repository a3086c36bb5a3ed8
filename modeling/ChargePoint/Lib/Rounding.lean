import Mathlib.Data.Int.Log
import Mathlib.Data.Rat.Floor
import Mathlib.Algebra.Order.Floor.Ring
import Mathlib.Tactic.Linarith
import Mathlib.Tactic.Ring
import Mathlib.Tactic.NormNum

/-!
# Rounding to a binary format

A number with `p` binary digits is an integer below `2 ^ p` in units of the last place. A result
of an operation of the format is the exact result, rounded to the nearest such number, the even
one of two. Exponents are unbounded here: it is the format's own rounding between its smallest
normal and its largest number.

`roundTo_mono` is what a threshold needs. A function made of monotone steps and roundings goes
over a bound where one argument does, and the two arguments on either side of it are evaluated
through `roundTo_eq`.
-/

set_option autoImplicit false

namespace Rounding

/-- The nearest integer, the even one of two. -/
def rne (x : ℚ) : ℤ :=
  if 2 * (x - ⌊x⌋) < 1 then ⌊x⌋
  else if 1 < 2 * (x - ⌊x⌋) then ⌊x⌋ + 1
  else if ⌊x⌋ % 2 = 0 then ⌊x⌋
  else ⌊x⌋ + 1

variable {x y : ℚ} {p : ℕ} {e : ℤ}

theorem floor_le_rne (x : ℚ) : ⌊x⌋ ≤ rne x := by
  unfold rne
  split_ifs <;> omega

theorem rne_le_floor_add_one (x : ℚ) : rne x ≤ ⌊x⌋ + 1 := by
  unfold rne
  split_ifs <;> omega

theorem rne_intCast (n : ℤ) : rne n = n := by
  unfold rne
  simp

theorem rne_mono (h : x ≤ y) : rne x ≤ rne y := by
  have hfloor : ⌊x⌋ ≤ ⌊y⌋ := Int.floor_le_floor h
  rcases hfloor.lt_or_eq with hlt | heq
  · have hx := rne_le_floor_add_one x
    have hy := floor_le_rne y
    omega
  · -- between the same two integers only the fraction decides
    unfold rne
    rw [heq]
    split_ifs with h1 h2 h3 h4 h5 h6 h7 h8 <;> first | omega | (exfalso; linarith)

/-- One unit in the last place of the numbers from `2 ^ e` to `2 ^ (e + 1)`. -/
def ulp (p : ℕ) (e : ℤ) : ℚ := 2 ^ (e + 1 - p)

/-- **The nearest number with `p` binary digits.** -/
def roundTo (p : ℕ) (x : ℚ) : ℚ :=
  let u := ulp p (Int.log 2 |x|)
  rne (x / u) * u

theorem ulp_pos (p : ℕ) (e : ℤ) : 0 < ulp p e := by
  exact zpow_pos two_pos _

theorem roundTo_zero (p : ℕ) : roundTo p 0 = 0 := by
  have hzero : rne 0 = 0 := rne_intCast 0
  simp [roundTo, hzero]

/-- What is rounded, once it is known between which powers of two it lies. -/
theorem roundTo_eq (p : ℕ) (hlow : 2 ^ e ≤ x) (hhigh : x < 2 ^ (e + 1)) :
    roundTo p x = rne (x / ulp p e) * ulp p e := by
  have hpos : 0 < x := lt_of_lt_of_le (zpow_pos two_pos e) hlow
  have hle : e ≤ Int.log 2 x := (Int.zpow_le_iff_le_log one_lt_two hpos).mp (by simpa using hlow)
  have hlt : Int.log 2 x < e + 1 :=
    (Int.lt_zpow_iff_log_lt one_lt_two hpos).mp (by simpa using hhigh)
  have hlog : Int.log 2 |x| = e := by
    rw [abs_of_pos hpos]
    omega
  simp only [roundTo, hlog]

/-- The powers of two on either side stay where they are. -/
theorem roundTo_between (hp : 0 < p) (hlow : 2 ^ e ≤ x) (hhigh : x < 2 ^ (e + 1)) :
    2 ^ e ≤ roundTo p x ∧ roundTo p x ≤ 2 ^ (e + 1) := by
  have hu : 0 < ulp p e := ulp_pos p e
  have hbelow : (2 : ℚ) ^ e = ((2 ^ (p - 1) : ℤ) : ℚ) * ulp p e := by
    have hexp : e = ((p - 1 : ℕ) : ℤ) + (e + 1 - p) := by omega
    conv_lhs => rw [hexp, zpow_add₀ two_ne_zero]
    simp [ulp]
  have habove : (2 : ℚ) ^ (e + 1) = ((2 ^ p : ℤ) : ℚ) * ulp p e := by
    have hexp : e + 1 = (p : ℤ) + (e + 1 - p) := by omega
    conv_lhs => rw [hexp, zpow_add₀ two_ne_zero]
    simp [ulp]
  rw [roundTo_eq p hlow hhigh]
  constructor
  · have h1 : ((2 ^ (p - 1) : ℤ) : ℚ) ≤ x / ulp p e := by
      rw [le_div_iff₀ hu, ← hbelow]
      exact hlow
    have h2 := rne_mono h1
    rw [rne_intCast] at h2
    rw [hbelow]
    exact mul_le_mul_of_nonneg_right (by exact_mod_cast h2) hu.le
  · have h1 : x / ulp p e ≤ ((2 ^ p : ℤ) : ℚ) := by
      rw [div_le_iff₀ hu, ← habove]
      exact hhigh.le
    have h2 := rne_mono h1
    rw [rne_intCast] at h2
    rw [habove]
    exact mul_le_mul_of_nonneg_right (by exact_mod_cast h2) hu.le

/-- A positive number lies between two powers of two. -/
theorem exists_binade (hx : 0 < x) : ∃ e : ℤ, 2 ^ e ≤ x ∧ x < 2 ^ (e + 1) := by
  refine ⟨Int.log 2 x, ?_, ?_⟩
  · simpa using Int.zpow_log_le_self (b := 2) one_lt_two hx
  · simpa using Int.lt_zpow_succ_log_self (b := 2) one_lt_two x

/-- **Rounding keeps the order.** -/
theorem roundTo_mono (hp : 0 < p) (hx : 0 ≤ x) (hxy : x ≤ y) : roundTo p x ≤ roundTo p y := by
  rcases (hx.trans hxy).lt_or_eq with hy | rfl
  · obtain ⟨f, hflow, hfhigh⟩ := exists_binade hy
    rcases hx.lt_or_eq with hpos | rfl
    · obtain ⟨e, helow, hehigh⟩ := exists_binade hpos
      have hef : e ≤ f := by
        have hlt : (2 : ℚ) ^ e < 2 ^ (f + 1) := lt_of_le_of_lt (helow.trans hxy) hfhigh
        have := (zpow_lt_zpow_iff_right₀ (one_lt_two (α := ℚ))).mp hlt
        omega
      rcases hef.lt_or_eq with hlt | rfl
      · -- a power of two lies between the two
        calc roundTo p x ≤ 2 ^ (e + 1) := (roundTo_between hp helow hehigh).2
          _ ≤ 2 ^ f := zpow_le_zpow_right₀ one_le_two (by omega)
          _ ≤ roundTo p y := (roundTo_between hp hflow hfhigh).1
      · rw [roundTo_eq p helow hehigh, roundTo_eq p hflow hfhigh]
        have hu : 0 < ulp p e := ulp_pos p e
        have hle : rne (x / ulp p e) ≤ rne (y / ulp p e) :=
          rne_mono (div_le_div_of_nonneg_right hxy hu.le)
        exact mul_le_mul_of_nonneg_right (by exact_mod_cast hle) hu.le
    · rw [roundTo_zero]
      have hpow : (0 : ℚ) < 2 ^ f := zpow_pos two_pos f
      exact hpow.le.trans (roundTo_between hp hflow hfhigh).1
  · rw [le_antisymm hxy hx]

theorem roundTo_nonneg (hp : 0 < p) (hx : 0 ≤ x) : 0 ≤ roundTo p x := by
  simpa [roundTo_zero] using roundTo_mono hp le_rfl hx

/-! ## Whole numbers -/

/-- A whole number for which there are digits stays as it is. -/
theorem roundTo_binade {n : ℕ} (hlow : (2 : ℚ) ^ e ≤ n) (hhigh : (n : ℚ) < 2 ^ (e + 1))
    (hle : e + 1 ≤ p) : roundTo p (n : ℚ) = n := by
  obtain ⟨k, hk⟩ : ∃ k : ℕ, e + 1 - p = -(k : ℤ) := ⟨(p - (e + 1)).toNat, by omega⟩
  have hu : ulp p e = ((2 : ℚ) ^ k)⁻¹ := by
    unfold ulp
    rw [hk, zpow_neg, zpow_natCast]
  have hscaled : (n : ℚ) / ulp p e = ((n * 2 ^ k : ℕ) : ℤ) := by
    rw [hu, div_inv_eq_mul]
    push_cast
    rfl
  rw [roundTo_eq p hlow hhigh, hscaled, rne_intCast, hu]
  push_cast
  rw [mul_assoc, mul_inv_cancel₀ (pow_ne_zero k two_ne_zero), mul_one]

theorem roundTo_of_lt {n : ℕ} (h : n < 2 ^ p) : roundTo p (n : ℚ) = n := by
  cases Nat.eq_zero_or_pos n with
  | inl hzero => rw [hzero, Nat.cast_zero, roundTo_zero]
  | inr hpos =>
    have hcast : (0 : ℚ) < n := by exact_mod_cast hpos
    obtain ⟨e, hlow, hhigh⟩ := exists_binade hcast
    refine roundTo_binade hlow hhigh ?_
    have hlt : (2 : ℚ) ^ e < 2 ^ (p : ℤ) := by
      rw [zpow_natCast]
      exact lt_of_le_of_lt hlow (by exact_mod_cast h)
    have := (zpow_lt_zpow_iff_right₀ (one_lt_two (α := ℚ))).mp hlt
    omega

/-- **A whole number is rounded to a whole number.** -/
theorem roundTo_natCast (p n : ℕ) : ∃ m : ℕ, roundTo p (n : ℚ) = m := by
  cases Nat.eq_zero_or_pos n with
  | inl hzero =>
    refine ⟨0, ?_⟩
    rw [hzero, Nat.cast_zero, roundTo_zero]
  | inr hpos =>
    have hcast : (0 : ℚ) < n := by exact_mod_cast hpos
    obtain ⟨e, hlow, hhigh⟩ := exists_binade hcast
    cases Int.le_total (e + 1) p with
    | inl hle => exact ⟨n, roundTo_binade hlow hhigh hle⟩
    | inr hle =>
      rw [roundTo_eq p hlow hhigh]
      obtain ⟨k, hk⟩ : ∃ k : ℕ, e + 1 - p = (k : ℤ) := ⟨(e + 1 - p).toNat, by omega⟩
      have hu : ulp p e = ((2 ^ k : ℕ) : ℚ) := by
        unfold ulp
        rw [hk, zpow_natCast]
        push_cast
        rfl
      have hnonneg : 0 ≤ rne ((n : ℚ) / ulp p e) := by
        have hquot : (0 : ℚ) ≤ n / ulp p e := div_nonneg hcast.le (ulp_pos p e).le
        exact (Int.floor_nonneg.mpr hquot).trans (floor_le_rne _)
      refine ⟨(rne ((n : ℚ) / ulp p e)).toNat * 2 ^ k, ?_⟩
      have hint : ((rne ((n : ℚ) / ulp p e)).toNat : ℚ) = rne ((n : ℚ) / ulp p e) := by
        exact_mod_cast Int.toNat_of_nonneg hnonneg
      rw [Nat.cast_mul, hint, ← hu]

end Rounding
