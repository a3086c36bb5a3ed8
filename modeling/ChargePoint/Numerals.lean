import ChargePoint.Charger
import ChargePoint.Parse.Header

/-!
# Numerals and 64-bit numbers

Three pieces of the source turn digits into a `uint64_t`: the id reader of `Parse_Header`
(`idValue`), `String2Integer` and `strtoull`; `%llu` goes the other way. On a decimal
numeral of at most 20 digits the first two compute the number it writes, modulo `2^64`:
that is as far as `pow(10, k)` converts.
-/

set_option autoImplicit false

namespace ChargePoint

open CStr

/-- Digits only. -/
def Digits (ds : List Char) : Prop := ∀ c ∈ ds, c.isDigit = true

instance (ds : List Char) : Decidable (Digits ds) :=
  inferInstanceAs (Decidable (∀ c ∈ ds, c.isDigit = true))

theorem Digits.cons {c : Char} {cs : List Char} (h : Digits (c :: cs)) :
    c.isDigit = true ∧ Digits cs :=
  ⟨h c (by simp), fun d hd => h d (by simp [hd])⟩

theorem dec_digits (n : Nat) : Digits (dec n) := fun _ h => dec_isDigit h

theorem digit_ge {c : Char} (h : c.isDigit = true) : 48 ≤ c.toNat := by
  simp only [Char.isDigit, Bool.and_eq_true, decide_eq_true_eq] at h
  exact h.1

theorem digit_lt {c : Char} (h : c.isDigit = true) : c.toNat - 48 < 10 := by
  simp only [Char.isDigit, Bool.and_eq_true, decide_eq_true_eq] at h
  have hle : c.toNat ≤ 57 := h.2
  omega

theorem Digits.nulFree {ds : List Char} (h : Digits ds) : NulFree ds := by
  rintro c hc rfl
  exact absurd (digit_ge (h nul hc)) (by decide)

theorem decVal_cons (c : Char) (cs : List Char) :
    decVal (c :: cs) = (c.toNat - 48) * 10 ^ cs.length + decVal cs := by
  unfold decVal
  rw [Nat.ofDigitChars_cons, Nat.ofDigitChars_eq_ofDigitChars_zero]
  simp [Nat.mul_comm]

theorem decVal_lt {ds : List Char} (h : Digits ds) : decVal ds < 10 ^ ds.length := by
  induction ds with
  | nil => exact Nat.one_pos
  | cons c cs ih =>
    obtain ⟨hc, hcs⟩ := h.cons
    have hlt := ih hcs
    have hdigit := digit_lt hc
    have hstep : (c.toNat - 48) * 10 ^ cs.length ≤ 9 * 10 ^ cs.length :=
      Nat.mul_le_mul_right _ (by omega)
    rw [decVal_cons, List.length_cons, Nat.pow_succ]
    omega

/-- The id reader computes the number a numeral writes. -/
theorem idValue_digits {ds : List Char} (h : Digits ds) (hl : ds.length ≤ 20) :
    idValue ds = UInt64.ofNat (decVal ds) := by
  induction ds with
  | nil => rfl
  | cons c cs ih =>
    obtain ⟨hc, hcs⟩ := h.cons
    have hl' : cs.length ≤ 19 := Nat.le_of_succ_le_succ hl
    rw [idValue, ih hcs (by omega), decVal_cons, pow10, if_pos hl', UInt64.ofNat_add,
      UInt64.ofNat_mul, UInt64.ofNat_sub (digit_ge hc)]
    rfl

theorem string2IntegerLoop_digits {ds : List Char} (h : Digits ds) :
    string2IntegerLoop ds = idValue ds := by
  induction ds with
  | nil => rfl
  | cons c cs ih =>
    obtain ⟨hc, hcs⟩ := h.cons
    rw [string2IntegerLoop, idValue, ih hcs, if_pos hc]

/-- A 64-bit number has at most 20 digits. -/
theorem dec_length_le {n : Nat} (h : n < 2 ^ 64) : (dec n).length ≤ 20 :=
  (Nat.length_toDigits_le_iff (by decide) (by decide)).mpr (by omega)

/-- Reading back a printed id. -/
theorem idValue_dec {n : Nat} (h : n < 2 ^ 64) : idValue (dec n) = UInt64.ofNat n := by
  rw [idValue_digits (dec_digits n) (dec_length_le h), decVal_dec]

/-- A numeral of a 64-bit number whose value is `u` is the text `%llu` prints of `u`. -/
theorem eq_dec_of_idValue {n : Nat} {u : UInt64} (h : n < 2 ^ 64)
    (hv : idValue (dec n) = u) : n = u.toNat := by
  rw [idValue_dec h] at hv
  rw [← hv, UInt64.toNat_ofNat_of_lt' h]

/-- `String2Integer` reads any numeral of a 64-bit number: past 20 digits the leading ones are
zeros, and whatever `pow` makes of their weight does not matter. -/
theorem string2Integer_of_lt {ds : List Char} (h : Digits ds) (hv : decVal ds < 2 ^ 64) :
    string2Integer ds = UInt64.ofNat (decVal ds) := by
  rw [string2Integer, cstr_of_nulFree h.nulFree, string2IntegerLoop_digits h]
  induction ds with
  | nil => rfl
  | cons c cs ih =>
    obtain ⟨hc, hcs⟩ := h.cons
    by_cases hl : cs.length ≤ 19
    · exact idValue_digits h (Nat.succ_le_succ hl)
    · have hzero : c.toNat - 48 = 0 := by
        by_contra hne
        have hpow : 10 ^ 20 ≤ 10 ^ cs.length := Nat.pow_le_pow_right (by decide) (by omega)
        have hmul : 10 ^ cs.length ≤ (c.toNat - 48) * 10 ^ cs.length :=
          Nat.le_mul_of_pos_left _ (by omega)
        rw [decVal_cons] at hv
        omega
      have hval : decVal (c :: cs) = decVal cs := by
        rw [decVal_cons, hzero, Nat.zero_mul, Nat.zero_add]
      have hchar : UInt64.ofNat c.toNat - 48 = 0 := by
        have hcode : c.toNat = 48 := by
          have := digit_ge hc
          omega
        rw [hcode]
        rfl
      rw [idValue, hchar, UInt64.zero_mul, UInt64.zero_add, hval]
      exact ih hcs (hval ▸ hv)

end ChargePoint
