import Mathlib.Algebra.Ring.Nat
import Mathlib.Data.Nat.Find
import Mathlib.Order.Monotone.Basic

/-!
# A latch that fires once in a period

A latch is polled at increasing times. It fires at the first instant of a period, unless it is set,
and is then set. Only a poll at the last instant of a period releases it. So it fires at most once in
a period (`fires_unique`), and in every period exactly if each of them is polled at its last instant
(`once_iff`): what happens at the first instant is not enough.
-/

set_option autoImplicit false

/-- A latch with period `p`, polled for the `n`-th time at `time n`. -/
structure Latch (p : Nat) where
  time : Nat → Nat
  /-- set before the poll -/
  flag : Nat → Bool
  mono : Monotone time
  first : flag 0 = false
  next : ∀ n, flag (n + 1) =
    if time n % p = 0 then true else if time n % p = p - 1 then false else flag n

namespace Latch
variable {p : Nat} (r : Latch p)

/-- The poll fires. -/
def Fires (n : Nat) : Prop := r.time n % p = 0 ∧ r.flag n = false

/-- There is a poll at this time. -/
def PolledAt (t : Nat) : Prop := ∃ n, r.time n = t

/-- It fires once in period `k`. -/
def Once (k : Nat) : Prop := ∃! n, r.time n / p = k ∧ r.Fires n

variable {r} {n m k : Nat}

theorem index_lt (h : r.time n < r.time m) : n < m := by
  by_contra hle
  exact absurd (r.mono (Nat.not_lt.mp hle)) (Nat.not_le.mpr h)

theorem Fires.set (h : r.Fires n) : r.flag (n + 1) = true := by
  rw [r.next, if_pos h.1]

theorem Fires.time_eq (h : r.Fires n) : p * (r.time n / p) = r.time n := by
  have hdiv := Nat.div_add_mod (r.time n) p
  rwa [h.1, Nat.add_zero] at hdiv

/-- The latch stays set until it is released. -/
theorem stays_set (hset : r.flag n = true) (hle : n ≤ m)
    (hheld : ∀ i, n ≤ i → i < m → r.time i % p ≠ p - 1) : r.flag m = true := by
  induction m, hle using Nat.le_induction with
  | base => exact hset
  | succ m hle ih =>
    have hm := ih fun i hi hlt => hheld i hi (Nat.lt_succ_of_lt hlt)
    rw [r.next]
    split
    · rfl
    · rw [if_neg (hheld m hle (Nat.lt_succ_self m))]
      exact hm

/-- A latch that is set has fired, and has not been released since. -/
theorem fired_of_set (hset : r.flag m = true) :
    ∃ n < m, r.time n % p = 0 ∧ ∀ i, n < i → i < m → r.time i % p ≠ p - 1 := by
  induction m with
  | zero =>
    rw [r.first] at hset
    cases hset
  | succ m ih =>
    rw [r.next] at hset
    by_cases hstart : r.time m % p = 0
    · refine ⟨m, Nat.lt_succ_self m, hstart, ?_⟩
      intro i hi hlt
      exact absurd hi (Nat.not_lt.mpr (Nat.le_of_lt_succ hlt))
    · rw [if_neg hstart] at hset
      split at hset
      · cases hset
      · rename_i hheld
        obtain ⟨n, hlt, hn, hsince⟩ := ih hset
        refine ⟨n, Nat.lt_succ_of_lt hlt, hn, ?_⟩
        intro i hi him
        cases Nat.lt_or_eq_of_le (Nat.le_of_lt_succ him) with
        | inl hlt => exact hsince i hi hlt
        | inr heq =>
          subst heq
          exact hheld

section Period
variable (hp : 1 < p)
include hp

/-- Between two polls at the first instants of periods that follow each other, or of the same one,
the latch is released at the last instant of the first period, if at all. -/
theorem released_between {i : Nat} (hlow : p * k ≤ r.time i) (hhigh : r.time i ≤ p * (k + 1))
    (hrel : r.time i % p = p - 1) : r.time i = p * k + (p - 1) := by
  rw [Nat.mul_succ] at hhigh
  have hmod : r.time i % p = (r.time i - p * k) % p := by
    conv_lhs => rw [← Nat.add_sub_cancel' hlow]
    rw [Nat.mul_add_mod]
  have hle : r.time i - p * k ≤ p := by omega
  cases Nat.lt_or_eq_of_le hle with
  | inl hlt =>
    rw [Nat.mod_eq_of_lt hlt] at hmod
    omega
  | inr heq =>
    rw [heq, Nat.mod_self] at hmod
    omega

theorem Fires.not_before (h : r.Fires n) (h' : r.Fires m) (htime : r.time n = r.time m) :
    ¬ n < m := by
  intro hlt
  have hset := stays_set h.set hlt (m := m) fun i hi him => by
    have hlow := r.mono (Nat.le_of_lt (Nat.lt_of_succ_le hi))
    have hhigh := r.mono (Nat.le_of_lt him)
    have heq : r.time i = r.time n := by omega
    rw [heq, h.1]
    omega
  rw [h'.2] at hset
  cases hset

/-- **It fires at most once in a period.** -/
theorem fires_unique (h : r.Fires n) (h' : r.Fires m) (hper : r.time n / p = r.time m / p) :
    n = m := by
  have htime : r.time n = r.time m := by
    rw [← h.time_eq, ← h'.time_eq, hper]
  have hnot := h.not_before hp h' htime
  have hnot' := h'.not_before hp h htime.symm
  omega

/-- A latch that has been released fires at the first poll of the period. -/
theorem once_of_released (hstart : r.PolledAt (p * k))
    (hrel : ∀ j < k, r.time 0 ≤ p * j → r.PolledAt (p * j + (p - 1))) : r.Once k := by
  have hper : p * k / p = k := Nat.mul_div_cancel_left k (Nat.lt_of_succ_lt hp)
  -- the first poll at the first instant
  obtain ⟨n, hn, hmin⟩ : ∃ n, r.time n = p * k ∧ ∀ m < n, r.time m ≠ p * k :=
    ⟨Nat.find hstart, Nat.find_spec hstart, fun m hm => Nat.find_min hstart hm⟩
  have hfree : r.flag n = false := by
    by_contra hset
    obtain ⟨i, hi, hmod, hsince⟩ := fired_of_set (eq_true_of_ne_false hset)
    have htime : p * (r.time i / p) = r.time i := by
      have hdiv := Nat.div_add_mod (r.time i) p
      rwa [hmod, Nat.add_zero] at hdiv
    have hlt : r.time i < p * k :=
      Nat.lt_of_le_of_ne (hn ▸ r.mono (Nat.le_of_lt hi)) (hmin i hi)
    have hj : r.time i / p < k := by
      rw [← htime] at hlt
      exact Nat.lt_of_mul_lt_mul_left hlt
    have hstart : r.time 0 ≤ p * (r.time i / p) := htime.symm ▸ r.mono (Nat.zero_le i)
    obtain ⟨j, hpoll⟩ := hrel _ hj hstart
    have hend : p * (r.time i / p) + (p - 1) < p * k := by
      have hstep : p * (r.time i / p + 1) ≤ p * k := Nat.mul_le_mul_left p hj
      rw [Nat.mul_succ] at hstep
      omega
    have hij : i < j := index_lt (r := r) (by omega)
    have hjn : j < n := index_lt (r := r) (by omega)
    have hlast : r.time j % p = p - 1 := by
      rw [hpoll, Nat.mul_add_mod, Nat.mod_eq_of_lt (by omega)]
    exact hsince j hij hjn hlast
  have hfires : r.Fires n := ⟨by rw [hn, Nat.mul_mod_right], hfree⟩
  refine ⟨n, ⟨by rw [hn, hper], hfires⟩, ?_⟩
  intro m hm
  exact fires_unique hp hm.2 hfires (by rw [hm.1, hn, hper])

/-- A latch that fires in two periods, one after the other, has been released in between. -/
theorem released_of_fires (h : r.Fires n) (h' : r.Fires m) (hn : r.time n / p = k)
    (hm : r.time m / p = k + 1) : r.PolledAt (p * k + (p - 1)) := by
  have htime : r.time n = p * k := by rw [← h.time_eq, hn]
  have htime' : r.time m = p * (k + 1) := by rw [← h'.time_eq, hm]
  have hlt : n < m := index_lt (by rw [htime, htime', Nat.mul_succ]; omega)
  by_contra hnone
  have hset := stays_set h.set hlt fun i hi him => by
    intro hrel
    have hlow := r.mono (Nat.le_of_lt (Nat.lt_of_succ_le hi))
    have hhigh := r.mono (Nat.le_of_lt him)
    rw [htime] at hlow
    rw [htime'] at hhigh
    exact hnone ⟨i, released_between hp hlow hhigh hrel⟩
  rw [h'.2] at hset
  cases hset

/-- **Once in every period** up to the last one, exactly if each before it is polled at its last
instant. Periods count from the first one that begins when polling has begun. -/
theorem once_iff {last : Nat} (hstart : ∀ k ≤ last, r.time 0 ≤ p * k → r.PolledAt (p * k)) :
    (∀ k ≤ last, r.time 0 ≤ p * k → r.Once k) ↔
      ∀ k < last, r.time 0 ≤ p * k → r.PolledAt (p * k + (p - 1)) := by
  constructor
  · intro honce k hk hbegun
    have hnext : r.time 0 ≤ p * (k + 1) :=
      Nat.le_trans hbegun (Nat.mul_le_mul_left p (Nat.le_succ k))
    obtain ⟨n, ⟨hn, hfires⟩, -⟩ := honce k (Nat.le_of_lt hk) hbegun
    obtain ⟨m, ⟨hm, hfires'⟩, -⟩ := honce (k + 1) hk hnext
    exact released_of_fires hp hfires hfires' hn hm
  · intro hrel k hk hbegun
    exact once_of_released hp (hstart k hk hbegun) fun j hj => hrel j (Nat.lt_of_lt_of_le hj hk)

end Period

end Latch
