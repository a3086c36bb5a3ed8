import ChargePoint.Ami.Meter
import ChargePoint.Charge.Layer
import ChargePoint.Client

/-!
# The cut-off at zero current

`CheckCurrentIsZero` keeps the charging time at which the current became zero, and ends the
session by the difference of two *minutes of the hour*. Both are below 60, so a zero that begins
in the last quarter of an hour is never as much as 15 minutes old.

The listener is called with a sample for every response of the meter. What the other threads
have made of the layer by then is part of the sample.
-/

set_option autoImplicit false

namespace ChargePoint

open Ami Rounding

/-! ## The listener

The time kept is 0 as long as no zero is. A zero at charging time 0 is therefore not noticed, and
the sample after it is taken for the first. A sample that ends the session takes the listener
out, and those after it do nothing. -/

/-- `(int)(t % 3600) / 60` -/
def minuteOfHour (t : Int) : Int := (t.tmod 3600).tdiv 60

/-- **`CheckCurrentIsZero`**: the layer, the time kept, and whether the session was ended. The
`devtype` is neither `BB_TYPE` nor `BC2_TYPE`: on those the stop is `StopCharge2ch` of the channel
that was sampled, and the screen is not told (`UpdateStopGui`). -/
def checkCurrentIsZero (s : ChargeLayer) (tCurZeroTime tChargedTime : Int) (nCurrent : ℚ) :
    ChargeLayer × Int × Bool :=
  if nCurrent < roundTo 53 (1 / 100) ∧ s.cp.scene.appOrder = appOrderCharging ∧ s.mcOn = true then
    if tCurZeroTime = 0 then (s, tChargedTime, false)
    else
      let tZeroCurrentPastTime := minuteOfHour tChargedTime - minuteOfHour tCurZeroTime
      let tZeroCurrentPastTime := if tZeroCurrentPastTime < 0 then 0 else tZeroCurrentPastTime
      if 14 < tZeroCurrentPastTime then (s.checkCurrentIsZero.1, tCurZeroTime, true)
      else (s, tCurZeroTime, false)
  else (s, 0, false)

/-- A call of `WHMListenerOnCharge`. -/
structure CurrentSample where
  layer : ChargeLayer
  /-- `sChargeTime`, in seconds -/
  tChargedTime : Nat
  /-- the register the current comes from, in 0.01 A -/
  current : UInt16

/-- What is kept between two calls. -/
structure ZeroWatch where
  sCh1CurrentZeroTime : Int
  /-- `sWhmListener` is `WHMListenerOnCharge` -/
  listening : Bool

/-- The state `ChargeOnEnter` leaves. -/
def ZeroWatch.init : ZeroWatch := ⟨0, true⟩

/-- A sample, and whether it ends the session. The listener is taken out then. -/
def ZeroWatch.sample (w : ZeroWatch) (x : CurrentSample) : ZeroWatch × Bool :=
  if w.listening then
    let r := checkCurrentIsZero x.layer w.sCh1CurrentZeroTime x.tChargedTime (amiCurrent x.current)
    (⟨r.2.1, !r.2.2⟩, r.2.2)
  else (w, false)

/-- The state after the first `n` of a sequence of samples. -/
def watchAfter (x : Nat → CurrentSample) : Nat → ZeroWatch
  | 0 => .init
  | n + 1 => ((watchAfter x n).sample (x n)).1

/-- The `n`-th sample ends the session. -/
def EndsAt (x : Nat → CurrentSample) (n : Nat) : Prop := ((watchAfter x n).sample (x n)).2 = true

/-! ## What counts as zero

A sample of 0.01 A is one of them: kept as a `float`, it is below the `double` it is compared
with. The lemmas about `sample` are all that a call does: start over, keep the time, end the
session, or wait. -/

/-- A sample the function takes for zero current while charging. -/
def CurrentSample.IsZero (x : CurrentSample) : Prop :=
  x.current ≤ 1 ∧ x.layer.cp.scene.appOrder = appOrderCharging ∧ x.layer.mcOn = true

/-- 0.01 A is kept as a `float` below the `double` it is compared with. -/
theorem amiCurrent_lt_iff (raw : UInt16) : amiCurrent raw < roundTo 53 (1 / 100) ↔ raw ≤ 1 := by
  constructor
  · intro hlt
    by_contra hgt
    have htwo : (2 : UInt16) ≤ raw := by
      have := UInt16.lt_iff_toNat_lt.mp (UInt16.not_le.mp hgt)
      exact UInt16.le_iff_toNat_le.mpr this
    have hvalue : roundTo 53 (1 / 100) ≤ amiCurrent 2 := by decide +kernel
    exact absurd hlt (not_lt.mpr (hvalue.trans (amiCurrent_mono htwo)))
  · intro hle
    have hvalue : amiCurrent 1 < roundTo 53 (1 / 100) := by decide +kernel
    exact lt_of_le_of_lt (amiCurrent_mono hle) hvalue

variable {w : ZeroWatch} {x : CurrentSample}

theorem isZero_iff : (amiCurrent x.current < roundTo 53 (1 / 100) ∧
    x.layer.cp.scene.appOrder = appOrderCharging ∧ x.layer.mcOn = true) ↔ x.IsZero := by
  rw [amiCurrent_lt_iff]
  rfl

/-- The minute of the hour of a charging time. -/
theorem minuteOfHour_natCast (t : Nat) : minuteOfHour t = (t % 3600 / 60 : Nat) := rfl

/-- A sample that is not zero starts over. -/
theorem sample_nonzero (h : ¬ x.IsZero) (hl : w.listening = true) : w.sample x = (.init, false) := by
  unfold ZeroWatch.sample checkCurrentIsZero
  rw [if_pos hl, if_neg (mt isZero_iff.mp h)]
  rfl

/-- The first sample that is zero is kept. -/
theorem sample_first (h : x.IsZero) (hl : w.listening = true) (hw : w.sCh1CurrentZeroTime = 0) :
    w.sample x = (⟨x.tChargedTime, true⟩, false) := by
  unfold ZeroWatch.sample checkCurrentIsZero
  rw [if_pos hl, if_pos (isZero_iff.mpr h), if_pos hw]
  rfl

/-- A later one ends the session when its minute of the hour is 15 further. -/
theorem sample_ends (h : x.IsZero) (hl : w.listening = true) (hw : w.sCh1CurrentZeroTime ≠ 0)
    (hlate : minuteOfHour w.sCh1CurrentZeroTime + 15 ≤ minuteOfHour x.tChargedTime) :
    w.sample x = (⟨w.sCh1CurrentZeroTime, false⟩, true) := by
  have hpast : 14 < if minuteOfHour x.tChargedTime - minuteOfHour w.sCh1CurrentZeroTime < 0 then 0
      else minuteOfHour x.tChargedTime - minuteOfHour w.sCh1CurrentZeroTime := by
    split <;> omega
  unfold ZeroWatch.sample checkCurrentIsZero
  rw [if_pos hl, if_pos (isZero_iff.mpr h), if_neg hw]
  dsimp only
  rw [if_pos hpast, Bool.not_true]

theorem sample_waits (h : x.IsZero) (hl : w.listening = true) (hw : w.sCh1CurrentZeroTime ≠ 0)
    (hsoon : minuteOfHour x.tChargedTime < minuteOfHour w.sCh1CurrentZeroTime + 15) :
    w.sample x = (w, false) := by
  have hpast : ¬ 14 < if minuteOfHour x.tChargedTime - minuteOfHour w.sCh1CurrentZeroTime < 0 then 0
      else minuteOfHour x.tChargedTime - minuteOfHour w.sCh1CurrentZeroTime := by
    split <;> omega
  unfold ZeroWatch.sample checkCurrentIsZero
  rw [if_pos hl, if_pos (isZero_iff.mpr h), if_neg hw]
  dsimp only
  rw [if_neg hpast, Bool.not_false, ← hl]

/-! ## Sequences of samples

From the end of a session back: a time is kept, it is that of an earlier sample, and all samples
since were zero (`KeptSince`, by induction over the samples). That the minute of the hour has
gone up by fifteen says no more than that fourteen minutes have passed. -/

section Sequences
variable {x : Nat → CurrentSample} {n : Nat}

/-- The samples are in the order of their times. -/
def SamplesInOrder (x : Nat → CurrentSample) : Prop :=
  ∀ i j, i ≤ j → (x i).tChargedTime ≤ (x j).tChargedTime

/-- Before the session ends the listener has kept nothing, or the time of an earlier sample since
which all were zero. -/
def KeptSince (x : Nat → CurrentSample) (n : Nat) : Prop :=
  (watchAfter x n).sCh1CurrentZeroTime = 0 ∨
    ∃ j < n, (watchAfter x n).sCh1CurrentZeroTime = (x j).tChargedTime ∧
      ∀ k, j ≤ k → k < n → (x k).IsZero

theorem watchAfter_succ : watchAfter x (n + 1) = ((watchAfter x n).sample (x n)).1 := rfl

theorem keptSince (h : (watchAfter x n).listening = true) : KeptSince x n := by
  induction n with
  | zero => exact .inl rfl
  | succ n ih =>
    by_cases hl : (watchAfter x n).listening = true
    · by_cases hzero : (x n).IsZero
      · by_cases hfirst : (watchAfter x n).sCh1CurrentZeroTime = 0
        · refine .inr ⟨n, Nat.lt_succ_self n, ?_, fun k hk hk' => ?_⟩
          · rw [watchAfter_succ, sample_first hzero hl hfirst]
          · rw [show k = n by omega]
            exact hzero
        · obtain hnone | ⟨j, hj, htime, hsince⟩ := ih hl
          · exact absurd hnone hfirst
          · refine .inr ⟨j, Nat.lt_succ_of_lt hj, ?_, fun k hk hk' => ?_⟩
            · rcases lt_or_ge (minuteOfHour (x n).tChargedTime)
                (minuteOfHour (watchAfter x n).sCh1CurrentZeroTime + 15) with hsoon | hlate
              · rw [watchAfter_succ, sample_waits hzero hl hfirst hsoon]
                exact htime
              · rw [watchAfter_succ, sample_ends hzero hl hfirst hlate]
                exact htime
            · rcases Nat.lt_succ_iff_lt_or_eq.mp hk' with hlt | rfl
              · exact hsince k hk hlt
              · exact hzero
      · rw [KeptSince, watchAfter_succ, sample_nonzero hzero hl]
        exact .inl rfl
    · -- the listener is out, and stays out
      rw [watchAfter_succ, ZeroWatch.sample, if_neg hl] at h
      exact absurd h hl

/-- **What ends a session**: a zero that is 15 minutes of the hour old. -/
theorem EndsAt.cases (h : EndsAt x n) : (watchAfter x n).listening = true ∧ (x n).IsZero ∧
    (watchAfter x n).sCh1CurrentZeroTime ≠ 0 ∧
    minuteOfHour (watchAfter x n).sCh1CurrentZeroTime + 15 ≤ minuteOfHour (x n).tChargedTime := by
  unfold EndsAt at h
  have hl : (watchAfter x n).listening = true := by
    by_contra hl
    rw [ZeroWatch.sample, if_neg hl] at h
    exact absurd h Bool.false_ne_true
  have hzero : (x n).IsZero := by
    by_contra hzero
    rw [sample_nonzero hzero hl] at h
    exact absurd h Bool.false_ne_true
  have hfirst : (watchAfter x n).sCh1CurrentZeroTime ≠ 0 := by
    intro hfirst
    rw [sample_first hzero hl hfirst] at h
    exact absurd h Bool.false_ne_true
  refine ⟨hl, hzero, hfirst, ?_⟩
  by_contra hsoon
  rw [sample_waits hzero hl hfirst (by omega)] at h
  exact absurd h Bool.false_ne_true

/-- Fifteen minutes of the hour are more than fourteen minutes. -/
theorem elapsed_of_minutes {t t' : Nat} (hle : t ≤ t')
    (h : minuteOfHour t + 15 ≤ minuteOfHour t') : t + 840 < t' := by
  rw [minuteOfHour_natCast, minuteOfHour_natCast] at h
  omega

/-- In the last 14 minutes of a session that is ended every sample was zero. -/
theorem EndsAt.zero {i : Nat} (h : EndsAt x n) (hord : SamplesInOrder x) (hi : i ≤ n)
    (hlast : (x n).tChargedTime ≤ (x i).tChargedTime + 840) : (x i).IsZero := by
  obtain ⟨hl, hzero, hfirst, hlate⟩ := h.cases
  obtain hnone | ⟨j, hj, htime, hsince⟩ := keptSince hl
  · exact absurd hnone hfirst
  · rw [htime] at hlate
    have helapsed := elapsed_of_minutes (hord j n hj.le) hlate
    have hji : j ≤ i := by
      by_contra hij
      have := hord i j (by omega)
      omega
    rcases hi.lt_or_eq with hlt | rfl
    · exact hsince i hji hlt
    · exact hzero

end Sequences

/-! ## A zero that lasts

And forward: while the zero lasts, what is kept is in the minute in which it began. A sample
whose minute of the hour is 15 further comes if that minute is below 45. In the last quarter the
minute of the hour is back at 0 before. -/

section Lasting
variable {x : Nat → CurrentSample} {t₀ n : Nat}

/-- From the charging time `t₀` on the meter says 0.00 A every second, while the contactor is
on. -/
structure ZeroFrom (t₀ : Nat) (x : Nat → CurrentSample) : Prop where
  time : ∀ i, (x i).tChargedTime = t₀ + i
  current : ∀ i, (x i).current = 0
  charging : ∀ i, (x i).layer.cp.scene.appOrder = appOrderCharging
  contactor : ∀ i, (x i).layer.mcOn = true

/-- The same, as the function sees it. -/
structure TakenForZero (t₀ : Nat) (x : Nat → CurrentSample) : Prop where
  time : ∀ i, (x i).tChargedTime = t₀ + i
  isZero : ∀ i, (x i).IsZero

theorem ZeroFrom.taken (h : ZeroFrom t₀ x) : TakenForZero t₀ x := by
  refine ⟨h.time, fun i => ⟨?_, h.charging i, h.contactor i⟩⟩
  rw [h.current i]
  decide

theorem TakenForZero.minute (h : TakenForZero t₀ x) (i : Nat) :
    minuteOfHour (x i).tChargedTime = ((t₀ + i) % 3600 / 60 : Nat) := by
  rw [h.time i, minuteOfHour_natCast]

/-- What is kept while the zero lasts: a time in the minute of `t₀`. -/
def InMinute (t₀ : Nat) (w : ZeroWatch) : Prop :=
  w.listening = true ∧ w.sCh1CurrentZeroTime ≠ 0 ∧
    minuteOfHour w.sCh1CurrentZeroTime = (t₀ % 3600 / 60 : Nat)

/-- From the second sample on, as long as none was 15 minutes of the hour further. -/
theorem TakenForZero.inMinute (h : TakenForZero t₀ x)
    (hsoon : ∀ i < n + 2, (t₀ + i) % 3600 / 60 < t₀ % 3600 / 60 + 15) :
    InMinute t₀ (watchAfter x (n + 2)) := by
  induction n with
  | zero =>
    have hone : watchAfter x 1 = ⟨t₀, true⟩ := by
      rw [watchAfter_succ, sample_first (h.isZero 0) rfl rfl, h.time 0, Nat.add_zero]
    by_cases hstart : t₀ = 0
    · -- charging time 0 is what stands for no time, and is taken again a second later
      have htwo : watchAfter x 2 = ⟨((t₀ + 1 : Nat) : Int), true⟩ := by
        rw [watchAfter_succ, hone, sample_first (h.isZero 1) rfl (by simp [hstart]), h.time 1]
      rw [Nat.zero_add, htwo, hstart]
      exact ⟨rfl, by decide, rfl⟩
    · have htwo : watchAfter x 2 = ⟨t₀, true⟩ := by
        have hminute := h.minute 1
        have := hsoon 1 (by omega)
        rw [watchAfter_succ, hone, sample_waits (h.isZero 1) rfl (by simpa using hstart)]
        rw [hminute, minuteOfHour_natCast]
        omega
      rw [Nat.zero_add, htwo]
      exact ⟨rfl, by simpa using hstart, rfl⟩
  | succ n ih =>
    obtain ⟨hl, hw, hmin⟩ := ih fun i hi => hsoon i (by omega)
    have hminute := h.minute (n + 2)
    have := hsoon (n + 2) (by omega)
    rw [watchAfter_succ, sample_waits (h.isZero (n + 2)) hl hw (by rw [hminute, hmin]; omega)]
    exact ⟨hl, hw, hmin⟩

/-- The session ends at the first sample that is 15 minutes of the hour further. -/
theorem TakenForZero.endsAt (h : TakenForZero t₀ x)
    (hsoon : ∀ i < n + 2, (t₀ + i) % 3600 / 60 < t₀ % 3600 / 60 + 15)
    (hlate : t₀ % 3600 / 60 + 15 ≤ (t₀ + (n + 2)) % 3600 / 60) : EndsAt x (n + 2) := by
  obtain ⟨hl, hw, hmin⟩ := h.inMinute hsoon
  have hminute := h.minute (n + 2)
  unfold EndsAt
  rw [sample_ends (h.isZero (n + 2)) hl hw (by rw [hminute, hmin]; omega)]

/-- Once zero current has lasted 15 minutes, within one minute, the session is ended. -/
def CutsOff (x : Nat → CurrentSample) : Prop := ∃ n, 840 ≤ n ∧ n ≤ 960 ∧ EndsAt x n

/-- **A zero that lasts is noticed in the first three quarters of an hour.** -/
theorem TakenForZero.cutsOff_iff (h : TakenForZero t₀ x) : CutsOff x ↔ t₀ % 3600 / 60 < 45 := by
  constructor
  · rintro ⟨n, hlow, -, hend⟩
    by_contra hquarter
    -- no minute of the hour is 15 further
    obtain ⟨n, rfl⟩ := Nat.exists_eq_add_of_le' (show 2 ≤ n by omega)
    obtain ⟨-, -, -, hlate⟩ := hend.cases
    obtain ⟨-, -, hmin⟩ := h.inMinute (n := n) fun i _ => by omega
    rw [hmin, h.minute] at hlate
    omega
  · intro hquarter
    obtain ⟨n, hn⟩ := Nat.exists_eq_add_of_le' (show 2 ≤ 900 - t₀ % 60 by omega)
    refine ⟨n + 2, by omega, by omega, h.endsAt (fun i hi => ?_) ?_⟩ <;> omega

end Lasting

/-- **The cut-off.** A zero that lasts ends the session in time exactly when it begins in the
first 45 minutes of an hour, and a session is ended after 14 minutes without current only, as
long as the meter never says 0.01 A. -/
theorem zero_current_cutoff (x : Nat → CurrentSample) :
    (∀ t₀, ZeroFrom t₀ x → (CutsOff x ↔ t₀ % 3600 / 60 < 45)) ∧
      (SamplesInOrder x → (∀ i, (x i).current ≠ 1) → ∀ n, EndsAt x n → ∀ i ≤ n,
        (x n).tChargedTime ≤ (x i).tChargedTime + 840 → (x i).current = 0) := by
  refine ⟨fun t₀ h => h.taken.cutsOff_iff, fun hord hone n hend i hi hlast => ?_⟩
  have hle := UInt16.le_iff_toNat_le.mp (hend.zero hord hi hlast).1
  have hne : (x i).current.toNat ≠ 1 := fun heq => hone i (UInt16.toNat_inj.mp heq)
  apply UInt16.toNat_inj.mp
  show (x i).current.toNat = 0
  have : (x i).current.toNat ≤ 1 := hle
  omega

/-- A layer that charges. -/
def chargingLayer : ChargeLayer :=
  ((ChargeLayer.init (.init 3)).magneticContactorOn).setAppOrder appOrderCharging

/-- The meter says the same every second, from a charging time on. -/
def steadyCurrent (t₀ : Nat) (current : UInt16) (i : Nat) : CurrentSample :=
  ⟨chargingLayer, t₀ + i, current⟩

/-- Zero from the start of the session on. -/
theorem zero_current_cutoff_start :
    CutsOff (steadyCurrent 0 0) ∧ ∀ n, EndsAt (steadyCurrent 0 0) n → ∀ i ≤ n,
      (steadyCurrent 0 0 n).tChargedTime ≤ (steadyCurrent 0 0 i).tChargedTime + 840 →
        (steadyCurrent 0 0 i).current = 0 := by
  have h := zero_current_cutoff (steadyCurrent 0 0)
  have hfrom : ZeroFrom 0 (steadyCurrent 0 0) :=
    ⟨fun _ => rfl, fun _ => rfl, fun _ => rfl, fun _ => rfl⟩
  have hord : SamplesInOrder (steadyCurrent 0 0) := fun i j hij => Nat.add_le_add_left hij 0
  exact ⟨(h.1 0 hfrom).mpr (by decide), h.2 hord fun _ => (by decide : (0 : UInt16) ≠ 1)⟩

/-- Zero from 45 minutes on: the session is not ended. A steady 0.01 A: it is. -/
theorem cutoff_missed_and_early :
    (∃ t₀ x, ZeroFrom t₀ x ∧ ¬ CutsOff x) ∧
      ∃ x n, SamplesInOrder x ∧ EndsAt x n ∧ ∀ i, (x i).current ≠ 0 := by
  constructor
  · have hfrom : ZeroFrom 2700 (steadyCurrent 2700 0) :=
      ⟨fun _ => rfl, fun _ => rfl, fun _ => rfl, fun _ => rfl⟩
    refine ⟨2700, _, hfrom, fun hcut => ?_⟩
    exact absurd (hfrom.taken.cutsOff_iff.mp hcut) (by decide)
  · have htaken : TakenForZero 0 (steadyCurrent 0 1) :=
      ⟨fun _ => rfl, fun _ => ⟨UInt16.le_refl 1, rfl, rfl⟩⟩
    obtain ⟨n, -, -, hend⟩ := htaken.cutsOff_iff.mpr (by decide)
    exact ⟨_, n, fun i j hij => Nat.add_le_add_left hij 0,
      hend, fun _ => (by decide : (1 : UInt16) ≠ 0)⟩

end ChargePoint
