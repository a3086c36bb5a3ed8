import ChargePoint.Client
import ChargePoint.Lib.Latch

/-!
# The sampling clock

`Check_Sampled_Time` and `Check_Meter_Time` are called when the loop comes round, and each keeps a
flag that lets it answer once at the beginning of a period. The flag is taken back by a call in the
last second of the period, and there may be none: `NetRun` sleeps for seconds. The next period then
passes without an answer (`sampling_clock`).
-/

set_option autoImplicit false

namespace ChargePoint

/-! ## Calls -/

/-- Calls of one of the two functions while charging, at the local time `time n` in seconds. What
else becomes of the charger between two calls is left open. -/
structure ChargingCalls {α : Type} (check : Charger → Tm → Option (α × Charger))
    (flg : Charger → Bool) where
  charger : Nat → Charger
  tm : Nat → Tm
  time : Nat → Nat
  mono : Monotone time
  clock : ∀ n, secondsPastHour (tm n) = time n % 3600
  charging : ∀ n, chargingNow (charger n) = some true
  first : flg (charger 0) = false
  kept : ∀ n x c, check (charger n) (tm n) = some (x, c) → flg (charger (n + 1)) = flg c

section Calls
variable {α : Type} {check : Charger → Tm → Option (α × Charger)} {flg : Charger → Bool}

/-- Call `n` returns `x`. -/
def ChargingCalls.Returns (r : ChargingCalls check flg) (x : α) (n : Nat) : Prop :=
  ∃ c, check (r.charger n) (r.tm n) = some (x, c)

/-- There is a call at this time. -/
def ChargingCalls.CalledAt (r : ChargingCalls check flg) (t : Nat) : Prop := ∃ n, r.time n = t

/-- There is a call in second 0 of each period up to the last, that begins when the calls have
begun. -/
def ChargingCalls.EachStart (r : ChargingCalls check flg) (period last : Nat) : Prop :=
  ∀ k ≤ last, r.time 0 ≤ period * k → r.CalledAt (period * k)

/-- **Once in each of these periods** it returns `x`. -/
def ChargingCalls.OnceEach (r : ChargingCalls check flg) (x : α) (period last : Nat) : Prop :=
  ∀ k ≤ last, r.time 0 ≤ period * k → ∃! n, r.time n / period = k ∧ r.Returns x n

/-- There is a call in the last second of each of these periods but the last one. -/
def ChargingCalls.EachEnd (r : ChargingCalls check flg) (period last : Nat) : Prop :=
  ∀ k < last, r.time 0 ≤ period * k → r.CalledAt (period * k + (period - 1))

/-! ## The latch -/

/-- While charging the function is a pulse of this period, and answers `on` or `off`. -/
structure Pulses (check : Charger → Tm → Option (α × Charger)) (flg : Charger → Bool)
    (period : Nat) (on off : α) : Prop where
  differ : on ≠ off
  call : ∀ c tm, chargingNow c = some true → ∃ c',
    check c tm = some (if (periodPulse period (flg c) tm).1 then on else off, c') ∧
      flg c' = (periodPulse period (flg c) tm).2

theorem pulses_sampled :
    Pulses checkSampledTime (fun c => c.checkSampledFlg) 60 meterValClockType 0 := by
  refine ⟨by decide, ?_⟩
  intro c tm hon
  unfold checkSampledTime
  rw [hon]
  exact ⟨_, rfl, rfl⟩

theorem pulses_meter : Pulses checkMeterTime (fun c => c.checkMeterFlg) 180 true false := by
  refine ⟨by decide, ?_⟩
  intro c tm hon
  unfold checkMeterTime
  rw [hon]
  refine ⟨{ c with checkMeterFlg := (periodPulse 180 c.checkMeterFlg tm).2 }, ?_, rfl⟩
  rw [Option.map_some, if_pos rfl, Bool.if_true_left, Bool.or_false, Bool.decide_eq_true]

/-- The pulse, in terms of the second of the period. -/
theorem periodPulse_eq {period t : Nat} {flag : Bool} {tm : Tm} (hp : 1 < period)
    (hdvd : period ∣ 3600) (htm : secondsPastHour tm = t % 3600) :
    periodPulse period flag tm =
      (decide (t % period = 0 ∧ flag = false),
        if t % period = 0 then true else if t % period = period - 1 then false else flag) := by
  have hmod : secondsPastHour tm % period = t % period := by
    rw [htm, Nat.mod_mod_of_dvd t hdvd]
  have hlt : t % period < period := Nat.mod_lt t (Nat.lt_of_succ_lt hp)
  unfold periodPulse
  dsimp only
  rw [hmod]
  by_cases hstart : t % period = 0
  · cases flag with
    | false => simp [hstart]
    | true =>
      have hlong : period ≠ 1 := Nat.ne_of_gt hp
      simp [hstart, hlong]
  · have hpast : ¬ period - t % period ≥ period := by omega
    rw [if_neg fun h => hpast h.1, if_neg hstart]
    by_cases hend : t % period = period - 1
    · rw [if_pos (by omega), if_pos hend]
      simp [hstart]
    · rw [if_neg (by omega), if_neg hend]
      simp [hstart]

variable {period : Nat} {on off : α}

/-- **The calls poll a latch**, which is the flag. -/
def ChargingCalls.latch (r : ChargingCalls check flg) (hpulse : Pulses check flg period on off)
    (hp : 1 < period) (hdvd : period ∣ 3600) : Latch period where
  time := r.time
  flag n := flg (r.charger n)
  mono := r.mono
  first := r.first
  next n := by
    obtain ⟨c, hcall, hflg⟩ := hpulse.call (r.charger n) (r.tm n) (r.charging n)
    rw [r.kept n _ c hcall, hflg, periodPulse_eq hp hdvd (r.clock n)]

theorem ChargingCalls.fires_iff (r : ChargingCalls check flg)
    (hpulse : Pulses check flg period on off) (hp : 1 < period) (hdvd : period ∣ 3600) (n : Nat) :
    (r.latch hpulse hp hdvd).Fires n ↔ r.Returns on n := by
  obtain ⟨c, hcall, -⟩ := hpulse.call (r.charger n) (r.tm n) (r.charging n)
  rw [periodPulse_eq hp hdvd (r.clock n)] at hcall
  simp only [decide_eq_true_eq] at hcall
  constructor
  · intro hfires
    refine ⟨c, ?_⟩
    rw [hcall, if_pos]
    exact hfires
  · intro hret
    obtain ⟨c', hret⟩ := hret
    rw [hcall] at hret
    have hval := (Prod.mk.inj (Option.some.inj hret)).1
    by_contra hnot
    rw [if_neg] at hval
    · exact hpulse.differ hval.symm
    · exact hnot

theorem ChargingCalls.once_iff (r : ChargingCalls check flg)
    (hpulse : Pulses check flg period on off) (hp : 1 < period) (hdvd : period ∣ 3600) {last : Nat}
    (hstart : r.EachStart period last) : r.OnceEach on period last ↔ r.EachEnd period last := by
  refine Iff.trans ?_ ((r.latch hpulse hp hdvd).once_iff hp hstart)
  unfold OnceEach Latch.Once
  simp only [r.fires_iff hpulse hp hdvd]
  rfl

end Calls

/-- **Both answer once in each period** exactly if each period but the last has a call in its last
second. -/
theorem sampling_clock (last : Nat) :
    (∀ r : ChargingCalls checkSampledTime (fun c => c.checkSampledFlg), r.EachStart 60 last →
      (r.OnceEach meterValClockType 60 last ↔ r.EachEnd 60 last)) ∧
    (∀ r : ChargingCalls checkMeterTime (fun c => c.checkMeterFlg), r.EachStart 180 last →
      (r.OnceEach true 180 last ↔ r.EachEnd 180 last)) := by
  constructor
  · intro r hstart
    exact r.once_iff pulses_sampled (by decide) (by decide) hstart
  · intro r hstart
    exact r.once_iff pulses_meter (by decide) (by decide) hstart

/-! ## Two schedules -/

/-- `localtime`, as far as the minutes and the seconds go. -/
def tmAt (t : Nat) : Tm := ⟨0, 0, 0, 0, t / 60 % 60, t % 60⟩

/-- What becomes of the flag when the calls come at these times. -/
def flagAt (period : Nat) (time : Nat → Nat) : Nat → Bool
  | 0 => false
  | n + 1 => (periodPulse period (flagAt period time n) (tmAt (time n))).2

/-- A charger that is charging, with these flags. -/
def chargingFlags (sampled meter : Bool) : Charger :=
  let c := Charger.init 0
  { c with
    cs := { c.cs with bCpStat := fun _ => .charging }
    scene := { c.scene with sChCharging := true }
    checkSampledFlg := sampled
    checkMeterFlg := meter }

section Schedules
variable (time : Nat → Nat) (mono : Monotone time)

theorem clock_tmAt (t : Nat) : secondsPastHour (tmAt t) = t % 3600 := by
  unfold secondsPastHour tmAt
  dsimp only
  omega

def sampledCalls : ChargingCalls checkSampledTime (fun c => c.checkSampledFlg) where
  charger n := chargingFlags (flagAt 60 time n) false
  tm n := tmAt (time n)
  time := time
  mono := mono
  clock n := clock_tmAt (time n)
  charging _ := rfl
  first := rfl
  kept n x c h := by
    obtain ⟨c', hcall, hflg⟩ := pulses_sampled.call (chargingFlags (flagAt 60 time n) false)
      (tmAt (time n)) rfl
    rw [hcall] at h
    rw [← (Prod.mk.inj (Option.some.inj h)).2, hflg]
    rfl

def meterCalls : ChargingCalls checkMeterTime (fun c => c.checkMeterFlg) where
  charger n := chargingFlags false (flagAt 180 time n)
  tm n := tmAt (time n)
  time := time
  mono := mono
  clock n := clock_tmAt (time n)
  charging _ := rfl
  first := rfl
  kept n x c h := by
    obtain ⟨c', hcall, hflg⟩ := pulses_meter.call (chargingFlags false (flagAt 180 time n))
      (tmAt (time n)) rfl
    rw [hcall] at h
    rw [← (Prod.mk.inj (Option.some.inj h)).2, hflg]
    rfl

end Schedules

/-- A call in every second. -/
theorem sampling_clock_seconds :
    (sampledCalls id monotone_id).OnceEach meterValClockType 60 5 ∧
      (meterCalls id monotone_id).OnceEach true 180 5 := by
  obtain ⟨hsampled, hmeter⟩ := sampling_clock 5
  refine ⟨(hsampled _ ?_).mpr ?_, (hmeter _ ?_).mpr ?_⟩
  all_goals
    intro k _ _
    exact ⟨_, rfl⟩

/-- A call in second 0 of every minute, and no other: the second minute passes without an answer. -/
theorem second_minute_missed :
    ∃ r : ChargingCalls checkSampledTime (fun c => c.checkSampledFlg),
      r.EachStart 60 1 ∧ ¬ r.OnceEach meterValClockType 60 1 := by
  have mono : Monotone fun n => 60 * n := fun _ _ h => Nat.mul_le_mul_left 60 h
  have hstart : (sampledCalls _ mono).EachStart 60 1 := fun k _ _ => ⟨k, rfl⟩
  refine ⟨sampledCalls _ mono, hstart, ?_⟩
  intro honce
  have hend := ((sampledCalls _ mono).once_iff pulses_sampled (by decide) (by decide) hstart).mp honce
  obtain ⟨n, hn⟩ := hend 0 Nat.one_pos (Nat.le_refl _)
  have hn : 60 * n = 60 * 0 + (60 - 1) := hn
  omega

end ChargePoint
