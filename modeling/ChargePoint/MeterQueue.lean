import ChargePoint.Charger

/-!
# The meter queue and its clocks

`MeterValQ` holds up to five samples, oldest first. A sample is the energy since the
previous one: `Add_MeterVal_Q` keeps the previous reading in `startTsQ.MeterStart_Val`,
the very field a StartTransaction frame reports as `meterStart`.

The two branches of `Add_MeterVal_Q` differ more than they seem to. When an entry is
free, everything goes into it. When the queue is full the entries move down and the new
sample's flag, id, connector and time go into entry 4, with `Sampled_Val` 0 — but the
energy, the current and the voltage are still stored at `Qno`, which is **5**.
-/

set_option autoImplicit false

namespace ChargePoint

/-- What one call of `Add_MeterVal_Q` reads from the clock. -/
structure SampleClock where
  /-- `CstGetTime_Msec_test()` -/
  uid : UInt64
  tm : Tm
  deriving DecidableEq

/-- The `while` loop: skip entries in use. -/
def qnoLoop (q : Nat → MeterVal) : Nat → Nat → Nat
  | 0, i => i
  | k + 1, i => if (q i).meterValFlg ≠ 0 then qnoLoop q k (i + 1) else i

/-- The first free entry, `MAX_QNO_METERVAL` when there is none. -/
def qno (q : Nat → MeterVal) : Nat := qnoLoop q maxQnoMeterVal 0

/-- The header of a new sample: what is known before the energy is computed. -/
def sampleHead (c : Charger) (k : SampleClock) (meterValType : Nat) (old : MeterVal) : MeterVal :=
  { old with
      meterValFlg := meterValType
      uidMv := k.uid
      connectId := c.bDevChannel.toNat + 1
      timeStamp := getDateTime k.tm
      sampledVal := 0 }

/-- The energy since the last reading and the electrical values. `Sampled_Val` is
unsigned, so the source's test for a negative difference never holds. -/
def sampleBody (c : Charger) (old : MeterVal) : MeterVal :=
  { old with
      sampledVal := c.scene.eqpWatt - c.startTsQ.meterStartVal
      current := c.scene.amiCurrent
      volt := c.scene.amiVolt }

/-- **`Add_MeterVal_Q`.** -/
def addMeterValQ (c : Charger) (k : SampleClock) (meterValType : Nat) : Charger :=
  let n := qno c.meterQ
  let q : Nat → MeterVal :=
    if n = maxQnoMeterVal then fun i =>
      if i < maxQnoMeterVal - 1 then c.meterQ (i + 1)
      else if i = maxQnoMeterVal - 1 then sampleHead c k meterValType (c.meterQ i)
      else if i = n then sampleBody c (c.meterQ i)
      else c.meterQ i
    else fun i =>
      if i = n then sampleBody c (sampleHead c k meterValType (c.meterQ i)) else c.meterQ i
  { c with meterQ := q,
           startTsQ := { c.startTsQ with meterStartVal := c.scene.eqpWatt } }

/-- **`Reset_MeterVal_Q`**: free every entry before the first free one. -/
def resetMeterValQ (c : Charger) : Charger :=
  let n := qno c.meterQ
  { c with meterQ := fun i =>
      if i < n then
        { c.meterQ i with meterValFlg := 0, uidMv := 0, connectId := 0, sampledVal := 0,
                          current := 0, volt := 0 }
      else c.meterQ i }

/-! ## When to sample, when to send -/

/-- The connector in use is charging and the charging screen is up. -/
def chargingNow (c : Charger) : Option Bool :=
  c.devConn.map fun i => c.cs.bCpStat i = .charging && c.scene.sChCharging

def secondsPastHour (tm : Tm) : Nat := tm.tmMin * 60 + tm.tmSec

/-- The pulse of `Check_Sampled_Time` and `Check_Meter_Time`: at the first call in the
first second of a period, once; the flag is taken back in the last second. -/
def periodPulse (period : Nat) (flg : Bool) (tm : Tm) : Bool × Bool :=
  let secondsUntilNextCycle := period - secondsPastHour tm % period
  if secondsUntilNextCycle ≥ period ∧ flg = false then (true, true)
  else if secondsUntilNextCycle = 1 then (false, false)
  else (false, flg)

/-- **`Check_Sampled_Time`**: the type of the sample to take, 0 for none. -/
def checkSampledTime (c : Charger) (tm : Tm) : Option (Nat × Charger) :=
  (chargingNow c).map fun on =>
    if on then
      let r := periodPulse 60 c.checkSampledFlg tm
      (if r.1 then meterValClockType else 0, { c with checkSampledFlg := r.2 })
    else (0, { c with checkSampledFlg := false })

/-- **`Check_Meter_Time`**: whether the queue is to be sent now. -/
def checkMeterTime (c : Charger) (tm : Tm) : Option (Bool × Charger) :=
  (chargingNow c).map fun on =>
    if on then
      let r := periodPulse 180 c.checkMeterFlg tm
      (r.1, { c with checkMeterFlg := r.2 })
    else (false, { c with checkMeterFlg := false })

end ChargePoint
