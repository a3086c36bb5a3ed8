import ChargePoint.Charge.ZeroCurrent
import ChargePoint.Lib.Trace

/-!
# Charging without the server

A session goes on without the server for half an hour. Once a second the monitoring thread looks
whether the server and the network are there (`sChargeMonitoringTaskFuntion`). It keeps the time at
which they were lost, and stops the session by the *minute of the hour* of what has passed since:
the first half of every hour counts as nothing. So a session is stopped in time only if a turn comes
in the second half of the first hour, and `outage_stops` needs turns less than half an hour apart.
-/

set_option autoImplicit false

namespace ChargePoint

open Trace

/-! ## The monitor

A turn has two parts. In the first a loss is noted, with the time of the turn, and a return
deletes it (`watch`); in the second the session is stopped, if the time kept is old enough
(`stops`). -/

/-- What a turn of the monitor reads. -/
structure NetReading where
  /-- `theConfig.ConfirmSelect == USER_AUTH_NET` -/
  userAuthNet : Bool
  /-- `GetServerCon()` and `TSCT_NetworkIsReady()`. They are read twice, but the flag decides which
  of the two conditions can hold, so one reading counts. -/
  connected : Bool
  /-- `Errortv.tv_sec` -/
  errortv : Int
  /-- `Nowtv.tv_sec` -/
  nowtv : Int

/-- `NetError_ChargingFlg` and `NetErrorTime`. -/
structure NetError where
  chargingFlg : Bool
  time : Int

namespace NetError

/-- `ChargeOnEnter`. -/
def chargeOnEnter : NetError := ⟨false, 0⟩

/-- The loss is noted, or the return. -/
def watch (w : NetError) (r : NetReading) : NetError :=
  if r.userAuthNet then
    if !r.connected && !w.chargingFlg then ⟨true, r.errortv⟩
    else if r.connected && w.chargingFlg then ⟨false, 0⟩
    else w
  else w

/-- Whether `TSCT_ChargingStop` is called. -/
def stops (w : NetError) (nowtv : Int) : Bool :=
  w.chargingFlg && decide (29 < minuteOfHour (nowtv - w.time))

end NetError

/-- A turn, and whether it stopped the session. -/
structure NetTurn where
  reading : NetReading
  stopped : Bool

def netStep : Step NetError NetReading NetTurn := fun w r =>
  let w := w.watch r
  some (w, [⟨r, w.stops r.nowtv⟩])

/-! ## Outages

An outage begins behind the last turn that found both there. A turn without the authorisation by
the net finds nothing, and does not end it. -/

/-- The turn finds the server or the network lost. -/
def NetTurn.lost (x : NetTurn) : Bool := x.reading.userAuthNet && !x.reading.connected

/-- The turn finds both there. Without the authorisation by the net it finds nothing. -/
def NetTurn.back (x : NetTurn) : Bool := x.reading.userAuthNet && x.reading.connected

/-- The turns since the last that found both there. -/
def outage (log : List NetTurn) : List NetTurn := since NetTurn.back log

/-- **The clock does not go back, and the turns come within half an hour of each other.** -/
def Timely (_ : NetError) (log : List NetTurn) (r : NetReading) : Prop :=
  let last := (log.getLast?.map fun x => x.reading.nowtv).getD r.errortv
  last ≤ r.errortv ∧ r.errortv ≤ r.nowtv ∧ r.nowtv < last + 1800

/-- **A stop has a loss half an hour behind it**, with nothing back since. -/
def StoppedLate (l : List NetTurn) (x : NetTurn) : Prop :=
  x.stopped = true → ∃ y ∈ outage (l ++ [x]), y.lost = true ∧
    1800 ≤ x.reading.nowtv - y.reading.errortv

/-- Only the second half of an hour is over the limit. -/
theorem late_of_lt {t : Int} (h : 29 < minuteOfHour t) : 1800 ≤ t := by
  unfold minuteOfHour at h
  by_contra hearly
  rcases lt_or_ge t 0 with hneg | hpos
  · have hmod : (-t).tmod 3600 = -(t.tmod 3600) := Int.neg_tmod t 3600
    have hdiv : (-(t.tmod 3600)).tdiv 60 = -((t.tmod 3600).tdiv 60) := Int.neg_tdiv _ 60
    have hsign : 0 ≤ ((-t).tmod 3600).tdiv 60 :=
      Int.tdiv_nonneg (Int.tmod_nonneg 3600 (by omega)) (by decide)
    rw [hmod, hdiv] at hsign
    omega
  · rw [Int.tmod_eq_emod_of_nonneg hpos, Int.tdiv_eq_ediv_of_nonneg (by omega)] at h
    omega

theorem lt_of_late {t : Int} (h : 1800 ≤ t) (hhour : t < 3600) : 29 < minuteOfHour t := by
  unfold minuteOfHour
  rw [Int.tmod_eq_emod_of_nonneg (by omega), Int.tdiv_eq_ediv_of_nonneg (by omega)]
  omega

/-! ## The invariant

The time kept is that of the first loss of the outage, and half an hour has not passed since,
unless the session was stopped. `late` is where the spacing of the turns comes in: the minutes
from 30 on cannot be stepped over. -/

section Inv
variable {w : NetError} {log : List NetTurn} {r : NetReading}

/-- **What the flag and the time are.** -/
structure NetInv (w : NetError) (log : List NetTurn) : Prop where
  /-- The time is that of a loss. -/
  lost : w.chargingFlg = true →
    ∃ y ∈ outage log, y.lost = true ∧ y.reading.errortv = w.time
  /-- No loss of the outage was before it. -/
  first : ∀ y ∈ outage log, y.lost = true → w.chargingFlg = true ∧ w.time ≤ y.reading.errortv
  /-- Half an hour has not passed, or the session was stopped. -/
  late : w.chargingFlg = true → ∀ z, log.getLast? = some z → w.time ≤ z.reading.nowtv ∧
    (z.reading.nowtv < w.time + 1800 ∨ ∃ x ∈ outage log, x.stopped = true)

theorem netInv_start : NetInv .chargeOnEnter [] := by
  refine ⟨?_, ?_, ?_⟩
  · intro hflg
    cases hflg
  · intro y hy
    cases hy
  · intro hflg
    cases hflg

theorem outage_back {x : NetTurn} (h : x.back = true) : outage (log ++ [x]) = [] := since_mark h

theorem outage_concat {x : NetTurn} (h : x.back = false) :
    outage (log ++ [x]) = outage log ++ [x] := by
  unfold outage
  rw [since_concat, h]
  rfl

/-- Nothing is lost once both are back. -/
theorem netInv_back {x : NetTurn} (h : x.back = true) (hflg : w.chargingFlg = false) :
    NetInv w (log ++ [x]) := by
  refine ⟨?_, ?_, ?_⟩
  · intro hon
    rw [hflg] at hon
    cases hon
  · intro y hy
    rw [outage_back h] at hy
    cases hy
  · intro hon
    rw [hflg] at hon
    cases hon

/-- The first turn of an outage that finds the loss. -/
theorem netInv_lost {x : NetTurn} (h : NetInv w log) (hflg : w.chargingFlg = false)
    (hlost : x.lost = true) (hback : x.back = false)
    (htime : x.reading.errortv ≤ x.reading.nowtv ∧
      x.reading.nowtv < x.reading.errortv + 1800) :
    NetInv ⟨true, x.reading.errortv⟩ (log ++ [x]) := by
  refine ⟨?_, ?_, ?_⟩
  · intro _
    rw [outage_concat hback]
    exact ⟨x, List.mem_concat_self, hlost, rfl⟩
  · intro y hy hylost
    rw [outage_concat hback] at hy
    rcases List.mem_append.mp hy with hold | hnew
    · have hon := (h.first y hold hylost).1
      rw [hflg] at hon
      cases hon
    · rw [List.mem_singleton.mp hnew]
      exact ⟨rfl, le_refl _⟩
  · intro _ z hz
    rw [List.getLast?_concat, Option.some.injEq] at hz
    subst hz
    exact ⟨htime.1, .inl htime.2⟩

/-- A turn of an outage, or one that finds nothing. -/
theorem netInv_goes_on {x : NetTurn} (h : NetInv w log) (ht : Timely w log x.reading)
    (hback : x.back = false) (hflg : x.lost = true → w.chargingFlg = true)
    (hstop : x.stopped = w.stops x.reading.nowtv) : NetInv w (log ++ [x]) := by
  -- an outage that was noted has a last turn, and the clock has stood at its reading
  have hlast : w.chargingFlg = true → ∃ z, log.getLast? = some z ∧
      z.reading.nowtv ≤ x.reading.errortv ∧ x.reading.errortv ≤ x.reading.nowtv ∧
      x.reading.nowtv < z.reading.nowtv + 1800 := by
    intro hon
    obtain ⟨y, hy, -, -⟩ := h.lost hon
    cases hz : log.getLast? with
    | none =>
      rw [List.getLast?_eq_none_iff.mp hz] at hy
      cases hy
    | some z =>
      simp only [Timely, hz, Option.map_some, Option.getD_some] at ht
      exact ⟨z, rfl, ht⟩
  refine ⟨?_, ?_, ?_⟩
  · intro hon
    obtain ⟨y, hy, hylost, htime⟩ := h.lost hon
    rw [outage_concat hback]
    exact ⟨y, List.mem_append_left _ hy, hylost, htime⟩
  · intro y hy hylost
    rw [outage_concat hback] at hy
    rcases List.mem_append.mp hy with hold | hnew
    · exact h.first y hold hylost
    · rw [List.mem_singleton.mp hnew] at hylost ⊢
      have hon := hflg hylost
      obtain ⟨z, hz, hclock⟩ := hlast hon
      have hle := (h.late hon z hz).1
      exact ⟨hon, by omega⟩
  · intro hon u hu
    rw [List.getLast?_concat, Option.some.injEq] at hu
    subst hu
    obtain ⟨z, hz, hclock⟩ := hlast hon
    obtain ⟨hle, hlate⟩ := h.late hon z hz
    refine ⟨by omega, ?_⟩
    rw [outage_concat hback]
    rcases hlate with hsoon | ⟨y, hy, hystop⟩
    · rcases lt_or_ge x.reading.nowtv (w.time + 1800) with hin | hover
      · exact .inl hin
      · right
        have hminute : 29 < minuteOfHour (x.reading.nowtv - w.time) :=
          lt_of_late (by omega) (by omega)
        refine ⟨x, List.mem_concat_self, ?_⟩
        rw [hstop, NetError.stops, hon, Bool.true_and]
        exact decide_eq_true hminute
    · exact .inr ⟨y, List.mem_append_left _ hy, hystop⟩

/-- A turn keeps the invariant. -/
theorem netInv_step {w' : NetError} {o : List NetTurn} (h : NetInv w log) (ht : Timely w log r)
    (hstep : netStep w r = some (w', o)) : NetInv w' (log ++ o) := by
  obtain ⟨rfl, rfl⟩ := Prod.mk.inj (Option.some.inj hstep)
  have hclock : r.errortv ≤ r.nowtv ∧ r.nowtv < r.errortv + 1800 := by
    obtain ⟨hle, hnow, hnext⟩ := ht
    exact ⟨hnow, by omega⟩
  cases hnet : r.userAuthNet with
  | false =>
    have hw : w.watch r = w := by simp [NetError.watch, hnet]
    rw [hw]
    refine netInv_goes_on h ht ?_ ?_ rfl
    · simp [NetTurn.back, hnet]
    · intro hlost
      simp [NetTurn.lost, hnet] at hlost
  | true =>
    cases hcon : r.connected with
    | true =>
      refine netInv_back ?_ ?_
      · simp [NetTurn.back, hnet, hcon]
      · cases hflg : w.chargingFlg <;> simp [NetError.watch, hnet, hcon, hflg]
    | false =>
      cases hflg : w.chargingFlg with
      | false =>
        have hw : w.watch r = ⟨true, r.errortv⟩ := by simp [NetError.watch, hnet, hcon, hflg]
        rw [hw]
        refine netInv_lost (x := ⟨r, _⟩) h hflg ?_ ?_ hclock
        · simp [NetTurn.lost, hnet, hcon]
        · simp [NetTurn.back, hcon]
      | true =>
        have hw : w.watch r = w := by simp [NetError.watch, hnet, hcon, hflg]
        rw [hw]
        refine netInv_goes_on h ht ?_ ?_ rfl
        · simp [NetTurn.back, hcon]
        · intro _
          exact hflg

theorem stopped_late {x : NetTurn} (h : NetInv w (log ++ [x]))
    (hstop : x.stopped = w.stops x.reading.nowtv) : StoppedLate log x := by
  intro hstopped
  rw [hstop, NetError.stops, Bool.and_eq_true, decide_eq_true_eq] at hstopped
  obtain ⟨y, hy, hlost, htime⟩ := h.lost hstopped.1
  exact ⟨y, hy, hlost, htime ▸ late_of_lt hstopped.2⟩

end Inv

/-- **A session without its server is stopped after half an hour, and not before.** In every run of
the monitor whose clock does not go back and whose turns come within half an hour of each other: a
turn that stops the session for the server has a loss of the same outage at least half an hour
behind it, and once an outage has been seen for half an hour, one of its turns has stopped the
session. -/
theorem outage_stops {w : NetError} {log : List NetTurn}
    (h : Reach netStep Timely .chargeOnEnter w log) :
    Past StoppedLate log ∧
    ∀ y ∈ outage log, y.lost = true → ∀ z, log.getLast? = some z →
      1800 ≤ z.reading.nowtv - y.reading.errortv → ∃ x ∈ outage log, x.stopped = true := by
  have hinv : NetInv w log ∧ Past StoppedLate log := by
    refine h.invariant (I := fun w log => NetInv w log ∧ Past StoppedLate log)
      ⟨netInv_start, Past.nil⟩ ?_
    intro w log r w' o hI ht hstep
    have hnext := netInv_step hI.1 ht hstep
    obtain ⟨rfl, rfl⟩ := Prod.mk.inj (Option.some.inj hstep)
    exact ⟨hnext, past_concat.mpr ⟨hI.2, stopped_late hnext rfl⟩⟩
  refine ⟨hinv.2, ?_⟩
  intro y hy hlost z hz hlate
  obtain ⟨hon, hle⟩ := hinv.1.first y hy hlost
  rcases (hinv.1.late hon z hz).2 with hsoon | hstopped
  · omega
  · exact hstopped

/-- The server is lost at 100, and looked for twice more. -/
theorem outage_stops_lost : ∃ w log, Reach netStep Timely .chargeOnEnter w log ∧
    ∃ x ∈ outage log, x.stopped = true := by
  let lostAt : Int → NetReading := fun t => ⟨true, false, t, t⟩
  let first : NetTurn := ⟨lostAt 100, false⟩
  let last : NetTurn := ⟨lostAt 2500, true⟩
  have h₁ : Reach netStep Timely .chargeOnEnter ⟨true, 100⟩ [first] :=
    Reach.start.step (e := lostAt 100) (by simp [Timely, lostAt]) rfl
  have h₂ : Reach netStep Timely .chargeOnEnter ⟨true, 100⟩ [first, ⟨lostAt 1300, false⟩] :=
    h₁.step (e := lostAt 1300) (by simp [Timely, lostAt, first]) rfl
  have h₃ : Reach netStep Timely .chargeOnEnter ⟨true, 100⟩
      [first, ⟨lostAt 1300, false⟩, last] :=
    h₂.step (e := lostAt 2500) (by simp [Timely, lostAt]) rfl
  exact ⟨_, _, h₃, (outage_stops h₃).2 first List.mem_cons_self rfl last rfl (by decide)⟩

end ChargePoint
