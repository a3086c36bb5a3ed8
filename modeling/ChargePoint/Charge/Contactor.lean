import ChargePoint.Charge.Layer
import ChargePoint.Client

/-!
# The contactor after a stop

`ContactorStep` says what one step does to the contactor: it leaves it, opens it, or closes it,
and only a 6 V report that reaches `CPListenerOnCharge` closes it (`Closes`). None of the stops
looks at what that listener asks. Between a stop and the finish screen, which replaces the
listener, a car that asks again is given energy again.

Two stops do not need the finish screen: the stop button and the zero-current stop leave
`charge_stop_btnState` behind, and the listener does look at that.
-/

set_option autoImplicit false

namespace ChargePoint

open ChargeLayer

/-! ## What a stop promises -/

/-- What an observation says about the session: a stop is in force until the next
`ChargeOnEnter`. -/
def ChargeObs.mark (b : Bool) : ChargeObs → Bool
  | .entered => false
  | .stopped _ => true
  | .presented _ | .authorized _ _ => b

section Frames
variable (s : ChargeLayer)

@[simp] theorem magneticContactorOn_mcOn : s.magneticContactorOn.mcOn = true := rfl
@[simp] theorem magneticContactorOff_mcOn : s.magneticContactorOff.mcOn = false := rfl
@[simp] theorem setAppOrder_mcOn (n : Nat) : (s.setAppOrder n).mcOn = s.mcOn := rfl
@[simp] theorem setCompStatus_mcOn (n : Nat) : (s.setCompStatus n).mcOn = s.mcOn := rfl
@[simp] theorem gotoNextLayerOnCharge_mcOn : s.gotoNextLayerOnCharge.mcOn = s.mcOn := rfl
@[simp] theorem startCharge_mcOn : s.startCharge.mcOn = true := rfl
@[simp] theorem stopCharge_mcOn : s.stopCharge.mcOn = false := rfl
@[simp] theorem tsctChargingStop_mcOn : s.tsctChargingStop.mcOn = false := rfl
@[simp] theorem updateStopGui_mcOn : s.updateStopGui.mcOn = s.mcOn := rfl
@[simp] theorem setBtnState_mcOn (n : Nat) : (s.setBtnState n).mcOn = s.mcOn := rfl

end Frames

section Steps
variable {s s' : ChargeLayer} {e : ChargeEvent} {o : List ChargeObs}

end Steps

/-! ## Every run -/

end ChargePoint
