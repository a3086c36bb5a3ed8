import ChargePoint.Cmd.Conf
import ChargePoint.Lib.Trace

/-!
# The charging layer

The screen of a running session and the threads around it: the control-pilot thread with the
listener that is installed, the emergency button, the order-sequence thread, the card reader
and the part of the monitoring thread that ends a session for a card.

A function of the source is one step. What the threads share with the OCPP client is in `cp`,
and the client writes it between any two steps (`shared`). `ituLayerGoto` only asks for the
next screen: when `ChargeOnLeave` and `Ch2FinishOnEnter` run is left open.

Of the monitoring thread only the card part is modelled by its test; every other reason it has
to stop is the event `chargingStop`.
-/

set_option autoImplicit false

namespace ChargePoint

open CStr

/-! ## Codes -/

/-- `CPVoltage`, the values `GetVoltage` returns. -/
inductive CpVoltage
  | unknown | v12 | v9 | v6
  deriving DecidableEq, Repr

/-- The control-pilot listener. Those of the other screens do not touch the contactor. -/
inductive CpListener
  | other | onCharge | onFinish
  deriving DecidableEq, Repr

def appOrderPaymentMethod : Nat := 9
def appOrderChargeInput : Nat := 10
def appOrderChargeReady : Nat := 11
def appOrderCharging : Nat := 12
def appOrderChargingStop : Nat := 13
def appOrderChargeEnd : Nat := 14
def appOrderFinish : Nat := 18

def endEmg : Nat := 3
def endCar : Nat := 7

def stopReasonNone : Nat := 0
def stopReasonDeauth : Nat := 7

/-! ## The state -/

structure ChargeLayer where
  cp : Charger
  /-- `MCOn`, and with it the contactor -/
  mcOn : Bool
  sCh1CpListener : CpListener
  sCh1OldVoltage : CpVoltage
  sCh1CpMonRun : Bool
  sCharging : Bool
  startTimeCheck : Bool
  bLayerChargeFlg : Bool
  chargecompStop : Bool
  stime : Nat
  /-- `charge_stop_btnState`, by `bDevChannel` -/
  chargeStopBtnState : Bool → Nat
  sleepOn1chCheck : Bool
  emgControl : Bool
  emgCount : Nat
  oldPressed : Bool
  bGloAdminStatus : Bool
  /-- `PId_no2[21]` -/
  pIdNo2 : List Char
  /-- `theConfig.ConfirmSelect == USER_AUTH_NET` -/
  userAuthNet : Bool
  /-- The idTag of the Authorize that is waited for. -/
  authInFlight : Option (List Char)

/-- How a session is stopped. -/
inductive StopPath
  | card | request | stopCharge | emergency
  deriving DecidableEq, Repr

/-- What an outsider sees of the layer. -/
inductive ChargeObs
  /-- `ChargeOnEnter` -/
  | entered
  /-- `TSCT_ChargingStop`, `StopCharge` or an emergency press -/
  | stopped (path : StopPath)
  /-- a card was presented -/
  | presented (data : List Char)
  /-- the Authorize for this idTag was answered -/
  | authorized (idTag : List Char) (rx : RxBuf)

namespace ChargeLayer
variable (s : ChargeLayer)

def magneticContactorOn : ChargeLayer := { s with mcOn := true }

def magneticContactorOff : ChargeLayer := { s with mcOn := false }

/-- `shmDataAppInfo.app_order = n` -/
def setAppOrder (n : Nat) : ChargeLayer :=
  { s with cp := { s.cp with scene := { s.cp.scene with appOrder := n } } }

/-- `shmDataAppInfo.charge_comp_status = n` -/
def setCompStatus (n : Nat) : ChargeLayer :=
  { s with cp := { s.cp with scene := { s.cp.scene with chargeCompStatus := n } } }

def setChCharging (b : Bool) : ChargeLayer :=
  { s with cp := { s.cp with scene := { s.cp.scene with sChCharging := b } } }

/-- `SetCpStatus(code, bDevChannel+1)`. -/
def setDevStatus (code : CpStatus) : Option ChargeLayer :=
  s.cp.devConn.map fun i => { s with cp := s.cp.setCpStatus code i }

/-- `charge_stop_btnState[bDevChannel]` -/
def btnState : Nat := s.chargeStopBtnState s.cp.bDevChannel

def setBtnState (n : Nat) : ChargeLayer :=
  { s with chargeStopBtnState := fun b =>
      if b = s.cp.bDevChannel then n else s.chargeStopBtnState b }

/-- `GotoNextLayerOnCharge`: the finish screen is asked for, once. -/
def gotoNextLayerOnCharge : ChargeLayer := { s with bLayerChargeFlg := false }

/-- `ControlPilotSetListener`. -/
def controlPilotSetListener (listener : CpListener) : ChargeLayer :=
  { s with sCh1CpListener := listener, sCh1OldVoltage := .unknown }

/-! ## Starting and stopping -/

/-- **`TSCT_ChargingStop`.** Neither `sCharging` nor the listener is touched. -/
def tsctChargingStop : ChargeLayer :=
  (((s.setChCharging false).magneticContactorOff).setAppOrder
    appOrderChargingStop).gotoNextLayerOnCharge

/-- `StartCharge`. -/
def startCharge : ChargeLayer := { s.magneticContactorOn with sCharging := true }

/-- **`StopCharge`.** -/
def stopCharge : ChargeLayer := { s.magneticContactorOff with sCharging := false }

/-- `UpdateStopGui`. -/
def updateStopGui : ChargeLayer := s.gotoNextLayerOnCharge

/-- `StartStopCharging(1, ch)`: the time at which the car asked to stop. -/
def startStopCharging (now : Nat) : ChargeLayer := { s with stime := now }

/-- `ChargeStopOnDialog`. -/
def chargeStopOnDialog : ChargeLayer × List ChargeObs :=
  if s.sCharging then
    (((((s.setBtnState 1).setAppOrder appOrderChargingStop).stopCharge).setCompStatus
      endBtn).updateStopGui, [.stopped .stopCharge])
  else (s.updateStopGui, [])

/-- `CheckCurrentIsZero`, once the current has been zero for 15 minutes. -/
def checkCurrentIsZero : ChargeLayer × List ChargeObs :=
  if s.cp.scene.appOrder = appOrderCharging ∧ s.mcOn = true then
    (((((s.setBtnState 2).stopCharge).updateStopGui).setAppOrder
      appOrderChargingStop).setCompStatus endErr, [.stopped .stopCharge])
  else (s, [])

/-! ## The control pilot -/

/-- `CPListenerOnCharge` at 12 V: the cable is out. -/
def cpUnplugged (now : Nat) : Option (ChargeLayer × List ChargeObs) :=
  if (s.cp.cfgKey 13).cfgKeyDataInt ≠ 0 then
    let s := { s with chargecompStop := false }
    some (((((s.setAppOrder appOrderChargingStop).setCompStatus
      endUnplug).stopCharge).updateStopGui), [.stopped .stopCharge])
  else if s.mcOn then
    (({ s.magneticContactorOff.startStopCharging now with
      chargecompStop := true } : ChargeLayer).setDevStatus .suspendedEv).map fun s =>
        (s.gotoNextLayerOnCharge, [])
  else some (s.gotoNextLayerOnCharge, [])

/-- `CPListenerOnCharge` at 6 V: the car asks for energy. -/
def cpRequested : Option ChargeLayer :=
  if s.cp.cs.bReqRmtStopTsFlg then some s
  else if !s.sCharging ∧ s.btnState = 0 then
    let started : Option ChargeLayer :=
      if s.startTimeCheck then
        ({ s with startTimeCheck := false } : ChargeLayer).setDevStatus .charging
      else some s
    started.map fun s => (s.setAppOrder appOrderCharging).startCharge
  else if !s.mcOn ∧ s.btnState = 0 then
    some { s.magneticContactorOn with chargecompStop := false, stime := 0 }
  else some s

/-- **`CPListenerOnCharge`.** -/
def cpListenerOnCharge (voltage : CpVoltage) (now : Nat) :
    Option (ChargeLayer × List ChargeObs) :=
  if s.emgControl then some (s, [])
  else
    match voltage with
    | .unknown => some ({ s with chargecompStop := false }, [])
    | .v12 => s.cpUnplugged now
    | .v9 =>
      if s.sCharging ∧ s.mcOn = true then
        some ({ s.magneticContactorOff.startStopCharging now with chargecompStop := true }, [])
      else some (s, [])
    | .v6 => s.cpRequested.map fun s => (s, [])

/-- An iteration of `Ch1CPMonitoringTask`: only a change is reported. -/
def ch1CpMonitoring (voltage : CpVoltage) (now : Nat) : Option (ChargeLayer × List ChargeObs) :=
  if s.sCh1CpMonRun ∧ voltage ≠ s.sCh1OldVoltage then
    let s := { s with sCh1OldVoltage := voltage }
    match s.sCh1CpListener with
    | .onCharge => s.cpListenerOnCharge voltage now
    | .other | .onFinish => some (s, [])
  else some (s, [])

/-! ## Emergency, the order sequence -/

/-- What the emergency press makes of `app_order`. -/
def emgAppOrder (n : Nat) : Nat :=
  if appOrderChargeInput ≤ n ∧ n ≤ appOrderChargingStop then appOrderChargeEnd
  else if appOrderWait ≤ n ∧ n ≤ appOrderPaymentMethod then appOrderWait
  else if n = appOrderFinish then appOrderWait
  else n

/-- **`EMBListenerOnCharge12`.** The first twenty calls do nothing, and a press counts once. -/
def embListenerOnCharge12 (pressed : Bool) : ChargeLayer × List ChargeObs :=
  if s.bGloAdminStatus then (s, [])
  else
    let count := s.emgCount
    let s := { s with emgCount := count + 1 }
    if count < 20 then (s, [])
    else if pressed = s.oldPressed then
      if pressed then
        let s := { s with emgControl := true }.setCompStatus endEmg
        let s := (s.setChCharging false).magneticContactorOff
        ({ s.setAppOrder (emgAppOrder s.cp.scene.appOrder) with oldPressed := false },
          [.stopped .emergency])
      else ({ s with emgControl := false, oldPressed := true }, [])
    else (s, [])

/-- An iteration of `sOrderSequenceMonitoringTaskFuntion`: a minute after the car asked to stop,
the session is stopped. -/
def orderSequenceMonitoring (now : Nat) : ChargeLayer × List ChargeObs :=
  if s.chargecompStop ∧ 59 < now - s.stime then
    let s := ((s.setAppOrder appOrderChargingStop).stopCharge).updateStopGui
    ({ s.setCompStatus endCar with chargecompStop := false }, [.stopped .stopCharge])
  else (s, [])

/-! ## Cards -/

/-- `memcmp(a, b, n) == 0` on buffers that are zero behind what a list holds. -/
def memEq (a b : List Char) (n : Nat) : Bool :=
  (List.range n).all fun i => a.getD i nul = b.getD i nul

/-- **`CardReaderListenerOnCharging`.** A card of 21 bytes has its terminator written to
`parentId[0]`, which follows `scnd_card_no`. -/
def cardReaderListenerOnCharging (data : List Char) : ChargeLayer × List ChargeObs :=
  if s.userAuthNet then
    if 21 < data.length then (s, [.presented data])
    else
      let cs := s.cp.cs
      let cs := { cs with scndCardNo := data ++ nul :: cs.scndCardNo.drop (data.length + 1) }
      let cs := if data.length = 21 then { cs with parentId := nul :: cs.parentId.tail } else cs
      let s := { s with cp := { s.cp with cs := cs } }
      if memEq s.cp.scene.cardNo data data.length then
        ((s.setCompStatus endCard).tsctChargingStop, [.presented data, .stopped .card])
      else if s.pIdNo2.headD nul ≠ nul then
        ({ s with cp := { s.cp with cs := { s.cp.cs with bReqAuthNo := 2 } } }, [.presented data])
      else (s, [.presented data])
  else (s, [.presented data])

/-- The card part of an iteration of `sChargeMonitoringTaskFuntion`. -/
def monitorCard : ChargeLayer × List ChargeObs :=
  if s.cp.cs.bReqAuthNo = 0 ∧ memEq s.pIdNo2 s.cp.cs.parentId 21 = true ∧
      s.pIdNo2.headD nul ≠ nul then
    let card := s.cp.cs.scndCardNo.take 21
    let s := { s with cp := { s.cp with
      scene := { s.cp.scene with cardNo := card }
      stopTsConfig := { s.cp.stopTsConfig with idTag := card } } }
    (s.tsctChargingStop, [.stopped .card])
  else (s, [])

/-- The client sends the Authorize that is asked for: the card of the session, or the second
one. -/
def authReq : ChargeLayer :=
  if s.cp.cs.bReqAuthNo ≠ 0 then
    { s with authInFlight := some (if s.cp.cs.bReqAuthNo = 2 then (cstr s.cp.cs.scndCardNo).take 21
      else idTag16 s.cp.scene.cardNo) }
  else s

/-- Its answer. -/
def authConf (rx : RxBuf) : Option (ChargeLayer × List ChargeObs) :=
  match s.authInFlight with
  | none => some (s, [])
  | some idTag => (dataProcCmdAuth rx s.cp).map fun c =>
      ({ s with cp := c, authInFlight := none }, [.authorized idTag rx])

/-! ## The screens -/

/-- What `StopTsConfig` is filled with on the way in and on the way out. -/
def fillStopTsConfig (c : Charger) (tm : Tm) : StopTs :=
  { c.stopTsConfig with
      timeStamp := getDateTime tm, meterStopVal := c.scene.eqpWatt, idTag := idTag16 c.scene.cardNo }

/-- **`ChargeOnEnter`.** The parent id of the session is kept in `PId_no2`, and the one an
Authorize answer writes is cleared. The read of `bTrId[bDevChannel+1]` is the only thing that can
be out of its array. -/
def chargeOnEnter (tm : Tm) : Option ChargeLayer :=
  s.cp.devConn.map fun _ =>
    let stop := fillStopTsConfig s.cp tm
    let c : Charger := { s.cp with
      chargingStatus := s.cp.chargingStatus ||| 4
      stopTsConfig := { stop with stopReason := stopReasonPower }
      scene := { s.cp.scene with sChCharging := true, appOrder := appOrderChargeReady }
      cs := { s.cp.cs with scndCardNo := [], parentId := [] } }
    let s := ({ s with cp := c, stime := 0, bLayerChargeFlg := true, startTimeCheck := true,
                       sCharging := false, pIdNo2 := s.cp.cs.parentId } : ChargeLayer).setBtnState 0
    let s := s.controlPilotSetListener .onCharge
    if s.emgControl then s.updateStopGui else s

/-- **`ChargeOnLeave`.** The listener stays. -/
def chargeOnLeave (tm : Tm) : Option (ChargeLayer × List ChargeObs) :=
  s.cp.devConn.map fun _ =>
    let c : Charger := { s.cp with
      stopTsConfig := fillStopTsConfig s.cp tm
      scene := { s.cp.scene with sChCharging := false }
      cs := { s.cp.cs with bReqAuthNo := 0 } }
    let s : ChargeLayer := { s with cp := c, chargecompStop := false }
    let r : ChargeLayer × List ChargeObs :=
      if s.sleepOn1chCheck then (s, []) else (s.stopCharge, [.stopped .stopCharge])
    (if r.1.emgControl then { r.1 with sCharging := false } else r.1, r.2)

/-- **`Ch2FinishOnEnter`**: the listener is replaced. -/
def ch2FinishOnEnter : ChargeLayer :=
  let reason := if s.cp.startTsQ.faultChargFlg ∧ (s.cp.cfgKey 14).cfgKeyDataInt ≠ 0 then
    stopReasonDeauth else stopReasonNone
  let c : Charger := { s.cp with
    stopTsConfig := { s.cp.stopTsConfig with stopReason := reason }
    cs := { s.cp.cs with bReqStopTsFlg := true } }
  (({ s with cp := c } : ChargeLayer).setAppOrder appOrderChargingStop).controlPilotSetListener
    .onFinish

/-- `Ch2FinishOnLeave`. -/
def ch2FinishOnLeave : ChargeLayer :=
  { s with cp := { s.cp with cs := { s.cp.cs with bReqRmtStopTsFlg := false } } }

end ChargeLayer

/-! ## Runs -/

inductive ChargeEvent
  | enter (tm : Tm)
  | leave (tm : Tm)
  | finishEnter
  | finishLeave
  | pilot (voltage : CpVoltage) (now : Nat)
  | emergency (pressed : Bool)
  | orderSequence (now : Nat)
  /-- `TSCT_ChargingStop`, called from any thread -/
  | chargingStop
  /-- `StopCharge`, called from any thread -/
  | stopCharge
  | stopButton
  | zeroCurrent
  | card (data : List Char)
  | monitor
  | authReq
  | authConf (rx : RxBuf)
  /-- the listener of another screen -/
  | otherListener
  /-- `ControlPilotEnablePower`, `ControlPilotDisablePower` -/
  | cpPower (b : Bool)
  /-- `bGloAdminStatus` -/
  | admin (b : Bool)
  /-- any write of another thread to what is shared -/
  | shared (c : Charger)

/-- **One step of the layer.** -/
def chargeStep (s : ChargeLayer) : ChargeEvent → Option (ChargeLayer × List ChargeObs)
  | .enter tm => (s.chargeOnEnter tm).map fun s => (s, [.entered])
  | .leave tm => s.chargeOnLeave tm
  | .finishEnter => some (s.ch2FinishOnEnter, [])
  | .finishLeave => some (s.ch2FinishOnLeave, [])
  | .pilot voltage now => s.ch1CpMonitoring voltage now
  | .emergency pressed => some (s.embListenerOnCharge12 pressed)
  | .orderSequence now => some (s.orderSequenceMonitoring now)
  | .chargingStop => some (s.tsctChargingStop, [.stopped .request])
  | .stopCharge => some (s.stopCharge, [.stopped .stopCharge])
  | .stopButton => some s.chargeStopOnDialog
  | .zeroCurrent => some s.checkCurrentIsZero
  | .card data => some (s.cardReaderListenerOnCharging data)
  | .monitor => some s.monitorCard
  | .authReq => some (s.authReq, [])
  | .authConf rx => s.authConf rx
  | .otherListener => some (s.controlPilotSetListener .other, [])
  | .cpPower b => some ({ s with sCh1CpMonRun := b }, [])
  | .admin b => some ({ s with bGloAdminStatus := b }, [])
  | .shared c => some ({ s with cp := c }, [])

/-- The layer when the program starts, around any charger. -/
def ChargeLayer.init (c : Charger) : ChargeLayer where
  cp := c
  mcOn := false
  sCh1CpListener := .other
  sCh1OldVoltage := .unknown
  sCh1CpMonRun := false
  sCharging := false
  startTimeCheck := false
  bLayerChargeFlg := false
  chargecompStop := false
  stime := 0
  chargeStopBtnState := fun _ => 0
  sleepOn1chCheck := false
  emgControl := false
  emgCount := 0
  oldPressed := false
  bGloAdminStatus := false
  pIdNo2 := []
  userAuthNet := true
  authInFlight := none

/-- A run of the layer from a state, every step of which meets `ok`. -/
abbrev ChargeRun (ok : ChargeLayer → List ChargeObs → ChargeEvent → Prop) :
    ChargeLayer → ChargeLayer → List ChargeObs → Prop :=
  Trace.Reach chargeStep ok

end ChargePoint
