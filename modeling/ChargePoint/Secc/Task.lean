import ChargePoint.Secc.Vas

/-!
# The two threads of the SECC

`SeccRS232ReqTask` sends one request and waits for the response: up to ten ticks, after which the
next turn sends what is due then. What is due is decided by `InitSecc` until the initialisation is
done, and by `SeccSenario` from then on. `SeccRS232ReadTask` takes the responses.

The threads share the requests, the step and one flag: `SendChkFlg` is set when a step is entered
that waits for its write, and whatever acknowledgement `ValidSecc` accepts clears it.

A turn of the requesting thread is one event, but for `SendChrgPrm`, which sleeps for a second
before it builds its request: the thread is then `asleep` until it wakes. A turn of the reading
thread is one event as well. In the source nothing locks the two, and between the assignments of
one turn the other may run: `ReadRs232` clears `PlcRespWaitCnt` before `ParsRxData` reads the last
request.
-/

set_option autoImplicit false

namespace ChargePoint

/-! ## The data

The steps and the numbers are the source's. `SeccTask` is what both threads see and what the
requesting one keeps between its turns. A turn comes to what `ret_8` says, which decides what is
written to the line, the state, and what is seen. -/

/-- `SECC_INIT_STEP`. -/
inductive SeccInitStep
  | none | csmr | evser | chrgprm | chrgtype | payopt | init | csmstat | csmerr | pwmduty | pwmvolt
  | vasreq | vasreadreq | vaschk | done
  deriving DecidableEq

/-- `SECC_CHRG_STEP`. -/
inductive SeccChrgStep
  | none | reqid | chkid | start | handsh | authchk | prmchk | charging
  deriving DecidableEq

/-- `CSM_STAT`. -/
def csmStatNone : UInt16 := 0
def csmStatWaitHandshake : UInt16 := 2
def csmStatSessionReady : UInt16 := 3
def csmStatAuthCheck : UInt16 := 4
def csmStatChargPrmChk : UInt16 := 5
def csmStatChrg : UInt16 := 8
def csmStatStopChrg : UInt16 := 9
def csmStatNarmalStop : UInt16 := 11

/-- The bits of `status_fault`, from `SECC_STATUS_FAULT`. -/
def seccStatEvseReady : UInt16 := 1
def seccStatCharg : UInt16 := (1 : UInt16) <<< 1
def seccStatStop : UInt16 := (1 : UInt16) <<< 2
def seccStatAuthFin : UInt16 := (1 : UInt16) <<< 5
def seccStatChrgPrmFin : UInt16 := (1 : UInt16) <<< 6

/-- `SECC_WRITE_DATA`, the members that are written to the SECC. -/
structure SeccWriteData where
  statusFault : UInt16
  payment : UInt16
  maxCurr : UInt16
  normVolt : UInt16
  normFreq : UInt16
  maxPower : UInt16

/-- What the two threads share, and what the requesting one keeps. -/
structure SeccTask where
  secc : Secc
  data : SeccData
  /-- `SeccTxData` -/
  txData : SeccWriteData
  initStep : SeccInitStep
  chrgStep : SeccChrgStep
  sendChkFlg : Bool
  plcRespWaitCnt : UInt16
  rebootCnt : Nat
  bPlcConn : Bool
  evccIdFlg : Bool
  /-- `StrModelName` is `TSCT-2007CO` -/
  modelCO : Bool
  prcCnt : UInt8
  chargeCnt : UInt8
  seccReqStep : UInt8
  /-- in the `sleep` of `SendChrgPrm` -/
  asleep : Bool

/-- What `ret_8` says; `asleep` if there is no value yet. -/
inductive SeccRet
  | none | read | write | asleep
  deriving DecidableEq

inductive SeccTaskObs
  /-- `SeccInitStep` was set -/
  | entered (step : SeccInitStep)
  /-- a request was written to the line -/
  | sentRead (addr n : UInt16)
  | sent (addr : UInt16)
  /-- a write was acknowledged: `ValidSecc` found it to match the last request -/
  | acked (addr : UInt16)
  deriving DecidableEq

/-- What a turn comes to. -/
structure SeccTurn where
  ret : SeccRet
  task : SeccTask
  obs : List SeccTaskObs

namespace SeccTask
variable (s : SeccTask)

/-! ## Requests -/

def idle : Option SeccTurn := some ⟨.none, s, []⟩

def enter (step : SeccInitStep) : SeccTask := { s with initStep := step }

/-- `MakeReadTx`. -/
def readTx (addr16 addrLen16 : UInt16) : Option SeccTurn :=
  some ⟨.read, { s with secc := { s.secc with readTx := makeReadTx addr16 addrLen16 } }, []⟩

/-- `Data16[0]` and the following ones, as they go out. -/
def setData (ws : List UInt16) : SeccTask :=
  let data16 := (ws.map led2Bed16).flatMap bytes16 ++ s.secc.writeTx.data16.drop (2 * ws.length)
  { s with secc := { s.secc with writeTx := { s.secc.writeTx with data16 := data16 } } }

/-- `MakeWriteTx`. -/
def writeTx (addr16 addrLen16 : UInt16) : Option SeccTurn :=
  (makeWriteTx s.secc.writeTx addr16 addrLen16).map fun tx =>
    ⟨.write, { s with secc := { s.secc with writeTx := tx } }, []⟩

/-- `ReadVasData`. -/
def readVasData : Option SeccTurn := s.readTx s.data.readVasData.1 s.data.readVasData.2

/-- `ChkVasData`. -/
def chkVasData : Option SeccTurn := s.readTx 32001 10

/-- `ChckSeccStat`. -/
def chckSeccStat : Option SeccTurn := s.readTx 30002 6

/-- `ChckSeccSoC`. -/
def chckSeccSoC : Option SeccTurn := s.readTx 30040 1

/-- `SendChrgReady`. -/
def sendChrgReady : Option SeccTurn := (s.setData [s.txData.statusFault]).writeTx 40001 1

/-- `SendChrgPrm`, up to its `sleep`. -/
def sendChrgPrm : Option SeccTurn :=
  some ⟨.asleep, { s.setData [s.txData.maxCurr, s.txData.normVolt, s.txData.normFreq,
    s.txData.maxPower] with asleep := true }, []⟩

/-- A step that waits for its write: it sends it as long as the flag is set, and then goes on. -/
def awaitWrite (send : Option SeccTurn) (next : SeccInitStep) (flag : Bool) : Option SeccTurn :=
  if s.sendChkFlg then send
  else some ⟨.none, { s.enter next with sendChkFlg := flag }, [.entered next]⟩

/-! ## `InitSecc`

A step asks for something, or sends something, until it has its answer, and the next turn enters
another step; `vasreadreq` does both at once. `awaitWrite` is the form that six of the steps
have. -/

/-- **`InitSecc`**. -/
def initSecc : Option SeccTurn :=
  match s.initStep with
  | .none =>
    if s.data.rx.ready = 0 then s.readTx 30001 1
    else some ⟨.none, { s.enter .csmr with sendChkFlg := true }, [.entered .csmr]⟩
  | .csmr => s.awaitWrite s.sendChrgReady .evser true
  | .evser => s.awaitWrite s.sendChrgPrm .chrgprm true
  | .chrgprm => s.awaitWrite ((s.setData [192]).writeTx 40006 1) .chrgtype true
  | .chrgtype => s.awaitWrite ((s.setData [s.txData.payment]).writeTx 40007 1) .init false
  | .payopt => s.awaitWrite s.sendChrgReady .init false
  | .init =>
    if s.data.rx.stcode = csmStatNone ∨ s.data.rx.seccErrcode ≠ 0 then s.readTx 30002 6
    else some ⟨.none, { s.enter .vasreq with sendChkFlg := true }, [.entered .vasreq]⟩
  | .vasreq => s.awaitWrite ((s.setData [1]).writeTx 40009 1) .vasreadreq false
  | .vasreadreq =>
    ((s.enter .vaschk).readTx 32002 1).map fun t => { t with obs := [.entered .vaschk] }
  | .vaschk =>
    if s.data.rx.vasEnable = 0 then some ⟨.none, s.enter .vasreq, [.entered .vasreq]⟩
    else some ⟨.none, { s.enter .done with bPlcConn := true }, [.entered .done]⟩
  | .csmstat | .csmerr | .pwmduty | .pwmvolt | .done => s.idle

/-! ## `SeccSenario` -/

/-- A bit of `status_fault` is set. -/
def fault (bit : UInt16) : Bool := s.txData.statusFault &&& bit ≠ 0

def setFault (statusFault : UInt16) : SeccTask :=
  { s with txData := { s.txData with statusFault := statusFault } }

/-- The vehicle has stopped: charging is over. -/
def stopped : Bool := csmStatStopChrg ≤ s.data.rx.stcode ∧ s.data.rx.stcode ≤ csmStatNarmalStop

/-- `SECC_STAT_CHARG` off, `SECC_STAT_STOP` on. -/
def stopFault : SeccTask :=
  s.setFault ((s.txData.statusFault &&& ~~~seccStatCharg) ||| seccStatStop)

/-- `case SECC_CHRG_STEP_HANDSH`. -/
def handsh : Option SeccTurn :=
  let stcode := s.data.rx.stcode
  if stcode = csmStatChrg then
    if 50 ≤ s.data.rx.pwmvoltage ∧ s.data.rx.pwmvoltage ≤ 70 then
      idle { s with chrgStep := if s.modelCO then .reqid else .charging }
    else s.idle
  else if stcode = csmStatAuthCheck then
    chckSeccStat { s with chrgStep := .authchk, sendChkFlg := true }
  else if stcode = csmStatChargPrmChk then
    chckSeccStat { s with chrgStep := .prmchk, sendChkFlg := true }
  else if stcode = csmStatWaitHandshake ∨ stcode = csmStatSessionReady then s.chckSeccStat
  else if stcode < csmStatWaitHandshake then
    chckSeccStat { s with chrgStep := .start, sendChkFlg := true }
  else if s.stopped then chckSeccStat { s.stopFault with chrgStep := .none }
  else s.chckSeccStat

/-- `case SECC_CHRG_STEP_CHARGING`. -/
def charging : Option SeccTurn :=
  if csmStatStopChrg ≤ s.data.rx.stcode then idle { s with data := { s.data with vasReadCd := 0 } }
  else
    let s := { s with chargeCnt := if 20 < s.chargeCnt then 0 else s.chargeCnt + 1 }
    if s.data.vasReadCd ≠ 0 then s.readVasData
    else if s.chargeCnt % 10 = 0 then s.chkVasData
    else if s.chargeCnt % 10 = 2 then s.sendChrgPrm
    else if s.chargeCnt % 10 = 4 then s.chckSeccSoC
    else s.chckSeccStat

/-- The switch of `ChrgSecc`. Two of its steps build the request of `SendChrgReady` by hand. -/
def chrgSwitch : Option SeccTurn :=
  match s.chrgStep with
  | .none =>
    idle { s.setFault (s.txData.statusFault ||| seccStatAuthFin ||| seccStatChrgPrmFin) with
      prcCnt := 0, chrgStep := .start, sendChkFlg := true }
  | .reqid => readTx { s with prcCnt := s.prcCnt + 1, chrgStep := .chkid } 30061 10
  | .chkid =>
    if s.evccIdFlg ∨ 20 < s.prcCnt then idle { s with chrgStep := .charging }
    else idle { s with chrgStep := .reqid }
  | .start => if s.sendChkFlg then s.sendChrgReady else idle { s with chrgStep := .handsh }
  | .handsh => s.handsh
  | .authchk =>
    let s := s.setFault (s.txData.statusFault ||| seccStatAuthFin)
    if s.sendChkFlg then s.sendChrgReady else idle { s with chrgStep := .handsh }
  | .prmchk =>
    let s := s.setFault (s.txData.statusFault ||| seccStatChrgPrmFin)
    if s.sendChkFlg then s.sendChrgReady else idle { s with chrgStep := .handsh }
  | .charging => s.charging

/-- `SeccChrgStep > SECC_CHRG_STEP_START`. -/
def pastStart : Bool :=
  match s.chrgStep with
  | .none | .reqid | .chkid | .start => false
  | .handsh | .authchk | .prmchk | .charging => true

/-- **`ChrgSecc`**. -/
def chrgSecc : Option SeccTurn :=
  if s.stopped then chckSeccStat { s.stopFault with chrgStep := .none }
  else if s.pastStart ∧ s.fault seccStatStop then s.sendChrgReady
  else if s.fault seccStatCharg then s.chrgSwitch
  else idle { s with chrgStep := .none }

/-- The rest of `SeccSenario`, when there is nothing to initialise. -/
def chrgSenario : Option SeccTurn :=
  if s.fault seccStatCharg then
    s.chrgSecc.bind fun t => if t.ret = .none then t.task.chckSeccStat else some t
  else chckSeccStat { s with chrgStep := .none }

/-- **`SeccSenario`**: a SECC that has lost its state is initialised again. -/
def seccSenario : Option SeccTurn :=
  if s.data.rx.stcode = csmStatNone ∧ s.initStep = .done then
    (s.stopFault.enter .none).initSecc.map fun t => { t with obs := .entered .none :: t.obs }
  else if s.initStep ≠ .done then s.initSecc
  else s.chrgSenario

/-! ## The requesting thread

Until the initialisation is done only `InitSecc` is asked. From then on `SendChrgReady` and
`SeccSenario` take turns. -/

/-- What is due. -/
def due : Option SeccTurn :=
  if s.initStep ≠ .done then s.initSecc
  else
    let step := if 2 < s.seccReqStep + 1 then 0 else s.seccReqStep + 1
    if step = 1 then sendChrgReady { s with seccReqStep := step }
    else if step = 2 then seccSenario { s with seccReqStep := 0 }
    else chckSeccStat { s with seccReqStep := step }

/-- The end of the loop: after ten requests without a response the SECC is switched off and on, and
its line read by a new thread, whose buffer holds `junk`. -/
def reboot (junk : ParsBuf) : SeccTask × List SeccTaskObs :=
  if s.rebootCnt < 10 then (s, [])
  else ({ s.enter .none with
      rebootCnt := 0, bPlcConn := false, secc := { s.secc with src := junk } }, [.entered .none])

/-- The request is written to the line. -/
def send (t : SeccTurn) (junk : ParsBuf) : SeccTask × List SeccTaskObs :=
  match t.ret with
  | .asleep => (t.task, t.obs)
  | .none => ((t.task.reboot junk).1, t.obs ++ (t.task.reboot junk).2)
  | .read =>
    let r := reboot { t.task with plcRespWaitCnt := 1 } junk
    (r.1, t.obs ++ .sentRead (led2Bed16 t.task.secc.readTx.reqAddr)
      (led2Bed16 t.task.secc.readTx.reqAddrLen) :: r.2)
  | .write =>
    let r := reboot { t.task with plcRespWaitCnt := 1 } junk
    (r.1, t.obs ++ .sent (led2Bed16 t.task.secc.writeTx.reqAddr) :: r.2)

/-- The wait for a response, which ends after ten ticks. -/
def await : SeccTask :=
  if 10 < s.plcRespWaitCnt + 1 then
    { s with data := { s.data with vasReadCd := 0 }, bPlcConn := false,
             rebootCnt := s.rebootCnt + 1, plcRespWaitCnt := 0 }
  else { s with plcRespWaitCnt := s.plcRespWaitCnt + 1 }

/-! ## The reading thread

An accepted response to read is taken apart; an accepted acknowledgement clears `SendChkFlg`,
whichever write it is for. What is not accepted changes only what `ValidSecc` keeps. -/

/-- The response is in `pars_buf`. -/
def takeRead : Option SeccTask :=
  let bytes := (s.secc.src.bytes.drop 3).take s.secc.dataLen
  if h : 0 + bytes.length ≤ 1024 then
    (s.data.parsRxData (led2Bed16 s.secc.readTx.reqAddr) ((Bytes.zero 1024).put 0 bytes h)
      (UInt8.ofNat s.secc.dataLen)).map fun data => { s with data := data }
  else none

/-- **A chunk is read** by `SeccRS232ReadTask`. -/
def read (chunk : List UInt8) : Option (SeccTask × List SeccTaskObs) :=
  (s.secc.validSecc chunk).bind fun r =>
    let s := { s with secc := r.2 }
    if r.1.1 then
      let s := { s with rebootCnt := 0, plcRespWaitCnt := 0 }
      if s.secc.src.byte 1 = fcRead then s.takeRead.map fun s => (s, [])
      else if s.secc.src.byte 1 = fcWrite then
        some ({ s with sendChkFlg := false }, [.acked (led2Bed16 s.secc.writeTx.reqAddr)])
      else some (s, [])
    else some (s, [])

end SeccTask

/-! ## Runs -/

inductive SeccTaskEvent
  /-- a turn of the requesting thread -/
  | tick (junk : ParsBuf)
  /-- `SendChrgPrm` goes on -/
  | wake (junk : ParsBuf)
  /-- a chunk comes in -/
  | chunk (bytes : List UInt8)
  /-- `CardWaitOnEnter` starts the initialisation again -/
  | cardWait
  /-- another part changes what the SECC is told, or has found the vehicle's address -/
  | setTx (txData : SeccWriteData)
  | setEvcc (evccIdFlg : Bool)

/-- **One step of the two threads.** -/
def seccTaskStep (s : SeccTask) : SeccTaskEvent → Option (SeccTask × List SeccTaskObs)
  | .tick junk =>
    if s.asleep then some (s, [])
    else if s.plcRespWaitCnt ≠ 0 then some (s.await, [])
    else s.due.map fun t => SeccTask.send t junk
  | .wake junk =>
    if s.asleep then (SeccTask.writeTx { s with asleep := false } 40027 4).map fun t =>
      SeccTask.send t junk
    else some (s, [])
  | .chunk bytes => s.read bytes
  | .cardWait => some ((s.setFault seccStatEvseReady).enter .none, [.entered .none])
  | .setTx txData => some ({ s with txData := txData }, [])
  | .setEvcc evccIdFlg => some ({ s with evccIdFlg := evccIdFlg }, [])

end ChargePoint
