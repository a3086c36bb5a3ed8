import ChargePoint.Cmd.Serve
import ChargePoint.Encode
import ChargePoint.Parse.Payload
import ChargePoint.Lib.Trace

/-!
# The client: ticks, receive steps, runs

Two threads run the OCPP client. The client thread raises the start request, samples the
meter and calls `NetRun`: connect, or `OCPP_CALL_Senario` to build at most one CALL and
`Tsct_Curl_Ws_Trans` to send it. The receive thread calls `Tsct_Curl_Ws_Recv`. Other
threads write single globals.

Here each of these is one event, and each event is atomic. (`Interleave.lean` takes the
two threads apart at their function calls.)

**What a run is allowed to do.** Everything: any frame may be received at any time, every
send may fail, every reconnect may fail or succeed, the clock may return anything on every
reading (it may stand still or run backwards), other threads may write their variables
between any two events. The one thing it may not do is leave its arrays: a step that would
is `none`.

**What is observed** (`Obs`): the frames put on the wire, the answers handed to a handler,
the samples taken, the start and stop requests raised. The statements about runs are
statements about these logs.
-/

set_option autoImplicit false

namespace ChargePoint

open CStr

/-- The client's globals. -/
structure Client where
  bConnect : Bool
  bWaitResFlg : Bool
  /-- `Call_Tx_Msg`: the last CALL sent. -/
  callTxMsg : TxMsg
  /-- `DATATRANS_UniqueID` -/
  dataTransUniqueId : UInt64
  /-- `tv_1.tv_sec`, the last heartbeat or boot -/
  tv1 : Nat
  /-- `tv_res.tv_sec`, when the last CALL was sent -/
  tvRes : Nat
  tx : TxBuf
  rx : RxBuf
  cp : Charger

/-- The readings of the clock during one event; each call of a time function has its own. -/
structure Clock where
  /-- `gettimeofday` in `Check_HB_Time` and `Check_Resp_Time` -/
  sec : Nat
  /-- the second reading, of `Reset_Time` and of a clock that ran backwards -/
  secReset : Nat
  /-- `CstGetTime_Msec_test` in the builder -/
  uid : UInt64
  /-- `GetDateTime` in the builder, or for `StopTsConfig` and `startTsQ` -/
  tm : Tm
  /-- `Check_Meter_Time`, `Check_Sampled_Time` -/
  tmCheck : Tm
  /-- `Add_MeterVal_Q` -/
  sample : SampleClock
  /-- `Reset_Time(&tv_res)` after a send -/
  secSent : Nat

/-! ## The CALL to make

`OCPP_CALL_Senario` is one long `if … else if …`. It is kept in its order but cut in pieces: what
comes before the trigger switch (`firstCall`), the switch (`trigCall`), what comes behind it
(`lateCall`), the heartbeat. Each piece names the branch, `Call`, and nothing else.

What a branch does is said apart from that, in three parts: what it changes before it builds its
message (`prepare`), the builder (`build`), and what it changes afterwards (`finish`). Flags that
are cleared before their CALL is sent are cleared in one of these, which is why a send that fails
loses some requests and not others. -/

/-- The branches of `OCPP_CALL_Senario` that build a message. -/
inductive Call
  | boot | meterVal | stat (i : Fin 2) | dataTransJ1 | auth | mbrUntpc | startTs | stopTs
  | chargeAmt | q1 | q2
  | trigDiag | trigFw | trigHb | trigMeter | trigStat
  | diagStat | fwStat | hb | cpSts
  deriving DecidableEq, Repr

/-- The status of connector `i` is to be reported. -/
def statDue (c : Charger) (i : Fin 2) : Bool :=
  c.cs.bCpStat i ≠ c.cs.bPreCpStat i || c.bCpStatChgFlg i

/-- The requests before the trigger switch, **in the order of the source**: while a
StartTransaction is pending, this order is all that holds a StopTransaction back. -/
def firstCall (c : Charger) : Option Call :=
  if statDue c 0 then some (.stat 0)
  else if statDue c 1 then some (.stat 1)
  else if c.bChargerCostCheck = 2 then some .dataTransJ1
  else if c.cs.bReqAuthNo ≠ 0 then some .auth
  else if c.cs.bReqMemberFlg then some .mbrUntpc
  else if c.startTsQ.reqStartTsFlg then some .startTs
  else if c.cs.bReqStopTsFlg then some .stopTs
  else if c.cs.bReqChargeAmtFlg then some .chargeAmt
  else if c.cs.bQrEventFlg = 1 then some .q1
  else if c.cs.bQrEventFlg = 2 then some .q2
  else none

/-- The trigger switch. A triggered BootNotification is dropped. -/
def trigCall : TrigMsgStat → Option Call
  | .diag => some .trigDiag
  | .fw => some .trigFw
  | .hb => some .trigHb
  | .meter => some .trigMeter
  | .stat => some .trigStat
  | .boot | .none => none

/-- The requests after the trigger switch and before the heartbeat. -/
def lateCall (c : Charger) : Option Call :=
  if diagStatUploading ≤ c.cs.diagLogReqStep then some .diagStat
  else match c.fw.updateStep with
    | .instal | .instaled | .instalFail | .download | .downloaded | .downloadFail => some .fwStat
    | .none | .chkDate | .downloading => none

/-- Where a reported firmware step goes. -/
def UpdateStep.reported : UpdateStep → UpdateStep
  | .download => .downloading
  | .downloaded => .instal
  | _ => .none

/-- The steps whose report makes both connectors available again. -/
def UpdateStep.reopens : UpdateStep → Bool
  | .instaled | .instalFail | .downloadFail => true
  | _ => false

/-- What the branch does to the charger before (or after) the message is built. -/
def Call.prepare (a : Call) (k : Clock) (c : Charger) : Charger :=
  match a with
  | .stat i => c.setChgFlg i false
  | .dataTransJ1 => { c with bChargerCostCheck := 0 }
  | .mbrUntpc => { c with cs := { c.cs with bReqMemberFlg := false } }
  | .stopTs =>
    let c := addMeterValQ { c with cs := { c.cs with bReqStopTsFlg := false } } k.sample
      meterValTransType
    { c with stopTsConfig := { c.stopTsConfig with
        timeStamp := getDateTime k.tm, meterStopVal := c.scene.eqpWatt,
        idTag := idTag16 c.scene.cardNo } }
  | .chargeAmt => { c with cs := { c.cs with bReqChargeAmtFlg := false } }
  | .q1 | .q2 => { c with cs := { c.cs with bQrEventFlg := 0 } }
  | .trigDiag | .trigFw | .trigHb | .trigStat =>
    { c with cs := { c.cs with triggerMsgStat := .none } }
  | .trigMeter =>
    addMeterValQ { c with cs := { c.cs with triggerMsgStat := .none } } k.sample meterValTrigType
  | .boot | .meterVal | .auth | .startTs | .diagStat | .fwStat | .hb | .cpSts => c

/-- The `MakeDataCmd_…` of the branch, reading the charger `prepare` left. Only the
transaction id of the connector in use can be out of its array. -/
def Call.build (a : Call) (k : Clock) (c : Charger) (tx : TxBuf) : Option TxBuf :=
  match a with
  | .boot => some (makeDataCmdBoot k.uid tx)
  | .meterVal | .trigMeter => some (makeDataCmdMeterVal c tx)
  | .stat i => some (makeDataCmdStat c i k.uid k.tm tx)
  | .trigStat => some (makeDataCmdStat c 1 k.uid k.tm tx)
  | .dataTransJ1 => some (makeDataCmdDataTransJ1 k.uid tx)
  | .auth => some (makeDataCmdAuth c k.uid tx)
  | .mbrUntpc => some (makeDataCmdDataTransMbrUntpc c k.uid tx)
  | .startTs => some (makeDataCmdStartTs c k.uid tx)
  | .stopTs => c.devConn.map fun d => makeDataCmdStopTs c (c.cs.bTrId d) k.uid tx
  | .chargeAmt => c.devConn.map fun d => makeDataCmdDataTransChargeAmt (c.cs.bTrId d) k.uid tx
  | .q1 => some (makeDataCmdDataTransQ1 c k.uid tx)
  | .q2 => some (makeDataCmdDataTransQ2 c k.uid tx)
  | .trigDiag => some (makeDataCmdDiagStat diagStatNone k.uid tx)
  | .diagStat => some (makeDataCmdDiagStat c.cs.diagLogReqStep k.uid tx)
  | .trigFw => some (makeDataCmdFwStat .none k.uid tx)
  | .fwStat => some (makeDataCmdFwStat c.fw.updateStep k.uid tx)
  | .trigHb | .hb => some (makeDataCmdHb k.uid tx)
  | .cpSts => some (makeDataCmdDataTransCpSts c k.tm k.uid tx)

/-- What the branch does to the charger once the message is built. -/
def Call.finish (a : Call) (c : Charger) : Charger :=
  match a with
  | .stopTs => { c with cs := { c.cs with bReqRmtStopTsFlg := false } }
  | .diagStat => { c with cs := { c.cs with diagLogReqStep := 0 } }
  | .fwStat =>
    { c with
        chargingStatus := if c.fw.updateStep.reopens then 3 else c.chargingStatus
        fw := { c.fw with updateStep := c.fw.updateStep.reported } }
  | .cpSts => { c with ocppCpStsFlg := false }
  | _ => c

namespace Client

/-- Take a branch. -/
def make (s : Client) (a : Call) (k : Clock) : Option Client :=
  let c := a.prepare k s.cp
  (a.build k c s.tx).map fun tx => { s with cp := a.finish c, tx := tx }

/-- `Check_HB_Time(&tv_1)`. -/
def checkHbTime (s : Client) (k : Clock) : Bool × Client :=
  if k.sec < s.tv1 then (false, { s with tv1 := k.secReset })
  else (decide ((s.cp.cfgKey 5).cfgKeyDataInt.toNat ≤ k.sec - s.tv1), s)

/-- `Check_Resp_Time(&tv_res)`. -/
def checkRespTime (s : Client) (k : Clock) : Bool × Client :=
  if k.sec < s.tvRes then (false, { s with tvRes := k.secReset })
  else (decide ((s.cp.cfgKey 18).cfgKeyDataInt.toNat ≤ k.sec - s.tvRes), s)

/-- Take a heartbeat-paced branch and note the time. -/
def makeTimed (s : Client) (a : Call) (k : Clock) : Option Client :=
  (s.make a k).map fun s => { s with tv1 := k.secReset }

/-- The trigger switch as a whole: a triggered boot is dropped on the way. -/
def dropTrigBoot (s : Client) : Client :=
  if s.cp.cs.triggerMsgStat = .boot then
    { s with cp := { s.cp with cs := { s.cp.cs with triggerMsgStat := .none } } }
  else s

/-- `OCPP_CALL_Senario` once the boot is accepted and no meter values are due. -/
def senarioBooted (s : Client) (k : Clock) : Option (Option Call × Client) :=
  match firstCall s.cp with
  | some a => (s.make a k).map fun s => (some a, s)
  | none =>
    match trigCall s.cp.cs.triggerMsgStat with
    | some a => (s.make a k).map fun s => (some a, s)
    | none =>
      let s := s.dropTrigBoot
      match lateCall s.cp with
      | some a => (s.make a k).map fun s => (some a, s)
      | none =>
        let r := s.checkHbTime k
        if r.1 then (r.2.makeTimed .hb k).map fun s => (some .hb, s)
        else if r.2.cp.ocppCpStsFlg then (r.2.make .cpSts k).map fun s => (some .cpSts, s)
        else some (none, r.2)

/-- **`OCPP_CALL_Senario`**: the branch taken — the source returns `true` for one that
built a message — and the client after it. -/
def ocppCallSenario (s : Client) (k : Clock) : Option (Option Call × Client) :=
  if s.bWaitResFlg then
    let r := s.checkRespTime k
    some (none, if r.1 then { r.2 with bConnect := false, bWaitResFlg := false } else r.2)
  else if (s.cp.cs.bCpStat 0).notBooted then
    let r := s.checkHbTime k
    if r.1 then (r.2.makeTimed .boot k).map fun s => (some .boot, s)
    else some (none, r.2)
  else
    match checkMeterTime s.cp k.tmCheck with
    | none => none
    | some (true, c) =>
      (({ s with cp := c } : Client).make .meterVal k).map fun s => (some .meterVal, s)
    | some (false, c) => ({ s with cp := c } : Client).senarioBooted k

end Client

/-! ## Observations

A frame is observed with the message it was printed from and the charger of that moment, so that a
statement about a frame can be one about its fields. No step reads the log. -/

/-- What an outsider sees of an event. -/
inductive Obs
  /-- A frame went out: its text, the message as `Make_Ocpp_Msg` left it and the charger
  then. -/
  | sent (frame : List Char) (msg : TxMsg) (cp : Charger)
  /-- An answer was handed to its handler: the frame, what was parsed of it, the CALL it was
  taken to answer (`Call_Tx_Msg`) and the charger before the handler. -/
  | answered (frame : List Char) (rx : RxMsg) (call : TxMsg) (cp : Charger)
  /-- A request of the central system was handed to its handler. -/
  | served (frame : List Char) (rx : RxMsg)
  /-- `Add_MeterVal_Q` was called, on this charger. -/
  | sampled (cp : Charger) (meterValType : Nat) (k : SampleClock)
  /-- A start request was raised, with this reading. -/
  | startRaised (meter : UInt32)
  /-- A stop was requested. -/
  | stopRaised

/-- The sample a branch takes, seen from the charger before it. -/
def Call.samples (a : Call) (k : Clock) (c : Charger) : List Obs :=
  match a with
  | .stopTs => [.sampled { c with cs := { c.cs with bReqStopTsFlg := false } }
      meterValTransType k.sample]
  | .trigMeter => [.sampled { c with cs := { c.cs with triggerMsgStat := .none } }
      meterValTrigType k.sample]
  | _ => []

namespace Client

/-! ## Sending and receiving

`Tsct_Curl_Ws_Trans` prints `Tx_Msg` and sends it; whether the send succeeds is an input. What it
sent is waited for only if it is a CALL. `Tsct_Curl_Ws_Recv` parses, and asks of an answer that one
is expected and that its id is the id of the last CALL. An answer names no action; the parser takes
that of the last CALL.

The header and the payload of a frame are parsed into `Rx_Msg` even if the frame is dropped
afterwards, as in the source. -/

/-- **`Tsct_Curl_Ws_Trans`.** A frame that fails to be sent loses the connection and clears
`Rx_Msg`; a CALL that was sent is waited for. -/
def tsctCurlWsTrans (s : Client) (k : Clock) (sendOk : Bool) : Client × List Obs :=
  let frame := makeOcppMsg s.tx s.rx.msg.uniqueIdChar
  let dtId := if s.tx.msg.actionCode = .dataTrans then s.tx.msg.uniqueId
    else s.dataTransUniqueId
  let s := { s with tx := afterMakeOcppMsg s.tx, dataTransUniqueId := dtId }
  if sendOk then
    (if s.tx.msg.msgType = msgTypeCall then
      { s with bWaitResFlg := true, tvRes := k.secSent, callTxMsg := s.tx.msg }
    else s, [.sent frame s.tx.msg s.cp])
  else ({ s with rx := clearRxMsgBuff, bConnect := false }, [])

/-- A client tick: `OCPP_CALL_Senario`, then `Tsct_Curl_Ws_Trans` if it built a message. -/
def tick (s : Client) (k : Clock) (sendOk : Bool) : Option (Client × List Obs) :=
  match s.ocppCallSenario k with
  | none => none
  | some (none, s') => some (s', [])
  | some (some a, s') =>
    let r := s'.tsctCurlWsTrans k sendOk
    some (r.1, a.samples k s.cp ++ r.2)

/-- `WS_Server_connect`. -/
def wsServerConnect (s : Client) (connectOk : Bool) : Client :=
  if connectOk then { s with bConnect := true, bWaitResFlg := false }
  else { s with bConnect := false }

/-- **`NetRun`.** -/
def netRun (s : Client) (k : Clock) (sendOk connectOk : Bool) : Option (Client × List Obs) :=
  if s.bConnect then s.tick k sendOk else some (s.wsServerConnect connectOk, [])

/-- Handing an answer to its handler. -/
def dispatchRes (s : Client) (frame : List Char) : Option (Client × List Obs) :=
  (rxCallResDataProc s.rx s.callTxMsg s.cp).map fun c =>
    ({ s with bWaitResFlg := false, cp := c }, [.answered frame s.rx.msg s.callTxMsg s.cp])

/-- The test before it: an answer is expected, and it has the expected id. -/
def expects (s : Client) : Bool :=
  s.bWaitResFlg && s.callTxMsg.uniqueId = s.rx.msg.uniqueId

/-- What `Tsct_Curl_Ws_Recv` does with a message that was parsed. -/
def recvParsed (s : Client) (frame : List Char) (j : Junk) (k : Clock) (sendOk : Bool) :
    Option (Client × List Obs) :=
  if s.rx.msg.msgType = 4 then some ({ s with bConnect := false }, [])
  else if s.cp.cs.bCpStat 0 = .none then
    if s.rx.msg.msgType = 3 ∧ s.rx.msg.actionCode = .cp .boot then
      if s.expects then s.dispatchRes frame else some (s, [])
    else if s.rx.msg.msgType = 2 ∧ s.rx.msg.actionCode = .cs .dataTransfer then
      (rxCallDataProc .dataTransfer j s.rx s.cp s.tx).map fun r =>
        ({ s with cp := r.1, tx := r.2 }, [.served frame s.rx.msg])
    else some (s, [])
  else if s.rx.msg.msgType = 3 then
    if s.expects then s.dispatchRes frame else some (s, [])
  else if s.rx.msg.msgType = 2 then
    match s.rx.msg.actionCode with
    | .cs cmd =>
      (rxCallDataProc cmd j s.rx s.cp s.tx).map fun r =>
        let t := ({ s with cp := r.1, tx := r.2 } : Client).tsctCurlWsTrans k sendOk
        (t.1, .served frame s.rx.msg :: t.2)
    | .cp _ => some (s, [])
  else some (s, [])

/-- `sizeof curl_ws_recv_buf`. -/
def recvBufCap : Nat := 1024

/-- **`Tsct_Curl_Ws_Recv`** on a received frame. A frame that fills the buffer has its
terminator written past the end. -/
def tsctCurlWsRecv (s : Client) (frame : List Char) (j : Junk) (k : Clock) (sendOk : Bool) :
    Option (Client × List Obs) :=
  if frame.length < recvBufCap then
    match parseData s.callTxMsg.actionCode s.dataTransUniqueId clearRxMsgBuff frame with
    | none => none
    | some d =>
      let s := { s with rx := d.rx, dataTransUniqueId := d.dataTransId }
      if d.err then some (s, []) else s.recvParsed frame j k sendOk
  else none

/-! ## The client thread's other work -/

/-- The start request: the meter reading is captured here. -/
def raiseStart (s : Client) (k : Clock) : Client × List Obs :=
  if s.cp.cs.bReqStartTsNo ≠ 0 then
    ({ s with cp := { s.cp with
        cs := { s.cp.cs with bReqStartTsNo := 0 }
        startTsQ := { reqStartTsFlg := true, connectorNo := 1, faultChargFlg := false,
                      timeStamp := getDateTime k.tm, meterStartVal := s.cp.scene.eqpWatt,
                      idTag := idTag16 s.cp.scene.cardNo } } }, [.startRaised s.cp.scene.eqpWatt])
  else (s, [])

/-- The periodic sample. -/
def sampleMeter (s : Client) (k : Clock) : Option (Client × List Obs) :=
  (checkSampledTime s.cp k.tmCheck).map fun r =>
    if r.1 ≠ 0 then
      ({ s with cp := addMeterValQ r.2 k.sample r.1 }, [.sampled r.2 r.1 k.sample])
    else ({ s with cp := r.2 }, [])

end Client

/-! ## Events

What another thread may write is `EnvWrite`: one constructor for each global that is written
outside of the two threads, with the values that are written there. A `ScreenStatus` is what
`SetCpStatus` is called with. -/

/-- The statuses the screens and the update thread set. -/
inductive ScreenStatus
  | avail | prepare | charging | suspendedEv | suspendedEvse | unavail | fault
  deriving DecidableEq, Repr

def ScreenStatus.code : ScreenStatus → CpStatus
  | .avail => .avail
  | .prepare => .prepare
  | .charging => .charging
  | .suspendedEv => .suspendedEv
  | .suspendedEvse => .suspendedEvse
  | .unavail => .unavail
  | .fault => .fault

/-- A write of another thread to a global of the client. -/
inductive EnvWrite
  /-- any change of the variables the screens, the card reader and the meter own -/
  | scene (v : Scene)
  /-- `SetCpStatus` from a screen -/
  | setCpStatus (code : ScreenStatus) (ch : Nat)
  /-- `bReqStopTsFlg = true` -/
  | reqStopTs
  | reqStartTs (n : Nat)
  | reqAuth (n : Nat)
  | scndCardNo (s : List Char)
  | clearParentId
  | qrEvent (n : Nat) (secureNo : List Char)
  | rmtStart (n : Nat)
  | rmtStop (b : Bool)
  | diagLogReqStep (n : Nat)
  | updateStep (u : UpdateStep)
  | chargingStatus (v : UInt32)
  | devChannel (b : Bool)
  | stopTsConfig (v : StopTs)

/-- The write itself. -/
def EnvWrite.apply (w : EnvWrite) (c : Charger) : Option (Charger × List Obs) :=
  match w with
  | .scene v => some ({ c with scene := v }, [])
  | .setCpStatus code ch => (connIdx ch).map fun i => (c.setCpStatus code.code i, [])
  | .reqStopTs => some ({ c with cs := { c.cs with bReqStopTsFlg := true } }, [.stopRaised])
  | .reqStartTs n => some ({ c with cs := { c.cs with bReqStartTsNo := n } }, [])
  | .reqAuth n => some ({ c with cs := { c.cs with bReqAuthNo := n } }, [])
  | .scndCardNo s => some ({ c with cs := { c.cs with scndCardNo := s } }, [])
  | .clearParentId => some ({ c with cs := { c.cs with parentId := [] } }, [])
  | .qrEvent n s => some ({ c with cs := { c.cs with bQrEventFlg := n, secureNo := s } }, [])
  | .rmtStart n => some ({ c with cs := { c.cs with bReqRmtStartTsNo := n } }, [])
  | .rmtStop b => some ({ c with cs := { c.cs with bReqRmtStopTsFlg := b } }, [])
  | .diagLogReqStep n => some ({ c with cs := { c.cs with diagLogReqStep := n } }, [])
  | .updateStep u => some ({ c with fw := { c.fw with updateStep := u } }, [])
  | .chargingStatus v => some ({ c with chargingStatus := v }, [])
  | .devChannel b => some ({ c with bDevChannel := b }, [])
  | .stopTsConfig v => some ({ c with stopTsConfig := v }, [])

/-- The events of a run. -/
inductive Event
  /-- the client thread looks for a start request -/
  | raiseStart (k : Clock)
  /-- the client thread looks whether a sample is due -/
  | sample (k : Clock)
  /-- the Ethernet link is down: `Clear_Rx_Msg_Buff`, disconnected -/
  | linkDown
  /-- the network is not ready: disconnected -/
  | netDown
  /-- `NetRun` -/
  | netRun (k : Clock) (sendOk connectOk : Bool)
  /-- `Tsct_Curl_Ws_Recv` with a frame -/
  | recv (frame : List Char) (j : Junk) (k : Clock) (sendOk : Bool)
  /-- `Tsct_Curl_Ws_Recv` with an error of the connection -/
  | recvFail
  /-- another thread -/
  | env (w : EnvWrite)

/-- **One atomic event.** The receive thread only runs while connected. -/
def step (s : Client) : Event → Option (Client × List Obs)
  | .raiseStart k => some (s.raiseStart k)
  | .sample k => s.sampleMeter k
  | .linkDown => some ({ s with rx := clearRxMsgBuff, bConnect := false }, [])
  | .netDown => some ({ s with bConnect := false }, [])
  | .netRun k sendOk connectOk => s.netRun k sendOk connectOk
  | .recv frame j k sendOk =>
    if s.bConnect then s.tsctCurlWsRecv frame j k sendOk else some (s, [])
  | .recvFail =>
    some (if s.bConnect then { s with rx := clearRxMsgBuff, bConnect := false } else s, [])
  | .env w => (w.apply s.cp).map fun r => ({ s with cp := r.1 }, r.2)

/-! ## The start -/

/-- `ocppConfigKeyName`, `Init_CfgKey`. -/
def initCfgKeys : List CfgKey :=
  let b (n : String) (v : UInt32) : CfgKey := ⟨n.toList, false, .bool, [], v⟩
  let i (n : String) (rw : Bool) (v : UInt32) : CfgKey := ⟨n.toList, rw, .int, [], v⟩
  let t (n : String) (rw : Bool) (v : String) : CfgKey := ⟨n.toList, rw, .str, v.toList, 0⟩
  [ b "AuthorizeRemoteTxRequests" 1,
    i "ClockAlignedDataInterval" false 180,
    i "ConnectionTimeOut" false 90,
    t "ConnectorPhaseRotation" false "NotApplicable",
    i "GetConfigurationMaxKeys" true 24,
    i "HeartbeatInterval" false 10,
    b "LocalAuthorizeOffline" 1,
    b "LocalPreAuthorize" 1,
    t "MeterValuesAlignedData" false "Energy.Active.Import.Register",
    t "MeterValuesSampledData" false "Energy.Active.Import.Register",
    i "MeterValueSampleInterval" false 180,
    i "NumberOfConnectors" true 1,
    i "ResetRetries" false 0,
    b "StopTransactionOnEVSideDisconnect" 1,
    b "StopTransactionOnInvalidId" 0,
    t "StopTxnAlignedData" false "Energy.Active.Import.Register",
    t "StopTxnSampledData" false "Energy.Active.Import.Register",
    t "SupportedFeatureProfiles" true "Core, FirmwareManagement, RemoteTrigger",
    i "TransactionMessageAttempts" false 5,
    i "TransactionMessageRetryInterval" false 10,
    b "UnlockConnectorOnEVSideDisconnect" 1,
    i "LocalAuthListMaxLength" true 5,
    i "SendLocalListMaxLength" true 5,
    b "AllowOfflineTxForUnknownId" 1 ]

def initCfgKey (i : Nat) : CfgKey := initCfgKeys.getD i ⟨[], false, .str, [], 0⟩

/-- The charger when the client starts: everything zero but `theConfig.chargingstatus`, which
comes from the configuration file. -/
def Charger.init (chargingStatus : UInt32) : Charger where
  cs := { bPreCpStat := fun _ => .none, bCpStat := fun _ => .none, bTrId := fun _ => 0,
          bReqAuthNo := 0, bReqStartTsNo := 0, bReqStopTsFlg := false, bReqRmtStartTsNo := 0,
          bReqRmtStopTsFlg := false, bReqResetNo := 0, scndCardNo := [], parentId := [],
          batInfoCfgCnt := 20, bQrEventFlg := 0, secureNo := [], triggerMsgStat := .none,
          diagLogUrl := [], diagLogReqStep := 0, bReqMemberFlg := false,
          bReqChargeAmtFlg := false }
  startTsQ := ⟨false, [], 0, [], 0, false⟩
  stopTsConfig := ⟨[], 0, [], 0⟩
  meterQ := fun _ => .zero
  cfgKey := initCfgKey
  fw := ⟨.none, [], []⟩
  chargingStatus := chargingStatus
  bDevChannel := false
  bCpStatChgFlg := fun _ => false
  bChargerCostCheck := 0
  ocppCpStsFlg := false
  checkMeterFlg := false
  checkSampledFlg := false
  scene := ⟨[], 0, 0, 0, 0, 0, 0, false, false, .none, 0, 0⟩

/-- `WsClientInit`: the clocks are set to the time of the start. -/
def Client.init (chargingStatus : UInt32) (now : Nat) : Client where
  bConnect := false
  bWaitResFlg := false
  callTxMsg := TxMsg.zero
  dataTransUniqueId := 0
  tv1 := now
  tvRes := 0
  tx := TxBuf.zero
  rx := clearRxMsgBuff
  cp := .init chargingStatus

/-- **A run** of the client: from any start, by any events. -/
def Run (s : Client) (log : List Obs) : Prop :=
  ∃ chargingStatus now, Trace.Always step (Client.init chargingStatus now) s log

/-- A run every step of which meets `ok`. -/
def RunIf (ok : Client → List Obs → Event → Prop) (s : Client) (log : List Obs) : Prop :=
  ∃ chargingStatus now, Trace.Reach step ok (Client.init chargingStatus now) s log

end ChargePoint
