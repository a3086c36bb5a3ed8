import ChargePoint.MeterQueue

/-!
# `MakeDataCmd_…`: the messages the charge point starts

Each builder fills `Tx_Msg` from the charger's state. They are functions from a
transmit buffer to a transmit buffer: a builder reads the charger and cannot change it.
(`MakeDataCmd_StopTs` also clears the remote-stop request; its caller does that here,
`Client.lean`.)

A builder writes the entries it names and leaves the rest of `Tx_Msg` as the previous
message left it. Nothing is cleared in between, so the model does not clear anything
either.
-/

set_option autoImplicit false

namespace ChargePoint

open CStr

/-- The first lines of every builder: type, id, number of properties, action. -/
def TxBuf.call (tx : TxBuf) (uid : UInt64) (len : Nat) (a : CpReqAction) : TxBuf :=
  { tx with msg := { tx.msg with msgType := msgTypeCall, uniqueId := uid, payloadLen := len,
                                 actionCode := a } }

/-- `MakeDataCmd_Auth`: the second card while a session runs (`bReqAuthNo` 2), the
card of the session otherwise. -/
def makeDataCmdAuth (c : Charger) (uid : UInt64) (tx : TxBuf) : TxBuf :=
  (tx.call uid 1 .auth).setProp 0 "idTag".toList
    (if c.cs.bReqAuthNo = 2 then (cstr c.cs.scndCardNo).take 21 else idTag16 c.scene.cardNo) .str

/-- `SW_MODEL` and `SW_VERSION`. -/
def swModel : List Char := "TSCT-2007CP".toList
def swVersion : List Char := "V2.2.3T".toList

def makeDataCmdBoot (uid : UInt64) (tx : TxBuf) : TxBuf :=
  (((tx.call uid 3 .boot).setProp 0 "chargePointVendor".toList "tscontech".toList .str).setProp 1
    "chargePointModel".toList swModel .str).setProp 2 "firmwareVersion".toList swVersion .str

/-- The text of a `DIAG_STAT`; states that are not reported have none. -/
def diagStatText (diagStat : Nat) : List Char :=
  if diagStat = diagStatNone then "Idle".toList
  else if diagStat = diagStatUploading then "Uploading".toList
  else if diagStat = diagStatUploaded then "Uploaded".toList
  else if diagStat = diagStatUploadFail then "UploadFailed".toList
  else []

def makeDataCmdDiagStat (diagStat : Nat) (uid : UInt64) (tx : TxBuf) : TxBuf :=
  (tx.call uid 1 .diagStat).setProp 0 "status".toList (diagStatText diagStat) .str

/-- The text of an `UPDATE_STEP`. -/
def fwStatText : UpdateStep → List Char
  | .none => "Idle".toList
  | .download => "Downloading".toList
  | .downloaded => "Downloaded".toList
  | .downloadFail => "DownloadFailed".toList
  | .instal => "Installing".toList
  | .instaled => "Installed".toList
  | .instalFail => "InstallationFailed".toList
  | .chkDate | .downloading => []

def makeDataCmdFwStat (updateStep : UpdateStep) (uid : UInt64) (tx : TxBuf) : TxBuf :=
  (tx.call uid 1 .fwStat).setProp 0 "status".toList (fwStatText updateStep) .str

def makeDataCmdHb (uid : UInt64) (tx : TxBuf) : TxBuf :=
  (tx.call uid 0 .hb).setType 0 .str

/-! ## Meter values -/

/-- `sampledValue_format` and `TransactionEnd_format` differ in the context only. The
energy is printed times 10, in 32 bits; current and voltage are scaled down. -/
def sampleText (context : List Char) (v : MeterVal) : List Char :=
  let measured (value : List Char) (measurand unit : String) : List Char :=
    "\x7b\"value\":\"".toList ++ value ++ "\",\"measurand\":\"".toList ++ measurand.toList ++
      "\",\"context\":\"".toList ++ context ++ "\",\"unit\":\"".toList ++ unit.toList ++
      "\"\x7d".toList
  "\x7b\"timestamp\":\"".toList ++ cstr v.timeStamp ++ "\",\"sampledValue\":[".toList ++
    measured (dec (v.sampledVal * 10).toNat) "Energy.Active.Import.Register" "Wh" ++ ',' ::
    measured (dec (v.current.toNat / 100)) "Current.Export" "A" ++ ',' ::
    measured (dec (v.volt.toNat / 10)) "Voltage" "V" ++ "]\x7d".toList

/-- The text of a queued entry, if its type has one: clock samples and the sample at
the end of a transaction. A triggered sample has none. -/
def entryText (v : MeterVal) : Option (List Char) :=
  if v.meterValFlg = meterValClockType then some (sampleText "Sample.Clock".toList v)
  else if v.meterValFlg = meterValTransType then some (sampleText "Transaction.End".toList v)
  else none

/-- `MeterVal_count`: the entries in use, wherever they are. -/
def meterValCount (q : Nat → MeterVal) : Nat :=
  (List.range maxQnoMeterVal).countP fun i => (q i).meterValFlg ≠ 0

/-- The second loop of `sampledValue_Data`: entries `i`, …, up to `count`, each followed
by a comma unless it is the last of `count`; an entry without a text ends the loop. -/
def sampledLoop (q : Nat → MeterVal) (count : Nat) : Nat → Nat → List Char
  | 0, _ => []
  | k + 1, i =>
    match entryText (q i) with
    | none => []
    | some t => t ++ (if i + 1 < count then [','] else []) ++ sampledLoop q count k (i + 1)

/-- `sampledValue_Data`: the text appended to the array entry of the frame. From the third
sample on, or the fourth where they are taken by the clock, it is longer than
`property_contants[1024]` and runs into the fields behind it, which that entry does not use; the
string read back is whole. The fifth sample's pointer is stored behind `strings[4]`, in what the
compiler keeps there on the stack; that nothing else is written to it before the pointer is read
back is assumed. -/
def sampledValueData (q : Nat → MeterVal) : List Char :=
  sampledLoop q (meterValCount q) (meterValCount q) 0

/-- The array property that carries the samples: one entry of `tx_sub_Payload`, which
holds the text of them all. -/
def TxBuf.setSamples (tx : TxBuf) (i : Nat) (name : List Char) (q : Nat → MeterVal) : TxBuf :=
  let tx := tx.setPayload i { tx.msg.payload i with
    propertyName := name, dataType := .arr, subPayload := .tx, subPayloadLen := 1 }
  { tx with sub := setAt tx.sub 0 { tx.sub 0 with propertyContants := sampledValueData q } }

/-- `MakeDataCmd_MeterVal`. The id is the first queued sample's; the transaction is
connector 1's. -/
def makeDataCmdMeterVal (c : Charger) (tx : TxBuf) : TxBuf :=
  ((((tx.call (c.meterQ 0).uidMv 3 .meterVal).setProp 0 "connectorId".toList
    (dec (c.meterQ 0).connectId) .int).setProp 1 "transactionId".toList
    (dec (c.cs.bTrId 1).toNat) .int).setSamples 2 "meterValue".toList c.meterQ)

/-! ## Transactions -/

def makeDataCmdStartTs (c : Charger) (uid : UInt64) (tx : TxBuf) : TxBuf :=
  ((((tx.call uid 4 .startTs).setProp 0 "connectorId".toList (dec c.startTsQ.connectorNo) .int).setProp
    1 "idTag".toList (idTag16 c.startTsQ.idTag) .str).setProp
    2 "meterStart".toList (dec (c.startTsQ.meterStartVal * 10).toNat) .int).setProp
    3 "timestamp".toList (cstr c.startTsQ.timeStamp) .str

/-- The optional `reason` of a StopTransaction, in the order the source asks. The last
test but one compares `Stop_Reason` with a `CHARGE_END_CODE`. -/
def stopReasonText (c : Charger) : Option (List Char) :=
  if c.cs.bReqRmtStopTsFlg then some "Remote".toList
  else if c.scene.chargeCompStatus = endUnplug then some "EVDisconnected".toList
  else if c.scene.chargeCompStatus = endBtn ∨ c.scene.chargeCompStatus = endCard then
    some "Local".toList
  else if c.stopTsConfig.stopReason = endErr then some "Other".toList
  else if c.stopTsConfig.stopReason = stopReasonPower then some "PowerLoss".toList
  else none

/-- `MakeDataCmd_StopTs`. `trId` is `bTrId[bDevChannel+1]`. -/
def makeDataCmdStopTs (c : Charger) (trId : UInt64) (uid : UInt64) (tx : TxBuf) : TxBuf :=
  let tx := (((tx.call uid 3 .stopTs).setProp 0 "transactionId".toList (dec trId.toNat) .int).setProp
    1 "timestamp".toList (cstr c.stopTsConfig.timeStamp) .str).setProp
    2 "meterStop".toList (dec (c.stopTsConfig.meterStopVal * 10).toNat) .int
  let (tx, n) : TxBuf × Nat := match stopReasonText c with
    | some r => (tx.setProp 3 "reason".toList r .str, 4)
    | none => (tx, 3)
  ((tx.setProp n "idTag".toList (cstr c.stopTsConfig.idTag) .str).setSamples
    (n + 1) "transactionData".toList c.meterQ).setLen (n + 2)

/-! ## Status -/

/-- The `status` text of a StatusNotification. Before the boot is accepted there is
none, and the previous contents stay. -/
def statText : CpStatus → Option (List Char)
  | .none | .pend => none
  | .avail => some "Available".toList
  | .prepare => some "Preparing".toList
  | .charging => some "Charging".toList
  | .suspendedEv => some "SuspendedEV".toList
  | .suspendedEvse => some "SuspendedEVSE".toList
  | .fnish => some "Finishing".toList
  | .reserved => some "Reserved".toList
  | .unavail => some "Unavailable".toList
  | .fault => some "Faulted".toList

/-- `ChargerErrorCode`. -/
def chargerErrorCode : ErrCode → List Char
  | .ovVolt => "OverVoltage".toList
  | .ovCurt => "OverCurrentFailure".toList
  | .udVolt => "UnderVoltage".toList
  | _ => "OtherError".toList

/-- `ChargerVendorErrorCode`. -/
def chargerVendorErrorCode : ErrCode → List Char
  | .emg => "901".toList
  | .ovVolt => "102".toList
  | .ovCurt => "104".toList
  | .udVolt => "103".toList
  | .temp => "303".toList
  | .secc => "403".toList
  | .powerMeter => "904".toList
  | .none | .batData => "910".toList

/-- `MakeDataCmd_Stat`. A suspended EV has a sixth property — which the source writes
at index `Payload_len` *after* counting it, so entry 6, not 5. -/
def makeDataCmdStat (c : Charger) (cntrNo : Fin 2) (uid : UInt64) (tm : Tm) (tx : TxBuf) :
    TxBuf :=
  let code := c.cs.bCpStat cntrNo
  let tx := ((((tx.call uid 5 .stat).setName 2 "status".toList).setProp 0 "connectorId".toList
    (dec cntrNo.val) .int).setProp 1 "timestamp".toList (getDateTime tm) .str)
  let (err, vendor) : List Char × List Char :=
    if code = .fault then
      (chargerErrorCode c.scene.chargerErrCode, chargerVendorErrorCode c.scene.chargerErrCode)
    else ("NoError".toList, [])
  let tx := (tx.setProp 3 "errorCode".toList err .str).setProp 4 "vendorErrorCode".toList vendor .str
  let tx := match statText code with
    | some t => (tx.setContants 2 t).setType 2 .str
    | none => tx
  if code = .suspendedEv then
    (tx.setLen 6).setProp 6 "info".toList "EV side disconnected".toList .str
  else tx

/-! ## DataTransfer -/

/-- The DataTransfer builders: vendor, message id, data. -/
def makeDataCmdDataTrans (messageId data : List Char) (uid : UInt64) (tx : TxBuf) : TxBuf :=
  (((tx.call uid 3 .dataTrans).setProp 0 "vendorId".toList "tscontech".toList .str).setProp
    1 "messageId".toList messageId .str).setProp 2 "data".toList data .str

def makeDataCmdDataTransJ1 : UInt64 → TxBuf → TxBuf :=
  makeDataCmdDataTrans "j1".toList []

def makeDataCmdDataTransCpSts (c : Charger) (tm : Tm) : UInt64 → TxBuf → TxBuf :=
  makeDataCmdDataTrans "cpSts".toList
    ("[\x7b\\\"timestamp\\\":\\\"".toList ++ getDateTime tm ++
      "\\\",\\\"sampledValue\\\":[\x7b\\\"position\\\":\\\"\\\",\\\"temperature\\\":\\\"".toList ++
      decInt c.scene.temperature ++ "\\\",\\\"humidity\\\":\\\"".toList ++
      decInt c.scene.humidity ++ "\\\"\x7d]\x7d]".toList)

def makeDataCmdDataTransQ1 (c : Charger) : UInt64 → TxBuf → TxBuf :=
  makeDataCmdDataTrans "q1".toList
    ("\x7b\\\"connectorId\\\":".toList ++ dec (c.bDevChannel.toNat + 1) ++
      ",\\\"waitTime\\\":\\\"90\\\",\\\"secureNo\\\":\\\"".toList ++ cstr c.cs.secureNo ++
      "\\\"\x7d".toList)

def makeDataCmdDataTransQ2 (c : Charger) : UInt64 → TxBuf → TxBuf :=
  makeDataCmdDataTrans "q2".toList
    ("\x7b\\\"connectorId\\\":".toList ++ dec (c.bDevChannel.toNat + 1) ++
      ",\\\"cancelReason\\\":\\\"01\\\"\x7d".toList)

def makeDataCmdDataTransMbrUntpc (c : Charger) : UInt64 → TxBuf → TxBuf :=
  makeDataCmdDataTrans "mbrUntpc".toList
    ("\x7b\\\"idTag\\\":\\\"".toList ++ idTag16 c.scene.cardNo ++ "\\\"\x7d".toList)

/-- `trId` is `bTrId[bDevChannel+1]`. -/
def makeDataCmdDataTransChargeAmt (trId : UInt64) : UInt64 → TxBuf → TxBuf :=
  makeDataCmdDataTrans "chargeAmt".toList
    ("\x7b\\\"transactionId\\\":".toList ++ dec trId.toNat ++ "\x7d".toList)

/-- `MakeDataCmd_DataTrans_BatteryInfo`, which nothing calls. -/
def makeDataCmdDataTransBatteryInfo : UInt64 → TxBuf → TxBuf :=
  makeDataCmdDataTrans "BatteryInfo".toList
    "\x7b\\\"infoCnt\\\":\\\"1\\\", \\\"batteryData\\\":[]\x7d".toList

end ChargePoint
