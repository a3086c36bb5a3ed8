import ChargePoint.Msg

/-!
# The charger's state

The globals the OCPP client reads and writes, grouped as the source groups them:
`CsConfigVal`, `startTsQ`, `StopTsConfig`, `MeterValQ`, `CfgKeyVal`, `fwUpdateVals`, and
the variables that belong to the screens, the card reader and the meter (`Scene`),
which the client mostly reads.

What is *not* here: the connection, the wait flag and the message buffers. They are the
client's own, in `Client.lean`, and no command handler is given them. That a handler
cannot disturb the call correlation is then a matter of types.

**Arrays of two.** `bCpStat`, `bPreCpStat` and `bTrId` have `MAX_CONECTOR_ID + 1 = 2`
elements. Their index type is `Fin 2`, and an index that is computed from data or from
`bDevChannel` goes through `connIdx`, which is `none` from 2 on.

**One array is kept with the bytes behind it.** `Add_MeterVal_Q` writes `MeterValQ[5]`, one
past the end, on every call that finds the queue full, so this is ordinary operation and
not an input's doing. `meterQ` is a function on all indices, and its value at 5 is what
lies behind the array; nothing else of the model is stored there.
-/

set_option autoImplicit false

namespace ChargePoint

open CStr

/-! ## Enumerations -/

/-- `CP_STATUS_CODE`. -/
inductive CpStatus
  | none | pend | avail | prepare | charging | suspendedEv | suspendedEvse | fnish
  | reserved | unavail | fault
  deriving DecidableEq, Repr

/-- `code <= CP_STATUS_CODE_PEND`: the BootNotification is not accepted yet. -/
def CpStatus.notBooted : CpStatus → Bool
  | .none | .pend => true
  | _ => false

/-- `TRIG_MSG_STAT`. -/
inductive TrigMsgStat
  | none | boot | diag | fw | hb | meter | stat
  deriving DecidableEq, Repr

/-- `UPDATE_STEP`. -/
inductive UpdateStep
  | none | chkDate | download | downloading | downloaded | downloadFail
  | instal | instaled | instalFail
  deriving DecidableEq, Repr

/-- `ERR_CODE`. -/
inductive ErrCode
  | none | emg | ovVolt | ovCurt | udVolt | temp | secc | batData | powerMeter
  deriving DecidableEq, Repr

/-- `DIAG_STAT`, kept as the number it is stored as. -/
def diagStatNone : Nat := 0
def diagStatUpload : Nat := 1
def diagStatUploading : Nat := 2
def diagStatUploaded : Nat := 3
def diagStatUploadFail : Nat := 4

/-- `METER_VAL_…_TYPE`, stored in `Meterval_Flg`; 0 is a free entry. -/
def meterValClockType : Nat := 2
def meterValTrigType : Nat := 3
def meterValTransType : Nat := 4

/-- `CHARGE_END_CODE`, of which the client tests these. -/
def endNone : Nat := 0
def endBtn : Nat := 2
def endUnplug : Nat := 4
def endErr : Nat := 5
def endCard : Nat := 8

/-- `STOP_REASON_POWER`. -/
def stopReasonPower : Nat := 6

/-- `APP_ORDER_…`, of which the client tests or sets these. -/
def appOrderWait : Nat := 1
def appOrderAuthMethod : Nat := 2
def appOrderKakaoQr : Nat := 3

/-- `CARD_AUTH_FAILD`. -/
def cardAuthFaild : Nat := 3

def maxConectorId : Nat := 1
def maxQnoMeterVal : Nat := 5
def maxCfg : Nat := 24

/-! ## The records -/

/-- The arrays have a first element, so that an index may be written as a numeral. -/
instance neZeroTwo : @NeZero Nat Zero.ofOfNat0 2 := ⟨Nat.succ_ne_zero 1⟩

/-- The index of a connector's element, if the arrays have it. -/
def connIdx (i : Nat) : Option (Fin 2) := if h : i < 2 then some ⟨i, h⟩ else Option.none

/-- `CS_CONFIG_VAL`. -/
structure CsConfigVal where
  bPreCpStat : Fin 2 → CpStatus
  bCpStat : Fin 2 → CpStatus
  bTrId : Fin 2 → UInt64
  bReqAuthNo : Nat
  bReqStartTsNo : Nat
  bReqStopTsFlg : Bool
  bReqRmtStartTsNo : Nat
  bReqRmtStopTsFlg : Bool
  bReqResetNo : Nat
  /-- `scnd_card_no[21]` -/
  scndCardNo : List Char
  /-- `parentId[21]` -/
  parentId : List Char
  batInfoCfgCnt : Nat
  bQrEventFlg : Nat
  secureNo : List Char
  triggerMsgStat : TrigMsgStat
  /-- `diagLogUrl[100]` -/
  diagLogUrl : List Char
  diagLogReqStep : Nat
  bReqMemberFlg : Bool
  bReqChargeAmtFlg : Bool

/-- `STARTTS_TYPE`. -/
structure StartTs where
  reqStartTsFlg : Bool
  timeStamp : List Char
  meterStartVal : UInt32
  idTag : List Char
  connectorNo : Nat
  faultChargFlg : Bool
  deriving DecidableEq

/-- `STOPTSVAL_TYPE`, the fields the StopTransaction frame is made of. -/
structure StopTs where
  timeStamp : List Char
  meterStopVal : UInt32
  idTag : List Char
  stopReason : Nat
  deriving DecidableEq

/-- `METERVAL_TYPE`. -/
structure MeterVal where
  meterValFlg : Nat
  uidMv : UInt64
  connectId : Nat
  timeStamp : List Char
  sampledVal : UInt32
  current : UInt16
  volt : UInt16
  deriving DecidableEq

def MeterVal.zero : MeterVal := ⟨0, 0, 0, [], 0, 0, 0⟩

/-- `TSCT_CFG_KEY`. -/
structure CfgKey where
  cfgKeyName : List Char
  cfgKeyRw : Bool
  cfgKeyType : TypeCode
  cfgKeyDataCha : List Char
  cfgKeyDataInt : UInt32

/-- `FW_UPDATE`. -/
structure FwUpdate where
  updateStep : UpdateStep
  /-- `fwUpdateUrl[70]` -/
  fwUpdateUrl : List Char
  /-- `Time_Stamp[50]` -/
  timeStamp : List Char

/-- What the screens, the card reader, the meter and the sensors own. -/
structure Scene where
  /-- `shmDataAppInfo.card_no[21]` -/
  cardNo : List Char
  /-- `shmDataAppInfo.app_order` -/
  appOrder : Nat
  /-- `shmDataAppInfo.charge_comp_status` -/
  chargeCompStatus : Nat
  /-- `shmDataIfInfo.card_auth` -/
  cardAuth : Nat
  /-- `shmDataAppInfo.eqp_watt[4]`, most significant byte first -/
  eqpWatt : UInt32
  amiCurrent : UInt16
  amiVolt : UInt16
  sChCharging : Bool
  cpStatChk : Bool
  chargerErrCode : ErrCode
  temperature : Int
  humidity : Int

structure Charger where
  cs : CsConfigVal
  startTsQ : StartTs
  stopTsConfig : StopTs
  meterQ : Nat → MeterVal
  cfgKey : Nat → CfgKey
  fw : FwUpdate
  /-- `theConfig.chargingstatus`: bit `i` is connector `i`'s availability, bit 2 that a
  transaction is running. -/
  chargingStatus : UInt32
  bDevChannel : Bool
  /-- Bit `i` of `bCpStatChgFlg`. -/
  bCpStatChgFlg : Fin 2 → Bool
  bChargerCostCheck : Nat
  ocppCpStsFlg : Bool
  checkMeterFlg : Bool
  checkSampledFlg : Bool
  scene : Scene

namespace Charger

/-- `bDevChannel + 1`. -/
def devConn (c : Charger) : Option (Fin 2) := connIdx (c.bDevChannel.toNat + 1)

/-- `SetCpStatus`, at an index the array has. -/
def setCpStatus (c : Charger) (code : CpStatus) (i : Fin 2) : Charger :=
  { c with cs := { c.cs with bCpStat := fun j => if j = i then code else c.cs.bCpStat j } }

/-- `CsConfigVal.bPreCpStat[i] = code`. -/
def setPreCpStat (c : Charger) (code : CpStatus) (i : Fin 2) : Charger :=
  { c with cs := { c.cs with bPreCpStat := fun j => if j = i then code else c.cs.bPreCpStat j } }

/-- `CfgKeyVal[n].CfgKeyDataInt = v`. -/
def setCfgInt (c : Charger) (n : Nat) (v : UInt32) : Charger :=
  { c with cfgKey := fun j => if j = n then { c.cfgKey j with cfgKeyDataInt := v }
                              else c.cfgKey j }

/-- `bCpStatChgFlg |= 1 << i`, or its converse. -/
def setChgFlg (c : Charger) (i : Fin 2) (b : Bool) : Charger :=
  { c with bCpStatChgFlg := fun j => if j = i then b else c.bCpStatChgFlg j }

end Charger

/-! ## The clock -/

/-- `struct tm`, the fields `GetDateTime` prints. -/
structure Tm where
  tmYear : Nat
  tmMon : Nat
  tmMday : Nat
  tmHour : Nat
  tmMin : Nat
  tmSec : Nat
  deriving DecidableEq

/-- `GetDateTime`: `%d-%02d-%02dT%02d:%02d:%02d.000Z`. -/
def getDateTime (tm : Tm) : List Char :=
  dec (tm.tmYear + 1900) ++ '-' :: dec02 (tm.tmMon + 1) ++ '-' :: dec02 tm.tmMday ++
    'T' :: dec02 tm.tmHour ++ ':' :: dec02 tm.tmMin ++ ':' :: dec02 tm.tmSec ++
    ".000Z".toList

/-! ## Strings and numbers of a received message -/

/-- `!strcmp(p.property_name, s)`. -/
def Payload.named (p : Payload) (s : String) : Bool := cstr p.propertyName = s.toList

/-- `!strcmp(p.property_contants, s)`. -/
def Payload.holds (p : Payload) (s : String) : Bool := cstr p.propertyContants = s.toList

/-- `(uint64_t)pow(10, k)`. Powers up to `10^19` are exact in a `double` and fit; from
`10^20` on the conversion is out of range and the run-time routine saturates. -/
def pow10 (k : Nat) : UInt64 :=
  if k ≤ 19 then UInt64.ofNat (10 ^ k) else UInt64.ofNat (2 ^ 64 - 1)

/-- The loop of `String2Integer` over a string: digits are weighted by their position,
other characters are passed over but keep theirs. -/
def string2IntegerLoop : List Char → UInt64
  | [] => 0
  | c :: cs =>
    (if c.isDigit then (UInt64.ofNat c.toNat - 48) * pow10 cs.length else 0) +
      string2IntegerLoop cs

/-- `String2Integer`. -/
def string2Integer (s : List Char) : UInt64 := string2IntegerLoop (cstr s)

/-- What a card number field shows to the server: its first 16 characters. -/
def idTag16 (cardNo : List Char) : List Char := (cstr cardNo).take 16

end ChargePoint
