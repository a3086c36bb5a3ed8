import ChargePoint.Cmd.Conf

/-!
# `DataProcCmd_…` for the central system's CALLs

One handler per central-system action: it reads the received message, may change the
charger and prepares the answer in `Tx_Msg`. A handler returns both; like the handlers of
`Conf.lean` it cannot reach the connection, the wait flag or the CALL that is waited for.

Three kinds of C behaviour that the text of a handler does not show:

* **Uninitialised locals** (`ChangeAvailability`, `DataTransfer`) are inputs, in `Junk`.
* **Copies longer than their target.** `GetDiagnostics` and `UnlockConnector` copy
  `sizeof property_contants` (1024) bytes into `diagLogUrl[100]`, `UpdateFirmware` into
  `fwUpdateUrl[70]`. What such a copy does to the fields behind the target *in the same
  structure* is part of the model (`copyDiagLogUrl`, `dataProcCmdUpdateFw`); the variables
  behind the structure are not placed.
* **Silence.** Four actions have no handler. They leave `Tx_Msg` as it is, and the caller
  sends it.
-/

set_option autoImplicit false

namespace ChargePoint

open CStr Loop

/-- `RES_TYPE`. -/
inductive ResType
  | accept | pending | rejected | reboot | notSuppt | scheduled
  deriving DecidableEq, Repr

def ResType.text : ResType → List Char
  | .notSuppt => "NotSupported".toList
  | .rejected => "Rejected".toList
  | .scheduled => "Scheduled".toList
  | .accept | .pending | .reboot => "Accepted".toList

/-- The first lines of every answer: length, type, the id of the request. -/
def TxBuf.answer (tx : TxBuf) (rx : RxBuf) (len : Nat) : TxBuf :=
  { tx with msg := { tx.msg with payloadLen := len, msgType := msgTypeCallRes,
                                 uniqueIdChar := rx.msg.uniqueIdChar } }

/-- `MakeCallRes`. -/
def makeCallRes (ret : ResType) (rx : RxBuf) (tx : TxBuf) : TxBuf :=
  (tx.answer rx 1).setProp 0 "status".toList ret.text .str

/-- What the uninitialised locals of the handlers hold. -/
structure Junk where
  /-- `ret1 == RES_REJECTED`, `ret2 == RES_REJECTED` in `DataProcCmd_ChangeAvail` -/
  rejected1 : Bool
  rejected2 : Bool
  /-- `tmp_cntrId`, `bSetVal` -/
  cntrId : UInt8
  setVal : Bool
  /-- all of `tmp_str256` in `DataProcCmd_DataTransCs`, with any content -/
  str256 : List Char

/-! ## ChangeAvailability -/

/-- The locals of `DataProcCmd_ChangeAvail`. -/
structure ChangeAvailLocals where
  rejected1 : Bool
  rejected2 : Bool
  cntrId : UInt8
  setVal : Bool

/-- One property of the request. -/
def changeAvailProp (p : Payload) (l : ChangeAvailLocals) : ChangeAvailLocals :=
  if p.named "connectorId" then
    let id := (string2Integer p.propertyContants).toUInt8
    { l with cntrId := id, rejected1 := maxConectorId < id.toNat }
  else if p.named "type" then
    if p.holds "Inoperative" then { l with rejected2 := false, setVal := false }
    else if p.holds "Operative" then { l with rejected2 := false, setVal := true }
    else { l with rejected2 := true }
  else { l with rejected2 := true }

/-- Make connector `i` (un)available; a status that does not change is reported again. -/
def setAvail (c : Charger) (i : Fin 2) (setVal : Bool) : Charger :=
  let code : CpStatus := if setVal then .avail else .unavail
  let c := if c.cs.bCpStat i = code then c.setChgFlg i true else c
  c.setCpStatus code i

/-- `DataProcCmd_ChangeAvail`. -/
def dataProcCmdChangeAvail (j : Junk) (rx : RxBuf) (c : Charger) (tx : TxBuf) :
    Option (Charger × TxBuf) := do
  let l ← forProps rx (fun p l => some (changeAvailProp p l))
    ⟨j.rejected1, j.rejected2, j.cntrId, j.setVal⟩
  let rejected := l.rejected1 || l.rejected2 || c.scene.appOrder ≠ appOrderWait
  if rejected then return (c, makeCallRes .rejected rx tx)
  else if l.cntrId = 0 then
    let c := setAvail (setAvail c 0 l.setVal) 1 l.setVal
    let st := if l.setVal then c.chargingStatus ||| 3 else 0
    return ({ c with chargingStatus := st }, makeCallRes .accept rx tx)
  else
    let i ← connIdx l.cntrId.toNat
    let c := setAvail c i l.setVal
    let bit := (1 : UInt32) <<< UInt32.ofNat i.val
    let st := if l.setVal then c.chargingStatus ||| bit else c.chargingStatus &&& ~~~bit
    return ({ c with chargingStatus := st }, makeCallRes .accept rx tx)

/-! ## ChangeConfiguration -/

/-- A numeric key: anything that does not start with a minus is accepted. -/
def changeInt (n : Nat) (v : Payload) (c : Charger) : ResType × Charger :=
  if v.propertyContants.head? = some '-' then (.rejected, c)
  else (.accept, c.setCfgInt n (string2Integer v.propertyContants).toUInt32)

/-- A boolean key that rejects other words. -/
def changeBool (n : Nat) (v : Payload) (c : Charger) : ResType × Charger :=
  if v.holds "true" then (.accept, c.setCfgInt n 1)
  else if v.holds "false" then (.accept, c.setCfgInt n 0)
  else (.rejected, c)

/-- A boolean key that takes every other word for false. -/
def changeBoolLoose (n : Nat) (v : Payload) (c : Charger) : ResType × Charger :=
  (.accept, c.setCfgInt n (if v.holds "true" then 1 else 0))

/-- `LocalAuthListEnabled`: checked, and not stored. -/
def changeBoolUnstored (v : Payload) (c : Charger) : ResType × Charger :=
  if v.holds "true" ∨ v.holds "false" then (.accept, c) else (.rejected, c)

/-- The keys `DataProcCmd_ChangeConfig` knows, in its order. -/
def changeConfigKey (k v : Payload) (c : Charger) : ResType × Charger :=
  if k.holds "MeterValueSampleInterval" then changeInt 10 v c
  else if k.holds "ClockAlignedDataInterval" then changeInt 1 v c
  else if k.holds "LocalPreAuthorize" then changeBool 7 v c
  else if k.holds "AuthorizationCacheEnabled" then
    (if v.holds "true" then .notSuppt else .rejected, c)
  else if k.holds "ConnectionTimeOut" then changeInt 2 v c
  else if k.holds "AuthorizeRemoteTxRequests" then changeBoolLoose 0 v c
  else if k.holds "UnlockConnectorOnEVSideDisconnect" then changeBoolLoose 20 v c
  else if k.holds "StopTransactionOnEVSideDisconnect" then changeBoolLoose 13 v c
  else if k.holds "MinimumStatusDuration" then (.notSuppt, c)
  else if k.holds "LocalAuthorizeOffline" then changeBool 6 v c
  else if k.holds "LocalAuthListEnabled" then changeBoolUnstored v c
  else if k.holds "AllowOfflineTxForUnknownId" then changeBool 23 v c
  else if k.holds "StopTransactionOnInvalidId" then changeBool 14 v c
  else (.notSuppt, c)

/-- `DataProcCmd_ChangeConfig`: the key must come first. -/
def dataProcCmdChangeConfig (rx : RxBuf) (c : Charger) (tx : TxBuf) : Charger × TxBuf :=
  let k := rx.msg.payload 0
  let v := rx.msg.payload 1
  let r := if k.named "key" ∧ v.named "value" then changeConfigKey k v c else (.rejected, c)
  (r.2, makeCallRes r.1 rx tx)

/-! ## DataTransfer -/

/-- `parStep` while the number is looked for. -/
inductive CfgCntStep
  | word | colon | digit
  deriving DecidableEq

/-- The loop over the data text: `configCnt`, a colon, a number of one or two digits that
does not start with 0. -/
def cfgCntLoop : CfgCntStep → List Char → Option Nat
  | _, [] => none
  | .word, c :: cs =>
    cfgCntLoop (if "configCnt".toList.isPrefixOf (c :: cs) then .colon else .word) cs
  | .colon, c :: cs => cfgCntLoop (if c = ':' then .digit else .colon) cs
  | .digit, c :: cs =>
    if '0' < c ∧ c ≤ '9' then
      match cs with
      | d :: _ => if d.isDigit then some ((c.toNat - 48) * 10 + (d.toNat - 48))
                  else some (c.toNat - 48)
      | [] => some (c.toNat - 48)
    else cfgCntLoop .digit cs

/-- `DataProcCmd_DataTransCs`. -/
def dataProcCmdDataTransCs (j : Junk) (rx : RxBuf) (c : Charger) (tx : TxBuf) :
    Option (Charger × TxBuf) := do
  let (isCfg, text) ← forProps rx (fun p (l : Bool × List Char) =>
    if p.named "vendorId" then some l
    else if p.named "messageId" then
      some (l.1 || p.holds "BatteryInfoConfiguration", l.2)
    else if p.named "data" then
      let d := cstr p.propertyContants
      some (l.1, d ++ l.2.drop d.length)
    else some l) (false, j.str256)
  if isCfg then
    let (n, ret) : Nat × ResType := match cfgCntLoop .word (cstr text) with
      | some n => (n, .accept)
      | none => (c.cs.batInfoCfgCnt, .rejected)
    let (n, ret) : Nat × ResType := if 20 < n then (1, .rejected) else (n, ret)
    return ({ c with cs := { c.cs with batInfoCfgCnt := n } }, makeCallRes ret rx tx)
  else return (c, makeCallRes .rejected rx tx)

/-! ## GetConfiguration -/

/-- `WriteCfgKey`: the text of one key. Every key is of one of the three types. -/
def cfgKeyText (k : CfgKey) : List Char :=
  "\x7b\"key\":\"".toList ++ cstr k.cfgKeyName ++ "\",\"readonly\":".toList ++
    (if k.cfgKeyRw then "true" else "false").toList ++ ",\"value\":\"".toList ++
    (match k.cfgKeyType with
      | .bool => (if k.cfgKeyDataInt ≠ 0 then "true" else "false").toList
      | .int => dec k.cfgKeyDataInt.toNat
      | .str => cstr k.cfgKeyDataCha
      | _ => []) ++ "\"\x7d".toList

/-- The entry of `tx_sub_Payload` a key is written to. -/
def TxBuf.writeCfgKey (tx : TxBuf) (n : Nat) (k : CfgKey) : TxBuf :=
  { tx with sub := setAt tx.sub n { tx.sub n with propertyContants := cfgKeyText k } }

/-- `CfgKeyVal` searched by name. -/
def findCfgKey (c : Charger) (name : List Char) : Option CfgKey :=
  ((List.range maxCfg).map c.cfgKey).find? fun k => cstr k.cfgKeyName = name

/-- The loop over the requested keys, from key `n` on: how many were written, or `none`
in the second place at the first unknown one. -/
def getConfigLoop (rx : RxBuf) (c : Charger) : Nat → Nat → TxBuf → Option (TxBuf × Option Nat)
  | 0, n, tx => some (tx, some n)
  | k + 1, n, tx =>
    match rx.deref (rx.msg.payload 0).subPayload n with
    | none => none
    | some q =>
      match findCfgKey c (cstr q.propertyContants) with
      | some key => getConfigLoop rx c k (n + 1) (tx.writeCfgKey n key)
      | none => some (tx, none)

/-- The answer to an unknown key. -/
def TxBuf.unknownKey (tx : TxBuf) : TxBuf :=
  (tx.setName 0 "unknownKey".toList).setContants 0 "\"Unknow Key\"".toList

/-- The head of a list of keys: entry 0 is an array over `tx_sub_Payload` of `n` items. -/
def TxBuf.keyList (tx : TxBuf) (n : Nat) : TxBuf :=
  tx.setPayload 0 { tx.msg.payload 0 with
    propertyName := "configurationKey".toList, subPayload := .tx, subPayloadLen := n }

/-- `DataProcCmd_GetConfig`. -/
def dataProcCmdGetConfig (rx : RxBuf) (c : Charger) (tx : TxBuf) : Option TxBuf :=
  let tx := (tx.answer rx 1).setType 0 .arr
  let p := rx.msg.payload 0
  if cstr p.propertyName = [] then
    let tx := (List.range maxCfg).foldl (fun tx i => tx.writeCfgKey i (c.cfgKey i)) tx
    some (tx.keyList maxCfg)
  else if p.named "key" then
    (getConfigLoop rx c (p.subPayloadLen + 1) 0 tx).map fun r =>
      match r.2 with
      | some n => r.1.keyList n
      | none => (r.1.keyList 0).unknownKey
  else some tx.unknownKey

/-! ## GetDiagnostics, UnlockConnector -/

/-- Byte `i` of a buffer. -/
def byteAt (s : List Char) (i : Nat) : Nat := (s.getD i nul).toNat % 256

/-- `memcpy(diagLogUrl, property_contants, 1024)`: 100 bytes into `diagLogUrl`, three into the
padding before an `enum`, four into `diagLogReqStep`, one each into `bReqMemberFlg` and
`bReqChargeAmtFlg`. The rest goes behind the structure, over whatever the linker has put there;
it is assumed that this is no variable of the model. -/
def copyDiagLogUrl (s : List Char) (c : Charger) : Charger :=
  { c with cs := { c.cs with
      diagLogUrl := s.take 100
      diagLogReqStep := byteAt s 103 + 256 * byteAt s 104 + 65536 * byteAt s 105 +
        16777216 * byteAt s 106
      bReqMemberFlg := byteAt s 107 ≠ 0
      bReqChargeAmtFlg := byteAt s 108 ≠ 0 } }

/-- `DataProcCmd_GetDiag`. -/
def dataProcCmdGetDiag (rx : RxBuf) (c : Charger) (tx : TxBuf) : Option (Charger × TxBuf) := do
  let c ← forProps rx (fun p c =>
    if p.named "location" then
      let c := copyDiagLogUrl p.propertyContants c
      some { c with cs := { c.cs with diagLogReqStep := diagStatUpload } }
    else some c) c
  return (c, (tx.answer rx 1).setProp 0 "fileName".toList "Cs0000000002_1.txt".toList .str)

/-- `DataProcCmd_UnlockConnect`. -/
def dataProcCmdUnlockConnect (rx : RxBuf) (c : Charger) (tx : TxBuf) :
    Option (Charger × TxBuf) := do
  let c ← forProps rx (fun p c =>
    if p.named "connectorId" then some (copyDiagLogUrl p.propertyContants c) else some c) c
  return (c, makeCallRes .notSuppt rx tx)

/-! ## Remote start and stop, reset -/

/-- `DataProcCmd_RmStart`. `bCntrNo` is an `int`; `GetCpStatus` takes its low byte. -/
def dataProcCmdRmStart (rx : RxBuf) (c : Charger) (tx : TxBuf) : Option (Charger × TxBuf) := do
  let (idTagFlg, cntrNo, c) ← forProps rx (fun p (l : Bool × UInt32 × Charger) =>
    let l := if p.named "idTag" then
      (true, l.2.1, { l.2.2 with scene :=
        { l.2.2.scene with cardNo := p.propertyContants.take 21 } }) else l
    let l := if p.named "connectorId" then
      (l.1, (string2Integer p.propertyContants).toUInt32, l.2.2) else l
    some l) (false, 1, c)
  if idTagFlg then
    let i ← connIdx cntrNo.toUInt8.toNat
    if c.cs.bCpStat i ≠ .charging ∧ 0 < cntrNo ∧ cntrNo < 2147483648 ∧
        c.scene.appOrder ≤ appOrderKakaoQr then
      return ({ c with cs := { c.cs with bReqRmtStartTsNo := cntrNo.toUInt8.toNat } },
        makeCallRes .accept rx tx)
    else return (c, makeCallRes .rejected rx tx)
  else return (c, makeCallRes .rejected rx tx)

/-- `DataProcCmd_RmStopTr`. -/
def dataProcCmdRmStopTr (rx : RxBuf) (c : Charger) (tx : TxBuf) : Option (Charger × TxBuf) :=
  let p := rx.msg.payload 0
  if p.named "transactionId" then
    c.devConn.map fun d =>
      if string2Integer p.propertyContants = c.cs.bTrId d ∧
          (c.cs.bCpStat d = .charging ∨ c.cs.bCpStat d = .suspendedEv) then
        ({ c with cs := { c.cs with bReqRmtStopTsFlg := true } }, makeCallRes .accept rx tx)
      else (c, makeCallRes .rejected rx tx)
  else some (c, makeCallRes .rejected rx tx)

/-- `DataProcCmd_Reset`. -/
def dataProcCmdReset (rx : RxBuf) (c : Charger) (tx : TxBuf) : Charger × TxBuf :=
  let p := rx.msg.payload 0
  if p.named "type" ∧ p.holds "Hard" then
    ({ c with cs := { c.cs with bReqResetNo := 2 } }, makeCallRes .accept rx tx)
  else if p.named "type" ∧ p.holds "Soft" then
    ({ c with cs := { c.cs with bReqResetNo := 1 } }, makeCallRes .accept rx tx)
  else (c, makeCallRes .rejected rx tx)

/-! ## TriggerMessage, UpdateFirmware -/

/-- The message a TriggerMessage asks for. -/
def trigMsgOf (p : Payload) (old : TrigMsgStat) : TrigMsgStat :=
  if p.holds "BootNotification" then .boot
  else if p.holds "DiagnosticsStatusNotification" then .diag
  else if p.holds "FirmwareStatusNotification" then .fw
  else if p.holds "Heartbeat" then .hb
  else if p.holds "MeterValues" then .meter
  else if p.holds "StatusNotification" then .stat
  else old

/-- `DataProcCmd_TriggerMsg`. -/
def dataProcCmdTriggerMsg (rx : RxBuf) (c : Charger) (tx : TxBuf) : Option (Charger × TxBuf) := do
  let (trig, cntrId) ← forProps rx (fun p (l : TrigMsgStat × UInt8) =>
    if p.named "requestedMessage" then some (trigMsgOf p l.1, l.2)
    else if p.named "connectorId" then some (l.1, (string2Integer p.propertyContants).toUInt8)
    else some l) (.none, 0)
  if trig = .none ∨ ((trig = .stat ∨ trig = .meter) ∧ maxConectorId < cntrId.toNat) then
    return (c, makeCallRes .rejected rx tx)
  else
    return ({ c with cs := { c.cs with triggerMsgStat := trig } }, makeCallRes .accept rx tx)

/-- `DataProcCmd_UpdateFw`. A copied location reaches into `Time_Stamp`, which follows it. -/
def dataProcCmdUpdateFw (rx : RxBuf) (c : Charger) (tx : TxBuf) : Option (Charger × TxBuf) := do
  let fw ← forProps rx (fun p (fw : FwUpdate) =>
    let s := p.propertyContants
    let fw := if p.named "location" then
      { fw with fwUpdateUrl := s.take 70, timeStamp := (s.drop 70).take 50 } else fw
    let fw := if p.named "retrieveDate" then { fw with timeStamp := s.take 50 } else fw
    some { fw with updateStep := .chkDate }) c.fw
  return ({ c with fw := fw }, tx.answer rx 0)

/-! ## Dispatch -/

/-- `DataProcCmd_GetLocalListVer`. -/
def dataProcCmdGetLocalListVer (rx : RxBuf) (tx : TxBuf) : TxBuf :=
  (tx.answer rx 1).setProp 0 "listVersion".toList "-1".toList .int

/-- **`Rx_Call_DataProc`.** -/
def rxCallDataProc (cmd : CsReqAction) (j : Junk) (rx : RxBuf) (c : Charger) (tx : TxBuf) :
    Option (Charger × TxBuf) :=
  let tx := { tx with msg := { tx.msg with msgType := msgTypeCallRes } }
  match cmd with
  | .changeAvail => dataProcCmdChangeAvail j rx c tx
  | .changeConfig => some (dataProcCmdChangeConfig rx c tx)
  | .clearCache => some (c, makeCallRes .rejected rx tx)
  | .clearChargProf => some (c, makeCallRes .accept rx tx)
  | .dataTransfer => dataProcCmdDataTransCs j rx c tx
  | .getConfig => (dataProcCmdGetConfig rx c tx).map fun tx => (c, tx)
  | .getDiag => dataProcCmdGetDiag rx c tx
  | .getLocalVer => some (c, dataProcCmdGetLocalListVer rx tx)
  | .remoteStart => dataProcCmdRmStart rx c tx
  | .remoteStop => dataProcCmdRmStopTr rx c tx
  | .reset => some (dataProcCmdReset rx c tx)
  | .sndLocalList => some (c, makeCallRes .notSuppt rx tx)
  | .triggerMsg => dataProcCmdTriggerMsg rx c tx
  | .unlockConnect => dataProcCmdUnlockConnect rx c tx
  | .updateFw => dataProcCmdUpdateFw rx c tx
  | .none | .cancelReseve | .getCompositSched | .reserve | .setChgProfile => some (c, tx)

end ChargePoint
