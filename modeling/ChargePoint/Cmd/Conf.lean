import ChargePoint.Cmd.Build
import ChargePoint.Lib.Loop

/-!
# `DataProcCmd_…` for the answers to our own CALLs

One handler per charge-point action. A handler reads the received message and the CALL
it answers (`Call_Tx_Msg`) and changes the charger; the buffers and the wait flag are out
of its reach.

What is left out is what no function here reads back: the unit price, the member type
and the amounts a DataTransfer answer carries, and the setting of the clock (the time of
day enters the model as an input of every step).
-/

set_option autoImplicit false

namespace ChargePoint

open CStr Loop

/-- `for (i = 0; i <= Payload_len; i++)` over the top-level properties. -/
def forProps (rx : RxBuf) {σ : Type} (body : Payload → σ → Option σ) (s : σ) : Option σ :=
  forUpTo (fun i t => if i < payloadCap then body (rx.msg.payload i) t else none)
    (rx.msg.payloadLen + 1) s

/-- `for (j = 0; j <= p.subPayload_len; j++)` over `p.sub_Payload[j]`. -/
def forSubProps (rx : RxBuf) (p : Payload) {σ : Type} (body : Payload → σ → Option σ) (s : σ) :
    Option σ :=
  forUpTo (fun j t => (rx.deref p.subPayload j).bind fun q => body q t) (p.subPayloadLen + 1) s

/-! ## Authorize -/

/-- `memcpy(dst, s, strlen(s)+1)`: what stood behind the terminator stays. -/
def copyStr (s dst : List Char) : List Char := cstr s ++ nul :: dst.drop ((cstr s).length + 1)

/-- `DataProcCmd_Auth`. A `parentIdTag` that does not fit `parentId[21]` is undefined. -/
def dataProcCmdAuth (rx : RxBuf) (c : Charger) : Option Charger :=
  let p := rx.msg.payload 0
  let c' :=
    if p.named "idTagInfo" then
      forSubProps rx p (fun q c =>
        if q.named "status" then
          if q.holds "Accepted" then some { c with cs := { c.cs with bReqMemberFlg := true } }
          else some { c with scene := { c.scene with appOrder := appOrderAuthMethod,
                                                     cardAuth := cardAuthFaild } }
        else if q.named "parentIdTag" then
          if (cstr q.propertyContants).length < 21 then
            some { c with cs := { c.cs with parentId := copyStr q.propertyContants c.cs.parentId } }
          else none
        else some c) c
    else some c
  c'.map fun c => { c with cs := { c.cs with bReqAuthNo := 0 } }

/-! ## BootNotification -/

/-- An accepted boot, for connector `i`: the availability bit decides, and a car that is
already plugged in makes it Preparing. -/
def bootAccept (c : Charger) (i : Fin 2) : Charger :=
  if c.chargingStatus &&& (1 <<< UInt32.ofNat i.val) ≠ 0 then
    let c := c.setCpStatus .avail i
    if 0 < i.val ∧ c.scene.cpStatChk then c.setCpStatus .prepare i else c
  else c.setCpStatus .unavail i

/-- Both statuses of both connectors, as a rejected or pending boot leaves them. -/
def bootHold (c : Charger) (code : CpStatus) : Charger :=
  ((((c.setCpStatus code 0).setPreCpStat code 0).setCpStatus code 1).setPreCpStat code 1)

/-- `DataProcCmd_Boot`. -/
def dataProcCmdBoot (rx : RxBuf) (c : Charger) : Option Charger :=
  forProps rx (fun p c =>
    if p.named "interval" then
      let v := (string2Integer p.propertyContants).toUInt32
      some (c.setCfgInt 5 (if v = 0 then 50 else v))
    else if p.named "status" then
      if p.holds "Accepted" then
        if (c.cs.bCpStat 0).notBooted then
          some { bootAccept (bootAccept c 0) 1 with bChargerCostCheck := 1 }
        else some c
      else if p.holds "Rejected" then some (bootHold c .none)
      else some (bootHold c .pend)
    else some c) c

/-! ## The others -/

/-- `DataProcCmd_HB`. -/
def dataProcCmdHb (c : Charger) : Charger := { c with ocppCpStsFlg := true }

/-- `DataProcCmd_MeterVal`. -/
def dataProcCmdMeterVal (c : Charger) : Charger := resetMeterValQ c

/-- `strtoull(s, NULL, base)` on a string that starts with a digit: base 0 reads the
prefix, 2 to 36 are bases, anything else is an error; too large saturates. -/
def strtoullDigits (base : Nat) : List Char → Nat → Nat
  | [], acc => acc
  | c :: cs, acc =>
    let d :=
      if c.isDigit then c.toNat - 48
      else if c.isLower then c.toNat - 87
      else if c.isUpper then c.toNat - 55
      else base
    if d < base then strtoullDigits base cs (acc * base + d) else acc

/-- An optional sign. -/
def signOf : List Char → Bool × List Char
  | '-' :: r => (true, r)
  | '+' :: r => (false, r)
  | r => (false, r)

/-- What follows a `0x` that stands before a hexadecimal digit. -/
def hexTail : List Char → Option (List Char)
  | '0' :: x :: h :: r =>
    if (x = 'x' ∨ x = 'X') ∧ (h.isDigit ∨ ('a' ≤ h ∧ h ≤ 'f') ∨ ('A' ≤ h ∧ h ≤ 'F')) then
      some (h :: r)
    else none
  | _ => none

/-- The whole of `strtoull`: white space, a sign and a `0x` are read as C reads them. -/
def strtoull (s : List Char) (base : Nat) : UInt64 :=
  let s := (cstr s).dropWhile fun c => c = ' ' ∨ ('\t' ≤ c ∧ c ≤ '\r')
  let (neg, s) := signOf s
  let (b, ds) : Nat × List Char :=
    if base = 0 then
      match hexTail s with
      | some r => (16, r)
      | none => (if s.head? = some '0' then 8 else 10, s)
    else if base = 16 then (16, (hexTail s).getD s)
    else (base, s)
  if b < 2 ∨ 36 < b then 0
  else
    let v := strtoullDigits b ds 0
    if 2 ^ 64 ≤ v then UInt64.ofNat (2 ^ 64 - 1)
    else if neg then 0 - UInt64.ofNat v else UInt64.ofNat v

/-- `DataProcCmd_StartTs`. The base handed to `strtoull` is the length of the string. -/
def dataProcCmdStartTs (rx : RxBuf) (c : Charger) : Option Charger :=
  forProps rx (fun p c =>
    if p.named "idTagInfo" then
      forSubProps rx p (fun q c =>
        if q.named "status" then
          some { c with startTsQ := { c.startTsQ with faultChargFlg := !q.holds "Accepted" } }
        else some c) c
    else if p.named "transactionId" then
      c.devConn.map fun d =>
        let v := strtoull p.propertyContants (cstr p.propertyContants).length
        { c with cs := { c.cs with bTrId := fun j => if j = d then v else c.cs.bTrId j } }
    else some c) { c with startTsQ := { c.startTsQ with reqStartTsFlg := false } }

/-- `DataProcCmd_Stat`: the status is read *now*, not from the CALL that was answered.
`callConn` is the `connectorId` text of `Call_Tx_Msg`. -/
def dataProcCmdStat (callConn : List Char) (c : Charger) : Option Charger :=
  (connIdx (string2Integer callConn).toUInt8.toNat).map fun i =>
    let c := c.setPreCpStat (c.cs.bCpStat i) i
    if c.bChargerCostCheck = 1 then { c with bChargerCostCheck := 2 } else c

/-- `1 << (MAX_CONECTOR_ID + 1)` of `chargingstatus`: a transaction is running. -/
def inTransBit : UInt32 := 4

/-- `DataProcCmd_StopTs`. -/
def dataProcCmdStopTs (c : Charger) : Option Charger :=
  let c := resetMeterValQ c
  c.devConn.map fun d =>
    let c :=
      if c.chargingStatus &&& inTransBit ≠ 0 ∧ c.stopTsConfig.stopReason = stopReasonPower then
        c.setCpStatus .avail d
      else if c.cs.bCpStat d = .avail then c
      else c.setCpStatus .fnish d
    { c with
        cs := { c.cs with bReqStopTsFlg := false, bReqChargeAmtFlg := true }
        chargingStatus := c.chargingStatus &&& ~~~inTransBit
        scene := { c.scene with chargeCompStatus := endNone } }

/-- **`Rx_CallRes_DataProc`**: the handler of the action the answer was given. -/
def rxCallResDataProc (rx : RxBuf) (callMsg : TxMsg) (c : Charger) : Option Charger :=
  match rx.msg.actionCode with
  | .cp .auth => dataProcCmdAuth rx c
  | .cp .boot => dataProcCmdBoot rx c
  | .cp .hb => some (dataProcCmdHb c)
  | .cp .meterVal => some (dataProcCmdMeterVal c)
  | .cp .startTs => dataProcCmdStartTs rx c
  | .cp .stat => dataProcCmdStat (callMsg.payload 0).propertyContants c
  | .cp .stopTs => dataProcCmdStopTs c
  | .cp .dataTrans | .cp .diagStat | .cp .fwStat | .cp .none => some c
  | .cs _ => some c

end ChargePoint
