import ChargePoint.Lib.CStr

/-!
# Messages

The two message buffers of the client, `Tx_Msg` and `Rx_Msg`, with the side tables
their nested payloads point into.

Three representation decisions, made once here:

* **An array is a function on its index.** `Payload[10]`, `sub_Payload1[30]` and the
  rest are `Nat → Payload`; whoever uses an index that only received data can
  choose checks it against the capacity first. The capacities stand beside the
  structures below.
* **A pointer into a static table is the name of the table** (`SubPtr`). The code
  takes no other pointer to a payload, so nothing is lost.
* **An action code is an action of a table.** The source keeps one `uint8_t` for
  both directions; `Tx_Msg` only ever holds charge-point actions, `Rx_Msg` holds a
  charge-point action (an answer) or a central-system action (a request), so the
  message structure takes the type of its action.
-/

set_option autoImplicit false

namespace ChargePoint

open CStr

/-! ## Actions -/

/-- `CP_REQ_ACTION_CODE`: what the charge point asks of the central system. -/
inductive CpReqAction
  | none | auth | boot | dataTrans | diagStat | fwStat | hb | meterVal | startTs | stat | stopTs
  deriving DecidableEq, Repr

/-- `CS_REQ_ACTION_CODE`: what the central system asks of the charge point. -/
inductive CsReqAction
  | none | cancelReseve | changeAvail | changeConfig | clearCache | clearChargProf
  | dataTransfer | getCompositSched | getConfig | getDiag | getLocalVer | remoteStart
  | remoteStop | reserve | reset | sndLocalList | setChgProfile | triggerMsg
  | unlockConnect | updateFw
  deriving DecidableEq, Repr

/-- The action of a received message, indexed by the table its message type selects. -/
inductive RxAction
  | cp (a : CpReqAction)
  | cs (a : CsReqAction)
  deriving DecidableEq, Repr

/-- `cp_req_msg[]`. -/
def cpReqMsg : CpReqAction → List Char
  | .none => "NONE".toList
  | .auth => "Authorize".toList
  | .boot => "BootNotification".toList
  | .dataTrans => "DataTransfer".toList
  | .diagStat => "DiagnosticsStatusNotification".toList
  | .fwStat => "FirmwareStatusNotification".toList
  | .hb => "Heartbeat".toList
  | .meterVal => "MeterValues".toList
  | .startTs => "StartTransaction".toList
  | .stat => "StatusNotification".toList
  | .stopTs => "StopTransaction".toList

/-- `cs_req_msg[1..19]`, in the order `Parse_Header` searches it. -/
def csReqMsg : List (List Char × CsReqAction) :=
  [ ("CancelReservation".toList, .cancelReseve),
    ("ChangeAvailability".toList, .changeAvail),
    ("ChangeConfiguration".toList, .changeConfig),
    ("ClearCache".toList, .clearCache),
    ("ClearChargingProfile".toList, .clearChargProf),
    ("DataTransfer".toList, .dataTransfer),
    ("GetCompositeSchedule".toList, .getCompositSched),
    ("GetConfiguration".toList, .getConfig),
    ("GetDiagnostics".toList, .getDiag),
    ("GetLocalListVersion".toList, .getLocalVer),
    ("RemoteStartTransaction".toList, .remoteStart),
    ("RemoteStopTransaction".toList, .remoteStop),
    ("ReserveNow".toList, .reserve),
    ("Reset".toList, .reset),
    ("SendLocalList".toList, .sndLocalList),
    ("SetChargingProfile".toList, .setChgProfile),
    ("TriggerMessage".toList, .triggerMsg),
    ("UnlockConnector".toList, .unlockConnect),
    ("UpdateFirmware".toList, .updateFw) ]

/-! ## Payloads -/

/-- `TYPE_CODE`. -/
inductive TypeCode
  | str | int | arr | obj | bool | lite | objStr
  deriving DecidableEq, Repr

/-- The static tables a `sub_Payload` pointer can name. -/
inductive SubPtr
  | null | sub1 | sub2 | sub3 | tx
  deriving DecidableEq, Repr

/-- `PAYLOAD`: one property of a message. -/
structure Payload where
  dataType : TypeCode
  /-- `property_name[60]` -/
  propertyName : List Char
  /-- `property_contants[1024]` -/
  propertyContants : List Char
  /-- `uint8_t` -/
  subPayloadLen : Nat
  /-- `uint8_t` -/
  subPayloadArrLen : Nat
  subPayload : SubPtr
  /-- `DATATRANS_data[1024]` -/
  dataTransData : List Char
  deriving DecidableEq, Repr

/-- An entry after `memset(…, 0x00, …)`. -/
def Payload.zero : Payload := ⟨.str, [], [], 0, 0, .null, []⟩

/-- `PAYLOAD_LITE`, the entries of `subPayloadBat`. -/
structure PayloadLite where
  propertyName : List Char
  propertyContants : List Char
  deriving DecidableEq, Repr

def msgTypeCall : Nat := 2
def msgTypeCallRes : Nat := 3

/-- `MSG_STRUCT`, over the action type of its direction. -/
structure MsgStruct (Act : Type) where
  msgType : Nat
  uniqueId : UInt64
  /-- `UniqueID_Char[70]` -/
  uniqueIdChar : List Char
  actionCode : Act
  /-- Received: number of properties less one. To send: number of properties. -/
  payloadLen : Nat
  payload : Nat → Payload

/-- `sizeof Payload / sizeof Payload[0]` and its three nested tables. -/
def payloadCap : Nat := 10
def subPayloadCap : Nat := 30

abbrev TxMsg := MsgStruct CpReqAction
abbrev RxMsg := MsgStruct RxAction

/-- `Tx_Msg` with `tx_sub_Payload` and `subPayloadBat`. -/
structure TxBuf where
  msg : TxMsg
  sub : Nat → Payload
  bat : Nat → PayloadLite

/-- `Rx_Msg` with `sub_Payload1`, `sub_Payload2` and `sub_Payload3`. -/
structure RxBuf where
  msg : RxMsg
  sub1 : Nat → Payload
  sub2 : Nat → Payload
  sub3 : Nat → Payload

/-- `Payload[i] = p`, for any of the tables. -/
def setAt (t : Nat → Payload) (i : Nat) (p : Payload) : Nat → Payload :=
  fun j => if j = i then p else t j

@[simp] theorem setAt_same (t : Nat → Payload) (i : Nat) (p : Payload) : setAt t i p i = p := by
  simp [setAt]

theorem setAt_ne {t : Nat → Payload} {i j : Nat} {p : Payload} (h : j ≠ i) :
    setAt t i p j = t j := by
  simp [setAt, h]

/-- The messages as they are before the client starts. -/
def TxMsg.zero : TxMsg := ⟨0, 0, [], .none, 0, fun _ => .zero⟩
def RxMsg.zero : RxMsg := ⟨0, 0, [], .cp .none, 0, fun _ => .zero⟩
def TxBuf.zero : TxBuf := ⟨TxMsg.zero, fun _ => .zero, fun _ => ⟨[], []⟩⟩

/-- `Clear_Rx_Msg_Buff`. -/
def clearRxMsgBuff : RxBuf := ⟨RxMsg.zero, fun _ => .zero, fun _ => .zero, fun _ => .zero⟩

/-- The table a received entry's `sub_Payload` names. A null pointer is not read:
the element is undefined, and so is one past the table. -/
def RxBuf.deref (rx : RxBuf) (p : SubPtr) (i : Nat) : Option Payload :=
  if i < subPayloadCap then
    match p with
    | .sub1 => some (rx.sub1 i)
    | .sub2 => some (rx.sub2 i)
    | .sub3 => some (rx.sub3 i)
    | .null | .tx => Option.none
  else Option.none

/-! ## Writing a property to send -/

namespace TxBuf

def setPayload (tx : TxBuf) (i : Nat) (p : Payload) : TxBuf :=
  { tx with msg := { tx.msg with payload := setAt tx.msg.payload i p } }

/-- Set the name of entry `i`: `memset` then `memcpy` of the literal. -/
def setName (tx : TxBuf) (i : Nat) (name : List Char) : TxBuf :=
  tx.setPayload i { tx.msg.payload i with propertyName := name }

def setContants (tx : TxBuf) (i : Nat) (val : List Char) : TxBuf :=
  tx.setPayload i { tx.msg.payload i with propertyContants := val }

def setType (tx : TxBuf) (i : Nat) (t : TypeCode) : TxBuf :=
  tx.setPayload i { tx.msg.payload i with dataType := t }

/-- The recurring block of the builders: name, contents and data type of entry `i`. -/
def setProp (tx : TxBuf) (i : Nat) (name val : List Char) (t : TypeCode) : TxBuf :=
  ((tx.setName i name).setContants i val).setType i t

def setLen (tx : TxBuf) (n : Nat) : TxBuf := { tx with msg := { tx.msg with payloadLen := n } }

end TxBuf

end ChargePoint
