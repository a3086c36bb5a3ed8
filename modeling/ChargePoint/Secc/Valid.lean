import ChargePoint.Lib.Trace
import ChargePoint.Secc.Crc16

/-!
# Messages of the SECC

The requests to the SECC (`MakeReadTx`, `MakeWriteTx`) and `ValidSecc`, which puts a response
together from the chunks the serial line delivers and checks it.

`ValidSecc` gives a response two chunks. A chunk that is too short is kept in `pars_buf`, and
whatever comes next is taken to be the rest of it, so the assembly buffer never holds more than
one chunk: after the second it is empty, for good or ill. That is why a response that comes whole
is accepted at the latest the second time (`whole_empties`).
-/

set_option autoImplicit false

namespace ChargePoint

/-! ## The requests -/

/-- `CHRG_ID`, `FC_READ`, `FC_WRITE`. -/
def chrgId : UInt8 := 0x01
def fcRead : UInt8 := 0x04
def fcWrite : UInt8 := 0x10

/-- `Led2Bed16`. -/
def led2Bed16 (led16 : UInt16) : UInt16 :=
  ((led16 >>> 8) &&& (0xff : UInt16)) + ((led16 <<< 8) &&& (0xff00 : UInt16))

/-- The two bytes of a `uint16_t` in memory. -/
def bytes16 (x : UInt16) : List UInt8 := [x.toUInt8, (x >>> 8).toUInt8]

/-- `SECC_MODBUS_READ_TX_S`. -/
structure SeccModbusReadTx where
  id01 : UInt8
  funcCode : UInt8
  reqAddr : UInt16
  reqAddrLen : UInt16
  crc16 : UInt16

/-- `SECC_MODBUS_WRITE_TX_S`. -/
structure SeccModbusWriteTx where
  id01 : UInt8
  funcCode : UInt8
  reqAddr : UInt16
  reqAddrLen : UInt16
  dataLen : UInt8
  /-- the bytes of `Data16[127]` -/
  data16 : List UInt8
  crc16 : UInt16

/-- `MakeReadTx`. -/
def makeReadTx (addr16 addrLen16 : UInt16) : SeccModbusReadTx :=
  let head := [chrgId, fcRead] ++ bytes16 (led2Bed16 addr16) ++ bytes16 (led2Bed16 addrLen16)
  { id01 := chrgId, funcCode := fcRead, reqAddr := led2Bed16 addr16,
    reqAddrLen := led2Bed16 addrLen16, crc16 := led2Bed16 (tsctCrc16 head) }

/-- `MakeWriteTx`, which puts the message into `crc_tmp16[20]` to sum it up. -/
def makeWriteTx (tx : SeccModbusWriteTx) (addr16 addrLen16 : UInt16) : Option SeccModbusWriteTx :=
  let dataLen := (2 * addrLen16).toUInt8
  if 7 + dataLen.toNat ≤ 20 then
    let head := [chrgId, fcWrite] ++ bytes16 (led2Bed16 addr16) ++ bytes16 (led2Bed16 addrLen16) ++
      [dataLen]
    some { id01 := chrgId, funcCode := fcWrite, reqAddr := led2Bed16 addr16,
           reqAddrLen := led2Bed16 addrLen16, dataLen := dataLen, data16 := tx.data16,
           crc16 := led2Bed16 (tsctCrc16 (head ++ tx.data16.take dataLen.toNat)) }
  else none

/-! ## The assembly buffer -/

/-- `sizeof pars_buf`. -/
def parsBufCap : Nat := 512

/-- `pars_buf`. -/
structure ParsBuf where
  bytes : List UInt8
  length_bytes : bytes.length = parsBufCap

namespace ParsBuf

/-- `memset(Src, 0, 512)`. -/
def clear : ParsBuf := ⟨List.replicate parsBufCap 0, List.length_replicate⟩

/-- `Src[i]`. -/
def byte (b : ParsBuf) (i : Nat) : UInt8 := b.bytes.getD i 0

/-- `memcpy(&(Src[off]), chunk, size)`, within the buffer. -/
def memcpy (b : ParsBuf) (off : Nat) (chunk : List UInt8) (h : off + chunk.length ≤ parsBufCap) :
    ParsBuf where
  bytes := b.bytes.take off ++ chunk ++ b.bytes.drop (off + chunk.length)
  length_bytes := by
    simp only [List.length_append, List.length_take, List.length_drop, b.length_bytes]
    omega

end ParsBuf

/-- What the two threads of the SECC share. -/
structure Secc where
  /-- `pars_buf`, which is `Src` -/
  src : ParsBuf
  dataContinSize : Nat
  readTx : SeccModbusReadTx
  writeTx : SeccModbusWriteTx
  /-- `SeccModbusReadRx.DataLen` -/
  dataLen : Nat

/-! ## `ValidSecc` -/

/-- How the size compares with the one the message should have. -/
inductive LenCheck
  | short | exact | long | badType
  deriving DecidableEq

/-- The length tests, which are made in both branches. A size below 5 is less than any
`Src[2] + 5`: the subtraction is done in `int`. -/
def lenCheck (src : ParsBuf) (size : Nat) : LenCheck :=
  if src.byte 1 = fcRead then
    if size < (src.byte 2).toNat + 5 then .short
    else if (src.byte 2).toNat + 5 < size then .long
    else .exact
  else if src.byte 1 = fcWrite then
    if size < 8 then .short
    else if 8 < size then .long
    else .exact
  else .badType

/-- What the first half of `ValidSecc` comes to. -/
inductive Assembled
  | no (s : Secc)
  /-- a message of this size -/
  | whole (s : Secc) (size : Nat)

namespace Secc
variable (s : Secc)

/-- The first half: into the buffer. A short chunk is kept; a second one is not. -/
def assemble (chunk : List UInt8) : Option Assembled :=
  if s.dataContinSize = 0 then
    if h : 0 + chunk.length ≤ parsBufCap then
      let s := { s with src := ParsBuf.clear.memcpy 0 chunk h }
      if chunk.length < 2 then some (.no { s with dataContinSize := chunk.length })
      else
        match lenCheck s.src chunk.length with
        | .short => some (.no { s with dataContinSize := chunk.length })
        | .exact => some (.whole s chunk.length)
        | .long | .badType => some (.no s)
    else none
  else if h : s.dataContinSize + chunk.length < parsBufCap then
    let size := s.dataContinSize + chunk.length
    let s := { s with src := s.src.memcpy s.dataContinSize chunk (Nat.le_of_lt h),
                      dataContinSize := 0 }
    match lenCheck s.src size with
    | .exact => some (.whole s size)
    | .short | .long | .badType => some (.no s)
  else some (.no { s with dataContinSize := 0 })

/-- The `uint16_t` that two bytes stand for: the first one low. -/
def src16 (hi lo : Nat) : UInt16 :=
  (((s.src.byte hi).toUInt16 <<< 8) &&& (0xff00 : UInt16)) +
    ((s.src.byte lo).toUInt16 &&& (0xff : UInt16))

/-- The last test: the check sum. -/
def crcCheck (size : Nat) : Bool :=
  tsctCrc16 (s.src.bytes.take (size - 2)) = s.src16 (size - 2) (size - 1)

/-- The second half: the message against the requests. -/
def check (size : Nat) : Bool × Secc :=
  if size < 5 then (false, s)
  else if s.src.byte 0 ≠ chrgId then (false, s)
  else if s.src.byte 1 = fcRead then
    if s.readTx.funcCode ≠ s.src.byte 1 then (false, s)
    else if (led2Bed16 s.readTx.reqAddrLen).toNat * 2 ≠ (s.src.byte 2).toNat then (false, s)
    else if (s.src.byte 2).toNat ≠ size - 5 then (false, s)
    else
      let s := { s with dataLen := size - 5 }
      (s.crcCheck size, s)
  else if s.src.byte 1 = fcWrite then
    if s.writeTx.funcCode ≠ s.src.byte 1 then (false, s)
    else if s.writeTx.reqAddr ≠ s.src16 3 2 then (false, s)
    else if s.writeTx.reqAddrLen ≠ s.src16 5 4 then (false, s)
    else if 8 ≠ size then (false, s)
    else (s.crcCheck size, s)
  else (false, s)

/-- **`ValidSecc`**: whether it returns true, and the size it ends with. -/
def validSecc (chunk : List UInt8) : Option ((Bool × Nat) × Secc) :=
  (s.assemble chunk).map fun
    | .no s => ((false, chunk.length), s)
    | .whole s size => (((s.check size).1, size), (s.check size).2)

end Secc

/-! ## Runs -/

inductive SeccEvent
  | makeReadTx (addr16 addrLen16 : UInt16)
  /-- `SeccModbusWriteTx.Data16` is filled -/
  | setData (data16 : List UInt8)
  | makeWriteTx (addr16 addrLen16 : UInt16)
  /-- a chunk was read, and is not empty -/
  | chunk (chunk : List UInt8)

inductive SeccObs
  | readBuilt (addr16 addrLen16 : UInt16)
  | writeBuilt (addr16 addrLen16 : UInt16)
  /-- `ValidSecc` returned true; this is what `Src` holds -/
  | accepted (frame : List UInt8)

/-- **One step of the two threads.** -/
def seccStep (s : Secc) : SeccEvent → Option (Secc × List SeccObs)
  | .makeReadTx a n => some ({ s with readTx := makeReadTx a n }, [.readBuilt a n])
  | .setData d => some ({ s with writeTx := { s.writeTx with data16 := d } }, [])
  | .makeWriteTx a n =>
    (makeWriteTx s.writeTx a n).map fun tx => ({ s with writeTx := tx }, [.writeBuilt a n])
  | .chunk c => (s.validSecc c).map fun r =>
      (r.2, if r.1.1 then [.accepted (r.2.src.bytes.take r.1.2)] else [])

/-- The requests before the first one is built. -/
def SeccModbusReadTx.zero : SeccModbusReadTx := ⟨0, 0, 0, 0, 0⟩
def SeccModbusWriteTx.zero : SeccModbusWriteTx := ⟨0, 0, 0, 0, 0, [], 0⟩

/-- The start, with anything at all in the assembly buffer: `pars_buf` is a local, and a partial
chunk may have been left there. -/
def Secc.init (src : ParsBuf) (dataContinSize : Nat) : Secc where
  src := src
  dataContinSize := dataContinSize
  readTx := .zero
  writeTx := .zero
  dataLen := 0

/-- A run, from anything in the assembly buffer. -/
def SeccRun (s : Secc) (log : List SeccObs) : Prop :=
  ∃ src dataContinSize, Trace.Always seccStep (.init src dataContinSize) s log

end ChargePoint
