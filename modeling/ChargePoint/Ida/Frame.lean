import ChargePoint.Secc.Valid

/-!
# Messages of the IDA modem

The vehicle data comes over a second serial line, in packets: STX, the length (which counts the
command), the command, the data, a check sum, ETX. `MakeTx` and `SendBuff` build a packet,
`ValidIda` finds up to five in what one read delivers.

`ValidIda` copies a packet across the members of `IDA_DATA_FORM`, so a form is kept as the bytes
from `Lenth16` to the end of `Data8`, which lie one after the other. A fifth packet leaves the
loop at its end, where the function has no `return`: the value the caller then reads is `none`.

The buffer is one of plain `char`, and `ValidIda` adds up the two bytes of the length as they
promote. Whether a byte from 0x80 on is negative then is the compiler's choice, which the build makes
(`-fsigned-char`, `src/openrtos/def.cmake` 65); `PlainChar` has both, since the framing itself is
right with one of them only. Everywhere else the bytes are masked, compared with STX and ETX, or
go through `calcCRC`, which takes `unsigned char`.
-/

set_option autoImplicit false

namespace ChargePoint

/-- `crc16tab`. -/
def crc16tab : List UInt16 :=
  [
    0x0000, 0x1021, 0x2042, 0x3063, 0x4084, 0x50A5, 0x60C6, 0x70E7,
    0x8108, 0x9129, 0xA14A, 0xB16B, 0xC18C, 0xD1AD, 0xE1CE, 0xF1EF,
    0x1231, 0x0210, 0x3273, 0x2252, 0x52B5, 0x4294, 0x72F7, 0x62D6,
    0x9339, 0x8318, 0xB37B, 0xA35A, 0xD3BD, 0xC39C, 0xF3FF, 0xE3DE,
    0x2462, 0x3443, 0x0420, 0x1401, 0x64E6, 0x74C7, 0x44A4, 0x5485,
    0xA56A, 0xB54B, 0x8528, 0x9509, 0xE5EE, 0xF5CF, 0xC5AC, 0xD58D,
    0x3653, 0x2672, 0x1611, 0x0630, 0x76D7, 0x66F6, 0x5695, 0x46B4,
    0xB75B, 0xA77A, 0x9719, 0x8738, 0xF7DF, 0xE7FE, 0xD79D, 0xC7BC,
    0x48C4, 0x58E5, 0x6886, 0x78A7, 0x0840, 0x1861, 0x2802, 0x3823,
    0xC9CC, 0xD9ED, 0xE98E, 0xF9AF, 0x8948, 0x9969, 0xA90A, 0xB92B,
    0x5AF5, 0x4AD4, 0x7AB7, 0x6A96, 0x1A71, 0x0A50, 0x3A33, 0x2A12,
    0xDBFD, 0xCBDC, 0xFBBF, 0xEB9E, 0x9B79, 0x8B58, 0xBB3B, 0xAB1A,
    0x6CA6, 0x7C87, 0x4CE4, 0x5CC5, 0x2C22, 0x3C03, 0x0C60, 0x1C41,
    0xEDAE, 0xFD8F, 0xCDEC, 0xDDCD, 0xAD2A, 0xBD0B, 0x8D68, 0x9D49,
    0x7E97, 0x6EB6, 0x5ED5, 0x4EF4, 0x3E13, 0x2E32, 0x1E51, 0x0E70,
    0xFF9F, 0xEFBE, 0xDFDD, 0xCFFC, 0xBF1B, 0xAF3A, 0x9F59, 0x8F78,
    0x9188, 0x81A9, 0xB1CA, 0xA1EB, 0xD10C, 0xC12D, 0xF14E, 0xE16F,
    0x1080, 0x00A1, 0x30C2, 0x20E3, 0x5004, 0x4025, 0x7046, 0x6067,
    0x83B9, 0x9398, 0xA3FB, 0xB3DA, 0xC33D, 0xD31C, 0xE37F, 0xF35E,
    0x02B1, 0x1290, 0x22F3, 0x32D2, 0x4235, 0x5214, 0x6277, 0x7256,
    0xB5EA, 0xA5CB, 0x95A8, 0x8589, 0xF56E, 0xE54F, 0xD52C, 0xC50D,
    0x34E2, 0x24C3, 0x14A0, 0x0481, 0x7466, 0x6447, 0x5424, 0x4405,
    0xA7DB, 0xB7FA, 0x8799, 0x97B8, 0xE75F, 0xF77E, 0xC71D, 0xD73C,
    0x26D3, 0x36F2, 0x0691, 0x16B0, 0x6657, 0x7676, 0x4615, 0x5634,
    0xD94C, 0xC96D, 0xF90E, 0xE92F, 0x99C8, 0x89E9, 0xB98A, 0xA9AB,
    0x5844, 0x4865, 0x7806, 0x6827, 0x18C0, 0x08E1, 0x3882, 0x28A3,
    0xCB7D, 0xDB5C, 0xEB3F, 0xFB1E, 0x8BF9, 0x9BD8, 0xABBB, 0xBB9A,
    0x4A75, 0x5A54, 0x6A37, 0x7A16, 0x0AF1, 0x1AD0, 0x2AB3, 0x3A92,
    0xFD2E, 0xED0F, 0xDD6C, 0xCD4D, 0xBDAA, 0xAD8B, 0x9DE8, 0x8DC9,
    0x7C26, 0x6C07, 0x5C64, 0x4C45, 0x3CA2, 0x2C83, 0x1CE0, 0x0CC1,
    0xEF1F, 0xFF3E, 0xCF5D, 0xDF7C, 0xAF9B, 0xBFBA, 0x8FD9, 0x9FF8,
    0x6E17, 0x7E36, 0x4E55, 0x5E74, 0x2E93, 0x3EB2, 0x0ED1, 0x1EF0 ]

/-- `calcCRC`. -/
def calcCRC (bs : List UInt8) : UInt16 :=
  bs.foldl (fun crc b =>
    crc <<< 8 ^^^ crc16tab.getD ((crc >>> 8 ^^^ b.toUInt16) &&& 0x00FF).toNat 0) 0

def headerSize : Nat := 0x07
def stxCode : UInt8 := 0x02
def etxCode : UInt8 := 0x03

/-- The bytes from `Lenth16` to the end of `Data8[512]`. -/
def idaFormSize : Nat := 515

/-- `IDA_DATA_FORM`. -/
structure IdaDataForm where
  stx8 : UInt8
  /-- `Lenth16`, `Cmd8`, `Data8` -/
  body : List UInt8
  crc16 : UInt16
  etx8 : UInt8
  length_body : body.length = idaFormSize

namespace IdaDataForm
variable (f : IdaDataForm)

def lenth16 : UInt16 := (f.body.getD 0 0).toUInt16 ||| (f.body.getD 1 0).toUInt16 <<< 8

def cmd8 : UInt8 := f.body.getD 2 0

def data8 : List UInt8 := f.body.drop 3

/-- `memcpy(&Lenth16, bs, …)`, or the members one by one. -/
def store (bs : List UInt8) (h : bs.length ≤ idaFormSize) : IdaDataForm :=
  { f with
      body := bs ++ f.body.drop bs.length
      length_body := by
        rw [List.length_append, List.length_drop, f.length_body]
        omega }

/-- All bytes from `Lenth16` on are `b`. -/
def filled (b : UInt8) : IdaDataForm :=
  ⟨0, List.replicate idaFormSize b, 0, 0, List.length_replicate⟩

def zero : IdaDataForm := filled 0

end IdaDataForm

/-! ## Sending -/

/-- **`MakeTx`** on a form whose data is in place. The check sum is over `2 + AddrLen16` bytes
from the length on, which must lie within `Data8`. -/
def makeTx (f : IdaDataForm) (addr8 : UInt8) (addrLen16 : UInt16) : Option IdaDataForm :=
  let f := { f.store (bytes16 addrLen16 ++ [addr8]) (by simp [bytes16, idaFormSize]) with
    stx8 := stxCode, etx8 := etxCode }
  if 2 + addrLen16.toNat ≤ idaFormSize then
    some { f with crc16 := calcCRC (f.body.take (2 + addrLen16.toNat)) }
  else none

/-- **`SendBuff`**: what it writes to the request. -/
def sendBuff (f : IdaDataForm) (buffLen : UInt8) : List UInt8 :=
  f.stx8 :: f.body.take 3 ++ f.data8.take buffLen.toNat ++ bytes16 f.crc16 ++ [f.etx8]

/-! ## Receiving -/

/-- The packets one read can deliver. -/
def idaPackets : Nat := 5

/-- What the reading thread keeps between two reads. -/
structure Ida where
  /-- `pars_buf`, which is `Src` -/
  src : ParsBuf
  dataContinSize : Nat
  /-- `IdaRxDataForm` -/
  rxForm : Nat → IdaDataForm

/-- Plain `char`, as the compiler has it. -/
inductive PlainChar
  /-- The build. -/
  | signed
  | unsigned

/-- A plain `char` as a `uint16_t` sum takes it. -/
def PlainChar.widen (ch : PlainChar) (b : UInt8) : UInt16 :=
  match ch with
  | .signed => if b < 0x80 then b.toUInt16 else b.toUInt16 + 0xFF00
  | .unsigned => b.toUInt16

/-- The search for STX from `i` on, over `k` bytes. -/
def findStx (src : ParsBuf) : Nat → Nat → Option Nat
  | _, 0 => none
  | i, k + 1 => if src.byte i = stxCode then some i else findStx src (i + 1) k

section Header
variable (ch : PlainChar) (src : ParsBuf) (stx : Nat)

/-- `data_length`. -/
def idaLength : UInt16 :=
  ch.widen (src.byte (stx + 1)) + ch.widen (src.byte (stx + 2)) * 0x100

/-- `end_idx`, a `uint16_t`. -/
def idaEnd : Nat :=
  (stx + (headerSize - 2) + (idaLength ch src stx).toNat) % 2 ^ 16

/-- `packet_len`, a `uint16_t`. -/
def idaPacketLen : Nat :=
  (headerSize - 1 + (idaLength ch src stx).toNat) % 2 ^ 16

/-- The check sum before `end_idx`. -/
def idaCrc : UInt16 :=
  (((src.byte (idaEnd ch src stx - 1)).toUInt16 <<< 8) &&& (0xff00 : UInt16)) +
    ((src.byte (idaEnd ch src stx - 2)).toUInt16 &&& (0xff : UInt16))

end Header

/-- The loop, from packet `i` on: the value returned, if the loop returns one, and
`IdaRxDataForm`. A copy or a read outside the buffer is undefined. -/
def packetLoop (ch : PlainChar) (src : ParsBuf) (size : Nat) :
    Nat → Nat → Nat → (Nat → IdaDataForm) → Option (Option Nat × (Nat → IdaDataForm))
  | 0, _, _, forms => some (none, forms)
  | k + 1, i, endIdx, forms =>
    match findStx src endIdx (size - endIdx) with
    | none => some (some i, forms)
    | some stx =>
      if size < stx + headerSize then some (some i, forms)
      else
        let endIdx := idaEnd ch src stx
        let packetLen := idaPacketLen ch src stx
        if size < endIdx + 1 then some (some i, forms)
        else if src.byte endIdx ≠ etxCode then some (some i, forms)
        -- the check sum is read before `end_idx`, and computed up to `packet_len - 4`
        else if endIdx < 2 ∨ parsBufCap < stx + 1 + (packetLen - 4) then none
        else if calcCRC ((src.bytes.drop (stx + 1)).take (packetLen - 4)) ≠ idaCrc ch src stx then
          some (some i, forms)
        else if h : 1 ≤ packetLen ∧ stx + packetLen ≤ parsBufCap then
          let form := (forms i).store ((src.bytes.drop (stx + 1)).take (packetLen - 1))
            (by simp only [List.length_take, idaFormSize, parsBufCap] at *; omega)
          packetLoop ch src size k (i + 1) endIdx fun j => if j = i then form else forms j
        else none

/-- **`ValidIda`** on the bytes a read delivered, of which there is at least one. -/
def validIda (ch : PlainChar) (s : Ida) (rxSrc : List UInt8) : Option (Option Nat × Ida) :=
  let size := rxSrc.length
  if s.dataContinSize = 0 then
    if h : 0 + size ≤ parsBufCap then
      let s := { s with src := ParsBuf.clear.memcpy 0 rxSrc h }
      if rxSrc.getLast? ≠ some etxCode then some (some 0, { s with dataContinSize := size })
      else (packetLoop ch s.src size idaPackets 0 0 s.rxForm).map fun r =>
        (r.1, { s with rxForm := r.2 })
    else none
  else if 516 < s.dataContinSize + size then some (some 0, { s with dataContinSize := 0 })
  else if rxSrc.getLast? ≠ some etxCode then some (some 0, { s with dataContinSize := 0 })
  else if h : s.dataContinSize + size ≤ parsBufCap then
    let total := s.dataContinSize + size
    let s := { s with src := s.src.memcpy s.dataContinSize rxSrc h, dataContinSize := 0 }
    (packetLoop ch s.src total idaPackets 0 0 s.rxForm).map fun r =>
      (r.1, { s with rxForm := r.2 })
  else none

end ChargePoint
