import ChargePoint.Ida.Frame
import ChargePoint.Secc.Vas

/-!
# Battery data from the IDA modem

The battery data of a vehicle comes as a list of tagged values, A1 to A8, from the IDA modem
(`CMD_SENDKERID`) or out of the registers of the SECC (`vasParsFunc`). Both decoders read the same
places. They part where a list is empty: the IDA handler sets a length inside the loop that copies
the list, so an empty list leaves the length that the record had before.
-/

set_option autoImplicit false

namespace ChargePoint

/-! ## The data -/

/-- `ACK_CODE`. -/
def ackCode : UInt8 := 0x06

/-- `IDA_KERI_DATA`. -/
structure IdaKeriData where
  timeStamp : UInt32
  vin : Bytes 17
  soc : UInt16
  soh : UInt8
  packCurr : UInt16
  packVolt : UInt16
  cellVolt : Bytes 192
  cellVoltLen : UInt8
  modulTemp : Bytes 20
  modulTempLen : UInt8

/-- `IDA_VAS_RAW_DATA`. -/
structure IdaVasRawData where
  dataLenth : UInt16
  data : Bytes 1024

/-- What the handler keeps. -/
structure IdaStore where
  /-- `IdaTxDataForm` -/
  txForm : IdaDataForm
  /-- `IdaKeriData` -/
  keriData : Nat → IdaKeriData
  /-- `idaVasRawData` -/
  rawData : Nat → IdaVasRawData
  /-- `IdaKeriData_idx` -/
  idx : UInt8

def IdaKeriData.zero : IdaKeriData := ⟨0, .zero 17, 0, 0, 0, 0, .zero 192, 0, .zero 20, 0⟩

def IdaStore.zero : IdaStore := ⟨.zero, fun _ => .zero, fun _ => ⟨0, .zero 1024⟩, 0⟩

/-! ## The handler -/

/-- The bytes of `Data8`. -/
def IdaDataForm.data (f : IdaDataForm) : Bytes 512 :=
  ⟨f.body.drop 3, by rw [List.length_drop, f.length_body]; rfl⟩

/-- A tagged value that must be there: `Lenth16` at least `lenth`, `tag` in byte `at`, and `len` in
the byte after it. -/
structure KeridTag where
  lenth : Nat
  pos : Nat
  tag : UInt8
  len : UInt8

/-- The values of a fixed length, in the order they are tested. -/
def keridTags : List KeridTag :=
  [ ⟨7, 0, 0xA1, 0x04⟩, ⟨7 + 19, 6, 0xA2, 0x11⟩, ⟨7 + 19 + 3, 25, 0xA3, 0x01⟩,
    ⟨7 + 19 + 3 + 3, 28, 0xA4, 0x01⟩, ⟨7 + 19 + 3 + 3 + 4, 31, 0xA5, 0x02⟩,
    ⟨7 + 19 + 3 + 3 + 4 + 4, 35, 0xA6, 0x02⟩ ]

namespace IdaDataForm
variable (f : IdaDataForm)

/-- The tests on one of them. -/
def hasTag (t : KeridTag) : Bool :=
  if f.lenth16.toNat < t.lenth then false
  else if f.data.byte t.pos ≠ t.tag then false
  else if f.data.byte (t.pos + 1) ≠ t.len then false
  else true

/-- `id_tmp`, the number of cell voltages. -/
def idTmp : UInt16 := (f.data.byte 40).toUInt16 * 0x100 + (f.data.byte 41).toUInt16

/-- `id_tmp1`, the number of module temperatures. -/
def idTmp1 : UInt8 := f.data.byte (43 + f.idTmp.toNat)

/-- All the tests of `CMD_SENDKERID`. -/
def validKerid : Bool :=
  if ¬ keridTags.all f.hasTag then false
  else if f.lenth16.toNat < 7 + 19 + 3 + 3 + 4 + 4 + 3 then false
  else if f.data.byte 39 ≠ 0xA7 then false
  else if 192 < f.idTmp then false
  else if f.lenth16.toNat < 7 + 19 + 3 + 3 + 4 + 4 + 3 + f.idTmp.toNat then false
  else if f.lenth16.toNat < 7 + 19 + 3 + 3 + 4 + 4 + 3 + f.idTmp.toNat + 2 then false
  else if f.data.byte (42 + f.idTmp.toNat) ≠ 0xA8 then false
  else if 20 < f.idTmp1 then false
  else if f.lenth16.toNat < 7 + 19 + 3 + 3 + 4 + 4 + 3 + f.idTmp.toNat + 2 + f.idTmp1.toNat then false
  else true

end IdaDataForm

/-- The decoding, with the lists cut to what the arrays hold. The lengths are set in the loops that
copy the lists. -/
def decodeKerid (des : IdaKeriData) (f : IdaDataForm) (hcell : f.idTmp.toNat ≤ 192)
    (htemp : f.idTmp1.toNat ≤ 20) : IdaKeriData where
  timeStamp := (f.data.byte 2).toUInt32 * 0x1000000 + (f.data.byte 3).toUInt32 * 0x10000 +
    (f.data.byte 4).toUInt32 * 0x100 + (f.data.byte 5).toUInt32
  vin := des.vin.put 0 (f.data.slice 8 17) (by
    have := f.data.length_slice_le 8 17
    omega)
  soc := (f.data.byte 27).toUInt16
  soh := f.data.byte 30
  packCurr := (f.data.byte 33).toUInt16 * 0x100 + (f.data.byte 34).toUInt16
  packVolt := (f.data.byte 37).toUInt16 * 0x100 + (f.data.byte 38).toUInt16
  cellVoltLen := if f.idTmp = 0 then des.cellVoltLen else f.idTmp.toUInt8
  cellVolt := des.cellVolt.put 0 (f.data.slice 42 f.idTmp.toNat) (by
    have := f.data.length_slice_le 42 f.idTmp.toNat
    omega)
  modulTempLen := if f.idTmp1 = 0 then des.modulTempLen else f.idTmp1
  modulTemp := des.modulTemp.put 0 (f.data.slice (44 + f.idTmp.toNat) f.idTmp1.toNat) (by
    have := f.data.length_slice_le (44 + f.idTmp.toNat) f.idTmp1.toNat
    omega)

namespace IdaStore
variable (s : IdaStore)

/-- The oldest record makes room, if there is none left. -/
def room : IdaStore :=
  if 29 < s.idx then
    { s with keriData := fun i => if i < 29 then s.keriData (i + 1) else s.keriData i, idx := 29 }
  else s

/-- **`CMD_SENDKERID`** of `ParsRxData`. What it copies to the raw data must lie within `Data8`. -/
def sendKerid (f : IdaDataForm) : Option (Bool × IdaStore) :=
  if f.validKerid then
    let s := s.room
    let i := s.idx.toNat
    let dataLenth := f.lenth16 - 6
    if h : f.idTmp.toNat ≤ 192 ∧ f.idTmp1.toNat ≤ 20 ∧ 6 + dataLenth.toNat ≤ 512 then
      some (true, { s with
        keriData := Function.update s.keriData i (decodeKerid (s.keriData i) f h.1 h.2.1)
        rawData := Function.update s.rawData i
          ⟨dataLenth, (s.rawData i).data.put 0 (f.data.slice 6 dataLenth.toNat) (by
            have := f.data.length_slice_le 6 dataLenth.toNat
            omega)⟩
        txForm := s.txForm.store (bytes16 2 ++ [s.txForm.cmd8, ackCode]) (by
          simp [bytes16, idaFormSize])
        idx := s.idx + 1 })
    else none
  else some (false, s)

end IdaStore
end ChargePoint
