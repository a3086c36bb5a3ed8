import Mathlib.Logic.Function.Basic
import ChargePoint.Lib.Bytes
import ChargePoint.Secc.Valid

/-!
# The registers of the SECC

`ParsRxData` takes a response apart, register by register; the vehicle data (the registers from
32011 on) is read in blocks of `MAX_LEN` registers, which `ReadVasData` asks for and `vasParsFunc`
puts together in `vasDataBuf`. After the last block the data is summed up and decoded.

What would be read or written outside an array is `none`: a block that does not fit into the buffer,
a sum over more than the buffer, and a record at an index from 30 on, for which neither store has a
place. How far the index goes is the matter of `VasStore`.
-/

set_option autoImplicit false

namespace ChargePoint

/-! ## The data -/

/-- `MAX_LEN`. -/
def maxLen : Nat := 90

/-- `SECC_READ_DATA`, the registers that are read. -/
structure SeccReadData where
  ready : UInt16
  stcode : UInt16
  seccErrcode : UInt16
  swVer : UInt16
  chrgPrtcl : UInt16
  pwmduty : UInt16
  pwmvoltage : UInt16
  soc : UInt16
  vasMapCnt : UInt16
  vasEnable : UInt16
  vasStat : UInt16
  vasErrcd : UInt16
  vasRxCnt : UInt16
  vasChksum : UInt16
  vasLen : UInt16
  deriving DecidableEq

/-- `SECC_VAS_READ_DATA`. -/
structure SeccVasReadData where
  timeStamp : UInt32
  vin : Bytes 17
  soc : UInt8
  soh : UInt8
  batPackCurr : UInt16
  batPackVolt : UInt16
  batCellVolt : Bytes 65535
  cellVoltLen : UInt8
  batModulTemp : Bytes 255
  modulTempLen : UInt8

/-- `SECC_VAS_RAW_DATA`. -/
structure SeccVasRawData where
  dataLenth : UInt16
  data : Bytes 1024

def SeccVasReadData.zero : SeccVasReadData := ⟨0, .zero 17, 0, 0, 0, 0, .zero 65535, 0, .zero 255, 0⟩

/-- The places of `seccVasRxData` and of `seccVasRawData`. -/
def seccVasCap : Nat := 30

/-- What the SECC is known to say, and what has been read of the vehicle data. -/
structure SeccData where
  /-- `SeccRxData` -/
  rx : SeccReadData
  vasReadCd : UInt8
  /-- the bytes of `vasDataBuf[512]` -/
  vasDataBuf : Bytes 1024
  seccVasRxData : Nat → SeccVasReadData
  seccVasRawData : Nat → SeccVasRawData
  seccVasDataCnt : UInt8
  /-- `seccVasChargingData.soc` -/
  chargingSoc : UInt8

def SeccData.zero : SeccData where
  rx := ⟨0, 0, 0, 0, 0, 0, 0, 0, 0, 0, 0, 0, 0, 0, 0⟩
  vasReadCd := 0
  vasDataBuf := .zero 1024
  seccVasRxData := fun _ => .zero
  seccVasRawData := fun _ => ⟨0, .zero 1024⟩
  seccVasDataCnt := 0
  chargingSoc := 0

/-! ## The vehicle data -/

/-- The registers that are left when block `vasReadCd` is the next one. -/
def SeccData.vasLeft (s : SeccData) : Int :=
  s.rx.vasMapCnt.toNat - 10 - maxLen * (s.vasReadCd.toNat - 1)

/-- **`ReadVasData`**, by the address and the count that it gives `MakeReadTx`. -/
def SeccData.readVasData (s : SeccData) : UInt16 × UInt16 :=
  let addr := UInt16.ofInt (32011 + maxLen * (s.vasReadCd.toNat - 1))
  if (maxLen : Int) < s.vasLeft then (addr, UInt16.ofNat maxLen)
  else (addr, UInt16.ofInt s.vasLeft)

/-- The bytes the copy loop writes: two for each round, the second one first. -/
def swapWords (src8 : Bytes 1024) (size : Nat) : List UInt8 :=
  (List.range ((size + 1) / 2)).flatMap fun k => [src8.byte (2 * k + 1), src8.byte (2 * k)]

/-- `chkSumBuf`. -/
def vasSum (bs : List UInt8) : UInt8 := bs.foldl (· ^^^ ·) 0

/-- The decoding at the end of `vasParsFunc`. -/
def decodeVas (des : SeccVasReadData) (buf8 : Bytes 1024) : SeccVasReadData :=
  let cellVoltLen := ((buf8.byte 40).toUInt16 <<< 8 + (buf8.byte 41).toUInt16).toUInt8
  let modulTempLen := buf8.byte (43 + cellVoltLen.toNat)
  { timeStamp := (buf8.byte 2).toUInt32 <<< 24 + (buf8.byte 3).toUInt32 <<< 16 +
      (buf8.byte 4).toUInt32 <<< 8 + (buf8.byte 5).toUInt32
    vin := des.vin.put 0 (buf8.slice 8 17) (by
      have := buf8.length_slice_le 8 17
      omega)
    soc := buf8.byte 27
    soh := buf8.byte 30
    batPackCurr := (buf8.byte 33).toUInt16 <<< 8 + (buf8.byte 34).toUInt16
    batPackVolt := (buf8.byte 37).toUInt16 <<< 8 + (buf8.byte 38).toUInt16
    cellVoltLen := cellVoltLen
    batCellVolt := des.batCellVolt.put 0 (buf8.slice 42 cellVoltLen.toNat) (by
      have := buf8.length_slice_le 42 cellVoltLen.toNat
      have := cellVoltLen.toNat_lt
      omega)
    modulTempLen := modulTempLen
    batModulTemp := des.batModulTemp.put 0
      (buf8.slice (44 + cellVoltLen.toNat) modulTempLen.toNat) (by
        have := buf8.length_slice_le (44 + cellVoltLen.toNat) modulTempLen.toNat
        have := modulTempLen.toNat_lt
        omega) }

/-- The end of `vasParsFunc`: both stores get the data in `vasDataBuf`. -/
def SeccData.storeVas (s : SeccData) : Option SeccData :=
  let i := s.seccVasDataCnt.toNat
  let dataLenth := UInt16.ofInt ((s.rx.vasMapCnt.toNat - 10) * 2 - 6)
  if h : i < seccVasCap ∧ 6 + dataLenth.toNat ≤ 1024 then
    some { s with
      seccVasRxData := Function.update s.seccVasRxData i (decodeVas (s.seccVasRxData i) s.vasDataBuf)
      seccVasRawData := Function.update s.seccVasRawData i
        ⟨dataLenth, (s.seccVasRawData i).data.put 0 (s.vasDataBuf.slice 6 dataLenth.toNat) (by
          rw [Bytes.length_slice _ h.2]
          omega)⟩ }
  else none

/-- The check after the last block: is the sum right? -/
def SeccData.sumVas (s : SeccData) : Option Bool :=
  let n : Int := (s.rx.vasMapCnt.toNat - 10) * 2
  if 0 ≤ n ∧ n ≤ 1024 then
    some (decide ((vasSum (s.vasDataBuf.bytes.take n.toNat)).toUInt16 = s.rx.vasChksum))
  else none

/-- `vasParsFunc` on `SeccModbusReadRx` up to the decoding: the block is put in place, and the data
is summed up after the last one. Is it to be decoded? -/
def SeccData.readBlock (s : SeccData) (src8 : Bytes 1024) (size : UInt8) :
    Option (Bool × SeccData) :=
  let off : Int := maxLen * (s.vasReadCd.toNat - 1) * 2
  let words := swapWords src8 size.toNat
  if h : 0 ≤ off ∧ off.toNat + words.length ≤ 1024 then
    let left := s.vasLeft
    let s := { s with vasDataBuf := s.vasDataBuf.put off.toNat words h.2 }
    if (maxLen : Int) < left then some (false, { s with vasReadCd := s.vasReadCd + 1 })
    else
      let s := { s with vasReadCd := 0 }
      s.sumVas.map fun ok => (ok, s)
  else none

/-- **`vasParsFunc`.** -/
def SeccData.vasParsFunc (s : SeccData) (src8 : Bytes 1024) (size : UInt8) :
    Option (Bool × SeccData) :=
  (s.readBlock src8 size).bind fun r =>
    if r.1 then r.2.storeVas.map fun s => (true, s) else some (false, r.2)

/-! ## `ParsRxData` -/

/-- `case 32005`: new data is there. -/
def SeccData.setVasRxCnt (s : SeccData) (w : UInt16) : SeccData :=
  if s.rx.vasRxCnt ≠ w then
    let s := { s with rx := { s.rx with vasRxCnt := w } }
    if w ≠ 0 then { s with vasReadCd := 1 } else s
  else s

/-- The cases of the switch, each of which falls into the next one. -/
def rxCases : List (UInt16 × (SeccData → UInt16 → SeccData)) :=
  [ (30001, fun s w => { s with rx := { s.rx with ready := w } }),
    (30002, fun s w => { s with rx := { s.rx with stcode := w } }),
    (30003, fun s w => { s with rx := { s.rx with seccErrcode := w } }),
    (30004, fun s w => { s with rx := { s.rx with swVer := w } }),
    (30005, fun s w => { s with rx := { s.rx with chrgPrtcl := w } }),
    (30006, fun s w => { s with rx := { s.rx with pwmduty := w } }),
    (30007, fun s w => { s with rx := { s.rx with pwmvoltage := w } }),
    (30040, fun s w => { s with rx := { s.rx with soc := w } }),
    (32001, fun s w => { s with rx := { s.rx with vasMapCnt := w } }),
    (32002, fun s w => { s with rx := { s.rx with vasEnable := w } }),
    (32003, fun s w => { s with rx := { s.rx with vasStat := w } }),
    (32004, fun s w => { s with rx := { s.rx with vasErrcd := w } }),
    (32005, SeccData.setVasRxCnt),
    (32006, fun s _ => s),
    (32007, fun s _ => s),
    (32008, fun s _ => s),
    (32009, fun s w => { s with rx := { s.rx with vasChksum := w } }),
    (32010, fun s w => { s with rx := { s.rx with vasLen := w } }) ]

/-- `Led2Bed16(Data16[i])`. -/
def rxWord (data16 : Bytes 1024) (i : Nat) : UInt16 :=
  led2Bed16 ((data16.byte (2 * i)).toUInt16 + (data16.byte (2 * i + 1)).toUInt16 <<< 8)

/-- The cases from the one that matches on, until `tmp` is down to zero. -/
def fallThrough (data16 : Bytes 1024) (dataLen : UInt8) :
    List (UInt16 × (SeccData → UInt16 → SeccData)) → UInt8 → SeccData → Option SeccData
  | [], _, s => some s
  | c :: cs, tmp, s =>
    if tmp ≤ dataLen then
      let s := c.2 s (rxWord data16 ((dataLen.toNat - tmp.toNat) / 2))
      let tmp := tmp - 2
      if tmp = 0 then some s else fallThrough data16 dataLen cs tmp s
    else none

/-- The last part: a record was decoded. -/
def SeccData.countVas (s : SeccData) : SeccData :=
  let s := { s with chargingSoc := (s.seccVasRxData s.seccVasDataCnt.toNat).soc }
  if 29 < s.seccVasDataCnt then { s with seccVasDataCnt := 29 }
  else { s with seccVasDataCnt := s.seccVasDataCnt + 1 }

/-- **`ParsRxData`** on the response to the request for `addr`. -/
def SeccData.parsRxData (s : SeccData) (addr : UInt16) (data16 : Bytes 1024) (dataLen : UInt8) :
    Option SeccData :=
  (fallThrough data16 dataLen (rxCases.dropWhile fun c => c.1 ≠ addr) dataLen s).bind fun s =>
    if 32010 < addr then
      (s.vasParsFunc data16 dataLen).map fun r => if r.1 then r.2.countVas else r.2
    else some s

/-! ## What a block leaves alone -/

/-- Reading a block changes the buffer and the number of the block. -/
theorem readBlock_frame {s : SeccData} {src8 : Bytes 1024} {size : UInt8} {r : Bool × SeccData}
    (h : s.readBlock src8 size = some r) :
    ∃ buf cd, r.2 = { s with vasDataBuf := buf, vasReadCd := cd } := by
  unfold SeccData.readBlock at h
  dsimp only at h
  split at h
  · split at h
    · obtain rfl := Option.some.inj h
      exact ⟨_, _, rfl⟩
    · obtain ⟨ok, -, rfl⟩ := Option.map_eq_some_iff.mp h
      exact ⟨_, _, rfl⟩
  · cases h

/-- Storing a record changes one place of each store. -/
theorem storeVas_some {s s' : SeccData} (h : s.storeVas = some s') :
    s.seccVasDataCnt.toNat < seccVasCap ∧ ∃ raw, s' = { s with
      seccVasRxData := Function.update s.seccVasRxData s.seccVasDataCnt.toNat
        (decodeVas (s.seccVasRxData s.seccVasDataCnt.toNat) s.vasDataBuf)
      seccVasRawData := Function.update s.seccVasRawData s.seccVasDataCnt.toNat raw } := by
  unfold SeccData.storeVas at h
  dsimp only at h
  split at h
  · rename_i hfits
    obtain rfl := Option.some.inj h
    exact ⟨hfits.1, _, rfl⟩
  · cases h

/-- `vasParsFunc` has read a block, and has stored a record if it says so. -/
theorem vasParsFunc_some {s : SeccData} {src8 : Bytes 1024} {size : UInt8} {r : Bool × SeccData}
    (h : s.vasParsFunc src8 size = some r) :
    ∃ t, s.readBlock src8 size = some (r.1, t) ∧
      ((r.1 = true ∧ t.storeVas = some r.2) ∨ (r.1 = false ∧ r.2 = t)) := by
  obtain ⟨⟨ok, t⟩, hread, h⟩ := Option.bind_eq_some_iff.mp h
  cases ok with
  | true =>
    obtain ⟨t', hstore, rfl⟩ := Option.map_eq_some_iff.mp h
    exact ⟨t, hread, .inl ⟨rfl, hstore⟩⟩
  | false =>
    obtain rfl := Option.some.inj h
    exact ⟨t, hread, .inr ⟨rfl, rfl⟩⟩

end ChargePoint
