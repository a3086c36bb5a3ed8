import ChargePoint.Ami.Meter
import ChargePoint.Secc.Acceptance

/-!
# The Modbus check sums

`TsctCrc16`, the `crc16` of the meter and `CalcuCRC16` are three functions for one check sum.
The first two keep it in two bytes with the low one in front, the third in a word, so what they
return differs by a swap. A list stands for the bytes a call reads; the length is a `uint16_t`
for the first two and an `int` for the third, and what is handed over fits both.
-/

set_option autoImplicit false

namespace ChargePoint

/-- `CRC16_TABLE`. -/
def crc16Table : List UInt16 :=
  [
    0x0000, 0xC0C1, 0xC181, 0x0140, 0xC301, 0x03C0, 0x0280, 0xC241,
    0xC601, 0x06C0, 0x0780, 0xC741, 0x0500, 0xC5C1, 0xC481, 0x0440,
    0xCC01, 0x0CC0, 0x0D80, 0xCD41, 0x0F00, 0xCFC1, 0xCE81, 0x0E40,
    0x0A00, 0xCAC1, 0xCB81, 0x0B40, 0xC901, 0x09C0, 0x0880, 0xC841,
    0xD801, 0x18C0, 0x1980, 0xD941, 0x1B00, 0xDBC1, 0xDA81, 0x1A40,
    0x1E00, 0xDEC1, 0xDF81, 0x1F40, 0xDD01, 0x1DC0, 0x1C80, 0xDC41,
    0x1400, 0xD4C1, 0xD581, 0x1540, 0xD701, 0x17C0, 0x1680, 0xD641,
    0xD201, 0x12C0, 0x1380, 0xD341, 0x1100, 0xD1C1, 0xD081, 0x1040,
    0xF001, 0x30C0, 0x3180, 0xF141, 0x3300, 0xF3C1, 0xF281, 0x3240,
    0x3600, 0xF6C1, 0xF781, 0x3740, 0xF501, 0x35C0, 0x3480, 0xF441,
    0x3C00, 0xFCC1, 0xFD81, 0x3D40, 0xFF01, 0x3FC0, 0x3E80, 0xFE41,
    0xFA01, 0x3AC0, 0x3B80, 0xFB41, 0x3900, 0xF9C1, 0xF881, 0x3840,
    0x2800, 0xE8C1, 0xE981, 0x2940, 0xEB01, 0x2BC0, 0x2A80, 0xEA41,
    0xEE01, 0x2EC0, 0x2F80, 0xEF41, 0x2D00, 0xEDC1, 0xEC81, 0x2C40,
    0xE401, 0x24C0, 0x2580, 0xE541, 0x2700, 0xE7C1, 0xE681, 0x2640,
    0x2200, 0xE2C1, 0xE381, 0x2340, 0xE101, 0x21C0, 0x2080, 0xE041,
    0xA001, 0x60C0, 0x6180, 0xA141, 0x6300, 0xA3C1, 0xA281, 0x6240,
    0x6600, 0xA6C1, 0xA781, 0x6740, 0xA501, 0x65C0, 0x6480, 0xA441,
    0x6C00, 0xACC1, 0xAD81, 0x6D40, 0xAF01, 0x6FC0, 0x6E80, 0xAE41,
    0xAA01, 0x6AC0, 0x6B80, 0xAB41, 0x6900, 0xA9C1, 0xA881, 0x6840,
    0x7800, 0xB8C1, 0xB981, 0x7940, 0xBB01, 0x7BC0, 0x7A80, 0xBA41,
    0xBE01, 0x7EC0, 0x7F80, 0xBF41, 0x7D00, 0xBDC1, 0xBC81, 0x7C40,
    0xB401, 0x74C0, 0x7580, 0xB541, 0x7700, 0xB7C1, 0xB681, 0x7640,
    0x7200, 0xB2C1, 0xB381, 0x7340, 0xB101, 0x71C0, 0x7080, 0xB041,
    0x5000, 0x90C1, 0x9181, 0x5140, 0x9301, 0x53C0, 0x5280, 0x9241,
    0x9601, 0x56C0, 0x5780, 0x9741, 0x5500, 0x95C1, 0x9481, 0x5440,
    0x9C01, 0x5CC0, 0x5D80, 0x9D41, 0x5F00, 0x9FC1, 0x9E81, 0x5E40,
    0x5A00, 0x9AC1, 0x9B81, 0x5B40, 0x9901, 0x59C0, 0x5880, 0x9841,
    0x8801, 0x48C0, 0x4980, 0x8941, 0x4B00, 0x8BC1, 0x8A81, 0x4A40,
    0x4E00, 0x8EC1, 0x8F81, 0x4F40, 0x8D01, 0x4DC0, 0x4C80, 0x8C41,
    0x4400, 0x84C1, 0x8581, 0x4540, 0x8701, 0x47C0, 0x4680, 0x8641,
    0x8201, 0x42C0, 0x4380, 0x8341, 0x4100, 0x81C1, 0x8081, 0x4040 ]

/-- One turn of the loop of `CalcuCRC16`. Whether a `char` has a sign makes no difference: the
index is masked. -/
def calcuStep (crc : UInt16) (data : UInt8) : UInt16 :=
  let x := crc ^^^ data.toUInt16
  crc >>> 8 ^^^ crc16Table.getD (x &&& (0x00ff : UInt16)).toNat 0

/-- **`CalcuCRC16`.** -/
def calcuCRC16 (data : List UInt8) : UInt16 := data.foldl calcuStep 0xffff

/-- `EM2P_REQ[6]` and `EM2P_REQ[7]`, which end a request to the meter. -/
def em2pCrc (crc : UInt16) : List UInt8 :=
  [((crc &&& (0xff00 : UInt16)) / 0x100).toUInt8, (crc &&& (0xff : UInt16)).toUInt8]

/-! ## The word table -/

/-- The word table holds the two byte tables, side by side. -/
theorem crc16Table_entry (i : Fin 256) : (crc16Table.getD i.val 0).toBitVec =
    crcRegister (tableCrcHi.getD i.val 0) (tableCrcLo.getD i.val 0) := by
  have hall : crc16Table.map UInt16.toBitVec = List.zipWith crcRegister tableCrcHi tableCrcLo := by
    decide +kernel
  rw [← getD_registers i.isLt, ← hall]
  exact (Crc.getD_map UInt16.toBitVec crc16Table i.val 0).symm

/-- **One turn takes in one byte.** -/
theorem calcuStep_byte (crc : UInt16) (b : UInt8) :
    (calcuStep crc b).toBitVec = Crc.byte (0xA001 : BitVec 16) crc.toBitVec b.toBitVec := by
  have hindex : ((crc ^^^ b.toUInt16) &&& (0x00ff : UInt16)).toNat =
      ((crc.toBitVec ^^^ b.toBitVec.setWidth 16).setWidth 8).toNat := toNat_low (crc ^^^ b.toUInt16)
  have hlt : ((crc ^^^ b.toUInt16) &&& (0x00ff : UInt16)).toNat < 256 := by
    rw [hindex]
    exact BitVec.isLt _
  have hentry := crc16Table_entry ⟨((crc ^^^ b.toUInt16) &&& (0x00ff : UInt16)).toNat, hlt⟩
  have hshift := table_shift ⟨((crc ^^^ b.toUInt16) &&& (0x00ff : UInt16)).toNat, hlt⟩
  have hlow : BitVec.ofNat 16 ((crc ^^^ b.toUInt16) &&& (0x00ff : UInt16)).toNat =
      ((crc.toBitVec ^^^ b.toBitVec.setWidth 16).setWidth 8).setWidth 16 := by
    rw [hindex]
    exact BitVec.ofNat_toNat ..
  have habove : (crc.toBitVec ^^^ b.toBitVec.setWidth 16) >>> 8 = crc.toBitVec >>> 8 := by
    apply BitVec.eq_of_getLsbD_eq
    intro i hi
    simp
  unfold Crc.byte
  rw [Crc.shift_split, habove, ← hlow, hshift, ← hentry]
  rfl

theorem calcuLoop_crc (crc : UInt16) (bs : List UInt8) :
    (bs.foldl calcuStep crc).toBitVec =
      Crc.crc (0xA001 : BitVec 16) crc.toBitVec (bs.map UInt8.toBitVec) := by
  induction bs generalizing crc with
  | nil => rfl
  | cons b bs ih =>
    rw [List.foldl_cons, List.map_cons, Crc.crc_cons, ih, calcuStep_byte]

/-- `CalcuCRC16` returns the check sum itself. -/
theorem calcuCRC16_eq (bs : List UInt8) : calcuCRC16 bs = ⟨crc16 bs⟩ :=
  UInt16.toBitVec_inj.mp (calcuLoop_crc 0xffff bs)

/-! ## The byte tables -/

/-- `TsctCrc16` returns it with its bytes swapped. -/
theorem tsctCrc16_eq (bs : List UInt8) : tsctCrc16 bs = led2Bed16 ⟨crc16 bs⟩ := by
  have hbytes := tsctCrc16Loop_eq bs
  unfold crcBytes at hbytes
  obtain ⟨hlow, hhigh⟩ : (⟨(crc16 bs).setWidth 8⟩ : UInt8) = (tsctCrc16Loop 0xFF 0xFF bs).1 ∧
      (⟨(crc16 bs >>> 8).setWidth 8⟩ : UInt8) = (tsctCrc16Loop 0xFF 0xFF bs).2 := by
    simpa using hbytes
  have hlowNat : (tsctCrc16Loop 0xFF 0xFF bs).1.toNat = (crc16 bs).toNat % 256 := by
    rw [← hlow]
    exact BitVec.toNat_setWidth ..
  have hhighNat : (tsctCrc16Loop 0xFF 0xFF bs).2.toNat = (crc16 bs).toNat / 256 := by
    have hlt := (crc16 bs).isLt
    rw [← hhigh]
    show ((crc16 bs >>> 8).setWidth 8).toNat = _
    rw [BitVec.toNat_setWidth, BitVec.toNat_ushiftRight, Nat.shiftRight_eq_div_pow]
    omega
  apply UInt16.toNat_inj.mp
  rw [tsctCrc16_toNat, led2Bed16_toNat, hlowNat, hhighNat]
  show _ = (crc16 bs).toNat / 256 + (crc16 bs).toNat % 256 * 256
  omega

/-! ## On the wire -/

theorem crcBytes_eq (bs : List UInt8) :
    (crcBytes bs).map UInt8.toBitVec = Crc.lowBytes 2 (crc16 bs) := rfl

/-- The SECC's requests carry the low byte of the check sum first, -/
theorem bytes16_tsctCrc16 (bs : List UInt8) :
    bytes16 (led2Bed16 (tsctCrc16 bs)) = crcBytes bs := by
  rw [tsctCrc16_eq, led2Bed16_led2Bed16]
  rfl

/-- and so do the meter's. -/
theorem em2pCrc_eq (crc : UInt16) : em2pCrc crc = bytes16 (led2Bed16 crc) := by
  have hlt := crc.toNat_lt
  have hswap := led2Bed16_toNat crc
  have hhigh : (crc.toNat &&& 0xff00) / 256 = crc.toNat / 256 := by
    have hdiv : (crc.toNat &&& 0xff00) / 256 = crc.toNat / 256 &&& 0xff :=
      Nat.and_div_two_pow (n := 8)
    have hmask : crc.toNat / 256 &&& 0xff = crc.toNat / 256 % 256 :=
      Nat.and_two_pow_sub_one_eq_mod _ 8
    rw [hdiv, hmask]
    omega
  have hlow : crc.toNat &&& 0xff = crc.toNat % 256 := Nat.and_two_pow_sub_one_eq_mod _ 8
  have htop : crc.toNat / 256 < 256 := by omega
  have hfirst : ((crc &&& (0xff00 : UInt16)) / 0x100).toUInt8 = (led2Bed16 crc).toUInt8 := by
    apply UInt8.toNat_inj.mp
    rw [UInt16.toNat_toUInt8, UInt16.toNat_toUInt8, hswap, UInt16.toNat_div, UInt16.toNat_and]
    show (crc.toNat &&& 0xff00) / 256 % 2 ^ 8 = _
    rw [hhigh]
    omega
  have hsecond : (crc &&& (0xff : UInt16)).toUInt8 = (led2Bed16 crc >>> 8).toUInt8 := by
    apply UInt8.toNat_inj.mp
    rw [UInt16.toNat_toUInt8, UInt16.toNat_toUInt8, UInt16.toNat_and, UInt16.toNat_shiftRight, hswap,
      Nat.shiftRight_eq_div_pow]
    show (crc.toNat &&& 0xff) % 256 = (crc.toNat / 256 + crc.toNat % 256 * 256) / 256 % 256
    rw [hlow, Nat.add_mul_div_right _ _ (by decide), Nat.div_eq_of_lt htop, Nat.zero_add]
  unfold em2pCrc bytes16
  rw [hfirst, hsecond]

/-- **A message with its check sum behind it has the check sum 0.** -/
theorem crc16_withCrc (bs : List UInt8) : crc16 (withCrc bs) = 0 := by
  unfold crc16 withCrc
  rw [List.map_append, Crc.crc_append, crcBytes_eq]
  show Crc.crc _ (crc16 bs) _ = _
  rw [Crc.crc_lowBytes]
  apply BitVec.eq_of_getLsbD_eq
  intro i hi
  simp

/-- **The three functions agree**: they return the bitwise check sum, the first two with its bytes
swapped, the requests end in what they return, and with that behind it a message has the check
sum 0. (`buffer_length` is a `uint16_t`, so what the code sums up are lists of at most 65535
bytes; the loops are the same at every length.) -/
theorem modbus_crcs_agree (bs : List UInt8) :
    tsctCrc16 bs = led2Bed16 ⟨crc16 bs⟩ ∧ Ami.crc16 bs = tsctCrc16 bs ∧
    led2Bed16 (calcuCRC16 bs) = tsctCrc16 bs ∧
    em2pCrc (Ami.crc16 bs) = bytes16 (led2Bed16 (tsctCrc16 bs)) ∧
    tsctCrc16 (bs ++ bytes16 (led2Bed16 (tsctCrc16 bs))) = 0 ∧
    Ami.crc16 (bs ++ em2pCrc (Ami.crc16 bs)) = 0 ∧
    calcuCRC16 (bs ++ bytes16 (led2Bed16 (tsctCrc16 bs))) = 0 := by
  have hzero : tsctCrc16 (bs ++ crcBytes bs) = 0 := by
    rw [tsctCrc16_eq]
    show led2Bed16 ⟨crc16 (withCrc bs)⟩ = 0
    rw [crc16_withCrc]
    rfl
  have hmeter : em2pCrc (Ami.crc16 bs) = crcBytes bs := by
    rw [em2pCrc_eq]
    exact bytes16_tsctCrc16 bs
  refine ⟨tsctCrc16_eq bs, rfl, ?_, ?_, ?_, ?_, ?_⟩
  · rw [calcuCRC16_eq, tsctCrc16_eq]
  · rw [hmeter, bytes16_tsctCrc16]
  · rw [bytes16_tsctCrc16, hzero]
  · rw [hmeter]
    exact hzero
  · rw [bytes16_tsctCrc16, calcuCRC16_eq]
    show (⟨crc16 (withCrc bs)⟩ : UInt16) = 0
    rw [crc16_withCrc]
    rfl

end ChargePoint
