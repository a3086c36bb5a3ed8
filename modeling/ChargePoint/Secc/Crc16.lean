import ChargePoint.Lib.Crc

/-!
# `TsctCrc16`

The check sum of the messages to and from the SECC, by two tables of bytes. `crc_hi` is the low
byte of the register and the first of the two on the wire; `tsctCrc16_eq` says which check sum
it is.
-/

set_option autoImplicit false

namespace ChargePoint

/-- `table_crc_hi`. -/
def tableCrcHi : List UInt8 :=
  [
    0x00, 0xC1, 0x81, 0x40, 0x01, 0xC0, 0x80, 0x41, 0x01, 0xC0, 0x80, 0x41, 0x00, 0xC1, 0x81, 0x40,
    0x01, 0xC0, 0x80, 0x41, 0x00, 0xC1, 0x81, 0x40, 0x00, 0xC1, 0x81, 0x40, 0x01, 0xC0, 0x80, 0x41,
    0x01, 0xC0, 0x80, 0x41, 0x00, 0xC1, 0x81, 0x40, 0x00, 0xC1, 0x81, 0x40, 0x01, 0xC0, 0x80, 0x41,
    0x00, 0xC1, 0x81, 0x40, 0x01, 0xC0, 0x80, 0x41, 0x01, 0xC0, 0x80, 0x41, 0x00, 0xC1, 0x81, 0x40,
    0x01, 0xC0, 0x80, 0x41, 0x00, 0xC1, 0x81, 0x40, 0x00, 0xC1, 0x81, 0x40, 0x01, 0xC0, 0x80, 0x41,
    0x00, 0xC1, 0x81, 0x40, 0x01, 0xC0, 0x80, 0x41, 0x01, 0xC0, 0x80, 0x41, 0x00, 0xC1, 0x81, 0x40,
    0x00, 0xC1, 0x81, 0x40, 0x01, 0xC0, 0x80, 0x41, 0x01, 0xC0, 0x80, 0x41, 0x00, 0xC1, 0x81, 0x40,
    0x01, 0xC0, 0x80, 0x41, 0x00, 0xC1, 0x81, 0x40, 0x00, 0xC1, 0x81, 0x40, 0x01, 0xC0, 0x80, 0x41,
    0x01, 0xC0, 0x80, 0x41, 0x00, 0xC1, 0x81, 0x40, 0x00, 0xC1, 0x81, 0x40, 0x01, 0xC0, 0x80, 0x41,
    0x00, 0xC1, 0x81, 0x40, 0x01, 0xC0, 0x80, 0x41, 0x01, 0xC0, 0x80, 0x41, 0x00, 0xC1, 0x81, 0x40,
    0x00, 0xC1, 0x81, 0x40, 0x01, 0xC0, 0x80, 0x41, 0x01, 0xC0, 0x80, 0x41, 0x00, 0xC1, 0x81, 0x40,
    0x01, 0xC0, 0x80, 0x41, 0x00, 0xC1, 0x81, 0x40, 0x00, 0xC1, 0x81, 0x40, 0x01, 0xC0, 0x80, 0x41,
    0x00, 0xC1, 0x81, 0x40, 0x01, 0xC0, 0x80, 0x41, 0x01, 0xC0, 0x80, 0x41, 0x00, 0xC1, 0x81, 0x40,
    0x01, 0xC0, 0x80, 0x41, 0x00, 0xC1, 0x81, 0x40, 0x00, 0xC1, 0x81, 0x40, 0x01, 0xC0, 0x80, 0x41,
    0x01, 0xC0, 0x80, 0x41, 0x00, 0xC1, 0x81, 0x40, 0x00, 0xC1, 0x81, 0x40, 0x01, 0xC0, 0x80, 0x41,
    0x00, 0xC1, 0x81, 0x40, 0x01, 0xC0, 0x80, 0x41, 0x01, 0xC0, 0x80, 0x41, 0x00, 0xC1, 0x81, 0x40 ]

/-- `table_crc_lo`. -/
def tableCrcLo : List UInt8 :=
  [
    0x00, 0xC0, 0xC1, 0x01, 0xC3, 0x03, 0x02, 0xC2, 0xC6, 0x06, 0x07, 0xC7, 0x05, 0xC5, 0xC4, 0x04,
    0xCC, 0x0C, 0x0D, 0xCD, 0x0F, 0xCF, 0xCE, 0x0E, 0x0A, 0xCA, 0xCB, 0x0B, 0xC9, 0x09, 0x08, 0xC8,
    0xD8, 0x18, 0x19, 0xD9, 0x1B, 0xDB, 0xDA, 0x1A, 0x1E, 0xDE, 0xDF, 0x1F, 0xDD, 0x1D, 0x1C, 0xDC,
    0x14, 0xD4, 0xD5, 0x15, 0xD7, 0x17, 0x16, 0xD6, 0xD2, 0x12, 0x13, 0xD3, 0x11, 0xD1, 0xD0, 0x10,
    0xF0, 0x30, 0x31, 0xF1, 0x33, 0xF3, 0xF2, 0x32, 0x36, 0xF6, 0xF7, 0x37, 0xF5, 0x35, 0x34, 0xF4,
    0x3C, 0xFC, 0xFD, 0x3D, 0xFF, 0x3F, 0x3E, 0xFE, 0xFA, 0x3A, 0x3B, 0xFB, 0x39, 0xF9, 0xF8, 0x38,
    0x28, 0xE8, 0xE9, 0x29, 0xEB, 0x2B, 0x2A, 0xEA, 0xEE, 0x2E, 0x2F, 0xEF, 0x2D, 0xED, 0xEC, 0x2C,
    0xE4, 0x24, 0x25, 0xE5, 0x27, 0xE7, 0xE6, 0x26, 0x22, 0xE2, 0xE3, 0x23, 0xE1, 0x21, 0x20, 0xE0,
    0xA0, 0x60, 0x61, 0xA1, 0x63, 0xA3, 0xA2, 0x62, 0x66, 0xA6, 0xA7, 0x67, 0xA5, 0x65, 0x64, 0xA4,
    0x6C, 0xAC, 0xAD, 0x6D, 0xAF, 0x6F, 0x6E, 0xAE, 0xAA, 0x6A, 0x6B, 0xAB, 0x69, 0xA9, 0xA8, 0x68,
    0x78, 0xB8, 0xB9, 0x79, 0xBB, 0x7B, 0x7A, 0xBA, 0xBE, 0x7E, 0x7F, 0xBF, 0x7D, 0xBD, 0xBC, 0x7C,
    0xB4, 0x74, 0x75, 0xB5, 0x77, 0xB7, 0xB6, 0x76, 0x72, 0xB2, 0xB3, 0x73, 0xB1, 0x71, 0x70, 0xB0,
    0x50, 0x90, 0x91, 0x51, 0x93, 0x53, 0x52, 0x92, 0x96, 0x56, 0x57, 0x97, 0x55, 0x95, 0x94, 0x54,
    0x9C, 0x5C, 0x5D, 0x9D, 0x5F, 0x9F, 0x9E, 0x5E, 0x5A, 0x9A, 0x9B, 0x5B, 0x99, 0x59, 0x58, 0x98,
    0x88, 0x48, 0x49, 0x89, 0x4B, 0x8B, 0x8A, 0x4A, 0x4E, 0x8E, 0x8F, 0x4F, 0x8D, 0x4D, 0x4C, 0x8C,
    0x44, 0x84, 0x85, 0x45, 0x87, 0x47, 0x46, 0x86, 0x82, 0x42, 0x43, 0x83, 0x41, 0x81, 0x80, 0x40 ]

/-- The loop: `crc_hi` and `crc_lo`. -/
def tsctCrc16Loop : UInt8 → UInt8 → List UInt8 → UInt8 × UInt8
  | hi, lo, [] => (hi, lo)
  | hi, lo, b :: bs =>
    let i := (hi ^^^ b).toNat
    tsctCrc16Loop (lo ^^^ tableCrcHi.getD i 0) (tableCrcLo.getD i 0) bs

/-- **`TsctCrc16`.** -/
def tsctCrc16 (bs : List UInt8) : UInt16 :=
  let r := tsctCrc16Loop 0xFF 0xFF bs
  r.1.toUInt16 <<< 8 ||| r.2.toUInt16

/-- CRC-16 with the polynomial `x^16 + x^15 + x^2 + 1`, reflected, from all ones. -/
def crc16 (bs : List UInt8) : BitVec 16 :=
  Crc.crc (0xA001 : BitVec 16) 0xFFFF (bs.map UInt8.toBitVec)

/-- The two bytes of a check sum as they are sent, the low one first. -/
def crcBytes (bs : List UInt8) : List UInt8 :=
  [⟨(crc16 bs).setWidth 8⟩, ⟨(crc16 bs >>> 8).setWidth 8⟩]

/-- The register the two bytes of the loop stand for. -/
def crcRegister (hi lo : UInt8) : BitVec 16 :=
  lo.toBitVec.setWidth 16 <<< 8 ^^^ hi.toBitVec.setWidth 16

/-- The index of a table is the low byte of a word. -/
theorem toNat_low (x : UInt16) : (x &&& (0x00ff : UInt16)).toNat = (x.toBitVec.setWidth 8).toNat := by
  rw [UInt16.toNat_and, BitVec.toNat_setWidth]
  exact Nat.and_two_pow_sub_one_eq_mod _ 8

theorem tableCrcHi_length : tableCrcHi.length = 256 := by decide +kernel

theorem tableCrcLo_length : tableCrcLo.length = 256 := by decide +kernel

theorem getD_registers {i : Nat} (hi : i < 256) :
    (List.zipWith crcRegister tableCrcHi tableCrcLo).getD i 0 =
      crcRegister (tableCrcHi.getD i 0) (tableCrcLo.getD i 0) :=
  Crc.getD_zipWith crcRegister (tableCrcHi_length ▸ hi) (tableCrcLo_length ▸ hi) 0 0 0

/-- The tables hold what eight shifts make of a byte. -/
theorem table_shift (i : Fin 256) : Crc.shift (0xA001 : BitVec 16) 8 (BitVec.ofNat 16 i.val) =
    crcRegister (tableCrcHi.getD i.val 0) (tableCrcLo.getD i.val 0) := by
  have hall : ((List.range 256).map fun i => Crc.shift (0xA001 : BitVec 16) 8 (BitVec.ofNat 16 i)) =
      List.zipWith crcRegister tableCrcHi tableCrcLo := by
    decide +kernel
  rw [← getD_registers i.isLt, Crc.getD_of_map_range hall 0 i.isLt]

/-- What one turn of the loop does to the register. -/
theorem crc_byte (hi lo b : UInt8) :
    Crc.byte (0xA001 : BitVec 16) (crcRegister hi lo) b.toBitVec =
      crcRegister (lo ^^^ tableCrcHi.getD (hi ^^^ b).toNat 0)
        (tableCrcLo.getD (hi ^^^ b).toNat 0) := by
  have hentry := table_shift ⟨(hi ^^^ b).toNat, (hi ^^^ b).toNat_lt⟩
  have hlow : ((crcRegister hi lo ^^^ b.toBitVec.setWidth 16).setWidth 8).setWidth 16 =
      BitVec.ofNat 16 (hi ^^^ b).toNat := by
    show _ = BitVec.ofNat 16 (hi ^^^ b).toBitVec.toNat
    rw [BitVec.ofNat_toNat]
    apply BitVec.eq_of_getLsbD_eq
    intro i hi
    simp [crcRegister]
  have hhigh : (crcRegister hi lo ^^^ b.toBitVec.setWidth 16) >>> 8 = lo.toBitVec.setWidth 16 := by
    apply BitVec.eq_of_getLsbD_eq
    intro i hi
    simp only [crcRegister, BitVec.getLsbD_ushiftRight, BitVec.getLsbD_xor,
      BitVec.getLsbD_shiftLeft, BitVec.getLsbD_setWidth]
    by_cases hbyte : i < 8
    · have hsum : 8 + i < 16 := by omega
      simp [hsum, hi]
    · simp [BitVec.getLsbD_of_ge lo.toBitVec i (by omega)]
  unfold Crc.byte
  rw [Crc.shift_split, hlow, hhigh, hentry]
  unfold crcRegister
  rw [UInt8.toBitVec_xor, BitVec.setWidth_xor]
  ac_rfl

/-- The loop computes the register. -/
theorem tsctCrc16Loop_register (hi lo : UInt8) (bs : List UInt8) :
    Crc.crc (0xA001 : BitVec 16) (crcRegister hi lo) (bs.map UInt8.toBitVec) =
      crcRegister (tsctCrc16Loop hi lo bs).1 (tsctCrc16Loop hi lo bs).2 := by
  induction bs generalizing hi lo with
  | nil => rfl
  | cons b bs ih =>
    rw [List.map_cons, Crc.crc_cons, crc_byte, ih, tsctCrc16Loop]

theorem crcRegister_bytes (hi lo : UInt8) : (crcRegister hi lo).setWidth 8 = hi.toBitVec ∧
    (crcRegister hi lo >>> 8).setWidth 8 = lo.toBitVec := by
  constructor
  · apply BitVec.eq_of_getLsbD_eq
    intro i hi
    simp [crcRegister, hi]
  · apply BitVec.eq_of_getLsbD_eq
    intro i hi
    have hsum : 8 + i < 16 := by omega
    simp [crcRegister, hi, hsum]

/-- **The two bytes of the loop are the check sum, the low byte first.** -/
theorem tsctCrc16Loop_eq (bs : List UInt8) :
    crcBytes bs = [(tsctCrc16Loop 0xFF 0xFF bs).1, (tsctCrc16Loop 0xFF 0xFF bs).2] := by
  have hstart : crcRegister 0xFF 0xFF = 0xFFFF := by decide
  have hcrc : crc16 bs =
      crcRegister (tsctCrc16Loop 0xFF 0xFF bs).1 (tsctCrc16Loop 0xFF 0xFF bs).2 := by
    rw [← tsctCrc16Loop_register, hstart]
    rfl
  obtain ⟨hhi, hlo⟩ := crcRegister_bytes (tsctCrc16Loop 0xFF 0xFF bs).1
    (tsctCrc16Loop 0xFF 0xFF bs).2
  unfold crcBytes
  rw [hcrc, hhi, hlo]

end ChargePoint
