import ChargePoint.Ida.Kerid
import ChargePoint.Secc.Blocks

/-!
# The two decoders of the battery data

What the IDA handler and `vasParsFunc` make of the same bytes. The fixed fields are at the same
places and only written down differently (`word32`, `word16`); a list that is not empty is copied
with its length by both. So the records agree exactly when the handler sets both lengths, or would
have set what was there (`decoders_agree_iff`).
-/

set_option autoImplicit false

namespace ChargePoint

/-! ## Records

The records name the same fields differently and give them other widths. They agree if the fields
do as numbers, and the arrays as far as their lengths say. -/

namespace IdaKeriData

def cells (r : IdaKeriData) : List UInt8 := r.cellVolt.bytes.take r.cellVoltLen.toNat

def temps (r : IdaKeriData) : List UInt8 := r.modulTemp.bytes.take r.modulTempLen.toNat

end IdaKeriData

namespace SeccVasReadData

def cells (r : SeccVasReadData) : List UInt8 := r.batCellVolt.bytes.take r.cellVoltLen.toNat

def temps (r : SeccVasReadData) : List UInt8 := r.batModulTemp.bytes.take r.modulTempLen.toNat

end SeccVasReadData

/-- **Two records that say the same.** -/
structure Agree (r : IdaKeriData) (v : SeccVasReadData) : Prop where
  timeStamp : r.timeStamp = v.timeStamp
  vin : r.vin.bytes = v.vin.bytes
  soc : r.soc.toNat = v.soc.toNat
  soh : r.soh = v.soh
  curr : r.packCurr = v.batPackCurr
  volt : r.packVolt = v.batPackVolt
  cellVoltLen : r.cellVoltLen = v.cellVoltLen
  cells : r.cells = v.cells
  modulTempLen : r.modulTempLen = v.modulTempLen
  temps : r.temps = v.temps

/-! ## Numbers -/

theorem word16 (hi lo : UInt8) :
    hi.toUInt16 * (0x100 : UInt16) + lo.toUInt16 = hi.toUInt16 <<< 8 + lo.toUInt16 := by
  have hshift : hi.toUInt16 <<< 8 = hi.toUInt16 * (0x100 : UInt16) := by
    apply UInt16.toNat_inj.mp
    rw [UInt16.toNat_shiftLeft, UInt16.toNat_mul, Nat.shiftLeft_eq]
    rfl
  rw [hshift]

theorem word32 (a b c d : UInt8) :
    a.toUInt32 * (0x1000000 : UInt32) + b.toUInt32 * (0x10000 : UInt32) +
        c.toUInt32 * (0x100 : UInt32) + d.toUInt32 =
      a.toUInt32 <<< 24 + b.toUInt32 <<< 16 + c.toUInt32 <<< 8 + d.toUInt32 := by
  have hshift : ∀ (x : UInt32), x <<< 24 = x * (0x1000000 : UInt32) ∧
      x <<< 16 = x * (0x10000 : UInt32) ∧ x <<< 8 = x * (0x100 : UInt32) := by
    intro x
    refine ⟨?_, ?_, ?_⟩
    all_goals
      apply UInt32.toNat_inj.mp
      rw [UInt32.toNat_shiftLeft, UInt32.toNat_mul, Nat.shiftLeft_eq]
      rfl
  rw [(hshift _).1, (hshift _).2.1, (hshift _).2.2]

/-! ## What is accepted

Both sides are taken to where they decode. An accepted message leaves `decodeKerid` of its data
in its record, and a block that completes a record leaves `decodeVas` of what was read in its
own. -/

/-- The data of a message. -/
def IdaDataForm.payload (f : IdaDataForm) : List UInt8 := f.data.bytes.take (f.lenth16.toNat - 1)

/-- The lists of an accepted message are within the data, and within the arrays. -/
theorem validKerid_bounds {f : IdaDataForm} (h : f.validKerid = true) :
    f.idTmp.toNat ≤ 192 ∧ f.idTmp1.toNat ≤ 20 ∧
      45 + f.idTmp.toNat + f.idTmp1.toNat ≤ f.lenth16.toNat := by
  unfold IdaDataForm.validKerid at h
  simp only [Bool.if_false_left, Bool.and_eq_true, Bool.not_eq_true', decide_eq_false_iff_not] at h
  obtain ⟨-, -, -, hcell, -, -, -, htemp, hlen, -⟩ := h
  have hcell' : ¬ 192 < f.idTmp.toNat := fun hlt => hcell (UInt16.lt_iff_toNat_lt.mpr hlt)
  have htemp' : ¬ 20 < f.idTmp1.toNat := fun hlt => htemp (UInt8.lt_iff_toNat_lt.mpr hlt)
  omega

/-- The record the next message is written to, as it is before. -/
def IdaStore.target (m : IdaStore) : IdaKeriData := m.room.keriData m.room.idx.toNat

/-- What an accepted message leaves behind. -/
theorem sendKerid_record {m m' : IdaStore} {f : IdaDataForm} (h : m.sendKerid f = some (true, m')) :
    f.validKerid = true ∧ f.lenth16.toNat ≤ 512 ∧ ∃ hcell htemp,
      m'.keriData m.room.idx.toNat = decodeKerid m.target f hcell htemp := by
  unfold IdaStore.sendKerid at h
  split at h
  · rename_i hvalid
    simp only at h
    split at h
    · rename_i hfits
      obtain rfl := (Prod.mk.inj (Option.some.inj h)).2
      obtain ⟨hcell, htemp, hraw⟩ := hfits
      obtain ⟨-, -, hlen⟩ := validKerid_bounds hvalid
      have hsub : (f.lenth16 - 6).toNat = f.lenth16.toNat - 6 := by
        apply UInt16.toNat_sub_of_le
        rw [UInt16.le_iff_toNat_le]
        show 6 ≤ f.lenth16.toNat
        omega
      refine ⟨hvalid, by omega, hcell, htemp, ?_⟩
      exact Function.update_self _ _ _
    · cases h
  · cases h

/-- What a block that completes a record leaves behind. -/
theorem vasParsFunc_record {s s' : SeccData} {src8 : Bytes 1024} {size : UInt8}
    (h : s.vasParsFunc src8 size = some (true, s')) :
    s'.seccVasRxData s.seccVasDataCnt.toNat =
      decodeVas (s.seccVasRxData s.seccVasDataCnt.toNat) s'.vasDataBuf := by
  obtain ⟨t, hread, hstored | hkept⟩ := vasParsFunc_some h
  · obtain ⟨buf, cd, rfl⟩ := readBlock_frame hread
    obtain ⟨-, raw, rfl⟩ := storeVas_some hstored.2
    exact Function.update_self _ _ _
  · cases hkept.1

/-! ## Agreement

The handler sets a length only if the list is not empty, and otherwise leaves the one of the
record it writes over. All else is the same on both sides. -/

section Agreement
variable {f : IdaDataForm} {buf : Bytes 1024}

/-- Both decoders read the same bytes. -/
theorem payload_take (hlen : f.lenth16.toNat ≤ 512) (h : f.payload <+: buf.bytes) :
    f.data.bytes.take (f.lenth16.toNat - 1) = buf.bytes.take (f.lenth16.toNat - 1) := by
  have hcut := List.prefix_iff_eq_take.mp h
  have hsize : f.payload.length = f.lenth16.toNat - 1 := by
    unfold IdaDataForm.payload
    rw [List.length_take, f.data.length_bytes]
    omega
  rw [hsize] at hcut
  exact hcut

theorem decodeVas_cells (old : SeccVasReadData) (buf : Bytes 1024) :
    (decodeVas old buf).cells = buf.slice 42 (decodeVas old buf).cellVoltLen.toNat := by
  have hlt := (decodeVas old buf).cellVoltLen.toNat_lt
  have hlen : (buf.slice 42 (decodeVas old buf).cellVoltLen.toNat).length =
    (decodeVas old buf).cellVoltLen.toNat := Bytes.length_slice _ (by omega)
  have hfits : 0 + (buf.slice 42 (decodeVas old buf).cellVoltLen.toNat).length ≤ 65535 := by omega
  exact Bytes.put_zero_take (b := old.batCellVolt) hfits hlen

theorem decodeVas_temps (old : SeccVasReadData) (buf : Bytes 1024) :
    (decodeVas old buf).temps = buf.slice (44 + (decodeVas old buf).cellVoltLen.toNat)
      (decodeVas old buf).modulTempLen.toNat := by
  have hlt := (decodeVas old buf).cellVoltLen.toNat_lt
  have hlt' := (decodeVas old buf).modulTempLen.toNat_lt
  have hlen : (buf.slice (44 + (decodeVas old buf).cellVoltLen.toNat)
      (decodeVas old buf).modulTempLen.toNat).length = (decodeVas old buf).modulTempLen.toNat :=
    Bytes.length_slice _ (by omega)
  have hfits : 0 + (buf.slice (44 + (decodeVas old buf).cellVoltLen.toNat)
      (decodeVas old buf).modulTempLen.toNat).length ≤ 255 := by omega
  exact Bytes.put_zero_take (b := old.batModulTemp) hfits hlen

/-- The lists of the IDA record, if its lengths are those of the message. -/
theorem decodeKerid_lists {des : IdaKeriData} {hcell : f.idTmp.toNat ≤ 192}
    {htemp : f.idTmp1.toNat ≤ 20}
    (hlen : (decodeKerid des f hcell htemp).cellVoltLen.toNat = f.idTmp.toNat)
    (hlen' : (decodeKerid des f hcell htemp).modulTempLen.toNat = f.idTmp1.toNat) :
    (decodeKerid des f hcell htemp).cells = f.data.slice 42 f.idTmp.toNat ∧
      (decodeKerid des f hcell htemp).temps = f.data.slice (44 + f.idTmp.toNat) f.idTmp1.toNat := by
  have hslice : (f.data.slice 42 f.idTmp.toNat).length = f.idTmp.toNat :=
    Bytes.length_slice _ (by omega)
  have hslice' : (f.data.slice (44 + f.idTmp.toNat) f.idTmp1.toNat).length = f.idTmp1.toNat :=
    Bytes.length_slice _ (by omega)
  unfold IdaKeriData.cells IdaKeriData.temps
  rw [hlen, hlen']
  exact ⟨Bytes.put_zero_take (b := des.cellVolt) (by omega) hslice,
    Bytes.put_zero_take (b := des.modulTemp) (by omega) hslice'⟩

/-- **The fixed fields agree**, and so do the lists, but for the lengths of empty ones. -/
theorem decode_agree {des : IdaKeriData} {old : SeccVasReadData} (hvalid : f.validKerid = true)
    (hsame : f.data.bytes.take (f.lenth16.toNat - 1) = buf.bytes.take (f.lenth16.toNat - 1))
    (hcell : f.idTmp.toNat ≤ 192) (htemp : f.idTmp1.toNat ≤ 20) :
    Agree (decodeKerid des f hcell htemp) (decodeVas old buf) ↔
      (f.idTmp ≠ 0 ∨ des.cellVoltLen = 0) ∧ (f.idTmp1 ≠ 0 ∨ des.modulTempLen = 0) := by
  obtain ⟨-, -, hlen⟩ := validKerid_bounds hvalid
  have hbyte : ∀ i, i < 44 + f.idTmp.toNat → f.data.byte i = buf.byte i := fun i hi =>
    Bytes.byte_eq_of_take hsame (by omega)
  have hslice : ∀ off k, off + k ≤ 44 + f.idTmp.toNat + f.idTmp1.toNat →
      f.data.slice off k = buf.slice off k := fun off k hk =>
    Bytes.slice_eq_of_take hsame (by omega)
  -- the two numbers of elements
  have hcells : ((buf.byte 40).toUInt16 <<< 8 + (buf.byte 41).toUInt16).toUInt8 = f.idTmp.toUInt8 := by
    rw [← word16, ← hbyte 40 (by omega), ← hbyte 41 (by omega)]
    rfl
  have hcells' : f.idTmp.toUInt8.toNat = f.idTmp.toNat := by
    rw [UInt16.toNat_toUInt8]
    omega
  have hvas : (decodeVas old buf).cellVoltLen = f.idTmp.toUInt8 := hcells
  have hvas' : (decodeVas old buf).modulTempLen = f.idTmp1 := by
    show buf.byte (43 + (decodeVas old buf).cellVoltLen.toNat) = f.idTmp1
    rw [hvas, hcells', ← hbyte _ (by omega)]
    rfl
  have hida : (decodeKerid des f hcell htemp).cellVoltLen =
      if f.idTmp = 0 then des.cellVoltLen else f.idTmp.toUInt8 := rfl
  have hida' : (decodeKerid des f hcell htemp).modulTempLen =
      if f.idTmp1 = 0 then des.modulTempLen else f.idTmp1 := rfl
  constructor
  · intro h
    have hcount := h.cellVoltLen
    have hcount' := h.modulTempLen
    rw [hida, hvas] at hcount
    rw [hida', hvas'] at hcount'
    refine ⟨?_, ?_⟩
    · by_cases hzero : f.idTmp = 0
      · rw [if_pos hzero, hzero] at hcount
        exact .inr hcount
      · exact .inl hzero
    · by_cases hzero : f.idTmp1 = 0
      · rw [if_pos hzero, hzero] at hcount'
        exact .inr hcount'
      · exact .inl hzero
  · rintro ⟨hset, hset'⟩
    have hcount : (decodeKerid des f hcell htemp).cellVoltLen = f.idTmp.toUInt8 := by
      rw [hida]
      split
      · rename_i hzero
        rw [hzero]
        exact hset.resolve_left (fun hne => hne hzero)
      · rfl
    have hcount' : (decodeKerid des f hcell htemp).modulTempLen = f.idTmp1 := by
      rw [hida']
      split
      · rename_i hzero
        rw [hzero]
        exact hset'.resolve_left (fun hne => hne hzero)
      · rfl
    obtain ⟨hlist, hlist'⟩ := decodeKerid_lists (by rw [hcount, hcells']) (by rw [hcount'])
    refine ⟨?_, ?_, ?_, hbyte 30 (by omega), ?_, ?_, ?_, ?_, ?_, ?_⟩
    · show (f.data.byte 2).toUInt32 * 0x1000000 + (f.data.byte 3).toUInt32 * 0x10000 +
        (f.data.byte 4).toUInt32 * 0x100 + (f.data.byte 5).toUInt32 = _
      rw [word32, hbyte 2 (by omega), hbyte 3 (by omega), hbyte 4 (by omega), hbyte 5 (by omega)]
      rfl
    · have hvin := f.data.length_slice (show 8 + 17 ≤ 512 by decide)
      have hvin' := buf.length_slice (show 8 + 17 ≤ 1024 by decide)
      calc (des.vin.put 0 (f.data.slice 8 17) (by omega)).bytes
          = f.data.slice 8 17 := Bytes.put_all _ hvin
        _ = buf.slice 8 17 := hslice 8 17 (by omega)
        _ = (old.vin.put 0 (buf.slice 8 17) (by omega)).bytes := (Bytes.put_all _ hvin').symm
    · show (f.data.byte 27).toUInt16.toNat = (buf.byte 27).toNat
      rw [UInt8.toNat_toUInt16, hbyte 27 (by omega)]
    · show (f.data.byte 33).toUInt16 * 0x100 + (f.data.byte 34).toUInt16 = _
      rw [word16, hbyte 33 (by omega), hbyte 34 (by omega)]
      rfl
    · show (f.data.byte 37).toUInt16 * 0x100 + (f.data.byte 38).toUInt16 = _
      rw [word16, hbyte 37 (by omega), hbyte 38 (by omega)]
      rfl
    · rw [hcount, hvas]
    · rw [hlist, decodeVas_cells, hvas, hcells']
      exact hslice _ _ (by omega)
    · rw [hcount', hvas']
    · rw [hlist', decodeVas_temps, hvas, hvas', hcells']
      exact hslice _ _ (by omega)

end Agreement

/-- **The two decoders agree exactly when** no list is empty where the record that is written over
has elements. -/
theorem decoders_agree_iff {m m' : IdaStore} {f : IdaDataForm} {s s' : SeccData}
    {src8 : Bytes 1024} {size : UInt8} (hida : m.sendKerid f = some (true, m'))
    (hvas : s.vasParsFunc src8 size = some (true, s')) (hsame : f.payload <+: s'.vasDataBuf.bytes) :
    Agree (m'.keriData m.room.idx.toNat) (s'.seccVasRxData s.seccVasDataCnt.toNat) ↔
      (f.idTmp ≠ 0 ∨ m.target.cellVoltLen = 0) ∧ (f.idTmp1 ≠ 0 ∨ m.target.modulTempLen = 0) := by
  obtain ⟨hvalid, hlen, hcell, htemp, hrecord⟩ := sendKerid_record hida
  rw [hrecord, vasParsFunc_record hvas]
  exact decode_agree hvalid (payload_take hlen hsame) hcell htemp

/-! ## Messages -/

/-- The values A1 to A6. -/
def keridHead : List UInt8 :=
  [0xA1, 4, 0x66, 0xAA, 0, 1, 0xA2, 17, 75, 77, 72, 75, 82, 56, 49, 67, 71, 80,
  85, 48, 48, 48, 48, 48, 49,
    0xA3, 1, 160, 0xA4, 1, 99, 0xA5, 2, 0, 120, 0xA6, 2, 14, 16]

/-- Two cell voltages and two temperatures. -/
def keridFull : List UInt8 := keridHead ++ [0xA7, 0, 2, 200, 201, 0xA8, 2, 25, 26]

/-- No cell voltage and no temperature. -/
def keridEmpty : List UInt8 := keridHead ++ [0xA7, 0, 0, 0xA8, 0]

/-- A message with this data. -/
def keridForm (data : List UInt8) (h : data.length ≤ 512) : IdaDataForm :=
  IdaDataForm.zero.store (bytes16 (UInt16.ofNat (data.length + 1)) ++ 0x23 :: data) (by
    simp only [bytes16, List.length_append, List.length_cons, List.length_nil, idaFormSize]
    omega)

/-- The SECC, about to get this data in one block. -/
def SeccData.expecting (data : List UInt8) : SeccData :=
  let s := SeccData.announced (UInt16.ofNat (data.length / 2 + 10))
  { s with rx := { s.rx with vasChksum := (vasSum data).toUInt16 } }

/-- Messages one after the other. -/
def IdaStore.sendAll (m : IdaStore) (fs : List IdaDataForm) : Option IdaStore :=
  fs.foldlM (fun m f => (m.sendKerid f).map Prod.snd) m

/-- The block with the data: its bytes are turned round. -/
def vasBlock (data : List UInt8) (h : 0 + data.length ≤ 1024)
    (h' : 0 + (swapWords ((Bytes.zero 1024).put 0 data h) data.length).length ≤ 1024) : Bytes 1024 :=
  (Bytes.zero 1024).put 0 (swapWords ((Bytes.zero 1024).put 0 data h) data.length) h'

theorem decoders_agree_full : ∃ (m' : IdaStore) (s' : SeccData),
    IdaStore.zero.sendKerid (keridForm keridFull (by decide)) = some (true, m') ∧
    Agree (m'.keriData IdaStore.zero.room.idx.toNat)
      (s'.seccVasRxData (SeccData.expecting keridFull).seccVasDataCnt.toNat) := by
  have hida : ((IdaStore.zero.sendKerid (keridForm keridFull (by decide))).map Prod.fst) =
      some true := by decide +kernel
  have hvas : (((SeccData.expecting keridFull).vasParsFunc
      (vasBlock keridFull (by decide) (by decide +kernel)) 48).map fun r =>
        (r.1, decide ((keridForm keridFull (by decide)).payload <+: r.2.vasDataBuf.bytes))) =
      some (true, true) := by decide +kernel
  obtain ⟨⟨b, m'⟩, hm, hb⟩ := Option.map_eq_some_iff.mp hida
  obtain ⟨⟨b', s'⟩, hs, hb'⟩ := Option.map_eq_some_iff.mp hvas
  obtain rfl : b = true := hb
  obtain ⟨rfl, hsame⟩ := Prod.mk.inj hb'
  exact ⟨m', s', hm, (decoders_agree_iff hm hs (of_decide_eq_true hsame)).mpr
    ⟨.inl (by decide), .inl (by decide)⟩⟩

/-- After thirty records with two temperatures each, a message without temperatures is stored with
two: they disagree. -/
theorem decoders_differ : ∃ m m' s', IdaStore.zero.sendAll
      (List.replicate 30 (keridForm keridFull (by decide))) = some m ∧
    m.sendKerid (keridForm keridEmpty (by decide)) = some (true, m') ∧
    (SeccData.expecting keridEmpty).vasParsFunc
      (vasBlock keridEmpty (by decide) (by decide +kernel)) 44 = some (true, s') ∧
    (keridForm keridEmpty (by decide)).payload <+: s'.vasDataBuf.bytes ∧
    ¬ Agree (m'.keriData m.room.idx.toNat)
      (s'.seccVasRxData (SeccData.expecting keridEmpty).seccVasDataCnt.toNat) := by
  have hida : ((IdaStore.zero.sendAll (List.replicate 30 (keridForm keridFull (by decide)))).bind
      fun m => (m.sendKerid (keridForm keridEmpty (by decide))).map fun r =>
        (r.1, (r.2.keriData m.room.idx.toNat).modulTempLen)) = some (true, 2) := by
    decide +kernel
  have hvas : (((SeccData.expecting keridEmpty).vasParsFunc
      (vasBlock keridEmpty (by decide) (by decide +kernel)) 44).map fun r =>
        (r.1, decide ((keridForm keridEmpty (by decide)).payload <+: r.2.vasDataBuf.bytes),
          (r.2.seccVasRxData (SeccData.expecting keridEmpty).seccVasDataCnt.toNat).modulTempLen)) =
      some (true, true, 0) := by decide +kernel
  obtain ⟨m, hm, hrest⟩ := Option.bind_eq_some_iff.mp hida
  obtain ⟨⟨b, m'⟩, hm', hb⟩ := Option.map_eq_some_iff.mp hrest
  obtain ⟨⟨b', s'⟩, hs, hb'⟩ := Option.map_eq_some_iff.mp hvas
  obtain ⟨rfl, htemp⟩ := Prod.mk.inj hb
  obtain ⟨rfl, hrest'⟩ := Prod.mk.inj hb'
  obtain ⟨hsame, htemp'⟩ := Prod.mk.inj hrest'
  refine ⟨m, m', s', hm, hm', hs, of_decide_eq_true hsame, ?_⟩
  intro h
  have hcount := h.modulTempLen
  simp only at htemp htemp'
  rw [htemp, htemp'] at hcount
  exact absurd hcount (by decide)

end ChargePoint
