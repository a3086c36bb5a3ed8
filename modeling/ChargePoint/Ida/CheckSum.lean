import ChargePoint.Ida.Frame
import ChargePoint.Lib.Crc

/-!
# What the check sum of a packet catches

`calcCRC` is the CCITT check sum, from zero. A burst is a damage whose first and last wrong bit
are close together; which bits are neighbours depends on the end a byte is sent from, and
`BitOrder` leaves that open. A burst of 16 bits lies in three bytes. Two of them are caught by any
polynomial with a last term, and three are a question to the table (`no_gap`).
-/

set_option autoImplicit false

namespace ChargePoint

/-- The CCITT check sum, bit by bit: the polynomial `x^16 + x^12 + x^5 + 1`, from zero. -/
def crcCcitt (bs : List UInt8) : BitVec 16 :=
  Crc.upCrc (0x1021 : BitVec 16) 0 (bs.map UInt8.toBitVec)

/-- One turn of the loop of `calcCRC`. -/
def calcStep (crc : UInt16) (b : UInt8) : UInt16 :=
  crc <<< 8 ^^^ crc16tab.getD ((crc >>> 8 ^^^ b.toUInt16) &&& 0x00FF).toNat 0

/-! ## The table -/

/-- The table holds what eight shifts make of a byte. -/
theorem crc16tab_up (i : Fin 256) : (crc16tab.getD i.val 0).toBitVec =
    Crc.up (0x1021 : BitVec 16) 8 (Crc.top (BitVec.ofNat 8 i.val)) := by
  have hall : ((List.range 256).map fun i =>
      Crc.up (0x1021 : BitVec 16) 8 (Crc.top (BitVec.ofNat 8 i))) =
      crc16tab.map UInt16.toBitVec := by
    decide +kernel
  rw [← Crc.getD_of_map_range hall 0 i.isLt]
  exact (Crc.getD_map UInt16.toBitVec crc16tab i.val 0).symm

/-- The same, by the byte. -/
theorem crc16tab_byte (b : UInt8) : (crc16tab.getD b.toNat 0).toBitVec =
    Crc.up (0x1021 : BitVec 16) 8 (Crc.top b.toBitVec) := by
  have hentry := crc16tab_up ⟨b.toNat, b.toNat_lt⟩
  rw [hentry]
  congr 2
  exact BitVec.ofNat_toNat ..

/-- **One turn takes in one byte.** -/
theorem calcStep_byte (crc : UInt16) (b : UInt8) :
    (calcStep crc b).toBitVec = Crc.upByte (0x1021 : BitVec 16) crc.toBitVec b.toBitVec := by
  have hindex : ((crc >>> 8 ^^^ b.toUInt16) &&& (0x00FF : UInt16)).toNat =
      ((crc >>> 8).toUInt8 ^^^ b).toNat := by
    rw [toNat_low]
    show ((crc.toBitVec >>> 8 ^^^ b.toBitVec.setWidth 16).setWidth 8).toNat =
      ((crc.toBitVec >>> 8).setWidth 8 ^^^ b.toBitVec).toNat
    rw [BitVec.setWidth_xor]
    congr 2
    exact BitVec.setWidth_setWidth_of_le _ (by decide)
  have hhigh : ((crc.toBitVec ^^^ Crc.top b.toBitVec) >>> 8).setWidth 8 =
      ((crc >>> 8).toUInt8 ^^^ b).toBitVec := by
    show ((crc.toBitVec ^^^ b.toBitVec.setWidth 16 <<< 8) >>> 8).setWidth 8 =
      (crc.toBitVec >>> 8).setWidth 8 ^^^ b.toBitVec
    apply BitVec.eq_of_getLsbD_eq
    intro i hi
    have hsum : 8 + i < 16 := by omega
    simp [hi, hsum]
  have hsplit := Crc.up_split (0x1021 : BitVec 16) (by decide) (crc.toBitVec ^^^ Crc.top b.toBitVec)
  rw [Crc.above_top, hhigh, ← crc16tab_byte, ← hindex] at hsplit
  exact hsplit.symm

theorem calcLoop_crc (crc : UInt16) (bs : List UInt8) : (bs.foldl calcStep crc).toBitVec =
    Crc.upCrc (0x1021 : BitVec 16) crc.toBitVec (bs.map UInt8.toBitVec) := by
  induction bs generalizing crc with
  | nil => rfl
  | cons b bs ih =>
    rw [List.foldl_cons, List.map_cons, Crc.upCrc_cons, ih, calcStep_byte]

/-- `calcCRC` computes the bitwise check sum. -/
theorem calcCRC_toBitVec (bs : List UInt8) : (calcCRC bs).toBitVec = crcCcitt bs :=
  calcLoop_crc 0 bs

/-! ## Bursts -/

/-- Which end of a byte is sent first. -/
inductive BitOrder
  | highFirst
  | lowFirst

/-- The place in its byte of the bit that is sent `i`-th. -/
def BitOrder.place : BitOrder → Nat → Nat
  | .highFirst, i => 7 - i
  | .lowFirst, i => i

/-- Bit `t` of a message. -/
def sentBit (o : BitOrder) (bs : List UInt8) (t : Nat) : Bool :=
  (bs.getD (t / 8) 0).toBitVec.getLsbD (o.place (t % 8))

/-- **A burst**: the messages differ, and only within `k` neighbouring bits. -/
structure Burst (o : BitOrder) (k : Nat) (bs bs' : List UInt8) : Prop where
  length : bs'.length = bs.length
  damaged : bs' ≠ bs
  near : ∃ s, ∀ t, sentBit o bs t ≠ sentBit o bs' t → s ≤ t ∧ t < s + k

section Bytes
variable {o : BitOrder}

/-- A byte is its bits, in either order. -/
theorem BitOrder.byte_ext {a b : UInt8}
    (h : ∀ i < 8, a.toBitVec.getLsbD (o.place i) = b.toBitVec.getLsbD (o.place i)) : a = b := by
  apply UInt8.toBitVec_inj.mp
  apply BitVec.eq_of_getLsbD_eq
  intro i hi
  cases o with
  | highFirst =>
    have hback : BitOrder.highFirst.place (7 - i) = i := by
      show 7 - (7 - i) = i
      omega
    have hbit := h (7 - i) (by omega)
    rwa [hback] at hbit
  | lowFirst => exact h i hi

/-- Bit `i` of byte `j` is bit `8 * j + i` of the message. -/
theorem sentBit_byte (o : BitOrder) (bs : List UInt8) (j : Nat) {i : Nat} (hi : i < 8) :
    sentBit o bs (8 * j + i) = (bs.getD j 0).toBitVec.getLsbD (o.place i) := by
  have hbyte : (8 * j + i) / 8 = j := by omega
  have hplace : (8 * j + i) % 8 = i := by omega
  unfold sentBit
  rw [hbyte, hplace]

/-- **Where a burst lies**: in byte `j` from bit `r` on, in the next byte, and in the one after it
up to bit `r`. -/
theorem Burst.bytes {bs bs' : List UInt8} (h : Burst o 16 bs bs') : ∃ j r, r < 8 ∧
    (∀ i, i < j ∨ j + 2 < i → bs.getD i 0 = bs'.getD i 0) ∧
    (∀ i < r, (bs.getD j 0).toBitVec.getLsbD (o.place i) =
      (bs'.getD j 0).toBitVec.getLsbD (o.place i)) ∧
    ∀ i, r ≤ i → i < 8 → (bs.getD (j + 2) 0).toBitVec.getLsbD (o.place i) =
      (bs'.getD (j + 2) 0).toBitVec.getLsbD (o.place i) := by
  obtain ⟨s, hnear⟩ := h.near
  have hsame : ∀ j i, i < 8 → 8 * j + i < s ∨ s + 16 ≤ 8 * j + i →
      (bs.getD j 0).toBitVec.getLsbD (o.place i) =
        (bs'.getD j 0).toBitVec.getLsbD (o.place i) := by
    intro j i hi hout
    rw [← sentBit_byte o bs j hi, ← sentBit_byte o bs' j hi]
    by_contra hne
    have hin := hnear _ hne
    omega
  refine ⟨s / 8, s % 8, Nat.mod_lt _ (by decide), ?_, ?_, ?_⟩
  · intro i hi
    exact BitOrder.byte_ext fun k hk => hsame i k hk (by omega)
  · intro i hi
    exact hsame _ i (by omega) (by omega)
  · intro i hi hi'
    exact hsame _ i hi' (by omega)

end Bytes

/-! ## Three bytes -/

/-- For every index but the first, the low byte of the entry has a bit at the place of one of the
bits of the index or later. -/
theorem later_bit : ∀ e ∈ crc16tab.zipIdx, ∀ o ∈ [BitOrder.highFirst, BitOrder.lowFirst],
    e.2 = 0 ∨ ∃ i < 8, e.2.testBit (o.place i) = true ∧
      ∃ k < 8, i ≤ k ∧ e.1.toNat.testBit (o.place k) = true := by
  decide +kernel

theorem crc16tab_length : crc16tab.length = 256 := by decide +kernel

/-- Damage that a burst leaves in its first byte is not hidden by what it leaves in its third: an
entry of the table whose low byte is 0 from bit `r` on, where its index is 0 up to there, is the
first. -/
theorem first_undamaged (o : BitOrder) {r : Nat} {d : UInt8}
    (hfirst : ∀ i < r, d.toBitVec.getLsbD (o.place i) = false)
    (hlast : ∀ i, r ≤ i → i < 8 →
      (Crc.up (0x1021 : BitVec 16) 8 (Crc.top d.toBitVec)).getLsbD (o.place i) = false) : d = 0 := by
  have hmem : o ∈ [BitOrder.highFirst, BitOrder.lowFirst] := by
    cases o <;> simp
  have hlt : d.toNat < crc16tab.length := crc16tab_length ▸ d.toNat_lt
  have hentry : (crc16tab.getD d.toNat 0, d.toNat) ∈ crc16tab.zipIdx := by
    rw [List.mk_mem_zipIdx_iff_getElem?, List.getD_eq_getElem?_getD, List.getElem?_eq_getElem hlt]
    rfl
  rcases later_bit _ hentry o hmem with hzero | ⟨i, hi, hbit, k, hk, hik, hlow⟩
  · exact UInt8.toNat_inj.mp hzero
  · by_cases hir : i < r
    · exact absurd hbit (Bool.eq_false_iff.mp (hfirst i hir))
    · have hlater := hlast k (by omega) hk
      rw [← crc16tab_byte] at hlater
      exact absurd hlow (Bool.eq_false_iff.mp hlater)

/-- The low byte of a word of two. -/
theorem getLsbD_word_two (b c : BitVec 8) {k : Nat} (hk : k < 8) :
    (Crc.word [b, c] : BitVec 16).getLsbD k = c.getLsbD k := by
  show (b.setWidth 16 <<< 8 ^^^ (c.setWidth 16 <<< 8 ^^^ 0#16 >>> 8) >>> 8).getLsbD k = c.getLsbD k
  have hsum : 8 + k < 16 := by omega
  simp [hk, hsum]

/-- Three bytes that a burst changed leave another register. -/
theorem three_bytes {o : BitOrder} {r : Nat} {x : BitVec 16} {a b c a' b' c' : UInt8}
    (hfirst : ∀ i < r, a.toBitVec.getLsbD (o.place i) = a'.toBitVec.getLsbD (o.place i))
    (hlast : ∀ i, r ≤ i → i < 8 →
      c.toBitVec.getLsbD (o.place i) = c'.toBitVec.getLsbD (o.place i))
    (hcrc : Crc.upCrc (0x1021 : BitVec 16) x ([a, b, c].map UInt8.toBitVec) =
      Crc.upCrc (0x1021 : BitVec 16) x ([a', b', c'].map UInt8.toBitVec)) :
    [a, b, c] = [a', b', c'] := by
  have hplace : ∀ i < 8, o.place i < 8 := by
    intro i hi
    cases o with
    | highFirst => exact Nat.lt_of_le_of_lt (Nat.sub_le 7 i) (by decide)
    | lowFirst => exact hi
  have hodd : (0x1021 : BitVec 16).getLsbD 0 = true := by decide
  have hshort : ∀ {u v : BitVec 8}, 8 * [u, v].length ≤ 16 := by
    intro u v
    exact Nat.le_refl 16
  rw [List.map_cons, List.map_cons, List.map_cons, List.map_nil, List.map_cons, List.map_cons,
    List.map_cons, List.map_nil] at hcrc
  have htop : Crc.top (a ^^^ a').toBitVec =
      (Crc.top a.toBitVec ^^^ Crc.top a'.toBitVec : BitVec 16) := by
    show ((a.toBitVec ^^^ a'.toBitVec).setWidth 16) <<< 8 = a.toBitVec.setWidth 16 <<< 8 ^^^
      a'.toBitVec.setWidth 16 <<< 8
    rw [BitVec.setWidth_xor, BitVec.shiftLeft_xor_distrib]
  have hup : Crc.up (0x1021 : BitVec 16) 8 (Crc.top (a ^^^ a').toBitVec) =
      Crc.word [b.toBitVec, c.toBitVec] ^^^ Crc.word [b'.toBitVec, c'.toBitVec] := by
    rw [htop]
    exact Crc.up_top_of_upCrc_eq _ hodd hshort rfl hcrc
  -- damage of the first byte would show in the bits of the third that the burst leaves alone
  have hzero : a ^^^ a' = 0 := by
    apply first_undamaged o (r := r)
    · intro i hi
      rw [UInt8.toBitVec_xor, BitVec.getLsbD_xor, hfirst i hi, Bool.xor_self]
    · intro i hi hi'
      rw [hup, BitVec.getLsbD_xor, getLsbD_word_two _ _ (hplace i hi'),
        getLsbD_word_two _ _ (hplace i hi'), hlast i hi hi', Bool.xor_self]
  have ha : a = a' := UInt8.xor_eq_zero_iff.mp hzero
  subst ha
  rw [Crc.upCrc_cons _ x, Crc.upCrc_cons _ x] at hcrc
  have hlen : [b.toBitVec, c.toBitVec].length = [b'.toBitVec, c'.toBitVec].length := rfl
  -- the two bytes left have no more bits than the check sum
  have hbc := Crc.eq_of_upCrc_eq _ hodd hshort hlen hcrc
  rw [List.cons.injEq, List.cons.injEq] at hbc
  rw [UInt8.toBitVec_inj.mp hbc.1, UInt8.toBitVec_inj.mp hbc.2.1]

/-! ## Messages -/

section Places
variable {bs bs' : List UInt8} {j : Nat}

/-- A message by what stands before byte `j`, the three bytes from there and what follows. -/
theorem eq_take_mid_drop (bs : List UInt8) (j : Nat) :
    bs = bs.take j ++ ((bs.drop j).take 3 ++ bs.drop (j + 3)) := by
  rw [← List.drop_drop, List.take_append_drop, List.take_append_drop]

theorem getD_mid (bs : List UInt8) (j : Nat) {k : Nat} (hk : k < 3) :
    ((bs.drop j).take 3).getD k 0 = bs.getD (j + k) 0 := by
  rw [List.getD_eq_getElem?_getD, List.getD_eq_getElem?_getD, List.getElem?_take_of_lt hk,
    List.getElem?_drop]

/-- The ends of the three bytes. -/
theorem getD_ends {u v w : UInt8} (h : (bs.drop j).take 3 = [u, v, w]) :
    bs.getD j 0 = u ∧ bs.getD (j + 2) 0 = w := by
  have hzero := getD_mid bs j (k := 0) (by decide)
  have htwo := getD_mid bs j (k := 2) (by decide)
  rw [h] at hzero htwo
  exact ⟨hzero.symm, htwo.symm⟩

/-- Messages of one length that agree outside three bytes. -/
theorem outside_eq (hlen : bs'.length = bs.length)
    (h : ∀ i, i < j ∨ j + 2 < i → bs.getD i 0 = bs'.getD i 0) :
    bs.take j = bs'.take j ∧ bs.drop (j + 3) = bs'.drop (j + 3) := by
  have hget : ∀ i, i < j ∨ j + 2 < i → bs[i]? = bs'[i]? := by
    intro i hi
    have hd := h i hi
    rw [List.getD_eq_getElem?_getD, List.getD_eq_getElem?_getD] at hd
    by_cases hin : i < bs.length
    · rw [List.getElem?_eq_getElem hin, List.getElem?_eq_getElem (hlen ▸ hin)] at hd ⊢
      exact congrArg some hd
    · rw [List.getElem?_eq_none (Nat.not_lt.mp hin),
        List.getElem?_eq_none (hlen ▸ Nat.not_lt.mp hin)]
  constructor
  · apply List.ext_getElem?
    intro i
    rw [List.getElem?_take, List.getElem?_take]
    split
    · exact hget i (.inl ‹_›)
    · rfl
  · apply List.ext_getElem?
    intro i
    rw [List.getElem?_drop, List.getElem?_drop]
    exact hget _ (.inr (by omega))

end Places

/-- **A burst of 16 bits changes the check sum**, wherever it strikes a message of any length. -/
theorem calcCRC_burst {o : BitOrder} {bs bs' : List UInt8} (h : Burst o 16 bs bs') :
    calcCRC bs' ≠ calcCRC bs := by
  intro hcrc
  obtain ⟨j, r, -, hout, hfirst, hlast⟩ := h.bytes
  obtain ⟨hpre, hpost⟩ := outside_eq h.length hout
  have hlen : ((bs.drop j).take 3).length = ((bs'.drop j).take 3).length := by
    rw [List.length_take, List.length_take, List.length_drop, List.length_drop, h.length]
  -- what comes after the burst does not undo it, so it must have left no trace by then
  have hmid : ∃ x : BitVec 16,
      Crc.upCrc (0x1021 : BitVec 16) x (((bs.drop j).take 3).map UInt8.toBitVec) =
        Crc.upCrc (0x1021 : BitVec 16) x (((bs'.drop j).take 3).map UInt8.toBitVec) := by
    have hall : crcCcitt bs = crcCcitt bs' := by
      rw [← calcCRC_toBitVec, ← calcCRC_toBitVec, hcrc]
    unfold crcCcitt at hall
    rw [eq_take_mid_drop bs j, eq_take_mid_drop bs' j, ← hpre, ← hpost] at hall
    simp only [List.map_append, Crc.upCrc_append] at hall
    exact ⟨_, Crc.upCrc_injective _ (by decide) _ hall⟩
  obtain ⟨x, hx⟩ := hmid
  have hsame : (bs.drop j).take 3 = (bs'.drop j).take 3 := by
    by_cases hshort : ((bs.drop j).take 3).length ≤ 2
    · have hmap := Crc.eq_of_upCrc_eq _ (by decide) (by rw [List.length_map]; omega)
        (by rw [List.length_map, List.length_map, hlen]) hx
      exact List.map_injective_iff.mpr (fun _ _ => UInt8.toBitVec_inj.mp) hmap
    · have hthree : ((bs.drop j).take 3).length = 3 := by
        have hle := List.length_take_le 3 (bs.drop j)
        omega
      obtain ⟨a, b, c, habc⟩ := List.length_eq_three.mp hthree
      obtain ⟨a', b', c', habc'⟩ := List.length_eq_three.mp (hlen ▸ hthree)
      obtain ⟨ha, hc⟩ := getD_ends habc
      obtain ⟨ha', hc'⟩ := getD_ends habc'
      rw [ha, ha'] at hfirst
      rw [hc, hc'] at hlast
      rw [habc, habc'] at hx ⊢
      exact three_bytes hfirst hlast hx
  apply h.damaged
  rw [eq_take_mid_drop bs j, eq_take_mid_drop bs' j, ← hpre, ← hpost, hsame]

/-! ## Packets -/

/-- What the check sum of a packet of `packetLen` is over: the length, the command and the data. -/
def idaCrcRange (src : ParsBuf) (stx packetLen : Nat) : List UInt8 :=
  (src.bytes.drop (stx + 1)).take (packetLen - 4)

section Check
variable (ch : PlainChar) (src : ParsBuf) (stx : Nat)

/-- The check of `ValidIda`. -/
def idaCrcOk : Prop :=
  calcCRC (idaCrcRange src stx (idaPacketLen ch src stx)) = idaCrc ch src stx

end Check

/-- **A packet with a burst in its command or its data is turned down**, if its length and its check
sum came through. -/
theorem burst_turned_down {ch : PlainChar} {o : BitOrder} {src src' : ParsBuf} {stx : Nat}
    (hok : idaCrcOk ch src stx) (hlen : idaPacketLen ch src' stx = idaPacketLen ch src stx)
    (hcrc : idaCrc ch src' stx = idaCrc ch src stx)
    (h : Burst o 16 (idaCrcRange src stx (idaPacketLen ch src stx))
      (idaCrcRange src' stx (idaPacketLen ch src stx))) : ¬ idaCrcOk ch src' stx := by
  intro hok'
  unfold idaCrcOk at hok hok'
  rw [hlen, hcrc, ← hok] at hok'
  exact calcCRC_burst h hok'

/-- **`calcCRC` is the CCITT check sum**, of every buffer, and a burst of up to 16 bits changes it,
in every buffer: so in what `ValidIda` sums up of a packet, whatever length it reads. -/
theorem calcCRC_ccitt_bursts :
    (∀ bs : List UInt8, (calcCRC bs).toBitVec = crcCcitt bs) ∧
    ∀ (o : BitOrder) (bs bs' : List UInt8), Burst o 16 bs bs' → calcCRC bs' ≠ calcCRC bs :=
  ⟨calcCRC_toBitVec, fun _ _ _ => calcCRC_burst⟩

/-- Two bytes of zeros, and with a wrong bit in the first. -/
theorem calcCRC_ccitt_bursts_clear : (calcCRC [0, 0]).toBitVec = crcCcitt [0, 0] ∧
    calcCRC [4, 0] ≠ calcCRC [0, 0] := by
  have hburst : Burst .highFirst 16 [0, 0] [4, 0] := by
    refine ⟨rfl, by decide, 0, fun t ht => ⟨Nat.zero_le t, ?_⟩⟩
    by_contra hge
    apply ht
    have hpast : ∀ l : List UInt8, l.length = 2 → l.getD (t / 8) 0 = 0 := by
      intro l hl
      rw [List.getD_eq_getElem?_getD, List.getElem?_eq_none (by omega), Option.getD_none]
    unfold sentBit
    rw [hpast _ rfl, hpast _ rfl]
  exact ⟨calcCRC_ccitt_bursts.1 [0, 0], calcCRC_ccitt_bursts.2 .highFirst [0, 0] [4, 0] hburst⟩

end ChargePoint
