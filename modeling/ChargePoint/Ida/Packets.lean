import ChargePoint.Ida.Frame
import ChargePoint.Secc.Chunks

/-!
# Packets, one after the other

What `MakeTx` and `SendBuff` build is a packet (`sendBuff_packet`), and on packets `ValidIda`
does what it should: each turn of its loop starts at the ETX of the packet before, finds the STX
behind it and copies one packet. Bytes of the data that look like STX or ETX are never looked at,
because the length says where the packet ends.

The turns are five, and a turn that finds no packet is what returns the count. Five packets leave
none.

All of this rests on `ValidIda` reading the length that was sent. Where plain `char` is signed it
reads 256 less if the low byte is 0x80 or more (`idaLength_toNat`); `PlainChar.Reads` is the
condition on a length, and a packet that violates it is not received (`PacketAt.not_held`).
-/

set_option autoImplicit false

namespace ChargePoint

/-! ## Two bytes -/

theorem bytes16_toNat (x : UInt16) : x.toUInt8.toNat + (x >>> 8).toUInt8.toNat * 256 = x.toNat := by
  have hlt := x.toNat_lt
  have hshift : (x >>> 8).toNat = x.toNat / 256 := by
    rw [UInt16.toNat_shiftRight, Nat.shiftRight_eq_div_pow]
    rfl
  rw [UInt16.toNat_toUInt8, UInt16.toNat_toUInt8, hshift]
  omega

/-- The low byte first. -/
theorem le16_toNat (lo hi : UInt8) :
    (lo.toUInt16 ||| hi.toUInt16 <<< 8).toNat = lo.toNat + hi.toNat * 256 := by
  have hlo := lo.toNat_lt
  have hhi := hi.toNat_lt
  have hshift : (hi.toUInt16 <<< 8).toNat = hi.toNat <<< 8 := by
    rw [UInt16.toNat_shiftLeft, UInt8.toNat_toUInt16]
    show hi.toNat <<< 8 % 65536 = _
    rw [Nat.shiftLeft_eq]
    omega
  rw [UInt16.toNat_or, hshift, UInt8.toNat_toUInt16, Nat.or_comm, ← Nat.shiftLeft_add_eq_or_of_lt hlo,
    Nat.shiftLeft_eq]
  omega

/-! ## Plain `char` -/

/-- What the sign of a byte adds to it, modulo `2 ^ 16`. -/
def PlainChar.sign (ch : PlainChar) (b : UInt8) : Nat :=
  match ch with
  | .signed => if b.toNat < 0x80 then 0 else 0xFF00
  | .unsigned => 0

theorem PlainChar.widen_toNat (ch : PlainChar) (b : UInt8) :
    (ch.widen b).toNat = b.toNat + ch.sign b := by
  have hlt := b.toNat_lt
  cases ch with
  | signed =>
    unfold widen sign
    dsimp only
    by_cases hlow : b.toNat < 0x80
    · rw [if_pos (UInt8.lt_iff_toNat_lt.mpr hlow), if_pos hlow, UInt8.toNat_toUInt16, Nat.add_zero]
    · rw [if_neg (fun h => hlow (UInt8.lt_iff_toNat_lt.mp h)), if_neg hlow, UInt16.toNat_add,
        UInt8.toNat_toUInt16]
      show (b.toNat + 65280) % 65536 = b.toNat + 65280
      omega
  | unsigned => exact b.toNat_toUInt16

/-- The length that is read, from the two bytes: the sign of the high one is lost, that of the low
one is not. -/
theorem idaLength_toNat (ch : PlainChar) (src : ParsBuf) (stx : Nat) :
    (idaLength ch src stx).toNat = ((src.byte (stx + 1)).toNat + (src.byte (stx + 2)).toNat * 256 +
      ch.sign (src.byte (stx + 1))) % 65536 := by
  unfold idaLength
  rw [UInt16.toNat_add, UInt16.toNat_mul, PlainChar.widen_toNat, PlainChar.widen_toNat]
  show (_ + (_ + _) * 256 % 65536) % 65536 = _
  have hsign : ch.sign (src.byte (stx + 2)) * 256 % 65536 = 0 := by
    unfold PlainChar.sign
    split
    · split <;> rfl
    · rfl
  omega

/-- A length whose low byte is read as it is. -/
def PlainChar.Reads (ch : PlainChar) (n : Nat) : Prop := ch = .unsigned ∨ n % 256 < 0x80

theorem PlainChar.Reads.sign_eq {ch : PlainChar} {n : Nat} {b : UInt8} (h : ch.Reads n)
    (hb : b.toNat = n % 256) : ch.sign b = 0 := by
  unfold sign
  cases h with
  | inl hch => rw [hch]
  | inr hlow =>
    split
    · rw [if_pos (by omega)]
    · rfl

/-! ## Packets

`IdaPacket` is the format by itself: a command and data, the length in front, the check sum and
an ETX behind. `Held` says that a form has it, over the bytes of the form's own data part. -/

/-- A packet: its data must leave room for the command in the length. -/
structure IdaPacket where
  cmd : UInt8
  data : List UInt8
  fits : data.length + 1 < 2 ^ 16

namespace IdaPacket
variable (p : IdaPacket)

/-- The length counts the command. -/
def lenth16 : UInt16 := UInt16.ofNat (p.data.length + 1)

/-- What the check sum is over. -/
def body : List UInt8 := bytes16 p.lenth16 ++ p.cmd :: p.data

/-- The packet on the line. -/
def bytes : List UInt8 := stxCode :: (p.body ++ (bytes16 (calcCRC p.body) ++ [etxCode]))

theorem lenth16_toNat : p.lenth16.toNat = p.data.length + 1 :=
  UInt16.toNat_ofNat_of_lt' p.fits

theorem length_body : p.body.length = p.data.length + 3 := by
  unfold body
  simp [bytes16]

theorem length_bytes : p.bytes.length = p.data.length + 7 := by
  unfold bytes
  rw [List.length_cons, List.length_append, length_body]
  simp [bytes16]

theorem bytes_concat :
    p.bytes = (stxCode :: (p.body ++ bytes16 (calcCRC p.body))) ++ [etxCode] := by
  unfold bytes
  rw [List.cons_append, List.append_assoc]

/-- The form holds the packet. -/
structure Held (f : IdaDataForm) : Prop where
  lenth16 : f.lenth16 = p.lenth16
  cmd8 : f.cmd8 = p.cmd
  data8 : f.data8.take p.data.length = p.data

/-- A form holds 512 bytes of data at most. -/
theorem Held.data_length {p : IdaPacket} {f : IdaDataForm} (h : p.Held f) :
    p.data.length ≤ 512 := by
  have hlen := congrArg List.length h.data8
  unfold IdaDataForm.data8 at hlen
  rw [List.length_take, List.length_drop, f.length_body] at hlen
  unfold idaFormSize at hlen
  omega

/-- A form that starts with the packet's body holds it. -/
theorem held_of_body {f : IdaDataForm} (h : p.body <+: f.body) : p.Held f := by
  obtain ⟨rest, h⟩ := h
  have hcons : f.body = p.lenth16.toUInt8 :: (p.lenth16 >>> 8).toUInt8 :: p.cmd ::
      (p.data ++ rest) := h.symm
  refine ⟨?_, ?_, ?_⟩
  · unfold IdaDataForm.lenth16
    rw [← UInt16.toNat_inj, le16_toNat, hcons, ← bytes16_toNat p.lenth16]
    rfl
  · unfold IdaDataForm.cmd8
    rw [hcons]
    rfl
  · unfold IdaDataForm.data8
    rw [hcons]
    exact List.take_left

end IdaPacket

/-! ## Sending -/

/-- **What is sent is the packet.** -/
theorem sendBuff_packet {f : IdaDataForm} (p : IdaPacket) (hlen : p.data.length ≤ 254)
    (hdata : f.data8.take p.data.length = p.data) :
    ∃ f', makeTx f p.cmd p.lenth16 = some f' ∧
      sendBuff f' (UInt8.ofNat p.data.length) = p.bytes := by
  have hsplit : f.body.drop 3 = p.data ++ f.body.drop (3 + p.data.length) := by
    have hrest := List.take_append_drop p.data.length (f.body.drop 3)
    rw [List.drop_drop] at hrest
    unfold IdaDataForm.data8 at hdata
    rw [hdata] at hrest
    exact hrest.symm
  have hbuff : (UInt8.ofNat p.data.length).toNat = p.data.length :=
    UInt8.toNat_ofNat_of_lt' (Nat.lt_of_le_of_lt hlen (by decide))
  have hwithin : 2 + p.lenth16.toNat ≤ idaFormSize := by
    rw [p.lenth16_toNat]
    unfold idaFormSize
    omega
  have hbody : bytes16 p.lenth16 ++ [p.cmd] ++ f.body.drop 3 =
      p.body ++ f.body.drop (3 + p.data.length) := by
    rw [hsplit]
    unfold IdaPacket.body
    simp
  have htake : (bytes16 p.lenth16 ++ [p.cmd] ++ f.body.drop 3).take (2 + p.lenth16.toNat) = p.body := by
    rw [hbody, p.lenth16_toNat, show 2 + (p.data.length + 1) = p.body.length by
      rw [p.length_body]; omega]
    exact List.take_left
  refine ⟨_, if_pos hwithin, ?_⟩
  show stxCode :: (bytes16 p.lenth16 ++ [p.cmd] ++ f.body.drop 3).take 3 ++
    ((bytes16 p.lenth16 ++ [p.cmd] ++ f.body.drop 3).drop 3).take (UInt8.ofNat p.data.length).toNat ++
    bytes16 (calcCRC ((bytes16 p.lenth16 ++ [p.cmd] ++ f.body.drop 3).take (2 + p.lenth16.toNat))) ++
    [etxCode] = p.bytes
  rw [htake, hbuff]
  have hdata' : ((bytes16 p.lenth16 ++ [p.cmd] ++ f.body.drop 3).drop 3).take p.data.length = p.data :=
    hdata
  rw [hdata']
  unfold IdaPacket.bytes IdaPacket.body
  simp [bytes16]

/-! ## The loop

The loop looks for an STX from the end of the packet before it, and that end is the ETX itself; it
is passed over because it is not an STX. `QuietFrom` is what has to lie between two packets; where
packets follow each other it is that one byte. -/

/-- The search passes over what is not STX. -/
theorem findStx_eq {src : ParsBuf} {e n k : Nat} (hle : e ≤ n) (hlt : n < e + k)
    (hquiet : ∀ j, e ≤ j → j < n → src.byte j ≠ stxCode) (hstx : src.byte n = stxCode) :
    findStx src e k = some n := by
  induction k generalizing e with
  | zero => omega
  | succ k ih =>
    unfold findStx
    rcases Nat.lt_or_eq_of_le hle with hbefore | rfl
    · rw [if_neg (hquiet e (Nat.le_refl e) hbefore)]
      exact ih hbefore (by omega) fun j hj => hquiet j (by omega)
    · rw [if_pos hstx]

theorem findStx_none {src : ParsBuf} {e k : Nat} (hquiet : ∀ j, e ≤ j → j < e + k →
    src.byte j ≠ stxCode) : findStx src e k = none := by
  induction k generalizing e with
  | zero => rfl
  | succ k ih =>
    unfold findStx
    rw [if_neg (hquiet e (Nat.le_refl e) (by omega))]
    exact ih fun j hj hlt => hquiet j (by omega) (by omega)

/-- No STX from `e` to the end of `pre`. -/
def QuietFrom (pre : List UInt8) (e : Nat) : Prop := ∀ b ∈ pre.drop e, b ≠ stxCode

theorem QuietFrom.byte {src : ParsBuf} {pre rest : List UInt8} {e j : Nat}
    (h : QuietFrom pre e) (hsrc : src.Holds (pre ++ rest)) (hj : e ≤ j) (hlt : j < pre.length) :
    src.byte j ≠ stxCode := by
  rw [hsrc.byte, List.getD_eq_getElem?_getD, List.getElem?_append_left hlt,
    List.getElem?_eq_getElem hlt]
  refine h _ (List.mem_drop_iff_getElem.mpr ⟨j - e, by omega, ?_⟩)
  congr 1
  omega

/-- The last byte of a packet is no STX. -/
theorem quietFrom_packet (pre : List UInt8) (p : IdaPacket) :
    QuietFrom (pre ++ p.bytes) ((pre ++ p.bytes).length - 1) := by
  intro b hb
  rw [p.bytes_concat, ← List.append_assoc, List.length_append, List.length_singleton,
    Nat.add_sub_cancel, List.drop_left] at hb
  rw [List.mem_singleton.mp hb]
  decide

section Turn
variable {src : ParsBuf} {pre rest : List UInt8} {p : IdaPacket}

/-- A byte of the packet. -/
theorem packet_byte (hsrc : src.Holds (pre ++ (p.bytes ++ rest))) {t : Nat} (ht : t < p.bytes.length) :
    src.byte (pre.length + t) = p.bytes.getD t 0 := by
  rw [hsrc.byte, List.getD_eq_getElem?_getD, List.getElem?_append_right (by omega),
    Nat.add_sub_cancel_left, List.getElem?_append_left ht, List.getD_eq_getElem?_getD]

/-- A stretch of it. -/
theorem packet_slice (hsrc : src.Holds (pre ++ (p.bytes ++ rest))) {k : Nat}
    (hk : k + 1 ≤ p.bytes.length) :
    (src.bytes.drop (pre.length + 1)).take k = p.bytes.tail.take k := by
  have hmore : src.bytes = pre ++ (stxCode :: (p.bytes.tail ++ (rest ++
      List.replicate (parsBufCap - (pre ++ (p.bytes ++ rest)).length) 0))) := by
    rw [hsrc]
    unfold IdaPacket.bytes
    simp
  have hlen : k ≤ p.bytes.tail.length := by
    rw [List.length_tail]
    omega
  rw [hmore, List.drop_append, List.drop_of_length_le (by omega), List.nil_append,
    Nat.add_sub_cancel_left, List.drop_succ_cons, List.drop_zero, List.take_append_of_le_length hlen]

/-- **A turn of the loop** on a packet whose length is read right: it is copied, and the next turn
starts at its ETX. -/
theorem packetLoop_packet {ch : PlainChar} (hreads : ch.Reads (p.data.length + 1))
    (hsrc : src.Holds (pre ++ (p.bytes ++ rest)))
    (hcap : (pre ++ (p.bytes ++ rest)).length ≤ parsBufCap) {e : Nat} (he : e ≤ pre.length)
    (hquiet : QuietFrom pre e) (k i : Nat) (forms : Nat → IdaDataForm) :
    ∃ form, p.Held form ∧
      packetLoop ch src (pre ++ (p.bytes ++ rest)).length (k + 1) i e forms =
        packetLoop ch src (pre ++ (p.bytes ++ rest)).length k (i + 1) ((pre ++ p.bytes).length - 1)
          fun j => if j = i then form else forms j := by
  have hlen := p.length_bytes
  have htotal : (pre ++ (p.bytes ++ rest)).length = pre.length + (p.data.length + 7) + rest.length := by
    rw [List.length_append, List.length_append, hlen]
    omega
  have hpre : (pre ++ p.bytes).length - 1 = pre.length + (p.data.length + 6) := by
    rw [List.length_append, hlen]
    omega
  unfold parsBufCap at hcap
  have hbyte : ∀ t < p.data.length + 7, src.byte (pre.length + t) = p.bytes.getD t 0 :=
    fun t ht => packet_byte hsrc (by omega)
  have hstx : src.byte pre.length = stxCode := hbyte 0 (by omega)
  have hfind : findStx src e ((pre ++ (p.bytes ++ rest)).length - e) = some pre.length :=
    findStx_eq he (by omega) (fun j hj hlt => hquiet.byte hsrc hj hlt) hstx
  -- the members of the header
  have hlength : (idaLength ch src pre.length).toNat = p.data.length + 1 := by
    have hlow : (src.byte (pre.length + 1)).toNat = (p.data.length + 1) % 256 := by
      rw [hbyte 1 (by omega), ← p.lenth16_toNat, ← UInt16.toNat_toUInt8]
      rfl
    have hbytes : (src.byte (pre.length + 1)).toNat + (src.byte (pre.length + 2)).toNat * 256 =
        p.data.length + 1 := by
      rw [hbyte 1 (by omega), hbyte 2 (by omega), ← p.lenth16_toNat, ← bytes16_toNat p.lenth16]
      rfl
    rw [idaLength_toNat, hreads.sign_eq hlow, hbytes]
    omega
  have hend : idaEnd ch src pre.length = pre.length + (p.data.length + 6) := by
    unfold idaEnd headerSize
    rw [hlength]
    omega
  have hpacket : idaPacketLen ch src pre.length = p.data.length + 7 := by
    unfold idaPacketLen headerSize
    rw [hlength]
    omega
  -- the end of the packet
  have htail : ∀ t, p.bytes.getD (p.data.length + 4 + t) 0 =
      (bytes16 (calcCRC p.body) ++ [etxCode]).getD t 0 := by
    intro t
    have hbody := p.length_body
    unfold IdaPacket.bytes
    rw [show p.data.length + 4 + t = p.body.length + t + 1 by omega, List.getD_cons_succ,
      List.getD_eq_getElem?_getD, List.getElem?_append_right (by omega), Nat.add_sub_cancel_left,
      List.getD_eq_getElem?_getD]
  have hetx : src.byte (pre.length + (p.data.length + 6)) = etxCode := by
    rw [hbyte _ (by omega)]
    exact htail 2
  have hcrc : idaCrc ch src pre.length = calcCRC p.body := by
    have hsum : (idaCrc ch src pre.length).toNat = _ :=
      src16_toNat (Secc.init src 0) (idaEnd ch src pre.length - 1) (idaEnd ch src pre.length - 2)
    rw [← UInt16.toNat_inj, hsum, hend]
    show (src.byte (pre.length + (p.data.length + 5))).toNat * 256 +
      (src.byte (pre.length + (p.data.length + 4))).toNat = _
    rw [hbyte _ (by omega), hbyte _ (by omega), htail 1, htail 0, ← bytes16_toNat (calcCRC p.body),
      Nat.add_comm]
    rfl
  have hsum : (src.bytes.drop (pre.length + 1)).take (p.data.length + 7 - 4) = p.body := by
    rw [packet_slice hsrc (by omega), show p.data.length + 7 - 4 = p.body.length by
      rw [p.length_body]; omega]
    exact List.take_left
  have hcopy : (src.bytes.drop (pre.length + 1)).take (p.data.length + 7 - 1) =
      p.body ++ (bytes16 (calcCRC p.body) ++ [etxCode]) := by
    rw [packet_slice hsrc (by omega)]
    refine List.take_of_length_le (Nat.le_of_eq ?_)
    rw [List.length_tail, hlen]
  have hroom : 1 ≤ idaPacketLen ch src pre.length ∧
      pre.length + idaPacketLen ch src pre.length ≤ parsBufCap := by
    rw [hpacket]
    unfold parsBufCap
    omega
  refine ⟨(forms i).store ((src.bytes.drop (pre.length + 1)).take (idaPacketLen ch src pre.length - 1))
    (by simp only [List.length_take, idaFormSize, parsBufCap] at *; omega), ?_, ?_⟩
  · refine p.held_of_body ?_
    show p.body <+: (src.bytes.drop (pre.length + 1)).take (idaPacketLen ch src pre.length - 1) ++ _
    rw [hpacket, hcopy, List.append_assoc]
    exact List.prefix_append _ _
  · rw [packetLoop, hfind]
    dsimp only
    have hheader : ¬ (pre ++ (p.bytes ++ rest)).length < pre.length + headerSize := by
      unfold headerSize
      omega
    have hfits : ¬ (pre ++ (p.bytes ++ rest)).length < pre.length + (p.data.length + 6) + 1 := by
      omega
    have hinside : ¬ (pre.length + (p.data.length + 6) < 2 ∨
        parsBufCap < pre.length + 1 + (idaPacketLen ch src pre.length - 4)) := by
      rw [hpacket]
      unfold parsBufCap
      omega
    have hvalid : ¬ calcCRC ((src.bytes.drop (pre.length + 1)).take
        (idaPacketLen ch src pre.length - 4)) ≠ idaCrc ch src pre.length := by
      rw [hpacket, hsum, hcrc]
      exact not_not_intro rfl
    rw [if_neg hheader, hend, if_neg hfits, if_neg (not_not_intro hetx), if_neg hinside,
      if_neg hvalid, dif_pos hroom, hpre]

end Turn

/-- **The loop over packets**: turn after turn, and a last one that finds none, if there is one
left. -/
theorem packetLoop_packets {ch : PlainChar} {src : ParsBuf} (ps : List IdaPacket)
    (hreads : ∀ p ∈ ps, ch.Reads (p.data.length + 1)) :
    ∀ {pre : List UInt8} {e k : Nat} (i : Nat) (forms : Nat → IdaDataForm),
      src.Holds (pre ++ ps.flatMap IdaPacket.bytes) →
      (pre ++ ps.flatMap IdaPacket.bytes).length ≤ parsBufCap → e ≤ pre.length → QuietFrom pre e →
      ps.length ≤ k →
      ∃ forms', packetLoop ch src (pre ++ ps.flatMap IdaPacket.bytes).length k i e forms =
          some (if ps.length < k then some (i + ps.length) else none, forms') ∧
        (∀ j (hj : j < ps.length), ps[j].Held (forms' (i + j))) ∧
        ∀ j < i, forms' j = forms j := by
  induction ps with
  | nil =>
    intro pre e k i forms hsrc _ _ hquiet _
    have hnone : findStx src e ((pre ++ [].flatMap IdaPacket.bytes).length - e) = none := by
      refine findStx_none fun j hj hlt => hquiet.byte hsrc hj ?_
      rw [List.flatMap_nil, List.append_nil] at hlt
      omega
    refine ⟨forms, ?_, fun j hj => absurd hj (Nat.not_lt_zero j), fun j _ => rfl⟩
    cases k with
    | zero => rfl
    | succ k =>
      unfold packetLoop
      simp only [hnone]
      rfl
  | cons p ps ih =>
    intro pre e k i forms hsrc hcap he hquiet hk
    cases k with
    | zero => exact absurd hk (Nat.not_succ_le_zero _)
    | succ k =>
      rw [List.flatMap_cons] at hsrc hcap ⊢
      -- one turn takes the packet off the front, and the search goes on at its last byte
      obtain ⟨form, hheld, hturn⟩ :=
        packetLoop_packet (hreads p List.mem_cons_self) hsrc hcap he hquiet k i forms
      rw [← List.append_assoc] at hsrc hcap hturn ⊢
      obtain ⟨forms', hloop, hholds, hkept⟩ :=
        ih (fun p hp => hreads p (List.mem_cons_of_mem _ hp)) (i + 1) _ hsrc hcap (Nat.sub_le _ 1)
          (quietFrom_packet pre p) (Nat.le_of_succ_le_succ hk)
      refine ⟨forms', ?_, ?_, ?_⟩
      · rw [hturn, hloop, List.length_cons]
        simp only [Nat.add_lt_add_iff_right, Nat.add_assoc, Nat.add_comm 1]
      · intro j hj
        cases j with
        | zero =>
          -- the later turns write later forms only
          have hform := hkept i (Nat.lt_succ_self i)
          rw [if_pos rfl] at hform
          rw [Nat.add_zero, hform]
          exact hheld
        | succ j =>
          have hnext := hholds j (Nat.lt_of_succ_lt_succ hj)
          rw [show i + (j + 1) = i + 1 + j by omega]
          exact hnext
      · intro j hj
        rw [hkept j (Nat.lt_succ_of_lt hj), if_neg (by omega)]

/-! ## What is found

The other way round: from a turn that has counted a packet, what the bytes of the buffer must
have been. The arithmetic is modulo `2 ^ 16` on both sides, the length read and the end computed
from it, and the two wrap together. -/

section Found
variable {ch : PlainChar} {src : ParsBuf}

theorem findStx_some {e k n : Nat} (h : findStx src e k = some n) :
    n < e + k ∧ src.byte n = stxCode := by
  induction k generalizing e with
  | zero => cases h
  | succ k ih =>
    unfold findStx at h
    split at h
    · rename_i hstx
      obtain rfl := Option.some.inj h
      exact ⟨by omega, hstx⟩
    · obtain ⟨hlt, hstx⟩ := ih h
      exact ⟨by omega, hstx⟩

/-- A packet was found at `stx`, and copied over `old`. -/
structure PacketAt (ch : PlainChar) (src : ParsBuf) (size stx : Nat) (old form : IdaDataForm) :
    Prop where
  stx_byte : src.byte stx = stxCode
  ends : idaEnd ch src stx + 1 ≤ size
  etx : src.byte (idaEnd ch src stx) = etxCode
  pos : 1 ≤ idaPacketLen ch src stx
  fits : stx + idaPacketLen ch src stx ≤ parsBufCap
  copied : ∃ h, form =
    old.store ((src.bytes.drop (stx + 1)).take (idaPacketLen ch src stx - 1)) h

/-- **A turn of the loop**: it returns, or it copies a packet and goes on. -/
theorem packetLoop_turn {size k i e : Nat} {forms : Nat → IdaDataForm}
    {r : Option Nat × (Nat → IdaDataForm)} (h : packetLoop ch src size (k + 1) i e forms = some r) :
    r = (some i, forms) ∨ ∃ stx form, PacketAt ch src size stx (forms i) form ∧
      packetLoop ch src size k (i + 1) (idaEnd ch src stx)
        (fun j => if j = i then form else forms j) = some r := by
  unfold packetLoop at h
  dsimp only at h
  split at h
  · exact .inl (Option.some.inj h).symm
  · rename_i stx hfind
    split at h
    · exact .inl (Option.some.inj h).symm
    · split at h
      · exact .inl (Option.some.inj h).symm
      · rename_i hends
        split at h
        · exact .inl (Option.some.inj h).symm
        · rename_i hetx
          split at h
          · cases h
          · split at h
            · exact .inl (Option.some.inj h).symm
            · split at h
              · rename_i hfits
                refine .inr ⟨stx, _, ⟨(findStx_some hfind).2, Nat.not_lt.mp hends,
                  not_not.mp hetx, hfits.1, hfits.2, _, rfl⟩, h⟩
              · cases h

/-- The forms of earlier packets stay as they are. -/
theorem packetLoop_kept {size k i e : Nat} {forms : Nat → IdaDataForm}
    {r : Option Nat × (Nat → IdaDataForm)} (h : packetLoop ch src size k i e forms = some r) :
    ∀ j < i, r.2 j = forms j := by
  induction k generalizing i e forms with
  | zero =>
    obtain rfl := Option.some.inj h
    intro j _
    rfl
  | succ k ih =>
    intro j hj
    cases packetLoop_turn h with
    | inl heq => rw [heq]
    | inr hturn =>
      obtain ⟨stx, form, -, hnext⟩ := hturn
      rw [ih hnext j (Nat.lt_succ_of_lt hj), if_neg (Nat.ne_of_lt hj)]

/-- Each turn that goes on has counted a packet. -/
theorem packetLoop_count {size k i e n : Nat} {forms forms' : Nat → IdaDataForm}
    (h : packetLoop ch src size k i e forms = some (some n, forms')) : i ≤ n := by
  induction k generalizing i e forms with
  | zero => cases h
  | succ k ih =>
    cases packetLoop_turn h with
    | inl heq => exact Nat.le_of_eq (Option.some.inj (Prod.mk.inj heq).1).symm
    | inr hturn =>
      obtain ⟨stx, form, -, hnext⟩ := hturn
      exact Nat.le_of_succ_le (ih hnext)

/-- **What is counted was found**, and copied over what the form held before. -/
theorem packetLoop_found {size k i e n : Nat} {forms forms' : Nat → IdaDataForm}
    (h : packetLoop ch src size k i e forms = some (some n, forms')) :
    ∀ j, i ≤ j → j < n → ∃ stx, PacketAt ch src size stx (forms j) (forms' j) := by
  induction k generalizing i e forms with
  | zero => cases h
  | succ k ih =>
    intro j hij hjn
    cases packetLoop_turn h with
    | inl heq =>
      obtain ⟨hcount, -⟩ := Prod.mk.inj heq
      obtain rfl := Option.some.inj hcount
      omega
    | inr hturn =>
      obtain ⟨stx, form, hpacket, hnext⟩ := hturn
      rcases Nat.eq_or_lt_of_le hij with rfl | hlater
      · have hform := packetLoop_kept hnext i (Nat.lt_succ_self i)
        dsimp only at hform
        rw [if_pos rfl] at hform
        exact ⟨stx, hform ▸ hpacket⟩
      · obtain ⟨stx', hat⟩ := ih hnext j hlater hjn
        rw [if_neg (Nat.ne_of_gt hlater)] at hat
        exact ⟨stx', hat⟩

/-- A byte of the form that was copied, and one that was not. -/
theorem store_getD {f : IdaDataForm} {stx k i : Nat} (hfit : stx + 1 + k ≤ parsBufCap)
    (h : ((src.bytes.drop (stx + 1)).take k).length ≤ idaFormSize) :
    (f.store ((src.bytes.drop (stx + 1)).take k) h).body.getD i 0 =
      if i < k then src.byte (stx + 1 + i) else f.body.getD i 0 := by
  have hlen : ((src.bytes.drop (stx + 1)).take k).length = k := by
    rw [List.length_take, List.length_drop, src.length_bytes]
    omega
  unfold IdaDataForm.store ParsBuf.byte
  dsimp only
  rw [List.getD_eq_getElem?_getD, List.getD_eq_getElem?_getD, List.getD_eq_getElem?_getD]
  split
  · rename_i hi
    rw [List.getElem?_append_left (by omega), List.getElem?_take_of_lt hi, List.getElem?_drop]
  · rename_i hi
    rw [List.getElem?_append_right (by omega), List.getElem?_drop, hlen]
    congr 2
    omega

variable {size stx : Nat} {old form : IdaDataForm}

theorem PacketAt.getD (h : PacketAt ch src size stx old form) (i : Nat) : form.body.getD i 0 =
    if i < idaPacketLen ch src stx - 1 then src.byte (stx + 1 + i) else old.body.getD i 0 := by
  obtain ⟨hstore, rfl⟩ := h.copied
  have hpos := h.pos
  have hfits := h.fits
  exact store_getD (by omega) hstore

/-- `end_idx` and `packet_len` wrap around together, so that the end is where the packet ends. -/
theorem PacketAt.end_eq (h : PacketAt ch src size stx old form) :
    idaEnd ch src stx + 1 = stx + idaPacketLen ch src stx := by
  have hpacket : idaPacketLen ch src stx = (6 + (idaLength ch src stx).toNat) % 65536 := rfl
  have hend : idaEnd ch src stx = (stx + 5 + (idaLength ch src stx).toNat) % 65536 := rfl
  have hpos := h.pos
  have hfits : stx + idaPacketLen ch src stx ≤ 512 := h.fits
  omega

/-- A packet that is found has room for its length and its command. -/
theorem PacketAt.long (h : PacketAt ch src size stx old form) : 3 < idaPacketLen ch src stx := by
  have hend := h.end_eq
  have hpos := h.pos
  have hstx := h.stx_byte
  have hetx := h.etx
  have hpacket : idaPacketLen ch src stx = (6 + (idaLength ch src stx).toNat) % 65536 := rfl
  have hbytes := idaLength_toNat ch src stx
  have hlen := (idaLength ch src stx).toNat_lt
  have hlow := (src.byte (stx + 1)).toNat_lt
  have hhigh := (src.byte (stx + 2)).toNat_lt
  by_contra hshort
  have hwrap : (idaLength ch src stx).toNat = idaPacketLen ch src stx + 65530 := by omega
  have hcases : idaPacketLen ch src stx = 1 ∨ idaPacketLen ch src stx = 2 ∨
      idaPacketLen ch src stx = 3 := by
    omega
  rcases hcases with hone | htwo | hthree
  · -- ETX would be in the place of STX
    rw [show idaEnd ch src stx = stx by omega, hstx] at hetx
    exact absurd hetx (by decide)
  · -- or the low byte of a length of 0xFFFC
    rw [show idaEnd ch src stx = stx + 1 by omega] at hetx
    have hsign : ch.sign etxCode = 0 := by cases ch <;> rfl
    rw [hetx, hsign] at hbytes
    change _ = (3 + _ + 0) % 65536 at hbytes
    omega
  · -- or the high byte of one of 0xFFFD
    rw [show idaEnd ch src stx = stx + 2 by omega] at hetx
    rw [hetx] at hbytes
    change _ = (_ + 3 * 256 + _) % 65536 at hbytes
    have hsign : ch.sign (src.byte (stx + 1)) = 0 ∨ ch.sign (src.byte (stx + 1)) = 65280 := by
      unfold PlainChar.sign
      split
      · split
        · exact .inl rfl
        · exact .inr rfl
      · exact .inl rfl
    omega

/-- The length that a copied packet starts with. -/
theorem PacketAt.lenth16 (h : PacketAt ch src size stx old form) : form.lenth16.toNat =
    (src.byte (stx + 1)).toNat + (src.byte (stx + 2)).toNat * 256 := by
  have hlong := h.long
  unfold IdaDataForm.lenth16
  rw [le16_toNat, h.getD 0, h.getD 1, if_pos (by omega), if_pos (by omega)]

/-- **A packet is no longer than the bytes it is found in**, going by the length it is copied with
if that was read right, or else it claims to be longer than any two reads. -/
theorem PacketAt.size_of_reads (h : PacketAt ch src size stx old form)
    (hreads : ch.Reads form.lenth16.toNat) :
    form.lenth16.toNat + 6 ≤ size ∨ 65533 ≤ form.lenth16.toNat := by
  have hlenth := h.lenth16
  have hlow := (src.byte (stx + 1)).toNat_lt
  have hbytes := idaLength_toNat ch src stx
  rw [hreads.sign_eq (by omega)] at hbytes
  have hpacket : idaPacketLen ch src stx = (6 + (idaLength ch src stx).toNat) % 65536 := rfl
  have hends := h.ends
  have hend := h.end_eq
  have hlong := h.long
  have hlen := form.lenth16.toNat_lt
  omega

/-- **A packet whose length is not read right is not received**: what is copied ends before its last
byte, which the form has from before. -/
theorem PacketAt.not_held {p : IdaPacket} (h : PacketAt ch src size stx old form)
    (hreads : ¬ ch.Reads (p.data.length + 1))
    (hold : old.body.getD (p.data.length + 2) 0 ≠ p.data.getD (p.data.length - 1) 0) :
    ¬ p.Held form := by
  intro hheld
  have hlenth := h.lenth16
  rw [hheld.lenth16, p.lenth16_toNat] at hlenth
  unfold PlainChar.Reads at hreads
  obtain ⟨hch, hhigh⟩ := not_or.mp hreads
  have hlow := (src.byte (stx + 1)).toNat_lt
  have hsign : ch.sign (src.byte (stx + 1)) = 65280 := by
    cases ch with
    | signed => exact if_neg (by omega)
    | unsigned => exact absurd rfl hch
  have hbytes := idaLength_toNat ch src stx
  rw [hsign] at hbytes
  have hpacket : idaPacketLen ch src stx = (6 + (idaLength ch src stx).toNat) % 65536 := rfl
  have hfits : stx + idaPacketLen ch src stx ≤ 512 := h.fits
  have hfit := p.fits
  have hlast : form.body.getD (p.data.length + 2) 0 = p.data.getD (p.data.length - 1) 0 := by
    have hdata : (form.data8.take p.data.length).getD (p.data.length - 1) 0 =
        p.data.getD (p.data.length - 1) 0 := by
      rw [hheld.data8]
    rw [← hdata]
    unfold IdaDataForm.data8
    rw [List.getD_eq_getElem?_getD, List.getD_eq_getElem?_getD,
      List.getElem?_take_of_lt (by omega), List.getElem?_drop]
    congr 2
    omega
  rw [h.getD, if_neg (by omega)] at hlast
  exact hold hlast

end Found

/-! ## Reads -/

/-- The packets of a read were taken: their number is returned, and the forms hold them. -/
def TakesPackets (ch : PlainChar) (s : Ida) (ps : List IdaPacket) : Prop :=
  ∃ s', validIda ch s (ps.flatMap IdaPacket.bytes) = some (some ps.length, s') ∧
    ∀ j (hj : j < ps.length), ps[j].Held (s'.rxForm j)

/-- What `ValidIda` counts, it has found in the bytes it looked through. -/
theorem validIda_found {ch : PlainChar} {s s' : Ida} {rxSrc : List UInt8} {n : Nat}
    (h : validIda ch s rxSrc = some (some n, s')) {j : Nat} (hj : j < n) :
    ∃ src stx, PacketAt ch src (s.dataContinSize + rxSrc.length) stx (s.rxForm j)
      (s'.rxForm j) := by
  have hnone : ∀ {t : Ida}, (some 0, t) = (some n, s') → False := by
    intro t heq
    have hcount := Option.some.inj (Prod.mk.inj heq).1
    omega
  unfold validIda at h
  dsimp only at h
  split at h
  · rename_i hempty
    split at h
    · split at h
      · exact (hnone (Option.some.inj h)).elim
      · obtain ⟨r, hloop, heq⟩ := Option.map_eq_some_iff.mp h
        obtain ⟨hcount, rfl⟩ := Prod.mk.inj heq
        rw [← Prod.eta r, hcount] at hloop
        obtain ⟨stx, hat⟩ := packetLoop_found hloop j (Nat.zero_le j) hj
        rw [hempty, Nat.zero_add]
        exact ⟨_, stx, hat⟩
    · cases h
  · split at h
    · exact (hnone (Option.some.inj h)).elim
    · split at h
      · exact (hnone (Option.some.inj h)).elim
      · split at h
        · obtain ⟨r, hloop, heq⟩ := Option.map_eq_some_iff.mp h
          obtain ⟨hcount, rfl⟩ := Prod.mk.inj heq
          rw [← Prod.eta r, hcount] at hloop
          obtain ⟨stx, hat⟩ := packetLoop_found hloop j (Nat.zero_le j) hj
          exact ⟨_, stx, hat⟩
        · cases h

/-- What `ValidIda` makes of a read of packets that comes to an empty buffer. -/
theorem validIda_packets {ch : PlainChar} {s : Ida} {ps : List IdaPacket}
    (hreads : ∀ p ∈ ps, ch.Reads (p.data.length + 1)) (hempty : s.dataContinSize = 0)
    (hone : ps ≠ []) (hfew : ps.length ≤ idaPackets)
    (hcap : (ps.flatMap IdaPacket.bytes).length ≤ parsBufCap) :
    ∃ s', validIda ch s (ps.flatMap IdaPacket.bytes) =
        some (if ps.length < idaPackets then some ps.length else none, s') ∧
      s'.dataContinSize = 0 ∧ ∀ j (hj : j < ps.length), ps[j].Held (s'.rxForm j) := by
  have hroom : 0 + (ps.flatMap IdaPacket.bytes).length ≤ parsBufCap := by
    rw [Nat.zero_add]
    exact hcap
  have hsrc : (ParsBuf.clear.memcpy 0 (ps.flatMap IdaPacket.bytes) hroom).Holds
      ([] ++ ps.flatMap IdaPacket.bytes) := ParsBuf.holds_clear.memcpy hroom
  obtain ⟨forms', hloop, hholds, -⟩ := packetLoop_packets ps hreads 0 s.rxForm hsrc hcap
    (Nat.zero_le _) (fun b hb => absurd hb List.not_mem_nil) hfew
  have hlast : (ps.flatMap IdaPacket.bytes).getLast? = some etxCode := by
    obtain ⟨p, hp⟩ : ∃ p, ps.getLast? = some p :=
      ⟨_, List.getLast?_eq_some_getLast hone⟩
    obtain ⟨init, rfl⟩ := List.getLast?_eq_some_iff.mp hp
    rw [List.flatMap_append, List.flatMap_singleton, p.bytes_concat, ← List.append_assoc,
      List.getLast?_concat]
  refine ⟨{ s with
    src := ParsBuf.clear.memcpy 0 (ps.flatMap IdaPacket.bytes) hroom,
    rxForm := forms' }, ?_, hempty, ?_⟩
  · unfold validIda
    dsimp only
    rw [if_pos hempty, dif_pos hroom, if_neg (not_not_intro hlast)]
    simp only [List.nil_append, Nat.zero_add] at hloop
    rw [hloop]
    rfl
  · intro j hj
    have hheld := hholds j hj
    rw [Nat.zero_add] at hheld
    exact hheld

/-- **What is sent is received** where plain `char` is unsigned: a packet that `MakeTx` and
`SendBuff` build from data in place is taken, as one packet, whatever its bytes look like. -/
theorem ida_roundTrip (f : IdaDataForm) (cmd : UInt8) (data : List UInt8) (hlen : data.length ≤ 254)
    (hdata : f.data8.take data.length = data) (s : Ida) (hempty : s.dataContinSize = 0) :
    ∃ f' s', makeTx f cmd (UInt16.ofNat (data.length + 1)) = some f' ∧
      validIda .unsigned s (sendBuff f' (UInt8.ofNat data.length)) = some (some 1, s') ∧
      (s'.rxForm 0).lenth16 = UInt16.ofNat (data.length + 1) ∧ (s'.rxForm 0).cmd8 = cmd ∧
      (s'.rxForm 0).data8.take data.length = data ∧ s'.dataContinSize = 0 := by
  let p : IdaPacket := ⟨cmd, data, by omega⟩
  obtain ⟨f', hmake, hsend⟩ := sendBuff_packet p hlen hdata
  have hone : [p].flatMap IdaPacket.bytes = p.bytes := List.flatMap_singleton _ _
  have hcap : ([p].flatMap IdaPacket.bytes).length ≤ parsBufCap := by
    have hdata : p.data.length = data.length := rfl
    rw [hone, p.length_bytes]
    unfold parsBufCap
    omega
  have hreads : ∀ q ∈ [p], PlainChar.unsigned.Reads (q.data.length + 1) := fun _ _ => .inl rfl
  obtain ⟨s', hvalid, hcontin, hheld⟩ := validIda_packets hreads hempty (List.cons_ne_nil p [])
    (show 1 ≤ 5 by decide) hcap
  rw [hone, ← hsend] at hvalid
  have hfirst : p.Held (s'.rxForm 0) := hheld 0 Nat.one_pos
  exact ⟨f', s', hmake, hvalid, hfirst.lenth16, hfirst.cmd8, hfirst.data8, hcontin⟩

/-- Nothing was received yet. -/
def Ida.init : Ida := ⟨.clear, 0, fun _ => .zero⟩

/-- Data that is all delimiters. -/
theorem ida_roundTrip_delimiters : ∃ f' s',
    makeTx (IdaDataForm.zero.store [0, 0, 0, stxCode, etxCode, stxCode] (by decide)) 0x23 4 =
      some f' ∧
    validIda .unsigned .init (sendBuff f' 3) = some (some 1, s') ∧
    (s'.rxForm 0).data8.take 3 = [stxCode, etxCode, stxCode] := by
  obtain ⟨f', s', hmake, hvalid, -, -, hdata, -⟩ :=
    ida_roundTrip (IdaDataForm.zero.store [0, 0, 0, stxCode, etxCode, stxCode] (by decide)) 0x23
      [stxCode, etxCode, stxCode] (by decide) (by decide) .init rfl
  exact ⟨f', s', hmake, hvalid, hdata⟩

/-- A receiver with nothing left over, whose forms are full of one byte. -/
def Ida.filled (b : UInt8) : Ida :=
  { Ida.init with rxForm := fun _ => .filled b }

/-- A packet from the old bytes of a form and one that was not read to its end are different, if the
forms are full of another byte than its last. -/
theorem PacketAt.not_held_filled {ch : PlainChar} {src : ParsBuf} {size stx : Nat} {p : IdaPacket}
    {form : IdaDataForm}
    (h : PacketAt ch src size stx (.filled (p.data.getD (p.data.length - 1) 0 + 1)) form)
    (hreads : ¬ ch.Reads (p.data.length + 1)) : ¬ p.Held form := by
  intro hheld
  have hlen := hheld.data_length
  refine h.not_held hreads ?_ hheld
  unfold IdaDataForm.filled idaFormSize
  dsimp only
  rw [List.getD_eq_getElem?_getD, List.getElem?_replicate_of_lt (by omega), Option.getD_some]
  intro heq
  have hnat := congrArg UInt8.toNat heq
  rw [UInt8.toNat_add] at hnat
  change (_ + 1) % 256 = _ at hnat
  omega

/-- **Packets that come together** are all taken, whatever the forms held before, exactly if there
are at most four and the low byte of each length is below 0x80: a fifth is copied, but then the
function ends without a value, and a low byte from 0x80 on is negative. -/
theorem ida_packets_iff (ps : List IdaPacket) (hone : ps ≠ []) (hfew : ps.length ≤ idaPackets)
    (hcap : (ps.flatMap IdaPacket.bytes).length ≤ parsBufCap) :
    (∀ s : Ida, s.dataContinSize = 0 → TakesPackets .signed s ps) ↔
      ps.length ≤ 4 ∧ ∀ p ∈ ps, (p.data.length + 1) % 256 < 0x80 := by
  constructor
  · intro htakes
    have hreads : ∀ p ∈ ps, PlainChar.signed.Reads (p.data.length + 1) := by
      intro p hp
      by_contra hmis
      obtain ⟨j, hj, rfl⟩ := List.mem_iff_getElem.mp hp
      obtain ⟨s', hvalid, hheld⟩ :=
        htakes (.filled (ps[j].data.getD (ps[j].data.length - 1) 0 + 1)) rfl
      obtain ⟨src, stx, hat⟩ := validIda_found hvalid hj
      exact hat.not_held_filled hmis (hheld j hj)
    refine ⟨?_, fun p hp => (hreads p hp).resolve_left (by simp)⟩
    by_contra hmany
    obtain ⟨t, ht, -⟩ := htakes .init rfl
    obtain ⟨s', hvalid, -, -⟩ := validIda_packets (s := .init) hreads rfl hone hfew hcap
    have hfive : ¬ ps.length < idaPackets := by
      unfold idaPackets
      omega
    rw [hvalid, if_neg hfive] at ht
    cases ht
  · rintro ⟨hle, hlow⟩ s hempty
    have hreads : ∀ p ∈ ps, PlainChar.signed.Reads (p.data.length + 1) :=
      fun p hp => .inr (hlow p hp)
    obtain ⟨s', hvalid, -, hheld⟩ := validIda_packets hreads hempty hone hfew hcap
    have hlt : ps.length < idaPackets := Nat.lt_succ_of_le hle
    rw [if_pos hlt] at hvalid
    exact ⟨s', hvalid, hheld⟩

/-- An acknowledgement. -/
def ackPacket : IdaPacket := ⟨0x10, [0x06], by decide⟩

theorem ida_packets_four : TakesPackets .signed .init [ackPacket, ackPacket, ackPacket, ackPacket] :=
  (ida_packets_iff _ (List.cons_ne_nil _ _) (by decide) (by decide +kernel)).mpr (by decide) .init rfl

theorem long_fits : (List.replicate 200 (0 : UInt8)).length + 1 < 2 ^ 16 := by
  rw [List.length_replicate]
  decide

/-- A message with 200 bytes of data. -/
def longPacket : IdaPacket := ⟨0x23, List.replicate 200 0, long_fits⟩

/-- Five acknowledgements, and no count; and one packet whose length is taken for 65481. -/
theorem ida_packets_five :
    ¬ TakesPackets .signed .init [ackPacket, ackPacket, ackPacket, ackPacket, ackPacket] ∧
      ¬ TakesPackets .signed .init [longPacket] := by
  constructor
  · rintro ⟨t, ht, -⟩
    have hreads : ∀ p ∈ [ackPacket, ackPacket, ackPacket, ackPacket, ackPacket],
        PlainChar.signed.Reads (p.data.length + 1) := by
      intro p hp
      simp only [List.mem_cons, List.not_mem_nil, or_false, or_self] at hp
      subst hp
      exact .inr (by decide)
    obtain ⟨s', hvalid, -, -⟩ := validIda_packets (s := .init) hreads rfl
      (List.cons_ne_nil ackPacket _) (by decide) (by decide +kernel)
    rw [hvalid] at ht
    cases ht
  · rintro ⟨t, ht, -⟩
    have hnone : (validIda .signed .init ([longPacket].flatMap IdaPacket.bytes)).map Prod.fst =
        some (some 0) := by
      decide +kernel
    rw [ht] at hnone
    cases hnone

end ChargePoint
