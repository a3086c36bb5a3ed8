import ChargePoint.Secc.Valid

/-!
# Which responses of the SECC are accepted

`SeccResponse` is a response to the requests that were built last, said without reference to the
buffer or to the order of the tests. What the second half of `ValidSecc` accepts is a response
(`check_sound`), and every response is accepted (`check_complete`). What is left is the first half:
which chunks add up to the whole of it.
-/

set_option autoImplicit false

namespace ChargePoint

/-! ## Responses

What counts as a response depends on two requests, the last one to read and the last one to
write. Either may be answered; the function code says which. -/

/-- The requests that were built last, by the addresses and counts that were asked for. -/
def lastRead (log : List SeccObs) : Option (UInt16 × UInt16) :=
  log.foldl (fun r o => match o with
    | .readBuilt a n => some (a, n)
    | .writeBuilt _ _ | .accepted _ => r) none

def lastWrite (log : List SeccObs) : Option (UInt16 × UInt16) :=
  log.foldl (fun r o => match o with
    | .writeBuilt a n => some (a, n)
    | .readBuilt _ _ | .accepted _ => r) none

/-- A number as it is sent, the high byte first. -/
def sent16 (x : UInt16) : List UInt8 := [(x >>> 8).toUInt8, x.toUInt8]

/-- A message with its check sum. -/
def withCrc (body : List UInt8) : List UInt8 := body ++ crcBytes body

/-- **A response to the last requests**: function 4 with two bytes for each register that was
asked for, or function 16 with the address and the count that were written. -/
inductive SeccResponse (log : List SeccObs) : List UInt8 → Prop
  | read {a n : UInt16} {count : UInt8} {data : List UInt8} (hreq : lastRead log = some (a, n))
      (hcount : count.toNat = n.toNat * 2) (hdata : data.length = count.toNat) :
      SeccResponse log (withCrc (chrgId :: fcRead :: count :: data))
  | write {a n : UInt16} (hreq : lastWrite log = some (a, n)) :
      SeccResponse log (withCrc (chrgId :: fcWrite :: (sent16 a ++ sent16 n)))

/-! ## Numbers of two bytes

The builders turn their numbers round (`led2Bed16`), and the tests put two bytes of the buffer
together the other way. So a comparison of the two is one of the bytes with what would be sent. -/

theorem src16_toNat (s : Secc) (hi lo : Nat) :
    (s.src16 hi lo).toNat = (s.src.byte hi).toNat * 256 + (s.src.byte lo).toNat := by
  have htable : ∀ i : Fin 256, (((UInt8.ofNat i.val).toUInt16 <<< 8) &&& (0xff00 : UInt16)).toNat =
      i.val * 256 ∧ ((UInt8.ofNat i.val).toUInt16 &&& (0xff : UInt16)).toNat = i.val := by
    decide +kernel
  have hbyte : ∀ b : UInt8, ((b.toUInt16 <<< 8) &&& (0xff00 : UInt16)).toNat = b.toNat * 256 ∧
      (b.toUInt16 &&& (0xff : UInt16)).toNat = b.toNat := by
    intro b
    have hb := htable ⟨b.toNat, b.toNat_lt⟩
    simpa using hb
  unfold Secc.src16
  rw [UInt16.toNat_add, (hbyte _).1, (hbyte _).2]
  have hhi := (s.src.byte hi).toNat_lt
  have hlo := (s.src.byte lo).toNat_lt
  omega

theorem led2Bed16_toNat (x : UInt16) :
    (led2Bed16 x).toNat = x.toNat / 256 + x.toNat % 256 * 256 := by
  have hx := x.toNat_lt
  have hhigh : ((x >>> 8) &&& (0xff : UInt16)).toNat = x.toNat / 256 := by
    have hand : x.toNat / 256 &&& 255 = x.toNat / 256 % 256 :=
      Nat.and_two_pow_sub_one_eq_mod (x.toNat / 256) 8
    have hstep : ((x >>> 8) &&& (0xff : UInt16)).toNat = x.toNat / 256 &&& 255 := by
      simp [UInt16.toNat_and, UInt16.toNat_shiftRight, Nat.shiftRight_eq_div_pow]
    rw [hstep, hand]
    omega
  have hlow : ((x <<< 8) &&& (0xff00 : UInt16)).toNat = x.toNat % 256 * 256 := by
    have hshift : x.toNat * 256 % 65536 = (x.toNat % 256) <<< 8 := by
      rw [Nat.shiftLeft_eq]
      omega
    have hand : x.toNat % 256 &&& 255 = x.toNat % 256 := by
      rw [show (255 : Nat) = 2 ^ 8 - 1 from rfl, Nat.and_two_pow_sub_one_eq_mod, Nat.mod_mod]
    have hstep : ((x <<< 8) &&& (0xff00 : UInt16)).toNat = x.toNat * 256 % 65536 &&& 255 <<< 8 := by
      simp only [UInt16.toNat_and, UInt16.toNat_shiftLeft, Nat.shiftLeft_eq]
      rfl
    rw [hstep, hshift, ← Nat.shiftLeft_and_distrib, hand, Nat.shiftLeft_eq]
  unfold led2Bed16
  rw [UInt16.toNat_add, hhigh, hlow]
  omega

theorem led2Bed16_led2Bed16 (x : UInt16) : led2Bed16 (led2Bed16 x) = x := by
  have hx := x.toNat_lt
  apply UInt16.toNat_inj.mp
  rw [led2Bed16_toNat, led2Bed16_toNat]
  omega

theorem tsctCrc16_toNat (bs : List UInt8) : (tsctCrc16 bs).toNat =
    (tsctCrc16Loop 0xFF 0xFF bs).1.toNat * 256 + (tsctCrc16Loop 0xFF 0xFF bs).2.toNat := by
  generalize hr : tsctCrc16Loop 0xFF 0xFF bs = r
  have hhi := r.1.toNat_lt
  have hlo := r.2.toNat_lt
  have hor : r.1.toNat <<< 8 ||| r.2.toNat = r.1.toNat <<< 8 + r.2.toNat :=
    (Nat.shiftLeft_add_eq_or_of_lt hlo r.1.toNat).symm
  have hshift : r.1.toNat <<< 8 % 65536 = r.1.toNat <<< 8 := by
    rw [Nat.shiftLeft_eq]
    omega
  have hval : (tsctCrc16 bs).toNat = r.1.toNat <<< 8 % 65536 ||| r.2.toNat := by
    unfold tsctCrc16
    rw [hr, UInt16.toNat_or, UInt16.toNat_shiftLeft]
    rfl
  rw [hval, hshift, hor, Nat.shiftLeft_eq]

/-- The number the builder stores, and the two bytes it is compared with. -/
theorem led2Bed16_eq_src16 (s : Secc) (x : UInt16) (hi lo : Nat) :
    led2Bed16 x = s.src16 hi lo ↔ [s.src.byte lo, s.src.byte hi] = sent16 x := by
  have hx := x.toNat_lt
  have hhi := (s.src.byte hi).toNat_lt
  have hlo := (s.src.byte lo).toNat_lt
  have hfirst : ((x >>> 8).toUInt8).toNat = x.toNat / 256 := by
    simp only [UInt16.toNat_toUInt8, UInt16.toNat_shiftRight, Nat.shiftRight_eq_div_pow]
    show x.toNat / 256 % 256 = x.toNat / 256
    omega
  have hsecond : x.toUInt8.toNat = x.toNat % 256 := UInt16.toNat_toUInt8 x
  rw [← UInt16.toNat_inj, led2Bed16_toNat, src16_toNat]
  unfold sent16
  simp only [List.cons.injEq, ← UInt8.toNat_inj, hfirst, hsecond, and_true]
  omega

/-! ## The second half

`Passes` has the tests in one place, without their order. Only `check_iff_passes` follows the
code through its branches; `check_sound` and `check_complete` compare `Passes` with
`SeccResponse`. -/

/-- The message in the buffer. -/
def Secc.frame (s : Secc) (size : Nat) : List UInt8 := s.src.bytes.take size

/-- What the state keeps of the requests that were built. -/
structure Secc.Linked (s : Secc) (log : List SeccObs) : Prop where
  read : match lastRead log with
    | none => s.readTx.funcCode = 0
    | some r => s.readTx.funcCode = fcRead ∧ led2Bed16 s.readTx.reqAddrLen = r.2
  write : match lastWrite log with
    | none => s.writeTx.funcCode = 0
    | some r => s.writeTx.funcCode = fcWrite ∧ s.writeTx.reqAddr = led2Bed16 r.1 ∧
        s.writeTx.reqAddrLen = led2Bed16 r.2

section Check
variable {s : Secc} {log : List SeccObs} {size : Nat}

theorem frame_length (hsize : size ≤ parsBufCap) : (s.frame size).length = size := by
  unfold Secc.frame
  rw [List.length_take, s.src.length_bytes]
  omega

theorem frame_byte {i : Nat} (hi : i < size) : (s.frame size).getD i 0 = s.src.byte i := by
  unfold Secc.frame ParsBuf.byte
  rw [List.getD_eq_getElem?_getD, List.getD_eq_getElem?_getD, List.getElem?_take_of_lt hi]

/-- A list is its first elements and what follows. -/
theorem eq_take_append {l : List UInt8} {n : Nat} (h : l.length = n + 2) :
    l = l.take n ++ [l.getD n 0, l.getD (n + 1) 0] := by
  have hdrop : l.drop n = [l.getD n 0, l.getD (n + 1) 0] := by
    rw [List.drop_eq_getElem_cons (by omega), List.drop_eq_getElem_cons (by omega),
      List.drop_of_length_le (by omega)]
    simp [List.getD_eq_getElem?_getD, List.getElem?_eq_getElem (show n < l.length by omega),
      List.getElem?_eq_getElem (show n + 1 < l.length by omega)]
  rw [← hdrop, List.take_append_drop]

/-- The check sum stands at the end, the low byte first. -/
theorem crcCheck_iff (hlow : 2 ≤ size) (hsize : size ≤ parsBufCap) :
    s.crcCheck size = true ↔ s.frame size = withCrc ((s.frame size).take (size - 2)) := by
  have hsplit := eq_take_append (l := s.frame size) (n := size - 2)
    ((frame_length hsize).trans (by omega))
  rw [frame_byte (by omega), frame_byte (by omega), show size - 2 + 1 = size - 1 by omega] at hsplit
  have htake : s.src.bytes.take (size - 2) = (s.frame size).take (size - 2) := by
    unfold Secc.frame
    rw [List.take_take, Nat.min_eq_left (by omega)]
  unfold Secc.crcCheck withCrc
  rw [decide_eq_true_eq, htake, tsctCrc16Loop_eq, ← UInt16.toNat_inj, tsctCrc16_toNat, src16_toNat]
  generalize tsctCrc16Loop 0xFF 0xFF ((s.frame size).take (size - 2)) = r
  have hhi := (s.src.byte (size - 2)).toNat_lt
  have hlo := (s.src.byte (size - 1)).toNat_lt
  have hhi' := r.1.toNat_lt
  have hlo' := r.2.toNat_lt
  constructor
  · intro h
    have hfirst : s.src.byte (size - 2) = r.1 := UInt8.toNat_inj.mp (by omega)
    have hsecond : s.src.byte (size - 1) = r.2 := UInt8.toNat_inj.mp (by omega)
    rw [← hfirst, ← hsecond]
    exact hsplit
  · intro h
    have hbytes := List.append_cancel_left (hsplit.symm.trans h)
    obtain ⟨hfirst, hsecond⟩ : s.src.byte (size - 2) = r.1 ∧ s.src.byte (size - 1) = r.2 := by
      simpa using hbytes
    rw [hfirst, hsecond]

theorem crcBytes_length (bs : List UInt8) : (crcBytes bs).length = 2 := rfl

/-- A message whose body is known has its check sum right. -/
theorem crcCheck_withCrc {body : List UInt8} (hsize : size ≤ parsBufCap)
    (h : s.frame size = withCrc body) : s.crcCheck size = true := by
  have hlen := frame_length (s := s) hsize
  rw [h, withCrc, List.length_append, crcBytes_length] at hlen
  rw [crcCheck_iff (by omega) hsize, h]
  have htake : (withCrc body).take (size - 2) = body := List.take_left' (by omega)
  rw [htake]

/-- The first bytes of a message. -/
theorem frame_take {k : Nat} (hk : k ≤ size) (hsize : size ≤ parsBufCap) :
    (s.frame size).take k = (List.range k).map s.src.byte := by
  have hlen := frame_length (s := s) hsize
  apply List.ext_getElem
  · simp only [List.length_take, List.length_map, List.length_range]
    omega
  · intro i hi₁ hi₂
    have hi : i < k := by simpa using hi₂
    have hbyte := frame_byte (s := s) (show i < size by omega)
    rw [List.getD_eq_getElem?_getD, List.getElem?_eq_getElem (by omega), Option.getD_some] at hbyte
    rw [List.getElem_take, List.getElem_map, List.getElem_range, hbyte]

/-- The read request that is linked to a function code of 4. -/
theorem Secc.Linked.readBuilt (h : s.Linked log) (hcode : s.readTx.funcCode = fcRead) :
    ∃ a n, lastRead log = some (a, n) ∧ led2Bed16 s.readTx.reqAddrLen = n := by
  have hread := h.read
  cases hlast : lastRead log with
  | none =>
    rw [hlast] at hread
    exact absurd (hread.symm.trans hcode) (by decide)
  | some r =>
    rw [hlast] at hread
    exact ⟨r.1, r.2, rfl, hread.2⟩

theorem Secc.Linked.writeBuilt (h : s.Linked log) (hcode : s.writeTx.funcCode = fcWrite) :
    ∃ a n, lastWrite log = some (a, n) ∧ s.writeTx.reqAddr = led2Bed16 a ∧
      s.writeTx.reqAddrLen = led2Bed16 n := by
  have hwrite := h.write
  cases hlast : lastWrite log with
  | none =>
    rw [hlast] at hwrite
    exact absurd (hwrite.symm.trans hcode) (by decide)
  | some r =>
    rw [hlast] at hwrite
    exact ⟨r.1, r.2, rfl, hwrite.2⟩

/-- The tests of the second half, all together. -/
structure Secc.Passes (s : Secc) (size : Nat) : Prop where
  low : 5 ≤ size
  id : s.src.byte 0 = chrgId
  crc : s.crcCheck size = true
  fits : (s.src.byte 1 = fcRead ∧ s.readTx.funcCode = fcRead ∧
      (led2Bed16 s.readTx.reqAddrLen).toNat * 2 = (s.src.byte 2).toNat ∧
      (s.src.byte 2).toNat = size - 5) ∨
    (s.src.byte 1 = fcWrite ∧ s.writeTx.funcCode = fcWrite ∧ s.writeTx.reqAddr = s.src16 3 2 ∧
      s.writeTx.reqAddrLen = s.src16 5 4 ∧ size = 8)

theorem check_iff_passes : (s.check size).1 = true ↔ s.Passes size := by
  have hfalse : ∀ {t : Secc}, ((false, t) : Bool × Secc).1 = true ↔ False := by simp
  have hcodes : fcRead ≠ fcWrite := by decide
  constructor
  · intro h
    unfold Secc.check at h
    split at h
    · exact (hfalse.mp h).elim
    -- the checks in the source's order: length, unit, function, and then those of the function
    rename_i hlow
    split at h
    · exact (hfalse.mp h).elim
    rename_i hid
    split at h
    · rename_i hcode
      split at h
      · exact (hfalse.mp h).elim
      rename_i htx
      split at h
      · exact (hfalse.mp h).elim
      rename_i hcount
      split at h
      · exact (hfalse.mp h).elim
      rename_i hlen
      exact ⟨by omega, by simpa using hid, h, .inl ⟨hcode, by simpa [hcode] using htx,
        by simpa using hcount, by simpa using hlen⟩⟩
    · split at h
      · rename_i hcode
        split at h
        · exact (hfalse.mp h).elim
        rename_i htx
        split at h
        · exact (hfalse.mp h).elim
        rename_i haddr
        split at h
        · exact (hfalse.mp h).elim
        rename_i hcount
        split at h
        · exact (hfalse.mp h).elim
        rename_i hlen
        exact ⟨by omega, by simpa using hid, h, .inr ⟨hcode, by simpa [hcode] using htx,
          by simpa using haddr, by simpa using hcount, by omega⟩⟩
      · exact (hfalse.mp h).elim
  · intro h
    unfold Secc.check
    rw [if_neg (by have := h.low; omega), if_neg (by simp [h.id])]
    rcases h.fits with ⟨hcode, htx, hcount, hlen⟩ | ⟨hcode, htx, haddr, hcount, hlen⟩
    · rw [if_pos hcode, if_neg (by simp [htx, hcode]), if_neg (by simp [hcount]),
        if_neg (by simp [hlen])]
      exact h.crc
    · rw [if_neg (by rw [hcode]; exact hcodes.symm), if_pos hcode, if_neg (by simp [htx, hcode]),
        if_neg (by simp [haddr]), if_neg (by simp [hcount]), if_neg (by simp [hlen])]
      exact h.crc

/-- **What the second half accepts is a response.** -/
theorem check_sound (hlinked : s.Linked log) (hsize : size ≤ parsBufCap)
    (h : (s.check size).1 = true) : SeccResponse log (s.frame size) := by
  obtain ⟨hlow, hid, hcrc, hfits⟩ := check_iff_passes.mp h
  rw [(crcCheck_iff (by omega) hsize).mp hcrc]
  rcases hfits with ⟨hcode, htx, hcount, hlen⟩ | ⟨hcode, htx, haddr, hcount, rfl⟩
  · obtain ⟨a, n, hlast, hn⟩ := hlinked.readBuilt htx
    have hthree : (s.frame size).take 3 = [s.src.byte 0, s.src.byte 1, s.src.byte 2] :=
      frame_take (by omega) hsize
    have hbody : (s.frame size).take (size - 2) =
        chrgId :: fcRead :: s.src.byte 2 :: ((s.frame size).take (size - 2)).drop 3 := by
      conv_lhs => rw [← List.take_append_drop 3 ((s.frame size).take (size - 2))]
      rw [List.take_take, Nat.min_eq_left (by omega), hthree, hid, hcode]
      rfl
    rw [hbody]
    refine .read hlast ?_ ?_
    · rw [← hn]
      exact hcount.symm
    · rw [List.length_drop, List.length_take, frame_length hsize]
      omega
  · obtain ⟨a, n, hlast, ha, hn⟩ := hlinked.writeBuilt htx
    have hbody : (s.frame 8).take (8 - 2) = [s.src.byte 0, s.src.byte 1, s.src.byte 2,
        s.src.byte 3, s.src.byte 4, s.src.byte 5] := frame_take (by decide) hsize
    have hsent : [s.src.byte 2, s.src.byte 3] = sent16 a :=
      (led2Bed16_eq_src16 s a 3 2).mp (ha.symm.trans haddr)
    have hsent' : [s.src.byte 4, s.src.byte 5] = sent16 n :=
      (led2Bed16_eq_src16 s n 5 4).mp (hn.symm.trans hcount)
    rw [hbody, hid, hcode]
    have hwrite := SeccResponse.write hlast
    rw [← hsent, ← hsent'] at hwrite
    exact hwrite

/-- A response is of the length its first bytes say. -/
theorem SeccResponse.length {f : List UInt8} (h : SeccResponse log f) :
    5 ≤ f.length ∧ f.length ≤ 260 := by
  cases h with
  | @read a n count data hreq hcount hdata =>
    have hlt := count.toNat_lt
    simp only [withCrc, List.length_append, List.length_cons, crcBytes_length]
    omega
  | @write a n hreq =>
    have hlen : (withCrc (chrgId :: fcWrite :: (sent16 a ++ sent16 n))).length = 8 := rfl
    omega

/-- **The second half accepts every response.** -/
theorem check_complete (hlinked : s.Linked log) {f : List UInt8} (h : SeccResponse log f)
    (hframe : s.frame f.length = f) : (s.check f.length).1 = true := by
  obtain ⟨hlow, hhigh⟩ := h.length
  have hsize : f.length ≤ parsBufCap := by
    unfold parsBufCap
    omega
  have hbyte : ∀ i < f.length, s.src.byte i = f.getD i 0 := by
    intro i hi
    rw [← frame_byte hi, hframe]
  rw [check_iff_passes]
  cases h with
  | @read a n count data hreq hcount hdata =>
    have hread := hlinked.read
    rw [hreq] at hread
    have h₀ : s.src.byte 0 = chrgId := hbyte 0 (by omega)
    have h₁ : s.src.byte 1 = fcRead := hbyte 1 (by omega)
    have h₂ : s.src.byte 2 = count := hbyte 2 (by omega)
    refine ⟨hlow, h₀, crcCheck_withCrc hsize hframe, .inl ⟨h₁, hread.1, ?_, ?_⟩⟩
    · rw [hread.2, h₂]
      exact hcount.symm
    · rw [h₂]
      simp only [withCrc, List.length_append, List.length_cons, crcBytes_length]
      omega
  | @write a n hreq =>
    have hwrite := hlinked.write
    rw [hreq] at hwrite
    have hbytes : ∀ i < 8, s.src.byte i =
        (withCrc (chrgId :: fcWrite :: (sent16 a ++ sent16 n))).getD i 0 := hbyte
    have h₂₃ : [s.src.byte 2, s.src.byte 3] = sent16 a := by
      rw [hbytes 2 (by decide), hbytes 3 (by decide)]
      rfl
    have h₄₅ : [s.src.byte 4, s.src.byte 5] = sent16 n := by
      rw [hbytes 4 (by decide), hbytes 5 (by decide)]
      rfl
    refine ⟨hlow, hbytes 0 (by decide), crcCheck_withCrc hsize hframe, .inr
      ⟨hbytes 1 (by decide), hwrite.1, ?_, ?_, rfl⟩⟩
    · rw [hwrite.2.1]
      exact (led2Bed16_eq_src16 s a 3 2).mpr h₂₃
    · rw [hwrite.2.2]
      exact (led2Bed16_eq_src16 s n 5 4).mpr h₄₅

end Check

end ChargePoint
