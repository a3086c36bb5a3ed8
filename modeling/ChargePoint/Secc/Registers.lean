import ChargePoint.Secc.Blocks
import ChargePoint.Secc.Turned

/-!
# The copy of the SECC's registers

`SeccRxData` is a copy of registers of the SECC, and the charging goes by it. A response does not
say which registers it holds: `ParsRxData` takes it for those of the last request, and each case of
its switch falls into the next one until the bytes are used up. The cases skip registers, so a
response that is longer than its request would run on into another group. `registers_known` says
that none does: each register of the copy has the word of the last response that covers it.

The registers are the 15 of `rxRegisters`. `vasReserv1` to `vasReserv3`, 32006 to 32008, are covered
by a request as well and stored by no case. A turn of either thread is one step, as in `Secc.Task`:
in the source a request that is written between the check of a response and `ParsRxData` would make
the response be read for that one.
-/

set_option autoImplicit false

namespace ChargePoint

open Trace

/-! ## What is seen

For the registers two things count: a request to read is written, and a response to it is
accepted, with the bytes it carries. Both are read off the step, by the tests the step itself
makes. -/

inductive RxObs
  /-- a request to read is written, from this register on -/
  | asked (addr : UInt16)
  /-- a response to it is accepted, with these bytes -/
  | answered (data : List UInt8)

def SeccTurn.rxObs (t : SeccTurn) : List RxObs :=
  if t.ret = .read then [.asked (led2Bed16 t.task.secc.readTx.reqAddr)] else []

/-- What a step of the threads shows of the registers. -/
def SeccTask.rxObs (s : SeccTask) : SeccTaskEvent → List RxObs
  | .tick _ =>
    if s.asleep then []
    else if s.plcRespWaitCnt ≠ 0 then []
    else (s.due.map SeccTurn.rxObs).getD []
  | .chunk bytes =>
    match s.secc.validSecc bytes with
    | some r =>
      if r.1.1 ∧ r.2.src.byte 1 = fcRead then
        [.answered ((r.2.src.bytes.drop 3).take r.2.dataLen)]
      else []
    | none => []
  | .wake _ | .cardWait | .setTx _ | .setEvcc _ => []

/-- **The two threads**, and what is seen of the registers. -/
def seccRxStep : Step SeccTask SeccTaskEvent RxObs :=
  fun s e => (seccTaskStep s e).map fun r => (r.1, s.rxObs e)

/-! ## What is known

From the log alone follows what each register was last said to be. An answer covers the registers
from the address on that was asked for, two bytes each, and leaves what was known of the others. -/

/-- What is known of the registers: the one that was asked for last, and their words. -/
structure Known where
  addr : UInt16
  word : UInt16 → Option UInt16

/-- The word of register `a`, the high byte first, in a response from register `addr` on. -/
def answerWord (addr : UInt16) (data : List UInt8) (a : UInt16) : Option UInt16 :=
  let i := 2 * (a.toNat - addr.toNat)
  if addr ≤ a ∧ i + 1 < data.length then
    some ((data.getD i 0).toUInt16 <<< 8 + (data.getD (i + 1) 0).toUInt16)
  else none

def Known.after (k : Known) : RxObs → Known
  | .asked addr => { k with addr := addr }
  | .answered data => { k with word := fun a => (answerWord k.addr data a).or (k.word a) }

/-- What the log makes known. -/
def known (log : List RxObs) : Known := log.foldl Known.after ⟨0, fun _ => none⟩

theorem known_concat (log : List RxObs) (x : RxObs) : known (log ++ [x]) = (known log).after x := by
  unfold known
  rw [List.foldl_append]
  rfl

/-- The registers of the copy that `ParsRxData` stores. -/
def rxRegisters : List (UInt16 × (SeccReadData → UInt16)) :=
  [(30001, (·.ready)), (30002, (·.stcode)), (30003, (·.seccErrcode)), (30004, (·.swVer)),
   (30005, (·.chrgPrtcl)), (30006, (·.pwmduty)), (30007, (·.pwmvoltage)), (30040, (·.soc)),
   (32001, (·.vasMapCnt)), (32002, (·.vasEnable)), (32003, (·.vasStat)), (32004, (·.vasErrcd)),
   (32005, (·.vasRxCnt)), (32009, (·.vasChksum)), (32010, (·.vasLen))]

/-! ## A response is taken apart

For the requests the threads make and a response of their length, the cases of `ParsRxData` come
down to this: each register that is covered gets its word, and no other one changes. A block of
the vehicle data does not touch the copy. -/

theorem setVasRxCnt_rx (s : SeccData) (w : UInt16) :
    (s.setVasRxCnt w).rx = { s.rx with vasRxCnt := w } := by
  unfold SeccData.setVasRxCnt
  by_cases hnew : s.rx.vasRxCnt ≠ w
  · rw [if_pos hnew]
    dsimp only
    split <;> rfl
  · rw [if_neg hnew, ← not_not.mp hnew]

/-- The word that is read is the one that was sent. -/
theorem rxWord_put {data : List UInt8} (h : 0 + data.length ≤ 1024) {i : Nat}
    (hlen : 2 * i + 1 < data.length) :
    rxWord ((Bytes.zero 1024).put 0 data h) i =
      (data.getD (2 * i) 0).toUInt16 <<< 8 + (data.getD (2 * i + 1) 0).toUInt16 := by
  have hbyte : ∀ j, j < data.length → ((Bytes.zero 1024).put 0 data h).byte j = data.getD j 0 := by
    intro j hj
    have htake : ((Bytes.zero 1024).put 0 data h).bytes.take data.length = data :=
      Bytes.put_zero_take h rfl
    unfold Bytes.byte
    rw [List.getD_eq_getElem?_getD, List.getD_eq_getElem?_getD, ← List.getElem?_take_of_lt hj,
      htake]
  have hhi := (data.getD (2 * i) 0).toNat_lt
  have hlo := (data.getD (2 * i + 1) 0).toNat_lt
  unfold rxWord
  rw [hbyte _ (by omega), hbyte _ hlen]
  apply UInt16.toNat_inj.mp
  rw [led2Bed16_toNat]
  have hshift : 2 ^ (UInt16.toNat 8 % 16) = 256 := rfl
  simp only [UInt16.toNat_add, UInt16.toNat_shiftLeft, UInt8.toNat_toUInt16, Nat.shiftLeft_eq,
    hshift]
  generalize (data.getD (2 * i) 0).toNat = hi at hhi ⊢
  generalize (data.getD (2 * i + 1) 0).toNat = lo at hlo ⊢
  have hsent : (hi + lo * 256 % 2 ^ 16) % 2 ^ 16 = hi + lo * 256 := by omega
  have hmeant : (hi * 256 % 2 ^ 16 + lo) % 2 ^ 16 = hi * 256 + lo := by omega
  rw [hsent, hmeant]
  omega

/-- **A response to a request for registers of the copy** is taken for what it is. -/
theorem parsRxData_registers {s s' : SeccData} {a n : UInt16} {data : List UInt8}
    (hreq : (a, n) ∈ readRequests) (hlen : data.length = n.toNat * 2)
    (h : 0 + data.length ≤ 1024)
    (hpars : s.parsRxData a ((Bytes.zero 1024).put 0 data h) (UInt8.ofNat data.length) = some s') :
    ∀ c ∈ rxRegisters, c.2 s'.rx = (answerWord a data c.1).getD (c.2 s.rx) := by
  have hword : ∀ i, 2 * i + 1 < data.length → rxWord ((Bytes.zero 1024).put 0 data h) i =
      (data.getD (2 * i) 0).toUInt16 <<< 8 + (data.getD (2 * i + 1) 0).toUInt16 :=
    fun i => rxWord_put h
  generalize (Bytes.zero 1024).put 0 data h = data16 at hpars hword
  rw [hlen] at hpars hword
  simp only [readRequests, List.mem_cons, Prod.mk.injEq, List.not_mem_nil, or_false] at hreq
  rcases hreq with ⟨rfl, rfl⟩ | ⟨rfl, rfl⟩ | ⟨rfl, rfl⟩ | ⟨rfl, rfl⟩ | ⟨rfl, rfl⟩ | ⟨rfl, rfl⟩
  -- the bytes of each request are used up where its group of cases ends
  all_goals
    simp [SeccData.parsRxData, rxCases, fallThrough] at hpars
    subst hpars
    simp [rxRegisters, answerWord, hlen, hword, setVasRxCnt_rx]

/-- **A block of the vehicle data** is no matter of the copy. -/
theorem vasParsFunc_rx {s : SeccData} {src8 : Bytes 1024} {size : UInt8} {r : Bool × SeccData}
    (h : s.vasParsFunc src8 size = some r) : r.2.rx = s.rx := by
  obtain ⟨t, hread, hstored | hkept⟩ := vasParsFunc_some h
  · obtain ⟨buf, cd, rfl⟩ := readBlock_frame hread
    obtain ⟨-, raw, hstore⟩ := storeVas_some hstored.2
    rw [hstore]
  · obtain ⟨buf, cd, rfl⟩ := readBlock_frame hread
    rw [hkept.2]

theorem countVas_rx (s : SeccData) : s.countVas.rx = s.rx := by
  unfold SeccData.countVas
  dsimp only
  split <;> rfl

theorem parsRxData_vas {s s' : SeccData} {a : UInt16} (ha : 32010 < a) {data16 : Bytes 1024}
    {dataLen : UInt8} (hpars : s.parsRxData a data16 dataLen = some s') : s'.rx = s.rx := by
  unfold SeccData.parsRxData at hpars
  rw [rxCases_vas ha] at hpars
  simp only [fallThrough, Option.bind_some, if_pos ha] at hpars
  obtain ⟨r, hvas, rfl⟩ := Option.map_eq_some_iff.mp hpars
  split
  · exact (countVas_rx _).trans (vasParsFunc_rx hvas)
  · exact vasParsFunc_rx hvas

theorem answerWord_vas {a : UInt16} (ha : 32010 < a) {data : List UInt8}
    {c : UInt16 × (SeccReadData → UInt16)} (hc : c ∈ rxRegisters) :
    answerWord a data c.1 = none := by
  have hlast : ∀ c ∈ rxRegisters, c.1 ≤ 32010 := by simp [rxRegisters]
  unfold answerWord
  rw [if_neg]
  intro hin
  have hle := hlast c hc
  rw [UInt16.le_iff_toNat_le] at hle
  have hge := UInt16.le_iff_toNat_le.mp hin.1
  rw [UInt16.lt_iff_toNat_lt] at ha
  omega

/-! ## The invariant

`RxInv` says that the copy is what is known, and that a request to read in `SeccModbusReadTx` is
the last one of the log. The second part carries the first: `ValidSecc` accepts a response only
with the length of that request, and `ParsRxData` reads it from that request's address on. -/

/-- What can be asked for: registers of the copy, or a block of the vehicle data. -/
def Askable (a n : UInt16) : Prop := (a, n) ∈ readRequests ∨ 32010 < a

theorem SeccTask.Requests.askable {s : SeccTask} {a n : UInt16} (h : s.Requests a n) :
    Askable a n := by
  rcases h with hmem | ⟨hnext, hvas⟩
  · exact .inl hmem
  · right
    obtain ⟨c, hc⟩ : ∃ c, s.data.vasReadCd.toNat = c + 1 := by
      refine Nat.exists_eq_succ_of_ne_zero ?_
      intro hzero
      exact hnext (UInt8.toNat_inj.mp hzero)
    have hlt := s.data.vasReadCd.toNat_lt
    have haddr : a = UInt16.ofInt (32011 + maxLen * (s.data.vasReadCd.toNat - 1)) := by
      have hfst := congrArg Prod.fst hvas
      unfold SeccData.readVasData at hfst
      dsimp only at hfst
      split at hfst <;> exact hfst
    rw [haddr, UInt16.lt_iff_toNat_lt, hc]
    rw [ofInt_toNat (by simp [maxLen]; omega) (by simp [maxLen]; omega)]
    show 32010 < _
    simp [maxLen]
    omega

/-- A response to read that is accepted has two bytes for each register that was asked for. -/
theorem validSecc_read {s : Secc} {chunk : List UInt8} {r : (Bool × Nat) × Secc}
    (h : s.validSecc chunk = some r) (hok : r.1.1 = true) (hcode : r.2.src.byte 1 = fcRead) :
    s.readTx.funcCode = fcRead ∧ r.2.dataLen = (led2Bed16 s.readTx.reqAddrLen).toNat * 2 ∧
      r.2.dataLen < 256 := by
  obtain ⟨x, hx, rfl⟩ := Option.map_eq_some_iff.mp h
  have hframe := assemble_frame hx
  cases x with
  | no t => cases hok
  | whole t size =>
    have hpasses : t.Passes size := check_iff_passes.mp hok
    have hread : t.readTx = s.readTx := hframe.1.1
    have hsrc : (t.check size).2.src = t.src := by rw [check_frame]
    have hbyte : t.src.byte 1 = fcRead := by
      rw [← hsrc]
      exact hcode
    have hlt := (t.src.byte 2).toNat_lt
    -- the count in the message is tested against the request, and the size against the count
    rcases hpasses.fits with ⟨-, hfunc, hcount, hsize⟩ | ⟨hwrite, -⟩
    · have hlen : (t.check size).2.dataLen = size - 5 := by
        have hlow := hpasses.low
        unfold Secc.check
        rw [if_neg (by omega), if_neg (by simp [hpasses.id]), if_pos hbyte,
          if_neg (by simp [hfunc, hbyte]), if_neg (by simp [hcount]), if_neg (by simp [hsize])]
      rw [← hread]
      refine ⟨hfunc, ?_, ?_⟩
      · exact hlen.trans (hsize.symm.trans hcount.symm)
      · show (t.check size).2.dataLen < 256
        omega
    · rw [hbyte] at hwrite
      cases hwrite

section Inv
variable {s₀ s s' : SeccTask} {log : List RxObs}

/-- **The copy is what is known**, and so is the last request. -/
structure RxInv (s₀ s : SeccTask) (log : List RxObs) : Prop where
  registers : ∀ c ∈ rxRegisters, c.2 s.data.rx = ((known log).word c.1).getD (c.2 s₀.data.rx)
  asked : s.secc.readTx.funcCode = fcRead →
    ∃ n, s.secc.readTx = makeReadTx (known log).addr n ∧ Askable (known log).addr n

/-- Neither was touched. -/
theorem RxInv.congr (h : RxInv s₀ s log) (hrx : s'.data.rx = s.data.rx)
    (hread : s'.secc.readTx = s.secc.readTx) : RxInv s₀ s' log := by
  refine ⟨?_, ?_⟩
  · rw [hrx]
    exact h.registers
  · rw [hread]
    exact h.asked

/-- A request to read is built. -/
theorem RxInv.request (h : RxInv s₀ s log) {a n : UInt16} (hask : Askable a n)
    (hrx : s'.data.rx = s.data.rx) (hread : s'.secc.readTx = makeReadTx a n) :
    RxInv s₀ s' (log ++ [.asked a]) := by
  refine ⟨?_, ?_⟩
  · rw [known_concat, hrx]
    exact h.registers
  · intro _
    rw [known_concat]
    exact ⟨n, hread, hask⟩

/-- The end of the loop is no matter of the copy. -/
theorem send_rx (t : SeccTurn) (junk : ParsBuf) :
    (SeccTask.send t junk).1.data.rx = t.task.data.rx ∧
      (SeccTask.send t junk).1.secc.readTx = t.task.secc.readTx := by
  unfold SeccTask.send SeccTask.reboot
  dsimp only
  repeat' split
  all_goals exact ⟨rfl, rfl⟩

/-- **A turn of the requesting thread.** -/
theorem rxInv_turned (h : RxInv s₀ s log) {t : SeccTurn} (hturned : s.Turned t) (junk : ParsBuf) :
    RxInv s₀ (SeccTask.send t junk).1 (log ++ t.rxObs) := by
  obtain ⟨hsendrx, hsendtx⟩ := send_rx t junk
  cases hturned with
  | kept hret hsame =>
    rw [SeccTurn.rxObs, if_neg hret, List.append_nil]
    exact h.congr (hsendrx.trans hsame.rx) (hsendtx.trans hsame.readTx)
  | @read s'' a n hret hsame _ hreq htask =>
    -- the request is built last, so what it asks for is what is known to be asked for
    have hread : t.task.secc.readTx = makeReadTx a n := by rw [htask]
    have hrx : t.task.data.rx = s.data.rx := by
      rw [htask]
      exact hsame.rx
    have hobs : t.rxObs = [.asked a] := by
      rw [SeccTurn.rxObs, if_pos hret, hread]
      exact congrArg (fun x => [RxObs.asked x]) (led2Bed16_led2Bed16 a)
    rw [hobs]
    exact h.request hreq.askable (hsendrx.trans hrx) (hsendtx.trans hread)

/-- **A response to read is taken apart.** -/
theorem rxInv_takeRead (h : RxInv s₀ s log) (hcode : s.secc.readTx.funcCode = fcRead)
    (hlen : s.secc.dataLen = (led2Bed16 s.secc.readTx.reqAddrLen).toNat * 2)
    (hlt : s.secc.dataLen < 256) (htake : s.takeRead = some s') :
    RxInv s₀ s' (log ++ [.answered ((s.secc.src.bytes.drop 3).take s.secc.dataLen)]) := by
  obtain ⟨n, hread, hask⟩ := h.asked hcode
  have hbytes : ((s.secc.src.bytes.drop 3).take s.secc.dataLen).length = s.secc.dataLen := by
    rw [List.length_take, List.length_drop, s.secc.src.length_bytes]
    exact Nat.min_eq_left (by simp only [parsBufCap]; omega)
  have haddr : led2Bed16 s.secc.readTx.reqAddr = (known log).addr := by
    rw [hread]
    exact led2Bed16_led2Bed16 _
  have hcount : s.secc.dataLen = n.toNat * 2 := by
    rw [hlen, hread]
    exact congrArg (fun x : UInt16 => x.toNat * 2) (led2Bed16_led2Bed16 n)
  unfold SeccTask.takeRead at htake
  dsimp only at htake
  rw [haddr] at htake
  generalize (s.secc.src.bytes.drop 3).take s.secc.dataLen = data at htake hbytes ⊢
  split at htake
  · rename_i hfits
    obtain ⟨data', hpars, rfl⟩ := Option.map_eq_some_iff.mp htake
    rw [← hbytes] at hpars
    refine ⟨?_, ?_⟩
    · intro c hc
      rw [known_concat]
      show c.2 data'.rx = ((answerWord (known log).addr data c.1).or ((known log).word c.1)).getD _
      rw [Option.getD_or, ← h.registers c hc]
      -- a block of the vehicle data starts behind the last register of the copy
      rcases hask with hmem | hvas
      · exact parsRxData_registers hmem (hbytes.trans hcount) hfits hpars c hc
      · rw [parsRxData_vas hvas hpars, answerWord_vas hvas hc]
        rfl
    · rw [known_concat]
      exact h.asked
  · cases htake

/-- **A chunk is read.** -/
theorem rxInv_read (h : RxInv s₀ s log) {bytes : List UInt8} {o : List SeccTaskObs}
    (hread : s.read bytes = some (s', o)) :
    RxInv s₀ s' (log ++ s.rxObs (.chunk bytes)) := by
  obtain ⟨r, hvalid, hcases⟩ := read_cases hread
  have htx : r.2.readTx = s.secc.readTx := (validSecc_sameTx hvalid).1
  simp only [SeccTask.rxObs, hvalid]
  rcases hcases with ⟨hno, rfl⟩ | ⟨hok, hcode, htake⟩ | ⟨-, hcode, flag, rfl⟩
  · rw [if_neg (by simp [hno]), List.append_nil]
    exact h.congr rfl htx
  · obtain ⟨hfunc, hlen, hlt⟩ := validSecc_read hvalid hok hcode
    have hnext : RxInv s₀ (s.accept r.2) log := h.congr rfl htx
    rw [← htx] at hfunc hlen
    rw [if_pos ⟨hok, hcode⟩]
    exact rxInv_takeRead hnext hfunc hlen hlt htake
  · rw [if_neg fun hyes => hcode hyes.2, List.append_nil]
    exact h.congr rfl htx

/-- **Every step of the threads** keeps the copy. -/
theorem rxInv_step {e : SeccTaskEvent} {o : List RxObs} (h : RxInv s₀ s log)
    (hstep : seccRxStep s e = some (s', o)) : RxInv s₀ s' (log ++ o) := by
  obtain ⟨⟨t, o'⟩, hdo, heq⟩ := Option.map_eq_some_iff.mp hstep
  clear hstep
  obtain ⟨rfl, rfl⟩ := Prod.mk.inj heq
  cases e with
  | tick junk =>
    rcases tick_cases hdo with ⟨hasleep, rfl⟩ | ⟨hawake, hwait, rfl⟩ | ⟨hawake, hidle, u, hdue, rfl⟩
    · simpa [SeccTask.rxObs, hasleep] using h
    · have hobs : s.rxObs (.tick junk) = [] := by simp [SeccTask.rxObs, hawake, hwait]
      rw [hobs, List.append_nil]
      unfold SeccTask.await
      split <;> exact h.congr rfl rfl
    · have hobs : s.rxObs (.tick junk) = u.rxObs := by simp [SeccTask.rxObs, hawake, hidle, hdue]
      rw [hobs]
      exact rxInv_turned h (turns_due s u hdue) junk
  | wake junk =>
    rw [SeccTask.rxObs, List.append_nil]
    rcases wake_cases hdo with ⟨-, rfl⟩ | ⟨-, u, hwrite, rfl⟩
    · exact h
    · obtain ⟨hsendrx, hsendtx⟩ := send_rx u junk
      obtain ⟨tx, -, rfl⟩ := writeTx_eq hwrite
      exact h.congr hsendrx hsendtx
  | chunk bytes =>
    have hread : s.read bytes = some (t, o') := hdo
    exact rxInv_read h hread
  | cardWait | setTx | setEvcc =>
    cases hdo
    rw [SeccTask.rxObs, List.append_nil]
    exact h.congr rfl rfl

end Inv

/-- **The copy of the SECC's registers**, in every run of the two threads from before the first
request on: each of the 15 registers has the word that the last accepted response to a request
covering it had for it, and none of the others has changed it. -/
theorem registers_known {s₀ s : SeccTask} {log : List RxObs}
    (hstart : s₀.secc.readTx.funcCode ≠ fcRead) (h : Always seccRxStep s₀ s log) :
    ∀ c ∈ rxRegisters, c.2 s.data.rx = ((known log).word c.1).getD (c.2 s₀.data.rx) := by
  refine (h.invariant (I := fun s log => RxInv s₀ s log) ⟨fun _ _ => rfl, ?_⟩ ?_).registers
  · intro hfunc
    exact absurd hfunc hstart
  · intro s log e s' o hI _ hstep
    exact rxInv_step hI hstep

/-- The SECC says that it is ready. -/
theorem registers_known_ready : ∃ s log, Always seccRxStep .zero s log ∧
    (known log).word 30001 = some 1 ∧ s.data.rx.ready = 1 := by
  let p : SeccTask → List RxObs → Bool := fun _ log => (known log).word 30001 == some 1
  have hrun : (exec seccRxStep (fun _ _ _ => true) .zero [] (ticks 1 ++ [readResponse [1]])).any
      (fun r => p r.1 r.2) = true := by
    decide +kernel
  obtain ⟨s, log, h, hp⟩ := exists_reach_of_exec hrun
  have hword : (known log).word 30001 = some 1 := beq_iff_eq.mp hp
  have hready := registers_known (by decide) h.always (30001, (·.ready)) List.mem_cons_self
  rw [hword] at hready
  exact ⟨s, log, h.always, hword, hready⟩

end ChargePoint
