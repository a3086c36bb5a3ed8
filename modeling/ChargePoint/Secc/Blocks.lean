import Mathlib.Data.List.TakeWhile
import ChargePoint.Secc.Acceptance
import ChargePoint.Secc.Vas

/-!
# Reading the vehicle data

The requests for the vehicle data and the blocks that come back are counted by `vasReadCd`, and
each side works out from it how much is left. One block is looked at first (`vasAnswer_block`):
what is asked for is what is put in place, and the two sides agree on which block is the last. The
loop is then an induction on the blocks that are left.
-/

set_option autoImplicit false

namespace ChargePoint

/-- The registers from 32011 on are read: `n` of them are left when `done` have been read. -/
def vasWords (regs : Nat → UInt16) (done n : Nat) : List UInt16 :=
  (List.range' (32011 + done) n).map regs

/-- A request of `ReadVasData` is built and answered with its registers. -/
def vasAnswer (regs : Nat → UInt16) (s : SeccData) : Option ((UInt16 × UInt16) × SeccData) :=
  let req := s.readVasData
  let data := ((List.range' req.1.toNat req.2.toNat).map regs).flatMap sent16
  if h : 0 + data.length ≤ 1024 then
    (s.parsRxData (led2Bed16 (makeReadTx req.1 req.2).reqAddr) ((Bytes.zero 1024).put 0 data h)
      (UInt8.ofNat data.length)).map fun s => (req, s)
  else none

/-- **The loop**: as long as `vasReadCd` is set. -/
def vasLoop (regs : Nat → UInt16) : Nat → SeccData → Option (List (UInt16 × UInt16) × SeccData)
  | 0, s => if s.vasReadCd = 0 then some ([], s) else none
  | k + 1, s =>
    if s.vasReadCd = 0 then some ([], s)
    else (vasAnswer regs s).bind fun r => (vasLoop regs k r.2).map fun t => (r.1 :: t.1, t.2)

/-! ## The bytes of a block -/

theorem length_flatMap_sent16 (ws : List UInt16) : (ws.flatMap sent16).length = 2 * ws.length := by
  induction ws with
  | nil => rfl
  | cons w ws ih =>
    rw [List.flatMap_cons, List.length_append, ih, List.length_cons]
    show 2 + 2 * ws.length = 2 * (ws.length + 1)
    omega

theorem length_flatMap_bytes16 (ws : List UInt16) :
    (ws.flatMap bytes16).length = 2 * ws.length := by
  induction ws with
  | nil => rfl
  | cons w ws ih =>
    rw [List.flatMap_cons, List.length_append, ih, List.length_cons]
    show 2 + 2 * ws.length = 2 * (ws.length + 1)
    omega

/-- The copy loop turns the bytes of every register round. -/
theorem swap_sent16 (ws : List UInt16) :
    ((List.range ws.length).flatMap fun k =>
      [(ws.flatMap sent16).getD (2 * k + 1) 0, (ws.flatMap sent16).getD (2 * k) 0]) =
      ws.flatMap bytes16 := by
  induction ws with
  | nil => rfl
  | cons w ws ih =>
    have hcons : (w :: ws).flatMap bytes16 = bytes16 w ++ ws.flatMap bytes16 := List.flatMap_cons
    rw [hcons, List.length_cons, List.range_succ_eq_map, List.flatMap_cons, List.flatMap_map, ← ih]
    congr 1

theorem swapWords_answer (ws : List UInt16) (h : 0 + (ws.flatMap sent16).length ≤ 1024) :
    swapWords ((Bytes.zero 1024).put 0 (ws.flatMap sent16) h) (2 * ws.length) =
      ws.flatMap bytes16 := by
  have hlen := length_flatMap_sent16 ws
  have hbyte : ∀ i, i < 2 * ws.length → ((Bytes.zero 1024).put 0 (ws.flatMap sent16) h).byte i =
      (ws.flatMap sent16).getD i 0 := by
    intro i hi
    have htake := Bytes.put_zero_take (b := Bytes.zero 1024) h rfl
    unfold Bytes.byte
    rw [List.getD_eq_getElem?_getD, List.getD_eq_getElem?_getD, ← List.getElem?_take_of_lt
      (show i < (ws.flatMap sent16).length by omega), htake]
  rw [← swap_sent16 ws]
  unfold swapWords
  rw [show (2 * ws.length + 1) / 2 = ws.length by omega]
  apply List.flatMap_congr
  intro k hk
  have hlt := List.mem_range.mp hk
  rw [hbyte _ (by omega), hbyte _ (by omega)]

/-! ## One block

The requests come from one function and the answers go to another, and both count by `vasReadCd`.
What they agree on is one block: its address, its length, and whether another comes behind it. -/

/-- What is left when `c` blocks have been read. -/
theorem vasLeft_eq {s : SeccData} {c n : Nat} (hcd : s.vasReadCd.toNat = c + 1)
    (hcnt : s.rx.vasMapCnt.toNat = n + 10) : s.vasLeft = (n : Int) - 90 * c := by
  unfold SeccData.vasLeft maxLen
  rw [hcd, hcnt]
  omega

theorem ofInt_toNat {x : Int} (h : 0 ≤ x) (h' : x < 65536) : (UInt16.ofInt x).toNat = x.toNat := by
  unfold UInt16.ofInt
  rw [UInt16.toNat_ofNat']
  omega

/-- The request for the next block. -/
theorem readVasData_eq {s : SeccData} {c n : Nat} (hcd : s.vasReadCd.toNat = c + 1)
    (hcnt : s.rx.vasMapCnt.toNat = n + 10) (hc : 90 * c < n) (hn : n ≤ 512) :
    s.readVasData.1.toNat = 32011 + 90 * c ∧ s.readVasData.2.toNat = min 90 (n - 90 * c) := by
  have haddr : (UInt16.ofInt (32011 + maxLen * (s.vasReadCd.toNat - 1))).toNat = 32011 + 90 * c := by
    have hval : (32011 : Int) + maxLen * (s.vasReadCd.toNat - 1) = (32011 + 90 * c : Nat) := by
      rw [hcd]
      unfold maxLen
      omega
    rw [hval, ofInt_toNat (by omega) (by omega)]
    rfl
  unfold SeccData.readVasData
  rw [vasLeft_eq hcd hcnt]
  split
  · rename_i hlt
    unfold maxLen at hlt
    refine ⟨haddr, ?_⟩
    show (UInt16.ofNat 90).toNat = _
    rw [Nat.min_eq_left (by omega)]
    rfl
  · rename_i hlt
    unfold maxLen at hlt
    refine ⟨haddr, ?_⟩
    show (UInt16.ofInt _).toNat = _
    rw [ofInt_toNat (by omega) (by omega)]
    omega

/-- None of the cases of `ParsRxData` is one of the vehicle data. -/
theorem rxCases_vas {addr : UInt16} (h : 32010 < addr) :
    rxCases.dropWhile (fun c => c.1 ≠ addr) = [] := by
  rw [List.dropWhile_eq_nil_iff]
  intro c hc
  have hle : (rxCases.map Prod.fst).all (fun a => a ≤ 32010) = true := by decide
  have hlow : c.1 ≤ 32010 := of_decide_eq_true (List.all_eq_true.mp hle _ (List.mem_map_of_mem hc))
  have hne : c.1 ≠ addr := by
    intro heq
    rw [heq] at hlow
    exact absurd h (UInt16.not_lt.mpr hlow)
  simp [hne]

/-- What `ParsRxData` makes of the data when the last block is in place. -/
def SeccData.endVas (s : SeccData) : Option SeccData :=
  s.sumVas.bind fun ok => if ok then s.storeVas.map SeccData.countVas else some s

/-- The last block, as `vasAnswer` has it. -/
theorem endVas_map (req : UInt16 × UInt16) (t : SeccData) :
    (((t.sumVas.map fun ok => (ok, t)).bind fun r : Bool × SeccData =>
        if r.1 then r.2.storeVas.map fun s => (true, s) else some (false, r.2)).map
      (fun r => if r.1 then r.2.countVas else r.2)).map (fun s => (req, s)) =
      t.endVas.map fun s => (req, s) := by
  congr 1
  unfold SeccData.endVas
  cases t.sumVas with
  | none => rfl
  | some ok =>
    cases ok with
    | false => rfl
    | true =>
      rw [Option.map_some, Option.bind_some, Option.bind_some, if_pos rfl, if_pos rfl, Option.map_map]
      rfl

/-- The state with block `c` put in place. -/
def SeccData.withBlock (s : SeccData) (c : Nat) (ws : List UInt16)
    (h : 180 * c + (ws.flatMap bytes16).length ≤ 1024) : SeccData :=
  { s with vasDataBuf := s.vasDataBuf.put (180 * c) (ws.flatMap bytes16) h }

/-- **One block.** What is asked for is what is put in place; only the last block is summed up. -/
theorem vasAnswer_block (regs : Nat → UInt16) {s : SeccData} {c n : Nat}
    (hcd : s.vasReadCd.toNat = c + 1) (hcnt : s.rx.vasMapCnt.toNat = n + 10) (hc : 90 * c < n)
    (hn : n ≤ 512) :
    ∃ h : 180 * c + ((vasWords regs (90 * c) (min 90 (n - 90 * c))).flatMap bytes16).length ≤ 1024,
      vasAnswer regs s =
        if 90 < n - 90 * c then
          some (s.readVasData, { s.withBlock c _ h with vasReadCd := s.vasReadCd + 1 })
        else ({ s.withBlock c _ h with vasReadCd := 0 }.endVas).map fun s' => (s.readVasData, s') := by
  obtain ⟨haddr, hlen⟩ := readVasData_eq hcd hcnt hc hn
  have hwords : (List.range' s.readVasData.1.toNat s.readVasData.2.toNat).map regs =
      vasWords regs (90 * c) (min 90 (n - 90 * c)) := by
    rw [haddr, hlen]
    rfl
  have hcount : (vasWords regs (90 * c) (min 90 (n - 90 * c))).length = min 90 (n - 90 * c) := by
    unfold vasWords
    rw [List.length_map, List.length_range']
  have hsent := length_flatMap_sent16 (vasWords regs (90 * c) (min 90 (n - 90 * c)))
  have hbytes := length_flatMap_bytes16 (vasWords regs (90 * c) (min 90 (n - 90 * c)))
  have hfits : 0 + ((vasWords regs (90 * c) (min 90 (n - 90 * c))).flatMap sent16).length ≤ 1024 := by
    omega
  refine ⟨by omega, ?_⟩
  -- the address that `ParsRxData` finds is above those of its cases
  have hback : led2Bed16 (makeReadTx s.readVasData.1 s.readVasData.2).reqAddr = s.readVasData.1 :=
    led2Bed16_led2Bed16 _
  have habove : 32010 < s.readVasData.1 := by
    rw [UInt16.lt_iff_toNat_lt, haddr]
    show 32010 < 32011 + 90 * c
    omega
  have hsize : (UInt8.ofNat
      ((vasWords regs (90 * c) (min 90 (n - 90 * c))).flatMap sent16).length).toNat =
        2 * (vasWords regs (90 * c) (min 90 (n - 90 * c))).length := by
    rw [UInt8.toNat_ofNat']
    omega
  have hoff : (maxLen : Int) * (s.vasReadCd.toNat - 1) * 2 = (180 * c : Nat) := by
    rw [hcd]
    unfold maxLen
    omega
  have hswap := swapWords_answer (vasWords regs (90 * c) (min 90 (n - 90 * c))) hfits
  unfold vasAnswer
  simp only [hwords]
  rw [dif_pos hfits, hback]
  unfold SeccData.parsRxData
  rw [rxCases_vas habove]
  unfold fallThrough
  rw [Option.bind_some, if_pos habove]
  unfold SeccData.vasParsFunc SeccData.readBlock
  simp only [hoff, hsize, hswap, vasLeft_eq hcd hcnt]
  rw [dif_pos ⟨by omega, by rw [Int.toNat_natCast]; omega⟩]
  have hmax : (maxLen : Int) = 90 := rfl
  by_cases hlast : 90 < n - 90 * c
  · rw [if_pos (by omega), if_pos hlast]
    rfl
  · rw [if_neg (by omega), if_neg hlast]
    exact endVas_map s.readVasData _

/-! ## All of them -/

/-- What a run of the loop does: `done` registers had been read before, and there are `n` in all.
The data is put together in `b`, and the end is what `endVas` makes of it. -/
structure BlocksRead (regs : Nat → UInt16) (s : SeccData) (done n : Nat)
    (reqs : List (UInt16 × UInt16)) (b : Bytes 1024) : Prop where
  loop : ∀ fuel, reqs.length ≤ fuel → vasLoop regs fuel s =
    ({ s with vasDataBuf := b, vasReadCd := 0 }.endVas).map fun s' => (reqs, s')
  count : reqs.length = (n - done + 89) / 90
  tiles : (reqs.flatMap fun r => List.range' r.1.toNat r.2.toNat) =
    List.range' (32011 + done) (n - done)
  data : b.bytes.take (2 * n) = s.vasDataBuf.bytes.take (2 * done) ++
    (vasWords regs done (n - done)).flatMap bytes16

section Ends
variable {s s' : SeccData} {n : Nat}

/-- The data of a record fits into the raw store, if there is a place for it. -/
theorem storeVas_eq (hroom : s.seccVasDataCnt.toNat < seccVasCap)
    (hcnt : s.rx.vasMapCnt.toNat = n + 10) (hlow : 3 ≤ n) (hn : n ≤ 512) :
    ∃ raw, s.storeVas = some { s with
      seccVasRxData := Function.update s.seccVasRxData s.seccVasDataCnt.toNat
        (decodeVas (s.seccVasRxData s.seccVasDataCnt.toNat) s.vasDataBuf)
      seccVasRawData := Function.update s.seccVasRawData s.seccVasDataCnt.toNat raw } ∧
      raw.dataLenth.toNat = 2 * n - 6 ∧
      raw.data.bytes.take (2 * n - 6) = s.vasDataBuf.slice 6 (2 * n - 6) := by
  have hlen : (UInt16.ofInt ((s.rx.vasMapCnt.toNat - 10) * 2 - 6)).toNat = 2 * n - 6 := by
    rw [hcnt, ofInt_toNat (by omega) (by omega)]
    omega
  have hslice := Bytes.length_slice s.vasDataBuf (show 6 + (2 * n - 6) ≤ 1024 by omega)
  unfold SeccData.storeVas
  simp only
  rw [dif_pos ⟨hroom, by rw [hlen]; omega⟩]
  refine ⟨_, rfl, hlen, ?_⟩
  simp only [hlen]
  exact Bytes.put_zero_take _ hslice

/-- The sum is taken over all of the data. -/
theorem sumVas_eq (hcnt : s.rx.vasMapCnt.toNat = n + 10) (hn : n ≤ 512) : s.sumVas =
    some (decide ((vasSum (s.vasDataBuf.bytes.take (2 * n))).toUInt16 = s.rx.vasChksum)) := by
  have hsize : ((s.rx.vasMapCnt.toNat : Int) - 10) * 2 = (2 * n : Nat) := by omega
  unfold SeccData.sumVas
  simp only [hsize, Int.toNat_natCast]
  rw [if_pos (by omega)]

/-- What the end of `vasParsFunc` makes of the data. -/
structure SeccData.Summed (s : SeccData) (n : Nat) (s' : SeccData) : Prop where
  vasReadCd : s'.vasReadCd = s.vasReadCd
  vasDataBuf : s'.vasDataBuf = s.vasDataBuf
  kept : (vasSum (s.vasDataBuf.bytes.take (2 * n))).toUInt16 ≠ s.rx.vasChksum → s' = s
  stored : (vasSum (s.vasDataBuf.bytes.take (2 * n))).toUInt16 = s.rx.vasChksum →
    s'.seccVasRxData = Function.update s.seccVasRxData s.seccVasDataCnt.toNat
      (decodeVas (s.seccVasRxData s.seccVasDataCnt.toNat) s.vasDataBuf) ∧
    ∃ raw, s'.seccVasRawData = Function.update s.seccVasRawData s.seccVasDataCnt.toNat raw ∧
      raw.dataLenth.toNat = 2 * n - 6 ∧
      raw.data.bytes.take (2 * n - 6) = s.vasDataBuf.slice 6 (2 * n - 6)

/-- Counting a record leaves the stores alone. -/
theorem countVas_frame (s : SeccData) : s.countVas.vasReadCd = s.vasReadCd ∧
    s.countVas.vasDataBuf = s.vasDataBuf ∧ s.countVas.seccVasRxData = s.seccVasRxData ∧
    s.countVas.seccVasRawData = s.seccVasRawData := by
  unfold SeccData.countVas
  simp only
  split
  · exact ⟨rfl, rfl, rfl, rfl⟩
  · exact ⟨rfl, rfl, rfl, rfl⟩

/-- Whatever comes of the data, the reading is over. -/
theorem endVas_vasReadCd (h : s.endVas = some s') : s'.vasReadCd = s.vasReadCd := by
  obtain ⟨ok, -, h⟩ := Option.bind_eq_some_iff.mp h
  split at h
  · obtain ⟨t, hstore, rfl⟩ := Option.map_eq_some_iff.mp h
    obtain ⟨-, raw, rfl⟩ := storeVas_some hstore
    exact (countVas_frame _).1
  · rw [← Option.some.inj h]

/-- Data with the right sum is stored if there is a place for it, and data with a wrong one is not. -/
theorem endVas_summed (hroom : s.seccVasDataCnt.toNat < seccVasCap ∨
      (vasSum (s.vasDataBuf.bytes.take (2 * n))).toUInt16 ≠ s.rx.vasChksum)
    (hcnt : s.rx.vasMapCnt.toNat = n + 10) (hlow : 3 ≤ n) (hn : n ≤ 512) :
    ∃ s', s.endVas = some s' ∧ s.Summed n s' := by
  unfold SeccData.endVas
  rw [sumVas_eq hcnt hn, Option.bind_some]
  by_cases hsum : (vasSum (s.vasDataBuf.bytes.take (2 * n))).toUInt16 = s.rx.vasChksum
  · obtain ⟨raw, hstore, hlen, hdata⟩ :=
      storeVas_eq (hroom.resolve_right (not_not_intro hsum)) hcnt hlow hn
    rw [if_pos (decide_eq_true hsum), hstore]
    refine ⟨_, rfl, ?_⟩
    obtain ⟨hcd, hbuf, hrx, hraw⟩ := countVas_frame { s with
      seccVasRxData := Function.update s.seccVasRxData s.seccVasDataCnt.toNat
        (decodeVas (s.seccVasRxData s.seccVasDataCnt.toNat) s.vasDataBuf)
      seccVasRawData := Function.update s.seccVasRawData s.seccVasDataCnt.toNat raw }
    exact ⟨hcd, hbuf, fun hne => absurd hsum hne, fun _ => ⟨hrx, raw, hraw, hlen, hdata⟩⟩
  · rw [if_neg (by simpa using hsum)]
    exact ⟨s, rfl, rfl, rfl, fun _ => rfl, fun heq => absurd heq hsum⟩

/-- A record behind the stores. -/
theorem endVas_behind (hfull : ¬ s.seccVasDataCnt.toNat < seccVasCap)
    (hsum : (vasSum (s.vasDataBuf.bytes.take (2 * n))).toUInt16 = s.rx.vasChksum)
    (hcnt : s.rx.vasMapCnt.toNat = n + 10) (hn : n ≤ 512) : s.endVas = none := by
  have hstore : s.storeVas = none := by
    unfold SeccData.storeVas
    exact dif_neg fun h => hfull h.1
  unfold SeccData.endVas
  rw [sumVas_eq hcnt hn, Option.bind_some, if_pos (decide_eq_true hsum), hstore]
  rfl

end Ends

theorem vasWords_append (regs : Nat → UInt16) (done k n : Nat) :
    vasWords regs done k ++ vasWords regs (done + k) n = vasWords regs done (k + n) := by
  unfold vasWords
  rw [← List.map_append, ← Nat.add_assoc, List.range'_append_1]

theorem vasLoop_done (regs : Nat → UInt16) {s : SeccData} (h : s.vasReadCd = 0) (fuel : Nat) :
    vasLoop regs fuel s = some ([], s) := by
  cases fuel with
  | zero => exact if_pos h
  | succ k => exact if_pos h

theorem vasLoop_step (regs : Nat → UInt16) {s s₁ : SeccData} {req : UInt16 × UInt16}
    {reqs : List (UInt16 × UInt16)} {ending : Option SeccData} (hcd : s.vasReadCd ≠ 0)
    (hanswer : vasAnswer regs s = some (req, s₁))
    (hrest : ∀ fuel, reqs.length ≤ fuel →
      vasLoop regs fuel s₁ = ending.map fun s' => (reqs, s')) (fuel : Nat)
    (hfuel : (req :: reqs).length ≤ fuel) :
    vasLoop regs fuel s = ending.map fun s' => (req :: reqs, s') := by
  obtain ⟨k, rfl⟩ := Nat.exists_eq_add_of_le' (show 1 ≤ fuel from Nat.le_trans (by simp) hfuel)
  have hk : reqs.length ≤ k := by
    rw [List.length_cons] at hfuel
    omega
  unfold vasLoop
  rw [if_neg hcd, hanswer, Option.bind_some, hrest k hk, Option.map_map]
  rfl

/-- The last turn. -/
theorem vasLoop_last (regs : Nat → UInt16) {s t : SeccData} {req : UInt16 × UInt16}
    (hcd : s.vasReadCd ≠ 0) (ht : t.vasReadCd = 0)
    (hanswer : vasAnswer regs s = t.endVas.map fun s' => (req, s')) (fuel : Nat)
    (hfuel : 1 ≤ fuel) : vasLoop regs fuel s = t.endVas.map fun s' => ([req], s') := by
  obtain ⟨k, rfl⟩ := Nat.exists_eq_add_of_le' hfuel
  unfold vasLoop
  rw [if_neg hcd, hanswer]
  cases hend : t.endVas with
  | none => rfl
  | some s' =>
    rw [Option.map_some, Option.bind_some, vasLoop_done regs ((endVas_vasReadCd hend).trans ht)]
    rfl

/-- The buffer after a block that ends at register `e`. -/
theorem withBlock_take {s : SeccData} {c e : Nat} {ws : List UInt16}
    (h : 180 * c + (ws.flatMap bytes16).length ≤ 1024) (he : e = 90 * c + ws.length) :
    (s.withBlock c ws h).vasDataBuf.bytes.take (2 * e) =
      s.vasDataBuf.bytes.take (2 * (90 * c)) ++ ws.flatMap bytes16 := by
  have hlen := length_flatMap_bytes16 ws
  rw [show 2 * e = 180 * c + (ws.flatMap bytes16).length by omega,
    show 2 * (90 * c) = 180 * c by omega]
  exact Bytes.put_take h

/-- **The loop from block `c` on**, by the number of blocks that are left. -/
theorem blocks_read (regs : Nat → UInt16) {n : Nat} (hn : n ≤ 512) :
    ∀ (k c : Nat) (s : SeccData), s.vasReadCd.toNat = c + 1 → s.rx.vasMapCnt.toNat = n + 10 →
      90 * c < n → (n - 90 * c + 89) / 90 = k + 1 →
      ∃ reqs b, BlocksRead regs s (90 * c) n reqs b := by
  intro k
  -- on the blocks that are still to come after the one that is read
  induction k with
  | zero =>
    intro c s hcd hcnt hc hk
    obtain ⟨hfits, hanswer⟩ := vasAnswer_block regs hcd hcnt hc hn
    obtain ⟨haddr, hlen⟩ := readVasData_eq hcd hcnt hc hn
    have hset : s.vasReadCd ≠ 0 := by
      intro hzero
      rw [hzero] at hcd
      exact absurd hcd (by simp)
    rw [if_neg (by omega)] at hanswer
    simp only [Nat.min_eq_right (show n - 90 * c ≤ 90 by omega)] at hanswer hfits hlen
    refine ⟨[s.readVasData], (s.withBlock c (vasWords regs (90 * c) (n - 90 * c)) hfits).vasDataBuf,
      ?_, ?_, ?_, ?_⟩
    · exact vasLoop_last regs hset rfl hanswer
    · rw [hk]
      rfl
    · rw [List.flatMap_singleton, haddr, hlen]
    · have hwords : (vasWords regs (90 * c) (n - 90 * c)).length = n - 90 * c := by
        unfold vasWords
        rw [List.length_map, List.length_range']
      exact withBlock_take hfits (by omega)
  | succ k ih =>
    intro c s hcd hcnt hc hk
    obtain ⟨hfits, hanswer⟩ := vasAnswer_block regs hcd hcnt hc hn
    obtain ⟨haddr, hlen⟩ := readVasData_eq hcd hcnt hc hn
    have hset : s.vasReadCd ≠ 0 := by
      intro hzero
      rw [hzero] at hcd
      exact absurd hcd (by simp)
    rw [if_pos (by omega)] at hanswer
    simp only [Nat.min_eq_left (show 90 ≤ n - 90 * c by omega)] at hanswer hfits hlen
    have hcd' : (s.vasReadCd + 1).toNat = (c + 1) + 1 := by
      rw [UInt8.toNat_add, hcd]
      show (c + 1 + 1) % 256 = c + 1 + 1
      omega
    obtain ⟨reqs, b, hloop, hcount, htiles, hb⟩ := ih (c + 1)
      { s.withBlock c (vasWords regs (90 * c) 90) hfits with vasReadCd := s.vasReadCd + 1 }
      hcd' hcnt (by omega) (by omega)
    refine ⟨s.readVasData :: reqs, b, ?_, ?_, ?_, ?_⟩
    · exact vasLoop_step regs hset hanswer hloop
    · rw [List.length_cons, hcount]
      omega
    · rw [List.flatMap_cons, haddr, hlen, htiles,
        show 32011 + 90 * (c + 1) = 32011 + 90 * c + 90 by omega, List.range'_append_1,
        show 90 + (n - 90 * (c + 1)) = n - 90 * c by omega]
    · have hwords : (vasWords regs (90 * c) 90).length = 90 := by
        unfold vasWords
        rw [List.length_map, List.length_range']
      rw [hb]
      simp only
      rw [withBlock_take hfits (e := 90 * (c + 1)) (by omega), List.append_assoc,
        ← List.flatMap_append, show 90 * (c + 1) = 90 * c + 90 by omega, vasWords_append,
        show 90 + (n - (90 * c + 90)) = n - 90 * c by omega]

/-! ## The whole of it

When the last block is in place the check sum is compared and the record is stored, if the store
has a place for it; with thirty records it has none, and the write goes behind it. -/

/-- The registers of the vehicle data. -/
def SeccData.vasRegs (s : SeccData) : Nat := s.rx.vasMapCnt.toNat - 10

/-- The data as it should be put together. -/
def SeccData.vasBytes (s : SeccData) (regs : Nat → UInt16) : List UInt8 :=
  ((List.range' 32011 s.vasRegs).map regs).flatMap bytes16

/-- **The vehicle data has been read**: by these requests, with this outcome. -/
structure VasRead (regs : Nat → UInt16) (s : SeccData) (reqs : List (UInt16 × UInt16))
    (s' : SeccData) : Prop where
  /-- the loop ends, after these requests -/
  loop : ∀ fuel, reqs.length ≤ fuel → vasLoop regs fuel s = some (reqs, s')
  count : reqs.length = (s.vasRegs + 89) / 90
  tiles : (reqs.flatMap fun r => List.range' r.1.toNat r.2.toNat) = List.range' 32011 s.vasRegs
  finished : s'.vasReadCd = 0
  data : s'.vasDataBuf.bytes.take (2 * s.vasRegs) = s.vasBytes regs
  kept : (vasSum (s.vasBytes regs)).toUInt16 ≠ s.rx.vasChksum →
    s'.seccVasRxData = s.seccVasRxData ∧ s'.seccVasRawData = s.seccVasRawData
  stored : (vasSum (s.vasBytes regs)).toUInt16 = s.rx.vasChksum →
    s'.seccVasRxData = Function.update s.seccVasRxData s.seccVasDataCnt.toNat
      (decodeVas (s.seccVasRxData s.seccVasDataCnt.toNat) s'.vasDataBuf) ∧
    ∃ raw, s'.seccVasRawData = Function.update s.seccVasRawData s.seccVasDataCnt.toNat raw ∧
      raw.dataLenth.toNat = 2 * s.vasRegs - 6 ∧
      raw.data.bytes.take (2 * s.vasRegs - 6) = s'.vasDataBuf.slice 6 (2 * s.vasRegs - 6)

/-- **The vehicle data is read in full**, whatever the registers hold, exactly if there is a place for
the record, or the sum is wrong and there is none to store. -/
theorem vas_block_read (regs : Nat → UInt16) (s : SeccData) (hlow : 13 ≤ s.rx.vasMapCnt.toNat)
    (hhigh : s.rx.vasMapCnt.toNat ≤ 522) (hcd : s.vasReadCd = 1) :
    (∃ reqs s', VasRead regs s reqs s') ↔ s.seccVasDataCnt.toNat < seccVasCap ∨
      (vasSum (s.vasBytes regs)).toUInt16 ≠ s.rx.vasChksum := by
  have hn : s.rx.vasMapCnt.toNat = s.vasRegs + 10 := by
    unfold SeccData.vasRegs
    omega
  obtain ⟨reqs, b, hloop, hcount, htiles, hb⟩ := blocks_read regs
    (n := s.vasRegs) (by omega) ((s.vasRegs + 89) / 90 - 1) 0 s (by rw [hcd]; rfl) hn
    (by omega) (by omega)
  have hdata : b.bytes.take (2 * s.vasRegs) = s.vasBytes regs := hb
  constructor
  · intro hread
    obtain ⟨reqs', s', hread⟩ := hread
    by_contra hneither
    obtain ⟨hfull, hsum⟩ := not_or.mp hneither
    have hnone := endVas_behind (n := s.vasRegs) (s := { s with vasDataBuf := b, vasReadCd := 0 })
      hfull (by rw [hdata]; exact not_not.mp hsum) hn (by omega)
    have hsome := hread.loop (reqs.length + reqs'.length) (Nat.le_add_left _ _)
    rw [hloop _ (Nat.le_add_right _ _), hnone] at hsome
    cases hsome
  · intro hroom
    obtain ⟨s', hend, hsummed⟩ := endVas_summed (n := s.vasRegs)
      (s := { s with vasDataBuf := b, vasReadCd := 0 }) (by rw [hdata]; exact hroom) hn (by omega)
      (by omega)
    have hbuf : s'.vasDataBuf = b := hsummed.vasDataBuf
    have hkept := hsummed.kept
    have hstored := hsummed.stored
    simp only [hdata] at hkept hstored
    refine ⟨reqs, s', ?_, hcount, htiles, hsummed.vasReadCd, ?_, ?_, ?_⟩
    · intro fuel hfuel
      rw [hloop fuel hfuel, hend]
      rfl
    · rw [hbuf]
      exact hdata
    · intro hne
      rw [hkept hne]
      exact ⟨rfl, rfl⟩
    · intro heq
      rw [hbuf]
      exact hstored heq

/-- New data of `vasMapCnt` registers is there. -/
def SeccData.announced (vasMapCnt : UInt16) : SeccData :=
  { SeccData.zero with rx := { SeccData.zero.rx with vasMapCnt := vasMapCnt }, vasReadCd := 1 }

theorem vas_block_read_full :
    ∃ reqs s', VasRead (fun a => UInt16.ofNat a) (.announced 522) reqs s' :=
  (vas_block_read _ (.announced 522) (by decide) (by decide) rfl).mpr (.inl (by decide))

/-- The stores are full, and three registers of zeros are there to be read. -/
theorem vas_block_read_behind :
    ¬ ∃ reqs s', VasRead (fun _ => 0) { SeccData.announced 13 with seccVasDataCnt := 30 } reqs s' := by
  intro h
  have hroom := (vas_block_read (fun _ => 0) { SeccData.announced 13 with seccVasDataCnt := 30 }
    (by decide) (by decide) rfl).mp h
  exact absurd hroom (by decide)

end ChargePoint
