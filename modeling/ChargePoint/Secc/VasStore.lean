import ChargePoint.Secc.Blocks
import ChargePoint.Lib.Trace

/-!
# The store of the vehicle data

`seccVasDataCnt` is the place of the next record. `VasDataInit` sets it to zero and each record adds
one to it, until it is found above 29 *before* one is added. It is 30 by then, and has been the place
of a record: the one after the thirtieth (`store_bound`).

That record is written behind both stores, where `ParsRxData` is not defined. Nothing is assumed of
what it leaves behind: the run goes on from any state at all.
-/

set_option autoImplicit false

namespace ChargePoint

open Trace

/-- **`VasDataInit`**. The raw records stay. -/
def SeccData.vasDataInit (s : SeccData) : SeccData :=
  { s with seccVasRxData := fun _ => .zero, seccVasDataCnt := 0, chargingSoc := 0 }

/-! ## Runs

An event is a response, a call of `VasDataInit`, or anything else. The last may change every
register and the block that is being read, but not the two stores and their index. -/

inductive VasObs
  /-- a record was written at this index of both stores -/
  | stored (i : Nat)
  | cleared
  deriving DecidableEq

def VasObs.isCleared : VasObs → Bool
  | .stored _ => false
  | .cleared => true

/-- The index of the record that a response completes, if it completes one. -/
def SeccData.storeIndex (s : SeccData) (addr : UInt16) (data16 : Bytes 1024) (dataLen : UInt8) :
    Option Nat :=
  (fallThrough data16 dataLen (rxCases.dropWhile fun c => c.1 ≠ addr) dataLen s).bind fun s =>
    if 32010 < addr then
      (s.readBlock data16 dataLen).bind fun r =>
        if r.1 then some r.2.seccVasDataCnt.toNat else none
    else none

inductive VasEvent
  /-- a response is taken apart; a record behind the stores leaves `behind` -/
  | response (addr : UInt16) (data16 : Bytes 1024) (dataLen : UInt8) (behind : SeccData)
  | clear
  /-- the rest of the program has made this of the state -/
  | others (now : SeccData)

/-- One event. The rest of the program changes whatever it likes, but for the stores and their
index. -/
def vasRun : Step SeccData VasEvent VasObs
  | s, .response addr data16 dataLen behind =>
    match s.storeIndex addr data16 dataLen with
    | none => (s.parsRxData addr data16 dataLen).map fun s' => (s', [])
    | some i =>
      if i < seccVasCap then (s.parsRxData addr data16 dataLen).map fun s' => (s', [.stored i])
      else some (behind, [.stored i])
  | s, .clear => some (s.vasDataInit, [.cleared])
  | s, .others now => some ({ now with
      seccVasRxData := s.seccVasRxData
      seccVasRawData := s.seccVasRawData
      seccVasDataCnt := s.seccVasDataCnt }, [])

/-- A record is one of the first thirty since the last `VasDataInit`. -/
def FirstThirty (log : List VasObs) (x : VasObs) : Prop :=
  ∀ i, x = .stored i → (since VasObs.isCleared log).length < 30

/-! ## What a response does to the stores -/

section Responses
variable {s s' : SeccData}

/-- The index is the same, and so is what is stored at the indices in `keep`. -/
structure SameStore (keep : Nat → Prop) (s s' : SeccData) : Prop where
  cnt : s'.seccVasDataCnt = s.seccVasDataCnt
  rx : ∀ j, keep j → s'.seccVasRxData j = s.seccVasRxData j
  raw : ∀ j, keep j → s'.seccVasRawData j = s.seccVasRawData j

theorem SameStore.of_eq {keep : Nat → Prop} (hcnt : s'.seccVasDataCnt = s.seccVasDataCnt)
    (hrx : s'.seccVasRxData = s.seccVasRxData) (hraw : s'.seccVasRawData = s.seccVasRawData) :
    SameStore keep s s' :=
  ⟨hcnt, fun j _ => congrFun hrx j, fun j _ => congrFun hraw j⟩

theorem SameStore.trans {keep : Nat → Prop} {s'' : SeccData} (h : SameStore keep s s')
    (h' : SameStore keep s' s'') : SameStore keep s s'' :=
  ⟨h'.cnt.trans h.cnt, fun j hj => (h'.rx j hj).trans (h.rx j hj),
    fun j hj => (h'.raw j hj).trans (h.raw j hj)⟩

/-- The cases of `ParsRxData` set a register each, and one of them starts a reading. -/
theorem rxCases_store (keep : Nat → Prop) :
    ∀ c ∈ rxCases, ∀ (s : SeccData) (w : UInt16), SameStore keep s (c.2 s w) := by
  have hset : ∀ (s : SeccData) (w : UInt16), SameStore keep s (s.setVasRxCnt w) := by
    intro s w
    unfold SeccData.setVasRxCnt
    dsimp only
    split
    · split
      all_goals exact .of_eq rfl rfl rfl
    · exact .of_eq rfl rfl rfl
  unfold rxCases
  iterate 12 refine List.forall_mem_cons.mpr ⟨fun _ _ => .of_eq rfl rfl rfl, ?_⟩
  refine List.forall_mem_cons.mpr ⟨hset, ?_⟩
  iterate 5 refine List.forall_mem_cons.mpr ⟨fun _ _ => .of_eq rfl rfl rfl, ?_⟩
  exact List.forall_mem_nil _

theorem fallThrough_store {data16 : Bytes 1024} {dataLen : UInt8} (keep : Nat → Prop)
    {cs : List (UInt16 × (SeccData → UInt16 → SeccData))} (hcs : ∀ c ∈ cs, c ∈ rxCases) :
    ∀ {tmp : UInt8} {s : SeccData}, fallThrough data16 dataLen cs tmp s = some s' →
      SameStore keep s s' := by
  induction cs with
  | nil =>
    intro tmp s h
    obtain rfl := Option.some.inj h
    exact .of_eq rfl rfl rfl
  | cons c cs ih =>
    intro tmp s h
    have hfirst := rxCases_store keep c (hcs c List.mem_cons_self) s
    unfold fallThrough at h
    dsimp only at h
    split at h
    · split at h
      · obtain rfl := Option.some.inj h
        exact hfirst _
      · exact (hfirst _).trans (ih (fun c hc => hcs c (List.mem_cons_of_mem _ hc)) h)
    · cases h

/-- Reading a block is no matter of the stores. -/
theorem readBlock_store {src8 : Bytes 1024} {size : UInt8} {r : Bool × SeccData}
    (keep : Nat → Prop) (h : s.readBlock src8 size = some r) : SameStore keep s r.2 := by
  obtain ⟨buf, cd, heq⟩ := readBlock_frame h
  rw [heq]
  exact .of_eq rfl rfl rfl

theorem storeVas_store (h : s.storeVas = some s') :
    SameStore (fun j => j ≠ s.seccVasDataCnt.toNat) s s' := by
  obtain ⟨-, raw, rfl⟩ := storeVas_some h
  refine ⟨rfl, ?_, ?_⟩
  all_goals
    intro j hj
    exact Function.update_of_ne hj _ _

/-- **What a response does**: nothing to the stores, or it writes at the index, and counts; or the
index is behind the stores, and there is nothing to say. -/
inductive VasStep (s s' : SeccData) : List VasObs → Prop
  | kept (hsame : SameStore (fun _ => True) s s') : VasStep s s' []
  | stored (hroom : s.seccVasDataCnt.toNat < seccVasCap)
      (hcnt : s'.seccVasDataCnt = s.seccVasDataCnt + 1)
      (hrx : ∀ j ≠ s.seccVasDataCnt.toNat, s'.seccVasRxData j = s.seccVasRxData j)
      (hraw : ∀ j ≠ s.seccVasDataCnt.toNat, s'.seccVasRawData j = s.seccVasRawData j) :
      VasStep s s' [.stored s.seccVasDataCnt.toNat]
  | behind (hfull : ¬ s.seccVasDataCnt.toNat < seccVasCap) :
      VasStep s s' [.stored s.seccVasDataCnt.toNat]

theorem countVas_cnt (hroom : s.seccVasDataCnt.toNat < seccVasCap) :
    s.countVas.seccVasDataCnt = s.seccVasDataCnt + 1 := by
  have hlow : ¬ 29 < s.seccVasDataCnt := by
    rw [UInt8.lt_iff_toNat_lt]
    exact Nat.not_lt.mpr (Nat.le_of_lt_succ hroom)
  unfold SeccData.countVas
  dsimp only
  rw [if_neg hlow]

section Steps
variable {addr : UInt16} {data16 : Bytes 1024} {dataLen : UInt8}

/-- The registers of the vehicle data have no case of their own. -/
theorem storeIndex_vas (haddr : 32010 < addr) : s.storeIndex addr data16 dataLen =
    (s.readBlock data16 dataLen).bind fun r =>
      if r.1 then some r.2.seccVasDataCnt.toNat else none := by
  unfold SeccData.storeIndex
  rw [rxCases_vas haddr, fallThrough, Option.bind_some, if_pos haddr]

theorem parsRxData_eq (haddr : 32010 < addr) : s.parsRxData addr data16 dataLen =
    (s.vasParsFunc data16 dataLen).map fun r => if r.1 then r.2.countVas else r.2 := by
  unfold SeccData.parsRxData
  rw [rxCases_vas haddr, fallThrough, Option.bind_some, if_pos haddr]

/-- A response that completes a record is one of the vehicle data, and its index is the index. -/
theorem storeIndex_some {i : Nat} (h : s.storeIndex addr data16 dataLen = some i) :
    32010 < addr ∧ i = s.seccVasDataCnt.toNat ∧
      ∃ t, s.readBlock data16 dataLen = some (true, t) ∧ SameStore (fun _ => True) s t := by
  have haddr : 32010 < addr := by
    by_contra hlow
    unfold SeccData.storeIndex at h
    obtain ⟨t, -, ht⟩ := Option.bind_eq_some_iff.mp h
    rw [if_neg hlow] at ht
    cases ht
  rw [storeIndex_vas haddr] at h
  obtain ⟨⟨ok, t⟩, hread, hidx⟩ := Option.bind_eq_some_iff.mp h
  have hsame := readBlock_store (fun _ => True) hread
  cases ok with
  | true =>
    obtain rfl := Option.some.inj hidx
    exact ⟨haddr, by rw [hsame.cnt], t, hread, hsame⟩
  | false => cases hidx

/-- A response that completes none leaves the stores alone. -/
theorem parsRxData_kept (hidx : s.storeIndex addr data16 dataLen = none)
    (h : s.parsRxData addr data16 dataLen = some s') : SameStore (fun _ => True) s s' := by
  by_cases haddr : 32010 < addr
  · rw [parsRxData_eq haddr] at h
    obtain ⟨r, hvas, rfl⟩ := Option.map_eq_some_iff.mp h
    obtain ⟨t, hread, ⟨hok, -⟩ | ⟨hno, ht⟩⟩ := vasParsFunc_some hvas
    · rw [storeIndex_vas haddr, hread, Option.bind_some, if_pos hok] at hidx
      cases hidx
    · rw [if_neg (by simp [hno]), ht]
      exact readBlock_store _ hread
  · unfold SeccData.parsRxData at h
    obtain ⟨t, hfall, ht⟩ := Option.bind_eq_some_iff.mp h
    rw [if_neg haddr] at ht
    obtain rfl := Option.some.inj ht
    exact fallThrough_store _ (fun c hc => (List.dropWhile_sublist _).subset hc) hfall

theorem response_step {behind : SeccData} {o : List VasObs}
    (h : vasRun s (.response addr data16 dataLen behind) = some (s', o)) : VasStep s s' o := by
  unfold vasRun at h
  dsimp only at h
  split at h
  · rename_i hidx
    obtain ⟨t, hpars, heq⟩ := Option.map_eq_some_iff.mp h
    obtain ⟨rfl, rfl⟩ := Prod.mk.inj heq
    exact .kept (parsRxData_kept hidx hpars)
  · rename_i i hidx
    -- the response is of the record, and the index it is stored at is the count
    obtain ⟨haddr, rfl, t, hread, hsame⟩ := storeIndex_some hidx
    split at h
    · rename_i hroom
      obtain ⟨t', hpars, heq⟩ := Option.map_eq_some_iff.mp h
      obtain ⟨rfl, rfl⟩ := Prod.mk.inj heq
      rw [parsRxData_eq haddr] at hpars
      obtain ⟨r, hvas, rfl⟩ := Option.map_eq_some_iff.mp hpars
      obtain ⟨t', hread', ⟨hok, hstore⟩ | ⟨hno, -⟩⟩ := vasParsFunc_some hvas
      · rw [hread, hok] at hread'
        obtain ⟨-, rfl⟩ := Prod.mk.inj (Option.some.inj hread')
        obtain ⟨-, -, hrx, hraw⟩ := countVas_frame r.2
        have hone := storeVas_store hstore
        have hcnt := hone.cnt.trans hsame.cnt
        rw [if_pos hok]
        refine .stored hroom ?_ ?_ ?_
        · rw [countVas_cnt (by rw [hcnt]; exact hroom), hcnt]
        · intro j hj
          rw [hrx, hone.rx j (by rw [hsame.cnt]; exact hj)]
          exact hsame.rx j trivial
        · intro j hj
          rw [hraw, hone.raw j (by rw [hsame.cnt]; exact hj)]
          exact hsame.raw j trivial
      · rw [hread, hno] at hread'
        cases hread'
    · rename_i hfull
      obtain ⟨rfl, rfl⟩ := Prod.mk.inj (Option.some.inj h)
      exact .behind hfull

end Steps

end Responses

/-! ## The bound

The bound is about a log: no more than thirty records since the stores were cleared. While it
holds the index is the number of these records; where it fails first the index is 30. -/

/-- **The invariant**: what the bound comes to, and the index while it holds. -/
structure BoundInv (s : SeccData) (log : List VasObs) : Prop where
  bound : (∀ i, .stored i ∈ log → i < 30) ↔ Past FirstThirty log
  cnt : Past FirstThirty log → s.seccVasDataCnt.toNat = (since VasObs.isCleared log).length ∧
    (since VasObs.isCleared log).length ≤ 30

section Bound
variable {s s' : SeccData} {log : List VasObs}

/-- The index is what matters. -/
theorem BoundInv.congr (h : BoundInv s log) (hcnt : s'.seccVasDataCnt = s.seccVasDataCnt) :
    BoundInv s' log := by
  refine ⟨h.bound, ?_⟩
  rw [hcnt]
  exact h.cnt

/-- **A record** keeps it. -/
theorem boundInv_stored (hI : BoundInv s log)
    (hcnt : s.seccVasDataCnt.toNat < seccVasCap → s'.seccVasDataCnt = s.seccVasDataCnt + 1) :
    BoundInv s' (log ++ [.stored s.seccVasDataCnt.toNat]) := by
  refine ⟨⟨?_, ?_⟩, ?_⟩
  · intro hbound
    have hold : Past FirstThirty log :=
      hI.bound.mp fun i hi => hbound i (List.mem_append_left _ hi)
    refine past_concat.mpr ⟨hold, ?_⟩
    intro i _
    rw [← (hI.cnt hold).1]
    exact hbound _ (List.mem_append_right _ (List.mem_singleton.mpr rfl))
  · intro hpast i hi
    obtain ⟨hold, hnew⟩ := past_concat.mp hpast
    cases List.mem_append.mp hi with
    | inl hi => exact hI.bound.mpr hold i hi
    | inr hi =>
      obtain rfl := VasObs.stored.inj (List.mem_singleton.mp hi)
      rw [(hI.cnt hold).1]
      exact hnew _ rfl
  · intro hpast
    obtain ⟨hold, hnew⟩ := past_concat.mp hpast
    have hlt := hnew _ rfl
    have hidx := (hI.cnt hold).1
    have hnext := hcnt (by rw [hidx]; exact hlt)
    rw [since_concat, if_neg (by simp [VasObs.isCleared]), List.length_append, hnext,
      UInt8.toNat_add, hidx]
    simp
    omega

theorem boundInv_cleared (hI : BoundInv s log) (hcnt : s'.seccVasDataCnt = 0) :
    BoundInv s' (log ++ [.cleared]) := by
  have hpast : Past FirstThirty (log ++ [.cleared]) ↔ Past FirstThirty log := by
    rw [past_concat]
    exact and_iff_left fun i hi => by cases hi
  have hmem : ∀ i, VasObs.stored i ∈ log ++ [.cleared] ↔ .stored i ∈ log := by simp
  refine ⟨?_, ?_⟩
  · rw [hpast, ← hI.bound]
    simp only [hmem]
  · intro _
    rw [since_concat, hcnt]
    simp [VasObs.isCleared]

/-- **The index stays below 30** exactly as long as no more than thirty records come between two
calls of `VasDataInit`. -/
theorem store_bound {s₀ : SeccData} (hcnt : s₀.seccVasDataCnt = 0) (h : Always vasRun s₀ s log) :
    (∀ i, .stored i ∈ log → i < 30) ↔ Past FirstThirty log := by
  refine (h.invariant (I := BoundInv) ⟨?_, ?_⟩ ?_).bound
  · exact ⟨fun _ => Past.nil, fun _ i hi => by cases hi⟩
  · intro _
    rw [hcnt]
    exact ⟨rfl, Nat.zero_le _⟩
  · intro s log e s' o hI _ hstep
    cases e with
    | response addr data16 dataLen behind =>
      cases response_step hstep with
      | kept hsame =>
        rw [List.append_nil]
        exact hI.congr hsame.cnt
      | stored hroom hcnt hrx hraw => exact boundInv_stored hI fun _ => hcnt
      | behind hfull => exact boundInv_stored hI fun hroom => absurd hroom hfull
    | clear =>
      obtain ⟨rfl, rfl⟩ := Prod.mk.inj (Option.some.inj hstep)
      exact boundInv_cleared hI rfl
    | others now =>
      obtain ⟨rfl, rfl⟩ := Prod.mk.inj (Option.some.inj hstep)
      rw [List.append_nil]
      exact hI.congr rfl

end Bound

/-! ## Records of zeros -/

/-- Three registers of zeros are a record. -/
theorem zeros_read {s : SeccData} (hmap : s.rx.vasMapCnt = 13) (hsum : s.rx.vasChksum = 0)
    (hcd : s.vasReadCd = 1) : ∃ t, s.readBlock (.zero 1024) 6 = some (true, t) := by
  have hword : swapWords (.zero 1024) (6 : UInt8).toNat = List.replicate 6 0 := by decide
  have hoff : (maxLen : Int) * (s.vasReadCd.toNat - 1) * 2 = 0 := by
    rw [hcd]
    rfl
  have hleft : s.vasLeft = 3 := by
    unfold SeccData.vasLeft
    rw [hmap, hcd]
    rfl
  unfold SeccData.readBlock
  dsimp only
  rw [dif_pos ⟨Int.le_of_eq hoff.symm, by rw [hoff, hword]; decide⟩, if_neg (by rw [hleft]; decide)]
  have hsums : ∀ buf, SeccData.sumVas { s with vasDataBuf := buf, vasReadCd := 0 } =
      some (decide ((vasSum (buf.bytes.take (2 * 3))).toUInt16 = 0)) := by
    intro buf
    rw [sumVas_eq (n := 3) (by rw [hmap]; rfl) (by decide), hsum]
  rw [hsums, Option.map_some]
  refine ⟨_, congrArg some (Prod.ext (decide_eq_true ?_) rfl)⟩
  simp only [hoff, hword]
  have hbuf : (s.vasDataBuf.put 0 (List.replicate 6 0) (by decide)).bytes.take 6 =
      List.replicate 6 0 := Bytes.put_zero_take (b := s.vasDataBuf) (by decide) rfl
  exact congrArg (fun bs => (vasSum bs).toUInt16) hbuf

/-- One more record. -/
theorem record_again {s : SeccData} {log : List VasObs} (h : Always vasRun .zero s log) :
    ∃ s', Always vasRun .zero s' (log ++ [.stored s.seccVasDataCnt.toNat]) ∧
      (s.seccVasDataCnt.toNat < seccVasCap → s'.seccVasDataCnt = s.seccVasDataCnt + 1) := by
  -- with a map of 13 announced, a block of zeros is taken as a record
  have hset := h.step (e := .others (.announced 13)) trivial rfl
  rw [List.append_nil] at hset
  generalize hs₁ : ({ SeccData.announced 13 with
    seccVasRxData := s.seccVasRxData
    seccVasRawData := s.seccVasRawData
    seccVasDataCnt := s.seccVasDataCnt } : SeccData) = s₁ at hset
  have hcnt : s₁.seccVasDataCnt = s.seccVasDataCnt := by rw [← hs₁]
  have hmap : s₁.rx.vasMapCnt = 13 := by rw [← hs₁]; rfl
  obtain ⟨t, hread⟩ := zeros_read hmap (by rw [← hs₁]; rfl) (by rw [← hs₁]; rfl)
  have hsame := readBlock_store (fun _ => True) hread
  have hidx : s₁.storeIndex 32011 (.zero 1024) 6 = some s.seccVasDataCnt.toNat := by
    rw [storeIndex_vas (by decide), hread, Option.bind_some, if_pos rfl, hsame.cnt, hcnt]
  by_cases hroom : s.seccVasDataCnt.toNat < seccVasCap
  · obtain ⟨buf, cd, ht⟩ := readBlock_frame hread
    dsimp only at ht
    obtain ⟨raw, hstore, -⟩ := storeVas_eq (s := t) (n := 3)
      (by rw [hsame.cnt, hcnt]; exact hroom) (by rw [ht]; exact congrArg UInt16.toNat hmap)
      (by decide) (by decide)
    have hpars : ∃ s', s₁.parsRxData 32011 (.zero 1024) 6 = some s' := by
      rw [parsRxData_eq (by decide), SeccData.vasParsFunc, hread, Option.bind_some, if_pos rfl,
        hstore]
      exact ⟨_, rfl⟩
    obtain ⟨s', hpars⟩ := hpars
    have hstep : vasRun s₁ (.response 32011 (.zero 1024) 6 .zero) =
        some (s', [.stored s.seccVasDataCnt.toNat]) := by
      unfold vasRun
      simp only [hidx]
      rw [if_pos hroom, hpars]
      rfl
    refine ⟨s', hset.step trivial hstep, fun _ => ?_⟩
    rw [← hcnt] at hstep
    cases response_step hstep with
    | stored _ hnext _ _ => rw [hnext, hcnt]
    | behind hfull => exact absurd (by rw [hcnt]; exact hroom) hfull
  · have hstep : vasRun s₁ (.response 32011 (.zero 1024) 6 .zero) =
        some (.zero, [.stored s.seccVasDataCnt.toNat]) := by
      unfold vasRun
      simp only [hidx]
      rw [if_neg hroom]
    exact ⟨.zero, hset.step trivial hstep, fun h => absurd h hroom⟩

theorem records_stored (n : Nat) (hn : n ≤ 30) :
    ∃ s, Always vasRun .zero s ((List.range n).map .stored) ∧ s.seccVasDataCnt.toNat = n := by
  induction n with
  | zero => exact ⟨.zero, .start, rfl⟩
  | succ n ih =>
    obtain ⟨s, hrun, hcnt⟩ := ih (Nat.le_of_succ_le hn)
    obtain ⟨s', hrun', hnext⟩ := record_again hrun
    refine ⟨s', ?_, ?_⟩
    · rw [List.range_succ, List.map_append]
      rw [hcnt] at hrun'
      exact hrun'
    · rw [hnext (by rw [hcnt]; exact hn), UInt8.toNat_add, hcnt]
      change (n + 1) % 256 = n + 1
      omega

theorem store_bound_thirty : ∃ s, Always vasRun .zero s ((List.range 30).map .stored) ∧
    ((∀ i, .stored i ∈ (List.range 30).map VasObs.stored → i < 30) ↔
      Past FirstThirty ((List.range 30).map .stored)) := by
  obtain ⟨s, hrun, -⟩ := records_stored 30 (Nat.le_refl _)
  exact ⟨s, hrun, store_bound rfl hrun⟩

/-- The thirty-first record is written behind both stores. -/
theorem thirty_first_record : ∃ s log, Always vasRun .zero s log ∧
    ¬ ∀ i, .stored i ∈ log → i < 30 := by
  obtain ⟨s, hrun, hcnt⟩ := records_stored 30 (Nat.le_refl _)
  obtain ⟨s', hrun', -⟩ := record_again hrun
  refine ⟨s', _, hrun', ?_⟩
  intro hbound
  have hlast := hbound s.seccVasDataCnt.toNat (by simp)
  rw [hcnt] at hlast
  exact absurd hlast (by decide)

end ChargePoint
