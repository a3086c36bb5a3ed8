import Mathlib.Data.List.Induction
import ChargePoint.Charge.SecondCard
import ChargePoint.Config
import ChargePoint.ConnectorIds

/-!
# What a request changes

A request that is rejected should leave the charger as it is, and one that is accepted should
change what it names. ChangeConfiguration does: its chain of indices finds the rows of
`Init_CfgKey`. ChangeAvailability writes 0 over the whole of `chargingstatus` where it means the
bits of the connectors, and RemoteStartTransaction copies the idTag over the card of the session
before it decides.
-/

set_option autoImplicit false

namespace ChargePoint

open CStr Loop ChargeLayer

/-! ## ChangeConfiguration -/

/-- The names of the rows, and which of them can be written, are those of `Init_CfgKey`. -/
structure CfgNamed (c : Charger) : Prop where
  name : ∀ i, (c.cfgKey i).cfgKeyName = (initCfgKey i).cfgKeyName
  readonly : ∀ i, (c.cfgKey i).cfgKeyRw = (initCfgKey i).cfgKeyRw

theorem CfgTable.named {c : Charger} (h : CfgTable c) : CfgNamed c := by
  constructor
  · intro i
    obtain ⟨v, hv⟩ := h i
    rw [hv]
  · intro i
    obtain ⟨v, hv⟩ := h i
    rw [hv]

/-- A request that is not accepted changes no row. -/
theorem changeConfig_refused {rx : RxBuf} {c : Charger} {tx : TxBuf}
    (h : ¬ AnswersAccepted (dataProcCmdChangeConfig rx c tx).2) :
    (dataProcCmdChangeConfig rx c tx).1 = c := by
  unfold dataProcCmdChangeConfig at h ⊢
  dsimp only at h ⊢
  split
  · rename_i hnamed
    rw [if_pos hnamed, makeCallRes_accepts] at h
    rcases changeConfigKey_row (rx.msg.payload 0) (rx.msg.payload 1) c with hsame | ⟨hret, -⟩
    · exact hsame
    · rw [hret] at h
      exact absurd rfl h
  · rfl

/-- A row that a request changes has the name of its key, and can be written. -/
theorem changeConfig_changed {rx : RxBuf} {c : Charger} (hc : CfgNamed c) {tx : TxBuf} {i : Nat}
    (h : (dataProcCmdChangeConfig rx c tx).1.cfgKey i ≠ c.cfgKey i) :
    (c.cfgKey i).cfgKeyName = cstr (rx.msg.payload 0).propertyContants ∧
      (c.cfgKey i).cfgKeyRw = false := by
  unfold dataProcCmdChangeConfig at h
  dsimp only at h
  split at h
  · rcases changeConfigKey_row (rx.msg.payload 0) (rx.msg.payload 1) c with
      hsame | ⟨-, n, ty, x, hrow, heq⟩
    · rw [hsame] at h
      exact absurd rfl h
    · rw [heq] at h
      obtain rfl : i = n := by
        by_contra hne
        exact h ((CfgOnly.setCfgInt c n x).row hne)
      rw [hc.name, hc.readonly, (cfgChange_row hrow).2.2.1]
      exact ⟨rfl, rfl⟩
  · exact absurd rfl h

/-- **ChangeConfiguration changes one row or none.** In every run the table is named as
`Init_CfgKey` names it. -/
theorem changeConfig_atomic :
    (∀ c : Charger, CfgNamed c → ∀ (rx : RxBuf) (tx : TxBuf),
      (¬ AnswersAccepted (dataProcCmdChangeConfig rx c tx).2 →
        (dataProcCmdChangeConfig rx c tx).1.cfgKey = c.cfgKey) ∧
      (AnswersAccepted (dataProcCmdChangeConfig rx c tx).2 → ∀ i,
        ((c.cfgKey i).cfgKeyName ≠ cstr (rx.msg.payload 0).propertyContants →
          (dataProcCmdChangeConfig rx c tx).1.cfgKey i = c.cfgKey i) ∧
        ((c.cfgKey i).cfgKeyRw = true →
          (dataProcCmdChangeConfig rx c tx).1.cfgKey i = c.cfgKey i))) ∧
    ∀ s log, Run s log → CfgNamed s.cp := by
  constructor
  · intro c hc rx tx
    constructor
    · intro hrefused
      rw [changeConfig_refused hrefused]
    · intro _ i
      constructor
      · intro hname
        by_contra hne
        exact hname (changeConfig_changed hc hne).1
      · intro hro
        by_contra hne
        rw [(changeConfig_changed hc hne).2] at hro
        exact absurd hro (by decide)
  · intro s log h
    exact (run_table h).named

/-- A request for a sample every minute, which is row 10. -/
def sampleIntervalRequest : RxBuf :=
  { clearRxMsgBuff with msg := { clearRxMsgBuff.msg with
      payloadLen := 1
      payload := fun i =>
        if i = 0 then strProp "key" "MeterValueSampleInterval" else strProp "value" "60" } }

/-- Row 10 is changed, and every row of another name stays. -/
theorem changeConfig_atomic_interval :
    AnswersAccepted (dataProcCmdChangeConfig sampleIntervalRequest (.init 0) .zero).2 ∧
    ((dataProcCmdChangeConfig sampleIntervalRequest (.init 0) .zero).1.cfgKey 10).cfgKeyDataInt =
      60 ∧
    ∀ i, ((Charger.init 0).cfgKey i).cfgKeyName ≠ "MeterValueSampleInterval".toList →
      (dataProcCmdChangeConfig sampleIntervalRequest (.init 0) .zero).1.cfgKey i =
        (Charger.init 0).cfgKey i := by
  have hnamed : CfgNamed (.init 0) := changeConfig_atomic.2 (Client.init 0 0) [] ⟨0, 0, .start⟩
  have haccept :
      AnswersAccepted (dataProcCmdChangeConfig sampleIntervalRequest (.init 0) .zero).2 := by
    unfold AnswersAccepted
    decide +kernel
  refine ⟨haccept, by decide +kernel, fun i hname => ?_⟩
  refine (((changeConfig_atomic.1 _ hnamed _ _).2 haccept i).1 fun heq => hname ?_)
  rw [heq]
  decide

/-! ## ChangeAvailability

The status of a connector and its bit of `chargingstatus` are written together, but the word holds
more than these bits: one above them remembers a transaction. The condition speaks of it only where
all connectors are taken out of service, the one case in which the whole word is written. -/

/-- Bit `k` of `theConfig.chargingstatus`. -/
def Charger.chgBit (c : Charger) (k : Nat) : Bool := c.chargingStatus.toBitVec.getLsbD k

/-- `1 << i`. -/
theorem shift_bit (i : Fin 2) (k : Nat) :
    ((1 : UInt32) <<< UInt32.ofNat i.val).toBitVec.getLsbD k = decide (k = i.val) := by
  have hmask : ∀ i : Fin 2, ((1 : UInt32) <<< UInt32.ofNat i.val).toBitVec =
      BitVec.twoPow 32 i.val := by decide
  have hlt : i.val < 32 := by omega
  rw [hmask, BitVec.getLsbD_twoPow]
  simp [hlt, eq_comm]

theorem three_bit (k : Nat) :
    (3 : UInt32).toBitVec.getLsbD k = decide (k ≤ maxConectorId) := by
  by_cases hk : k ≤ maxConectorId
  · have hall : ∀ k : Fin 2, (3 : UInt32).toBitVec.getLsbD k.val = true := by decide
    rw [decide_eq_true hk]
    exact hall ⟨k, Nat.lt_succ_of_le hk⟩
  · rw [decide_eq_false hk]
    refine Nat.testBit_lt_two_pow ?_
    calc (3 : Nat) < 2 ^ 2 := by decide
      _ ≤ 2 ^ k := Nat.pow_le_pow_right (by decide) (Nat.lt_of_not_le hk)

theorem or_bit (a b : UInt32) (k : Nat) : (a ||| b).toBitVec.getLsbD k =
    (a.toBitVec.getLsbD k || b.toBitVec.getLsbD k) := by
  rw [UInt32.toBitVec_or, BitVec.getLsbD_or]

theorem andNot_bit (a b : UInt32) (k : Nat) : (a &&& ~~~b).toBitVec.getLsbD k =
    (a.toBitVec.getLsbD k && !b.toBitVec.getLsbD k) := by
  rw [UInt32.toBitVec_and, UInt32.toBitVec_not, BitVec.getLsbD_and, BitVec.getLsbD_not]
  by_cases hk : k < 32
  · simp [hk]
  · have hge : a.toBitVec.getLsbD k = false := BitVec.getLsbD_of_ge _ _ (Nat.le_of_not_lt hk)
    rw [hge, Bool.false_and, Bool.false_and]

/-- No bit behind those of the connectors is set. -/
theorem chgBit_above (c : Charger) :
    c.chargingStatus < 4 ↔ ∀ k, maxConectorId < k → c.chgBit k = false := by
  constructor
  · intro hlt k hk
    refine Nat.testBit_lt_two_pow ?_
    calc c.chargingStatus.toNat < 2 ^ 2 := hlt
      _ ≤ 2 ^ k := Nat.pow_le_pow_right (by decide) hk
  · intro hall
    have hpow : c.chargingStatus.toNat < 2 ^ 2 := Nat.lt_pow_two_of_testBit _ fun k hk => hall k hk
    exact hpow

@[simp] theorem setAvail_chargingStatus (c : Charger) (i : Fin 2) (b : Bool) :
    (setAvail c i b).chargingStatus = c.chargingStatus := by
  have hmark : ∀ code : CpStatus,
      (if c.cs.bCpStat i = code then c.setChgFlg i true else c).chargingStatus =
        c.chargingStatus := by
    intro code
    split
    · rfl
    · rfl
  exact hmark _

theorem setAvail_stat (c : Charger) (i : Fin 2) (b : Bool) :
    (setAvail c i b).cs.bCpStat i = if b then .avail else .unavail := by
  cases b
  · simp [setAvail, Charger.setCpStatus]
  · simp [setAvail, Charger.setCpStatus]

/-- An inoperative connector is not operative. -/
theorem setsType_operative {p : Payload} (h : SetsType p) :
    (!p.holds "Inoperative") = p.holds "Operative" := by
  cases hin : p.holds "Inoperative" with
  | false => exact (h.2.resolve_left (by simp [hin])).symm
  | true =>
    have hne : p.holds "Operative" = false := by
      refine decide_eq_false ?_
      rw [show cstr p.propertyContants = "Inoperative".toList from of_decide_eq_true hin]
      decide
    exact hne.symm

section ChangeAvail
variable {rx : RxBuf} {c : Charger} {j : Junk} {tx : TxBuf} {r : Charger × TxBuf}

/-- The verdict on the type is that on the last type, when there is one. -/
theorem availLocals_type (j : Junk) (ps : List Payload)
    (hok : (availLocals j ps).rejected2 = false) {p : Payload}
    (hp : (ps.filter fun p => p.named "type").getLast? = some p) :
    SetsType p ∧ (availLocals j ps).setVal = p.holds "Operative" := by
  induction ps using List.reverseRecOn generalizing p with
  | nil => cases hp
  | append_singleton ps q ih =>
    have hlast : availLocals j (ps ++ [q]) = changeAvailProp q (availLocals j ps) :=
      List.foldl_concat ..
    rw [hlast] at hok ⊢
    cases hq : q.named "connectorId" with
    | true =>
      have hnot : ¬ q.named "type" = true := fun ht => by
        rw [not_connectorId ht] at hq
        cases hq
      have hone : List.filter (fun p => p.named "type") [q] = [] := by simp [hnot]
      rw [changeAvailProp_connector _ hq] at hok ⊢
      rw [List.filter_append, hone, List.append_nil] at hp
      exact ih hok hp
    | false =>
      by_cases ht : SetsType q
      · have hone : List.filter (fun p => p.named "type") [q] = [q] := by simp [ht.1]
        rw [List.filter_append, hone, List.getLast?_concat] at hp
        cases hp
        rw [changeAvailProp_type _ ht]
        exact ⟨ht, setsType_operative ht⟩
      · rw [changeAvailProp_reject _ hq ht] at hok
        cases hok

/-- **What an accepted request does**: both connectors, or one that is not 0. -/
theorem changeAvail_taken (h : dataProcCmdChangeAvail j rx c tx = some r)
    (ha : AnswersAccepted r.2) : (availLocals j rx.props).rejected2 = false ∧
      ((availLocals j rx.props).cntrId = 0 ∧
          r.1 = { setAvail (setAvail c 0 (availLocals j rx.props).setVal) 1
              (availLocals j rx.props).setVal with
            chargingStatus :=
              if (availLocals j rx.props).setVal then c.chargingStatus ||| 3 else 0 } ∨
        ∃ i : Fin 2, (availLocals j rx.props).cntrId.toNat = i.val ∧ i ≠ 0 ∧
          r.1 = { setAvail c i (availLocals j rx.props).setVal with
            chargingStatus := if (availLocals j rx.props).setVal then
                c.chargingStatus ||| (1 : UInt32) <<< UInt32.ofNat i.val
              else c.chargingStatus &&& ~~~((1 : UInt32) <<< UInt32.ofNat i.val) }) := by
  rw [changeAvail_eq j (changeAvail_len h)] at h
  dsimp only at h
  split at h
  · cases Option.some.inj h
    exact absurd ha (not_accepts_rejected rx tx)
  · rename_i hpass
    simp only [Bool.or_eq_true, not_or, Bool.not_eq_true] at hpass
    refine ⟨hpass.1.2, ?_⟩
    split at h
    · rename_i hzero
      left
      cases Option.some.inj h
      exact ⟨hzero, by simp only [setAvail_chargingStatus]⟩
    · rename_i hzero
      right
      obtain ⟨i, hi, h⟩ := Option.bind_eq_some_iff.mp h
      have hval : (availLocals j rx.props).cntrId.toNat = i.val := by
        unfold connIdx at hi
        split at hi
        · cases Option.some.inj hi
          rfl
        · cases hi
      cases Option.some.inj h
      refine ⟨i, hval, ?_, by simp only [setAvail_chargingStatus]⟩
      intro hi0
      rw [hi0] at hval
      exact hzero (UInt8.toNat_inj.mp hval)

end ChangeAvail

/-- The connectors a request is about. -/
def InScope (ds : List Char) (i : Fin 2) : Prop := decVal ds = 0 ∨ decVal ds = i.val

/-- The connectors in scope have the availability that was asked for, as status and as bit, and
nothing else has changed of the two. -/
def AvailSet (rx : RxBuf) (c c' : Charger) : Prop :=
  ∃ ds p, rx.NamesConnector ds ∧ decVal ds ≤ maxConectorId ∧
    rx.lastNamed "type" = some p ∧ SetsType p ∧
    (∀ i : Fin 2, InScope ds i →
      c'.cs.bCpStat i = (if p.holds "Operative" then .avail else .unavail) ∧
      c'.chgBit i.val = p.holds "Operative") ∧
    (∀ i : Fin 2, ¬ InScope ds i →
      c'.cs.bCpStat i = c.cs.bCpStat i ∧ c'.chgBit i.val = c.chgBit i.val) ∧
    ∀ k, maxConectorId < k → c'.chgBit k = c.chgBit k

/-- The request names a connector that a byte can hold and gives a type, and when it takes all
connectors out of service, no other bit of `chargingstatus` is set. -/
def AvailSafe (rx : RxBuf) (c : Charger) : Prop :=
  ∃ ds p, rx.NamesConnector ds ∧ decVal ds < 256 ∧ rx.lastNamed "type" = some p ∧
    (decVal ds = 0 → p.holds "Operative" = false → c.chargingStatus < 4)

section ChangeAvail
variable {rx : RxBuf} {c : Charger} {j : Junk} {tx : TxBuf} {r : Charger × TxBuf}

/-- A connector that a byte can hold is the one that is looked up. -/
theorem availLocals_named {ds : List Char} (hds : rx.NamesConnector ds) (hlt : decVal ds < 256) :
    (availLocals j rx.props).cntrId.toNat = decVal ds := by
  obtain ⟨hdigits, p, hlast, hp⟩ := hds
  have hlast : (rx.props.filter fun p => p.named "connectorId").getLast? = some p := hlast
  rw [availLocals_cntrId, hlast, Option.map_some, Option.getD_some, ← string2Integer_cstr, hp,
    byte_of_digits hdigits hlt]

/-- The request was for both connectors. -/
theorem availSet_both {ds : List Char} {p : Payload} (hds : rx.NamesConnector ds)
    (hzero : decVal ds = 0) (hlast : rx.lastNamed "type" = some p) (hset : SetsType p)
    (hr : r.1 = { setAvail (setAvail c 0 (p.holds "Operative")) 1 (p.holds "Operative") with
      chargingStatus := if p.holds "Operative" then c.chargingStatus ||| 3 else 0 }) :
    AvailSet rx c r.1 ↔ (p.holds "Operative" = false → c.chargingStatus < 4) := by
  have hstat : ∀ i : Fin 2, r.1.cs.bCpStat i =
      if p.holds "Operative" then .avail else .unavail := by
    intro i
    rw [hr]
    show (setAvail (setAvail c 0 _) 1 _).cs.bCpStat i = _
    by_cases hi : i = 1
    · subst hi
      exact setAvail_stat _ 1 _
    · obtain rfl : i = 0 := by omega
      rw [setAvail_ne _ _ hi, setAvail_stat]
  -- switching off clears the whole byte, switching on sets the two lowest bits
  have hbits : ∀ k, r.1.chgBit k =
      (p.holds "Operative" && (c.chgBit k || decide (k ≤ maxConectorId))) := by
    intro k
    rw [hr]
    unfold Charger.chgBit
    cases p.holds "Operative" with
    | true =>
      rw [if_pos rfl, or_bit, three_bit]
      rfl
    | false =>
      rw [if_neg Bool.false_ne_true]
      simp
  constructor
  · rintro ⟨ds', p', -, -, -, -, -, -, habove⟩ hoff
    rw [chgBit_above]
    intro k hk
    rw [← habove k hk, hbits, hoff, Bool.false_and]
  · intro hsafe
    refine ⟨ds, p, hds, by omega, hlast, hset, ?_, ?_, ?_⟩
    · intro i _
      have hi : i.val ≤ maxConectorId := Nat.le_of_lt_succ i.isLt
      refine ⟨hstat i, ?_⟩
      rw [hbits, decide_eq_true hi, Bool.or_true, Bool.and_true]
    · intro i hout
      exact absurd (.inl hzero) hout
    · intro k hk
      rw [hbits, decide_eq_false (Nat.not_le_of_lt hk), Bool.or_false]
      cases hop : p.holds "Operative" with
      | true => rfl
      | false => exact ((chgBit_above c).mp (hsafe hop) k hk).symm

/-- The request was for one connector. -/
theorem availSet_one {ds : List Char} {p : Payload} (hds : rx.NamesConnector ds) {i : Fin 2}
    (hi : decVal ds = i.val) (hne : i ≠ 0) (hlast : rx.lastNamed "type" = some p)
    (hset : SetsType p)
    (hr : r.1 = { setAvail c i (p.holds "Operative") with
      chargingStatus := if p.holds "Operative" then
          c.chargingStatus ||| (1 : UInt32) <<< UInt32.ofNat i.val
        else c.chargingStatus &&& ~~~((1 : UInt32) <<< UInt32.ofNat i.val) }) :
    AvailSet rx c r.1 := by
  have hbits : ∀ k, r.1.chgBit k = if k = i.val then p.holds "Operative" else c.chgBit k := by
    intro k
    rw [hr]
    unfold Charger.chgBit
    cases p.holds "Operative" with
    | true =>
      rw [if_pos rfl, or_bit, shift_bit]
      by_cases hk : k = i.val
      · rw [decide_eq_true hk, if_pos hk, Bool.or_true]
      · rw [decide_eq_false hk, if_neg hk, Bool.or_false]
    | false =>
      rw [if_neg Bool.false_ne_true, andNot_bit, shift_bit]
      by_cases hk : k = i.val
      · rw [decide_eq_true hk, if_pos hk, Bool.not_true, Bool.and_false]
      · rw [decide_eq_false hk, if_neg hk, Bool.not_false, Bool.and_true]
  have hscope : ∀ i' : Fin 2, InScope ds i' ↔ i' = i := by
    intro i'
    unfold InScope
    rw [hi]
    omega
  have hstat : ∀ i', r.1.cs.bCpStat i' = (setAvail c i (p.holds "Operative")).cs.bCpStat i' := by
    intro i'
    rw [hr]
  refine ⟨ds, p, hds, ?_, hlast, hset, ?_, ?_, ?_⟩
  · rw [hi]
    exact Nat.le_of_lt_succ i.isLt
  · intro i' hin
    obtain rfl := (hscope i').mp hin
    rw [hstat, setAvail_stat, hbits, if_pos rfl]
    exact ⟨rfl, rfl⟩
  · intro i' hout
    have hother : i' ≠ i := fun heq => hout ((hscope i').mpr heq)
    rw [hstat, setAvail_ne c _ hother, hbits, if_neg fun heq => hother (Fin.ext heq)]
    exact ⟨rfl, rfl⟩
  · intro k hk
    have hother : k ≠ i.val := by
      have := Nat.le_of_lt_succ i.isLt
      unfold maxConectorId at hk
      omega
    rw [hbits, if_neg hother]

/-- **ChangeAvailability**: a rejected request changes nothing, and an accepted one sets what it
names and nothing else if and only if it names a connector and a type and does not take all
connectors out of service while another bit is set. -/
theorem changeAvail_effect (h : dataProcCmdChangeAvail j rx c tx = some r) :
    (¬ AnswersAccepted r.2 →
      r.1.cs.bCpStat = c.cs.bCpStat ∧ r.1.chargingStatus = c.chargingStatus) ∧
    (AnswersAccepted r.2 → (AvailSet rx c r.1 ↔ AvailSafe rx c)) := by
  constructor
  · intro hrej
    rw [changeAvail_eq j (changeAvail_len h)] at h
    dsimp only at h
    have haccept : ∀ tx, AnswersAccepted (makeCallRes .accept rx tx) := fun tx =>
      (makeCallRes_accepts .accept rx tx).mpr rfl
    split at h
    · cases Option.some.inj h
      exact ⟨rfl, rfl⟩
    · split at h
      · cases Option.some.inj h
        exact absurd (haccept _) hrej
      · obtain ⟨i, -, h⟩ := Option.bind_eq_some_iff.mp h
        cases Option.some.inj h
        exact absurd (haccept _) hrej
  · intro ha
    obtain ⟨hok, htaken⟩ := changeAvail_taken h ha
    -- the request is about one connector and has one type, or neither side holds
    have hboth : ∀ ds p, rx.NamesConnector ds → decVal ds < 256 →
        rx.lastNamed "type" = some p →
        (AvailSet rx c r.1 ↔
          (decVal ds = 0 → p.holds "Operative" = false → c.chargingStatus < 4)) := by
      intro ds p hds hlt hlast
      obtain ⟨hset, hval⟩ := availLocals_type j rx.props hok hlast
      have hcntr := availLocals_named (j := j) hds hlt
      rw [hval] at htaken
      rcases htaken with ⟨hzero, hr⟩ | ⟨i, hi, hne, hr⟩
      · have hds0 : decVal ds = 0 := by
          rw [← hcntr, hzero]
          rfl
        rw [availSet_both hds hds0 hlast hset hr]
        exact ⟨fun hs _ => hs, fun hs => hs hds0⟩
      · refine iff_of_true (availSet_one hds (hcntr.symm.trans hi) hne hlast hset hr) ?_
        intro hzero
        have hi0 : i.val = 0 := by omega
        exact absurd (Fin.ext hi0) hne
    constructor
    · intro hset
      obtain ⟨ds, p, hds, hle, hlast, -⟩ := id hset
      have hlt : decVal ds < 256 := hle.trans_lt (by decide)
      exact ⟨ds, p, hds, hlt, hlast, (hboth ds p hds hlt hlast).mp hset⟩
    · rintro ⟨ds, p, hds, hlt, hlast, hsafe⟩
      exact (hboth ds p hds hlt hlast).mpr hsafe

end ChangeAvail

def availFrame (id type : String) : List Char :=
  ("[2,\"1\",\"ChangeAvailability\",\x7b\"connectorId\":" ++ id ++ ",\"type\":\"" ++ type ++
    "\"\x7d]").toList

/-- A charger at rest that remembers a transaction for which no answer has come. -/
def inTransaction : Charger :=
  { Charger.init 0 with
    chargingStatus := 7, scene := { (Charger.init 0).scene with appOrder := appOrderWait } }

/-- A request with these two properties, to a charger at rest. -/
theorem availFrame_accepted (id type : String) (c : Charger)
    (hrest : c.scene.appOrder = appOrderWait)
    (h : readsProps .changeAvail (availFrame id type)
      [strProp "connectorId" id, strProp "type" type] = true)
    (hok : (availLocals .zero [strProp "connectorId" id, strProp "type" type]).rejected1 = false ∧
      (availLocals .zero [strProp "connectorId" id, strProp "type" type]).rejected2 = false ∧
      (connIdx (availLocals .zero
        [strProp "connectorId" id, strProp "type" type]).cntrId.toNat).isSome = true) :
    ∃ rx r, ReadAs (availFrame id type) .changeAvail rx ∧
      rx.props = [strProp "connectorId" id, strProp "type" type] ∧
      dataProcCmdChangeAvail .zero rx c .zero = some r ∧ AnswersAccepted r.2 := by
  obtain ⟨rx, hread, hlen, -, hprops⟩ := readsProps_read h
  obtain ⟨hrej1, hrej2, hidx⟩ := hok
  obtain ⟨i, hi⟩ := Option.isSome_iff_exists.mp hidx
  have heq := changeAvail_eq (c := c) .zero hlen .zero
  rw [hprops] at heq
  dsimp only at heq
  have haccept := (makeCallRes_accepts .accept rx .zero).mpr rfl
  have hno : ¬ ((availLocals .zero [strProp "connectorId" id, strProp "type" type]).rejected1 ||
      (availLocals .zero [strProp "connectorId" id, strProp "type" type]).rejected2 ||
      decide (c.scene.appOrder ≠ appOrderWait)) = true := by
    rw [hrej1, hrej2, hrest]
    decide
  rw [if_neg hno, hi, Option.bind_some] at heq
  split at heq
  · exact ⟨rx, _, hread, hprops, heq, haccept⟩
  · exact ⟨rx, _, hread, hprops, heq, haccept⟩

/-- Connector 1 is taken into service. -/
theorem changeAvail_effect_operative : ∃ rx r,
    ReadAs (availFrame "1" "Operative") .changeAvail rx ∧
    dataProcCmdChangeAvail .zero rx inTransaction .zero = some r ∧
    AvailSet rx inTransaction r.1 := by
  obtain ⟨rx, r, hread, hprops, hserve, ha⟩ := availFrame_accepted "1" "Operative"
    inTransaction rfl (by decide +kernel) (by decide +kernel)
  refine ⟨rx, r, hread, hserve, ((changeAvail_effect hserve).2 ha).mpr ?_⟩
  refine ⟨['1'], strProp "type" "Operative", ⟨by decide, strProp "connectorId" "1", ?_, by decide⟩,
    by decide, ?_, fun hzero => absurd hzero (by decide)⟩
  · unfold RxBuf.lastNamed
    rw [hprops]
    rfl
  · unfold RxBuf.lastNamed
    rw [hprops]
    rfl

/-- Both connectors are taken out of service, and the transaction is forgotten. -/
theorem transaction_bit_lost : ∃ rx r,
    ReadAs (availFrame "0" "Inoperative") .changeAvail rx ∧
    dataProcCmdChangeAvail .zero rx inTransaction .zero = some r ∧ AnswersAccepted r.2 ∧
    inTransaction.chgBit 2 = true ∧ r.1.chgBit 2 = false ∧ ¬ AvailSet rx inTransaction r.1 := by
  obtain ⟨rx, r, hread, hprops, hserve, ha⟩ := availFrame_accepted "0" "Inoperative"
    inTransaction rfl (by decide +kernel) (by decide +kernel)
  obtain ⟨-, htaken⟩ := changeAvail_taken hserve ha
  rw [hprops] at htaken
  have hbit : r.1.chgBit 2 = false := by
    rcases htaken with ⟨-, hr⟩ | ⟨i, hi, hne, -⟩
    · rw [hr]
      rfl
    · have hzero : (availLocals .zero
          [strProp "connectorId" "0", strProp "type" "Inoperative"]).cntrId.toNat = 0 := by
        decide +kernel
      rw [hzero] at hi
      exact absurd (Fin.ext hi.symm) hne
  refine ⟨rx, r, hread, hserve, ha, by decide, hbit, ?_⟩
  rintro ⟨ds, p, -, -, -, -, -, -, habove⟩
  have hkept := habove 2 (by decide)
  rw [hbit] at hkept
  exact absurd hkept (by decide)

/-! ## RemoteStartTransaction

The loop over the properties writes `card_no` as it goes, and the decision comes behind the loop.
So a request that is not accepted has already replaced the card; everything else waits for the
decision. -/

/-- The card of the session is replaced. -/
def Charger.setCard (c : Charger) (card : List Char) : Charger :=
  { c with scene := { c.scene with cardNo := card } }

/-- The session is as it was: the card has the same 21 bytes, and nothing else was written. -/
structure SessionUnchanged (c c' : Charger) : Prop where
  card : memEq c'.scene.cardNo c.scene.cardNo 21 = true
  rest : c' = c.setCard c'.scene.cardNo

theorem memEq_take {a b : List Char} : memEq (a.take 21) b 21 = memEq a b 21 := by
  rw [Bool.eq_iff_iff, memEq_iff, memEq_iff]
  have htake : ∀ i < 21, (a.take 21).getD i nul = a.getD i nul := by
    intro i hi
    simp [List.getD_eq_getElem?_getD, hi]
  exact forall_congr' fun i => forall_congr' fun hi => by rw [htake i hi]

theorem memEq_refl (a : List Char) (n : Nat) : memEq a a n = true :=
  memEq_iff.mpr fun _ _ => rfl

/-- The idTag that a StopTransaction reports is that of the card. -/
theorem SessionUnchanged.idTag {c c' : Charger} (h : SessionUnchanged c c') :
    idTag16 c'.scene.cardNo = idTag16 c.scene.cardNo :=
  take_cstr_eq fun i hi => memEq_iff.mp h.card i (by omega)

section RmStart
variable {rx : RxBuf} {c : Charger} {tx : TxBuf} {r : Charger × TxBuf}

theorem rmStartProp_charger (p : Payload) (l : Bool × UInt32 × Charger) :
    (rmStartProp p l).2.2 =
      if p.named "idTag" then l.2.2.setCard (p.propertyContants.take 21) else l.2.2 := by
  unfold rmStartProp
  dsimp only
  split
  · split
    · rfl
    · rfl
  · split
    · rfl
    · rfl

/-- The loop over the properties writes the card and nothing else of the charger. -/
theorem rmStartLocals_charger : (rmStartLocals rx c).2.2 = c.setCard
    (((rx.lastNamed "idTag").map fun p => p.propertyContants.take 21).getD c.scene.cardNo) := by
  have hcard : (rmStartLocals rx c).2.2.scene.cardNo =
      ((rx.lastNamed "idTag").map fun p => p.propertyContants.take 21).getD c.scene.cardNo := by
    refine foldl_last (fun p => p.named "idTag") rmStartProp (fun l => l.2.2.scene.cardNo)
      (fun p => p.propertyContants.take 21) ?_ rx.props (false, 1, c)
    intro p l
    rw [rmStartProp_charger]
    split
    · rfl
    · rfl
  have hrest : ∃ card, (rmStartLocals rx c).2.2 = c.setCard card := by
    refine List.foldlRecOn (motive := fun l : Bool × UInt32 × Charger =>
      ∃ card, l.2.2 = c.setCard card) rx.props _ ⟨c.scene.cardNo, rfl⟩ ?_
    intro l hl p _
    obtain ⟨card, hcharger⟩ := hl
    rw [rmStartProp_charger, hcharger]
    split
    · exact ⟨p.propertyContants.take 21, rfl⟩
    · exact ⟨card, rfl⟩
  obtain ⟨card, hcharger⟩ := hrest
  rw [hcharger] at hcard ⊢
  rw [← hcard]
  rfl

/-- A request that is not accepted leaves what the loop has written. -/
theorem rmStart_refused (h : dataProcCmdRmStart rx c tx = some r) (ha : ¬ AnswersAccepted r.2) :
    r.1 = (rmStartLocals rx c).2.2 := by
  have haccept : AnswersAccepted (makeCallRes .accept rx tx) :=
    (makeCallRes_accepts .accept rx tx).mpr rfl
  rw [rmStart_eq (rmStart_len h)] at h
  dsimp only at h
  split at h
  · obtain ⟨i, -, h⟩ := Option.bind_eq_some_iff.mp h
    split at h
    · cases Option.some.inj h
      exact absurd haccept ha
    · cases Option.some.inj h
      rfl
  · cases Option.some.inj h
    rfl

/-- **A remote start that is not accepted** leaves the session alone if and only if it has no
idTag or that of the card; then a StopTransaction reports the same idTag as before. -/
theorem rmStart_effect (h : dataProcCmdRmStart rx c tx = some r) (ha : ¬ AnswersAccepted r.2) :
    (SessionUnchanged c r.1 ↔ ∀ p, rx.lastNamed "idTag" = some p →
      memEq p.propertyContants c.scene.cardNo 21 = true) ∧
    ((∀ p, rx.lastNamed "idTag" = some p → memEq p.propertyContants c.scene.cardNo 21 = true) →
      idTag16 r.1.scene.cardNo = idTag16 c.scene.cardNo) := by
  have hr := (rmStart_refused h ha).trans rmStartLocals_charger
  have hiff : SessionUnchanged c r.1 ↔ ∀ p, rx.lastNamed "idTag" = some p →
      memEq p.propertyContants c.scene.cardNo 21 = true := by
    have hcard : memEq r.1.scene.cardNo c.scene.cardNo 21 = true ↔
        ∀ p, rx.lastNamed "idTag" = some p →
          memEq p.propertyContants c.scene.cardNo 21 = true := by
      rw [hr]
      cases rx.lastNamed "idTag" with
      | none => exact iff_of_true (memEq_refl _ 21) fun p hp => by cases hp
      | some q =>
        show memEq (q.propertyContants.take 21) c.scene.cardNo 21 = true ↔ _
        rw [memEq_take]
        constructor
        · intro hq p hp
          cases hp
          exact hq
        · intro hall
          exact hall q rfl
    refine ⟨fun hs => hcard.mp hs.card, fun hall => ⟨hcard.mpr hall, ?_⟩⟩
    rw [hr]
    rfl
  exact ⟨hiff, fun hall => (hiff.mpr hall).idTag⟩

end RmStart

/-- A charger that charges with this card. -/
def chargingWith (card : String) : Charger :=
  { (Charger.init 0).setCard card.toList with
    cs := { (Charger.init 0).cs with bCpStat := fun _ => .charging } }

/-- A remote start for connector 1 while it charges. -/
theorem startFrame_refused (card : String) : ∃ rx r, ReadAs (startFrame "1") .remoteStart rx ∧
    rx.lastNamed "idTag" = some (strProp "idTag" "A1") ∧
    dataProcCmdRmStart rx (chargingWith card) .zero = some r ∧ ¬ AnswersAccepted r.2 ∧
    r.1.scene.cardNo = ['A', '1'] := by
  obtain ⟨rx, hread, -, hlen, hprops⟩ := startFrame_reads "1" (by decide +kernel) (by decide)
  have hlocals : rmStartLocals rx (chargingWith card) =
      (true, 1, (chargingWith card).setCard ['A', '1']) := by
    unfold rmStartLocals
    rw [hprops]
    rfl
  have heq := rmStart_eq (c := chargingWith card) hlen .zero
  dsimp only at heq
  rw [hlocals] at heq
  have hidx : connIdx ((1 : UInt32).toUInt8.toNat) = some 1 := by decide
  dsimp only at heq
  rw [if_pos rfl, hidx, Option.bind_some, if_neg] at heq
  · refine ⟨rx, _, hread, ?_, heq, not_accepts_rejected rx .zero, rfl⟩
    unfold RxBuf.lastNamed
    rw [hprops]
    rfl
  · intro hpass
    exact hpass.1 rfl

/-- The remote start has the idTag of the card that charges. -/
theorem rmStart_effect_same : ∃ rx r, ReadAs (startFrame "1") .remoteStart rx ∧
    dataProcCmdRmStart rx (chargingWith "A1") .zero = some r ∧ ¬ AnswersAccepted r.2 ∧
    SessionUnchanged (chargingWith "A1") r.1 := by
  obtain ⟨rx, r, hread, hlast, hserve, ha, -⟩ := startFrame_refused "A1"
  refine ⟨rx, r, hread, hserve, ha, (rmStart_effect hserve ha).1.mpr ?_⟩
  intro p hp
  rw [hlast] at hp
  cases hp
  decide

/-- It has another: the card is replaced, and so is the idTag of the StopTransaction to come. -/
theorem card_replaced : ∃ rx r, ReadAs (startFrame "1") .remoteStart rx ∧
    dataProcCmdRmStart rx (chargingWith "0123456789ABCDEF") .zero = some r ∧
    ¬ AnswersAccepted r.2 ∧
    idTag16 (chargingWith "0123456789ABCDEF").scene.cardNo = "0123456789ABCDEF".toList ∧
    idTag16 r.1.scene.cardNo = ['A', '1'] ∧
    ¬ SessionUnchanged (chargingWith "0123456789ABCDEF") r.1 := by
  obtain ⟨rx, r, hread, -, hserve, ha, hcard⟩ := startFrame_refused "0123456789ABCDEF"
  have hbefore : idTag16 (chargingWith "0123456789ABCDEF").scene.cardNo =
      "0123456789ABCDEF".toList := by decide
  have hafter : idTag16 r.1.scene.cardNo = ['A', '1'] := by
    rw [hcard]
    decide
  refine ⟨rx, r, hread, hserve, ha, hbefore, hafter, ?_⟩
  intro hsame
  have htag := hsame.idTag
  rw [hafter, hbefore] at htag
  exact absurd htag (by decide)

end ChargePoint
