import ChargePoint.Lib.Memory
import ChargePoint.Serving

/-!
# Copies that run over their target

Three handlers copy all 1024 bytes of a property into a field of 70, 50 or 100. The structures
lie in memory here as the compiler places their members (`place`), with what lies behind them, and
a copy is the `memcpy` it is. `updateFwMem_fw` and `copyDiagLogUrl_mem` say that the handlers of
`Serve.lean`, which only know the fields, are right about them.

A location that is copied clears the time stamp behind it, so an UpdateFirmware request keeps its
date only when it comes last; and both copies clear what lies behind the structure
(`updateFw_iff`). The flags behind `diagLogUrl` end up as bytes 107 and 108 of a location, which in
any short one are zero: a pending request is dropped (`getDiag_iff`, `unlockConnect_iff`).
-/

set_option autoImplicit false

namespace ChargePoint

open CStr Loop Memory

/-! ## The structures

`place` puts the members one behind the other as the compiler does, at the offsets the source's
declarations give. The copies then are `memcpy` on a memory of characters, and what is said of a
field is said of its place. -/

def boolMember : Member := ⟨1, 1⟩
def enumMember : Member := ⟨4, 4⟩
def charMember (n : Nat) : Member := ⟨n, 1⟩

/-- `FW_UPDATE`. -/
def fwUpdateMembers : List Member := [enumMember, charMember 70, charMember 50]

/-- The offsets of `fwUpdateUrl` and `Time_Stamp`, and the size of the structure. -/
def fwUpdateUrlAt : Nat := 4
def timeStampAt : Nat := 74
def fwUpdateSize : Nat := 124

theorem fwUpdate_place : place 0 fwUpdateMembers = [0, fwUpdateUrlAt, timeStampAt] := by decide

/-- `CS_CONFIG_VAL`. -/
def csConfigMembers : List Member :=
  [ boolMember,
    ⟨8, 4⟩, ⟨8, 4⟩, ⟨16, 8⟩, -- bPreCpStat, bCpStat, bTrId
    charMember 1, charMember 1, boolMember, charMember 1, boolMember, charMember 1,
    charMember 21, charMember 21, -- scnd_card_no, parentId
    boolMember, charMember 1, charMember 1, charMember 2, boolMember,
    enumMember, charMember 1, -- triggerMsgStat, trigMsgCntrId
    charMember 100, enumMember, boolMember, boolMember ]

/-- The offsets of `diagLogUrl` and of the three fields behind it. -/
def diagLogUrlAt : Nat := 101
def diagLogReqStepAt : Nat := 204
def bReqMemberFlgAt : Nat := 208
def bReqChargeAmtFlgAt : Nat := 209

theorem csConfig_place : (place 0 csConfigMembers).drop 19 =
    [diagLogUrlAt, diagLogReqStepAt, bReqMemberFlgAt, bReqChargeAmtFlgAt] := by decide

/-! ## The copies -/

/-- `sizeof property_contants`. -/
def contantsCap : Nat := 1024

/-- `property_contants`, cell by cell. -/
def Payload.cells (p : Payload) (i : Nat) : Char := p.propertyContants.getD i nul

/-- `memset(field, 0, size)`, `memcpy(field, property_contants, sizeof property_contants)`. -/
def copyContants (p : Payload) (off size : Nat) (m : Mem Char) : Mem Char :=
  copy (fill m off size nul) off contantsCap p.cells

/-- A byte of an `int`. -/
def intByte (v i : Nat) : Char := Char.ofNat (v / 256 ^ i % 256)

/-- `UPDATE_STEP`, as it is stored. -/
def UpdateStep.code : UpdateStep → Nat
  | .none => 0
  | .chkDate => 1
  | .download => 2
  | .downloading => 3
  | .downloaded => 4
  | .downloadFail => 5
  | .instal => 6
  | .instaled => 7
  | .instalFail => 8

/-- One property of an UpdateFirmware request, on the memory from `fwUpdateVals` on. -/
def updateFwPropMem (p : Payload) (m : Mem Char) : Mem Char :=
  let m := if p.named "location" then copyContants p fwUpdateUrlAt 70 m else m
  let m := if p.named "retrieveDate" then copyContants p timeStampAt 50 m else m
  copy m 0 4 (intByte UpdateStep.chkDate.code)

/-- `DataProcCmd_UpdateFw`, on memory. -/
def updateFwMem (rx : RxBuf) (m : Mem Char) : Option (Mem Char) :=
  forProps rx (fun p m => some (updateFwPropMem p m)) m

/-- `fwUpdateVals` lies in memory. -/
structure FwIn (m : Mem Char) (fw : FwUpdate) : Prop where
  step : ∀ i < 4, m i = intByte fw.updateStep.code i
  url : ∀ i < 70, m (fwUpdateUrlAt + i) = fw.fwUpdateUrl.getD i nul
  stamp : ∀ i < 50, m (timeStampAt + i) = fw.timeStamp.getD i nul

/-- `diagLogUrl` and the fields behind it lie in memory. -/
structure DiagIn (m : Mem Char) (cs : CsConfigVal) : Prop where
  url : ∀ i < 100, m (diagLogUrlAt + i) = cs.diagLogUrl.getD i nul
  step : cs.diagLogReqStep = (m diagLogReqStepAt).toNat % 256 +
    256 * ((m (diagLogReqStepAt + 1)).toNat % 256) +
    65536 * ((m (diagLogReqStepAt + 2)).toNat % 256) +
    16777216 * ((m (diagLogReqStepAt + 3)).toNat % 256)
  member : cs.bReqMemberFlg = decide ((m bReqMemberFlgAt).toNat % 256 ≠ 0)
  chargeAmt : cs.bReqChargeAmtFlg = decide ((m bReqChargeAmtFlgAt).toNat % 256 ≠ 0)

/-! ## The handlers are right about the fields -/

theorem copyContants_in {p : Payload} {off size i : Nat} {m : Mem Char} (hsize : size ≤ contantsCap)
    (hi : i < contantsCap) : copyContants p off size m (off + i) = p.cells i := by
  unfold copyContants
  rw [copy_fill hsize, copy_in (by omega) (by omega), Nat.add_sub_cancel_left]

theorem copyContants_out {p : Payload} {off size i : Nat} {m : Mem Char} (hsize : size ≤ contantsCap)
    (hi : i < off ∨ off + contantsCap ≤ i) : copyContants p off size m i = m i := by
  unfold copyContants
  rw [copy_fill hsize, copy_out hi]

/-- The cells a location or a connector id leaves behind `diagLogUrl`. -/
theorem copyDiagLogUrl_mem (p : Payload) (m : Mem Char) (c : Charger) :
    DiagIn (copyContants p diagLogUrlAt 100 m) (copyDiagLogUrl p.propertyContants c).cs := by
  have hcell : ∀ k, k < contantsCap →
      copyContants p diagLogUrlAt 100 m (diagLogUrlAt + k) = p.propertyContants.getD k nul :=
    fun k hk => copyContants_in (by decide) hk
  refine ⟨?_, ?_, ?_, ?_⟩
  · intro i hi
    rw [hcell i (by unfold contantsCap; omega)]
    simp only [copyDiagLogUrl, List.getD_eq_getElem?_getD, List.getElem?_take_of_lt hi]
  · have h₀ := hcell 103 (by decide)
    have h₁ := hcell 104 (by decide)
    have h₂ := hcell 105 (by decide)
    have h₃ := hcell 106 (by decide)
    show byteAt p.propertyContants 103 + 256 * byteAt p.propertyContants 104 +
      65536 * byteAt p.propertyContants 105 + 16777216 * byteAt p.propertyContants 106 = _
    unfold byteAt
    rw [← h₀, ← h₁, ← h₂, ← h₃]
    rfl
  · have h := hcell 107 (by decide)
    show decide (byteAt p.propertyContants 107 ≠ 0) = _
    unfold byteAt
    rw [← h]
    rfl
  · have h := hcell 108 (by decide)
    show decide (byteAt p.propertyContants 108 ≠ 0) = _
    unfold byteAt
    rw [← h]
    rfl

/-- One property of an UpdateFirmware request, on the fields. -/
def updateFwProp (p : Payload) (fw : FwUpdate) : FwUpdate :=
  let s := p.propertyContants
  let fw := if p.named "location" then
    { fw with fwUpdateUrl := s.take 70, timeStamp := (s.drop 70).take 50 } else fw
  let fw := if p.named "retrieveDate" then { fw with timeStamp := s.take 50 } else fw
  { fw with updateStep := .chkDate }

/-- A list of properties, on the fields and on memory. -/
def updateFwProps (ps : List Payload) (fw : FwUpdate) : FwUpdate :=
  ps.foldl (fun fw p => updateFwProp p fw) fw

def updateFwPropsMem (ps : List Payload) (m : Mem Char) : Mem Char :=
  ps.foldl (fun m p => updateFwPropMem p m) m

theorem updateFw_cases {rx : RxBuf} {c c' : Charger} {tx tx' : TxBuf}
    (h : dataProcCmdUpdateFw rx c tx = some (c', tx')) :
    c' = { c with fw := updateFwProps rx.props c.fw } := by
  simp only [dataProcCmdUpdateFw, Option.bind_eq_bind, Option.bind_eq_some_iff, Option.pure_def,
    Option.some.injEq, Prod.mk.injEq] at h
  obtain ⟨fw, hfw, rfl, -⟩ := h
  have hloop : forProps rx (fun p fw => some (updateFwProp p fw)) c.fw = some fw := hfw
  rw [(forProps_foldl hloop).2]
  rfl

/-- One property, on memory and on the fields. -/
theorem updateFwProp_mem {p : Payload} {m : Mem Char} {fw : FwUpdate} (h : FwIn m fw) :
    FwIn (updateFwPropMem p m) (updateFwProp p fw) := by
  have htake : ∀ (s : List Char) {i n : Nat}, i < n → (s.take n).getD i nul = s.getD i nul := by
    intro s i n hi
    rw [List.getD_eq_getElem?_getD, List.getD_eq_getElem?_getD, List.getElem?_take_of_lt hi]
  have hstore : ∀ {m' : Mem Char} {i : Nat}, 4 ≤ i →
      copy m' 0 4 (intByte UpdateStep.chkDate.code) i = m' i := fun hi => copy_out (.inr hi)
  have hurl : ∀ i < 70, (if p.named "location" then copyContants p fwUpdateUrlAt 70 m else m)
      (fwUpdateUrlAt + i) = (if p.named "location" then { fw with
        fwUpdateUrl := p.propertyContants.take 70,
        timeStamp := (p.propertyContants.drop 70).take 50 } else fw).fwUpdateUrl.getD i nul := by
    intro i hi
    split
    · rw [copyContants_in (by decide) (by unfold contantsCap; omega), htake _ hi]
      rfl
    · exact h.url i hi
  have hstamp : ∀ i < 50, (if p.named "location" then copyContants p fwUpdateUrlAt 70 m else m)
      (timeStampAt + i) = (if p.named "location" then { fw with
        fwUpdateUrl := p.propertyContants.take 70,
        timeStamp := (p.propertyContants.drop 70).take 50 } else fw).timeStamp.getD i nul := by
    intro i hi
    split
    · rw [show timeStampAt + i = fwUpdateUrlAt + (70 + i) by
        unfold timeStampAt fwUpdateUrlAt; omega, copyContants_in (by decide)
        (by unfold contantsCap; omega), htake _ hi]
      simp only [Payload.cells, List.getD_eq_getElem?_getD, List.getElem?_drop]
    · exact h.stamp i hi
  unfold updateFwPropMem updateFwProp
  refine ⟨?_, ?_, ?_⟩
  · intro i hi
    exact copy_in (Nat.zero_le i) (by omega)
  · intro i hi
    dsimp only
    rw [hstore (by unfold fwUpdateUrlAt; omega)]
    split
    · rw [copyContants_out (by decide) (.inl (by unfold timeStampAt fwUpdateUrlAt; omega))]
      exact hurl i hi
    · exact hurl i hi
  · intro i hi
    dsimp only
    rw [hstore (by unfold timeStampAt; omega)]
    split
    · rw [copyContants_in (by decide) (by unfold contantsCap; omega)]
      exact (htake _ hi).symm
    · exact hstamp i hi

/-- **The handler of UpdateFirmware is right about the fields.** -/
theorem updateFwMem_fw {rx : RxBuf} {c c' : Charger} {tx tx' : TxBuf} {m m' : Mem Char}
    (h : dataProcCmdUpdateFw rx c tx = some (c', tx')) (hm : updateFwMem rx m = some m')
    (hin : FwIn m c.fw) : FwIn m' c'.fw := by
  rw [updateFw_cases h, (forProps_foldl hm).2]
  exact List.foldl_rel hin fun p _ m fw hfw => updateFwProp_mem hfw

/-! ## UpdateFirmware

Two properties are copied, each to its own place and on over what is behind. Which of them wins
is a matter of their order, and what lies behind the structure loses either way. -/

/-- Two properties stand in this order among others. -/
structure InOrder (ps : List Payload) (a b : String) (s t : List Char) : Prop where
  split : ∃ as p bs q cs, ps = as ++ p :: (bs ++ q :: cs) ∧
    p.named a = true ∧ p.propertyContants = s ∧ q.named b = true ∧ q.propertyContants = t ∧
    ∀ r, r ∈ as ∨ r ∈ bs ∨ r ∈ cs → r.named a = false ∧ r.named b = false

/-- **An UpdateFirmware request** for this location at this date, `first` if the location stands
before the date. -/
structure UpdateFwCall (rx : RxBuf) (location date : List Char) (first : Bool) : Prop where
  order : if first then InOrder rx.props "location" "retrieveDate" location date
    else InOrder rx.props "retrieveDate" "location" date location
  location : NulFree location ∧ location.length ≤ 69
  date : NulFree date ∧ date.length ≤ 49

/-- What the request should do: both strings are there, and nothing else changes, in the charger
or behind the structure. -/
structure UpdatesOwn (location date : List Char) (c c' : Charger) (m m' : Mem Char) : Prop where
  url : cstr c'.fw.fwUpdateUrl = location
  stamp : cstr c'.fw.timeStamp = date
  charger : { c' with fw := c.fw } = c
  behind : ∀ i, fwUpdateSize ≤ i → m' i = m i

/-- What the two copies reach of what lies behind the structure is zero already. -/
def ClearBehind (m : Mem Char) : Prop :=
  ∀ i, fwUpdateSize ≤ i → i < timeStampAt + contantsCap → m i = nul

section UpdateFw
variable {p : Payload} {m : Mem Char} {fw : FwUpdate}

theorem named_ne {a b : String} (hab : a.toList ≠ b.toList) (h : p.named a = true) :
    p.named b = false := by
  simp only [Payload.named, decide_eq_true_eq, decide_eq_false_iff_not] at h ⊢
  rw [h]
  exact hab

/-- Another property leaves the strings and what lies behind them alone. -/
theorem updateFwProp_other (fw : FwUpdate) (m : Mem Char) (hl : p.named "location" = false)
    (hd : p.named "retrieveDate" = false) :
    (updateFwProp p fw).fwUpdateUrl = fw.fwUpdateUrl ∧ (updateFwProp p fw).timeStamp = fw.timeStamp ∧
      ∀ i, 4 ≤ i → updateFwPropMem p m i = m i := by
  refine ⟨?_, ?_, ?_⟩
  · simp [updateFwProp, hl, hd]
  · simp [updateFwProp, hl, hd]
  · intro i hi
    unfold updateFwPropMem
    simp only [hl, hd, Bool.false_eq_true, if_false]
    exact copy_out (.inr hi)

theorem updateFwProp_location (fw : FwUpdate) (m : Mem Char) (hl : p.named "location" = true) :
    (updateFwProp p fw).fwUpdateUrl = p.propertyContants.take 70 ∧
      (updateFwProp p fw).timeStamp = (p.propertyContants.drop 70).take 50 ∧
      ∀ i, 4 ≤ i → updateFwPropMem p m i =
        if i < fwUpdateUrlAt + contantsCap then p.cells (i - fwUpdateUrlAt) else m i := by
  have hd : p.named "retrieveDate" = false := named_ne (by decide) hl
  refine ⟨?_, ?_, ?_⟩
  · simp [updateFwProp, hl, hd]
  · simp [updateFwProp, hl, hd]
  · intro i hi
    unfold updateFwPropMem
    simp only [hl, hd, Bool.false_eq_true, if_false, if_true]
    rw [copy_out (.inr hi)]
    split
    · obtain ⟨k, rfl⟩ : ∃ k, i = fwUpdateUrlAt + k := ⟨i - 4, by unfold fwUpdateUrlAt; omega⟩
      rw [copyContants_in (by decide) (by omega), Nat.add_sub_cancel_left]
    · exact copyContants_out (by decide) (.inr (by omega))

theorem updateFwProp_date (fw : FwUpdate) (m : Mem Char) (hd : p.named "retrieveDate" = true) :
    (updateFwProp p fw).fwUpdateUrl = fw.fwUpdateUrl ∧
      (updateFwProp p fw).timeStamp = p.propertyContants.take 50 ∧
      ∀ i, 4 ≤ i → updateFwPropMem p m i =
        if timeStampAt ≤ i ∧ i < timeStampAt + contantsCap then p.cells (i - timeStampAt)
        else m i := by
  have hl : p.named "location" = false := named_ne (by decide) hd
  refine ⟨?_, ?_, ?_⟩
  · simp [updateFwProp, hl, hd]
  · simp [updateFwProp, hl, hd]
  · intro i hi
    unfold updateFwPropMem
    simp only [hl, hd, Bool.false_eq_true, if_false, if_true]
    rw [copy_out (.inr hi)]
    split
    · rename_i hin
      obtain ⟨k, rfl⟩ : ∃ k, i = timeStampAt + k := ⟨i - timeStampAt, by omega⟩
      rw [copyContants_in (by decide) (by omega), Nat.add_sub_cancel_left]
    · exact copyContants_out (by decide) (by omega)

/-- The same for a whole list of other properties. -/
theorem updateFw_others {ps : List Payload} (fw : FwUpdate) (m : Mem Char)
    (h : ∀ r ∈ ps, r.named "location" = false ∧ r.named "retrieveDate" = false) :
    (updateFwProps ps fw).fwUpdateUrl = fw.fwUpdateUrl ∧
      (updateFwProps ps fw).timeStamp = fw.timeStamp ∧
      ∀ i, 4 ≤ i → updateFwPropsMem ps m i = m i := by
  induction ps generalizing fw m with
  | nil => exact ⟨rfl, rfl, fun _ _ => rfl⟩
  | cons r ps ih =>
    obtain ⟨hl, hd⟩ := h r List.mem_cons_self
    obtain ⟨hurl, hstamp, hmem⟩ := updateFwProp_other fw m hl hd
    obtain ⟨hurl', hstamp', hmem'⟩ := ih (updateFwProp r fw) (updateFwPropMem r m)
      fun r' hr' => h r' (List.mem_cons_of_mem r hr')
    refine ⟨hurl'.trans hurl, hstamp'.trans hstamp, ?_⟩
    intro i hi
    exact (hmem' i hi).trans (hmem i hi)

/-- What a copied string leaves in the field it is meant for, and behind itself. -/
theorem cstr_take {s : List Char} {n : Nat} (hs : NulFree s) (hlen : s.length ≤ n) :
    cstr (s.take n) = s := by
  rw [List.take_of_length_le hlen]
  exact cstr_of_nulFree hs

theorem cells_behind {s : List Char} {i : Nat} (hp : p.propertyContants = s) (h : s.length ≤ i) :
    p.cells i = nul := by
  unfold Payload.cells
  rw [hp, List.getD_eq_getElem?_getD, List.getElem?_eq_none h]
  rfl

/-- **What UpdateFirmware leaves**: the location; the date, if it came last; and nothing but
zeros as far as the two copies reach. -/
theorem updateFw_leaves {rx : RxBuf} {location date : List Char} {first : Bool} (fw : FwUpdate)
    (m : Mem Char)
    (h : UpdateFwCall rx location date first) :
    cstr (updateFwProps rx.props fw).fwUpdateUrl = location ∧
      cstr (updateFwProps rx.props fw).timeStamp =
        (if first then date else []) ∧
      ∀ i, fwUpdateSize ≤ i → updateFwPropsMem rx.props m i =
        if i < timeStampAt + contantsCap then nul else m i := by
  obtain ⟨horder, ⟨hlnul, hllen⟩, hdnul, hdlen⟩ := h
  -- the two copies overlap, so the later one decides: the two orders are taken separately
  cases first with
  | true =>
    obtain ⟨as, p, bs, q, cs, hps, hp, hps', hq, hqs, hothers⟩ := horder.split
    obtain ⟨-, -, hma⟩ := updateFw_others fw m fun r hr => hothers r (.inl hr)
    obtain ⟨hpu, -, hmp⟩ := updateFwProp_location (updateFwProps as fw)
      (updateFwPropsMem as m) hp
    obtain ⟨hbu, -, hmb⟩ := updateFw_others
      (updateFwProp p (updateFwProps as fw))
      (updateFwPropMem p (updateFwPropsMem as m)) fun r hr => hothers r (.inr (.inl hr))
    obtain ⟨hqu, hqs', hmq⟩ := updateFwProp_date
      (updateFwProps bs (updateFwProp p (updateFwProps as fw)))
      (updateFwPropsMem bs (updateFwPropMem p (updateFwPropsMem as m))) hq
    obtain ⟨hcu, hcs, hmc⟩ := updateFw_others
      (updateFwProp q (updateFwProps bs (updateFwProp p (updateFwProps as fw))))
      (updateFwPropMem q (updateFwPropsMem bs (updateFwPropMem p (updateFwPropsMem as m)))) fun r hr =>
        hothers r (.inr (.inr hr))
    rw [hps]
    simp only [updateFwProps, updateFwPropsMem, List.foldl_append, List.foldl_cons] at *
    refine ⟨?_, ?_, ?_⟩
    · rw [hcu, hqu, hbu, hpu, hps']
      exact cstr_take hlnul (by omega)
    · rw [hcs, hqs', hqs]
      exact cstr_take hdnul (by omega)
    · intro i hi
      unfold fwUpdateSize at hi
      rw [hmc i (by omega), hmq i (by omega), hmb i (by omega), hmp i (by omega), hma i (by omega)]
      unfold timeStampAt fwUpdateUrlAt
      split
      · rw [if_pos (by omega), cells_behind hqs (by omega)]
      · rw [if_neg (by omega), if_neg (by omega)]
  | false =>
    obtain ⟨as, p, bs, q, cs, hps, hp, hps', hq, hqs, hothers⟩ := horder.split
    have hothers' : ∀ r, r ∈ as ∨ r ∈ bs ∨ r ∈ cs →
        r.named "location" = false ∧ r.named "retrieveDate" = false :=
      fun r hr => (hothers r hr).symm
    obtain ⟨-, -, hma⟩ := updateFw_others fw m fun r hr => hothers' r (.inl hr)
    obtain ⟨-, -, hmp⟩ := updateFwProp_date fw (updateFwPropsMem as m) hp
    obtain ⟨-, -, hmb⟩ := updateFw_others fw
      (updateFwPropMem p (updateFwPropsMem as m)) fun r hr => hothers' r (.inr (.inl hr))
    obtain ⟨hqu, hqs', hmq⟩ := updateFwProp_location
      (updateFwProps bs (updateFwProp p (updateFwProps as fw)))
      (updateFwPropsMem bs (updateFwPropMem p (updateFwPropsMem as m))) hq
    obtain ⟨hcu, hcs, hmc⟩ := updateFw_others
      (updateFwProp q (updateFwProps bs (updateFwProp p (updateFwProps as fw))))
      (updateFwPropMem q (updateFwPropsMem bs (updateFwPropMem p (updateFwPropsMem as m)))) fun r hr =>
        hothers' r (.inr (.inr hr))
    rw [hps]
    simp only [updateFwProps, updateFwPropsMem, List.foldl_append, List.foldl_cons] at *
    refine ⟨?_, ?_, ?_⟩
    · rw [hcu, hqu, hqs]
      exact cstr_take hlnul (by omega)
    · rw [hcs, hqs', hqs, List.drop_of_length_le (by omega)]
      rfl
    · intro i hi
      unfold fwUpdateSize at hi
      rw [hmc i (by omega), hmq i (by omega), hmb i (by omega), hmp i (by omega), hma i (by omega)]
      unfold timeStampAt fwUpdateUrlAt
      by_cases hloc : i < 4 + contantsCap
      · rw [if_pos hloc, if_pos (by omega), cells_behind hqs (by omega)]
      · rw [if_neg hloc]
        split
        · rw [if_pos (by omega), cells_behind hps' (by omega)]
        · rw [if_neg (by omega)]

/-- **UpdateFirmware keeps to its own fields** exactly when the date comes last, or is empty, and
what the copies reach behind the structure is zero already. -/
theorem updateFw_iff {rx : RxBuf} {location date : List Char} {first : Bool} {c c' : Charger}
    {tx tx' : TxBuf} {m' : Mem Char} (hcall : UpdateFwCall rx location date first)
    (h : dataProcCmdUpdateFw rx c tx = some (c', tx')) (hm : updateFwMem rx m = some m') :
    UpdatesOwn location date c c' m m' ↔ (first = true ∨ date = []) ∧ ClearBehind m := by
  obtain ⟨hurl, hstamp, hbehind⟩ := updateFw_leaves c.fw m hcall
  have hc := updateFw_cases h
  have hmem : m' = updateFwPropsMem rx.props m := (forProps_foldl hm).2
  subst hc hmem
  constructor
  · intro hown
    refine ⟨?_, ?_⟩
    · have hdate := hstamp.symm.trans hown.stamp
      cases first with
      | true => exact .inl rfl
      | false => exact .inr hdate.symm
    · intro i hi hreach
      have hkept := hown.behind i hi
      rw [hbehind i hi, if_pos hreach] at hkept
      exact hkept.symm
  · rintro ⟨hlast, hclear⟩
    refine ⟨hurl, ?_, rfl, ?_⟩
    · rw [hstamp]
      cases first with
      | true => rfl
      | false =>
        rcases hlast with hfirst | hdate
        · cases hfirst
        · exact hdate.symm
    · intro i hi
      rw [hbehind i hi]
      split
      · rename_i hreach
        exact (hclear i hi hreach).symm
      · rfl

end UpdateFw

/-! ## GetDiagnostics and UnlockConnector

Both copy a property over `diagLogUrl`. The field has 100 bytes. The step of the upload and two
flags lie behind it, and take the bytes 103 to 108 of the property. -/

/-- The last property of a name, which is the one a copy is left from. -/
def RxBuf.lastNamed (rx : RxBuf) (name : String) : Option Payload :=
  (rx.props.filter fun p => p.named name).getLast?

/-- A field that only the properties of one kind set, each to something of its own, is what the
last such property says. -/
theorem foldl_last {σ α : Type} (q : Payload → Bool) (f : Payload → σ → σ) (proj : σ → α)
    (val : Payload → α) (hf : ∀ p s, proj (f p s) = if q p then val p else proj s)
    (ps : List Payload) (s : σ) :
    proj (ps.foldl (fun s p => f p s) s) =
      ((ps.filter q).getLast?.map val).getD (proj s) := by
  induction ps generalizing s with
  | nil => rfl
  | cons p ps ih =>
    rw [List.foldl_cons, ih, hf]
    cases hq : q p with
    | false => simp [hq]
    | true =>
      rw [List.filter_cons, if_pos hq, List.getLast?_cons, if_pos rfl]
      cases (ps.filter q).getLast? <;> rfl

/-- The same, when the properties of the kind are all the loop looks at. -/
theorem foldl_copied {σ α : Type} (q : Payload → Bool) (g : Payload → σ → σ) (proj : σ → α)
    (val : Payload → α) (hg : ∀ p s, proj (g p s) = val p) (ps : List Payload) (s : σ) :
    proj (ps.foldl (fun s p => if q p then g p s else s) s) =
      ((ps.filter q).getLast?.map val).getD (proj s) := by
  refine foldl_last q (fun p s => if q p then g p s else s) proj val ?_ ps s
  intro p s
  split
  · exact hg p s
  · rfl

/-- The two flags behind `diagLogReqStep` stay. -/
structure KeepsFlags (c c' : Charger) : Prop where
  member : c'.cs.bReqMemberFlg = c.cs.bReqMemberFlg
  chargeAmt : c'.cs.bReqChargeAmtFlg = c.cs.bReqChargeAmtFlg

/-- The bytes 107 and 108 of a property are the flags. -/
structure FlagsAgree (c : Charger) (p : Payload) : Prop where
  member : c.cs.bReqMemberFlg = decide (byteAt p.propertyContants 107 ≠ 0)
  chargeAmt : c.cs.bReqChargeAmtFlg = decide (byteAt p.propertyContants 108 ≠ 0)

/-- The word at the bytes 103 to 106. -/
def diagWord (s : List Char) : Nat :=
  byteAt s 103 + 256 * byteAt s 104 + 65536 * byteAt s 105 + 16777216 * byteAt s 106

/-- A location of a GetDiagnostics request. -/
def getDiagProp (p : Payload) (c : Charger) : Charger :=
  let c := copyDiagLogUrl p.propertyContants c
  { c with cs := { c.cs with diagLogReqStep := diagStatUpload } }

/-- A connector id of an UnlockConnector request. -/
def unlockConnectProp (p : Payload) (c : Charger) : Charger := copyDiagLogUrl p.propertyContants c

section Diag
variable {rx : RxBuf} {c c' : Charger} {tx tx' : TxBuf}

theorem getDiag_eq (rx : RxBuf) (c : Charger) (tx : TxBuf) : dataProcCmdGetDiag rx c tx =
    (forProps rx (fun p c => some (if p.named "location" then getDiagProp p c else c)) c).map fun c =>
      (c, (tx.answer rx 1).setProp 0 "fileName".toList "Cs0000000002_1.txt".toList .str) := by
  unfold dataProcCmdGetDiag
  simp only [← apply_ite some]
  exact bind_pure_comp _ _

theorem unlockConnect_eq (rx : RxBuf) (c : Charger) (tx : TxBuf) : dataProcCmdUnlockConnect rx c tx =
    (forProps rx (fun p c =>
      some (if p.named "connectorId" then unlockConnectProp p c else c)) c).map fun c =>
        (c, makeCallRes .notSuppt rx tx) := by
  unfold dataProcCmdUnlockConnect
  simp only [← apply_ite some]
  exact bind_pure_comp _ _

theorem getDiag_cases (h : dataProcCmdGetDiag rx c tx = some (c', tx')) :
    c' = rx.props.foldl (fun c p => if p.named "location" then getDiagProp p c else c) c := by
  rw [getDiag_eq, Option.map_eq_some_iff] at h
  obtain ⟨d, hd, heq⟩ := h
  cases heq
  exact (forProps_foldl hd).2

theorem unlockConnect_cases (h : dataProcCmdUnlockConnect rx c tx = some (c', tx')) :
    c' = rx.props.foldl (fun c p => if p.named "connectorId" then unlockConnectProp p c else c) c := by
  rw [unlockConnect_eq, Option.map_eq_some_iff] at h
  obtain ⟨d, hd, heq⟩ := h
  cases heq
  exact (forProps_foldl hd).2

/-- A field of the last named property, and the same field before. -/
theorem lastNamed_agrees {α : Type} {name : String} {val : Payload → α} {a : α} :
    ((rx.lastNamed name).map val).getD a = a ↔ ∀ p, rx.lastNamed name = some p → a = val p := by
  cases rx.lastNamed name with
  | none => simp
  | some p => simp [eq_comm]

/-- **GetDiagnostics keeps the flags** exactly when its last location says the same. -/
theorem getDiag_iff (h : dataProcCmdGetDiag rx c tx = some (c', tx')) :
    KeepsFlags c c' ↔ ∀ p, rx.lastNamed "location" = some p → FlagsAgree c p := by
  have hmember : c'.cs.bReqMemberFlg = ((rx.lastNamed "location").map fun p =>
      decide (byteAt p.propertyContants 107 ≠ 0)).getD c.cs.bReqMemberFlg := by
    rw [getDiag_cases h]
    exact foldl_copied _ getDiagProp (fun c => c.cs.bReqMemberFlg)
      (fun p => decide (byteAt p.propertyContants 107 ≠ 0))
      (fun _ _ => rfl) rx.props c
  have hamt : c'.cs.bReqChargeAmtFlg = ((rx.lastNamed "location").map fun p =>
      decide (byteAt p.propertyContants 108 ≠ 0)).getD c.cs.bReqChargeAmtFlg := by
    rw [getDiag_cases h]
    exact foldl_copied _ getDiagProp (fun c => c.cs.bReqChargeAmtFlg)
      (fun p => decide (byteAt p.propertyContants 108 ≠ 0))
      (fun _ _ => rfl) rx.props c
  constructor
  · rintro ⟨hm, ha⟩ p hp
    rw [hmember, lastNamed_agrees] at hm
    rw [hamt, lastNamed_agrees] at ha
    exact ⟨hm p hp, ha p hp⟩
  · intro hagree
    refine ⟨?_, ?_⟩
    · rw [hmember, lastNamed_agrees]
      exact fun p hp => (hagree p hp).member
    · rw [hamt, lastNamed_agrees]
      exact fun p hp => (hagree p hp).chargeAmt

/-- **UnlockConnector keeps what is pending** exactly when its last connector id says the same. -/
theorem unlockConnect_iff (h : dataProcCmdUnlockConnect rx c tx = some (c', tx')) :
    (KeepsFlags c c' ∧ c'.cs.diagLogReqStep = c.cs.diagLogReqStep) ↔
      ∀ p, rx.lastNamed "connectorId" = some p →
        FlagsAgree c p ∧ c.cs.diagLogReqStep = diagWord p.propertyContants := by
  have hmember : c'.cs.bReqMemberFlg = ((rx.lastNamed "connectorId").map fun p =>
      decide (byteAt p.propertyContants 107 ≠ 0)).getD c.cs.bReqMemberFlg := by
    rw [unlockConnect_cases h]
    exact foldl_copied _ unlockConnectProp (fun c => c.cs.bReqMemberFlg)
      (fun p => decide (byteAt p.propertyContants 107 ≠ 0))
      (fun _ _ => rfl) rx.props c
  have hamt : c'.cs.bReqChargeAmtFlg = ((rx.lastNamed "connectorId").map fun p =>
      decide (byteAt p.propertyContants 108 ≠ 0)).getD c.cs.bReqChargeAmtFlg := by
    rw [unlockConnect_cases h]
    exact foldl_copied _ unlockConnectProp (fun c => c.cs.bReqChargeAmtFlg)
      (fun p => decide (byteAt p.propertyContants 108 ≠ 0))
      (fun _ _ => rfl) rx.props c
  have hstep : c'.cs.diagLogReqStep = ((rx.lastNamed "connectorId").map fun p =>
      diagWord p.propertyContants).getD c.cs.diagLogReqStep := by
    rw [unlockConnect_cases h]
    exact foldl_copied _ unlockConnectProp (fun c => c.cs.diagLogReqStep)
      (fun p => diagWord p.propertyContants)
      (fun _ _ => rfl) rx.props c
  constructor
  · rintro ⟨⟨hm, ha⟩, hs⟩ p hp
    rw [hmember, lastNamed_agrees] at hm
    rw [hamt, lastNamed_agrees] at ha
    rw [hstep, lastNamed_agrees] at hs
    exact ⟨⟨hm p hp, ha p hp⟩, hs p hp⟩
  · intro hagree
    refine ⟨⟨?_, ?_⟩, ?_⟩
    · rw [hmember, lastNamed_agrees]
      exact fun p hp => (hagree p hp).1.member
    · rw [hamt, lastNamed_agrees]
      exact fun p hp => (hagree p hp).1.chargeAmt
    · rw [hstep, lastNamed_agrees]
      exact fun p hp => (hagree p hp).2

end Diag

/-! ## The three handlers -/

/-- **Each handler keeps to its own fields exactly when**: UpdateFirmware, when the date comes last
or is empty and what lies behind the structure is zero; GetDiagnostics and UnlockConnector, when
what is pending is what the bytes of the copied property say. -/
theorem own_fields_iff {rx : RxBuf} (c : Charger) (tx : TxBuf) (m : Mem Char)
    (hlen : rx.msg.payloadLen < payloadCap) :
    (∀ location date first, UpdateFwCall rx location date first → ∃ c' tx' m',
      dataProcCmdUpdateFw rx c tx = some (c', tx') ∧ updateFwMem rx m = some m' ∧
      (UpdatesOwn location date c c' m m' ↔ (first = true ∨ date = []) ∧ ClearBehind m)) ∧
    (∃ c' tx', dataProcCmdGetDiag rx c tx = some (c', tx') ∧
      (KeepsFlags c c' ↔ ∀ p, rx.lastNamed "location" = some p → FlagsAgree c p)) ∧
    (∃ c' tx', dataProcCmdUnlockConnect rx c tx = some (c', tx') ∧
      ((KeepsFlags c c' ∧ c'.cs.diagLogReqStep = c.cs.diagLogReqStep) ↔
        ∀ p, rx.lastNamed "connectorId" = some p →
          FlagsAgree c p ∧ c.cs.diagLogReqStep = diagWord p.propertyContants)) := by
  refine ⟨?_, ?_, ?_⟩
  · intro location date first hcall
    obtain ⟨fw, hfw⟩ := forProps_map hlen updateFwProp c.fw
    obtain ⟨m', hm'⟩ := forProps_map hlen updateFwPropMem m
    have h : dataProcCmdUpdateFw rx c tx = some ({ c with fw := fw }, tx.answer rx 0) := by
      show (forProps rx (fun p fw => some (updateFwProp p fw)) c.fw).bind _ = _
      rw [hfw]
      rfl
    exact ⟨_, _, m', h, hm', updateFw_iff hcall h hm'⟩
  · obtain ⟨d, hd⟩ := forProps_map hlen
      (fun p c => if p.named "location" then getDiagProp p c else c) c
    have h := getDiag_eq rx c tx
    rw [hd] at h
    exact ⟨_, _, h, getDiag_iff h⟩
  · obtain ⟨d, hd⟩ := forProps_map hlen
      (fun p c => if p.named "connectorId" then unlockConnectProp p c else c) c
    have h := unlockConnect_eq rx c tx
    rw [hd] at h
    exact ⟨_, _, h, unlockConnect_iff h⟩

/-! ## Requests that come in -/

/-- An UpdateFirmware request as a server may write it. -/
def updateFwFrame (name₁ value₁ name₂ value₂ : List Char) : List Char :=
  "[2,\"1\",\"UpdateFirmware\",\x7b\"".toList ++ name₁ ++ "\":\"".toList ++ value₁ ++
    "\",\"".toList ++ name₂ ++ "\":\"".toList ++ value₂ ++ "\"\x7d]".toList

/-- The parser reads the frame as these two properties, in this order. -/
def readsTwo (name₁ value₁ name₂ value₂ : List Char) : Bool :=
  let frame := updateFwFrame name₁ value₁ name₂ value₂
  decide (frame.length < Client.recvBufCap) && decide ((typeText frame).head? = some '2') &&
    (parseData .none 0 clearRxMsgBuff frame).any fun d =>
      !d.err && decide (d.rx.msg.actionCode = .cs .updateFw) && decide (d.rx.msg.payloadLen = 1) &&
        decide ((d.rx.msg.payload 0).propertyName = name₁) &&
        decide ((d.rx.msg.payload 0).propertyContants = value₁) &&
        decide ((d.rx.msg.payload 1).propertyName = name₂) &&
        decide ((d.rx.msg.payload 1).propertyContants = value₂)

theorem readsTwo_inOrder {a b : String} {s t : List Char} (h : readsTwo a.toList s b.toList t = true)
    (ha : NulFree a.toList) (hb : NulFree b.toList) :
    ∃ rx, ReadAs (updateFwFrame a.toList s b.toList t) .updateFw rx ∧
      rx.msg.payloadLen < payloadCap ∧ InOrder rx.props a b s t := by
  simp only [readsTwo, Bool.and_eq_true, decide_eq_true_eq, Option.any_eq_true] at h
  obtain ⟨⟨hlen, htype⟩, ⟨err, rx, dt⟩, hparse, ⟨⟨⟨⟨⟨⟨herr, hact⟩, htwo⟩, hp⟩, hps⟩, hq⟩, hqs⟩⟩ := h
  obtain rfl : err = false := by simpa using herr
  have hprops : rx.props = [rx.msg.payload 0, rx.msg.payload 1] := by
    unfold RxBuf.props
    rw [htwo]
    rfl
  have hnamed : ∀ {p : Payload} {n : String}, p.propertyName = n.toList → NulFree n.toList →
      p.named n = true := by
    intro p n hn hnul
    unfold Payload.named
    rw [hn, cstr_of_nulFree hnul]
    exact decide_eq_true rfl
  refine ⟨rx, ⟨hlen, htype, ⟨dt, hparse⟩, hact⟩, by rw [htwo]; decide, ⟨[], rx.msg.payload 0, [],
    rx.msg.payload 1, [], hprops, hnamed hp ha, hps, hnamed hq hb, hqs, ?_⟩⟩
  rintro r (hr | hr | hr) <;> exact absurd hr List.not_mem_nil

/-- The location first, and nothing behind the structure: all is well. -/
theorem own_fields_location_first : ∃ rx c' tx' m',
    UpdateFwCall rx "http://a/b".toList "2024-01-01T00:00:00Z".toList true ∧
      dataProcCmdUpdateFw rx (Client.init 3 0).cp (Client.init 3 0).tx = some (c', tx') ∧
      updateFwMem rx (fun _ => nul) = some m' ∧
      UpdatesOwn "http://a/b".toList "2024-01-01T00:00:00Z".toList (Client.init 3 0).cp c'
        (fun _ => nul) m' := by
  have hreads : readsTwo "location".toList "http://a/b".toList "retrieveDate".toList
      "2024-01-01T00:00:00Z".toList = true := by decide +kernel
  obtain ⟨rx, -, hlen, horder⟩ := readsTwo_inOrder hreads (by decide) (by decide)
  have hcall : UpdateFwCall rx "http://a/b".toList "2024-01-01T00:00:00Z".toList true :=
    ⟨horder, by decide, by decide⟩
  obtain ⟨c', tx', m', h, hm, hiff⟩ := (own_fields_iff (Client.init 3 0).cp (Client.init 3 0).tx
    (fun _ => nul) hlen).1 _ _ _ hcall
  exact ⟨rx, c', tx', m', hcall, h, hm, hiff.mpr ⟨.inl rfl, fun _ _ _ => rfl⟩⟩

/-- The date first: it is gone when the location has been copied. -/
theorem update_date_lost : ∃ s log s' rx f, Run s log ∧ Exchange s s' .updateFw rx f ∧
    UpdateFwCall rx "http://a/b".toList "2024-01-01T00:00:00Z".toList false ∧
    cstr s'.cp.fw.timeStamp ≠ "2024-01-01T00:00:00Z".toList := by
  have hreads : readsTwo "retrieveDate".toList "2024-01-01T00:00:00Z".toList "location".toList
      "http://a/b".toList = true := by decide +kernel
  obtain ⟨rx, hread, hlen, horder⟩ := readsTwo_inOrder hreads (by decide) (by decide)
  have hcall : UpdateFwCall rx "http://a/b".toList "2024-01-01T00:00:00Z".toList false :=
    ⟨horder, by decide, by decide⟩
  obtain ⟨s, log, hrun, hconn, hboot⟩ := exists_booted
  obtain ⟨fw, hfw⟩ := forProps_map hlen updateFwProp s.cp.fw
  let tx : TxBuf := { s.tx with msg := { s.tx.msg with msgType := msgTypeCallRes } }
  have h : dataProcCmdUpdateFw rx s.cp tx = some ({ s.cp with fw := fw }, tx.answer rx 0) := by
    show (forProps rx (fun p fw => some (updateFwProp p fw)) s.cp.fw).bind _ = _
    rw [hfw]
    rfl
  obtain ⟨s', hx, hcp⟩ := exists_exchange (j := .zero) hread hconn hboot h
  refine ⟨s, log, s', rx, _, hrun, hx, hcall, ?_⟩
  have hlost := (updateFw_leaves s.cp.fw (fun _ => nul) hcall).2.1
  rw [hcp, updateFw_cases h, hlost]
  decide

end ChargePoint
