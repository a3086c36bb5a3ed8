import ChargePoint.Orders

/-!
# What stands open

The fourth projection: the current statuses, and the flags of the requests that one CALL settles.
Of the answers, those to Authorize, BootNotification, Heartbeat, StatusNotification and
StopTransaction move it; of the requests of the central system, ChangeAvailability,
TriggerMessage and the two that copy a text over `diagLogReqStep`, `bReqMemberFlg` and
`bReqChargeAmtFlg`. Every branch of `OCPP_CALL_Senario` takes its own flag and no other.
-/

set_option autoImplicit false

namespace ChargePoint

open CStr Loop

structure Standing where
  bCpStat : Fin 2 → CpStatus
  bReqStopTsFlg : Bool
  bReqMemberFlg : Bool
  bReqChargeAmtFlg : Bool
  bQrEventFlg : Nat
  bChargerCostCheck : Nat
  ocppCpStsFlg : Bool
  diagLogReqStep : Nat
  triggerMsgStat : TrigMsgStat

def Charger.standing (c : Charger) : Standing :=
  ⟨c.cs.bCpStat, c.cs.bReqStopTsFlg, c.cs.bReqMemberFlg, c.cs.bReqChargeAmtFlg, c.cs.bQrEventFlg,
    c.bChargerCostCheck, c.ocppCpStsFlg, c.cs.diagLogReqStep, c.cs.triggerMsgStat⟩

/-! ## The answers -/

section Answers
variable {rx : RxBuf} {c c' : Charger}

theorem dataProcCmdAuth_standing (h : dataProcCmdAuth rx c = some c') :
    c'.standing = { c.standing with bReqMemberFlg := c'.cs.bReqMemberFlg } := by
  simp only [dataProcCmdAuth, Option.map_eq_some_iff] at h
  obtain ⟨d, hd, rfl⟩ := h
  have hkept : d.standing = { c.standing with bReqMemberFlg := d.cs.bReqMemberFlg } := by
    split at hd
    · refine forSubProps_inv
        (P := fun d => d.standing = { c.standing with bReqMemberFlg := d.cs.bReqMemberFlg })
        ?_ rfl hd
      intro q e e' he hb
      have hset : ∀ b : Bool,
          ({ e with cs := { e.cs with bReqMemberFlg := b } } : Charger).standing =
          { c.standing with bReqMemberFlg := b } := fun b =>
        congrArg (fun s : Standing => { s with bReqMemberFlg := b }) he
      split at hb
      · split at hb
        · cases Option.some.inj hb
          exact hset true
        · cases Option.some.inj hb
          exact he
      · split at hb
        · split at hb
          · cases Option.some.inj hb
            exact he
          · cases hb
        · cases Option.some.inj hb
          exact he
    · cases Option.some.inj hd
      rfl
  exact hkept

theorem bootAccept_standing (c : Charger) (i : Fin 2) :
    (bootAccept c i).standing = { c.standing with bCpStat := (bootAccept c i).cs.bCpStat } := by
  unfold bootAccept
  split
  · dsimp only
    split
    · rfl
    · rfl
  · rfl

theorem dataProcCmdBoot_standing (h : dataProcCmdBoot rx c = some c') :
    c'.standing = { c.standing with
      bCpStat := c'.cs.bCpStat, bChargerCostCheck := c'.bChargerCostCheck } := by
  refine forProps_inv (P := fun d => d.standing = { c.standing with
    bCpStat := d.cs.bCpStat, bChargerCostCheck := d.bChargerCostCheck }) ?_ rfl h
  intro p d d' hd hb
  have hset : ∀ st n, ({ d.standing with bCpStat := st, bChargerCostCheck := n } : Standing) =
      { c.standing with bCpStat := st, bChargerCostCheck := n } := fun st n =>
    congrArg (fun s : Standing => { s with bCpStat := st, bChargerCostCheck := n }) hd
  split at hb
  · cases Option.some.inj hb
    exact hd
  · split at hb
    · split at hb
      · split at hb
        · cases Option.some.inj hb
          have hone := bootAccept_standing (bootAccept d 0) 1
          rw [bootAccept_standing d 0] at hone
          exact (congrArg (fun s : Standing => { s with bChargerCostCheck := 1 }) hone).trans
            (hset _ 1)
        · cases Option.some.inj hb
          exact hd
      · split at hb
        · cases Option.some.inj hb
          exact hset _ _
        · cases Option.some.inj hb
          exact hset _ _
    · cases Option.some.inj hb
      exact hd

theorem dataProcCmdStartTs_standing (h : dataProcCmdStartTs rx c = some c') :
    c'.standing = c.standing := by
  unfold dataProcCmdStartTs at h
  refine forProps_inv (P := fun d => d.standing = c.standing) ?_ rfl h
  intro p d d' hd hb
  split at hb
  · refine forSubProps_inv (P := fun d => d.standing = c.standing) ?_ hd hb
    intro q e e' he hq
    split at hq
    · cases Option.some.inj hq
      exact he
    · cases Option.some.inj hq
      exact he
  · split at hb
    · obtain ⟨i, _, rfl⟩ := Option.map_eq_some_iff.mp hb
      exact hd
    · cases Option.some.inj hb
      exact hd

/-- A cost check that waits for the first StatusNotification is due after it. -/
theorem dataProcCmdStat_standing {callConn : List Char} (h : dataProcCmdStat callConn c = some c') :
    c'.standing = { c.standing with
      bChargerCostCheck := if c.bChargerCostCheck = 1 then 2 else c.bChargerCostCheck } := by
  obtain ⟨i, _, rfl⟩ := Option.map_eq_some_iff.mp h
  by_cases hone : c.bChargerCostCheck = 1
  · have hset : (c.setPreCpStat (c.cs.bCpStat i) i).bChargerCostCheck = 1 := hone
    dsimp only
    rw [if_pos hset, if_pos hone]
    rfl
  · have hset : (c.setPreCpStat (c.cs.bCpStat i) i).bChargerCostCheck ≠ 1 := hone
    dsimp only
    rw [if_neg hset, if_neg hone]
    rfl

/-- The answer to a StopTransaction leaves the amount to be asked for. -/
theorem dataProcCmdStopTs_standing (h : dataProcCmdStopTs c = some c') :
    c'.standing = { c.standing with
      bCpStat := c'.cs.bCpStat, bReqStopTsFlg := false, bReqChargeAmtFlg := true } := by
  obtain ⟨d, _, rfl⟩ := Option.map_eq_some_iff.mp h
  dsimp only
  split
  · rfl
  · split
    · rfl
    · rfl

/-- **What an answer does to what stands open.** -/
theorem rxCallResDataProc_standing {m : TxMsg} {a : CpReqAction}
    (h : rxCallResDataProc rx m c = some c') (hact : rx.msg.actionCode = .cp a) :
    c'.standing = { c.standing with
      bCpStat := if a = .boot ∨ a = .stopTs then c'.cs.bCpStat else c.cs.bCpStat
      bReqStopTsFlg := if a = .stopTs then false else c.cs.bReqStopTsFlg
      bReqMemberFlg := if a = .auth then c'.cs.bReqMemberFlg else c.cs.bReqMemberFlg
      bReqChargeAmtFlg := if a = .stopTs then true else c.cs.bReqChargeAmtFlg
      bChargerCostCheck :=
        if a = .boot then c'.bChargerCostCheck
        else if a = .stat ∧ c.bChargerCostCheck = 1 then 2
        else c.bChargerCostCheck
      ocppCpStsFlg := if a = .hb then true else c.ocppCpStsFlg } := by
  simp only [rxCallResDataProc, hact] at h
  cases a with
  | auth => exact dataProcCmdAuth_standing h
  | boot => exact dataProcCmdBoot_standing h
  | startTs => exact dataProcCmdStartTs_standing h
  | stat =>
    have hcheck : (if CpReqAction.stat = .stat ∧ c.bChargerCostCheck = 1 then 2
        else c.bChargerCostCheck) = if c.bChargerCostCheck = 1 then 2 else c.bChargerCostCheck := by
      simp
    have hstat := dataProcCmdStat_standing h
    rw [← hcheck] at hstat
    exact hstat
  | stopTs => exact dataProcCmdStopTs_standing h
  | hb | meterVal | dataTrans | diagStat | fwStat | none =>
    cases Option.some.inj h
    rfl

end Answers

/-! ## The requests of the central system

Two handlers copy a text over three of the flags. What they write there is left open (`copied`),
so that the lemma is an equation even for these. -/

section Served
variable {rx : RxBuf} {c c' : Charger} {tx tx' : TxBuf}

theorem setAvail_standing (c : Charger) (i : Fin 2) (b : Bool) :
    (setAvail c i b).standing = { c.standing with bCpStat := (setAvail c i b).cs.bCpStat } := by
  have hmark : ∀ code : CpStatus,
      (if c.cs.bCpStat i = code then c.setChgFlg i true else c).standing = c.standing := by
    intro code
    split
    · rfl
    · rfl
  have hset : ∀ (d : Charger) (code : CpStatus), (d.setCpStatus code i).standing =
      { d.standing with bCpStat := (d.setCpStatus code i).cs.bCpStat } := fun d code => rfl
  unfold setAvail
  dsimp only
  rw [hset, hmark]

theorem dataProcCmdChangeAvail_standing {j : Junk}
    (h : dataProcCmdChangeAvail j rx c tx = some (c', tx')) :
    c'.standing = { c.standing with bCpStat := c'.cs.bCpStat } := by
  simp only [dataProcCmdChangeAvail, Option.bind_eq_bind, Option.bind_eq_some_iff] at h
  obtain ⟨l, _, h⟩ := h
  split at h
  · cases Option.some.inj h
    rfl
  · split at h
    · cases Option.some.inj h
      have hone := setAvail_standing (setAvail c 0 l.setVal) 1 l.setVal
      rw [setAvail_standing c 0 l.setVal] at hone
      exact hone
    · obtain ⟨i, _, h⟩ := Option.bind_eq_some_iff.mp h
      cases Option.some.inj h
      exact setAvail_standing c i l.setVal

theorem changeConfigKey_standing (k v : Payload) (c : Charger) :
    (changeConfigKey k v c).2.standing = c.standing := by
  let P : ResType × Charger → Prop := fun r => r.2.standing = c.standing
  have hint : ∀ n, P (changeInt n v c) := fun n => by
    unfold changeInt
    split
    · rfl
    · rfl
  have hbool : ∀ n, P (changeBool n v c) := fun n => by
    unfold changeBool
    split
    · rfl
    · split
      · rfl
      · rfl
  have hloose : ∀ n, P (changeBoolLoose n v c) := fun n => rfl
  have hunstored : P (changeBoolUnstored v c) := by
    unfold changeBoolUnstored
    split
    · rfl
    · rfl
  have hkeep : ∀ r, P (r, c) := fun r => rfl
  have hite : ∀ {q : Bool} {x y : ResType × Charger}, P x → P y → P (if q then x else y) :=
    fun {q x y} hx hy => by cases q <;> [exact hy; exact hx]
  -- one `hite` per key, in the order of the chain
  exact hite (hint 10) <| hite (hint 1) <| hite (hbool 7) <| hite (hkeep _) <| hite (hint 2) <|
    hite (hloose 0) <| hite (hloose 20) <| hite (hloose 13) <| hite (hkeep _) <|
    hite (hbool 6) <| hite hunstored <| hite (hbool 23) <| hite (hbool 14) (hkeep _)

/-- What `copyDiagLogUrl` may write over. -/
def Standing.copied (s t : Standing) : Standing :=
  { s with
      diagLogReqStep := t.diagLogReqStep
      bReqMemberFlg := t.bReqMemberFlg
      bReqChargeAmtFlg := t.bReqChargeAmtFlg }

theorem Standing.copied_trans {s t u : Standing} (hu : u = t.copied u) (ht : t = s.copied t) :
    u = s.copied u := by
  have hcopy : t.copied u = (s.copied t).copied u := congrArg (fun x => x.copied u) ht
  exact hu.trans hcopy

theorem dataProcCmdGetDiag_standing (h : dataProcCmdGetDiag rx c tx = some (c', tx')) :
    c'.standing = c.standing.copied c'.standing ∧
      (c'.cs.diagLogReqStep = c.cs.diagLogReqStep ∨ c'.cs.diagLogReqStep = diagStatUpload) := by
  simp only [dataProcCmdGetDiag, Option.bind_eq_bind, Option.bind_eq_some_iff] at h
  obtain ⟨d, hd, h⟩ := h
  cases Option.some.inj h
  refine forProps_inv (P := fun d => d.standing = c.standing.copied d.standing ∧
    (d.cs.diagLogReqStep = c.cs.diagLogReqStep ∨ d.cs.diagLogReqStep = diagStatUpload)) ?_
    ⟨rfl, .inl rfl⟩ hd
  intro p e e' he hb
  split at hb
  · cases Option.some.inj hb
    exact ⟨Standing.copied_trans rfl he.1, .inr rfl⟩
  · cases Option.some.inj hb
    exact he

theorem dataProcCmdUnlockConnect_standing
    (h : dataProcCmdUnlockConnect rx c tx = some (c', tx')) :
    c'.standing = c.standing.copied c'.standing := by
  simp only [dataProcCmdUnlockConnect, Option.bind_eq_bind, Option.bind_eq_some_iff] at h
  obtain ⟨d, hd, h⟩ := h
  cases Option.some.inj h
  refine forProps_inv (P := fun d => d.standing = c.standing.copied d.standing) ?_ rfl hd
  intro p e e' he hb
  split at hb
  · cases Option.some.inj hb
    exact Standing.copied_trans rfl he
  · cases Option.some.inj hb
    exact he

theorem dataProcCmdDataTransCs_standing {j : Junk}
    (h : dataProcCmdDataTransCs j rx c tx = some (c', tx')) : c'.standing = c.standing := by
  simp only [dataProcCmdDataTransCs, Option.bind_eq_bind, Option.bind_eq_some_iff] at h
  obtain ⟨l, _, h⟩ := h
  split at h
  · cases Option.some.inj h
    rfl
  · cases Option.some.inj h
    rfl

theorem dataProcCmdRmStart_standing (h : dataProcCmdRmStart rx c tx = some (c', tx')) :
    c'.standing = c.standing := by
  simp only [dataProcCmdRmStart, Option.bind_eq_bind, Option.bind_eq_some_iff] at h
  obtain ⟨l, hl, h⟩ := h
  have hkept : l.2.2.standing = c.standing := by
    refine forProps_inv (P := fun l : Bool × UInt32 × Charger => l.2.2.standing = c.standing)
      ?_ rfl hl
    intro p m m' hm hb
    cases Option.some.inj hb
    split
    · split
      · exact hm
      · exact hm
    · split
      · exact hm
      · exact hm
  split at h
  · obtain ⟨i, _, h⟩ := Option.bind_eq_some_iff.mp h
    split at h
    · cases Option.some.inj h
      exact hkept
    · cases Option.some.inj h
      exact hkept
  · cases Option.some.inj h
    exact hkept

theorem dataProcCmdRmStopTr_standing (h : dataProcCmdRmStopTr rx c tx = some (c', tx')) :
    c'.standing = c.standing := by
  unfold dataProcCmdRmStopTr at h
  dsimp only at h
  split at h
  · obtain ⟨d, _, h⟩ := Option.map_eq_some_iff.mp h
    split at h
    · cases h
      rfl
    · cases h
      rfl
  · cases Option.some.inj h
    rfl

theorem dataProcCmdReset_standing (h : dataProcCmdReset rx c tx = (c', tx')) :
    c'.standing = c.standing := by
  unfold dataProcCmdReset at h
  dsimp only at h
  split at h
  · cases h
    rfl
  · split at h
    · cases h
      rfl
    · cases h
      rfl

theorem dataProcCmdTriggerMsg_standing (h : dataProcCmdTriggerMsg rx c tx = some (c', tx')) :
    c'.standing = { c.standing with triggerMsgStat := c'.cs.triggerMsgStat } := by
  simp only [dataProcCmdTriggerMsg, Option.bind_eq_bind, Option.bind_eq_some_iff] at h
  obtain ⟨l, _, h⟩ := h
  split at h
  · cases Option.some.inj h
    rfl
  · cases Option.some.inj h
    rfl

/-- The requests whose handler copies a text over the flags. -/
def CsReqAction.copies : CsReqAction → Bool
  | .getDiag | .unlockConnect => true
  | _ => false

/-- **What a request does to what stands open.** -/
theorem rxCallDataProc_standing {cmd : CsReqAction} {j : Junk}
    (h : rxCallDataProc cmd j rx c tx = some (c', tx')) :
    c'.standing = { (if cmd.copies then c.standing.copied c'.standing else c.standing) with
      bCpStat := if cmd = .changeAvail then c'.cs.bCpStat else c.cs.bCpStat
      triggerMsgStat :=
        if cmd = .triggerMsg then c'.cs.triggerMsgStat else c.cs.triggerMsgStat } ∧
      (cmd = .getDiag → c'.cs.diagLogReqStep = c.cs.diagLogReqStep ∨
        c'.cs.diagLogReqStep = diagStatUpload) := by
  cases cmd with
  | changeAvail => exact ⟨dataProcCmdChangeAvail_standing h, by simp⟩
  | changeConfig =>
    cases Option.some.inj h
    refine ⟨?_, by simp⟩
    split
    · exact changeConfigKey_standing _ _ c
    · rfl
  | dataTransfer => exact ⟨dataProcCmdDataTransCs_standing h, by simp⟩
  | getConfig =>
    obtain ⟨t, _, h⟩ := Option.map_eq_some_iff.mp h
    cases h
    exact ⟨rfl, by simp⟩
  | getDiag =>
    have hdiag := dataProcCmdGetDiag_standing h
    exact ⟨hdiag.1, fun _ => hdiag.2⟩
  | remoteStart => exact ⟨dataProcCmdRmStart_standing h, by simp⟩
  | remoteStop => exact ⟨dataProcCmdRmStopTr_standing h, by simp⟩
  | reset => exact ⟨dataProcCmdReset_standing (Option.some.inj h), by simp⟩
  | triggerMsg => exact ⟨dataProcCmdTriggerMsg_standing h, by simp⟩
  | unlockConnect => exact ⟨dataProcCmdUnlockConnect_standing h, by simp⟩
  | updateFw =>
    simp only [rxCallDataProc, dataProcCmdUpdateFw, Option.bind_eq_bind,
      Option.bind_eq_some_iff] at h
    obtain ⟨fw, _, h⟩ := h
    cases Option.some.inj h
    exact ⟨rfl, by simp⟩
  | clearCache | clearChargProf | getLocalVer | sndLocalList | none | cancelReseve
  | getCompositSched | reserve | setChgProfile =>
    cases Option.some.inj h
    exact ⟨rfl, by simp⟩

end Served

/-! ## The client's own branches

One equation for all branches: each clears the flag it was taken for, and the two whose answer
asks for more set nothing yet. -/

/-- **Each branch takes its own flag.** -/
theorem Call.standing (a : Call) (k : Clock) (c : Charger) :
    (a.finish (a.prepare k c)).standing = { c.standing with
      bReqStopTsFlg := if a = .stopTs then false else c.cs.bReqStopTsFlg
      bReqMemberFlg := if a = .mbrUntpc then false else c.cs.bReqMemberFlg
      bReqChargeAmtFlg := if a = .chargeAmt then false else c.cs.bReqChargeAmtFlg
      bQrEventFlg := if a = .q1 ∨ a = .q2 then 0 else c.cs.bQrEventFlg
      bChargerCostCheck := if a = .dataTransJ1 then 0 else c.bChargerCostCheck
      ocppCpStsFlg := if a = .cpSts then false else c.ocppCpStsFlg
      diagLogReqStep := if a = .diagStat then 0 else c.cs.diagLogReqStep
      triggerMsgStat := if a.takesTrig then .none else c.cs.triggerMsgStat } := by
  have hadd : ∀ (d : Charger) (k : SampleClock) (ty : Nat),
      (addMeterValQ d k ty).standing = d.standing := fun d k ty => rfl
  cases a with
  | stopTs => exact hadd _ k.sample meterValTransType
  | trigMeter => exact hadd _ k.sample meterValTrigType
  | boot | meterVal | stat | dataTransJ1 | auth | mbrUntpc | startTs | chargeAmt | q1 | q2
  | trigDiag | trigFw | trigHb | trigStat | diagStat | fwStat | hb | cpSts => rfl

end ChargePoint
