import ChargePoint.Journal

/-!
# A Reset is not forgotten

`bReqResetNo` is written by one handler and cleared by none: from the first Reset that is accepted
on it stands, through every reconnect and every session, until the charger reboots.
-/

set_option autoImplicit false

namespace ChargePoint

open CStr Loop

/-- The handler accepts the Reset. -/
def acceptsReset (m : RxMsg) : Bool :=
  (m.payload 0).named "type" && ((m.payload 0).holds "Hard" || (m.payload 0).holds "Soft")

/-- A Reset was served and accepted. -/
def ordersReset : Entry → Bool
  | .inr (.served _ rx) => rx.actionCode = .cs .reset && acceptsReset rx
  | _ => false

/-! ## The answers -/

section Answers
variable {rx : RxBuf} {c c' : Charger} {n : Nat}

theorem dataProcCmdAuth_reset (h : dataProcCmdAuth rx c = some c') :
    c'.cs.bReqResetNo = c.cs.bReqResetNo := by
  simp only [dataProcCmdAuth, Option.map_eq_some_iff] at h
  obtain ⟨d, hd, rfl⟩ := h
  have hkept : d.cs.bReqResetNo = c.cs.bReqResetNo := by
    split at hd
    · refine forSubProps_inv (P := fun d => d.cs.bReqResetNo = c.cs.bReqResetNo) ?_ rfl hd
      intro q e e' he hb
      split at hb
      · split at hb
        · cases Option.some.inj hb
          exact he
        · cases Option.some.inj hb
          exact he
      · split at hb
        · split at hb
          · cases Option.some.inj hb
            exact he
          · cases hb
        · cases Option.some.inj hb
          exact he
    · cases Option.some.inj hd
      rfl
  exact hkept

theorem bootAccept_reset (c : Charger) (i : Fin 2) :
    (bootAccept c i).cs.bReqResetNo = c.cs.bReqResetNo := by
  unfold bootAccept
  split
  · dsimp only
    split
    · rfl
    · rfl
  · rfl

theorem dataProcCmdBoot_reset (h : dataProcCmdBoot rx c = some c') :
    c'.cs.bReqResetNo = c.cs.bReqResetNo := by
  refine forProps_inv (P := fun d => d.cs.bReqResetNo = c.cs.bReqResetNo) ?_ rfl h
  intro p d d' hd hb
  split at hb
  · cases Option.some.inj hb
    exact hd
  · split at hb
    · split at hb
      · split at hb
        · cases Option.some.inj hb
          have hone := bootAccept_reset (bootAccept d 0) 1
          exact hone.trans ((bootAccept_reset d 0).trans hd)
        · cases Option.some.inj hb
          exact hd
      · split at hb
        · cases Option.some.inj hb
          exact hd
        · cases Option.some.inj hb
          exact hd
    · cases Option.some.inj hb
      exact hd

theorem dataProcCmdStartTs_reset (h : dataProcCmdStartTs rx c = some c') :
    c'.cs.bReqResetNo = c.cs.bReqResetNo := by
  unfold dataProcCmdStartTs at h
  refine forProps_inv (P := fun d => d.cs.bReqResetNo = c.cs.bReqResetNo) ?_ rfl h
  intro p d d' hd hb
  split at hb
  · refine forSubProps_inv (P := fun d => d.cs.bReqResetNo = c.cs.bReqResetNo) ?_ hd hb
    intro q e e' he hq
    split at hq
    · cases Option.some.inj hq
      exact he
    · cases Option.some.inj hq
      exact he
  · split at hb
    · obtain ⟨i, _, rfl⟩ := Option.map_eq_some_iff.mp hb
      exact hd
    · cases Option.some.inj hb
      exact hd

theorem dataProcCmdStat_reset {callConn : List Char} (h : dataProcCmdStat callConn c = some c') :
    c'.cs.bReqResetNo = c.cs.bReqResetNo := by
  obtain ⟨i, _, rfl⟩ := Option.map_eq_some_iff.mp h
  dsimp only
  split
  · rfl
  · rfl

theorem dataProcCmdStopTs_reset (h : dataProcCmdStopTs c = some c') :
    c'.cs.bReqResetNo = c.cs.bReqResetNo := by
  obtain ⟨d, _, rfl⟩ := Option.map_eq_some_iff.mp h
  dsimp only
  split
  · rfl
  · split
    · rfl
    · rfl

theorem rxCallResDataProc_reset {m : TxMsg} (h : rxCallResDataProc rx m c = some c') :
    c'.cs.bReqResetNo = c.cs.bReqResetNo := by
  unfold rxCallResDataProc at h
  split at h
  · exact dataProcCmdAuth_reset h
  · exact dataProcCmdBoot_reset h
  · cases Option.some.inj h
    rfl
  · cases Option.some.inj h
    rfl
  · exact dataProcCmdStartTs_reset h
  · exact dataProcCmdStat_reset h
  · exact dataProcCmdStopTs_reset h
  all_goals
    cases Option.some.inj h
    rfl

end Answers

/-! ## The requests of the central system -/

section Served
variable {rx : RxBuf} {c c' : Charger} {tx tx' : TxBuf}

theorem setAvail_reset (c : Charger) (i : Fin 2) (b : Bool) :
    (setAvail c i b).cs.bReqResetNo = c.cs.bReqResetNo := by
  have hmark : ∀ code : CpStatus,
      (if c.cs.bCpStat i = code then c.setChgFlg i true else c).cs.bReqResetNo =
        c.cs.bReqResetNo := by
    intro code
    split
    · rfl
    · rfl
  exact hmark _

theorem dataProcCmdChangeAvail_reset {j : Junk}
    (h : dataProcCmdChangeAvail j rx c tx = some (c', tx')) :
    c'.cs.bReqResetNo = c.cs.bReqResetNo := by
  simp only [dataProcCmdChangeAvail, Option.bind_eq_bind, Option.bind_eq_some_iff] at h
  obtain ⟨l, _, h⟩ := h
  split at h
  · cases Option.some.inj h
    rfl
  · split at h
    · cases Option.some.inj h
      exact (setAvail_reset (setAvail c 0 l.setVal) 1 l.setVal).trans (setAvail_reset c 0 l.setVal)
    · obtain ⟨i, _, h⟩ := Option.bind_eq_some_iff.mp h
      cases Option.some.inj h
      exact setAvail_reset c i l.setVal

theorem changeConfigKey_cs (k v : Payload) (c : Charger) : (changeConfigKey k v c).2.cs = c.cs := by
  let P : ResType × Charger → Prop := fun r => r.2.cs = c.cs
  have hint : ∀ n, P (changeInt n v c) := fun n => by
    unfold changeInt
    split
    · rfl
    · rfl
  have hbool : ∀ n, P (changeBool n v c) := fun n => by
    unfold changeBool
    split
    · rfl
    · split
      · rfl
      · rfl
  have hloose : ∀ n, P (changeBoolLoose n v c) := fun n => rfl
  have hunstored : P (changeBoolUnstored v c) := by
    unfold changeBoolUnstored
    split
    · rfl
    · rfl
  have hkeep : ∀ r, P (r, c) := fun r => rfl
  have hite : ∀ {q : Bool} {x y : ResType × Charger}, P x → P y → P (if q then x else y) :=
    fun {q x y} hx hy => by cases q <;> [exact hy; exact hx]
  -- one `hite` per key, in the order of the chain
  exact hite (hint 10) <| hite (hint 1) <| hite (hbool 7) <| hite (hkeep _) <| hite (hint 2) <|
    hite (hloose 0) <| hite (hloose 20) <| hite (hloose 13) <| hite (hkeep _) <|
    hite (hbool 6) <| hite hunstored <| hite (hbool 23) <| hite (hbool 14) (hkeep _)

/-- **What a Reset asks for**: 2 for a hard one, 1 for a soft one, and nothing if it is
rejected. -/
theorem dataProcCmdReset_reset (h : dataProcCmdReset rx c tx = (c', tx')) :
    c'.cs.bReqResetNo = if acceptsReset rx.msg then
      if (rx.msg.payload 0).holds "Hard" then 2 else 1 else c.cs.bReqResetNo := by
  unfold acceptsReset
  unfold dataProcCmdReset at h
  dsimp only at h
  split at h
  · rename_i hhard
    cases h
    rw [hhard.1, hhard.2]
    rfl
  · rename_i hhard
    split at h
    · rename_i hsoft
      cases h
      rw [hsoft.1, hsoft.2]
      simp only [hsoft.1, true_and] at hhard
      simp [hhard]
    · rename_i hsoft
      cases h
      rw [if_neg]
      intro hacc
      simp only [Bool.and_eq_true, Bool.or_eq_true] at hacc
      rcases hacc.2 with hval | hval
      · exact hhard ⟨hacc.1, hval⟩
      · exact hsoft ⟨hacc.1, hval⟩

/-- A loop over the properties leaves the request alone if each of its passes does. -/
theorem forProps_reset {g : Payload → Charger → Option Charger}
    (hg : ∀ p d d', g p d = some d' → d'.cs.bReqResetNo = d.cs.bReqResetNo)
    (h : forProps rx g c = some c') : c'.cs.bReqResetNo = c.cs.bReqResetNo := by
  refine forProps_inv (P := fun d => d.cs.bReqResetNo = c.cs.bReqResetNo) ?_ rfl h
  intro p d d' hd hb
  exact (hg p d d' hb).trans hd

theorem dataProcCmdChangeConfig_reset :
    (dataProcCmdChangeConfig rx c tx).1.cs.bReqResetNo = c.cs.bReqResetNo := by
  unfold dataProcCmdChangeConfig
  dsimp only
  split
  · rw [changeConfigKey_cs]
  · rfl

theorem dataProcCmdDataTransCs_reset {j : Junk}
    (h : dataProcCmdDataTransCs j rx c tx = some (c', tx')) :
    c'.cs.bReqResetNo = c.cs.bReqResetNo := by
  simp only [dataProcCmdDataTransCs, Option.bind_eq_bind, Option.bind_eq_some_iff] at h
  obtain ⟨l, _, h⟩ := h
  split at h
  · cases Option.some.inj h
    rfl
  · cases Option.some.inj h
    rfl

theorem dataProcCmdGetDiag_reset (h : dataProcCmdGetDiag rx c tx = some (c', tx')) :
    c'.cs.bReqResetNo = c.cs.bReqResetNo := by
  simp only [dataProcCmdGetDiag, Option.bind_eq_bind, Option.bind_eq_some_iff] at h
  obtain ⟨d, hd, h⟩ := h
  cases Option.some.inj h
  refine forProps_reset (fun p e e' hb => ?_) hd
  split at hb
  · cases Option.some.inj hb
    rfl
  · cases Option.some.inj hb
    rfl

theorem dataProcCmdUnlockConnect_reset (h : dataProcCmdUnlockConnect rx c tx = some (c', tx')) :
    c'.cs.bReqResetNo = c.cs.bReqResetNo := by
  simp only [dataProcCmdUnlockConnect, Option.bind_eq_bind, Option.bind_eq_some_iff] at h
  obtain ⟨d, hd, h⟩ := h
  cases Option.some.inj h
  refine forProps_reset (fun p e e' hb => ?_) hd
  split at hb
  · cases Option.some.inj hb
    rfl
  · cases Option.some.inj hb
    rfl

theorem dataProcCmdRmStart_reset (h : dataProcCmdRmStart rx c tx = some (c', tx')) :
    c'.cs.bReqResetNo = c.cs.bReqResetNo := by
  simp only [dataProcCmdRmStart, Option.bind_eq_bind, Option.bind_eq_some_iff] at h
  obtain ⟨l, hl, h⟩ := h
  have hkept : l.2.2.cs.bReqResetNo = c.cs.bReqResetNo := by
    refine forProps_inv
      (P := fun l : Bool × UInt32 × Charger => l.2.2.cs.bReqResetNo = c.cs.bReqResetNo) ?_ rfl hl
    intro p m m' hm hb
    cases Option.some.inj hb
    split
    · split
      · exact hm
      · exact hm
    · split
      · exact hm
      · exact hm
  split at h
  · obtain ⟨i, _, h⟩ := Option.bind_eq_some_iff.mp h
    split at h
    · cases Option.some.inj h
      exact hkept
    · cases Option.some.inj h
      exact hkept
  · cases Option.some.inj h
    exact hkept

theorem dataProcCmdRmStopTr_reset (h : dataProcCmdRmStopTr rx c tx = some (c', tx')) :
    c'.cs.bReqResetNo = c.cs.bReqResetNo := by
  unfold dataProcCmdRmStopTr at h
  dsimp only at h
  split at h
  · obtain ⟨d, _, h⟩ := Option.map_eq_some_iff.mp h
    split at h
    · cases h
      rfl
    · cases h
      rfl
  · cases Option.some.inj h
    rfl

theorem dataProcCmdTriggerMsg_reset (h : dataProcCmdTriggerMsg rx c tx = some (c', tx')) :
    c'.cs.bReqResetNo = c.cs.bReqResetNo := by
  simp only [dataProcCmdTriggerMsg, Option.bind_eq_bind, Option.bind_eq_some_iff] at h
  obtain ⟨l, _, h⟩ := h
  split at h
  · cases Option.some.inj h
    rfl
  · cases Option.some.inj h
    rfl

theorem dataProcCmdUpdateFw_reset (h : dataProcCmdUpdateFw rx c tx = some (c', tx')) :
    c'.cs.bReqResetNo = c.cs.bReqResetNo := by
  simp only [dataProcCmdUpdateFw, Option.bind_eq_bind, Option.bind_eq_some_iff] at h
  obtain ⟨fw, _, h⟩ := h
  cases Option.some.inj h
  rfl

/-- **Only a Reset asks for one.** -/
theorem rxCallDataProc_reset {cmd : CsReqAction} {j : Junk}
    (h : rxCallDataProc cmd j rx c tx = some (c', tx')) :
    c'.cs.bReqResetNo = if cmd = .reset ∧ acceptsReset rx.msg = true then
      if (rx.msg.payload 0).holds "Hard" then 2 else 1 else c.cs.bReqResetNo := by
  cases cmd with
  | changeAvail => exact dataProcCmdChangeAvail_reset h
  | changeConfig =>
    cases Option.some.inj h
    exact @dataProcCmdChangeConfig_reset rx c tx
  | dataTransfer => exact dataProcCmdDataTransCs_reset h
  | getConfig =>
    obtain ⟨t, _, h⟩ := Option.map_eq_some_iff.mp h
    cases h
    rfl
  | getDiag => exact dataProcCmdGetDiag_reset h
  | unlockConnect => exact dataProcCmdUnlockConnect_reset h
  | remoteStart => exact dataProcCmdRmStart_reset h
  | remoteStop => exact dataProcCmdRmStopTr_reset h
  | reset =>
    simp only [true_and]
    exact dataProcCmdReset_reset (Option.some.inj h)
  | triggerMsg => exact dataProcCmdTriggerMsg_reset h
  | updateFw => exact dataProcCmdUpdateFw_reset h
  | clearCache | clearChargProf | getLocalVer | sndLocalList | none | cancelReseve
  | getCompositSched | reserve | setChgProfile =>
    cases Option.some.inj h
    rfl

end Served

/-! ## One event, a run -/

theorem Call.reset (a : Call) (k : Clock) (c : Charger) :
    (a.finish (a.prepare k c)).cs.bReqResetNo = c.cs.bReqResetNo := by
  cases a <;> rfl

theorem EnvWrite.reset {w : EnvWrite} {c c' : Charger} {o : List Obs}
    (h : w.apply c = some (c', o)) : c'.cs.bReqResetNo = c.cs.bReqResetNo := by
  cases w with
  | setCpStatus code ch =>
    obtain ⟨i, -, heq⟩ := Option.map_eq_some_iff.mp h
    obtain ⟨rfl, -⟩ := Prod.mk.inj heq
    rfl
  | scene | reqStopTs | reqStartTs | reqAuth | scndCardNo | clearParentId | qrEvent | rmtStart
  | rmtStop | diagLogReqStep | updateStep | chargingStatus | devChannel | stopTsConfig =>
    obtain ⟨rfl, -⟩ := Prod.mk.inj (Option.some.inj h)
    rfl

/-- **An event asks for a Reset or leaves the request as it was.** -/
theorem Client.Noted.reset {s s' : Client} {n : List Remark} {o : List Obs}
    (h : s.Noted s' n o) :
    (s'.cp.cs.bReqResetNo ≠ 0 ∧ ∃ e ∈ (n.map .inl ++ o.map .inr : List Entry), ordersReset e) ∨
      (s'.cp.cs.bReqResetNo = s.cp.cs.bReqResetNo ∧
        ∀ e ∈ (n.map .inl ++ o.map .inr : List Entry), ordersReset e = false) := by
  cases h with
  | quiet f rx b hb hs hn ho =>
    subst hs hn ho
    exact .inr ⟨rfl, by simp⟩
  | raised k hreq hs hn ho =>
    subst hs hn ho
    exact .inr ⟨rfl, by simp [ordersReset]⟩
  | sampled k f ty hn hs ho =>
    subst hs hn ho
    exact .inr ⟨rfl, by simp [ordersReset]⟩
  | connected hc hs hn ho =>
    subst hs hn ho
    exact .inr ⟨rfl, by simp [ordersReset]⟩
  | idle k f t v w hc hsen hs hn ho =>
    subst hs hn ho
    exact .inr ⟨rfl, by simp [ordersReset]⟩
  | gaveUp k w hc hw hsen hs hn ho =>
    subst hs hn ho
    exact .inr ⟨rfl, by simp [ordersReset]⟩
  | failed k a f t tx d v hc hw hsen hg hb hs hn ho =>
    subst hs hn ho
    refine .inr ⟨Call.reset a k (s.cp.pulse f t), ?_⟩
    cases a <;> simp [Call.samples, ordersReset]
  | called k a f t tx d v hc hw hsen hg hb hs hn ho =>
    subst hs hn ho
    refine .inr ⟨Call.reset a k (s.cp.pulse f t), ?_⟩
    cases a <;> simp [Call.samples, ordersReset]
  | dropped rx d b hc hs hn ho =>
    subst hs hn ho
    exact .inr ⟨rfl, by simp⟩
  | answered frame rx d c hc hw hact hid hproc hs hn ho =>
    subst hs hn ho
    exact .inr ⟨rxCallResDataProc_reset hproc, by simp [ordersReset]⟩
  | served frame rx rx' d b cmd j c tx tx' sent hc hcmd hproc hs hsent hgate hn ho =>
    subst hs hn ho
    have hreset := rxCallDataProc_reset hproc
    by_cases hacc : cmd = .reset ∧ acceptsReset rx.msg = true
    · rw [if_pos hacc] at hreset
      refine .inl ⟨?_, .inr (.served frame rx.msg), by simp, ?_⟩
      · show c.cs.bReqResetNo ≠ 0
        rw [hreset]
        split
        · decide
        · decide
      · simp [ordersReset, hcmd, hacc.1, hacc.2]
    · rw [if_neg hacc] at hreset
      refine .inr ⟨hreset, ?_⟩
      intro e he
      simp only [List.map_nil, List.nil_append, List.map_cons, List.mem_cons, List.mem_map] at he
      rcases he with rfl | ⟨ob, hob, rfl⟩
      · rw [not_and] at hacc
        simpa [ordersReset, hcmd] using hacc
      · obtain ⟨f, m, rfl, -⟩ := hsent ob hob
        rfl
  | env w c hw hs hn =>
    subst hs hn
    refine .inr ⟨EnvWrite.reset hw, ?_⟩
    intro e he
    cases w with
    | setCpStatus code ch =>
      obtain ⟨i, -, heq⟩ := Option.map_eq_some_iff.mp hw
      obtain ⟨-, rfl⟩ := Prod.mk.inj heq
      simp only [List.map_cons, List.map_nil, List.append_nil, List.mem_singleton] at he
      subst he
      rfl
    | reqStopTs =>
      obtain ⟨-, rfl⟩ := Prod.mk.inj (Option.some.inj hw)
      simp only [List.map_cons, List.map_nil, List.cons_append, List.nil_append, List.mem_cons,
        List.not_mem_nil, or_false] at he
      rcases he with rfl | rfl
      · rfl
      · rfl
    | scene | reqStartTs | reqAuth | scndCardNo | clearParentId | qrEvent | rmtStart
    | rmtStop | diagLogReqStep | updateStep | chargingStatus | devChannel | stopTsConfig =>
      obtain ⟨-, rfl⟩ := Prod.mk.inj (Option.some.inj hw)
      simp only [List.map_cons, List.map_nil, List.append_nil, List.mem_singleton] at he
      subst he
      rfl

/-- **A Reset is asked for from the first one that was accepted on, and not before.** -/
theorem Journaled.reset_iff {s : Client} {log : List Entry} (h : Journaled s log) :
    s.cp.cs.bReqResetNo ≠ 0 ↔ ∃ e ∈ log, ordersReset e := by
  obtain ⟨st, now, h⟩ := h
  induction h with
  | start => simp [Client.init, Charger.init]
  | @step s s' log l e _ _ hstep ih =>
    obtain ⟨n, o, rfl, hnoted⟩ := journal_cases hstep
    simp only [List.mem_append]
    rcases hnoted.reset with ⟨hset, x, hx, hord⟩ | ⟨hkept, hnone⟩
    · exact ⟨fun _ => ⟨x, .inr (List.mem_append.mp hx), hord⟩, fun _ => hset⟩
    · rw [hkept, ih]
      constructor
      · intro hold
        obtain ⟨x, hx, hord⟩ := hold
        exact ⟨x, .inl hx, hord⟩
      · intro hnew
        obtain ⟨x, hx | hx, hord⟩ := hnew
        · exact ⟨x, hx, hord⟩
        · rw [hnone x (List.mem_append.mpr hx)] at hord
          cases hord

end ChargePoint
